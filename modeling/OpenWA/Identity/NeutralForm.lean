import OpenWA.Identity.WaId

/-!
This module contains the neutral form of an identifier: what it looks like, and that it is its own neutral form.
-/

namespace OpenWA.Identity

open Js

/--
What is used of `toLowerCase` on what it returned itself: a part from the start stays, and it starts with white
space only where its argument does.
-/
structure LowersOnce (toLowerCase : Text → Text) : Prop extends LowersCase toLowerCase where
  stable : ∀ t u, u <+: toLowerCase t → toLowerCase u = u
  head : ∀ t c, (toLowerCase t).head? = some c → isWhiteSpace c = true →
    ∃ c', t.head? = some c' ∧ isWhiteSpace c' = true

/-- The answer depends on the parsed user part only, and it is digits or null. -/
structure ByUserPart (toLowerCase : Text → Text) (resolvePhone : Text → Option Text) : Prop where
  same : ∀ a b, (parseWaId toLowerCase a).userPart = (parseWaId toLowerCase b).userPart →
    resolvePhone a = resolvePhone b
  digits : ∀ jid phone, resolvePhone jid = some phone → ∀ c ∈ phone, c.isDigit = true

variable {toLowerCase : Text → Text}

/-- A user part as it is written into a neutral identifier. -/
structure Plain (toLowerCase : Text → Text) (u : Text) : Prop where
  noDevice : ':' ∉ u
  lower : toLowerCase u = u
  start : trimStart u = u

theorem trimStart_eq_self {u : Text} (h : ∀ c, u.head? = some c → isWhiteSpace c = false) : trimStart u = u := by
  cases u with
  | nil => rfl
  | cons c u => exact List.dropWhile_cons_of_neg (by simp [h c rfl])

theorem head?_trim {jid : Text} {c : Char} (h : (trim jid).head? = some c) : isWhiteSpace c = false := by
  have hprefix : trim jid <+: trimStart jid := List.rdropWhile_prefix _ _
  rcases hprefix with ⟨rest, hrest⟩
  have hstart : (trimStart jid).head? = some c := by
    rw [← hrest, List.head?_append, h, Option.some_or]
  have hnot := List.head?_dropWhile_not isWhiteSpace jid
  unfold trimStart at hstart
  rw [hstart] at hnot
  simpa using hnot

/-- The user part that is parsed before a domain. -/
theorem plain_userPart (hlower : LowersOnce toLowerCase) {jid local' domain : Text}
    (h : splitLast '@' (toLowerCase (trim jid)) = some (local', domain)) :
    Plain toLowerCase (firstPart ':' local') := by
  have hlocal : local' <+: toLowerCase (trim jid) := by
    unfold splitLast at h
    split at h
    . simp only [Option.some.injEq, Prod.mk.injEq] at h
      rw [← h.1]
      exact (List.dropLast_prefix _).trans (List.rdropWhile_prefix _ _)
    . contradiction
  have hprefix : firstPart ':' local' <+: toLowerCase (trim jid) := (List.takeWhile_prefix _).trans hlocal
  refine ⟨?_, hlower.stable _ _ hprefix, trimStart_eq_self ?_⟩
  . intro hmem
    simpa using List.mem_takeWhile_imp hmem
  . intro c hc
    rcases hprefix with ⟨rest, hrest⟩
    have hhead : (toLowerCase (trim jid)).head? = some c := by
      rw [← hrest, List.head?_append, hc, Option.some_or]
    rw [Bool.eq_false_iff]
    intro hspace
    rcases hlower.head _ _ hhead hspace with ⟨c', hc', hspace'⟩
    rw [head?_trim hc'] at hspace'
    contradiction

theorem firstPart_eq_self {u : Text} (h : ':' ∉ u) : firstPart ':' u = u := by
  apply List.takeWhile_eq_self_iff.mpr
  intro c hc
  have hne : c ≠ ':' := fun heq => h (heq ▸ hc)
  simpa using hne

/-- A user part and a domain other than that of the broadcasts are read back. -/
theorem parseWaId_plain (hlower : LowersOnce toLowerCase) {u d : Text} (hu : Plain toLowerCase u)
    (hd : IsDomain d) (hne : d.map Char.toLower ≠ "broadcast".toList) :
    (parseWaId toLowerCase (u ++ '@' :: d)).kind = (DOMAIN_KINDS.lookup (d.map Char.toLower)).getD .unknown ∧
      (parseWaId toLowerCase (u ++ '@' :: d)).userPart = u := by
  rw [parseWaId_append_at hlower.toLowersCase hd hne, hu.start, hu.lower]
  exact ⟨rfl, firstPart_eq_self hu.noDevice⟩

theorem lower_plain (hlower : LowersOnce toLowerCase) {u d : Text} (hu : Plain toLowerCase u)
    (hd : IsDomain d) (hself : d.map Char.toLower = d) :
    toLowerCase (trim (u ++ '@' :: d)) = u ++ '@' :: d := by
  rcases hd.last with ⟨c, hlast, hc⟩
  rw [trim_append_at u hlast hc, hu.start, hlower.append_at, hu.lower, hlower.ascii d hd.ascii, hself]

theorem isDomain_broadcast : IsDomain "broadcast".toList :=
  ⟨by decide, forall_mem_of_all (by decide), 't', by decide, by decide⟩

/-- The neutral forms but the one of a person, which the resolver has a say in. -/
theorem toNeutralJid_broadcast (hlower : LowersOnce toLowerCase) {u : Text} (hu : Plain toLowerCase u)
    (resolvePhone : Text → Option Text) :
    toNeutralJid toLowerCase (u ++ "@broadcast".toList) resolvePhone = u ++ "@broadcast".toList := by
  have hlowered : toLowerCase (trim (u ++ "@broadcast".toList)) = u ++ "@broadcast".toList :=
    lower_plain hlower hu isDomain_broadcast (by decide)
  have hne : (u ++ "@broadcast".toList).isEmpty = false := by
    cases u <;> rfl
  unfold toNeutralJid
  rw [hne, if_neg Bool.false_ne_true]
  unfold parseWaId
  rw [hlowered]
  dsimp only
  by_cases hstatus : u ++ "@broadcast".toList = "status@broadcast".toList
  . rw [if_pos hstatus]
    exact hstatus.symm
  . have hsplit : splitLast '@' (u ++ "@broadcast".toList) = some (u, "broadcast".toList) :=
      splitLast_append_cons (by decide) u
    have hkind : (DOMAIN_KINDS.lookup "broadcast".toList).getD .unknown = .broadcast := by decide
    rw [if_neg hstatus, hsplit]
    dsimp only
    rw [hkind, firstPart_eq_self hu.noDevice]

/-- The identifier is made of a user part and a domain of the neutral dialect. -/
def IsNeutral (toLowerCase : Text → Text) (neutral : Text) : Prop :=
  ∃ u d, Plain toLowerCase u ∧ neutral = u ++ d ∧
    d ∈ ["@c.us".toList, "@g.us".toList, "@lid".toList, "@newsletter".toList, "@broadcast".toList]

theorem IsNeutral.ends {neutral : Text} (h : IsNeutral toLowerCase neutral) :
    ¬ "@s.whatsapp.net".toList <:+ neutral ∧ ¬ "@hosted".toList <:+ neutral ∧
      ¬ "@hosted.lid".toList <:+ neutral ∧ ':' ∉ neutral := by
  rcases h with ⟨u, d, hu, rfl, hd⟩
  have hother {v : Text} (hv : ¬ v <:+ d ∧ ¬ d <:+ v) : ¬ v <:+ u ++ d := by
    intro hsuffix
    rcases List.suffix_or_suffix_of_suffix hsuffix (List.suffix_append u d) with h | h
    . exact hv.1 h
    . exact hv.2 h
  have hcolon (hnone : ':' ∉ d) : ':' ∉ u ++ d := by
    rw [List.mem_append]
    exact not_or.mpr ⟨hu.noDevice, hnone⟩
  simp only [List.mem_cons, List.not_mem_nil, or_false] at hd
  rcases hd with rfl | rfl | rfl | rfl | rfl <;>
    exact ⟨hother (by decide), hother (by decide), hother (by decide), hcolon (by decide)⟩

theorem plain_of_ascii (hlower : LowersOnce toLowerCase) {u : Text}
    (hascii : ∀ c ∈ u, c.toNat < 128 ∧ c.toLower = c) (hcolon : ':' ∉ u) (hstart : trimStart u = u) :
    Plain toLowerCase u :=
  ⟨hcolon, hlower.eq_self hascii, hstart⟩

theorem plain_status (hlower : LowersOnce toLowerCase) : Plain toLowerCase "status".toList :=
  plain_of_ascii hlower (forall_mem_of_all (p := fun c => c.toNat < 128 ∧ c.toLower = c) (by decide)) (by decide)
    (by decide)

theorem plain_of_digits (hlower : LowersOnce toLowerCase) {phone : Text} (h : ∀ c ∈ phone, c.isDigit = true) :
    Plain toLowerCase phone := by
  refine plain_of_ascii hlower (fun c hc => toLower_digit (h c hc)) ?_ ?_
  . intro hmem
    have hdigit := h ':' hmem
    contradiction
  . apply trimStart_eq_self
    intro c hc
    exact isWhiteSpace_of_isDigit (h c (List.mem_of_mem_head? hc))

/-- What is parsed of an identifier of a known kind. -/
theorem plain_of_known (hlower : LowersOnce toLowerCase) {jid : Text}
    (h : (parseWaId toLowerCase jid).kind ≠ .unknown) : Plain toLowerCase (parseWaId toLowerCase jid).userPart := by
  unfold parseWaId at h ⊢
  dsimp only at h ⊢
  split
  . exact plain_status hlower
  . next hstatus =>
    rw [if_neg hstatus] at h
    cases hsplit : splitLast '@' (toLowerCase (trim jid)) with
    | none =>
      rw [hsplit] at h
      exact absurd rfl h
    | some parts => exact plain_userPart hlower hsplit

/-- The neutral form by what was parsed. -/
def neutralOf (jid u : Text) (kind : WaIdKind) (resolvePhone : Text → Option Text) : Text :=
  match kind with
  | .user => u ++ "@c.us".toList
  | .group => u ++ "@g.us".toList
  | .lid =>
    match (resolvePhone jid).filter fun phone => !phone.isEmpty with
    | some phone => phone ++ "@c.us".toList
    | none => u ++ "@lid".toList
  | .status => "status@broadcast".toList
  | .newsletter => u ++ "@newsletter".toList
  | .broadcast => u ++ "@broadcast".toList
  | .unknown => jid

theorem toNeutralJid_of_parsed {jid u : Text} {kind : WaIdKind} (hne : jid.isEmpty = false)
    (hkind : (parseWaId toLowerCase jid).kind = kind) (huser : (parseWaId toLowerCase jid).userPart = u)
    (resolvePhone : Text → Option Text) :
    toNeutralJid toLowerCase jid resolvePhone = neutralOf jid u kind resolvePhone := by
  unfold toNeutralJid neutralOf
  rw [hne, if_neg Bool.false_ne_true]
  dsimp only
  rw [hkind, huser]
  cases kind with
  | lid =>
    cases resolvePhone jid with
    | none => rfl
    | some phone => cases phone <;> rfl
  | _ => rfl

/-- A user part before a domain of the neutral dialect. -/
theorem toNeutralJid_plain (hlower : LowersOnce toLowerCase) {u d : Text} {kind : WaIdKind}
    (hu : Plain toLowerCase u) (hd : IsDomain d) (hne : d.map Char.toLower ≠ "broadcast".toList)
    (hkind : (DOMAIN_KINDS.lookup (d.map Char.toLower)).getD .unknown = kind)
    (resolvePhone : Text → Option Text) :
    toNeutralJid toLowerCase (u ++ '@' :: d) resolvePhone = neutralOf (u ++ '@' :: d) u kind resolvePhone := by
  rcases parseWaId_plain hlower hu hd hne with ⟨hparsed, huser⟩
  have hempty : (u ++ '@' :: d).isEmpty = false := by
    cases u <;> rfl
  exact toNeutralJid_of_parsed hempty (hparsed.trans hkind) huser resolvePhone

theorem toNeutralJid_user (hlower : LowersOnce toLowerCase) {u : Text} (hu : Plain toLowerCase u)
    (resolvePhone : Text → Option Text) :
    toNeutralJid toLowerCase (u ++ "@c.us".toList) resolvePhone = u ++ "@c.us".toList := by
  have hkind : (DOMAIN_KINDS.lookup ("c.us".toList.map Char.toLower)).getD .unknown = .user := by decide
  exact toNeutralJid_plain hlower hu isDomain_cUs (by decide) hkind resolvePhone

theorem toNeutralJid_group (hlower : LowersOnce toLowerCase) {u : Text} (hu : Plain toLowerCase u)
    (resolvePhone : Text → Option Text) :
    toNeutralJid toLowerCase (u ++ "@g.us".toList) resolvePhone = u ++ "@g.us".toList := by
  have hdomain : IsDomain "g.us".toList := ⟨by decide, forall_mem_of_all (by decide), 's', by decide, by decide⟩
  have hkind : (DOMAIN_KINDS.lookup ("g.us".toList.map Char.toLower)).getD .unknown = .group := by decide
  exact toNeutralJid_plain hlower hu hdomain (by decide) hkind resolvePhone

theorem toNeutralJid_newsletter (hlower : LowersOnce toLowerCase) {u : Text} (hu : Plain toLowerCase u)
    (resolvePhone : Text → Option Text) :
    toNeutralJid toLowerCase (u ++ "@newsletter".toList) resolvePhone = u ++ "@newsletter".toList := by
  have hdomain : IsDomain "newsletter".toList :=
    ⟨by decide, forall_mem_of_all (by decide), 'r', by decide, by decide⟩
  have hkind : (DOMAIN_KINDS.lookup ("newsletter".toList.map Char.toLower)).getD .unknown = .newsletter := by
    decide
  exact toNeutralJid_plain hlower hu hdomain (by decide) hkind resolvePhone

/-- A lid whose phone is not known stays. -/
theorem toNeutralJid_lid (hlower : LowersOnce toLowerCase) {resolvePhone : Text → Option Text}
    (hresolve : ByUserPart toLowerCase resolvePhone) {jid : Text}
    (hu : Plain toLowerCase (parseWaId toLowerCase jid).userPart)
    (hnone : (resolvePhone jid).filter (fun phone => !phone.isEmpty) = none) :
    toNeutralJid toLowerCase ((parseWaId toLowerCase jid).userPart ++ "@lid".toList) resolvePhone =
      (parseWaId toLowerCase jid).userPart ++ "@lid".toList := by
  have hdomain : IsDomain "lid".toList := ⟨by decide, forall_mem_of_all (by decide), 'd', by decide, by decide⟩
  have hkind : (DOMAIN_KINDS.lookup ("lid".toList.map Char.toLower)).getD .unknown = .lid := by decide
  have hread := toNeutralJid_plain hlower hu hdomain (by decide) hkind resolvePhone
  have hsame := hresolve.same _ jid (parseWaId_plain hlower hu hdomain (by decide)).2
  unfold neutralOf at hread
  dsimp only at hread
  rwa [hsame, hnone] at hread

/-- The neutral form of an identifier of a known kind is one, and it is its own. -/
theorem toNeutralJid_known (hlower : LowersOnce toLowerCase) {resolvePhone : Text → Option Text}
    (hresolve : ByUserPart toLowerCase resolvePhone) {jid : Text} (hne : jid.isEmpty = false)
    (hknown : (parseWaId toLowerCase jid).kind ≠ .unknown) :
    IsNeutral toLowerCase (toNeutralJid toLowerCase jid resolvePhone) ∧
      toNeutralJid toLowerCase (toNeutralJid toLowerCase jid resolvePhone) resolvePhone =
        toNeutralJid toLowerCase jid resolvePhone := by
  have hu := plain_of_known hlower hknown
  have hform {neutral u d : Text} (hplain : Plain toLowerCase u) (heq : neutral = u ++ d)
      (hd : d ∈ ["@c.us".toList, "@g.us".toList, "@lid".toList, "@newsletter".toList, "@broadcast".toList])
      (hfixed : toNeutralJid toLowerCase (u ++ d) resolvePhone = u ++ d) :
      IsNeutral toLowerCase neutral ∧ toNeutralJid toLowerCase neutral resolvePhone = neutral :=
    heq ▸ ⟨⟨u, d, hplain, rfl, hd⟩, hfixed⟩
  cases hkind : (parseWaId toLowerCase jid).kind with
  | user =>
    have hneutral : toNeutralJid toLowerCase jid resolvePhone =
        (parseWaId toLowerCase jid).userPart ++ "@c.us".toList := toNeutralJid_of_parsed hne hkind rfl resolvePhone
    exact hform hu hneutral (by decide) (toNeutralJid_user hlower hu _)
  | group =>
    have hneutral : toNeutralJid toLowerCase jid resolvePhone =
        (parseWaId toLowerCase jid).userPart ++ "@g.us".toList := toNeutralJid_of_parsed hne hkind rfl resolvePhone
    exact hform hu hneutral (by decide) (toNeutralJid_group hlower hu _)
  | lid =>
    have hneutral := toNeutralJid_of_parsed hne hkind rfl resolvePhone
    unfold neutralOf at hneutral
    dsimp only at hneutral
    cases hphone : (resolvePhone jid).filter fun phone => !phone.isEmpty with
    | none =>
      rw [hphone] at hneutral
      exact hform hu hneutral (by decide) (toNeutralJid_lid hlower hresolve hu hphone)
    | some phone =>
      rw [hphone] at hneutral
      have hplain := plain_of_digits hlower (hresolve.digits jid _ (Option.filter_eq_some_iff.mp hphone).1)
      exact hform hplain hneutral (by decide) (toNeutralJid_user hlower hplain _)
  | status =>
    have hneutral : toNeutralJid toLowerCase jid resolvePhone = "status".toList ++ "@broadcast".toList :=
      toNeutralJid_of_parsed hne hkind rfl resolvePhone
    exact hform (plain_status hlower) hneutral (by decide) (toNeutralJid_broadcast hlower (plain_status hlower) _)
  | newsletter =>
    have hneutral : toNeutralJid toLowerCase jid resolvePhone =
        (parseWaId toLowerCase jid).userPart ++ "@newsletter".toList := toNeutralJid_of_parsed hne hkind rfl resolvePhone
    exact hform hu hneutral (by decide) (toNeutralJid_newsletter hlower hu _)
  | broadcast =>
    have hneutral : toNeutralJid toLowerCase jid resolvePhone =
        (parseWaId toLowerCase jid).userPart ++ "@broadcast".toList := toNeutralJid_of_parsed hne hkind rfl resolvePhone
    exact hform hu hneutral (by decide) (toNeutralJid_broadcast hlower hu _)
  | unknown => exact absurd hkind hknown

/-- What is reduced to the neutral dialect is in it, and reducing it again changes nothing. -/
theorem toNeutralJid_normal (hlower : LowersOnce toLowerCase) {resolvePhone : Text → Option Text}
    (hresolve : ByUserPart toLowerCase resolvePhone) (jid : Text) :
    let neutral := toNeutralJid toLowerCase jid resolvePhone
    toNeutralJid toLowerCase neutral resolvePhone = neutral ∧
      ((parseWaId toLowerCase jid).kind ≠ .unknown →
        ¬ "@s.whatsapp.net".toList <:+ neutral ∧ ¬ "@hosted".toList <:+ neutral ∧
          ¬ "@hosted.lid".toList <:+ neutral ∧ ':' ∉ neutral) := by
  intro neutral
  by_cases hknown : (parseWaId toLowerCase jid).kind = .unknown
  . have hself : neutral = jid := by
      cases hempty : jid.isEmpty with
      | true =>
        change toNeutralJid toLowerCase jid resolvePhone = jid
        unfold toNeutralJid
        rw [hempty, if_pos rfl]
      | false => exact toNeutralJid_of_parsed hempty hknown rfl resolvePhone
    rw [hself]
    exact ⟨hself, fun h => absurd hknown h⟩
  . have hempty : jid.isEmpty = false := by
      rw [Bool.eq_false_iff]
      intro hempty
      rw [List.isEmpty_iff] at hempty
      subst hempty
      have hlowered : toLowerCase (trim []) = [] := hlower.ascii [] nofun
      unfold parseWaId at hknown
      rw [hlowered] at hknown
      exact hknown rfl
    rcases toNeutralJid_known hlower hresolve hempty hknown with ⟨hform, hfixed⟩
    exact ⟨hfixed, fun _ => hform.ends⟩

theorem isWhiteSpace_of_isLower {c : Char} (h : 97 ≤ c.toNat ∧ c.toNat ≤ 122) : isWhiteSpace c = false := by
  have hne (s : Char) (hs : s.toNat < 97 ∨ 122 < s.toNat) : c ≠ s := by
    rintro rfl
    omega
  have hsmall : ¬ '\u2000' ≤ c := by
    rw [Char.le_def, UInt32.le_iff_toNat_le]
    change ¬ 0x2000 ≤ c.toNat
    omega
  simp [isWhiteSpace, hsmall, hne]

theorem lowersOnce_map_toLower : LowersOnce (·.map Char.toLower) where
  toLowersCase := lowersCase_map_toLower
  stable := by
    intro t u hstart
    conv_rhs => rw [← List.map_id u]
    apply List.map_congr_left
    intro c hc
    rcases List.mem_map.mp (hstart.subset hc) with ⟨x, _, rfl⟩
    rw [id, ← Char.toNat_inj, toNat_toLower, toNat_toLower]
    split
    . rw [if_neg (by omega)]
    . rfl
  head := by
    intro t c hhead hspace
    cases t with
    | nil => nomatch hhead
    | cons x t =>
      have hlower : x.toLower = c := Option.some.inj hhead
      refine ⟨x, rfl, ?_⟩
      by_cases hupper : 65 ≤ x.toNat ∧ x.toNat ≤ 90
      . have hnat : c.toNat = x.toNat + 32 := by rw [← hlower, toNat_toLower, if_pos hupper]
        rw [isWhiteSpace_of_isLower (by omega)] at hspace
        contradiction
      . have hself : x.toLower = x := by rw [← Char.toNat_inj, toNat_toLower, if_neg hupper]
        rwa [← hself, hlower]

/-- Padding, capitals, a device and a second `@`; the lid is not known. -/
theorem toNeutralJid_normal_padded :
    let neutral := toNeutralJid (·.map Char.toLower) " A@7:2@LID".toList fun _ => none
    toNeutralJid (·.map Char.toLower) neutral (fun _ => none) = neutral := by
  have hresolve : ByUserPart (·.map Char.toLower) fun _ => none :=
    ⟨fun _ _ _ => rfl, by intro _ _ h; contradiction⟩
  exact (toNeutralJid_normal lowersOnce_map_toLower hresolve " A@7:2@LID".toList).1

end OpenWA.Identity
