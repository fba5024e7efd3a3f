import OpenWA.Js.Text

/-!
This module contains the identifiers of the messenger in their several dialects and their reduction to
the neutral one. Lowering the case of a text is a parameter.
-/

namespace OpenWA.Identity

open Js

inductive WaIdKind where
  | user
  | group
  | lid
  | status
  | newsletter
  | broadcast
  | unknown
deriving DecidableEq

/-- `c.us` and `s.whatsapp.net` are one entity in two dialects, and so are the hosted forms. -/
def DOMAIN_KINDS : List (Text × WaIdKind) :=
  [("c.us".toList, .user), ("s.whatsapp.net".toList, .user), ("lid".toList, .lid),
    ("hosted".toList, .user), ("hosted.lid".toList, .lid), ("g.us".toList, .group),
    ("newsletter".toList, .newsletter), ("broadcast".toList, .broadcast)]

structure ParsedWaId where
  kind : WaIdKind
  /-- The local part without the device suffix and the domain. -/
  userPart : Text
  device : Option Text
  /-- The identifier as it was given. -/
  raw : Text
deriving DecidableEq

/-- `t.split(c)[0]` -/
def firstPart (c : Char) (t : Text) : Text := t.takeWhile (· ≠ c)

def userPart (jid : Text) : Text := firstPart ':' (firstPart '@' jid)

/-- What is before and after the last `c`. -/
def splitLast (c : Char) (t : Text) : Option (Text × Text) :=
  if c ∈ t then some ((t.rdropWhile (· ≠ c)).dropLast, t.rtakeWhile (· ≠ c)) else none

variable (toLowerCase : Text → Text)

/-- Classify an identifier without resolving anything. -/
def parseWaId (jid : Text) : ParsedWaId :=
  let lower := toLowerCase (trim jid)
  if lower = "status@broadcast".toList then ⟨.status, "status".toList, none, jid⟩
  else
    match splitLast '@' lower with
    | none => ⟨.unknown, lower, none, jid⟩
    | some (local', domain) => {
      kind := (DOMAIN_KINDS.lookup domain).getD .unknown
      userPart := firstPart ':' local'
      device := (local'.splitOn ':')[1]?
      raw := jid
    }

/-- `/^\d{5,}$/` -/
def isNumericId (t : Text) : Bool := 5 ≤ t.length && t.all Char.isDigit

/-- A resolver that is missing answers `none`; an empty phone counts as none. -/
def toNeutralJid (jid : Text) (resolvePhone : Text → Option Text) : Text :=
  if jid.isEmpty then jid
  else
    let parsed := parseWaId toLowerCase jid
    match parsed.kind with
    | .user => parsed.userPart ++ "@c.us".toList
    | .group => parsed.userPart ++ "@g.us".toList
    | .lid =>
      match resolvePhone jid with
      | none | some [] => parsed.userPart ++ "@lid".toList
      | some phone => phone ++ "@c.us".toList
    | .status => "status@broadcast".toList
    | .newsletter => parsed.userPart ++ "@newsletter".toList
    | .broadcast => parsed.userPart ++ "@broadcast".toList
    | .unknown => jid

/-- The kind of a chat as the users of the service read it. -/
inductive ChatKind where
  | individual
  | group
  | channel
  | status
  | broadcast
  | unknown
deriving DecidableEq

/-- A lid is a dialect of a user. -/
def chatKind (jid : Text) : ChatKind :=
  match (parseWaId toLowerCase jid).kind with
  | .user | .lid => .individual
  | .group => .group
  | .newsletter => .channel
  | .status => .status
  | .broadcast => .broadcast
  | .unknown => .unknown

def ChatKind.toText (k : ChatKind) : Text :=
  match k with
  | .individual => "individual".toList
  | .group => "group".toList
  | .channel => "channel".toList
  | .status => "status".toList
  | .broadcast => "broadcast".toList
  | .unknown => "unknown".toList


section Domains

theorem append_ne_append {a b u v : Text} (h : u.getLast? ≠ v.getLast?) (hu : u ≠ [])
    (hv : v ≠ []) : a ++ u ≠ b ++ v := by
  intro heq
  have hlast := congrArg List.getLast? heq
  rw [List.getLast?_append, List.getLast?_append, List.getLast?_eq_some_getLast hu,
    List.getLast?_eq_some_getLast hv] at hlast
  rw [List.getLast?_eq_some_getLast hu, List.getLast?_eq_some_getLast hv] at h
  exact h (by simpa using hlast)

theorem cUs_ne_lid (a b : Text) : a ++ "@c.us".toList ≠ b ++ "@lid".toList :=
  append_ne_append (by decide) (by decide) (by decide)

end Domains

/-- What is used of `toLowerCase`: an `@` is no part of a word, and the letters of ASCII. -/
structure LowersCase (toLowerCase : Text → Text) : Prop where
  append_at : ∀ t u, toLowerCase (t ++ '@' :: u) = toLowerCase t ++ '@' :: toLowerCase u
  ascii : ∀ t : Text, (∀ c ∈ t, c.toNat < 128) → toLowerCase t = t.map Char.toLower

theorem lowersCase_map_toLower : LowersCase (·.map Char.toLower) where
  append_at := by simp
  ascii _ _ := rfl

theorem LowersCase.eq_self {toLowerCase : Text → Text} (h : LowersCase toLowerCase) {t : Text}
    (ht : ∀ c ∈ t, c.toNat < 128 ∧ c.toLower = c) : toLowerCase t = t := by
  rw [h.ascii t fun c hc => (ht c hc).1]
  conv_rhs => rw [← List.map_id t]
  apply List.map_congr_left
  intro c hc
  exact (ht c hc).2

theorem toLower_digit {c : Char} (h : c.isDigit = true) : c.toNat < 128 ∧ c.toLower = c := by
  have hdigit := (isDigit_iff c).mp h
  constructor
  . omega
  . exact toLower_of_isDigit h

/--
What else is used of it: only an `@` becomes one, and of the ASCII letters but `k` each comes from itself
or its capital.
-/
structure ReflectsCase (toLowerCase : Text → Text) : Prop extends LowersCase toLowerCase where
  split_at : ∀ t x u, toLowerCase t = x ++ '@' :: u →
    ∃ s d, t = s ++ '@' :: d ∧ toLowerCase s = x ∧ toLowerCase d = u
  ascii_of : ∀ d : Text, (∀ c ∈ toLowerCase d, c.toNat < 128 ∧ c ≠ 'k') →
    d.map Char.toLower = toLowerCase d

theorem reflectsCase_map_toLower : ReflectsCase (·.map Char.toLower) where
  toLowersCase := lowersCase_map_toLower
  split_at := by
    intro t x u h
    obtain ⟨s, r, rfl, hs, hr⟩ := List.map_eq_append_iff.mp h
    obtain ⟨c, d, rfl, hc, hd⟩ := List.map_eq_cons_iff.mp hr
    rw [(toLower_eq_iff (by decide) c).mp hc]
    exact ⟨s, d, rfl, hs, hd⟩
  ascii_of _ _ := rfl

section Parse

theorem splitLast_append_cons {c : Char} {u : Text} (hu : c ∉ u) (t : Text) :
    splitLast c (t ++ c :: u) = some (t, u) := by
  have hother : ∀ x ∈ u, decide (x ≠ c) = true := by
    intro x hx
    simp only [decide_eq_true_eq]
    rintro rfl
    exact hu hx
  have hdrop : (t ++ c :: u).rdropWhile (· ≠ c) = t ++ [c] := by
    rw [List.rdropWhile, List.reverse_append, List.reverse_cons, List.append_assoc,
      List.dropWhile_append_of_pos (by simpa using hother)]
    simp
  have htake : (t ++ c :: u).rtakeWhile (· ≠ c) = u := by
    rw [List.rtakeWhile, List.reverse_append, List.reverse_cons, List.append_assoc,
      List.takeWhile_append_of_pos (by simpa using hother)]
    simp
  rw [splitLast, if_pos (by simp), hdrop, htake]
  simp

theorem trim_append_at (t : Text) {u : Text} {c : Char} (hlast : u.getLast? = some c)
    (hc : isWhiteSpace c = false) : trim (t ++ '@' :: u) = trimStart t ++ '@' :: u := by
  have hstart : trimStart (t ++ '@' :: u) = trimStart t ++ '@' :: u := by
    induction t with
    | nil => rfl
    | cons x t ih =>
      simp only [trimStart, List.cons_append, List.dropWhile_cons] at ih ⊢
      split
      . exact ih
      . rfl
  rw [trim, hstart, trimEnd, List.rdropWhile_eq_self_iff]
  intro hne
  have : (trimStart t ++ '@' :: u).getLast? = some c := by
    simp [List.getLast?_append, List.getLast?_cons, hlast]
  rw [List.getLast?_eq_some_getLast hne, Option.some.injEq] at this
  simp [this, hc]

variable {toLowerCase}

/-- A domain of ASCII letters in either case, without white space at its end. -/
structure IsDomain (d : Text) : Prop where
  noAt : '@' ∉ d.map Char.toLower
  ascii : ∀ c ∈ d, c.toNat < 128
  last : ∃ c, d.getLast? = some c ∧ isWhiteSpace c = false

/-- An identifier with a domain is classified by it. -/
theorem parseWaId_append_at (hlower : LowersCase toLowerCase) {d : Text} (hd : IsDomain d)
    (hne : d.map Char.toLower ≠ "broadcast".toList) (t : Text) :
    parseWaId toLowerCase (t ++ '@' :: d) =
      ⟨(DOMAIN_KINDS.lookup (d.map Char.toLower)).getD .unknown,
        firstPart ':' (toLowerCase (trimStart t)),
        ((toLowerCase (trimStart t)).splitOn ':')[1]?, t ++ '@' :: d⟩ := by
  obtain ⟨c, hlast, hc⟩ := hd.last
  have hlowered : toLowerCase (trim (t ++ '@' :: d)) =
      toLowerCase (trimStart t) ++ '@' :: d.map Char.toLower := by
    rw [trim_append_at t hlast hc, hlower.append_at, hlower.ascii d hd.ascii]
  have hstatus : toLowerCase (trimStart t) ++ '@' :: d.map Char.toLower ≠
      "status@broadcast".toList := by
    intro heq
    have hsplit := splitLast_append_cons hd.noAt (toLowerCase (trimStart t))
    rw [heq] at hsplit
    have hother : splitLast '@' "status@broadcast".toList =
        some ("status".toList, "broadcast".toList) := by decide
    rw [hother, Option.some.injEq, Prod.mk.injEq] at hsplit
    exact hne hsplit.2.symm
  unfold parseWaId
  rw [hlowered]
  dsimp only
  rw [if_neg hstatus, splitLast_append_cons hd.noAt]

theorem isDomain_cUs : IsDomain "c.us".toList :=
  ⟨by decide, forall_mem_of_all (by decide), 's', by decide, by decide⟩

end Parse

example : toNeutralJid (·.map Char.toLower) "111:5@hosted.lid".toList (fun _ => none) =
    "111@lid".toList := by decide

end OpenWA.Identity
