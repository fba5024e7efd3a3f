import OpenWA.Identity.WaId
import OpenWA.Lid.LidMappingStore
import OpenWA.Stored.Rows

/-!
This module contains the expansion of a chat filter into the stored ids of the same contact, and when it
covers the id that is stored for the contact.
-/

namespace OpenWA.Message

open Identity Js Lid

variable (toLowerCase : Text → Text)

/-- What the maps of one session know of a lid, by the id of the entry. -/
structure SessionMaps where
  lidToPn : Text → Option Text
  /-- A contact, and its phone number if it has one. -/
  contacts : Text → Option (Option Text)

/-- The resolver that an engine stores incoming messages with. -/
def resolvePhone (maps : SessionMaps) (s : LidStore) (id : Text) : Option Text :=
  let parsed := parseWaId toLowerCase id
  match parsed.kind with
  | .user => some parsed.userPart
  | .lid =>
    let lidJid := parsed.userPart ++ "@lid".toList
    match truthy ((maps.lidToPn lidJid).or (maps.lidToPn id)) with
    | some pn => some (userPart pn)
    | none =>
      match truthy (((maps.contacts lidJid).or (maps.contacts id)).join) with
      | some contactPhone => some (userPart contactPhone)
      | none => (cachedPhone parsed.userPart s).join
  | _ => none

/-- The stored ids that a filter stands for; the members of a set in insertion order. -/
def resolveJidCandidates (s : LidStore) (value : Text) : List Text :=
  let parsed := parseWaId toLowerCase value
  match parsed.kind with
  | .user | .unknown =>
    let phone := parsed.userPart
    ([value, phone ++ "@c.us".toList, phone ++ "@s.whatsapp.net".toList] ++
      (lidsForPhone phone s).map (· ++ "@lid".toList)).eraseDups
  | .lid =>
    match truthy (cachedPhone parsed.userPart s).join with
    | some resolved =>
      [value, resolved ++ "@c.us".toList, resolved ++ "@s.whatsapp.net".toList].eraseDups
    | none => [value]
  | _ => [value]

/-- The rows a history query selects, before paging. -/
def selectByChat (s : LidStore) (sessionId chatId : Text) (rows : List Stored.Message) :
    List Stored.Message :=
  rows.filter fun row => row.sessionId = sessionId && row.chatId ∈ resolveJidCandidates toLowerCase s chatId

/-- A query by `v` selects every row that was stored under the neutral id of the contact. -/
def Covers (maps : SessionMaps) (s : LidStore) (v : Text) : Prop :=
  toNeutralJid toLowerCase v (resolvePhone toLowerCase maps s) ∈ resolveJidCandidates toLowerCase s v ∧
    ∀ sessionId rows, ∀ row ∈ rows, row.sessionId = sessionId →
      row.chatId = toNeutralJid toLowerCase v (resolvePhone toLowerCase maps s) →
        row ∈ selectByChat toLowerCase s sessionId v rows

section Coverage

variable {toLowerCase}

theorem covers_iff_mem {maps : SessionMaps} {s : LidStore} {v : Text} :
    Covers toLowerCase maps s v ↔
      toNeutralJid toLowerCase v (resolvePhone toLowerCase maps s) ∈
        resolveJidCandidates toLowerCase s v := by
  constructor
  . exact And.left
  . intro h
    refine ⟨h, ?_⟩
    intro sessionId rows row hrow hsession hchat
    simp only [selectByChat, List.mem_filter, Bool.and_eq_true, decide_eq_true_eq]
    exact ⟨hrow, hsession, hchat ▸ h⟩

theorem cUs_ne_net (a b : Text) : a ++ "@c.us".toList ≠ b ++ "@s.whatsapp.net".toList :=
  append_ne_append (by decide) (by decide) (by decide)

theorem lid_ne_net (a b : Text) : a ++ "@lid".toList ≠ b ++ "@s.whatsapp.net".toList :=
  append_ne_append (by decide) (by decide) (by decide)

theorem user_of_cUs (hlower : LowersCase toLowerCase) (p : Text) :
    (parseWaId toLowerCase (p ++ "@c.us".toList)).kind = .user := by
  have hparse := parseWaId_append_at hlower isDomain_cUs (by decide) p
  rw [show p ++ "@c.us".toList = p ++ '@' :: "c.us".toList from rfl, hparse]
  show (DOMAIN_KINDS.lookup ("c.us".toList.map Char.toLower)).getD .unknown = .user
  decide

theorem toNeutralJid_lid {v : Text} {resolve : Text → Option Text} (hne : v ≠ [])
    (hkind : (parseWaId toLowerCase v).kind = .lid) :
    toNeutralJid toLowerCase v resolve =
      match truthy (resolve v) with
      | some phone => phone ++ "@c.us".toList
      | none => (parseWaId toLowerCase v).userPart ++ "@lid".toList := by
  have hempty : ¬(v.isEmpty = true) := by simpa using hne
  unfold toNeutralJid
  rw [if_neg hempty]
  dsimp only
  rw [hkind]
  cases hresolve : resolve v with
  | none => rfl
  | some phone => cases phone <;> rfl

theorem ne_nil_of_kind (hlower : LowersCase toLowerCase) {v : Text}
    (hkind : (parseWaId toLowerCase v).kind ≠ .unknown) : v ≠ [] := by
  rintro rfl
  apply hkind
  have hnil : toLowerCase (trim []) = [] := hlower.ascii [] (by simp)
  simp [parseWaId, hnil, splitLast]

theorem covers_of_user (hlower : LowersCase toLowerCase) {maps : SessionMaps} {s : LidStore} {v : Text}
    (hkind : (parseWaId toLowerCase v).kind = .user) : Covers toLowerCase maps s v := by
  have hempty : ¬(v.isEmpty = true) := by
    simpa using ne_nil_of_kind hlower (v := v) (by rw [hkind]; decide)
  rw [covers_iff_mem, toNeutralJid, if_neg hempty, resolveJidCandidates]
  dsimp only
  rw [hkind]
  simp

/-- The neutral id of a lid is a candidate if it is the known phone's, or if the filter spells it. -/
theorem covers_lid_iff (hlower : LowersCase toLowerCase) {maps : SessionMaps} {s : LidStore} {v : Text}
    (hkind : (parseWaId toLowerCase v).kind = .lid) :
    Covers toLowerCase maps s v ↔
      (∃ phone, truthy (resolvePhone toLowerCase maps s v) = some phone ∧
          truthy (cachedPhone (parseWaId toLowerCase v).userPart s).join = some phone) ∨
        (truthy (resolvePhone toLowerCase maps s v) = none ∧
          v = (parseWaId toLowerCase v).userPart ++ "@lid".toList) := by
  have hne := ne_nil_of_kind hlower (v := v) (by rw [hkind]; decide)
  rw [covers_iff_mem, toNeutralJid_lid hne hkind, resolveJidCandidates]
  dsimp only
  rw [hkind]
  dsimp only
  cases hphone : truthy (resolvePhone toLowerCase maps s v) with
  | none =>
    cases hcached : truthy (cachedPhone (parseWaId toLowerCase v).userPart s).join with
    | none => simp [eq_comm]
    | some q =>
      have h₁ := (cUs_ne_lid q (parseWaId toLowerCase v).userPart).symm
      have h₂ := lid_ne_net (parseWaId toLowerCase v).userPart q
      simp only [List.mem_eraseDups, List.mem_cons, List.not_mem_nil, h₁, h₂, or_false]
      simp [eq_comm]
  | some p =>
    have hv : p ++ "@c.us".toList ≠ v := by
      rintro rfl
      rw [user_of_cUs hlower] at hkind
      exact absurd hkind (by decide)
    cases hcached : truthy (cachedPhone (parseWaId toLowerCase v).userPart s).join with
    | none =>
      simp only [List.mem_singleton, hv]
      simp
    | some q =>
      have hnet := cUs_ne_net p q
      simp only [List.mem_eraseDups, List.mem_cons, List.not_mem_nil, hv, hnet, or_false, false_or]
      simp [eq_comm]

/--
A history query covers the neutral id of a contact if and only if the filter names the contact by its
phone, or the table has the phone the lid is stored under, or the lid is stored as itself and the filter
spells it so.
-/
theorem covers_iff (hlower : LowersCase toLowerCase) (maps : SessionMaps) (s : LidStore) (v : Text)
    (hkind : (parseWaId toLowerCase v).kind = .user ∨ (parseWaId toLowerCase v).kind = .lid) :
    Covers toLowerCase maps s v ↔
      (parseWaId toLowerCase v).kind = .user ∨
      (∃ phone, truthy (resolvePhone toLowerCase maps s v) = some phone ∧
          truthy (cachedPhone (parseWaId toLowerCase v).userPart s).join = some phone) ∨
      (truthy (resolvePhone toLowerCase maps s v) = none ∧
          v = (parseWaId toLowerCase v).userPart ++ "@lid".toList) := by
  rcases hkind with huser | hlid
  . exact iff_of_true (covers_of_user hlower huser) (.inl huser)
  . rw [covers_lid_iff hlower hlid, hlid]
    simp

def emptyStore : LidStore := ⟨[], [], [], [], [], [], 0⟩

/-- A lid the table resolves, asked for by its hosted form. -/
theorem covers_hosted :
    Covers (·.map Char.toLower) ⟨fun _ => none, fun _ => none⟩
      { emptyStore with lidToPhone := [("111".toList, some "628".toList)] } "111:5@HOSTED.LID".toList :=
  (covers_iff lowersCase_map_toLower _ _ _ (.inr (by decide))).mpr
    (.inr (.inl ⟨"628".toList, by decide, by decide⟩))

/-- A lid without a known phone is not found by its hosted form. -/
theorem hosted_lid_not_covered :
    (parseWaId (·.map Char.toLower) "111@hosted.lid".toList).kind = .lid ∧
      ¬Covers (·.map Char.toLower) ⟨fun _ => none, fun _ => none⟩ emptyStore "111@hosted.lid".toList := by
  constructor
  . decide
  . rw [covers_iff_mem]
    decide

end Coverage

end OpenWA.Message
