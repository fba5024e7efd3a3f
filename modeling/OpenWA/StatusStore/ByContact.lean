import OpenWA.Identity.WaId
import OpenWA.Lid.Inverse
import OpenWA.Sqlite.Ordered

/-!
This module contains the statuses of a session and those of one contact, both shown under the identifier the
lid mirror resolves to, and when a contact's statuses are those the list shows for it.
-/

namespace OpenWA.StatusStore

open Async Identity Js Lid Sqlite

inductive StatusType where
  | text
  | image
  | video
  | voice
deriving DecidableEq

/-- A row of `status_updates`. -/
structure StatusUpdate where
  sessionId : Text
  contactJid : Text
  contactName : Option Text
  contactPushName : Option Text
  waStatusId : Text
  type : StatusType
  caption : Option Text
  mediaPath : Option Text
  mediaOmitted : Bool
  backgroundColor : Option Text
  font : Option Int
  postedAt : Int
  expiresAt : Int
deriving DecidableEq

structure Contact where
  id : Text
  name : Option Text
  pushName : Option Text
deriving DecidableEq

structure Status where
  id : Text
  contact : Contact
  type : StatusType
  caption : Option Text
  mediaUrl : Option Text
  backgroundColor : Option Text
  font : Option Int
  timestamp : Int
  expiresAt : Int
deriving DecidableEq

section Service

/-- A call that reads the lid mirror, if the service was given one. -/
abbrev Reading (α : Type) := StateM (Option LidStore) α

/-- `this.lidMappingStore?.resolveLid(jid)`; the lookup that a miss starts runs later. -/
def resolveLid (jid : Text) : Reading (Option Text) := fun store =>
  match store with
  | none => (none, none)
  | some s => ((cachedPhone (userPart jid) s).join, some (getCached (userPart jid) s).1)

/-- Only a `@lid` goes through the mirror. -/
def canonicalContactJid (jid : Text) : Reading Text := do
  if "@lid".toList <:+ jid then
    match truthy (← resolveLid jid) with
    | some phone => pure (phone ++ "@c.us".toList)
    | none => pure jid
  else pure jid

/-- A row as a status, under the given identifier. -/
def display (row : StatusUpdate) (contactId : Text) : Status where
  id := row.waStatusId
  contact := ⟨contactId, row.contactName, row.contactPushName⟩
  type := row.type
  caption := row.caption
  mediaUrl :=
    if (truthy row.mediaPath).isSome && !row.mediaOmitted then
      some ("/api/sessions/".toList ++ row.sessionId ++ "/status/".toList ++ row.waStatusId ++ "/media".toList)
    else none
  backgroundColor := row.backgroundColor
  font := row.font
  timestamp := row.postedAt
  expiresAt := row.expiresAt

def toStatus (row : StatusUpdate) : Reading Status := do
  let contactId ← canonicalContactJid row.contactJid
  pure (display row contactId)

/-- The rows of a session that have not expired. -/
def unexpired (sessionId : Text) (now : Int) (row : StatusUpdate) : Bool :=
  row.sessionId = sessionId && now < row.expiresAt

def list (rows : List StatusUpdate) (now : Int) (sessionId : Text) : Reading (List Status) :=
  (newestFirst (·.postedAt) (rows.filter (unexpired sessionId now))).mapM toStatus

/-- The spellings a contact's rows are looked for under. -/
def candidates (contactJid : Text) : Reading (List Text) := fun store =>
  match store with
  | none => ([contactJid], none)
  | some s =>
    let phone := userPart contactJid
    let resolved := truthy (cachedPhone phone s).join
    let s := (getCached phone s).1
    ((contactJid :: (phone ++ "@c.us".toList) :: resolved.toList.map (· ++ "@c.us".toList) ++
      (lidsForPhone phone s).map (· ++ "@lid".toList)).eraseDups, some s)

def listByContact (rows : List StatusUpdate) (now : Int) (sessionId contactJid : Text) :
    Reading (List Status) := do
  let jids ← candidates contactJid
  (newestFirst (·.postedAt) (rows.filter fun row => unexpired sessionId now row && row.contactJid ∈ jids)).mapM
    toStatus

end Service

/-- A local part that is not cut at an `@` or at a device. -/
structure UserPart where
  text : Text
  plain : ∀ c ∈ text, c ≠ '@' ∧ c ≠ ':'

inductive ContactId where
  | phone (user : UserPart)
  | lid (user : UserPart)

def ContactId.jid (id : ContactId) : Text :=
  match id with
  | .phone user => user.text ++ "@c.us".toList
  | .lid user => user.text ++ "@lid".toList

/--
The rows under `id` are mixed into a query for `x` or missed by it: the phone that the digits of a phone are
mapped to when they are taken for a lid, the phone and the lids of the digits of a lid when they are taken
for a phone, and the other lids of a lid's phone.
-/
def Confused (s : LidStore) (x id : ContactId) : Prop :=
  let phone user := phoneIn s.lidToPhone user
  match x, id with
  | .phone user, .phone other => phone user.text = some other.text ∧ other.text ≠ user.text
  | .phone _, .lid _ => False
  | .lid user, .phone other => other.text = user.text ∧ phone user.text ≠ some user.text
  | .lid user, .lid other => other.text ≠ user.text ∧ phone user.text ≠ some user.text ∧
      (phone other.text = some user.text ∨ phone other.text ≠ none ∧ phone other.text = phone user.text)

section Reads

/-- The two states of the mirror answer alike. -/
structure SameAnswers (s s' : LidStore) : Prop where
  cached : ∀ lid, s'.cached lid = s.cached lid
  phoneToLids : s'.phoneToLids = s.phoneToLids

theorem sameAnswers_refl (s : LidStore) : SameAnswers s s := ⟨fun _ => rfl, rfl⟩

theorem SameAnswers.trans {s s' s'' : LidStore} (h : SameAnswers s s') (h' : SameAnswers s' s'') :
    SameAnswers s s'' :=
  ⟨fun lid => (h'.cached lid).trans (h.cached lid), h'.phoneToLids.trans h.phoneToLids⟩

theorem sameAnswers_getCached (s : LidStore) (lid : Text) : SameAnswers s (getCached lid s).1 :=
  ⟨cached_getCached lid, phoneToLids_getCached lid⟩

theorem truthy_cachedPhone (s : LidStore) (lid : Text) :
    truthy (cachedPhone lid s).join = phoneIn s.lidToPhone lid := by
  change truthy (s.lidToPhone.lookup lid).join = truthy ((s.lidToPhone.lookup lid).getD none)
  cases s.lidToPhone.lookup lid <;> rfl

/-- The identifier a row is shown under. -/
def shown (s : LidStore) (jid : Text) : Text :=
  if "@lid".toList <:+ jid then
    match phoneIn s.lidToPhone (userPart jid) with
    | some phone => phone ++ "@c.us".toList
    | none => jid
  else jid

theorem shown_congr {s s' : LidStore} (h : SameAnswers s s') (jid : Text) : shown s' jid = shown s jid := by
  have hphone (lid : Text) : phoneIn s'.lidToPhone lid = phoneIn s.lidToPhone lid := by
    rw [← truthy_cachedPhone, ← truthy_cachedPhone]
    exact congrArg (fun phone => truthy phone.join) (h.cached lid)
  unfold shown
  rw [hphone]

theorem canonicalContactJid_reads (s : LidStore) (jid : Text) :
    ∃ s', SameAnswers s s' ∧ canonicalContactJid jid (some s) = (shown s jid, some s') := by
  unfold shown canonicalContactJid
  split
  . refine ⟨(getCached (userPart jid) s).1, sameAnswers_getCached s _, ?_⟩
    simp only [resolveLid, bind, StateT.bind, truthy_cachedPhone]
    cases phoneIn s.lidToPhone (userPart jid) <;> rfl
  . exact ⟨s, sameAnswers_refl s, rfl⟩

theorem toStatus_reads (s : LidStore) (row : StatusUpdate) :
    ∃ s', SameAnswers s s' ∧ toStatus row (some s) = (display row (shown s row.contactJid), some s') := by
  rcases canonicalContactJid_reads s row.contactJid with ⟨s', hsame, hread⟩
  refine ⟨s', hsame, ?_⟩
  simp only [toStatus, bind, StateT.bind, hread]
  rfl

theorem mapM_toStatus (rows : List StatusUpdate) (s : LidStore) :
    ∃ s', rows.mapM toStatus (some s) = (rows.map fun row => display row (shown s row.contactJid), some s') := by
  induction rows generalizing s with
  | nil => exact ⟨s, rfl⟩
  | cons row rows ih =>
    rcases toStatus_reads s row with ⟨s₁, hsame, hrow⟩
    rcases ih s₁ with ⟨s₂, hrows⟩
    refine ⟨s₂, ?_⟩
    simp only [List.mapM_cons, bind, StateT.bind, hrow, hrows, shown_congr hsame]
    rfl

/-- The rows a query for a contact selects. -/
def Selected (s : LidStore) (contactJid jid : Text) : Prop :=
  jid = contactJid ∨ jid = userPart contactJid ++ "@c.us".toList ∨
    (∃ phone, phoneIn s.lidToPhone (userPart contactJid) = some phone ∧ jid = phone ++ "@c.us".toList) ∨
    ∃ lid, phoneIn s.lidToPhone lid = some (userPart contactJid) ∧ jid = lid ++ "@lid".toList

theorem candidates_reads {s : LidStore} (hpaired : Paired s) (contactJid : Text) :
    ∃ jids s', SameAnswers s s' ∧ candidates contactJid (some s) = (jids, some s') ∧
      ∀ jid, jid ∈ jids ↔ Selected s contactJid jid := by
  refine ⟨_, _, sameAnswers_getCached s (userPart contactJid), rfl, ?_⟩
  intro jid
  have hlids (lid : Text) : lid ∈ lidsForPhone (userPart contactJid) (getCached (userPart contactJid) s).1 ↔
      phoneIn s.lidToPhone lid = some (userPart contactJid) := by
    rw [← hpaired.mem]
    unfold lidsForPhone lidsIn
    rw [phoneToLids_getCached]
  rw [List.mem_eraseDups, truthy_cachedPhone]
  simp only [List.mem_cons, List.mem_append, List.mem_map, Option.mem_toList, hlids, Selected, List.cons_append,
    eq_comm (a := jid)]

end Reads

section Agreement

theorem userPart_append {t : Text} (h : ∀ c ∈ t, c ≠ '@' ∧ c ≠ ':') (domain : Text) :
    userPart (t ++ '@' :: domain) = t := by
  have hat : firstPart '@' (t ++ '@' :: domain) = t := by
    unfold firstPart
    rw [List.takeWhile_append_of_pos fun c hc => by simpa using (h c hc).1]
    simp
  unfold userPart
  rw [hat]
  unfold firstPart
  exact List.takeWhile_eq_self_iff.mpr fun c hc => by simpa using (h c hc).2

theorem shown_phone (s : LidStore) (user : UserPart) :
    shown s (ContactId.phone user).jid = user.text ++ "@c.us".toList := by
  apply if_neg
  rintro ⟨t, ht⟩
  exact cUs_ne_lid user.text t ht.symm

theorem shown_lid (s : LidStore) (user : UserPart) : shown s (ContactId.lid user).jid =
    match phoneIn s.lidToPhone user.text with
    | some phone => phone ++ "@c.us".toList
    | none => user.text ++ "@lid".toList := by
  have hpart : userPart (user.text ++ "@lid".toList) = user.text := userPart_append user.plain "lid".toList
  unfold shown ContactId.jid
  rw [if_pos (List.suffix_append _ _)]
  dsimp only
  rw [hpart]

/-- A query selects the rows that are shown under its identifier, but for the confused ones. -/
theorem selected_iff (s : LidStore) (x id : ContactId) :
    (Selected s x.jid id.jid ↔ shown s id.jid = shown s x.jid) ↔ ¬Confused s x id := by
  have hphone (user : UserPart) : userPart (ContactId.phone user).jid = user.text :=
    userPart_append user.plain "c.us".toList
  have hlid (user : UserPart) : userPart (ContactId.lid user).jid = user.text :=
    userPart_append user.plain "lid".toList
  have hcl := cUs_ne_lid
  have hlc (a b : Text) : a ++ "@lid".toList ≠ b ++ "@c.us".toList := (cUs_ne_lid b a).symm
  unfold Selected
  cases x with
  | phone user =>
    rw [hphone, shown_phone]
    cases id with
    | phone other =>
      rw [shown_phone]
      simp only [ContactId.jid, List.append_left_inj, hcl, Confused, and_false, exists_false, or_false,
        exists_eq_right']
      grind
    | lid other =>
      rw [shown_lid]
      simp only [ContactId.jid, List.append_left_inj, hlc, Confused, and_false, exists_false, false_or,
        exists_eq_right']
      cases phoneIn s.lidToPhone other.text with
      | none => simp only [hlc, reduceCtorEq, not_false_eq_true, iff_self]
      | some phone => simp only [List.append_left_inj, Option.some.injEq, iff_self, not_false_eq_true]
  | lid user =>
    rw [hlid, shown_lid]
    cases id with
    | phone other =>
      rw [shown_phone]
      simp only [ContactId.jid, List.append_left_inj, hcl, Confused, and_false, exists_false, or_false, false_or,
        exists_eq_right']
      cases phoneIn s.lidToPhone user.text with
      | none => simp only [hcl, iff_false, or_false, reduceCtorEq, ne_eq, not_false_eq_true, and_true]
      | some phone =>
        simp only [List.append_left_inj, Option.some.injEq]
        grind
    | lid other =>
      rw [shown_lid]
      simp only [ContactId.jid, List.append_left_inj, hlc, Confused, and_false, exists_false, false_or,
        exists_eq_right']
      have hsame : other.text = user.text →
          phoneIn s.lidToPhone other.text = phoneIn s.lidToPhone user.text := fun h => h ▸ rfl
      cases huser : phoneIn s.lidToPhone user.text with
      | none =>
        cases hother : phoneIn s.lidToPhone other.text with
        | none =>
          simp only [List.append_left_inj]
          grind
        | some phone =>
          simp only [hcl]
          grind
      | some phone =>
        cases hother : phoneIn s.lidToPhone other.text with
        | none =>
          simp only [hlc]
          grind
        | some phone' =>
          simp only [List.append_left_inj]
          grind

/-- Two parts of a list have the same images just when they are the same part. -/
theorem map_filter_eq_iff {α β : Type} (f : α → β) (p : α → Bool) (g : β → Bool) (l : List α) :
    (l.filter p).map f = (l.map f).filter g ↔ ∀ a ∈ l, p a = g (f a) := by
  have himages : (l.map f).filter g = (l.filter (g ∘ f)).map f := List.filter_map
  rw [himages]
  constructor
  . intro heq
    have hsub : ∀ a ∈ l, p a = true → g (f a) = true := by
      intro a ha hp
      have hmem : f a ∈ (l.filter p).map f := List.mem_map_of_mem (List.mem_filter.mpr ⟨ha, hp⟩)
      rw [heq] at hmem
      rcases List.mem_map.mp hmem with ⟨b, hb, hfb⟩
      rw [← hfb]
      exact (List.mem_filter.mp hb).2
    have hrefine : (l.filter (g ∘ f)).filter p = l.filter p := by
      rw [List.filter_filter]
      apply List.filter_congr
      intro a ha
      rw [Bool.eq_iff_iff, Bool.and_eq_true]
      exact ⟨And.left, fun hp => ⟨hp, hsub a ha hp⟩⟩
    have hpart : l.filter p = l.filter (g ∘ f) := by
      have hlength := congrArg List.length heq
      rw [List.length_map, List.length_map] at hlength
      exact (hrefine ▸ List.filter_sublist).eq_of_length hlength
    intro a ha
    rw [Bool.eq_iff_iff]
    refine ⟨hsub a ha, ?_⟩
    intro hg
    have hmem : a ∈ l.filter p := hpart ▸ List.mem_filter.mpr ⟨ha, hg⟩
    exact (List.mem_filter.mp hmem).2
  . intro h
    exact congrArg _ (List.filter_congr h)

variable {rows : List StatusUpdate} {now : Int} {sessionId : Text} {s : LidStore}

theorem list_eq : (list rows now sessionId (some s)).1 =
    (newestFirst (·.postedAt) (rows.filter (unexpired sessionId now))).map fun row =>
      display row (shown s row.contactJid) := by
  rcases mapM_toStatus (newestFirst (·.postedAt) (rows.filter (unexpired sessionId now))) s with ⟨s', h⟩
  exact congrArg Prod.fst h

theorem listByContact_eq (hpaired : Paired s) (contactJid : Text) :
    ∃ jids : List Text, (∀ jid, jid ∈ jids ↔ Selected s contactJid jid) ∧
      (listByContact rows now sessionId contactJid (some s)).1 =
        ((newestFirst (·.postedAt) (rows.filter (unexpired sessionId now))).filter (·.contactJid ∈ jids)).map
          fun row => display row (shown s row.contactJid) := by
  rcases candidates_reads hpaired contactJid with ⟨jids, s₁, hsame, hread, hjids⟩
  refine ⟨jids, hjids, ?_⟩
  have hfind : newestFirst (·.postedAt) (rows.filter fun row => unexpired sessionId now row && row.contactJid ∈ jids) =
      (newestFirst (·.postedAt) (rows.filter (unexpired sessionId now))).filter (·.contactJid ∈ jids) := by
    rw [← newestFirst_filter, List.filter_filter]
    simp only [Bool.and_comm]
  rcases mapM_toStatus (newestFirst (·.postedAt)
    (rows.filter fun row => unexpired sessionId now row && row.contactJid ∈ jids)) s₁ with ⟨s₂, hmap⟩
  simp only [hfind, shown_congr hsame] at hmap
  simp only [listByContact, bind, StateT.bind, hread, hfind, hmap]

def sampleUser (text : Text) (h : ∀ c ∈ text, c ≠ '@' ∧ c ≠ ':' := by simp) : UserPart := ⟨text, h⟩

/-- A status of one session that has not expired. -/
def sampleStatus (waStatusId : Char) (id : ContactId) : StatusUpdate where
  sessionId := ['s']
  contactJid := id.jid
  contactName := none
  contactPushName := none
  waStatusId := [waStatusId]
  type := .text
  caption := none
  mediaPath := none
  mediaOmitted := false
  backgroundColor := none
  font := none
  postedAt := 0
  expiresAt := 1

/-- The lids `7` and `8` are learned for the phone `62`. -/
def twoLids : List (Move MirrorEvent Answer) :=
  [.event (.call (.remember ⟨['7'], some ['6', '2'], none, 0⟩)),
    .event (.call (.remember ⟨['8'], some ['6', '2'], none, 0⟩)),
    .turn 0 .ok, .turn 0 .ok, .turn 1 .ok, .turn 1 .ok]

end Agreement

end OpenWA.StatusStore
