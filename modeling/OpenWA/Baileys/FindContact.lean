import Mathlib.Data.List.MinMax
import OpenWA.Baileys.Contacts

/-!
This module contains the lookup of a contact by an id, and when it answers with the row of the list and
with the person that was asked for.
-/

namespace OpenWA.Contacts

open Identity Js Lid

namespace SessionStore

/-- A hit becomes the entry that was used last. -/
def get (s : SessionStore) (key : Text) : Option BaileysContact × SessionStore :=
  match h : s.contacts.get? key with
  | none => (none, s)
  | some value => (some value, { s with
    contacts := (s.contacts.delete key).set key value
    keyed := fun entry hentry => by
      rw [Map.mem_entries_iff, Map.get?_set, Map.get?_delete] at hentry
      split at hentry
      . next hkey =>
        cases hentry
        rw [hkey]
        exact s.keyed (key, entry.2) ((Map.mem_entries_iff _ _).mpr h)
      . exact s.keyed entry ((Map.mem_entries_iff _ _).mpr hentry) })

end SessionStore

variable (toLowerCase : Text → Text)

def toEngineJid (jid : Text) : Text :=
  let parsed := parseWaId toLowerCase jid
  if parsed.kind = .user then parsed.userPart ++ "@s.whatsapp.net".toList else jid

def lookupKeys (id : Text) : List Text :=
  let parsed := parseWaId toLowerCase id
  [id, toEngineJid toLowerCase id] ++
    (if parsed.kind = .lid then [parsed.userPart ++ "@lid".toList] else []) ++
    (if parsed.kind = .user then
      [parsed.userPart ++ "@s.whatsapp.net".toList, parsed.userPart ++ "@c.us".toList]
    else [])

/-- How the direct lookups end: at a saved contact, or with the first one that is not. -/
inductive Direct where
  | named (c : BaileysContact) (s : SessionStore)
  | rest (unnamed : Option BaileysContact) (s : SessionStore)

def findDirect (s : SessionStore) (keys : List Text) (unnamed : Option BaileysContact) : Direct :=
  match keys with
  | [] => .rest unnamed s
  | key :: keys =>
    match s.get key with
    | (none, s) => findDirect s keys unnamed
    | (some direct, s) =>
      if named direct then .named direct s else findDirect s keys (unnamed.or (some direct))

def phoneOf (c : BaileysContact) : Text :=
  match truthy c.phoneNumber with
  | some phoneNumber => userPart phoneNumber
  | none => if isPhoneKeyed c.id then userPart c.id else []

def lidOf (c : BaileysContact) : Text :=
  match truthy c.lid with
  | some lid => userPart lid
  | none => if endsWith c.id "@lid".toList then userPart c.id else []

def carries (want : Text) (c : BaileysContact) : Bool := phoneOf c = want || lidOf c = want

def scan (want : Text) (cs : List BaileysContact) (unnamed : Option BaileysContact) :
    Option BaileysContact :=
  match cs with
  | [] => unnamed
  | c :: cs =>
    if !carries want c then scan want cs unnamed
    else if named c then some c
    else scan want cs (unnamed.or (some c))

def findContact (s : SessionStore) (id : Text) : Option Contact :=
  let parsed := parseWaId toLowerCase id
  match findDirect s (lookupKeys toLowerCase id) none with
  | .named direct s => some (toNeutralContact toLowerCase s direct)
  | .rest unnamed s =>
    if parsed.kind ≠ .user ∧ parsed.kind ≠ .lid then unnamed.map (toNeutralContact toLowerCase s)
    else (scan parsed.userPart s.values unnamed).map (toNeutralContact toLowerCase s)

/-! ### The entries that are tried -/

section Tried

variable (s : SessionStore)

/-- The entries under the keys of an id, and those that carry its digits in the order of their last use. -/
def tried (id : Text) : List BaileysContact :=
  let parsed := parseWaId toLowerCase id
  (lookupKeys toLowerCase id).filterMap s.contacts.get? ++
    if parsed.kind ≠ .user ∧ parsed.kind ≠ .lid then [] else s.values.filter (carries parsed.userPart)

/-- The first saved entry, or the first one. -/
def pick (cs : List BaileysContact) : Option BaileysContact := (cs.find? named).or cs.head?

variable {s} {toLowerCase} {key : Text} {unnamed : Option BaileysContact}

theorem get_of_miss (h : s.contacts.get? key = none) : s.get key = (none, s) := by
  unfold SessionStore.get
  split
  . rfl
  . next value hvalue =>
    rw [h] at hvalue
    contradiction

theorem get_fst (key : Text) : (s.get key).1 = s.contacts.get? key := by
  unfold SessionStore.get
  split
  . next h => exact h.symm
  . next h => exact h.symm

theorem get?_get (key : Text) : (s.get key).2.contacts.get? = s.contacts.get? := by
  unfold SessionStore.get
  split
  . rfl
  . next value h =>
    funext k
    rw [Map.get?_set, Map.get?_delete]
    split
    . next hk => rw [hk, h]
    . rfl

theorem reordered_get (s : SessionStore) (key : Text) : Reordered s (s.get key).2 where
  contacts := Map.perm_of_get?_eq (get?_get key)
  lidToPn := by unfold SessionStore.get; split <;> rfl
  lidStore := by unfold SessionStore.get; split <;> rfl

/-- A lookup only moves what it hits. -/
theorem filter_values_get {p : BaileysContact → Bool}
    (h : ∀ c, s.contacts.get? key = some c → p c = false) :
    (s.get key).2.values.filter p = s.values.filter p := by
  unfold SessionStore.get
  split
  . rfl
  . next value hvalue =>
    have hnew : key ∉ (s.contacts.entries.filter fun entry => entry.1 ≠ key).map (·.1) := by
      simp
    unfold SessionStore.values Map.set Map.delete
    dsimp only
    rw [Map.setEntries_of_notMem hnew, List.map_append, List.filter_append]
    have hlast : ([(key, value)].map (·.2)).filter p = [] := by
      simp [h value hvalue]
    rw [hlast, List.append_nil, List.filter_map, List.filter_map, List.filter_filter]
    congr 1
    apply List.filter_congr
    intro entry hentry
    by_cases hkey : entry.1 = key
    . have hentry' := (Map.mem_entries_iff _ entry).mp hentry
      rw [hkey] at hentry'
      simp [hkey, h entry.2 hentry']
    . simp [hkey]

/-- The store behind lookups that found no saved contact. -/
structure Passed (s s' : SessionStore) : Prop where
  reordered : Reordered s s'
  saved : ∀ p : BaileysContact → Bool, (∀ c, named c = false → p c = false) →
    s'.values.filter p = s.values.filter p

theorem passed_get {c : BaileysContact} (hget : s.contacts.get? key = some c)
    (hc : named c = false) : Passed s (s.get key).2 where
  reordered := reordered_get s key
  saved p hp := by
    apply filter_values_get
    intro d hd
    rw [hget] at hd
    cases hd
    exact hp c hc

theorem Passed.trans {s' s'' : SessionStore} (h : Passed s s') (h' : Passed s' s'') :
    Passed s s'' where
  reordered := h.reordered.trans h'.reordered
  saved p hp := (h'.saved p hp).trans (h.saved p hp)

/-- The direct lookups end at the first saved contact, or with the first one. -/
theorem findDirect_spec (s : SessionStore) (keys : List Text) (unnamed : Option BaileysContact) :
    (∃ c s', findDirect s keys unnamed = .named c s' ∧ Reordered s s' ∧
      (keys.filterMap s.contacts.get?).find? named = some c) ∨
    ∃ s', findDirect s keys unnamed =
        .rest (unnamed.or (keys.filterMap s.contacts.get?).head?) s' ∧ Passed s s' ∧
      (keys.filterMap s.contacts.get?).find? named = none ∧
      (keys.filterMap s.contacts.get? = [] → s' = s) := by
  induction keys generalizing s unnamed with
  | nil =>
    right
    exact ⟨s, by simp [findDirect], ⟨.refl s, fun _ _ => rfl⟩, rfl, fun _ => rfl⟩
  | cons key keys ih =>
    unfold findDirect
    cases hget : s.contacts.get? key with
    | none =>
      rw [get_of_miss hget, List.filterMap_cons_none hget]
      exact ih s unnamed
    | some direct =>
      have hhit : s.get key = (some direct, (s.get key).2) := Prod.ext ((get_fst key).trans hget) rfl
      rw [hhit, List.filterMap_cons_some hget]
      dsimp only
      split
      . next hnamed =>
        left
        exact ⟨direct, _, rfl, reordered_get s key, List.find?_cons_of_pos hnamed⟩
      . next hnamed =>
        have hrest := ih (s.get key).2 (unnamed.or (some direct))
        rw [get?_get] at hrest
        rw [List.find?_cons_of_neg hnamed]
        rcases hrest with ⟨c, s', heq, hs', hfind⟩ | ⟨s', heq, hs', hfind, -⟩
        . exact .inl ⟨c, s', heq, (reordered_get s key).trans hs', hfind⟩
        . right
          refine ⟨s', ?_, (passed_get hget (by simpa using hnamed)).trans hs', hfind, nofun⟩
          rw [heq, Option.or_assoc]
          rfl

theorem scan_eq (want : Text) (cs : List BaileysContact) (unnamed : Option BaileysContact) :
    scan want cs unnamed =
      ((cs.filter (carries want)).find? named).or
        (unnamed.or (cs.filter (carries want)).head?) := by
  induction cs generalizing unnamed with
  | nil => simp [scan]
  | cons c cs ih =>
    unfold scan
    by_cases hc : carries want c = true
    . rw [List.filter_cons_of_pos hc]
      by_cases hnamed : named c = true
      . simp [hc, hnamed]
      . rw [List.find?_cons_of_neg hnamed]
        simp [hc, hnamed, ih]
    . rw [List.filter_cons_of_neg hc, ih]
      simp [hc]

theorem pick_append {cs : List BaileysContact} (h : cs.find? named = none)
    (ds : List BaileysContact) :
    pick (cs ++ ds) = (ds.find? named).or (cs.head?.or ds.head?) := by
  unfold pick
  rw [List.find?_append, h, Option.none_or, List.head?_append]

/-- The lookup answers with the first saved entry that is tried, or with the first one. -/
theorem findContact_eq (s : SessionStore) (id : Text) : findContact toLowerCase s id =
    (pick (tried toLowerCase s id)).map (toNeutralContact toLowerCase s) := by
  unfold findContact tried
  dsimp only
  rcases findDirect_spec s (lookupKeys toLowerCase id) none with
    ⟨c, s', heq, hs', hfind⟩ | ⟨s', heq, hs', hfind, hmiss⟩
  . rw [heq]
    dsimp only
    rw [hs'.toNeutralContact, pick, List.find?_append, hfind]
    rfl
  . rw [heq]
    dsimp only
    rw [hs'.reordered.toNeutralContact, pick_append hfind, Option.none_or]
    split
    . simp
    . congr 1
      rw [scan_eq]
      have hnamed : (s'.values.filter (carries (parseWaId toLowerCase id).userPart)).find? named =
          (s.values.filter (carries (parseWaId toLowerCase id).userPart)).find? named := by
        rw [← List.head?_filter, ← List.head?_filter, List.filter_filter, List.filter_filter,
          hs'.saved _ fun c hc => by simp [hc]]
      rw [hnamed]
      congr 1
      cases hhits : (lookupKeys toLowerCase id).filterMap s.contacts.get? with
      | nil => rw [hmiss hhits]
      | cons c cs => rfl

end Tried

/-! ### The answers -/

section Answer

/-- Before each entry that is not good there is a good one. -/
def Led {α : Type} (good : α → Prop) (xs : List α) : Prop :=
  ∀ before x behind, xs = before ++ x :: behind → ¬good x → ∃ y ∈ before, good y

theorem led_iff {α : Type} {good : α → Prop} {xs : List α} :
    Led good xs ↔ ∀ x, xs.head? = some x → good x := by
  constructor
  . intro h x hx
    by_contra hgood
    rcases List.head?_eq_some_iff.mp hx with ⟨behind, rfl⟩
    rcases h [] x behind rfl hgood with ⟨y, hy, -⟩
    exact List.not_mem_nil hy
  . intro h before x behind heq hgood
    subst heq
    cases before with
    | nil => exact absurd (h x rfl) hgood
    | cons y before => exact ⟨y, List.mem_cons_self, h y rfl⟩

variable (s : SessionStore)

/-- The entry that the row `k` has its saved name from. -/
def Heads (k : Text) (w : BaileysContact) : Prop :=
  w ∈ group toLowerCase s k ∧ ∀ d ∈ group toLowerCase s k, rank w.id ≤ rank d.id

/-- A saved entry of the row `k` with its saved name is tried, and the first of the saved ones is such. -/
def Found (k : Text) : Prop :=
  ∀ w, Heads toLowerCase s k w →
    (∃ c ∈ tried toLowerCase s k, named c = true ∧ neutralJid toLowerCase s c.id = k ∧
      c.name = w.name) ∧
    Led (fun c => neutralJid toLowerCase s c.id = k ∧ c.name = w.name)
      ((tried toLowerCase s k).filter named)

/-- The entries of others are tried later than one of the person that was asked for. -/
structure OwnFirst (id : Text) : Prop where
  saved : Led (fun c => neutralJid toLowerCase s c.id = neutralJid toLowerCase s id)
    ((tried toLowerCase s id).filter named)
  unsaved : (∀ c ∈ tried toLowerCase s id, named c = false) →
    Led (fun c => neutralJid toLowerCase s c.id = neutralJid toLowerCase s id) (tried toLowerCase s id)

variable {toLowerCase s} {k id : Text} {w : BaileysContact} {row : Contact}

theorem pick_of_named {cs : List BaileysContact} (h : ∃ c ∈ cs, named c = true) :
    pick cs = (cs.filter named).head? := by
  unfold pick
  rw [List.head?_filter]
  cases hfind : cs.find? named with
  | none =>
    rcases h with ⟨c, hc, hnamed⟩
    exact absurd hnamed (List.find?_eq_none.mp hfind c hc)
  | some c => rfl

theorem mem_of_pick {cs : List BaileysContact} {c : BaileysContact} (h : pick cs = some c) :
    c ∈ cs := by
  rcases Option.or_eq_some_iff.mp h with hfind | ⟨-, hhead⟩
  . exact List.mem_of_find?_eq_some hfind
  . exact List.mem_of_mem_head? hhead

theorem pick_of_unnamed {cs : List BaileysContact} (h : ∀ c ∈ cs, named c = false) :
    pick cs = cs.head? := by
  have hfind : cs.find? named = none := by
    apply List.find?_eq_none.mpr
    intro c hc
    simp [h c hc]
  rw [pick, hfind, Option.none_or]

theorem pick_good_iff {good : BaileysContact → Prop} {cs : List BaileysContact} :
    (∀ c, pick cs = some c → good c) ↔
      Led good (cs.filter named) ∧ ((∀ c ∈ cs, named c = false) → Led good cs) := by
  rw [led_iff, led_iff]
  by_cases h : ∃ c ∈ cs, named c = true
  . rw [pick_of_named h]
    constructor
    . intro hgood
      refine ⟨hgood, fun hnone => ?_⟩
      rcases h with ⟨c, hc, hnamed⟩
      rw [hnone c hc] at hnamed
      contradiction
    . exact And.left
  . have hnone : ∀ c ∈ cs, named c = false := by
      intro c hc
      simpa using fun hnamed => h ⟨c, hc, hnamed⟩
    have hfilter : cs.filter named = [] := by
      apply List.filter_eq_nil_iff.mpr
      intro c hc
      simp [hnone c hc]
    rw [pick_of_unnamed hnone, hfilter]
    constructor
    . exact fun hgood => ⟨nofun, fun _ => hgood⟩
    . exact fun hgood => hgood.2 hnone

theorem exists_heads (h : row ∈ listContacts toLowerCase s) :
    ∃ w, Heads toLowerCase s row.id w := by
  have hid : row.id ∈ (listContacts toLowerCase s).map (·.id) := List.mem_map_of_mem h
  rcases mem_ids_iff.mp hid with ⟨c, hc, hnamed, hk⟩
  have hgroup : c ∈ group toLowerCase s row.id := mem_group.mpr ⟨hc, hnamed, hk⟩
  cases hmin : (group toLowerCase s row.id).argmin (fun c => rank c.id) with
  | none =>
    rw [List.argmin_eq_none.mp hmin] at hgroup
    contradiction
  | some w => exact ⟨w, List.argmin_mem hmin, fun d hd =>
    List.le_of_mem_argmin (f := fun c => rank c.id) hd hmin⟩

theorem name_row (h : row ∈ listContacts toLowerCase s) (hw : Heads toLowerCase s row.id w) :
    row.name = w.name := by
  rcases Option.isSome_iff_exists.mp (isSome_name (mem_group.mp hw.1).2.1) with ⟨v, hv⟩
  have hfold : (((byId toLowerCase s).get? row.id).map (·.contact)).map Contact.name =
      (Preference.fold ((group toLowerCase s row.id).map fun c =>
        (rank c.id, (toNeutralContact toLowerCase s c).name))).map (·.2) :=
    field_row isField_name row.id
  have hname : (toNeutralContact toLowerCase s w).name = some v :=
    (name_toNeutralContact (mem_group.mp hw.1).2.1).trans hv
  have hle : ∀ x ∈ (group toLowerCase s row.id).map fun c =>
      (rank c.id, (toNeutralContact toLowerCase s c).name), rank w.id ≤ x.1 := by
    intro x hx
    rcases List.mem_map.mp hx with ⟨d, hd, rfl⟩
    exact hw.2 d hd
  have hlow := Preference.eq_or_lt (nodup_rank row.id) hw.1 hle
  rw [mem_listContacts_iff_id.mp h,
    Preference.fold_of_winner (List.mem_map_of_mem hw.1) hlow hname] at hfold
  rw [hv]
  exact Option.some.inj hfold

theorem answers_row_iff (h : row ∈ listContacts toLowerCase s) :
    (∃ c, findContact toLowerCase s row.id = some c ∧ c.id = row.id ∧ c.name = row.name ∧
      c.isMyContact = row.isMyContact) ↔
      ∃ c, pick (tried toLowerCase s row.id) = some c ∧ named c = true ∧
        neutralJid toLowerCase s c.id = row.id ∧ c.name = row.name := by
  have hmine : row.isMyContact = true := by
    rcases mem_listContacts.mp h with ⟨k, e, hget, rfl⟩
    exact (ofRow hget).mine
  rw [findContact_eq, hmine]
  constructor
  . rintro ⟨_, hfind, hid, heq, hsaved⟩
    rcases Option.map_eq_some_iff.mp hfind with ⟨c, hc, rfl⟩
    exact ⟨c, hc, hsaved, hid, (name_toNeutralContact hsaved).symm.trans heq⟩
  . rintro ⟨c, hc, hsaved, hid, heq⟩
    exact ⟨_, Option.map_eq_some_iff.mpr ⟨c, hc, rfl⟩, hid, (name_toNeutralContact hsaved).trans heq, hsaved⟩

theorem found_iff (h : row ∈ listContacts toLowerCase s) : Found toLowerCase s row.id ↔
    ∃ c, pick (tried toLowerCase s row.id) = some c ∧ named c = true ∧
      neutralJid toLowerCase s c.id = row.id ∧ c.name = row.name := by
  constructor
  . intro hfound
    rcases exists_heads h with ⟨w, hw⟩
    rcases hfound w hw with ⟨⟨d, hd, hnamed, -⟩, hled⟩
    have hpick := pick_of_named ⟨d, hd, hnamed⟩
    cases hhead : ((tried toLowerCase s row.id).filter named).head? with
    | none =>
      have hmem : d ∈ (tried toLowerCase s row.id).filter named := List.mem_filter.mpr ⟨hd, hnamed⟩
      rw [List.head?_eq_none_iff.mp hhead] at hmem
      contradiction
    | some c =>
      rcases led_iff.mp hled c hhead with ⟨hk, hname⟩
      refine ⟨c, hpick.trans hhead, ?_, hk, hname.trans (name_row h hw).symm⟩
      exact (List.mem_filter.mp (List.mem_of_mem_head? hhead)).2
  . rintro ⟨c, hc, hnamed, hk, hname⟩ w hw
    have hrow : c.name = w.name := hname.trans (name_row h hw)
    have hmem := mem_of_pick hc
    refine ⟨⟨c, hmem, hnamed, hk, hrow⟩, led_iff.mpr fun d hd => ?_⟩
    rw [pick_of_named ⟨c, hmem, hnamed⟩, hd] at hc
    cases hc
    exact ⟨hk, hrow⟩

/--
The lookup answers a row of the list with its saved contact if and only if such an entry is the first of
the saved ones that are tried, and an id with its person if and only if the entries of others come later.
-/
theorem findContact_iff (toLowerCase : Text → Text) (s : SessionStore) :
    (∀ row ∈ listContacts toLowerCase s,
      (∃ c, findContact toLowerCase s row.id = some c ∧ c.id = row.id ∧ c.name = row.name ∧
        c.isMyContact = row.isMyContact) ↔ Found toLowerCase s row.id) ∧
    ∀ id, (∀ c, findContact toLowerCase s id = some c → c.id = neutralJid toLowerCase s id) ↔
      OwnFirst toLowerCase s id := by
  refine ⟨fun row hrow => (answers_row_iff hrow).trans (found_iff hrow).symm, fun id => ?_⟩
  have hgood : (∀ c, findContact toLowerCase s id = some c → c.id = neutralJid toLowerCase s id) ↔
      ∀ c, pick (tried toLowerCase s id) = some c →
        neutralJid toLowerCase s c.id = neutralJid toLowerCase s id := by
    rw [findContact_eq]
    constructor
    . exact fun h c hc => h _ (Option.map_eq_some_iff.mpr ⟨c, hc, rfl⟩)
    . intro h _ hfind
      rcases Option.map_eq_some_iff.mp hfind with ⟨c, hc, rfl⟩
      exact h c hc
  rw [hgood, pick_good_iff]
  exact ⟨fun h => ⟨h.1, h.2⟩, fun h => ⟨h.saved, h.unsaved⟩⟩

theorem findContact_iff_ann :
    Found (·.map Char.toLower) annBefore "15551@c.us".toList ∧
      OwnFirst (·.map Char.toLower) annBefore "15551@c.us".toList := by
  have hfind : findContact (·.map Char.toLower) annBefore "15551@c.us".toList =
      some { ann [] with pushName := none } := by decide +kernel
  have hid : neutralJid (·.map Char.toLower) annBefore "15551@c.us".toList = "15551@c.us".toList := by
    decide +kernel
  constructor
  . apply ((findContact_iff _ annBefore).1 (ann "A".toList) (by decide +kernel)).mp
    exact ⟨_, hfind, rfl, rfl, rfl⟩
  . apply ((findContact_iff _ annBefore).2 _).mp
    intro c hc
    rw [hfind] at hc
    cases hc
    exact hid.symm

/-- A saved contact under its lid only, whose phone the map of the session knows. -/
def annLid : SessionStore :=
  storeOf [⟨"1@lid".toList, none, none, some "Ann".toList, some "A".toList, none, none⟩] (by decide)

/-- The row is not found by its id, and the digits of the lid are taken for a phone's. -/
theorem lookup_disagrees :
    listContacts (·.map Char.toLower) annLid = [ann "A".toList] ∧
      findContact (·.map Char.toLower) annLid (ann "A".toList).id = none ∧
      findContact (·.map Char.toLower) annLid "1@c.us".toList = some (ann "A".toList) ∧
      neutralJid (·.map Char.toLower) annLid "1@c.us".toList = "1@c.us".toList := by
  decide +kernel

end Answer

end OpenWA.Contacts
