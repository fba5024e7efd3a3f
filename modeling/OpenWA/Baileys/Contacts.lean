import Mathlib.Data.List.Lex
import Mathlib.Data.Prod.Lex
import OpenWA.Js.Encoding
import OpenWA.Js.Map
import OpenWA.Message.Candidates
import OpenWA.Order.Preference

/-!
This module contains the contacts of a session and their list, in which the entries of one person are
folded into one row, and when the rows do not depend on the order of the entries.
-/

namespace OpenWA.Contacts

open Identity Js Lid

structure BaileysContact where
  id : Text
  lid : Option Text
  phoneNumber : Option Text
  /-- the one the account saved -/
  name : Option Text
  /-- the one the contact set -/
  notify : Option Text
  verifiedName : Option Text
  imgUrl : Option Text
deriving DecidableEq

/-- A row of the list. -/
@[ext]
structure Contact where
  id : Text
  name : Option Text
  pushName : Option Text
  number : Text
  isMyContact : Bool
  isBlocked : Bool
  profilePicUrl : Option Text
deriving DecidableEq

/-- The maps of a session that contacts are read from; the entries are in the order of their last use. -/
structure SessionStore where
  contacts : Js.Map Text BaileysContact
  /-- A contact is stored under its id. -/
  keyed : ∀ entry ∈ contacts.entries, entry.2.id = entry.1
  lidToPn : Js.Map Text Text
  lidStore : LidStore

namespace SessionStore

def maps (s : SessionStore) : Message.SessionMaps where
  lidToPn := s.lidToPn.get?
  contacts id := (s.contacts.get? id).map (·.phoneNumber)

def values (s : SessionStore) : List BaileysContact := s.contacts.entries.map (·.2)

end SessionStore

variable (toLowerCase : Text → Text)

def resolvePhone (s : SessionStore) (id : Text) : Option Text :=
  Message.resolvePhone toLowerCase s.maps s.lidStore id

def neutralJid (s : SessionStore) (jid : Text) : Text :=
  toNeutralJid toLowerCase jid (resolvePhone toLowerCase s)

def endsWith (t suffix : Text) : Bool := suffix.isSuffixOf t

def toNeutralContact (s : SessionStore) (c : BaileysContact) : Contact :=
  let id := neutralJid toLowerCase s c.id
  let number :=
    match truthy c.phoneNumber with
    | some phone => userPart phone
    | none => if endsWith id "@c.us".toList then userPart id else []
  {
    id := id
    name := c.name.or c.verifiedName
    pushName := c.notify
    number := number
    isMyContact := (truthy c.name).isSome
    isBlocked := false
    profilePicUrl := c.imgUrl
  }

/-- A row with the key of the entry it came from. -/
structure ContactTwin where
  contact : Contact
  rawId : Text
deriving DecidableEq

def isPhoneKeyed (rawId : Text) : Bool :=
  endsWith rawId "@s.whatsapp.net".toList || endsWith rawId "@c.us".toList

/-- What strings are compared by. -/
def codeUnits (t : Text) : List Nat := (toUtf16 t).map UInt16.toNat

def mergeContactTwins (a b : ContactTwin) : ContactTwin :=
  let aWins :=
    if isPhoneKeyed a.rawId ≠ isPhoneKeyed b.rawId then isPhoneKeyed a.rawId
    else decide (codeUnits a.rawId ≤ codeUnits b.rawId)
  let primary := if aWins then a else b
  let secondary := if aWins then b else a
  {
    rawId := primary.rawId
    contact := {
      id := primary.contact.id
      name := primary.contact.name.or secondary.contact.name
      pushName := primary.contact.pushName.or secondary.contact.pushName
      number := if primary.contact.number.isEmpty then secondary.contact.number else primary.contact.number
      isMyContact := primary.contact.isMyContact || secondary.contact.isMyContact
      isBlocked := primary.contact.isBlocked || secondary.contact.isBlocked
      profilePicUrl := primary.contact.profilePicUrl.or secondary.contact.profilePicUrl
    }
  }

/-- Whether the account saved the contact. -/
def named (c : BaileysContact) : Bool := (truthy c.name).isSome

def twinOf (s : SessionStore) (c : BaileysContact) : ContactTwin := ⟨toNeutralContact toLowerCase s c, c.id⟩

def addTwin (byId : Js.Map Text ContactTwin) (twin : ContactTwin) : Js.Map Text ContactTwin :=
  match byId.get? twin.contact.id with
  | some existing => byId.set twin.contact.id (mergeContactTwins existing twin)
  | none => byId.set twin.contact.id twin

def byId (s : SessionStore) : Js.Map Text ContactTwin :=
  ((s.values.filter named).map (twinOf toLowerCase s)).foldl addTwin .empty

def listContacts (s : SessionStore) : List Contact :=
  (byId toLowerCase s).entries.map fun entry => entry.2.contact

/-! ### Folding twins -/

section Merge

variable {a b t e : ContactTwin} {ts : List ContactTwin} {k : Text} {β : Type} {g : Contact → Option β}

/-- Entries in the phone dialect come first, and then the lower keys. -/
def rank (rawId : Text) : Bool ×ₗ List Nat := toLex (!isPhoneKeyed rawId, codeUnits rawId)

theorem codeUnits_injective : Function.Injective codeUnits := by
  intro t u h
  have hunits : toUtf16 t = toUtf16 u :=
    List.map_injective_iff.mpr (fun _ _ => UInt16.toNat_inj.mp) h
  rw [← fromUtf16_toUtf16 t, hunits, fromUtf16_toUtf16]

theorem rank_injective : Function.Injective rank := by
  intro t u h
  exact codeUnits_injective (Prod.mk.inj (toLex.injective h)).2

theorem mergeContactTwins_eq (a b : ContactTwin) : mergeContactTwins a b =
    if rank a.rawId ≤ rank b.rawId then {
      rawId := a.rawId
      contact := {
        id := a.contact.id
        name := a.contact.name.or b.contact.name
        pushName := a.contact.pushName.or b.contact.pushName
        number := if a.contact.number.isEmpty then b.contact.number else a.contact.number
        isMyContact := a.contact.isMyContact || b.contact.isMyContact
        isBlocked := a.contact.isBlocked || b.contact.isBlocked
        profilePicUrl := a.contact.profilePicUrl.or b.contact.profilePicUrl
      }
    } else {
      rawId := b.rawId
      contact := {
        id := b.contact.id
        name := b.contact.name.or a.contact.name
        pushName := b.contact.pushName.or a.contact.pushName
        number := if b.contact.number.isEmpty then a.contact.number else b.contact.number
        isMyContact := b.contact.isMyContact || a.contact.isMyContact
        isBlocked := b.contact.isBlocked || a.contact.isBlocked
        profilePicUrl := b.contact.profilePicUrl.or a.contact.profilePicUrl
      }
    } := by
  have hwins : (if isPhoneKeyed a.rawId ≠ isPhoneKeyed b.rawId then isPhoneKeyed a.rawId
      else decide (codeUnits a.rawId ≤ codeUnits b.rawId)) = decide (rank a.rawId ≤ rank b.rawId) := by
    have hle : rank a.rawId ≤ rank b.rawId ↔ (!isPhoneKeyed a.rawId) < (!isPhoneKeyed b.rawId) ∨
        (!isPhoneKeyed a.rawId) = (!isPhoneKeyed b.rawId) ∧
          codeUnits a.rawId ≤ codeUnits b.rawId := Prod.Lex.toLex_le_toLex
    rw [Bool.eq_iff_iff, decide_eq_true_iff, hle]
    cases isPhoneKeyed a.rawId <;> cases isPhoneKeyed b.rawId <;> simp
  unfold mergeContactTwins
  dsimp only
  rw [hwins]
  by_cases hrank : rank a.rawId ≤ rank b.rawId
  . simp only [hrank, decide_true, if_true]
  . simp only [hrank, decide_false, Bool.false_eq_true, if_false]

/-- A field of the rows that twins give each other. -/
def IsField (g : Contact → Option β) : Prop :=
  ∀ a b : ContactTwin, g (mergeContactTwins a b).contact =
    if rank a.rawId ≤ rank b.rawId then (g a.contact).or (g b.contact)
    else (g b.contact).or (g a.contact)

theorem isField_name : IsField Contact.name := by
  intro a b
  rw [mergeContactTwins_eq]
  split <;> rfl

theorem isField_pushName : IsField Contact.pushName := by
  intro a b
  rw [mergeContactTwins_eq]
  split <;> rfl

theorem isField_profilePicUrl : IsField Contact.profilePicUrl := by
  intro a b
  rw [mergeContactTwins_eq]
  split <;> rfl

/-- The number of a row, if it has one. -/
def numberOf (c : Contact) : Option Text := truthy (some c.number)

theorem truthy_nil : truthy (some []) = none := rfl

theorem truthy_cons (c : Char) (t : Text) : truthy (some (c :: t)) = some (c :: t) := rfl

theorem truthy_fallback (n m : Text) :
    truthy (some (if n.isEmpty then m else n)) = (truthy (some n)).or (truthy (some m)) := by
  cases n with
  | nil => rfl
  | cons c n => rw [truthy_cons]; rfl

theorem isField_number : IsField numberOf := by
  intro a b
  rw [mergeContactTwins_eq]
  split
  . exact truthy_fallback _ _
  . exact truthy_fallback _ _

theorem numberOf_injective {c d : Contact} (h : numberOf c = numberOf d) : c.number = d.number := by
  unfold numberOf at h
  cases hc : c.number <;> cases hd : d.number <;> simp_all [truthy_nil, truthy_cons]

theorem rank_merge (a b : ContactTwin) :
    rank (mergeContactTwins a b).rawId = min (rank a.rawId) (rank b.rawId) := by
  rw [mergeContactTwins_eq]
  split
  . next h => exact (min_eq_left h).symm
  . next h => exact (min_eq_right (le_of_not_ge h)).symm

theorem IsField.prefer (hg : IsField g) (a b : ContactTwin) :
    (rank (mergeContactTwins a b).rawId, g (mergeContactTwins a b).contact) =
      Preference.prefer (rank a.rawId, g a.contact) (rank b.rawId, g b.contact) := by
  rw [rank_merge, hg]
  unfold Preference.prefer
  split
  . next h => rw [min_eq_left h]
  . next h => rw [min_eq_right (le_of_not_ge h)]

def foldTwins (ts : List ContactTwin) : Option ContactTwin :=
  match ts with
  | [] => none
  | t :: ts => some (ts.foldl mergeContactTwins t)

theorem IsField.foldl (hg : IsField g) (ts : List ContactTwin) (t : ContactTwin) :
    (rank (ts.foldl mergeContactTwins t).rawId, g (ts.foldl mergeContactTwins t).contact) =
      (ts.map fun u => (rank u.rawId, g u.contact)).foldl Preference.prefer
        (rank t.rawId, g t.contact) := by
  induction ts generalizing t with
  | nil => rfl
  | cons u ts ih => rw [List.foldl_cons, ih, hg.prefer, List.map_cons, List.foldl_cons]

/-- A field of the folded row is the fold of the entries' values. -/
theorem IsField.fold (hg : IsField g) (ts : List ContactTwin) :
    (Preference.fold (ts.map fun u => (rank u.rawId, g u.contact))).map (·.2) =
      (foldTwins ts).map fun e => g e.contact := by
  cases ts with
  | nil => rfl
  | cons t ts =>
    rw [List.map_cons, Preference.fold_snd_cons, ← hg.foldl]
    rfl

/-- What all the entries that are folded into the row `k` have in common. -/
structure OfRow (k : Text) (t : ContactTwin) : Prop where
  id : t.contact.id = k
  mine : t.contact.isMyContact = true
  unblocked : t.contact.isBlocked = false

theorem OfRow.merge (ha : OfRow k a) (hb : OfRow k b) : OfRow k (mergeContactTwins a b) := by
  rw [mergeContactTwins_eq]
  split
  . exact ⟨ha.id, by simp [ha.mine], by simp [ha.unblocked, hb.unblocked]⟩
  . exact ⟨hb.id, by simp [hb.mine], by simp [ha.unblocked, hb.unblocked]⟩

theorem OfRow.fold (hall : ∀ t ∈ ts, OfRow k t) (h : foldTwins ts = some e) : OfRow k e := by
  cases ts with
  | nil => contradiction
  | cons t ts =>
    cases h
    induction ts generalizing t with
    | nil => exact hall t List.mem_cons_self
    | cons u ts ih =>
      apply ih
      intro v hv
      rcases List.mem_cons.mp hv with rfl | hv
      . exact (hall t List.mem_cons_self).merge (hall u (.tail _ List.mem_cons_self))
      . exact hall v (.tail _ (.tail _ hv))

theorem foldTwins_isSome : (foldTwins ts).isSome = true ↔ ts ≠ [] := by
  cases ts <;> simp [foldTwins]

end Merge

/-! ### The rows -/

section Rows

variable (s : SessionStore) {s' : SessionStore} {c : BaileysContact} {e : ContactTwin} {k : Text}
variable {row : Contact}

/-- What is folded into the row `k`. -/
def group (k : Text) : List BaileysContact :=
  (s.values.filter named).filter fun c => neutralJid toLowerCase s c.id = k

/-- The row after more twins of it. -/
def joined (row : Option ContactTwin) (ts : List ContactTwin) : Option ContactTwin :=
  match row with
  | some e => some (ts.foldl mergeContactTwins e)
  | none => foldTwins ts

theorem joined_cons (row : Option ContactTwin) (t : ContactTwin) (ts : List ContactTwin) :
    joined row (t :: ts) = joined (some ((row.map (mergeContactTwins · t)).getD t)) ts := by
  cases row <;> rfl

theorem get?_addTwin (m : Js.Map Text ContactTwin) (t : ContactTwin) (k : Text) :
    (addTwin m t).get? k =
      if k = t.contact.id then some (((m.get? k).map (mergeContactTwins · t)).getD t)
      else m.get? k := by
  unfold addTwin
  split
  . next e he =>
    rw [Map.get?_set]
    split
    . next hk => rw [hk, he]; rfl
    . rfl
  . next he =>
    rw [Map.get?_set]
    split
    . next hk => rw [hk, he]; rfl
    . rfl

theorem get?_foldl_addTwin (ts : List ContactTwin) (m : Js.Map Text ContactTwin) (k : Text) :
    (ts.foldl addTwin m).get? k = joined (m.get? k) (ts.filter fun t => t.contact.id = k) := by
  induction ts generalizing m with
  | nil =>
    cases hm : m.get? k with
    | none => exact hm
    | some e => exact hm
  | cons t ts ih =>
    rw [List.foldl_cons, ih, get?_addTwin]
    by_cases hk : k = t.contact.id
    . rw [if_pos hk, List.filter_cons_of_pos (by simp [hk]), joined_cons]
    . rw [if_neg hk, List.filter_cons_of_neg (by simpa using Ne.symm hk)]

theorem get?_byId (k : Text) : (byId toLowerCase s).get? k =
    foldTwins ((group toLowerCase s k).map (twinOf toLowerCase s)) := by
  unfold byId
  rw [get?_foldl_addTwin, List.filter_map]
  rfl

variable {toLowerCase s}

theorem mem_group : c ∈ group toLowerCase s k ↔
    c ∈ s.values ∧ named c = true ∧ neutralJid toLowerCase s c.id = k := by
  unfold group
  rw [List.mem_filter, List.mem_filter, decide_eq_true_iff, and_assoc]

theorem ofRow_twinOf (h : c ∈ group toLowerCase s k) : OfRow k (twinOf toLowerCase s c) where
  id := (mem_group.mp h).2.2
  mine := (mem_group.mp h).2.1
  unblocked := rfl

theorem ofRow (h : (byId toLowerCase s).get? k = some e) : OfRow k e := by
  rw [get?_byId] at h
  refine OfRow.fold (fun t ht => ?_) h
  rcases List.mem_map.mp ht with ⟨c, hc, rfl⟩
  exact ofRow_twinOf hc

theorem mem_listContacts : row ∈ listContacts toLowerCase s ↔
    ∃ k e, (byId toLowerCase s).get? k = some e ∧ e.contact = row := by
  unfold listContacts
  rw [List.mem_map]
  constructor
  . rintro ⟨⟨k, e⟩, hmem, rfl⟩
    exact ⟨k, e, (Map.mem_entries_iff _ _).mp hmem, rfl⟩
  . rintro ⟨k, e, hget, rfl⟩
    exact ⟨(k, e), (Map.mem_entries_iff _ (k, e)).mpr hget, rfl⟩

theorem mem_listContacts_iff_id : row ∈ listContacts toLowerCase s ↔
    ((byId toLowerCase s).get? row.id).map (·.contact) = some row := by
  rw [mem_listContacts]
  constructor
  . rintro ⟨k, e, hget, rfl⟩
    rw [(ofRow hget).id, hget]
    rfl
  . intro h
    rcases Option.map_eq_some_iff.mp h with ⟨e, hget, heq⟩
    exact ⟨row.id, e, hget, heq⟩

theorem map_id_listContacts :
    (listContacts toLowerCase s).map (·.id) = (byId toLowerCase s).keys := by
  unfold listContacts Map.keys
  rw [List.map_map]
  apply List.map_congr_left
  intro entry hentry
  exact (ofRow ((Map.mem_entries_iff _ entry).mp hentry)).id

theorem nodup_listContacts : ((listContacts toLowerCase s).map (·.id)).Nodup := by
  rw [map_id_listContacts]
  exact (byId toLowerCase s).nodup

theorem mem_ids_iff : k ∈ (listContacts toLowerCase s).map (·.id) ↔
    ∃ c ∈ s.values, named c = true ∧ neutralJid toLowerCase s c.id = k := by
  rw [map_id_listContacts, ← Map.get?_isSome_iff, get?_byId, foldTwins_isSome, Ne,
    List.map_eq_nil_iff, List.eq_nil_iff_forall_not_mem]
  simp only [mem_group, not_forall, not_not]

end Rows

/-! ### The order of the entries -/

section Order

variable (s : SessionStore) {s' : SessionStore} {k : Text} {β : Type} {g : Contact → Option β}

/-- The same contacts after other traffic. -/
structure Reordered (s s' : SessionStore) : Prop where
  contacts : s'.contacts.entries.Perm s.contacts.entries
  lidToPn : s'.lidToPn = s.lidToPn
  lidStore : s'.lidStore = s.lidStore

/-- The number an entry has in the row `k`. -/
def numberIn (k : Text) (c : BaileysContact) : Option Text :=
  truthy (some (match truthy c.phoneNumber with
    | some phone => userPart phone
    | none => if endsWith k "@c.us".toList then userPart k else []))

/-- In each row, the entry that wins has the field or the entries that have it agree. -/
structure Settled : Prop where
  pushName : ∀ k, Preference.Settled
    ((group toLowerCase s k).map fun c => (rank c.id, c.notify))
  number : ∀ k, Preference.Settled
    ((group toLowerCase s k).map fun c => (rank c.id, numberIn k c))
  profilePicUrl : ∀ k, Preference.Settled
    ((group toLowerCase s k).map fun c => (rank c.id, c.imgUrl))

variable {toLowerCase s}

theorem Reordered.refl (s : SessionStore) : Reordered s s := ⟨.refl _, rfl, rfl⟩

theorem Reordered.trans {s'' : SessionStore} (h : Reordered s s') (h' : Reordered s' s'') :
    Reordered s s'' where
  contacts := h'.contacts.trans h.contacts
  lidToPn := h'.lidToPn.trans h.lidToPn
  lidStore := h'.lidStore.trans h.lidStore

theorem Reordered.resolvePhone (h : Reordered s s') :
    resolvePhone toLowerCase s' = resolvePhone toLowerCase s := by
  have hmaps : s'.maps = s.maps := by
    unfold SessionStore.maps
    rw [h.lidToPn, Map.get?_eq_of_perm h.contacts]
  unfold Contacts.resolvePhone
  rw [hmaps, h.lidStore]

theorem Reordered.neutralJid (h : Reordered s s') :
    neutralJid toLowerCase s' = neutralJid toLowerCase s := by
  unfold Contacts.neutralJid
  rw [h.resolvePhone]

theorem Reordered.toNeutralContact (h : Reordered s s') :
    toNeutralContact toLowerCase s' = toNeutralContact toLowerCase s := by
  unfold Contacts.toNeutralContact
  rw [h.neutralJid]

theorem Reordered.group (h : Reordered s s') (k : Text) :
    (group toLowerCase s' k).Perm (group toLowerCase s k) := by
  unfold Contacts.group
  rw [h.neutralJid]
  exact ((h.contacts.map _).filter _).filter _

theorem nodup_ids (s : SessionStore) : (s.values.map (·.id)).Nodup := by
  have hkeys : s.values.map (·.id) = s.contacts.keys := by
    unfold SessionStore.values Map.keys
    rw [List.map_map]
    exact List.map_congr_left s.keyed
  rw [hkeys]
  exact s.contacts.nodup

theorem nodup_rank (k : Text) : ((group toLowerCase s k).map fun c => rank c.id).Nodup := by
  have hids : ((group toLowerCase s k).map (·.id)).Nodup :=
    (nodup_ids s).sublist ((List.filter_sublist.trans List.filter_sublist).map _)
  have hrank := hids.map rank_injective
  rwa [List.map_map] at hrank

theorem group_eq_filter (s : SessionStore) (k : Text) : group toLowerCase s k =
    s.values.filter fun c => named c && decide (neutralJid toLowerCase s c.id = k) := by
  unfold group
  rw [List.filter_filter]
  apply List.filter_congr
  intro c _
  exact Bool.and_comm _ _

/-- Each order of a group is that of a store. -/
theorem exists_reordered {cs : List BaileysContact} (h : cs.Perm (group toLowerCase s k)) :
    ∃ s', Reordered s s' ∧ group toLowerCase s' k = cs := by
  let mine (c : BaileysContact) : Bool := named c && decide (neutralJid toLowerCase s c.id = k)
  have hgroup : group toLowerCase s k = s.values.filter mine := group_eq_filter s k
  let cs' := cs ++ s.values.filter fun c => !mine c
  have hvalues : cs'.Perm s.values := by
    have hmine : cs.Perm (s.values.filter mine) := hgroup ▸ h
    exact (hmine.append_right _).trans (List.filter_append_perm mine s.values)
  have hentries : s.values.map (fun c => (c.id, c)) = s.contacts.entries := by
    unfold SessionStore.values
    rw [List.map_map]
    conv_rhs => rw [← List.map_id s.contacts.entries]
    apply List.map_congr_left
    intro entry hentry
    exact Prod.ext (s.keyed entry hentry) rfl
  have hperm : (cs'.map fun c => (c.id, c)).Perm s.contacts.entries := hentries ▸ hvalues.map _
  let s' : SessionStore := {
    contacts := ⟨cs'.map fun c => (c.id, c), (hperm.map (·.1)).nodup_iff.mpr s.contacts.nodup⟩
    keyed := fun entry hentry => s.keyed entry (hperm.mem_iff.mp hentry) ▸ rfl
    lidToPn := s.lidToPn
    lidStore := s.lidStore
  }
  have hreordered : Reordered s s' := ⟨hperm, rfl, rfl⟩
  refine ⟨s', hreordered, ?_⟩
  have hvalues' : s'.values = cs' := by
    unfold SessionStore.values
    rw [List.map_map]
    exact List.map_id _
  have hall : cs.filter mine = cs := by
    apply List.filter_eq_self.mpr
    intro c hc
    have hmem := h.mem_iff.mp hc
    rw [hgroup] at hmem
    exact (List.mem_filter.mp hmem).2
  have hgroup' : group toLowerCase s' k = s'.values.filter mine := by
    rw [group_eq_filter, hreordered.neutralJid]
  have hrest : (s.values.filter fun c => !mine c).filter mine = [] := by
    apply List.filter_eq_nil_iff.mpr
    intro c hc
    simpa using (List.mem_filter.mp hc).2
  rw [hgroup', hvalues', List.filter_append, hall, hrest, List.append_nil]

theorem isSome_name {c : BaileysContact} (h : named c = true) : c.name.isSome = true := by
  unfold named truthy at h
  cases hname : c.name with
  | none => rw [hname] at h; contradiction
  | some t => rfl

theorem name_toNeutralContact {c : BaileysContact} (h : named c = true) :
    (toNeutralContact toLowerCase s c).name = c.name := by
  rcases Option.isSome_iff_exists.mp (isSome_name h) with ⟨v, hv⟩
  unfold toNeutralContact
  dsimp only
  rw [hv, Option.some_or]

theorem settled_name (k : Text) : Preference.Settled
    ((group toLowerCase s k).map fun c => (rank c.id, (toNeutralContact toLowerCase s c).name)) := by
  intro p hp _
  left
  rcases List.mem_map.mp hp with ⟨c, hc, rfl⟩
  have hnamed := (mem_group.mp hc).2.1
  rw [name_toNeutralContact hnamed]
  exact isSome_name hnamed

theorem number_eq (k : Text) :
    ((group toLowerCase s k).map fun c => (rank c.id, numberOf (toNeutralContact toLowerCase s c))) =
      (group toLowerCase s k).map fun c => (rank c.id, numberIn k c) := by
  apply List.map_congr_left
  intro c hc
  unfold numberOf toNeutralContact numberIn
  rw [(mem_group.mp hc).2.2]

theorem field_row (hg : IsField g) (k : Text) :
    (((byId toLowerCase s).get? k).map (·.contact)).map g =
      (Preference.fold ((group toLowerCase s k).map fun c =>
        (rank c.id, g (toNeutralContact toLowerCase s c)))).map (·.2) := by
  have hfold := hg.fold ((group toLowerCase s k).map (twinOf toLowerCase s))
  rw [List.map_map] at hfold
  rw [get?_byId, Option.map_map]
  exact hfold.symm

theorem field_row_of_reordered (hg : IsField g) (h : Reordered s s') (k : Text) :
    (((byId toLowerCase s').get? k).map (·.contact)).map g =
      (Preference.fold ((group toLowerCase s' k).map fun c =>
        (rank c.id, g (toNeutralContact toLowerCase s c)))).map (·.2) := by
  rw [field_row hg, h.toNeutralContact]

theorem field_eq (hg : IsField g) (h : Reordered s s') (hs : Preference.Settled
    ((group toLowerCase s k).map fun c => (rank c.id, g (toNeutralContact toLowerCase s c)))) :
    (((byId toLowerCase s').get? k).map (·.contact)).map g =
      (((byId toLowerCase s).get? k).map (·.contact)).map g := by
  rw [field_row_of_reordered hg h, field_row hg]
  exact Preference.fold_eq_of_settled (nodup_rank k) hs (h.group k)

theorem settled_of_field_eq (hg : IsField g)
    (h : ∀ s', Reordered s s' → (((byId toLowerCase s').get? k).map (·.contact)).map g =
      (((byId toLowerCase s).get? k).map (·.contact)).map g) :
    Preference.Settled
      ((group toLowerCase s k).map fun c => (rank c.id, g (toNeutralContact toLowerCase s c))) := by
  rw [← Preference.fold_eq_iff (nodup_rank k)]
  intro cs hcs
  rcases exists_reordered hcs with ⟨s', hs', rfl⟩
  have hrow := h s' hs'
  rwa [field_row_of_reordered hg hs', field_row hg] at hrow

theorem row_eq (h : Reordered s s') (hs : Settled toLowerCase s) (k : Text) :
    ((byId toLowerCase s').get? k).map (·.contact) =
      ((byId toLowerCase s).get? k).map (·.contact) := by
  have hsettled : Preference.Settled ((group toLowerCase s k).map fun c =>
      (rank c.id, numberOf (toNeutralContact toLowerCase s c))) := by
    rw [number_eq]
    exact hs.number k
  have hname := field_eq isField_name h (@settled_name toLowerCase s k)
  have hpush := field_eq isField_pushName h (hs.pushName k)
  have hnumber := field_eq isField_number h hsettled
  have hurl := field_eq isField_profilePicUrl h (hs.profilePicUrl k)
  cases hget : (byId toLowerCase s').get? k with
  | none =>
    cases hget' : (byId toLowerCase s).get? k with
    | none => rfl
    | some e => simp [hget, hget'] at hname
  | some e =>
    cases hget' : (byId toLowerCase s).get? k with
    | none => simp [hget, hget'] at hname
    | some e' =>
      simp only [hget, hget', Option.map_some, Option.some.injEq] at hname hpush hurl hnumber ⊢
      have he := ofRow hget
      have he' := ofRow hget'
      apply Contact.ext
      . rw [he.id, he'.id]
      . exact hname
      . exact hpush
      . exact numberOf_injective hnumber
      . rw [he.mine, he'.mine]
      . rw [he.unblocked, he'.unblocked]
      . exact hurl

theorem row_eq_of_same (h : ∀ row, row ∈ listContacts toLowerCase s' ↔
    row ∈ listContacts toLowerCase s) (k : Text) :
    ((byId toLowerCase s').get? k).map (·.contact) =
      ((byId toLowerCase s).get? k).map (·.contact) := by
  apply Option.ext
  intro row
  have hid (s : SessionStore) : ((byId toLowerCase s).get? k).map (·.contact) = some row →
      row.id = k := by
    intro hget
    rcases Option.map_eq_some_iff.mp hget with ⟨e, he, rfl⟩
    exact (ofRow he).id
  constructor
  . intro hget
    rw [← hid _ hget, ← mem_listContacts_iff_id, ← h, mem_listContacts_iff_id, hid _ hget]
    exact hget
  . intro hget
    rw [← hid _ hget, ← mem_listContacts_iff_id, h, mem_listContacts_iff_id, hid _ hget]
    exact hget

/--
In all orders of the entries the list has one row for each neutral id of a saved contact, and the rows
are the same, if and only if the entries of each row settle its fields.
-/
theorem rows_of_reordered_iff (toLowerCase : Text → Text) (s : SessionStore) :
    (∀ s', Reordered s s' →
      ((listContacts toLowerCase s').map (·.id)).Nodup ∧
      (∀ k, k ∈ (listContacts toLowerCase s').map (·.id) ↔
        ∃ c ∈ s'.values, named c = true ∧ neutralJid toLowerCase s' c.id = k) ∧
      ∀ row, row ∈ listContacts toLowerCase s' ↔ row ∈ listContacts toLowerCase s) ↔
      Settled toLowerCase s := by
  constructor
  . intro h
    have hrow (k : Text) (s' : SessionStore) (hs' : Reordered s s') :=
      row_eq_of_same (h s' hs').2.2 k
    refine ⟨fun k => ?_, fun k => ?_, fun k => ?_⟩
    . exact settled_of_field_eq isField_pushName fun s' hs' => by rw [hrow k s' hs']
    . rw [← number_eq]
      exact settled_of_field_eq isField_number fun s' hs' => by rw [hrow k s' hs']
    . exact settled_of_field_eq isField_profilePicUrl fun s' hs' => by rw [hrow k s' hs']
  . intro hs s' hs'
    refine ⟨nodup_listContacts, fun k => mem_ids_iff, fun row => ?_⟩
    rw [mem_listContacts_iff_id, mem_listContacts_iff_id, row_eq hs' hs]

section Twins

/-- A saved number and two lids of it, which have other push names. -/
def annEntries : List BaileysContact :=
  [⟨"15551@s.whatsapp.net".toList, none, none, some "Ann".toList, none, none, none⟩,
    ⟨"1@lid".toList, none, none, some "Ann".toList, some "A".toList, none, none⟩,
    ⟨"2@lid".toList, none, none, some "Ann".toList, some "B".toList, none, none⟩]

def storeOf (cs : List BaileysContact) (h : (cs.map fun c => c.id).Nodup) : SessionStore where
  contacts := ⟨cs.map fun c => (c.id, c), by rwa [List.map_map]⟩
  keyed entry hentry := by
    rcases List.mem_map.mp hentry with ⟨c, -, rfl⟩
    rfl
  lidToPn := ⟨[("1@lid".toList, "15551@s.whatsapp.net".toList),
    ("2@lid".toList, "15551@s.whatsapp.net".toList)], by decide⟩
  lidStore := Message.emptyStore

def annBefore : SessionStore := storeOf annEntries (by decide)

/-- After the second lid was used, and the first one. -/
def annLater : SessionStore :=
  storeOf [annEntries.get ⟨0, by decide⟩, annEntries.get ⟨2, by decide⟩, annEntries.get ⟨1, by decide⟩]
    (by decide)

def ann (pushName : Text) : Contact where
  id := "15551@c.us".toList
  name := some "Ann".toList
  pushName := some pushName
  number := "15551".toList
  isMyContact := true
  isBlocked := false
  profilePicUrl := none

/-- The push name of the row is the one of the lid that was quiet for longer. -/
theorem rows_follow_traffic :
    Reordered annBefore annLater ∧
      listContacts (·.map Char.toLower) annBefore = [ann "A".toList] ∧
      listContacts (·.map Char.toLower) annLater = [ann "B".toList] := by
  refine ⟨⟨?_, rfl, rfl⟩, by decide +kernel, by decide +kernel⟩
  exact (List.Perm.swap _ _ []).cons _

end Twins

end Order

end OpenWA.Contacts
