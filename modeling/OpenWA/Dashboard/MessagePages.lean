import OpenWA.Dashboard.ChatMessages
import Mathlib.Data.List.Perm.Basic

/-!
This module contains the pages of a thread: the offset of the next one and how a live message gets into them.
-/

namespace OpenWA.Dashboard

open Js

/-- `db` is ascending; `fetched` is how many rows the fetch of the page returned. -/
structure MessagePage (γ : Type) where
  db : List (ChatMessageView γ)
  history : List (ChatMessageView γ)
  fetched : Nat
deriving DecidableEq

variable {γ : Type}

/-- `id.startsWith('temp_')` -/
def isTemp (id : Text) : Bool := ['t', 'e', 'm', 'p', '_'].isPrefixOf id

def isOptimisticPlaceholder (m : ChatMessageView γ) : Bool := isTemp m.id

def dbRowsFetched (pages : List (MessagePage γ)) : Nat :=
  pages.foldl (fun count page => count + (page.db.filter fun m => !isOptimisticPlaceholder m).length) 0

def nextMessagePageParam (pages : List (MessagePage γ)) (pageSize : Nat) : Option Nat :=
  match pages.getLast? with
  | none => none
  | some oldest => if oldest.fetched < pageSize then none else some (dbRowsFetched pages)

def messageKey (m : ChatMessageView γ) : Text := m.waMessageId.getD m.id

def trimPage (dropId : Text) (page : MessagePage γ) : MessagePage γ :=
  { page with
    db := page.db.filter fun m => m.id ≠ dropId
    history := page.history.filter fun m => m.id ≠ dropId }

def trimPages (dropId : Option Text) (pages : List (MessagePage γ)) : List (MessagePage γ) :=
  match dropId with
  | none => pages
  | some dropId => if dropId.isEmpty then pages else pages.map (trimPage dropId)

def upsertIntoPages (pages : List (MessagePage γ)) (incoming : ChatMessageView γ) (dropId : Option Text) :
    List (MessagePage γ) :=
  let trimmed := trimPages dropId pages
  let target := trimmed.findIdx? fun page => page.db.any fun m => messageKey m = messageKey incoming
  trimmed.modify (target.getD 0) fun page => { page with db := mergeOrAppend page.db incoming }

/-- The transform of `updateCachedMessages` -/
def updatePages (transform : List (ChatMessageView γ) → List (ChatMessageView γ)) (pages : List (MessagePage γ)) :
    List (MessagePage γ) :=
  pages.map fun page => { page with db := transform page.db, history := transform page.history }

section Keys

/-- A message is a placeholder exactly when its key says so. -/
def Plain (m : ChatMessageView γ) : Prop := isOptimisticPlaceholder m = isTemp (messageKey m)

instance (m : ChatMessageView γ) : Decidable (Plain m) := inferInstanceAs (Decidable (_ = _))

def PlainPages (pages : List (MessagePage γ)) : Prop := ∀ page ∈ pages, ∀ m ∈ page.db, Plain m

/-- The keys of the rows in a list. -/
def realKeys (list : List (ChatMessageView γ)) : List Text := (list.map messageKey).filter fun key => !isTemp key

def pageKeys (pages : List (MessagePage γ)) : List Text := pages.flatMap fun page => page.db.map messageKey

/-- The keys of the rows the pages hold, with a copy for each time that they do. -/
def rowKeys (pages : List (MessagePage γ)) : List Text := (pageKeys pages).filter fun key => !isTemp key

theorem pageKeys_cons (page : MessagePage γ) (pages : List (MessagePage γ)) :
    pageKeys (page :: pages) = page.db.map messageKey ++ pageKeys pages := rfl

theorem rowKeys_cons (page : MessagePage γ) (pages : List (MessagePage γ)) :
    rowKeys (page :: pages) = realKeys page.db ++ rowKeys pages := by
  rw [rowKeys, pageKeys_cons, List.filter_append]
  rfl

theorem rowKeys_append (pages pages' : List (MessagePage γ)) :
    rowKeys (pages ++ pages') = rowKeys pages ++ rowKeys pages' := by
  rw [rowKeys, pageKeys, List.flatMap_append, List.filter_append]
  rfl

theorem mem_pageKeys {pages : List (MessagePage γ)} {key : Text} :
    key ∈ pageKeys pages ↔ ∃ page ∈ pages, ∃ m ∈ page.db, messageKey m = key := by
  simp [pageKeys]

theorem mem_rowKeys {pages : List (MessagePage γ)} {key : Text} (h : isTemp key = false) :
    key ∈ rowKeys pages ↔ ∃ page ∈ pages, ∃ m ∈ page.db, messageKey m = key := by
  rw [rowKeys, List.mem_filter, mem_pageKeys, h]
  simp

theorem dbRowsFetched_eq {pages : List (MessagePage γ)} (h : PlainPages pages) :
    dbRowsFetched pages = (rowKeys pages).length := by
  have hpage : ∀ page ∈ pages, (page.db.filter fun m => !isOptimisticPlaceholder m).length =
      (realKeys page.db).length := by
    intro page hpage
    rw [realKeys, List.filter_map, List.length_map]
    congr 1
    apply List.filter_congr
    intro m hm
    rw [h page hpage m hm]
    rfl
  have hsum : ∀ count, pages.foldl
      (fun count page => count + (page.db.filter fun m => !isOptimisticPlaceholder m).length) count =
      count + (rowKeys pages).length := by
    clear h
    induction pages with
    | nil => exact fun _ => rfl
    | cons page pages ih =>
      intro count
      rw [List.foldl_cons, ih fun page' hmem => hpage page' (List.mem_cons_of_mem _ hmem),
        hpage page List.mem_cons_self, rowKeys_cons, List.length_append, Nat.add_assoc]
  rw [dbRowsFetched, hsum, Nat.zero_add]

theorem pageKeys_eq_of_map {pages pages' : List (MessagePage γ)}
    (h : pages'.map (fun page => page.db.map messageKey) = pages.map fun page => page.db.map messageKey) :
    pageKeys pages' = pageKeys pages := by
  rw [pageKeys, pageKeys, List.flatMap_def, List.flatMap_def, h]

/-- A message that some page holds is merged where it is, another one comes to the newest page. -/
theorem pageKeys_upsertIntoPages (pages : List (MessagePage γ)) (incoming : ChatMessageView γ) :
    (pageKeys (upsertIntoPages pages incoming none)).Perm
      (if messageKey incoming ∈ pageKeys pages ∨ pages = [] then pageKeys pages
        else messageKey incoming :: pageKeys pages) := by
  unfold upsertIntoPages
  simp only [trimPages]
  cases htarget : pages.findIdx? fun page => page.db.any fun m => messageKey m = messageKey incoming with
  | some index =>
    rcases getElem?_findIdx? htarget with ⟨page, hpage, hholds⟩
    simp only [List.any_eq_true, decide_eq_true_eq] at hholds
    have hmem : messageKey incoming ∈ pageKeys pages := mem_pageKeys.mpr ⟨page, List.mem_of_getElem? hpage, hholds⟩
    rw [if_pos (.inl hmem), Option.getD_some]
    apply List.Perm.of_eq
    apply pageKeys_eq_of_map
    apply map_modify_of_eq
    intro x hx
    rw [hpage, Option.some.injEq] at hx
    rw [← hx]
    exact (keys_mergeOrAppend page.db incoming).trans (if_pos (List.mem_map.mpr hholds))
  | none =>
    have hnot : messageKey incoming ∉ pageKeys pages := by
      intro hmem
      rcases mem_pageKeys.mp hmem with ⟨page, hpage, hholds⟩
      have hnone := List.findIdx?_eq_none_iff.mp htarget page hpage
      simp only [List.any_eq_false, decide_eq_true_eq] at hnone
      rcases hholds with ⟨m, hm, hkey⟩
      exact hnone m hm hkey
    cases pages with
    | nil => rw [if_pos (.inr rfl), List.modify_nil]
    | cons page pages =>
      rw [if_neg (by simp [hnot]), Option.getD_none, List.modify_zero_cons, pageKeys_cons, pageKeys_cons]
      have hpage : msgKey incoming ∉ page.db.map msgKey := fun hmem => hnot (List.mem_append_left _ hmem)
      have hkeys : (mergeOrAppend page.db incoming).map messageKey = page.db.map messageKey ++ [messageKey incoming] :=
        (keys_mergeOrAppend page.db incoming).trans (if_neg hpage)
      rw [hkeys, List.append_assoc]
      exact List.perm_middle

theorem plain_upsertIntoPages {pages : List (MessagePage γ)} {incoming : ChatMessageView γ}
    (hincoming : Plain incoming) (h : PlainPages pages) : PlainPages (upsertIntoPages pages incoming none) := by
  intro page hpage
  rcases List.mem_iff_getElem?.mp hpage with ⟨j, hj⟩
  unfold upsertIntoPages at hj
  simp only [trimPages] at hj
  rw [List.getElem?_modify] at hj
  split at hj
  . rcases Option.map_eq_some_iff.mp hj with ⟨page', hpage', rfl⟩
    exact forall_mergeOrAppend (P := fun p => isTemp p.1 = isTemp (p.2.getD p.1)) hincoming
      (h page' (List.mem_of_getElem? hpage'))
  . rw [id_map'] at hj
    exact h page (List.mem_of_getElem? hj)

theorem upsertIntoPages_eq (pages : List (MessagePage γ)) (incoming : ChatMessageView γ) (dropId : Option Text) :
    upsertIntoPages pages incoming dropId = upsertIntoPages (trimPages dropId pages) incoming none := rfl

/-- What changes the lists of the pages and not the keys of the rows in them. -/
theorem rowKeys_map {f : MessagePage γ → MessagePage γ} {pages : List (MessagePage γ)}
    (h : ∀ page ∈ pages, realKeys (f page).db = realKeys page.db) : rowKeys (pages.map f) = rowKeys pages := by
  induction pages with
  | nil => rfl
  | cons page pages ih =>
    rw [List.map_cons, rowKeys_cons, rowKeys_cons, h page List.mem_cons_self,
      ih fun page' hpage' => h page' (List.mem_cons_of_mem _ hpage')]

theorem realKeys_filter {list : List (ChatMessageView γ)} {tempId : Text} (htemp : isTemp tempId = true)
    (hplain : ∀ m ∈ list, Plain m) : realKeys (list.filter fun m => m.id ≠ tempId) = realKeys list := by
  induction list with
  | nil => rfl
  | cons m list ih =>
    have hrest := ih fun m' hm' => hplain m' (List.mem_cons_of_mem _ hm')
    rw [List.filter_cons]
    split
    . unfold realKeys at hrest ⊢
      rw [List.map_cons, List.map_cons, List.filter_cons, List.filter_cons, hrest]
    . next hdropped =>
      have hid : m.id = tempId := by simpa using hdropped
      have hkey : isTemp (messageKey m) = true := by
        rw [← hplain m List.mem_cons_self, isOptimisticPlaceholder, hid, htemp]
      rw [hrest, realKeys, realKeys, List.map_cons, List.filter_cons, hkey]
      rfl

theorem realKeys_removeMessageById {list : List (ChatMessageView γ)} {tempId : Text} (htemp : isTemp tempId = true)
    (hplain : ∀ m ∈ list, Plain m) : realKeys (removeMessageById list tempId) = realKeys list := by
  unfold removeMessageById
  split
  . exact realKeys_filter htemp hplain
  . rfl

theorem ids_updateMessageById {patch : ChatMessageView γ → ChatMessageView γ} (hpatch : ∀ m, ids (patch m) = ids m)
    (list : List (ChatMessageView γ)) (id : Text) : (updateMessageById list id patch).map ids = list.map ids := by
  unfold updateMessageById
  split
  . rfl
  . apply map_modify_of_eq
    intro m _
    exact hpatch m

theorem realKeys_of_ids {list list' : List (ChatMessageView γ)} (h : list'.map ids = list.map ids) :
    realKeys list' = realKeys list := by
  have hkey : (messageKey : ChatMessageView γ → Text) = (fun p => p.2.getD p.1) ∘ ids := rfl
  rw [realKeys, realKeys, hkey, ← List.map_map, h, List.map_map]

theorem plain_of_ids {list list' : List (ChatMessageView γ)} (h : list'.map ids = list.map ids)
    (hplain : ∀ m ∈ list, Plain m) : ∀ m ∈ list', Plain m := by
  intro m hm
  have hids := List.mem_map_of_mem (f := ids) hm
  rw [h] at hids
  rcases List.mem_map.mp hids with ⟨m', hm', heq⟩
  have hplain' : isTemp (ids m').1 = isTemp ((ids m').2.getD (ids m').1) := hplain m' hm'
  rw [heq] at hplain'
  exact hplain'

theorem plain_removeMessageById {list : List (ChatMessageView γ)} {id : Text} (hplain : ∀ m ∈ list, Plain m) :
    ∀ m ∈ removeMessageById list id, Plain m := by
  intro m hm
  unfold removeMessageById at hm
  split at hm
  . exact hplain m (List.mem_filter.mp hm).1
  . exact hplain m hm

/-- Only placeholders are dropped. -/
def DropsTemp (dropId : Option Text) : Prop := ∀ id, dropId = some id → isTemp id = true

theorem rowKeys_trimPages {pages : List (MessagePage γ)} {dropId : Option Text} (hdrop : DropsTemp dropId)
    (hplain : PlainPages pages) : rowKeys (trimPages dropId pages) = rowKeys pages := by
  unfold trimPages
  split
  . rfl
  . next id =>
    split
    . rfl
    . apply rowKeys_map
      intro page hpage
      exact realKeys_filter (hdrop id rfl) (hplain page hpage)

theorem plain_trimPages {pages : List (MessagePage γ)} (dropId : Option Text) (hplain : PlainPages pages) :
    PlainPages (trimPages dropId pages) := by
  unfold trimPages
  split
  . exact hplain
  . split
    . exact hplain
    . intro page hpage m hm
      rcases List.mem_map.mp hpage with ⟨page', hpage', rfl⟩
      exact hplain page' hpage' m (List.mem_filter.mp hm).1

theorem fetched_trimPages (dropId : Option Text) (pages : List (MessagePage γ)) :
    (trimPages dropId pages).map (·.fetched) = pages.map (·.fetched) := by
  unfold trimPages
  split
  . rfl
  . split
    . rfl
    . rw [List.map_map]
      rfl

theorem fetched_upsertIntoPages (pages : List (MessagePage γ)) (incoming : ChatMessageView γ)
    (dropId : Option Text) : (upsertIntoPages pages incoming dropId).map (·.fetched) = pages.map (·.fetched) := by
  rw [← fetched_trimPages dropId pages]
  apply map_modify_of_eq
  intro page _
  rfl

/-- The rows gain the incoming one, unless they have it, or it is a placeholder, or there is no page yet. -/
theorem rowKeys_upsertIntoPages {pages : List (MessagePage γ)} (incoming : ChatMessageView γ) {dropId : Option Text}
    (hdrop : DropsTemp dropId) (hplain : PlainPages pages) :
    (rowKeys (upsertIntoPages pages incoming dropId)).Perm
      (if isTemp (messageKey incoming) ∨ messageKey incoming ∈ rowKeys pages ∨ pages = [] then rowKeys pages
        else messageKey incoming :: rowKeys pages) := by
  have htrim := rowKeys_trimPages hdrop hplain
  have hnil : trimPages dropId pages = [] ↔ pages = [] := by
    rw [← List.map_eq_nil_iff (f := (·.fetched)), fetched_trimPages, List.map_eq_nil_iff]
  have hkeys := (pageKeys_upsertIntoPages (trimPages dropId pages) incoming).filter fun key => !isTemp key
  rw [upsertIntoPages_eq, rowKeys, ← htrim]
  refine hkeys.trans (List.Perm.of_eq ?_)
  have hmem : messageKey incoming ∈ rowKeys (trimPages dropId pages) ↔
      messageKey incoming ∈ pageKeys (trimPages dropId pages) ∧ isTemp (messageKey incoming) = false := by
    rw [rowKeys, List.mem_filter, Bool.not_eq_true']
  simp only [hmem, ← hnil]
  cases htemp : isTemp (messageKey incoming) with
  | true =>
    simp only [true_or, if_true]
    split
    . rfl
    . rw [List.filter_cons, htemp]
      rfl
  | false =>
    simp only [Bool.false_eq_true, false_or, and_true]
    split
    . rfl
    . rw [List.filter_cons, htemp]
      rfl

theorem plain_upsert {pages : List (MessagePage γ)} {incoming : ChatMessageView γ} {dropId : Option Text}
    (hincoming : Plain incoming) (hplain : PlainPages pages) : PlainPages (upsertIntoPages pages incoming dropId) :=
  plain_upsertIntoPages hincoming (plain_trimPages dropId hplain)

end Keys

end OpenWA.Dashboard
