import OpenWA.Async.Machine
import OpenWA.Dashboard.MessagePages
import OpenWA.Paging.Offset

/-!
This module contains the runs of a paged thread: the rows that the server inserts, their live events, the optimistic
placeholders and the page fetches.
-/

namespace OpenWA.Dashboard

open Async Js Paging

variable {γ : Type}

/-- A row of the table or its live event. -/
def isRow (m : ChatMessageView γ) : Bool := !isTemp m.id && !isTemp (messageKey m)

/-- The rows of a chat, the newest first. -/
structure ChatTable (γ : Type) where
  rows : List (ChatMessageView γ)
  real : ∀ row ∈ rows, isRow row = true

/-- `seen` is the table as it was at the last fetch; `awaiting` are the inserted rows whose event is to come. -/
structure Thread (γ : Type) where
  table : List (ChatMessageView γ)
  pages : List (MessagePage γ)
  seen : List (ChatMessageView γ)
  awaiting : List Text

inductive ThreadEvent (γ : Type) where
  | insert (row : ChatMessageView γ)
  | deliver (message : ChatMessageView γ) (dropId : Option Text)
  | send (placeholder : ChatMessageView γ)
  | fail (tempId : Text)
  | drop (tempId : Text)
  | fetch (history : List (ChatMessageView γ))

/-- The page query: the rows from an offset on; the history of the engine comes with the first page only. -/
def loadPage (table : List (ChatMessageView γ)) (pageSize offset : Nat) (history : List (ChatMessageView γ)) :
    MessagePage γ :=
  let messages := (table.drop offset).take pageSize
  { db := messages.reverse, history := if offset = 0 then history else [], fetched := messages.length }

def nextOffset (pages : List (MessagePage γ)) (pageSize : Nat) : Option Nat :=
  if pages.isEmpty then some 0 else nextMessagePageParam pages pageSize

def threadMachine (γ : Type) (pageSize : Nat) : Machine (Thread γ) (ThreadEvent γ) where
  step s e :=
    match e with
    | .insert row =>
      if isRow row && row.waMessageId.isSome then
        some { s with table := row :: s.table, awaiting := messageKey row :: s.awaiting }
      else none
    | .deliver message dropId =>
      if isRow message && message.waMessageId.isSome &&
          s.table.any (fun row => row.waMessageId = message.waMessageId) && dropId.all isTemp then
        some { s with
          pages := upsertIntoPages s.pages message dropId
          awaiting := s.awaiting.filter (· ≠ messageKey message) }
      else none
    | .send placeholder =>
      if isOptimisticPlaceholder placeholder && placeholder.waMessageId.isNone then
        some { s with pages := upsertIntoPages s.pages placeholder none }
      else none
    | .fail tempId =>
      if isTemp tempId then
        some { s with
          pages := updatePages (updateMessageById · tempId fun m => { m with status := some .failed }) s.pages }
      else none
    | .drop tempId =>
      if isTemp tempId then some { s with pages := updatePages (removeMessageById · tempId) s.pages }
      else none
    | .fetch history =>
      (nextOffset s.pages pageSize).map fun offset =>
        { s with pages := s.pages ++ [loadPage s.table pageSize offset history], seen := s.table }

/-- A thread before its first page. -/
def Thread.start (table : ChatTable γ) : Thread γ := ⟨table.rows, [], [], []⟩

/-- At the end of the paging every row of the last fetch that awaits no event is in some page. -/
def StrandsNone (pageSize : Nat) (s : Thread γ) : Prop :=
  nextMessagePageParam s.pages pageSize = none →
    ∀ row ∈ s.seen, messageKey row ∉ s.awaiting → ∃ page ∈ s.pages, ∃ m ∈ page.db, messageKey m = messageKey row

/-- The oldest page came back short. -/
def endReached (pageSize : Nat) (pages : List (MessagePage γ)) : Bool :=
  pages.getLast?.any fun oldest => oldest.fetched < pageSize

/--
The event of a row comes before the next page is fetched, unless that page or an earlier one holds the row, or there is
no next page.
-/
def InTime (pageSize : Nat) (s : Thread γ) (e : ThreadEvent γ) : Prop :=
  match e with
  | .deliver message _ =>
    messageKey message ∈ rowKeys s.pages ∨ messageKey message ∉ s.seen.map messageKey ∨
      endReached pageSize s.pages = true
  | _ => True

instance (pageSize : Nat) (s : Thread γ) (e : ThreadEvent γ) : Decidable (InTime pageSize s e) := by
  unfold InTime
  cases e <;> infer_instance

section Pages

theorem nextMessagePageParam_none {pages : List (MessagePage γ)} {pageSize : Nat} :
    nextMessagePageParam pages pageSize = none ↔ pages = [] ∨ endReached pageSize pages = true := by
  unfold nextMessagePageParam endReached
  cases hlast : pages.getLast? with
  | none => simp [List.getLast?_eq_none_iff.mp hlast]
  | some oldest =>
    have hne : pages ≠ [] := by
      rintro rfl
      nomatch hlast
    simp [hne]

theorem endReached_congr {pages pages' : List (MessagePage γ)}
    (h : pages'.map (·.fetched) = pages.map (·.fetched)) (pageSize : Nat) :
    endReached pageSize pages' = endReached pageSize pages := by
  have hlast : ∀ pages : List (MessagePage γ), endReached pageSize pages =
      (pages.map (·.fetched)).getLast?.any fun fetched => fetched < pageSize := by
    intro pages
    rw [List.getLast?_map, Option.any_map]
    rfl
  rw [hlast, hlast, h]

theorem endReached_append (pageSize : Nat) (pages : List (MessagePage γ)) (page : MessagePage γ) :
    endReached pageSize (pages ++ [page]) = decide (page.fetched < pageSize) := by
  rw [endReached, List.getLast?_concat, Option.any_some]

theorem plain_of_isRow {m : ChatMessageView γ} (h : isRow m = true) : Plain m := by
  simp only [isRow, Bool.and_eq_true, Bool.not_eq_true'] at h
  rw [Plain, isOptimisticPlaceholder, h.1, h.2]

theorem isTemp_of_isRow {m : ChatMessageView γ} (h : isRow m = true) : isTemp (messageKey m) = false := by
  simp only [isRow, Bool.and_eq_true, Bool.not_eq_true'] at h
  exact h.2

theorem realKeys_rows {rows : List (ChatMessageView γ)} (h : ∀ row ∈ rows, isRow row = true) :
    realKeys rows = rows.map messageKey := by
  rw [realKeys, List.filter_eq_self]
  intro key hkey
  rcases List.mem_map.mp hkey with ⟨row, hrow, rfl⟩
  rw [isTemp_of_isRow (h row hrow)]
  rfl

theorem mem_page {table : List (ChatMessageView γ)} {pageSize offset : Nat} {history : List (ChatMessageView γ)}
    {m : ChatMessageView γ} (h : m ∈ (loadPage table pageSize offset history).db) : m ∈ table :=
  List.mem_of_mem_drop (List.mem_of_mem_take (List.mem_reverse.mp h))

theorem rowKeys_fetch {table : List (ChatMessageView γ)} (h : ∀ row ∈ table, isRow row = true)
    (pages : List (MessagePage γ)) (pageSize offset : Nat) (history : List (ChatMessageView γ)) :
    (rowKeys (pages ++ [loadPage table pageSize offset history])).Perm
      (rowKeys pages ++ ((table.map messageKey).drop offset).take pageSize) := by
  rw [rowKeys_append, rowKeys_cons, realKeys_rows fun row hrow => h row (mem_page hrow), ← List.map_drop,
    ← List.map_take, loadPage]
  dsimp only
  rw [List.map_reverse, show rowKeys ([] : List (MessagePage γ)) = [] from rfl, List.append_nil]
  exact (List.reverse_perm _).append_left _

end Pages

section Invariant

/-- `fresh` are the rows inserted since the last fetch. -/
structure Kept (pageSize : Nat) (s : Thread γ) : Prop where
  rows : ∀ row ∈ s.table, isRow row = true
  plain : PlainPages s.pages
  reached : ∃ fresh, s.table = fresh ++ s.seen ∧
    (s.pages = [] → s.seen = []) ∧
    (s.pages ≠ [] → endReached pageSize s.pages = false →
      ∃ reach, Covers (fresh.map messageKey) (s.seen.map messageKey) s.awaiting (rowKeys s.pages) reach) ∧
    (endReached pageSize s.pages = true →
      ∀ key ∈ s.seen.map messageKey, key ∉ s.awaiting → key ∈ rowKeys s.pages)

variable {pageSize : Nat} {s s' : Thread γ}

theorem kept_start (table : ChatTable γ) : Kept pageSize (Thread.start table) where
  rows := table.real
  plain := nofun
  reached := ⟨table.rows, (List.append_nil _).symm, fun _ => rfl, fun h => absurd rfl h, nofun⟩

theorem Kept.strandsNone (h : Kept pageSize s) : StrandsNone pageSize s := by
  intro hend row hrow hnot
  rcases h.reached with ⟨fresh, htable, hnil, _, hdone⟩
  rcases nextMessagePageParam_none.mp hend with hempty | hend
  . rw [hnil hempty] at hrow
    nomatch hrow
  . have hmem := hdone hend _ (List.mem_map_of_mem hrow) hnot
    have hreal : isRow row = true := h.rows row (htable ▸ List.mem_append_right fresh hrow)
    exact (mem_rowKeys (isTemp_of_isRow hreal)).mp hmem

theorem Kept.insert (h : Kept pageSize s) {row : ChatMessageView γ} (hrow : isRow row = true) :
    Kept pageSize { s with table := row :: s.table, awaiting := messageKey row :: s.awaiting } where
  rows row' hrow' := by
    rcases List.mem_cons.mp hrow' with rfl | hrow'
    . exact hrow
    . exact h.rows row' hrow'
  plain := h.plain
  reached := by
    rcases h.reached with ⟨fresh, htable, hnil, hopen, hdone⟩
    refine ⟨row :: fresh, ?_, hnil, ?_, ?_⟩
    . rw [htable]
      rfl
    . intro hne hend
      rcases hopen hne hend with ⟨reach, hcovers⟩
      exact ⟨reach, hcovers.insert (messageKey row)⟩
    . intro hend key hkey hnot
      exact hdone hend key hkey fun hmem => hnot (List.mem_cons_of_mem _ hmem)

/-- The pages change, and the rows that they hold do not. -/
theorem Kept.pages (h : Kept pageSize s) {pages : List (MessagePage γ)} (hplain : PlainPages pages)
    (hfetched : pages.map (·.fetched) = s.pages.map (·.fetched)) (hkeys : (rowKeys pages).Perm (rowKeys s.pages)) :
    Kept pageSize { s with pages := pages } where
  rows := h.rows
  plain := hplain
  reached := by
    have hempty : pages = [] ↔ s.pages = [] := by
      rw [← List.map_eq_nil_iff (f := (·.fetched)), hfetched, List.map_eq_nil_iff]
    rcases h.reached with ⟨fresh, htable, hnil, hopen, hdone⟩
    refine ⟨fresh, htable, fun hpages => hnil (hempty.mp hpages), ?_, ?_⟩
    . intro hne hend
      dsimp only at hne hend ⊢
      rw [endReached_congr hfetched] at hend
      rcases hopen (fun hpages => hne (hempty.mpr hpages)) hend with ⟨reach, hcovers⟩
      exact ⟨reach, hcovers.perm hkeys⟩
    . intro hend key hkey hnot
      dsimp only at hend ⊢
      rw [endReached_congr hfetched] at hend
      exact hkeys.mem_iff.mpr (hdone hend key hkey hnot)

/-- The event of a row that some page holds. -/
theorem Kept.again (h : Kept pageSize s) {key : Text} (hheld : key ∈ rowKeys s.pages) :
    Kept pageSize { s with awaiting := s.awaiting.filter (· ≠ key) } where
  rows := h.rows
  plain := h.plain
  reached := by
    rcases h.reached with ⟨fresh, htable, hnil, hopen, hdone⟩
    refine ⟨fresh, htable, hnil, ?_, ?_⟩
    . intro hne hend
      rcases hopen hne hend with ⟨reach, hcovers⟩
      exact ⟨reach, hcovers.again hheld⟩
    . intro hend key' hkey' hnot
      by_cases heq : key' = key
      . exact heq ▸ hheld
      . exact hdone hend key' hkey' fun hmem => hnot (List.mem_filter.mpr ⟨hmem, decide_eq_true heq⟩)

theorem Kept.deliver (h : Kept pageSize s) {message : ChatMessageView γ} {dropId : Option Text}
    (hrow : isRow message = true) (hdrop : DropsTemp dropId)
    (htable : messageKey message ∈ s.table.map messageKey) (hok : InTime pageSize s (.deliver message dropId)) :
    Kept pageSize { s with
      pages := upsertIntoPages s.pages message dropId
      awaiting := s.awaiting.filter (· ≠ messageKey message) } := by
  have hplain : PlainPages (upsertIntoPages s.pages message dropId) := plain_upsert (plain_of_isRow hrow) h.plain
  have hfetched := fetched_upsertIntoPages s.pages message dropId
  have hkeys := rowKeys_upsertIntoPages message hdrop h.plain
  by_cases hheld : messageKey message ∈ rowKeys s.pages
  . rw [if_pos (.inr (.inl hheld))] at hkeys
    exact (h.again hheld).pages hplain hfetched hkeys
  . refine ⟨h.rows, hplain, ?_⟩
    rcases h.reached with ⟨fresh, hsplit, hnil, hopen, hdone⟩
    have hpages : upsertIntoPages s.pages message dropId = [] ↔ s.pages = [] := by
      rw [← List.map_eq_nil_iff (f := (·.fetched)), hfetched, List.map_eq_nil_iff]
    refine ⟨fresh, hsplit, fun hempty => hnil (hpages.mp hempty), ?_, ?_⟩
    . intro hne hend
      dsimp only at hne hend ⊢
      rw [endReached_congr hfetched] at hend
      rw [ne_eq, hpages] at hne
      rw [if_neg (by simp [isTemp_of_isRow hrow, hheld, hne])] at hkeys
      rcases hopen hne hend with ⟨reach, hcovers⟩
      have hnew : messageKey message ∉ s.seen.map messageKey := by
        rcases hok with hmem | hnew | hend'
        . exact absurd hmem hheld
        . exact hnew
        . rw [hend] at hend'
          contradiction
      have hfresh : messageKey message ∈ fresh.map messageKey := by
        rw [hsplit, List.map_append] at htable
        exact (List.mem_append.mp htable).resolve_right hnew
      exact ⟨reach, (hcovers.deliver hfresh hheld).perm hkeys⟩
    . intro hend key hkey hnot
      dsimp only at hend hkey hnot ⊢
      rw [endReached_congr hfetched] at hend
      have hne : s.pages ≠ [] := by
        intro hempty
        rw [hnil hempty] at hkey
        nomatch hkey
      rw [if_neg (by simp [isTemp_of_isRow hrow, hheld, hne])] at hkeys
      rw [hkeys.mem_iff]
      by_cases heq : key = messageKey message
      . exact heq ▸ List.mem_cons_self
      . apply List.mem_cons_of_mem
        exact hdone hend key hkey fun hmem => hnot (List.mem_filter.mpr ⟨hmem, decide_eq_true heq⟩)

theorem Kept.send (h : Kept pageSize s) {placeholder : ChatMessageView γ}
    (htemp : isOptimisticPlaceholder placeholder = true) (hid : placeholder.waMessageId = none) :
    Kept pageSize { s with pages := upsertIntoPages s.pages placeholder none } := by
  have hkey : messageKey placeholder = placeholder.id := by rw [messageKey, hid, Option.getD_none]
  have hplain : Plain placeholder := by rw [Plain, hkey, isOptimisticPlaceholder]
  have hdrop : DropsTemp none := by rintro _ ⟨⟩
  have hkeys := rowKeys_upsertIntoPages placeholder hdrop h.plain
  rw [if_pos (.inl (hplain ▸ htemp))] at hkeys
  exact h.pages (plain_upsert hplain h.plain) (fetched_upsertIntoPages _ _ _) hkeys

/-- A transform of the lists that keeps the rows in them. -/
theorem Kept.update (h : Kept pageSize s) {transform : List (ChatMessageView γ) → List (ChatMessageView γ)}
    (hplain : ∀ list, (∀ m ∈ list, Plain m) → ∀ m ∈ transform list, Plain m)
    (hkeys : ∀ list, (∀ m ∈ list, Plain m) → realKeys (transform list) = realKeys list) :
    Kept pageSize { s with pages := updatePages transform s.pages } := by
  apply h.pages
  . intro page hpage
    rcases List.mem_map.mp hpage with ⟨page', hpage', rfl⟩
    exact hplain page'.db (h.plain page' hpage')
  . rw [updatePages, List.map_map]
    rfl
  . apply List.Perm.of_eq
    apply rowKeys_map
    intro page hpage
    exact hkeys page.db (h.plain page hpage)

theorem Kept.fail (h : Kept pageSize s) (tempId : Text) :
    Kept pageSize { s with
      pages := updatePages (updateMessageById · tempId fun m => { m with status := some .failed }) s.pages } := by
  have hids := @ids_updateMessageById γ (fun m => { m with status := some .failed }) fun _ => rfl
  apply h.update
  . intro list hlist
    exact plain_of_ids (hids list tempId) hlist
  . intro list _
    exact realKeys_of_ids (hids list tempId)

theorem Kept.drop (h : Kept pageSize s) {tempId : Text} (htemp : isTemp tempId = true) :
    Kept pageSize { s with pages := updatePages (removeMessageById · tempId) s.pages } :=
  h.update (fun _ hlist => plain_removeMessageById hlist) fun _ hlist => realKeys_removeMessageById htemp hlist

/-- What the next page reaches, the first one included. -/
theorem Kept.reach (h : Kept pageSize s) {offset : Nat} (hoffset : nextOffset s.pages pageSize = some offset) :
    offset = (rowKeys s.pages).length ∧ ∃ reach, (rowKeys s.pages).length + pageSize ≤ reach ∧
      ∀ key ∈ (s.table.map messageKey).take reach, key ∉ s.awaiting →
        key ∈ rowKeys s.pages ++ ((s.table.map messageKey).drop (rowKeys s.pages).length).take pageSize := by
  unfold nextOffset at hoffset
  split at hoffset
  . next hempty =>
    rw [List.isEmpty_iff] at hempty
    have hnone : rowKeys s.pages = [] := by rw [hempty]; rfl
    rw [hnone]
    exact ⟨(Option.some.inj hoffset).symm, pageSize, by simp, fun key hkey _ => hkey⟩
  . next hne =>
    rw [List.isEmpty_iff] at hne
    have hend : endReached pageSize s.pages = false := by
      rw [← Bool.not_eq_true]
      intro hend
      rw [nextMessagePageParam_none.mpr (.inr hend)] at hoffset
      contradiction
    rcases h.reached with ⟨fresh, htable, _, hopen, _⟩
    rcases hopen hne hend with ⟨reach, hcovers⟩
    refine ⟨?_, ?_⟩
    . unfold nextMessagePageParam at hoffset
      split at hoffset
      . contradiction
      . split at hoffset
        . contradiction
        . rw [← Option.some.inj hoffset, dbRowsFetched_eq h.plain]
    . rw [htable, List.map_append]
      exact hcovers.fetch pageSize

theorem Kept.fetch (h : Kept pageSize s) {offset : Nat} (hoffset : nextOffset s.pages pageSize = some offset)
    (history : List (ChatMessageView γ)) :
    Kept pageSize { s with pages := s.pages ++ [loadPage s.table pageSize offset history], seen := s.table } := by
  rcases h.reach hoffset with ⟨rfl, reach, hreach, htold⟩
  have hkeys := rowKeys_fetch h.rows s.pages pageSize (rowKeys s.pages).length history
  have hlength : (loadPage s.table pageSize (rowKeys s.pages).length history).fetched =
      (((s.table.map messageKey).drop (rowKeys s.pages).length).take pageSize).length := by
    rw [← List.map_drop, ← List.map_take, List.length_map, loadPage]
  refine ⟨h.rows, ?_, [], rfl, ?_, ?_, ?_⟩
  . intro page hpage
    rcases List.mem_append.mp hpage with hpage | hpage
    . exact h.plain page hpage
    . rw [List.mem_singleton.mp hpage]
      intro m hm
      exact plain_of_isRow (h.rows m (mem_page hm))
  . intro hempty
    exact absurd hempty (List.append_ne_nil_of_right_ne_nil _ (List.cons_ne_nil _ _))
  . intro _ _
    exact ⟨reach, (Covers.full (List.length_take_le _ _) hreach htold).perm hkeys⟩
  . intro hend key hkey hnot
    dsimp only at hend
    rw [endReached_append, decide_eq_true_eq, hlength] at hend
    exact hkeys.mem_iff.mpr (told_of_short rfl hend hreach htold key hkey hnot)

theorem Kept.run (h : Kept pageSize s) {e : ThreadEvent γ} (hok : InTime pageSize s e)
    (hstep : (threadMachine γ pageSize).step s e = some s') : Kept pageSize s' := by
  cases e with
  | insert row =>
    simp only [threadMachine, Option.ite_none_right_eq_some, Option.some.injEq, Bool.and_eq_true] at hstep
    rcases hstep with ⟨⟨hrow, _⟩, rfl⟩
    exact h.insert hrow
  | deliver message dropId =>
    simp only [threadMachine, Option.ite_none_right_eq_some, Option.some.injEq, Bool.and_eq_true] at hstep
    rcases hstep with ⟨⟨⟨⟨hrow, hid⟩, hany⟩, htemp⟩, rfl⟩
    apply h.deliver hrow _ _ hok
    . intro id hsome
      rw [hsome, Option.all_some] at htemp
      exact htemp
    . rcases List.any_eq_true.mp hany with ⟨row, hmem, heq⟩
      rw [decide_eq_true_eq] at heq
      rcases Option.isSome_iff_exists.mp hid with ⟨waMessageId, hsome⟩
      refine List.mem_map.mpr ⟨row, hmem, ?_⟩
      rw [messageKey, messageKey, heq, hsome, Option.getD_some, Option.getD_some]
  | send placeholder =>
    simp only [threadMachine, Option.ite_none_right_eq_some, Option.some.injEq, Bool.and_eq_true] at hstep
    rcases hstep with ⟨⟨htemp, hid⟩, rfl⟩
    exact h.send htemp (Option.isNone_iff_eq_none.mp hid)
  | fail tempId =>
    simp only [threadMachine, Option.ite_none_right_eq_some, Option.some.injEq] at hstep
    rcases hstep with ⟨_, rfl⟩
    exact h.fail tempId
  | drop tempId =>
    simp only [threadMachine, Option.ite_none_right_eq_some, Option.some.injEq] at hstep
    rcases hstep with ⟨htemp, rfl⟩
    exact h.drop htemp
  | fetch history =>
    rcases Option.map_eq_some_iff.mp hstep with ⟨offset, hoffset, rfl⟩
    exact h.fetch hoffset history

end Invariant

section Runs

theorem strandsNone_of_reach {pageSize : Nat} {table : ChatTable γ} {s : Thread γ}
    (h : (threadMachine γ pageSize).Reach (InTime pageSize) (Thread.start table) s) : StrandsNone pageSize s :=
  (h.invariant (kept_start table) fun _ _ _ hkept hok hstep => hkept.run hok hstep).strandsNone

/-- The row of a message that has the id `[c]` on both sides. -/
def plainRow (c : Char) : ChatMessageView Unit := ⟨[c], some [c], none, some .sent, none, ()⟩

theorem strandsNone_of_reach_onePage :
    ∃ s : Thread Unit, s.seen = [plainRow 'b', plainRow 'a'] ∧ StrandsNone 1 s := by
  have hrun : ((threadMachine Unit 1).exec (InTime 1) (Thread.start ⟨[plainRow 'a'], by decide⟩)
      [.fetch [], .insert (plainRow 'b'), .deliver (plainRow 'b') none, .fetch []]).map (·.seen) =
      some [plainRow 'b', plainRow 'a'] := by
    decide +kernel
  rcases Machine.reach_of_exec_map hrun with ⟨s, hreach, hseen⟩
  exact ⟨s, hseen, strandsNone_of_reach hreach⟩

/-- The rows of a chat, from the newest one down to the one of the character `0x100`. -/
def plainRows (n : Nat) : List (ChatMessageView Unit) :=
  (List.range n).reverse.map fun i => plainRow (Char.ofNat (0x100 + i))

theorem isRow_plainRows : ∀ row ∈ plainRows 201, isRow row = true := by decide +kernel

/-- A page is fetched between the insert of a row and its event, and the next one leaves out the oldest row but one. -/
theorem late_event_strands :
    ∃ table : ChatTable Unit, ∃ s,
      (threadMachine Unit 100).Reach Machine.anyStep (Thread.start table) s ∧ ¬StrandsNone 100 s := by
  have hrun : ((threadMachine Unit 100).exec Machine.anyStep (Thread.start ⟨plainRows 201, isRow_plainRows⟩)
      [.fetch [], .insert (plainRow 'n'), .fetch [], .deliver (plainRow 'n') none, .fetch []]).map
      (fun s => (nextMessagePageParam s.pages 100, s.awaiting, decide (plainRow '\u0101' ∈ s.seen),
        decide (['\u0101'] ∈ pageKeys s.pages))) =
      some (none, [], true, false) := by
    decide +kernel
  rcases Machine.reach_of_exec_map hrun with ⟨s, hreach, hs⟩
  simp only [Prod.mk.injEq, decide_eq_true_eq, decide_eq_false_iff_not] at hs
  rcases hs with ⟨hend, hawaiting, hseen, hmissing⟩
  refine ⟨_, s, hreach, ?_⟩
  intro h
  apply hmissing
  apply mem_pageKeys.mpr
  apply h hend _ hseen
  rw [hawaiting]
  exact List.not_mem_nil

end Runs

end OpenWA.Dashboard
