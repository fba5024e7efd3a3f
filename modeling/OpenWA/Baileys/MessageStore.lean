import Mathlib.Data.List.Sort
import Mathlib.Data.Prod.Lex

/-!
This module contains the store of serialized messages that the engine keeps for each session, with the
row cap that every write enforces, and the interleavings of its writes.
-/

namespace OpenWA.Baileys.MessageStore

variable {ι : Type} [LinearOrder ι]

structure Row (ι : Type) where
  id : ι
  sessionId : String
  waMessageId : String
  serializedMessage : String
  createdAt : Int
deriving DecidableEq

/-- What the rows of a session are ordered by. -/
def Row.key (row : Row ι) : Int ×ₗ ι := toLex (row.createdAt, row.id)

/-- `ORDER BY createdAt DESC, id DESC` -/
def Row.Newer (a b : Row ι) : Prop := b.key ≤ a.key

instance (a b : Row ι) : Decidable (a.Newer b) := inferInstanceAs (Decidable (b.key ≤ a.key))

instance : Std.Total (Row.Newer (ι := ι)) := ⟨fun a b => le_total b.key a.key⟩

instance : IsTrans (Row ι) Row.Newer := ⟨fun _ _ _ hab hbc => le_trans hbc hab⟩

/-- The columns of the unique index. -/
def Row.message (row : Row ι) : String × String := (row.sessionId, row.waMessageId)

/-- A message that is stored already keeps its id and gets the content and the time of the new row. -/
def upsert (rows : List (Row ι)) (row : Row ι) : List (Row ι) :=
  if rows.any (·.message = row.message) then
    rows.map fun r =>
      if r.message = row.message then
        { r with serializedMessage := row.serializedMessage, createdAt := row.createdAt }
      else r
  else rows ++ [row]

/-- The first of the rows of a session, from the newest on, that the cap leaves no room for. -/
def findCutoff (limit : Nat) (rows : List (Row ι)) (sessionId : String) : Option (Row ι) :=
  ((rows.filter (·.sessionId = sessionId)).insertionSort Row.Newer)[limit]?

/-- `createdAt < :createdAt OR (createdAt = :createdAt AND id <= :id)`, within the session. -/
def evicts (sessionId : String) (cutoff : Row ι) (row : Row ι) : Bool :=
  row.sessionId = sessionId &&
    (row.createdAt < cutoff.createdAt || row.createdAt = cutoff.createdAt && row.id ≤ cutoff.id)

/--
Where a `put` is once its row is written. The number of a cutoff is how many puts had written their row
by the time it was read; no function reads it.
-/
inductive Phase (ι : Type) where
  | stored
  | holding (cutoff : Row ι) (number : Nat)
  | finished
  | failed

structure Put (ι : Type) where
  sessionId : String
  phase : Phase ι

/-- The table, the puts in the order they wrote their rows, and the time. -/
structure Store (ι : Type) where
  rows : List (Row ι)
  puts : List (Put ι)
  now : Int

def Store.getMessage (s : Store ι) (sessionId messageId : String) : Option (Row ι) :=
  if messageId.isEmpty then none
  else s.rows.find? fun row => row.sessionId = sessionId && row.waMessageId = messageId

/-- The rows of the ids that are given and stored. -/
def Store.getMessages (s : Store ι) (sessionId : String) (messageIds : List String) : List (Row ι) :=
  let ids := messageIds.filter fun id => !id.isEmpty
  s.rows.filter fun row => row.sessionId = sessionId && row.waMessageId ∈ ids

inductive Event (ι : Type) where
  | clock (now : Int)
  -- the upsert of a `put`; one that fails changes nothing
  | put (id : ι) (sessionId waMessageId serializedMessage : String)
  -- the queries of `enforceLimit`, which may fail
  | find (p : Nat) (answered : Bool)
  | delete (p : Nat) (answered : Bool)
  -- `clearSession`, or the removal of the session's own row
  | clear (sessionId : String)

def Store.setPhase (s : Store ι) (p : Nat) (put : Put ι) (phase : Phase ι) : Store ι :=
  { s with puts := s.puts.set p { put with phase := phase } }

def Store.step (limit : Nat) (s : Store ι) (e : Event ι) : Option (Store ι) :=
  match e with
  | .clock now => some { s with now := now }
  | .put id sessionId waMessageId serializedMessage =>
    -- a message without an id is not stored, and the database never gives an id twice
    if waMessageId.isEmpty || s.rows.any (·.id = id) then none
    else
      some
        {
          s with
          rows := upsert s.rows ⟨id, sessionId, waMessageId, serializedMessage, s.now⟩
          puts := s.puts ++ [⟨sessionId, .stored⟩]
        }
  | .find p answered =>
    match s.puts[p]? with
    | some put =>
      match put.phase with
      | .stored =>
        if answered then
          match findCutoff limit s.rows put.sessionId with
          | none => some (s.setPhase p put .finished)
          | some cutoff => some (s.setPhase p put (.holding cutoff s.puts.length))
        else some (s.setPhase p put .failed)
      | _ => none
    | none => none
  | .delete p answered =>
    match s.puts[p]? with
    | some put =>
      match put.phase with
      | .holding cutoff _ =>
        if answered then
          let s' := { s with rows := s.rows.filter (! evicts put.sessionId cutoff ·) }
          some (s'.setPhase p put .finished)
        else some (s.setPhase p put .failed)
      | _ => none
    | none => none
  | .clear sessionId => some { s with rows := s.rows.filter (·.sessionId ≠ sessionId) }

/-- The states that are reached through events that satisfy `ok` in the state they happen in. -/
inductive Store.Reach (limit : Nat) (ok : Store ι → Event ι → Prop) (init : Store ι) : Store ι → Prop where
  | init : Reach limit ok init init
  | step {s s' : Store ι} (e : Event ι) (h : Reach limit ok init s) (hok : ok s e)
      (hstep : s.step limit e = some s') : Reach limit ok init s'

section Counts

/-- How many rows of the session are newer than the key. -/
def newer (rows : List (Row ι)) (sessionId : String) (k : Int ×ₗ ι) : Nat :=
  rows.countP fun row => row.sessionId = sessionId && k < row.key

/-- How many rows the session has. -/
def held (rows : List (Row ι)) (sessionId : String) : Nat := rows.countP (·.sessionId = sessionId)

/-- How many of the puts for the session have not enforced the cap. -/
def unfinished (puts : List (Put ι)) (sessionId : String) : Nat :=
  puts.countP fun put =>
    put.sessionId = sessionId &&
      match put.phase with
      | .finished => false
      | .stored | .holding .. | .failed => true

variable {rows : List (Row ι)} {row cutoff : Row ι} {sessionId : String} {limit : Nat} {k : Int ×ₗ ι}

theorem evicts_iff (sessionId : String) (cutoff row : Row ι) :
    evicts sessionId cutoff row = true ↔ row.sessionId = sessionId ∧ row.key ≤ cutoff.key := by
  simp [evicts, Row.key, Prod.Lex.toLex_le_toLex]

theorem newer_le_held (rows : List (Row ι)) (sessionId : String) (k : Int ×ₗ ι) :
    newer rows sessionId k ≤ held rows sessionId := by
  apply List.countP_mono_left
  intro row _ h
  simp only [Bool.and_eq_true] at h
  exact h.1

theorem newer_anti {k' : Int ×ₗ ι} (h : k ≤ k') : newer rows sessionId k' ≤ newer rows sessionId k := by
  apply List.countP_mono_left
  intro row _ hrow
  simp only [Bool.and_eq_true, decide_eq_true_eq] at hrow ⊢
  exact ⟨hrow.1, lt_of_le_of_lt h hrow.2⟩

/-- In a list from the newest row on, no more rows than the place says are newer than the one there. -/
theorem countP_le_of_getElem? {l : List (Row ι)} (h : l.Pairwise fun a b => b.key ≤ a.key) {n : Nat}
    (hn : l[n]? = some cutoff) : l.countP (cutoff.key < ·.key) ≤ n := by
  have hlt := (List.getElem?_eq_some_iff.mp hn).1
  have hdrop : l.drop n = cutoff :: l.drop (n + 1) := by
    rw [← (List.getElem?_eq_some_iff.mp hn).2, List.drop_eq_getElem_cons hlt]
  have hnone : (l.drop n).countP (cutoff.key < ·.key) = 0 := by
    have hpairwise : (l.drop n).Pairwise fun a b => b.key ≤ a.key := h.drop
    rw [hdrop, List.pairwise_cons] at hpairwise
    rw [List.countP_eq_zero, hdrop]
    intro row hrow
    rcases List.mem_cons.mp hrow with rfl | hrow
    . simp
    . simpa using hpairwise.1 row hrow
  calc
    l.countP (cutoff.key < ·.key) = (l.take n ++ l.drop n).countP (cutoff.key < ·.key) := by
      rw [List.take_append_drop]
    _ = (l.take n).countP (cutoff.key < ·.key) := by rw [List.countP_append, hnone, Nat.add_zero]
    _ ≤ (l.take n).length := List.countP_le_length
    _ ≤ n := List.length_take_le n l

/-- And where no two rows share a key, just as many. -/
theorem le_countP_of_getElem? {l : List (Row ι)} (h : l.Pairwise fun a b => b.key < a.key) {n : Nat}
    (hn : l[n]? = some cutoff) : n ≤ l.countP (cutoff.key < ·.key) := by
  have hlt := (List.getElem?_eq_some_iff.mp hn).1
  have hsplit : l = l.take n ++ l.drop n := (List.take_append_drop n l).symm
  have hdrop : cutoff ∈ l.drop n := by
    rw [← (List.getElem?_eq_some_iff.mp hn).2, List.drop_eq_getElem_cons hlt]
    exact List.mem_cons_self
  have hall : (l.take n).countP (cutoff.key < ·.key) = (l.take n).length := by
    rw [List.countP_eq_length]
    intro row hrow
    rw [hsplit, List.pairwise_append] at h
    simpa using h.2.2 row hrow cutoff hdrop
  calc
    n = (l.take n).length := by simp [Nat.le_of_lt hlt]
    _ = (l.take n).countP (cutoff.key < ·.key) := hall.symm
    _ ≤ l.countP (cutoff.key < ·.key) := (List.take_sublist n l).countP_le

theorem newer_eq (rows : List (Row ι)) (sessionId : String) (k : Int ×ₗ ι) :
    newer rows sessionId k =
      ((rows.filter (·.sessionId = sessionId)).insertionSort Row.Newer).countP (k < ·.key) := by
  rw [(List.perm_insertionSort _ _).countP_eq, List.countP_filter]
  exact List.countP_congr fun row _ => by simp [and_comm]

theorem newer_le_of_findCutoff (h : findCutoff limit rows sessionId = some cutoff) :
    newer rows sessionId cutoff.key ≤ limit := by
  rw [newer_eq]
  exact countP_le_of_getElem? (List.pairwise_insertionSort Row.Newer _) h

theorem held_le_of_findCutoff (h : findCutoff limit rows sessionId = none) :
    held rows sessionId ≤ limit := by
  unfold findCutoff at h
  rw [List.getElem?_eq_none_iff, List.length_insertionSort, ← List.countP_eq_length_filter] at h
  exact h

theorem le_newer_of_findCutoff (hids : (rows.map Row.id).Nodup)
    (h : findCutoff limit rows sessionId = some cutoff) : limit ≤ newer rows sessionId cutoff.key := by
  rw [newer_eq]
  refine le_countP_of_getElem? ?_ h
  have hkeys : (((rows.filter (·.sessionId = sessionId)).insertionSort Row.Newer).map Row.id).Nodup :=
    (((List.perm_insertionSort _ _).map Row.id).nodup_iff).mpr ((List.filter_sublist.map Row.id).nodup hids)
  refine ((List.pairwise_insertionSort Row.Newer _).and (List.pairwise_map.mp hkeys)).imp ?_
  intro a b hab
  refine lt_of_le_of_ne hab.1 ?_
  intro heq
  exact hab.2 (congrArg (fun k => (ofLex k).2) heq).symm

/-- A row that is newer than the cutoff stays. -/
theorem newer_filter_evicts (h : cutoff.key ≤ k) :
    newer (rows.filter (! evicts sessionId cutoff ·)) sessionId k = newer rows sessionId k := by
  unfold newer
  rw [List.countP_filter]
  refine List.countP_congr fun row _ => ?_
  have := evicts_iff sessionId cutoff row
  simp only [Bool.and_eq_true, decide_eq_true_eq, Bool.not_eq_true', Bool.eq_false_iff, ne_eq, this]
  grind

theorem held_filter_evicts (rows : List (Row ι)) (sessionId : String) (cutoff : Row ι) :
    held (rows.filter (! evicts sessionId cutoff ·)) sessionId = newer rows sessionId cutoff.key := by
  unfold newer held
  rw [List.countP_filter]
  refine List.countP_congr fun row _ => ?_
  have := evicts_iff sessionId cutoff row
  simp only [Bool.and_eq_true, decide_eq_true_eq, Bool.not_eq_true', Bool.eq_false_iff, ne_eq, this]
  grind

end Counts

end OpenWA.Baileys.MessageStore
