import OpenWA.Lifecycle.Node

/-!
This module contains the state that the lifecycle of one session runs over: the stored row, the
writes to it that were issued and have not taken effect yet, the clock, and the memory of every
process.
-/

namespace OpenWA.Lifecycle

/-- An update of the row by id. -/
inductive Write where
  | status (status : SessionStatus)
  /-- `readyRowUpdate`: an empty phone keeps the bound number -/
  | ready (phone : Jid)
  /-- `{ phone: null }` -/
  | clearPhone
deriving DecidableEq

def Write.apply (w : Write) (row : Session) : Session :=
  match w with
  | .status st => { row with status := st }
  | .ready phone =>
    if phone = [] then { row with status := .ready } else { row with status := .ready, phone := some phone }
  | .clearPhone => { row with phone := none }

/--
`writes` are the writes in flight in the order they were issued, with their numbers; `rejected` are
those that the database refused. `host` gives the node id of a process; `alive` are the processes
that run, `crashed` those that ended.
-/
structure State where
  row : Option Session
  writes : List (Nat × Write)
  rejected : List Nat
  issued : Nat
  now : Nat
  leaseTtl : Nat
  host : Nat → Nat
  alive : List Nat
  crashed : List Nat
  node : Nat → Node

namespace State

variable (s : State)

/-- Writes with their numbers, from `i` on. -/
def number (i : Nat) (ws : List Write) : List (Nat × Write) :=
  match ws with
  | [] => []
  | w :: ws => (i, w) :: number (i + 1) ws

/-- Process `p` changes its memory by `f` and sends the writes `ws` to the database. -/
def act (p : Nat) (f : Node → Node) (ws : List Write) : State :=
  { s with
    node := fun q => if q = p then f (s.node q) else s.node q
    writes := s.writes ++ number s.issued ws
    issued := s.issued + ws.length }

@[simp]
theorem act_node_self (p : Nat) (f : Node → Node) (ws : List Write) :
    (s.act p f ws).node p = f (s.node p) := by
  simp [act]

/-- The promise of the write number `i` has settled. -/
def settled (i : Nat) : Bool := s.writes.all fun w => w.1 != i

/-- The database executes or refuses a write in flight. -/
def settle (i : Nat) (fault : Bool) : State :=
  { s with
    row := if fault then s.row else
      match s.writes.find? fun w => w.1 = i with
      | some w => s.row.map w.2.apply
      | none => s.row
    writes := s.writes.filter fun w => w.1 != i
    rejected := if fault then i :: s.rejected else s.rejected }

/-- The row once the writes `ws` have taken effect in their order. -/
def applyAll (ws : List Write) (row : Session) : Session := ws.foldl (fun row w => w.apply row) row

/-- The row once every write in flight has taken effect, in the order of their issue. -/
def outcome : Option Session := s.row.map (applyAll (s.writes.map Prod.snd))

/-- The write number `i` is the next one in the order of their issue. -/
def isNext (i : Nat) : Bool := s.writes.head?.any fun w => w.1 = i

/-- The writes in flight are numbered in the order of their issue. -/
structure Numbered (s : State) : Prop where
  ordered : (s.writes.map Prod.fst).Pairwise (· < ·)
  issued : ∀ i ∈ s.writes.map Prod.fst, i < s.issued

/-- The row after an update whose condition is `guard`. -/
def updateRow (guard : Session → Bool) (f : Session → Session) : Option Session :=
  s.row.map fun row => if guard row then f row else row

/-- The condition of an update holds of the row, that is, the update affects it. -/
def affects (guard : Session → Bool) : Bool := s.row.any guard

section Outcome

variable {s : State}

@[simp]
theorem snd_number (i : Nat) (ws : List Write) : (number i ws).map Prod.snd = ws := by
  induction ws generalizing i with
  | nil => rfl
  | cons w ws ih => simp [number, ih]

@[simp]
theorem fst_number (i : Nat) (ws : List Write) : (number i ws).map Prod.fst = List.range' i ws.length := by
  induction ws generalizing i with
  | nil => rfl
  | cons w ws ih => simp [number, ih, List.range'_succ]

theorem applyAll_append (ws ws' : List Write) (row : Session) :
    applyAll (ws ++ ws') row = applyAll ws' (applyAll ws row) := by
  simp [applyAll]

theorem outcome_of_writes {s' : State} {ws : List Write} (hrow : s'.row = s.row)
    (hwrites : s'.writes = s.writes ++ number s.issued ws) : s'.outcome = s.outcome.map (applyAll ws) := by
  unfold outcome
  rw [hrow, hwrites, Option.map_map]
  congr 1
  funext row
  simp [applyAll_append]

theorem settle_next {i : Nat} (hnumbered : s.Numbered) (h : s.isNext i = true) :
    ∃ w ws, s.writes = (i, w) :: ws ∧ (s.settle i false).row = s.row.map w.apply ∧ (s.settle i false).writes = ws := by
  unfold isNext at h
  cases hwrites : s.writes with
  | nil => simp [hwrites] at h
  | cons head ws =>
    rcases head with ⟨j, w⟩
    simp only [hwrites, List.head?_cons, Option.any_some, decide_eq_true_eq] at h
    subst h
    refine ⟨w, ws, rfl, ?_, ?_⟩
    . simp [settle, hwrites]
    . have hordered := hnumbered.ordered
      rw [hwrites, List.map_cons, List.pairwise_cons] at hordered
      simp only [settle, hwrites, List.filter_cons, bne_self_eq_false]
      rw [if_neg (by simp), List.filter_eq_self]
      intro w' hw'
      have := hordered.1 w'.1 (List.mem_map_of_mem hw')
      simp only [bne_iff_ne]
      omega

theorem outcome_settle {i : Nat} (hnumbered : s.Numbered) (h : s.isNext i = true) :
    (s.settle i false).outcome = s.outcome := by
  rcases settle_next hnumbered h with ⟨w, ws, hwrites, hrow, hrest⟩
  unfold outcome
  rw [hrow, hrest, hwrites, Option.map_map]
  rfl

theorem Numbered.of_writes {s' : State} {ws : List Write} (h : s.Numbered)
    (hwrites : s'.writes = s.writes ++ number s.issued ws) (hissued : s'.issued = s.issued + ws.length) :
    s'.Numbered where
  ordered := by
    rw [hwrites, List.map_append, fst_number, List.pairwise_append]
    refine ⟨h.ordered, List.pairwise_lt_range', fun i hi j hj => ?_⟩
    have := h.issued i hi
    rw [List.mem_range'_1] at hj
    omega
  issued := by
    intro i hi
    rw [hwrites, List.map_append, fst_number, List.mem_append, List.mem_range'_1] at hi
    rcases hi with hi | hi
    . have := h.issued i hi
      omega
    . omega

theorem Numbered.settle (h : s.Numbered) (i : Nat) (fault : Bool) : (s.settle i fault).Numbered where
  ordered := h.ordered.sublist (List.filter_sublist.map _)
  issued := by
    intro j hj
    rw [State.settle, List.mem_map] at hj
    rcases hj with ⟨w, hw, rfl⟩
    exact h.issued w.1 (List.mem_map_of_mem (List.mem_of_mem_filter hw))

end Outcome

end State
end OpenWA.Lifecycle
