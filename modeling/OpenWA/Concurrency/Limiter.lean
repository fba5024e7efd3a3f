import Mathlib.Data.List.Count
import Mathlib.Data.Rat.Floor
import OpenWA.Async.Machine

/-!
This module contains the concurrency limiter: the calls of its `run` that hold a slot, that are parked
and that are settled, under every order of calls, ends of tasks and reactions.
-/

namespace OpenWA.Concurrency

open Async

structure ConcurrencyLimiter where
  max : Int
  /-- `none` is `Infinity`. -/
  maxQueued : Option Int
  one_le : 1 ≤ max
  nonneg : ∀ q ∈ maxQueued, 0 ≤ q

/-- The constructor. -/
def ConcurrencyLimiter.new (max : Rat) (maxQueued : Option Rat) : ConcurrencyLimiter where
  max := Max.max 1 max.floor
  maxQueued := maxQueued.map fun q => Max.max 0 q.floor
  one_le := le_max_left _ _
  nonneg q hq := by
    rcases Option.mem_map.mp hq with ⟨q', _, rfl⟩
    exact le_max_left _ _

namespace Limiter

/-- How the promise of a `run` is settled. -/
inductive Outcome where
  | fulfilled
  | failed
  /-- `ConcurrencyLimiter closed` -/
  | closed
  /-- `ConcurrencyLimiter queue full` -/
  | queueFull
deriving DecidableEq

structure State where
  active : Int
  waiters : List Nat
  closed : Bool
  /-- The parked calls whose microtask is due, and whether they were woken with an error. -/
  jobs : List (Nat × Bool)
  running : List Nat
  /-- The calls whose task's promise is settled and whose `finally` is due. -/
  ended : List (Nat × Bool)
  settled : List (Nat × Outcome)
  calls : Nat
  /-- The calls whose task was started, in this order. -/
  starts : List Nat
  /-- The calls that were ever parked, in this order. -/
  parked : List Nat
deriving DecidableEq

namespace State

def init : State where
  active := 0
  waiters := []
  closed := false
  jobs := []
  running := []
  ended := []
  settled := []
  calls := 0
  starts := []
  parked := []

def start (s : State) (i : Nat) : State :=
  { s with running := s.running ++ [i], starts := s.starts ++ [i] }

def settle (s : State) (i : Nat) (o : Outcome) : State := { s with settled := s.settled ++ [(i, o)] }

/-- The parked calls that a slot was handed to and that have not started yet. -/
def handed (s : State) : List Nat := (s.jobs.filter fun job => !job.2).map (·.1)

/-- The slots that are held. -/
def holding (s : State) : Nat := s.handed.length + s.running.length + s.ended.length

end State

inductive Event where
  | run
  /-- the microtask of a woken call runs -/
  | resume
  | finish (i : Nat) (fulfilled : Bool)
  /-- the `finally` of a call runs -/
  | release (i : Nat) (fulfilled : Bool)
  | close
deriving DecidableEq

/-- The synchronous part of `run`. -/
def run (l : ConcurrencyLimiter) (s : State) : State :=
  let i := s.calls
  let s := { s with calls := s.calls + 1 }
  if s.closed then
    s.settle i .closed
  else if s.active < l.max then
    { s with active := s.active + 1 }.start i
  else if l.maxQueued.any fun (q : Int) => decide (q ≤ s.waiters.length) then
    s.settle i .queueFull
  else
    { s with waiters := s.waiters ++ [i], parked := s.parked ++ [i] }

def resume (s : State) : Option State :=
  match s.jobs with
  | [] => none
  | (i, error) :: jobs =>
    let s := { s with jobs := jobs }
    some (if error then s.settle i .closed else s.start i)

def finish (s : State) (i : Nat) (fulfilled : Bool) : Option State :=
  if i ∈ s.running then
    some { s with running := s.running.erase i, ended := s.ended ++ [(i, fulfilled)] }
  else none

def release (s : State) (i : Nat) (fulfilled : Bool) : Option State :=
  if (i, fulfilled) ∈ s.ended then
    let s := { s with ended := s.ended.erase (i, fulfilled) }
    let s :=
      match s.waiters with
      | next :: waiters => { s with waiters := waiters, jobs := s.jobs ++ [(next, false)] }
      | [] => { s with active := s.active - 1 }
    some (s.settle i (if fulfilled then .fulfilled else .failed))
  else none

def close (s : State) : State :=
  { s with
    closed := true
    waiters := []
    jobs := s.jobs ++ s.waiters.map fun i => (i, true) }

def machine (l : ConcurrencyLimiter) : Machine State Event where
  step s e :=
    match e with
    | .run => some (run l s)
    | .resume => resume s
    | .finish i fulfilled => finish s i fulfilled
    | .release i fulfilled => release s i fulfilled
    | .close => some (close s)

variable {l : ConcurrencyLimiter} {s s' : State} {e : Event} {i j : Nat} {b : Bool}

/-- Where the calls are, each in one place. -/
def State.ledger (s : State) : List Nat :=
  s.waiters ++ (s.jobs.map (·.1) ++ (s.running ++ (s.ended.map (·.1) ++ s.settled.map (·.1))))

/-- The parked calls in the order in which they started, are to start or wait. -/
def State.line (s : State) : List Nat :=
  s.starts.filter (fun i => decide (i ∈ s.parked)) ++ (s.handed ++ s.waiters)

structure Balanced (l : ConcurrencyLimiter) (s : State) : Prop where
  ledger : s.ledger.Perm (List.range s.calls)
  active : s.active = s.holding
  atMost : s.active ≤ l.max
  queued : ∀ q ∈ l.maxQueued, s.waiters.length ≤ q
  /-- No slot is free while a call waits. -/
  full : s.waiters ≠ [] → s.active = l.max ∧ s.closed = false
  line : s.line.Pairwise (· < ·)
  known : ∀ i ∈ s.parked, i < s.calls
  ordered : s.parked.Pairwise (· < ·)
  /-- No started call came after one that waits. -/
  before : ∀ i ∈ s.starts, ∀ j ∈ s.waiters, i < j
  /-- What started is running, or over. -/
  begun : ∀ i ∈ s.starts, i ∈ s.running ∨ i ∈ s.ended.map (·.1) ∨ i ∈ s.settled.map (·.1)
  once : s.starts.Nodup
  waited : ∀ i ∈ s.handed ++ s.waiters, i ∈ s.parked

theorem balanced_init (l : ConcurrencyLimiter) : Balanced l .init where
  ledger := .refl _
  active := rfl
  atMost := Int.le_trans (by decide) l.one_le
  queued q hq := l.nonneg q hq
  full h := absurd rfl h
  line := .nil
  known _ h := nomatch h
  ordered := .nil
  before _ h := nomatch h
  begun _ h := nomatch h
  once := .nil
  waited _ h := nomatch h

theorem run_cases (l : ConcurrencyLimiter) (s : State) :
    (s.closed = true ∧ run l s = { s with calls := s.calls + 1 }.settle s.calls .closed) ∨
    (s.closed = false ∧ s.active < l.max ∧
      run l s = { s with calls := s.calls + 1, active := s.active + 1 }.start s.calls) ∨
    (s.closed = false ∧ l.max ≤ s.active ∧ (∃ q ∈ l.maxQueued, q ≤ s.waiters.length) ∧
      run l s = { s with calls := s.calls + 1 }.settle s.calls .queueFull) ∨
    (s.closed = false ∧ l.max ≤ s.active ∧ (∀ q ∈ l.maxQueued, s.waiters.length < q) ∧
      run l s = { s with
        calls := s.calls + 1
        waiters := s.waiters ++ [s.calls]
        parked := s.parked ++ [s.calls] }) := by
  unfold run
  dsimp only
  cases hclosed : s.closed with
  | true => exact .inl ⟨rfl, rfl⟩
  | false =>
    right
    rw [if_neg Bool.false_ne_true]
    split
    . next hfree => exact .inl ⟨rfl, hfree, rfl⟩
    . next hbusy =>
      right
      have hmax : l.max ≤ s.active := Int.not_lt.mp hbusy
      split
      . next hfull =>
        cases hq : l.maxQueued with
        | none => simp [hq] at hfull
        | some q =>
          have hle : q ≤ s.waiters.length := by simpa [hq] using hfull
          exact .inl ⟨rfl, hmax, ⟨q, rfl, hle⟩, rfl⟩
      . next hroom =>
        refine .inr ⟨rfl, hmax, fun q hq => Int.not_le.mp fun hle => hroom ?_, rfl⟩
        rw [Option.mem_def] at hq
        simp [hq, hle]

theorem Balanced.nodup (hs : Balanced l s) : s.ledger.Nodup := hs.ledger.nodup_iff.mpr List.nodup_range

theorem Balanced.lt_calls (hs : Balanced l s) (hi : i ∈ s.ledger) : i < s.calls :=
  List.mem_range.mp (hs.ledger.mem_iff.mp hi)

theorem mem_handed : i ∈ s.handed ↔ (i, false) ∈ s.jobs := by
  simp [State.handed]

theorem Balanced.started_lt (hs : Balanced l s) (hi : i ∈ s.starts) : i < s.calls := by
  apply hs.lt_calls
  rcases hs.begun i hi with h | h | h <;> simp only [State.ledger, List.mem_append, h, true_or, or_true]

/-- A call that waits, or that was woken, has not started. -/
theorem Balanced.not_started (hs : Balanced l s) (hi : i ∈ s.waiters ++ s.jobs.map (·.1)) :
    i ∉ s.starts := by
  intro hstart
  have hnodup := hs.nodup
  unfold State.ledger at hnodup
  rw [← List.append_assoc] at hnodup
  refine (List.nodup_append.mp hnodup).2.2 i hi i ?_ rfl
  rcases hs.begun i hstart with h | h | h <;> simp only [List.mem_append, h, true_or, or_true]

theorem range_succ_perm {xs : List Nat} {n : Nat} (h : xs.Perm (List.range n)) :
    (xs ++ [n]).Perm (List.range (n + 1)) := by
  rw [List.range_succ]
  exact h.append_right [n]

theorem Balanced.refused (hs : Balanced l s) (o : Outcome) :
    Balanced l ({ s with calls := s.calls + 1 }.settle s.calls o) where
  ledger := by
    have hperm := range_succ_perm hs.ledger
    simpa only [State.ledger, State.settle, List.map_append, List.map_cons, List.map_nil,
      List.append_assoc] using hperm
  active := hs.active
  atMost := hs.atMost
  queued := hs.queued
  full := hs.full
  line := hs.line
  known i hi := Nat.lt_succ_of_lt (hs.known i hi)
  ordered := hs.ordered
  before := hs.before
  begun i hi := by
    rcases hs.begun i hi with h | h | h
    . exact .inl h
    . exact .inr (.inl h)
    . exact .inr (.inr (by simp only [State.settle, List.map_append, List.mem_append, h, true_or]))
  once := hs.once
  waited := hs.waited

theorem Balanced.admitted (hs : Balanced l s) (hfree : s.active < l.max) :
    Balanced l ({ s with calls := s.calls + 1, active := s.active + 1 }.start s.calls) := by
  have hempty : s.waiters = [] := by
    cases hw : s.waiters with
    | nil => rfl
    | cons j waiters =>
      have := (hs.full (by simp [hw])).1
      omega
  have hnew : s.calls ∉ s.parked := fun h => absurd (hs.known _ h) (Nat.lt_irrefl _)
  refine ⟨?ledger, ?active, ?atMost, hs.queued, ?full, ?line, ?known, hs.ordered,
    ?before, ?begun, ?once, hs.waited⟩
  case ledger =>
    refine List.Perm.trans ?_ (range_succ_perm hs.ledger)
    rw [List.perm_iff_count]
    intro a
    simp only [State.ledger, State.start, List.count_append]
    omega
  case active =>
    have := hs.active
    simp only [State.start, State.holding, State.handed, List.length_append, List.length_cons,
      List.length_nil] at this ⊢
    omega
  case atMost => exact hfree
  case full =>
    intro hne
    exact absurd hempty hne
  case line =>
    have hfilter : (s.starts ++ [s.calls]).filter (fun i => decide (i ∈ s.parked)) =
        s.starts.filter (fun i => decide (i ∈ s.parked)) := by
      simp [List.filter_append, hnew]
    show ((s.starts ++ [s.calls]).filter (fun i => decide (i ∈ s.parked)) ++ _).Pairwise (· < ·)
    rw [hfilter]
    exact hs.line
  case known => exact fun i hi => Nat.lt_succ_of_lt (hs.known i hi)
  case before =>
    intro i _ j hj
    have hj' : j ∈ s.waiters := hj
    rw [hempty] at hj'
    contradiction
  case begun =>
    intro i hi
    rcases List.mem_append.mp hi with hi | hi
    . exact (hs.begun i hi).imp_left (List.mem_append_left _)
    . exact .inl (List.mem_append_right _ hi)
  case once =>
    refine List.nodup_append.mpr ⟨hs.once, List.pairwise_singleton _ _, ?_⟩
    intro i hi j hj heq
    rw [List.mem_singleton] at hj
    have := hs.started_lt hi
    omega

/-- A call that is parked, while no slot is free. -/
theorem Balanced.park (hs : Balanced l s) (hopen : s.closed = false) (hmax : l.max ≤ s.active)
    (hroom : ∀ q ∈ l.maxQueued, (s.waiters.length : Int) < q) :
    Balanced l { s with
      calls := s.calls + 1
      waiters := s.waiters ++ [s.calls]
      parked := s.parked ++ [s.calls] } := by
  have hold {i : Nat} (hi : i < s.calls) : i ∈ s.parked ++ [s.calls] ↔ i ∈ s.parked := by
    simp [Nat.ne_of_lt hi]
  have hfilter : s.starts.filter (fun i => decide (i ∈ s.parked ++ [s.calls])) =
      s.starts.filter (fun i => decide (i ∈ s.parked)) :=
    List.filter_congr fun i hi => by rw [decide_eq_decide, hold (hs.started_lt hi)]
  refine ⟨?ledger, hs.active, hs.atMost, ?queued, ?full, ?line, ?known, ?ordered,
    ?before, hs.begun, hs.once, ?waited⟩
  case ledger =>
    refine List.Perm.trans ?_ (range_succ_perm hs.ledger)
    rw [List.perm_iff_count]
    intro a
    simp only [State.ledger, List.count_append]
    omega
  case queued =>
    intro q hq
    have := hroom q hq
    simp only [List.length_append, List.length_cons, List.length_nil]
    omega
  case full => exact fun _ => ⟨Int.le_antisymm hs.atMost hmax, hopen⟩
  case line =>
    have hline : ({ s with
        calls := s.calls + 1
        waiters := s.waiters ++ [s.calls]
        parked := s.parked ++ [s.calls] } : State).line = s.line ++ [s.calls] := by
      simp only [State.line, State.handed, hfilter, List.append_assoc]
    rw [hline]
    refine List.pairwise_append.mpr ⟨hs.line, List.pairwise_singleton _ _, ?_⟩
    intro i hi j hj
    rw [List.mem_singleton] at hj
    subst hj
    rcases List.mem_append.mp hi with hi | hi
    . exact hs.started_lt (List.mem_filter.mp hi).1
    . exact hs.known i (hs.waited i hi)
  case known =>
    intro i hi
    rcases List.mem_append.mp hi with hi | hi
    . exact Nat.lt_succ_of_lt (hs.known i hi)
    . rw [List.mem_singleton.mp hi]
      exact Nat.lt_succ_self _
  case ordered =>
    refine List.pairwise_append.mpr ⟨hs.ordered, List.pairwise_singleton _ _, ?_⟩
    intro i hi j hj
    rw [List.mem_singleton.mp hj]
    exact hs.known i hi
  case before =>
    intro i hi j hj
    rcases List.mem_append.mp hj with hj | hj
    . exact hs.before i hi j hj
    . rw [List.mem_singleton.mp hj]
      exact hs.started_lt hi
  case waited =>
    intro i hi
    simp only [State.handed, List.mem_append, List.mem_singleton] at hi ⊢
    rcases hi with hi | hi | hi
    . exact .inl (hs.waited i (List.mem_append_left _ hi))
    . exact .inl (hs.waited i (List.mem_append_right _ hi))
    . exact .inr hi

theorem Balanced.run (hs : Balanced l s) : Balanced l (run l s) := by
  rcases run_cases l s with ⟨_, heq⟩ | ⟨_, hfree, heq⟩ | ⟨_, _, _, heq⟩ | ⟨hopen, hmax, hroom, heq⟩
  . rw [heq]
    exact hs.refused .closed
  . rw [heq]
    exact hs.admitted hfree
  . rw [heq]
    exact hs.refused .queueFull
  . rw [heq]
    exact hs.park hopen hmax hroom

theorem Balanced.resumed (hs : Balanced l s) {jobs : List (Nat × Bool)}
    (hjobs : s.jobs = (i, false) :: jobs) : Balanced l ({ s with jobs := jobs }.start i) := by
  have hhanded : s.handed = i :: (jobs.filter fun job => !job.2).map (·.1) := by
    simp [State.handed, hjobs]
  have hnot : i ∉ s.starts :=
    hs.not_started (List.mem_append_right _ (by rw [hjobs]; exact List.mem_cons_self))
  have hparked : i ∈ s.parked :=
    hs.waited i (List.mem_append_left _ (by rw [hhanded]; exact List.mem_cons_self))
  refine ⟨?ledger, ?active, hs.atMost, hs.queued, hs.full, ?line, hs.known, hs.ordered, ?before, ?begun,
    ?once, ?waited⟩
  case ledger =>
    refine List.Perm.trans ?_ hs.ledger
    rw [List.perm_iff_count]
    intro a
    simp only [State.ledger, State.start, hjobs, List.map_cons, List.count_append, List.count_cons,
      List.count_nil]
    omega
  case active =>
    have := hs.active
    simp only [State.holding, hhanded, List.length_cons] at this
    simp only [State.start, State.holding, State.handed, List.length_append, List.length_cons,
      List.length_nil]
    omega
  case line =>
    have hfilter : (s.starts ++ [i]).filter (fun i => decide (i ∈ s.parked)) =
        s.starts.filter (fun i => decide (i ∈ s.parked)) ++ [i] := by
      simp [List.filter_append, hparked]
    have hline := hs.line
    simp only [State.line, hhanded] at hline
    show ((s.starts ++ [i]).filter (fun i => decide (i ∈ s.parked)) ++ _).Pairwise (· < ·)
    rw [hfilter, List.append_assoc]
    exact hline
  case before =>
    intro j hj k hk
    rcases List.mem_append.mp hj with hj | hj
    . exact hs.before j hj k hk
    . rw [List.mem_singleton] at hj
      subst hj
      have htail := (List.pairwise_append.mp hs.line).2.1
      exact (List.pairwise_append.mp htail).2.2 j (by rw [hhanded]; exact List.mem_cons_self) k hk
  case begun =>
    intro j hj
    rcases List.mem_append.mp hj with hj | hj
    . exact (hs.begun j hj).imp_left (List.mem_append_left _)
    . exact .inl (List.mem_append_right _ hj)
  case once =>
    refine List.nodup_append.mpr ⟨hs.once, List.pairwise_singleton _ _, ?_⟩
    intro j hj k hk heq
    rw [List.mem_singleton] at hk
    exact hnot (hk ▸ heq ▸ hj)
  case waited =>
    intro j hj
    apply hs.waited j
    rw [hhanded]
    exact List.mem_cons_of_mem _ hj

theorem Balanced.rejected (hs : Balanced l s) {jobs : List (Nat × Bool)}
    (hjobs : s.jobs = (i, true) :: jobs) :
    Balanced l ({ s with jobs := jobs }.settle i .closed) := by
  have hhanded : s.handed = (jobs.filter fun job => !job.2).map (·.1) := by
    simp [State.handed, hjobs]
  refine ⟨?ledger, ?active, hs.atMost, hs.queued, hs.full, ?line, hs.known, hs.ordered, hs.before,
    ?begun, hs.once, ?waited⟩
  case ledger =>
    refine List.Perm.trans ?_ hs.ledger
    rw [List.perm_iff_count]
    intro a
    simp only [State.ledger, State.settle, hjobs, List.map_cons, List.map_append, List.map_nil,
      List.count_append, List.count_cons, List.count_nil]
    omega
  case active =>
    have := hs.active
    rwa [State.holding, hhanded] at this
  case line =>
    have := hs.line
    rwa [State.line, hhanded] at this
  case begun =>
    intro j hj
    rcases hs.begun j hj with h | h | h
    . exact .inl h
    . exact .inr (.inl h)
    . exact .inr (.inr (by simp only [State.settle, List.map_append, List.mem_append, h, true_or]))
  case waited =>
    have := hs.waited
    rwa [hhanded] at this

theorem Balanced.resume (hs : Balanced l s) (h : resume s = some s') : Balanced l s' := by
  unfold Limiter.resume at h
  split at h
  . contradiction
  . next i error jobs hjobs =>
    cases h
    cases error with
    | true => exact hs.rejected hjobs
    | false => exact hs.resumed hjobs

theorem Balanced.finish (hs : Balanced l s) (h : finish s i b = some s') : Balanced l s' := by
  unfold Limiter.finish at h
  split at h
  . next hrun =>
    cases h
    have hperm := List.perm_cons_erase hrun
    refine ⟨?ledger, ?active, hs.atMost, hs.queued, hs.full, hs.line, hs.known, hs.ordered,
      hs.before, ?begun, hs.once, hs.waited⟩
    case ledger =>
      refine List.Perm.trans ?_ hs.ledger
      rw [List.perm_iff_count]
      intro a
      have hcount := hperm.count_eq a
      simp only [State.ledger, List.map_append, List.map_cons, List.map_nil, List.count_append,
        List.count_cons, List.count_nil] at hcount ⊢
      omega
    case active =>
      have hlen := hperm.length_eq
      have := hs.active
      simp only [State.holding, State.handed, List.length_append, List.length_cons,
        List.length_nil] at this hlen ⊢
      omega
    case begun =>
      intro j hj
      rcases hs.begun j hj with h | h | h
      . rcases List.mem_cons.mp (hperm.mem_iff.mp h) with rfl | h
        . exact .inr (.inl (by simp))
        . exact .inl h
      . exact .inr (.inl (by simp only [List.map_append, List.mem_append, h, true_or]))
      . exact .inr (.inr h)
  . contradiction

/-- The slot of a call that is over goes to the first one that waits, or is free. -/
theorem Balanced.handOver (hs : Balanced l s) (hended : (i, b) ∈ s.ended) (o : Outcome) :
    Balanced l (State.settle (match s.waiters with
      | next :: waiters => { s with
          ended := s.ended.erase (i, b), waiters := waiters, jobs := s.jobs ++ [(next, false)] }
      | [] => { s with ended := s.ended.erase (i, b), active := s.active - 1 }) i o) := by
  have hperm := List.perm_cons_erase hended
  have hbegun : ∀ j ∈ s.starts, j ∈ s.running ∨ j ∈ (s.ended.erase (i, b)).map (·.1) ∨
      j ∈ (s.settled ++ [(i, o)]).map (·.1) := by
    intro j hj
    rcases hs.begun j hj with h | h | h
    . exact .inl h
    . rw [(hperm.map (·.1)).mem_iff] at h
      rcases List.mem_cons.mp h with rfl | h
      . exact .inr (.inr (by simp))
      . exact .inr (.inl h)
    . exact .inr (.inr (by simp only [List.map_append, List.mem_append, h, true_or]))
  have hlen := hperm.length_eq
  split
  . next next waiters hwaiters =>
    have hfull := hs.full (by simp [hwaiters])
    have hhanded : ((s.jobs ++ [(next, false)]).filter fun job => !job.2).map (·.1) =
        s.handed ++ [next] := by
      simp [State.handed]
    refine ⟨?ledger, ?active, hs.atMost, ?queued, fun _ => hfull, ?line, hs.known, hs.ordered,
      ?before, hbegun, hs.once, ?waited⟩
    case ledger =>
      refine List.Perm.trans ?_ hs.ledger
      rw [List.perm_iff_count]
      intro a
      have hcount := (hperm.map (·.1)).count_eq a
      simp only [State.ledger, State.settle, hwaiters, List.map_append, List.map_cons, List.map_nil,
        List.count_append, List.count_cons, List.count_nil] at hcount ⊢
      omega
    case active =>
      have := hs.active
      have hlen' := congrArg List.length hhanded
      simp only [State.settle, State.holding, State.handed, List.length_append, List.length_cons,
        List.length_nil] at this hlen hlen' ⊢
      omega
    case queued =>
      intro q hq
      have := hs.queued q hq
      simp only [hwaiters, List.length_cons] at this
      simp only [State.settle]
      omega
    case line =>
      have hline := hs.line
      rw [State.line, hwaiters] at hline
      show (_ ++ (((s.jobs ++ [(next, false)]).filter fun job => !job.2).map (·.1) ++
        waiters)).Pairwise (· < ·)
      rw [hhanded, List.append_assoc]
      exact hline
    case before => exact fun j hj k hk => hs.before j hj k (by rw [hwaiters]; exact .tail _ hk)
    case waited =>
      intro j hj
      apply hs.waited j
      rw [hwaiters]
      simpa only [State.settle, State.handed, hhanded, List.append_assoc, List.cons_append,
        List.nil_append] using hj
  . next hwaiters =>
    refine ⟨?ledger, ?active, ?atMost, hs.queued, ?full, hs.line, hs.known, hs.ordered,
      hs.before, hbegun, hs.once, hs.waited⟩
    case ledger =>
      refine List.Perm.trans ?_ hs.ledger
      rw [List.perm_iff_count]
      intro a
      have hcount := (hperm.map (·.1)).count_eq a
      simp only [State.ledger, State.settle, List.map_append, List.map_cons, List.map_nil,
        List.count_append, List.count_cons, List.count_nil] at hcount ⊢
      omega
    case active =>
      have := hs.active
      simp only [State.settle, State.holding, State.handed, List.length_cons] at this hlen ⊢
      omega
    case atMost =>
      have := hs.atMost
      simp only [State.settle]
      omega
    case full => exact fun hne => absurd hwaiters hne

theorem Balanced.release (hs : Balanced l s) (h : release s i b = some s') : Balanced l s' := by
  unfold Limiter.release at h
  split at h
  . next hended =>
    cases h
    exact hs.handOver hended _
  . contradiction

theorem Balanced.close (hs : Balanced l s) : Balanced l (close s) := by
  have hhanded : (Limiter.close s).handed = s.handed := by
    simp [State.handed, Limiter.close, List.filter_map, Function.comp_def]
  refine ⟨?ledger, ?active, hs.atMost, l.nonneg, fun hne => absurd rfl hne, ?line, hs.known, hs.ordered,
    ?before, hs.begun, hs.once, ?waited⟩
  case ledger =>
    refine List.Perm.trans ?_ hs.ledger
    rw [List.perm_iff_count]
    intro a
    simp only [State.ledger, Limiter.close, List.map_append, List.map_map, Function.comp_def,
      List.map_id', List.count_append, List.count_nil]
    omega
  case active =>
    have := hs.active
    unfold State.holding at this ⊢
    rw [hhanded]
    exact this
  case line =>
    unfold State.line
    rw [hhanded]
    refine hs.line.sublist (List.Sublist.append_left (List.Sublist.append_left ?_ _) _)
    exact List.nil_sublist _
  case before => exact fun _ _ _ h => nomatch h
  case waited =>
    intro j hj
    rw [hhanded] at hj
    exact hs.waited j (List.mem_append_left _ (by simpa [Limiter.close] using hj))

theorem Balanced.step (hs : Balanced l s) (h : (machine l).step s e = some s') : Balanced l s' := by
  cases e with
  | run =>
    cases h
    exact hs.run
  | resume => exact hs.resume h
  | finish i b => exact hs.finish h
  | release i b => exact hs.release h
  | close =>
    cases h
    exact hs.close

theorem balanced_reach (h : (machine l).Reach Machine.anyStep .init s) : Balanced l s :=
  h.invariant (balanced_init l) fun _ _ _ hs _ hstep => hs.step hstep

/-- What holds after `close` of the calls `w` that waited then, when only those of `on` had a slot. -/
structure Shut (w on : List Nat) (s : State) : Prop where
  closed : s.closed = true
  empty : s.waiters = []
  started : ∀ i ∈ s.starts, i ∈ on
  handed : ∀ i ∈ s.handed, i ∈ on
  refused : ∀ i ∈ w, (i, true) ∈ s.jobs ∨ (i, .closed) ∈ s.settled

theorem handed_close (s : State) : (close s).handed = s.handed := by
  simp [State.handed, Limiter.close, List.filter_map, Function.comp_def]

theorem shut_close (s : State) : Shut s.waiters (s.starts ++ s.handed) (close s) where
  closed := rfl
  empty := rfl
  started _ hi := List.mem_append_left _ hi
  handed i hi := by
    rw [handed_close] at hi
    exact List.mem_append_right _ hi
  refused i hi := .inl (List.mem_append_right _ (List.mem_map_of_mem hi))

theorem Shut.resume {w on : List Nat} (hs : Shut w on s) (h : resume s = some s') : Shut w on s' := by
  unfold Limiter.resume at h
  split at h
  . contradiction
  . next i error jobs hjobs =>
    cases h
    have hhanded (j : Nat) (hj : j ∈ (jobs.filter fun job => !job.2).map (·.1)) : j ∈ on := by
      apply hs.handed j
      rw [State.handed, hjobs]
      exact ((List.sublist_cons_self _ _).filter _).map _ |>.subset hj
    cases error with
    | true =>
      refine ⟨hs.closed, hs.empty, hs.started, hhanded, fun j hj => ?_⟩
      rcases hs.refused j hj with hjob | hset
      . rw [hjobs] at hjob
        rcases List.mem_cons.mp hjob with heq | hjob
        . cases heq
          exact .inr (List.mem_append_right _ List.mem_cons_self)
        . exact .inl hjob
      . exact .inr (List.mem_append_left _ hset)
    | false =>
      refine ⟨hs.closed, hs.empty, fun j hj => ?_, hhanded, fun j hj => ?_⟩
      . rcases List.mem_append.mp hj with hj | hj
        . exact hs.started j hj
        . rw [List.mem_singleton.mp hj]
          exact hs.handed i (mem_handed.mpr (by rw [hjobs]; exact List.mem_cons_self))
      . refine (hs.refused j hj).imp_left fun hjob => ?_
        rw [hjobs] at hjob
        rcases List.mem_cons.mp hjob with heq | hjob
        . cases heq
        . exact hjob

theorem Shut.step {w on : List Nat} (hs : Shut w on s) (h : (machine l).step s e = some s') :
    Shut w on s' := by
  cases e with
  | run =>
    cases h
    have hrun : run l s = { s with calls := s.calls + 1 }.settle s.calls .closed := by
      simp [Limiter.run, hs.closed]
    rw [hrun]
    exact ⟨hs.closed, hs.empty, hs.started, hs.handed,
      fun i hi => (hs.refused i hi).imp_right (List.mem_append_left _)⟩
  | resume => exact hs.resume h
  | finish i b =>
    simp only [machine, Limiter.finish] at h
    split at h
    . cases h
      exact ⟨hs.closed, hs.empty, hs.started, hs.handed, hs.refused⟩
    . contradiction
  | release i b =>
    simp only [machine, Limiter.release, hs.empty] at h
    split at h
    . cases h
      exact ⟨hs.closed, rfl, hs.started, hs.handed,
        fun i hi => (hs.refused i hi).imp_right (List.mem_append_left _)⟩
    . contradiction
  | close =>
    cases h
    refine ⟨rfl, rfl, hs.started, fun i hi => ?_, fun i hi => ?_⟩
    . rw [handed_close] at hi
      exact hs.handed i hi
    . exact (hs.refused i hi).imp_left (List.mem_append_left _)

theorem Shut.reach {w on : List Nat} (hs : Shut w on s)
    (h : (machine l).Reach Machine.anyStep s s') : Shut w on s' :=
  h.invariant hs fun _ _ _ hs _ hstep => hs.step hstep

/-- No task runs and no reaction is due. -/
def State.Quiet (l : ConcurrencyLimiter) (s : State) : Prop :=
  ∀ e, e ≠ .run → e ≠ .close → (machine l).step s e = none

/-- Every call's promise is settled. -/
def State.Settled (s : State) : Prop := ∀ i < s.calls, i ∈ s.settled.map (·.1)

/-- The tasks end as `outcome` says, and neither a new call nor `close` comes. -/
def Own (outcome : Nat → Bool) (_s : State) (e : Event) : Prop :=
  e ≠ .run ∧ e ≠ .close ∧ ∀ i b, e = .finish i b → b = outcome i

/-- The reactions that the calls have left. -/
def State.left (s : State) : Nat :=
  4 * s.waiters.length + 3 * s.jobs.length + 2 * s.running.length + s.ended.length

theorem resume_left (h : resume s = some s') : s'.left < s.left := by
  unfold Limiter.resume at h
  split at h
  . contradiction
  . next i error jobs hjobs =>
    cases h
    cases error
    . simp only [Bool.false_eq_true, if_false, State.left, State.start, hjobs, List.length_append,
        List.length_cons, List.length_nil]
      omega
    . simp only [if_true, State.left, State.settle, hjobs, List.length_cons]
      omega

theorem finish_left (h : finish s i b = some s') : s'.left < s.left := by
  unfold Limiter.finish at h
  split at h
  . next hrun =>
    cases h
    have hlen := (List.perm_cons_erase hrun).length_eq
    simp only [State.left, List.length_append, List.length_cons, List.length_nil] at hlen ⊢
    omega
  . contradiction

theorem release_left (h : release s i b = some s') : s'.left < s.left := by
  unfold Limiter.release at h
  split at h
  . next hended =>
    cases h
    have hlen := (List.perm_cons_erase hended).length_eq
    split
    . next next waiters hwaiters =>
      have hwait := congrArg List.length hwaiters
      simp only [State.left, State.settle, List.length_append, List.length_cons,
        List.length_nil] at hlen hwait ⊢
      omega
    . simp only [State.left, State.settle, List.length_cons] at hlen ⊢
      omega
  . contradiction

theorem own_left {outcome : Nat → Bool} (hown : Own outcome s e)
    (h : (machine l).step s e = some s') : s'.left < s.left := by
  cases e with
  | run => exact absurd rfl hown.1
  | resume => exact resume_left h
  | finish i b => exact finish_left h
  | release i b => exact release_left h
  | close => exact absurd rfl hown.2.1

/-- As long as a promise is not settled there is a reaction due, or a task runs. -/
theorem Balanced.settled_or_enabled (hs : Balanced l s) (outcome : Nat → Bool) :
    s.Settled ∨ ∃ e s', Own outcome s e ∧ (machine l).step s e = some s' := by
  cases hjobs : s.jobs with
  | cons job jobs =>
    have hsome : ∃ s', Limiter.resume s = some s' := by
      unfold Limiter.resume
      rw [hjobs]
      exact ⟨_, rfl⟩
    rcases hsome with ⟨s', hstep⟩
    exact .inr ⟨.resume, s', ⟨nofun, nofun, nofun⟩, hstep⟩
  | nil =>
    cases hrunning : s.running with
    | cons i running =>
      have hmem : i ∈ s.running := by rw [hrunning]; exact List.mem_cons_self
      have hends : ∀ j b, Event.finish i (outcome i) = .finish j b → b = outcome j := by
        intro j b heq
        cases heq
        rfl
      exact .inr ⟨.finish i (outcome i), _, ⟨nofun, nofun, hends⟩, if_pos hmem⟩
    | nil =>
      cases hended : s.ended with
      | cons pair ended =>
        rcases pair with ⟨i, b⟩
        have hmem : (i, b) ∈ s.ended := by rw [hended]; exact List.mem_cons_self
        exact .inr ⟨.release i b, _, ⟨nofun, nofun, nofun⟩, if_pos hmem⟩
      | nil =>
        left
        have hwaiters : s.waiters = [] := by
          apply Classical.byContradiction
          intro hne
          have hfull := (hs.full hne).1
          have hactive := hs.active
          have hone := l.one_le
          simp only [State.holding, State.handed, hjobs, hrunning, hended, List.filter_nil,
            List.map_nil, List.length_nil] at hactive
          omega
        intro i hi
        have hmem := hs.ledger.mem_iff.mpr (List.mem_range.mpr hi)
        simpa only [State.ledger, hwaiters, hjobs, hrunning, hended, List.map_nil,
          List.nil_append] using hmem

theorem Balanced.drains (hs : Balanced l s) (outcome : Nat → Bool) :
    ∃ s', (machine l).Reach (Own outcome) s s' ∧ s'.Settled := by
  induction hleft : s.left using Nat.strong_induction_on generalizing s with
  | _ n ih =>
    rcases hs.settled_or_enabled outcome with hsettled | ⟨e, s', hown, hstep⟩
    . exact ⟨s, .init, hsettled⟩
    . rcases ih s'.left (hleft ▸ own_left hown hstep) (hs.step hstep) rfl with ⟨s'', hreach, hsettled⟩
      exact ⟨s'', .trans (.step .init hown hstep) hreach, hsettled⟩

/-- What the callers of `run` rely on. -/
structure Gated (l : ConcurrencyLimiter) (s : State) : Prop where
  atMost : (s.running.length : Int) ≤ l.max ∧ (s.holding : Int) ≤ l.max
  queued : ∀ q ∈ l.maxQueued, s.waiters.length ≤ q
  /-- The calls that waited start in the order in which they were parked. -/
  fifo : s.parked.Pairwise (· < ·) ∧
    (s.starts.filter fun i => decide (i ∈ s.parked)).Pairwise (· < ·)
  /-- No call starts before one that came earlier and waits. -/
  before : ∀ i ∈ s.starts, ∀ j ∈ s.waiters, i < j
  full : s.waiters ≠ [] → s.holding = l.max ∧ s.closed = false
  /-- Apart from the reactions that are due, every slot has a running task then. -/
  busy : s.waiters ≠ [] → s.jobs = [] → s.ended = [] → s.running.length = l.max
  once : (s.settled.map (·.1)).Nodup ∧ s.starts.Nodup
  quiet : s.Quiet l → s.Settled
  drains : ∀ outcome, ∃ s', (machine l).Reach (Own outcome) s s' ∧ s'.Settled
  /-- After `close` only calls that had a slot start; those that waited are rejected. -/
  shut : ∀ s', (machine l).Reach Machine.anyStep (close s) s' →
    (∀ i ∈ s'.starts, i ∈ s.starts ∨ i ∈ s.handed) ∧
      ∀ i ∈ s.waiters, i ∉ s'.starts ∧ (s'.Settled → (i, .closed) ∈ s'.settled)

theorem Balanced.nodup_settled (hs : Balanced l s) : (s.settled.map (·.1)).Nodup := by
  have hnodup := hs.nodup
  simp only [State.ledger, ← List.append_assoc] at hnodup
  exact (List.nodup_append.mp hnodup).2.1

theorem Balanced.job_not_settled (hs : Balanced l s) (hi : i ∈ s.jobs.map (·.1)) :
    i ∉ s.settled.map (·.1) := by
  intro hsettled
  have hnodup := (List.nodup_append.mp hs.nodup).2.1
  exact (List.nodup_append.mp hnodup).2.2 i hi i (by simp only [List.mem_append, hsettled, or_true]) rfl

theorem Balanced.waiter_not_handed (hs : Balanced l s) (hi : i ∈ s.waiters) : i ∉ s.handed := by
  intro hhanded
  refine (List.nodup_append.mp hs.nodup).2.2 i hi i ?_ rfl
  exact List.mem_append_left _ (List.mem_map_of_mem (mem_handed.mp hhanded))

/-- Of the calls of a closed limiter only those start that had a slot. -/
theorem Balanced.shut (hs : Balanced l s) (hw : Shut s.waiters (s.starts ++ s.handed) s')
    (hs' : Balanced l s') :
    (∀ i ∈ s'.starts, i ∈ s.starts ∨ i ∈ s.handed) ∧
      ∀ i ∈ s.waiters, i ∉ s'.starts ∧ (s'.Settled → (i, .closed) ∈ s'.settled) := by
  refine ⟨fun i hi => List.mem_append.mp (hw.started i hi), fun i hi => ⟨fun hstart => ?_, fun hall => ?_⟩⟩
  . rcases List.mem_append.mp (hw.started i hstart) with h | h
    . exact hs.not_started (List.mem_append_left _ hi) h
    . exact hs.waiter_not_handed hi h
  . rcases hw.refused i hi with hjob | hsettled
    . have hmem : i ∈ s'.jobs.map (·.1) := List.mem_map_of_mem hjob
      have hledger : i ∈ s'.ledger := List.mem_append_right _ (List.mem_append_left _ hmem)
      exact absurd (hall i (hs'.lt_calls hledger)) (hs'.job_not_settled hmem)
    . exact hsettled

theorem gated_of_reach (h : (machine l).Reach Machine.anyStep .init s) : Gated l s := by
  have hs := balanced_reach h
  have hhold := hs.active
  refine ⟨⟨?_, ?_⟩, hs.queued, ⟨hs.ordered, ?_⟩, hs.before, ?_, ?_, ⟨hs.nodup_settled, hs.once⟩, ?_,
    hs.drains, ?_⟩
  . have := hs.atMost
    unfold State.holding at hhold
    omega
  . have := hs.atMost
    omega
  . exact (List.pairwise_append.mp hs.line).1
  . intro hne
    rw [← hhold]
    exact hs.full hne
  . intro hne hjobs hended
    have hfull := (hs.full hne).1
    simp only [State.holding, State.handed, hjobs, hended, List.filter_nil, List.map_nil,
      List.length_nil] at hhold
    omega
  . intro hquiet
    rcases hs.settled_or_enabled (fun _ => true) with hsettled | ⟨e, s', hown, hstep⟩
    . exact hsettled
    . rw [hquiet e hown.1 hown.2.1] at hstep
      contradiction
  . intro s' hreach
    have hclosed : (machine l).Reach Machine.anyStep .init s' :=
      .trans (.step (v := .close) h trivial rfl) hreach
    exact hs.shut ((shut_close s).reach hreach) (balanced_reach hclosed)

/-- One slot and one place in the queue: the first task fails and hands its slot to the second call. -/
def handover : List Event :=
  [.run, .run, .run, .finish 0 false, .release 0 false, .run, .resume, .close, .run, .resume]

theorem gated_handover : ∃ s, (machine (.new (3 / 2) (some 1))).Reach Machine.anyStep .init s ∧
    (s.starts = [0, 1] ∧ s.running = [1] ∧
      s.settled = [(2, .queueFull), (0, .failed), (4, .closed), (3, .closed)]) ∧
    Gated (.new (3 / 2) (some 1)) s := by
  have hrun : ((machine (.new (3 / 2) (some 1))).exec Machine.anyStep .init handover).map
      (fun s => (s.starts, s.running, s.settled)) =
        some ([0, 1], [1], [(2, .queueFull), (0, .failed), (4, .closed), (3, .closed)]) := by
    decide +kernel
  rcases Machine.reach_of_exec_map hrun with ⟨s, hreach, heq⟩
  simp only [Prod.mk.injEq] at heq
  exact ⟨s, hreach, heq, gated_of_reach hreach⟩

end Limiter
end OpenWA.Concurrency
