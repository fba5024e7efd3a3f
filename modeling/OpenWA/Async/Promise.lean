import Mathlib.Logic.Function.Basic

/-!
This module contains promises that are derived from others, and when they are settled: once those they
are derived from are, at some point before the queue of reactions is empty.
-/

namespace OpenWA.Async

/-- A promise made of the promises that operations return, which are told apart by numbers. -/
inductive Promise where
  /-- `raw.catch(…)` -/
  | caught (id raw : Nat)
  /-- `Promise.allSettled([first, second])` -/
  | allSettled (id : Nat) (first second : Promise)
deriving DecidableEq

namespace Promise

def id (p : Promise) : Nat :=
  match p with
  | caught id _ => id
  | allSettled id _ _ => id

/-- The operations whose promises it waits for. -/
def raws (p : Promise) : List Nat :=
  match p with
  | caught _ raw => [raw]
  | allSettled _ first second => first.raws ++ second.raws

end Promise

structure Heap where
  /-- Whether an operation's promise was fulfilled or rejected, once it is settled. -/
  outcome : Nat → Option Bool
  created : List Promise
  settled : Promise → Bool
  next : Nat

namespace Heap

variable {h : Heap} {p : Promise}

def ready (h : Heap) (p : Promise) : Bool :=
  match p with
  | .caught _ raw => (h.outcome raw).isSome
  | .allSettled _ first second => h.settled first && h.settled second

/-- A reaction is due that settles the promise. -/
def due (h : Heap) (p : Promise) : Bool := !h.settled p && h.ready p

def quiet (h : Heap) : Bool := h.created.all fun p => !h.due p

def settleRaw (h : Heap) (raw : Nat) (fulfilled : Bool) : Heap :=
  { h with outcome := Function.update h.outcome raw (some fulfilled) }

def settle (h : Heap) (p : Promise) : Heap :=
  { h with settled := Function.update h.settled p true }

def create (h : Heap) (p : Promise) : Heap :=
  { h with created := h.created ++ [p], next := h.next + 1 }

/-- What holds of the promises of a run. -/
structure Sound (h : Heap) : Prop where
  fresh : ∀ p ∈ h.created, p.id < h.next
  settled : ∀ p, h.settled p = true → p ∈ h.created ∧ ∀ raw ∈ p.raws, (h.outcome raw).isSome = true
  closed : ∀ id first second, .allSettled id first second ∈ h.created →
    first ∈ h.created ∧ second ∈ h.created

theorem Sound.settleRaw (hs : h.Sound) (raw : Nat) (fulfilled : Bool) :
    (h.settleRaw raw fulfilled).Sound where
  fresh := hs.fresh
  settled p hp := by
    refine ⟨(hs.settled p hp).1, fun r hr => ?_⟩
    simp only [Heap.settleRaw, Function.update_apply]
    split
    . rfl
    . exact (hs.settled p hp).2 r hr
  closed := hs.closed

theorem Sound.settle (hs : h.Sound) (hp : p ∈ h.created) (hready : h.ready p = true) :
    (h.settle p).Sound where
  fresh := hs.fresh
  settled q hq := by
    simp only [Heap.settle, Function.update_apply] at hq
    split at hq
    . next heq =>
      subst heq
      refine ⟨hp, fun raw hraw => ?_⟩
      cases q with
      | caught id r =>
        obtain rfl := List.mem_singleton.mp hraw
        exact hready
      | allSettled id first second =>
        simp only [ready, Bool.and_eq_true] at hready
        rcases List.mem_append.mp hraw with hraw | hraw
        . exact (hs.settled first hready.1).2 raw hraw
        . exact (hs.settled second hready.2).2 raw hraw
    . exact hs.settled q hq
  closed := hs.closed

theorem Sound.create (hs : h.Sound) (hid : p.id = h.next)
    (hclosed : ∀ id first second, p = .allSettled id first second →
      first ∈ h.created ∧ second ∈ h.created) : (h.create p).Sound where
  fresh q hq := by
    rcases List.mem_append.mp hq with hq | hq
    . exact Nat.lt_succ_of_lt (hs.fresh q hq)
    . rw [List.mem_singleton.mp hq, hid]
      exact Nat.lt_succ_self _
  settled q hq := ⟨List.mem_append_left _ (hs.settled q hq).1, (hs.settled q hq).2⟩
  closed id first second hmem := by
    have hmem' : first ∈ h.created ∧ second ∈ h.created := by
      rcases List.mem_append.mp hmem with hmem | hmem
      . exact hs.closed id first second hmem
      . exact hclosed id first second (List.mem_singleton.mp hmem).symm
    exact ⟨List.mem_append_left _ hmem'.1, List.mem_append_left _ hmem'.2⟩

theorem Sound.settled_of_quiet (hs : h.Sound) (hquiet : h.quiet = true) (hp : p ∈ h.created)
    (hraws : ∀ raw ∈ p.raws, (h.outcome raw).isSome = true) : h.settled p = true := by
  have hdue : ∀ q ∈ h.created, h.ready q = true → h.settled q = true := by
    intro q hq hready
    have hnot := List.all_eq_true.mp hquiet q hq
    simpa [due, hready] using hnot
  induction p with
  | caught id raw => exact hdue _ hp (hraws raw (List.mem_singleton_self raw))
  | allSettled id first second ihfirst ihsecond =>
    have hclosed := hs.closed id first second hp
    have hfirst := ihfirst hclosed.1 fun raw hraw => hraws raw (List.mem_append_left _ hraw)
    have hsecond := ihsecond hclosed.2 fun raw hraw => hraws raw (List.mem_append_right _ hraw)
    exact hdue _ hp (by simp [ready, hfirst, hsecond])

end Heap
end OpenWA.Async
