import OpenWA.Stored.Writers

/-!
This module contains the line of the works that are queued for one message, and who is at its front.
-/

namespace OpenWA.Stored

open Async Js

/-- A work in line, and the activation that carries it. -/
structure Waiter where
  tid : Nat
  n : Nat
deriving DecidableEq

/-- The works of the key that have not settled, in the order in which they were queued. -/
structure Lined (key : Text × Text) (s : Store) (line : List Waiter) : Prop where
  works : s.mutations.filter (fun work => work.1 = key) = line.map fun waiter => (key, waiter.n)
  queued : ∀ waiter ∈ line, waiter.n < s.nextMutation
  distinct : (line.map (·.n)).Nodup

variable {key : Text × Text} {s s' : Store} {line : List Waiter}

theorem Lined.congr (h : Lined key s line) (hmutations : s'.mutations = s.mutations)
    (hnext : s'.nextMutation = s.nextMutation) : Lined key s' line where
  works := by
    rw [hmutations]
    exact h.works
  queued := by
    rw [hnext]
    exact h.queued
  distinct := h.distinct

theorem lined_enqueue (tid : Nat) (h : Lined key s line)
    (hmutations : s'.mutations = s.mutations ++ [(key, s.nextMutation)])
    (hnext : s'.nextMutation = s.nextMutation + 1) :
    Lined key s' (line ++ [⟨tid, s.nextMutation⟩]) where
  works := by
    rw [hmutations, List.filter_append, h.works]
    simp
  queued := by
    intro waiter hwaiter
    rw [hnext]
    rcases List.mem_append.mp hwaiter with hwaiter | hwaiter
    . exact Nat.lt_succ_of_lt (h.queued waiter hwaiter)
    . rw [List.mem_singleton.mp hwaiter]
      exact Nat.lt_succ_self _
  distinct := by
    rw [List.map_append]
    refine List.Nodup.append h.distinct (List.nodup_singleton _) ?_
    simp only [List.map_cons, List.map_nil, List.disjoint_singleton, List.mem_map, not_exists, not_and]
    intro waiter hwaiter
    exact Nat.ne_of_lt (h.queued waiter hwaiter)

theorem lined_settle (n : Nat) (h : Lined key s line)
    (hmutations : s'.mutations = s.mutations.filter (· ≠ (key, n)))
    (hnext : s'.nextMutation = s.nextMutation) : Lined key s' (line.filter (·.n ≠ n)) where
  works := by
    have hfilter : (line.map fun waiter => (key, waiter.n)).filter (· ≠ (key, n)) =
        (line.filter (·.n ≠ n)).map fun waiter => (key, waiter.n) := by
      rw [List.filter_map]
      congr 1
      apply List.filter_congr
      intro waiter _
      simp
    rw [hmutations, List.filter_comm, h.works, hfilter]
  queued := by
    intro waiter hwaiter
    rw [hnext]
    exact h.queued waiter (List.mem_of_mem_filter hwaiter)
  distinct := h.distinct.sublist (List.Sublist.map _ List.filter_sublist)

/-- A work may start only at the front of its line. -/
theorem front_of_start {waiter : Waiter} (h : Lined key s line) (hmem : waiter ∈ line)
    (hstart : s.mutations.find? (fun work => work.1 = key) = some (key, waiter.n)) :
    line.head? = some waiter := by
  rw [← List.head?_filter, h.works, List.head?_map] at hstart
  cases hhead : line.head? with
  | none => simp [hhead] at hstart
  | some first =>
    simp only [hhead, Option.map_some, Option.some.injEq, Prod.mk.injEq, true_and] at hstart
    have hfirst : first ∈ line := List.mem_of_head? hhead
    rw [List.inj_on_of_nodup_map h.distinct hfirst hmem hstart]

theorem front_append {front : Waiter} (h : line.head? = some front) (waiters : List Waiter) :
    (line ++ waiters).head? = some front := by
  rw [List.head?_append, h]
  rfl

/-- No row carries the id yet, and no mutation of it is queued. -/
structure Unknown (key : Text × Text) (s : Store) : Prop where
  wellKept : WellKept s
  carriers : carriers key s = []
  mutations : s.mutations.filter (·.1 = key) = []

end OpenWA.Stored
