import Mathlib.Data.List.InsertIdx
import OpenWA.Hooks.HookManager

/-!
This module contains the runs of the handler chain of one event while registrations come and go: what
each handler that stays registered can rely on, and which changes break it.
-/

namespace OpenWA.Hooks

open Js

variable {π δ : Type} [LinearOrder π]

section Order

/-- Ascending priority, and registration order on ties. -/
def Before (a b : HookRegistration π) : Prop :=
  a.priority < b.priority ∨ a.priority = b.priority ∧ a.handler < b.handler

instance (a b : HookRegistration π) : Decidable (Before a b) :=
  inferInstanceAs (Decidable (_ ∨ _))

theorem Before.le {a b : HookRegistration π} (h : Before a b) : a.priority ≤ b.priority := by
  rcases h with h | h
  . exact le_of_lt h
  . exact le_of_eq h.1

theorem Before.irrefl (a : HookRegistration π) : ¬Before a a := by
  simp [Before]

theorem nodup_of_sorted {array : List (HookRegistration π)} (h : array.Pairwise Before) :
    array.Nodup := by
  apply h.imp
  intro a b hab heq
  exact Before.irrefl b (heq ▸ hab)

/-- The registrations that stay in front of a new one of priority `p`. -/
def upTo (p : π) (a : HookRegistration π) : Bool := a.priority ≤ p

theorem sortByPriority_append {array : List (HookRegistration π)} {new : HookRegistration π}
    (hsorted : array.Pairwise Before) :
    sortByPriority (array ++ [new]) =
      array.takeWhile (upTo new.priority) ++ new :: array.dropWhile (upTo new.priority) := by
  induction array with
  | nil => rfl
  | cons a array ih =>
    rw [List.pairwise_cons] at hsorted
    have hstep : sortByPriority (a :: array ++ [new]) =
        List.orderedInsert (fun a b => a.priority ≤ b.priority) a
          (sortByPriority (array ++ [new])) := rfl
    rw [hstep, ih hsorted.2]
    by_cases ha : a.priority ≤ new.priority
    . have hup : upTo new.priority a = true := by simpa [upTo] using ha
      rw [List.takeWhile_cons_of_pos hup, List.dropWhile_cons_of_pos hup]
      cases htake : array.takeWhile (upTo new.priority) with
      | nil => simp [ha]
      | cons b bs =>
        have hb : b ∈ array := by
          apply (List.takeWhile_prefix (upTo new.priority)).subset
          rw [htake]
          exact List.mem_cons_self
        have hle := (hsorted.1 b hb).le
        simp [hle]
    . have hup : upTo new.priority a = false := by simpa [upTo] using ha
      have hrest : array.takeWhile (upTo new.priority) = [] ∧
          array.dropWhile (upTo new.priority) = array := by
        cases array with
        | nil => exact ⟨rfl, rfl⟩
        | cons b bs =>
          have hb : upTo new.priority b = false := by
            have hle := (hsorted.1 b List.mem_cons_self).le
            simp only [upTo, decide_eq_false_iff_not, not_le] at hup ⊢
            exact lt_of_lt_of_le hup hle
          constructor
          . exact List.takeWhile_cons_of_neg (by simp [hb])
          . exact List.dropWhile_cons_of_neg (by simp [hb])
      rw [List.takeWhile_cons_of_neg (by simp [hup]), List.dropWhile_cons_of_neg (by simp [hup]),
        hrest.1, hrest.2]
      cases array with
      | nil => simp [ha]
      | cons b bs =>
        have hle := (hsorted.1 b List.mem_cons_self).le
        simp [ha, hle]

theorem pairwise_sortByPriority {array : List (HookRegistration π)} {new : HookRegistration π}
    (hsorted : array.Pairwise Before) (hnew : ∀ a ∈ array, a.handler < new.handler) :
    (sortByPriority (array ++ [new])).Pairwise Before := by
  have hsplit := List.takeWhile_append_dropWhile (p := upTo new.priority) (l := array)
  rw [sortByPriority_append hsorted]
  rw [← hsplit, List.pairwise_append] at hsorted
  rcases hsorted with ⟨htake, hdrop, hcross⟩
  have hfront (a) (ha : a ∈ array.takeWhile (upTo new.priority)) : Before a new := by
    have hle : a.priority ≤ new.priority := by simpa [upTo] using List.mem_takeWhile_imp ha
    have hmem := (List.takeWhile_prefix (upTo new.priority)).subset ha
    rcases lt_or_eq_of_le hle with h | h
    . exact .inl h
    . exact .inr ⟨h, hnew a hmem⟩
  have hback (b) (hb : b ∈ array.dropWhile (upTo new.priority)) : Before new b := by
    cases hlist : array.dropWhile (upTo new.priority) with
    | nil => simp [hlist] at hb
    | cons c cs =>
      have hc : ¬c.priority ≤ new.priority := by
        have hne : array.dropWhile (upTo new.priority) ≠ [] := by simp [hlist]
        have h := List.head_dropWhile_not (upTo new.priority) hne
        simpa [hlist, upTo] using h
      rw [hlist] at hb hdrop
      rcases List.mem_cons.mp hb with rfl | hb
      . exact .inl (not_le.mp hc)
      . exact .inl (lt_of_lt_of_le (not_le.mp hc) ((List.pairwise_cons.mp hdrop).1 b hb).le)
  rw [List.pairwise_append]
  refine ⟨htake, List.pairwise_cons.mpr ⟨hback, hdrop⟩, ?_⟩
  intro a ha b hb
  rcases List.mem_cons.mp hb with rfl | hb
  . exact hfront a ha
  . exact hcross a ha b hb

end Order

section Manager

/-- Arrays are sorted, hold registrations made so far, and belong to one event each. -/
structure Managed (m : HookManager π) : Prop where
  sorted : ∀ ref, (m.arrays ref).Pairwise Before
  numbered : ∀ ref, ∀ r ∈ m.arrays ref, r.handler < m.registered
  refs : ∀ entry ∈ m.hooks, entry.2 < m.fresh
  unshared : (m.hooks.map (·.2)).Nodup

/-- A call that changes the registrations; `now` is what `Date.now()` returns. -/
inductive HookCall (π : Type) where
  | register (pluginId : Text) (event : HookEvent) (priority : π) (now : Nat)
  | unregister (hookId : Text)
  | unregisterPlugin (pluginId : Text)

def HookManager.apply (m : HookManager π) (call : HookCall π) : HookManager π :=
  match call with
  | .register pluginId event priority now => m.register pluginId event priority now
  | .unregister hookId => m.unregister hookId
  | .unregisterPlugin pluginId => m.unregisterPlugin pluginId

theorem managed_empty : Managed (HookManager.empty : HookManager π) := by
  constructor <;> simp [HookManager.empty]

omit [LinearOrder π] in
theorem mem_of_arrayOf {m : HookManager π} {event : HookEvent} {ref : Nat}
    (h : m.arrayOf event = some ref) : (event, ref) ∈ m.hooks := by
  unfold HookManager.arrayOf at h
  rw [List.lookup_eq_some_iff] at h
  rcases h with ⟨l₁, l₂, hl, -⟩
  rw [hl]
  simp

theorem Managed.setArray {m : HookManager π} (h : Managed m) {ref : Nat}
    {array : List (HookRegistration π)} (hsorted : array.Pairwise Before)
    (hnumbered : ∀ r ∈ array, r.handler < m.registered) : Managed (m.setArray ref array) where
  sorted r := by
    simp only [HookManager.setArray]
    split
    . exact hsorted
    . exact h.sorted r
  numbered r := by
    simp only [HookManager.setArray]
    split
    . exact hnumbered
    . exact h.numbered r
  refs := h.refs
  unshared := h.unshared

theorem Managed.ensureArray {m : HookManager π} (h : Managed m) (event : HookEvent) :
    Managed (m.ensureArray event).1 := by
  unfold HookManager.ensureArray
  split
  . exact h
  . constructor
    . intro r
      simp only [HookManager.setArray]
      split
      . exact List.Pairwise.nil
      . exact h.sorted r
    . intro r
      simp only [HookManager.setArray]
      split
      . simp
      . exact h.numbered r
    . intro entry hentry
      rcases List.mem_append.mp hentry with hentry | hentry
      . exact Nat.lt_succ_of_lt (h.refs entry hentry)
      . rw [List.mem_singleton.mp hentry]
        exact Nat.lt_succ_self _
    . rw [List.map_append, List.nodup_append]
      refine ⟨h.unshared, by simp, ?_⟩
      intro ref href ref' href'
      rcases List.mem_map.mp href with ⟨entry, hentry, rfl⟩
      have hlt := h.refs entry hentry
      simp only [List.map_cons, List.map_nil, List.mem_singleton] at href'
      omega

theorem Managed.register {m : HookManager π} (h : Managed m) (pluginId : Text) (event : HookEvent)
    (priority : π) (now : Nat) : Managed (m.register pluginId event priority now) := by
  have h' := h.ensureArray event
  have hregistered : (m.ensureArray event).1.registered = m.registered := by
    unfold HookManager.ensureArray
    split <;> rfl
  let new := m.registration pluginId event priority now
  let array := (m.ensureArray event).1.arrays (m.ensureArray event).2
  have hsorted : (sortByPriority (array ++ [new])).Pairwise Before := by
    apply pairwise_sortByPriority (h'.sorted _)
    intro a ha
    have hlt := h'.numbered _ a ha
    rw [hregistered] at hlt
    exact hlt
  constructor
  . intro r
    simp only [HookManager.register, HookManager.setArray]
    split
    . exact hsorted
    . exact h'.sorted r
  . intro r a ha
    simp only [HookManager.register, HookManager.setArray] at ha ⊢
    rw [hregistered]
    split at ha
    . simp only [sortByPriority, List.mem_insertionSort, List.mem_append, List.mem_singleton] at ha
      rcases ha with ha | rfl
      . have hlt := h'.numbered _ a ha
        omega
      . exact Nat.lt_succ_self _
    . have hlt := h'.numbered r a ha
      omega
  . exact h'.refs
  . exact h'.unshared

theorem Managed.unregister {m : HookManager π} (h : Managed m) (hookId : Text) :
    Managed (m.unregister hookId) := by
  unfold HookManager.unregister
  split
  . next ref index _ =>
    have herase : ((m.arrays ref).eraseIdx index).Sublist (m.arrays ref) := List.eraseIdx_sublist _ _
    have hset : Managed (m.setArray ref ((m.arrays ref).eraseIdx index)) :=
      h.setArray ((h.sorted ref).sublist herase) fun r hr => h.numbered ref r (herase.subset hr)
    dsimp only
    split
    . exact ⟨hset.sorted, hset.numbered, hset.refs, hset.unshared⟩
    . exact hset
  . exact h

theorem Managed.unregisterPlugin {m : HookManager π} (h : Managed m) (pluginId : Text) :
    Managed (m.unregisterPlugin pluginId) := by
  unfold HookManager.unregisterPlugin
  split
  . constructor
    . intro r
      dsimp only
      split
      . exact h.sorted r
      . split
        . exact (h.sorted _).filter _
        . exact h.sorted r
    . intro r a ha
      dsimp only at ha
      split at ha
      . exact h.numbered r a ha
      . split at ha
        . exact h.numbered _ a (List.mem_of_mem_filter ha)
        . exact h.numbered r a ha
    . intro entry hentry
      simp only [List.mem_mapIdx] at hentry
      rcases hentry with ⟨k, hk, rfl⟩
      dsimp only
      omega
    . rw [List.Nodup, List.pairwise_iff_getElem]
      intro i j hi hj hlt
      simp only [List.getElem_map, List.getElem_mapIdx]
      omega
  . exact h

theorem Managed.apply {m : HookManager π} (h : Managed m) (call : HookCall π) :
    Managed (m.apply call) := by
  cases call with
  | register pluginId event priority now => exact h.register pluginId event priority now
  | unregister hookId => exact h.unregister hookId
  | unregisterPlugin pluginId => exact h.unregisterPlugin pluginId

end Manager

section Runs

/-- `r` is registered for the event. -/
def HookManager.holds (m : HookManager π) (event : HookEvent) (r : HookRegistration π) : Bool :=
  match m.arrayOf event with
  | some ref => r ∈ m.arrays ref
  | none => false

/--
A run together with the manager. `staying` is its history: the registrations that were there when it
started and at every moment since.
-/
structure Chain (π δ : Type) where
  m : HookManager π
  run : Run π δ
  staying : List (HookRegistration π)

def Chain.array (c : Chain π δ) : List (HookRegistration π) := c.m.arrays c.run.ref

/-- While a handler is awaited, registrations change or the handler settles. -/
inductive ChainStep (π δ : Type) where
  | call (call : HookCall π)
  | settle (outcome : HandlerOutcome δ)

def Chain.step (c : Chain π δ) (s : ChainStep π δ) : Option (Chain π δ) :=
  if c.run.awaited.isSome then
    let (m, run) :=
      match s with
      | .call call => (c.m.apply call, c.run)
      | .settle outcome => (c.m, c.run.settle c.array outcome)
    some ⟨m, run, c.staying.filter (m.holds run.event)⟩
  else
    none

/-- The states of the run that `execute` starts, through steps that satisfy `ok`. -/
inductive Chain.Reach (ok : Chain π δ → ChainStep π δ → Prop) (m : HookManager π)
    (inFlight : List HookEvent) (event : HookEvent) (data : δ) : Chain π δ → Prop where
  | start {run : Run π δ} (h : m.execute inFlight event data = some run) :
      Reach ok m inFlight event data ⟨m, run, m.arrays run.ref⟩
  | step {c c' : Chain π δ} (s : ChainStep π δ) (h : Reach ok m inFlight event data c)
      (hstep : c.step s = some c') (hok : ok c s) : Reach ok m inFlight event data c'

/--
The handlers that stay registered run in order, each at most once; a run that was not stopped ran all
of them, and one that was stopped ran all but those behind the handler that stopped it.
-/
structure Chain.Correct (c : Chain π δ) : Prop where
  ordered : (c.run.invoked.filter (· ∈ c.staying)).Pairwise Before
  complete : c.run.awaited = none → c.run.stopped = false → ∀ r ∈ c.staying, r ∈ c.run.invoked
  stopped : c.run.stopped = true →
    ∃ h, c.run.invoked.getLast? = some h ∧ ∀ r ∈ c.staying, r ∉ c.run.invoked → Before h r

/--
The condition on the steps of a run. A new registration goes into the array of the run only behind the
handlers it has passed, and a registration it has passed is taken out of that array only when no
handler is left.
-/
def KeepsPlace (c : Chain π δ) (s : ChainStep π δ) : Prop :=
  match s with
  | .call (.register _ event priority _) =>
    c.m.arrayOf event = some c.run.ref →
      ∀ r ∈ c.array.take c.run.next, r.priority ≤ priority
  | .call (.unregister hookId) =>
    ∀ found ∈ c.m.findHook hookId, found.1 = c.run.ref →
      c.run.next ≤ found.2 ∨ c.array.length ≤ c.run.next
  | _ => True

/--
What holds of a run between any two steps. The array of the run is that of its event, until
`unregisterPlugin` gives the event another one.
-/
structure Chain.Inv (c : Chain π δ) : Prop where
  managed : Managed c.m
  live : c.run.ref < c.m.fresh
  own : c.m.arrayOf c.run.event = some c.run.ref ∨ ∀ entry ∈ c.m.hooks, entry.2 ≠ c.run.ref
  present : ∀ r ∈ c.staying, r ∈ c.array
  passed : c.run.invoked.filter (· ∈ c.staying) = (c.array.take c.run.next).filter (· ∈ c.staying)
  begun : c.run.invoked = [] → c.run.awaited = none ∧ c.run.stopped = false
  ahead : ∀ h, c.run.invoked.getLast? = some h →
    ∀ r ∈ c.staying, r ∈ c.array.drop c.run.next → Before h r
  ended : c.run.awaited = none → c.run.stopped = false → c.array.length ≤ c.run.next

section Calls

variable (m : HookManager π)

theorem arrays_register (pluginId : Text) (event : HookEvent) (priority : π) (now : Nat) {ref : Nat}
    (hlive : ref < m.fresh) :
    (m.register pluginId event priority now).arrays ref =
      if m.arrayOf event = some ref then
        sortByPriority (m.arrays ref ++ [m.registration pluginId event priority now])
      else m.arrays ref := by
  unfold HookManager.register HookManager.ensureArray
  cases h : m.arrayOf event with
  | some ref' =>
    by_cases hr : ref = ref'
    . simp [HookManager.setArray, hr]
    . simp [HookManager.setArray, hr, Ne.symm hr]
  | none =>
    have hne : ref ≠ m.fresh := Nat.ne_of_lt hlive
    simp [HookManager.setArray, hne]

theorem fresh_register (pluginId : Text) (event : HookEvent) (priority : π) (now : Nat) :
    m.fresh ≤ (m.register pluginId event priority now).fresh := by
  unfold HookManager.register HookManager.ensureArray
  cases m.arrayOf event <;> simp [HookManager.setArray]

theorem hooks_register (pluginId : Text) (event : HookEvent) (priority : π) (now : Nat) :
    (m.register pluginId event priority now).hooks = m.hooks ∨
      (m.register pluginId event priority now).hooks = m.hooks ++ [(event, m.fresh)] := by
  unfold HookManager.register HookManager.ensureArray
  cases m.arrayOf event <;> simp [HookManager.setArray]

omit [LinearOrder π] in
theorem findHook_spec {hookId : Text} {ref index : Nat} (h : m.findHook hookId = some (ref, index)) :
    (∃ event, (event, ref) ∈ m.hooks) ∧ index < (m.arrays ref).length := by
  unfold HookManager.findHook at h
  rcases List.exists_of_findSome?_eq_some h with ⟨⟨event, ref'⟩, hmem, hfind⟩
  simp only [Option.map_eq_some_iff, Prod.mk.injEq] at hfind
  rcases hfind with ⟨index', hindex, rfl, rfl⟩
  exact ⟨⟨event, hmem⟩, (List.findIdx?_eq_some_iff_getElem.mp hindex).1⟩

omit [LinearOrder π] in
theorem unregister_spec (hookId : Text) :
    (m.unregister hookId).hooks = m.hooks ∧ (m.unregister hookId).fresh = m.fresh ∧
    ∀ r, (m.unregister hookId).arrays r =
      match m.findHook hookId with
      | some (ref, index) => if r = ref then (m.arrays ref).eraseIdx index else m.arrays r
      | none => m.arrays r := by
  unfold HookManager.unregister
  cases m.findHook hookId with
  | none => exact ⟨rfl, rfl, fun _ => rfl⟩
  | some found =>
    dsimp only
    split <;> exact ⟨rfl, rfl, fun _ => rfl⟩

omit [LinearOrder π] in
theorem unregisterPlugin_spec (pluginId : Text) :
    m.fresh ≤ (m.unregisterPlugin pluginId).fresh ∧
    (∀ r, r < m.fresh → (m.unregisterPlugin pluginId).arrays r = m.arrays r) ∧
    (m.unregisterPlugin pluginId = m ∨
      ∀ entry ∈ (m.unregisterPlugin pluginId).hooks, m.fresh ≤ entry.2) := by
  unfold HookManager.unregisterPlugin
  split
  . refine ⟨Nat.le_add_right _ _, ?_, .inr ?_⟩
    . intro r hr
      simp [hr]
    . intro entry hentry
      rcases List.mem_mapIdx.mp hentry with ⟨k, hk, rfl⟩
      exact Nat.le_add_right _ _
  . exact ⟨Nat.le_refl _, fun _ _ => rfl, .inl rfl⟩

end Calls

theorem filter_congr_subset {α : Type} {xs ys : List α} {p q : α → Bool} (h : xs.filter p = ys.filter p)
    (hq : ∀ x, q x = true → p x = true) : xs.filter q = ys.filter q := by
  have hsub (zs : List α) : (zs.filter p).filter q = zs.filter q := by
    rw [List.filter_filter]
    congr 1
    funext x
    cases hx : q x with
    | false => simp
    | true => simp [hq x hx]
  rw [← hsub xs, ← hsub ys, h]

theorem Chain.Inv.change {c : Chain π δ} (h : c.Inv) {m : HookManager π}
    {staying : List (HookRegistration π)} (hawaited : c.run.awaited.isSome = true) (hm : Managed m)
    (hfresh : c.m.fresh ≤ m.fresh)
    (hown : m.arrayOf c.run.event = some c.run.ref ∨ ∀ entry ∈ m.hooks, entry.2 ≠ c.run.ref)
    (hsub : ∀ r ∈ staying, r ∈ c.staying) (hpresent : ∀ r ∈ staying, r ∈ m.arrays c.run.ref)
    (htake : ((m.arrays c.run.ref).take c.run.next).filter (· ∈ staying) =
      (c.array.take c.run.next).filter (· ∈ staying))
    (hdrop : ∀ r ∈ staying, r ∈ (m.arrays c.run.ref).drop c.run.next → r ∈ c.array.drop c.run.next) :
    Chain.Inv ⟨m, c.run, staying⟩ where
  managed := hm
  live := Nat.lt_of_lt_of_le h.live hfresh
  own := hown
  present := hpresent
  passed := by
    simp only [Chain.array]
    rw [htake]
    exact filter_congr_subset h.passed fun r hr => by simpa using hsub r (by simpa using hr)
  begun := h.begun
  ahead last hlast r hr hmem := h.ahead last hlast r (hsub r hr) (hdrop r hr hmem)
  ended hnone := by
    rw [show c.run.awaited = none from hnone] at hawaited
    contradiction

/-- What stays registered is in the run's array as long as that is the event's. -/
theorem holds_current {m : HookManager π} {event : HookEvent} {ref : Nat} {r : HookRegistration π}
    (hcurrent : m.arrayOf event = some ref) (h : m.holds event r = true) : r ∈ m.arrays ref := by
  simpa [HookManager.holds, hcurrent] using h

theorem Chain.Inv.unchanged {c : Chain π δ} (h : c.Inv) {m : HookManager π}
    (hawaited : c.run.awaited.isSome = true) (hm : Managed m) (hfresh : c.m.fresh ≤ m.fresh)
    (hown : m.arrayOf c.run.event = some c.run.ref ∨ ∀ entry ∈ m.hooks, entry.2 ≠ c.run.ref)
    (harray : m.arrays c.run.ref = c.array) :
    Chain.Inv ⟨m, c.run, c.staying.filter (m.holds c.run.event)⟩ := by
  apply h.change hawaited hm hfresh hown
  . intro r hr
    exact List.mem_of_mem_filter hr
  . intro r hr
    rw [harray]
    exact h.present r (List.mem_of_mem_filter hr)
  . rw [harray]
  . intro r _ hr
    rw [harray] at hr
    exact hr

theorem Chain.Inv.register {c : Chain π δ} (h : c.Inv) (hawaited : c.run.awaited.isSome = true)
    (pluginId : Text) (event : HookEvent) (priority : π) (now : Nat)
    (hplace : KeepsPlace c (.call (.register pluginId event priority now))) :
    Chain.Inv ⟨c.m.register pluginId event priority now, c.run,
      c.staying.filter ((c.m.register pluginId event priority now).holds c.run.event)⟩ := by
  have hm := h.managed.register pluginId event priority now
  have hfresh := fresh_register c.m pluginId event priority now
  have hown : (c.m.register pluginId event priority now).arrayOf c.run.event = some c.run.ref ∨
      ∀ entry ∈ (c.m.register pluginId event priority now).hooks, entry.2 ≠ c.run.ref := by
    have hlive := h.live
    unfold HookManager.arrayOf
    rcases hooks_register c.m pluginId event priority now with hhooks | hhooks
    . rw [hhooks]
      exact h.own
    . rw [hhooks]
      rcases h.own with hcurrent | hgone
      . left
        unfold HookManager.arrayOf at hcurrent
        rw [List.lookup_append, hcurrent]
        rfl
      . right
        intro entry hentry
        rcases List.mem_append.mp hentry with hentry | hentry
        . exact hgone entry hentry
        . rw [List.mem_singleton.mp hentry]
          exact Nat.ne_of_gt hlive
  have harray := arrays_register c.m pluginId event priority now h.live
  by_cases hevent : c.m.arrayOf event = some c.run.ref
  . rw [if_pos hevent] at harray
    let new := c.m.registration pluginId event priority now
    have hnew (r) (hr : r ∈ c.staying) : r ≠ new := by
      rintro rfl
      exact Nat.lt_irrefl _ (h.managed.numbered _ _ (h.present _ hr))
    -- the handlers the run has passed stay in front of the new one
    have hsplit : (c.m.register pluginId event priority now).arrays c.run.ref =
        c.array.take c.run.next ++ ((c.array.drop c.run.next).takeWhile (upTo priority) ++
          new :: (c.array.drop c.run.next).dropWhile (upTo priority)) := by
      have hpassed : ∀ r ∈ c.array.take c.run.next, upTo priority r = true := by
        intro r hr
        simpa [upTo] using hplace hevent r hr
      rw [harray, sortByPriority_append (h.managed.sorted _)]
      change c.array.takeWhile (upTo priority) ++ new :: c.array.dropWhile (upTo priority) = _
      conv_lhs => rw [← List.take_append_drop c.run.next c.array]
      rw [List.takeWhile_append_of_pos hpassed, List.dropWhile_append_of_pos hpassed,
        List.append_assoc]
    have hcurrent : (c.m.register pluginId event priority now).arrayOf c.run.event
        = some c.run.ref := by
      rcases hown with hcurrent | hgone
      . exact hcurrent
      . have hmem := mem_of_arrayOf hevent
        rcases hooks_register c.m pluginId event priority now with hhooks | hhooks
        . rw [hhooks] at hgone
          exact absurd rfl (hgone _ hmem)
        . rw [hhooks] at hgone
          exact absurd rfl (hgone _ (List.mem_append_left _ hmem))
    apply h.change hawaited hm hfresh hown
    . intro r hr
      exact List.mem_of_mem_filter hr
    . intro r hr
      exact holds_current hcurrent (List.mem_filter.mp hr).2
    . rw [hsplit]
      by_cases hlen : c.run.next ≤ c.array.length
      . rw [List.take_append_of_le_length (by simp [hlen]), List.take_take, Nat.min_self]
      . have hdrop : c.array.drop c.run.next = [] := List.drop_eq_nil_of_le (by omega)
        have hnot : decide (new ∈ c.staying.filter
            ((c.m.register pluginId event priority now).holds c.run.event)) = false := by
          rw [decide_eq_false_iff_not]
          intro hr
          exact hnew new (List.mem_of_mem_filter hr) rfl
        rw [hdrop, List.take_append, List.filter_append]
        simp only [List.takeWhile_nil, List.dropWhile_nil, List.nil_append, List.take_take,
          Nat.min_self]
        have htail : (([new] : List (HookRegistration π)).take
            (c.run.next - (c.array.take c.run.next).length)).filter (· ∈ c.staying.filter
              ((c.m.register pluginId event priority now).holds c.run.event)) = [] := by
          rw [List.filter_eq_nil_iff]
          intro r hr
          rw [List.mem_singleton.mp (List.mem_of_mem_take hr), hnot]
          decide
        rw [htail, List.append_nil]
    . intro r hr hmem
      have hne := hnew r (List.mem_of_mem_filter hr)
      rw [hsplit, List.drop_append] at hmem
      rcases List.mem_append.mp hmem with hmem | hmem
      . simp at hmem
      . have hmem := List.mem_of_mem_drop hmem
        rw [List.mem_append, List.mem_cons] at hmem
        rcases hmem with hmem | hmem | hmem
        . exact (List.takeWhile_prefix _).subset hmem
        . exact absurd hmem hne
        . exact (List.dropWhile_suffix _).subset hmem
  . rw [if_neg hevent] at harray
    exact h.unchanged hawaited hm hfresh hown harray

theorem Chain.Inv.unregister {c : Chain π δ} (h : c.Inv) (hawaited : c.run.awaited.isSome = true)
    (hookId : Text) (hplace : KeepsPlace c (.call (.unregister hookId))) :
    Chain.Inv ⟨c.m.unregister hookId, c.run,
      c.staying.filter ((c.m.unregister hookId).holds c.run.event)⟩ := by
  have hm := h.managed.unregister hookId
  rcases unregister_spec c.m hookId with ⟨hhooks, hfresh, harrays⟩
  have hown : (c.m.unregister hookId).arrayOf c.run.event = some c.run.ref ∨
      ∀ entry ∈ (c.m.unregister hookId).hooks, entry.2 ≠ c.run.ref := by
    unfold HookManager.arrayOf
    rw [hhooks]
    exact h.own
  have harray := harrays c.run.ref
  cases hfound : c.m.findHook hookId with
  | none =>
    rw [hfound] at harray
    exact h.unchanged hawaited hm (Nat.le_of_eq hfresh.symm) hown harray
  | some found =>
    rcases found with ⟨ref, index⟩
    rw [hfound] at harray
    rcases findHook_spec c.m hfound with ⟨⟨event, hmem⟩, hindex⟩
    by_cases href : c.run.ref = ref
    . subst href
      simp only [if_true] at harray
      have hlen : index < c.array.length := hindex
      have hcurrent : (c.m.unregister hookId).arrayOf c.run.event = some c.run.ref := by
        rcases hown with hcurrent | hgone
        . exact hcurrent
        . rw [hhooks] at hgone
          exact absurd rfl (hgone _ hmem)
      have hpresent (r) (hr : r ∈ c.staying.filter
          ((c.m.unregister hookId).holds c.run.event)) :
          r ∈ (c.m.unregister hookId).arrays c.run.ref :=
        holds_current hcurrent (List.mem_filter.mp hr).2
      apply h.change hawaited hm (Nat.le_of_eq hfresh.symm) hown
        (fun r hr => List.mem_of_mem_filter hr) hpresent
      . rw [harray]
        rcases hplace (c.run.ref, index) hfound rfl with hbehind | hlast
        . rw [List.take_eraseIdx_eq_take_of_le _ _ _ hbehind]
          rfl
        . -- nothing is left behind the iterator, so only the removed registration matters
          change c.array.length ≤ c.run.next at hlast
          have hgone : c.array[index] ∉ c.staying.filter
              ((c.m.unregister hookId).holds c.run.event) := by
            intro hr
            have hin := hpresent _ hr
            rw [harray] at hin
            rcases List.mem_eraseIdx_iff_getElem?.mp hin with ⟨j, hne, hj⟩
            have hnodup := nodup_of_sorted (h.managed.sorted c.run.ref)
            have heq : c.array[index]? = c.array[j]? := (List.getElem?_eq_getElem hlen).trans hj.symm
            exact hne ((List.getElem?_inj hlen hnodup).mp heq).symm
          change ((c.array.eraseIdx index).take c.run.next).filter _ = _
          rw [List.take_of_length_le (by rw [List.length_eraseIdx]; split <;> omega),
            List.take_of_length_le hlast, List.eraseIdx_eq_take_drop_succ, List.filter_append]
          conv_rhs => rw [← List.take_append_drop index c.array, List.drop_eq_getElem_cons hlen]
          rw [List.filter_append, List.filter_cons_of_neg (by simpa using hgone)]
      . intro r _ hr
        rw [harray] at hr
        rcases hplace (c.run.ref, index) hfound rfl with hbehind | hlast
        . have hsub : ((c.array.eraseIdx index).drop c.run.next).Sublist
              (c.array.drop c.run.next) := (List.eraseIdx_sublist _ _).drop _
          exact hsub.subset hr
        . rw [List.drop_eq_nil_of_le] at hr
          . simp at hr
          . change c.array.length ≤ c.run.next at hlast
            change (c.array.eraseIdx index).length ≤ c.run.next
            rw [List.length_eraseIdx]
            split <;> omega
    . simp only [if_neg href] at harray
      exact h.unchanged hawaited hm (Nat.le_of_eq hfresh.symm) hown harray

theorem Chain.Inv.unregisterPlugin {c : Chain π δ} (h : c.Inv)
    (hawaited : c.run.awaited.isSome = true) (pluginId : Text) :
    Chain.Inv ⟨c.m.unregisterPlugin pluginId, c.run,
      c.staying.filter ((c.m.unregisterPlugin pluginId).holds c.run.event)⟩ := by
  rcases unregisterPlugin_spec c.m pluginId with ⟨hfresh, harrays, hhooks⟩
  refine h.unchanged hawaited (h.managed.unregisterPlugin pluginId) hfresh ?_ (harrays _ h.live)
  rcases hhooks with hsame | hnew
  . rw [hsame]
    exact h.own
  . right
    intro entry hentry
    have hle := hnew entry hentry
    have hlive := h.live
    omega

theorem Chain.Inv.advance {c : Chain π δ} {staying : List (HookRegistration π)} {run : Run π δ}
    (hmanaged : Managed c.m) (hlive : run.ref < c.m.fresh)
    (hown : c.m.arrayOf run.event = some run.ref ∨ ∀ entry ∈ c.m.hooks, entry.2 ≠ run.ref)
    (hpresent : ∀ r ∈ staying, r ∈ c.m.arrays run.ref) (hstopped : run.stopped = false)
    (hpassed : run.invoked.filter (· ∈ staying) =
      ((c.m.arrays run.ref).take run.next).filter (· ∈ staying))
    (hahead : ∀ h, run.invoked.getLast? = some h →
      ∀ r ∈ staying, r ∈ (c.m.arrays run.ref).drop run.next → Before h r) :
    Chain.Inv ⟨c.m, run.advance (c.m.arrays run.ref), staying⟩ := by
  unfold Run.advance
  cases hget : (c.m.arrays run.ref)[run.next]? with
  | none =>
    refine ⟨hmanaged, hlive, hown, hpresent, hpassed, fun _ => ⟨rfl, hstopped⟩, hahead, ?_⟩
    intro _ _
    exact List.getElem?_eq_none_iff.mp hget
  | some r =>
    refine ⟨hmanaged, hlive, hown, hpresent, ?_, ?_, ?_, ?_⟩
    . change (run.invoked ++ [r]).filter _ = ((c.m.arrays run.ref).take (run.next + 1)).filter _
      rw [List.filter_append, List.take_add_one, hget, List.filter_append, hpassed]
      rfl
    . intro hnil
      simp at hnil
    . intro h hlast q _ hq
      simp only [List.getLast?_append, List.getLast?_singleton, Option.some_or,
        Option.some.injEq] at hlast
      subst hlast
      have hlt := (List.getElem?_eq_some_iff.mp hget).1
      have hsorted := (hmanaged.sorted run.ref).sublist (List.drop_sublist run.next _)
      rw [List.drop_eq_getElem_cons hlt, List.pairwise_cons] at hsorted
      rw [← (List.getElem?_eq_some_iff.mp hget).2]
      exact hsorted.1 q hq
    . intro hnone
      contradiction

theorem Chain.Inv.start {m : HookManager π} (hm : Managed m) {inFlight : List HookEvent}
    {event : HookEvent} {data : δ} {run : Run π δ} (h : m.execute inFlight event data = some run) :
    Chain.Inv ⟨m, run, m.arrays run.ref⟩ := by
  unfold HookManager.execute at h
  split at h
  . contradiction
  . rw [Option.map_eq_some_iff] at h
    rcases h with ⟨ref, href, rfl⟩
    have hrun : (runHandlers m event ref data).ref = ref := by
      unfold runHandlers Run.advance
      dsimp only
      split <;> rfl
    rw [hrun]
    exact Chain.Inv.advance (c := ⟨m, runHandlers m event ref data, []⟩) hm
      (hm.refs _ (mem_of_arrayOf href)) (.inl href) (fun _ h => h) rfl rfl (by simp)

theorem Chain.Inv.settle {c : Chain π δ} (h : c.Inv) (hawaited : c.run.awaited.isSome = true)
    (hstopped : c.run.stopped = false) (outcome : HandlerOutcome δ) :
    Chain.Inv ⟨c.m, c.run.settle c.array outcome,
      c.staying.filter (c.m.holds (c.run.settle c.array outcome).event)⟩ := by
  have hpassed (event : HookEvent) := filter_congr_subset
    (q := (· ∈ c.staying.filter (c.m.holds event))) h.passed
    fun r hr => by simpa using (List.mem_filter.mp (of_decide_eq_true hr)).1
  have hadvance (event : HookEvent) (data : δ) : Chain.Inv
      ⟨c.m, { c.run with currentData := data }.advance c.array,
        c.staying.filter (c.m.holds event)⟩ :=
    Chain.Inv.advance (c := c) h.managed h.live h.own
      (fun r hr => h.present r (List.mem_of_mem_filter hr)) hstopped (hpassed event)
      fun last hlast r hr => h.ahead last hlast r (List.mem_of_mem_filter hr)
  have hstop (event : HookEvent) (data : δ) : Chain.Inv
      ⟨c.m, { c.run with currentData := data, awaited := none, stopped := true },
        c.staying.filter (c.m.holds event)⟩ := by
    refine ⟨h.managed, h.live, h.own, fun r hr => h.present r (List.mem_of_mem_filter hr),
      hpassed event, ?_, fun last hlast r hr => h.ahead last hlast r (List.mem_of_mem_filter hr), ?_⟩
    . intro hnil
      rw [(h.begun hnil).1] at hawaited
      contradiction
    . intro _ hfalse
      contradiction
  cases outcome with
  | threw error => exact hadvance _ c.run.currentData
  | returned result =>
    rcases result with ⟨continues, data, error⟩
    cases continues with
    | true =>
      cases error with
      | none =>
        cases data with
        | none => exact hadvance _ c.run.currentData
        | some data => exact hadvance _ data
      | some error => exact hadvance _ c.run.currentData
    | false =>
      cases error with
      | none =>
        cases data with
        | none => exact hstop _ c.run.currentData
        | some data => exact hstop _ data
      | some error => exact hstop _ c.run.currentData

/-- A run that still awaits a handler was not stopped. -/
theorem not_stopped {ok : Chain π δ → ChainStep π δ → Prop} {m : HookManager π}
    {inFlight : List HookEvent} {event : HookEvent} {data : δ} {c : Chain π δ}
    (h : Chain.Reach ok m inFlight event data c) (hawaited : c.run.awaited.isSome = true) :
    c.run.stopped = false := by
  have hkeeps (run : Run π δ) (array : List (HookRegistration π)) (hrun : run.stopped = false) :
      (run.advance array).stopped = false := by
    unfold Run.advance
    split <;> exact hrun
  induction h with
  | start hexecute =>
    unfold HookManager.execute at hexecute
    split at hexecute
    . contradiction
    . rw [Option.map_eq_some_iff] at hexecute
      rcases hexecute with ⟨ref, -, rfl⟩
      exact hkeeps _ _ rfl
  | @step c c' s _ hstep _ ih =>
    unfold Chain.step at hstep
    split at hstep
    . next hbefore =>
      have hbefore := ih hbefore
      cases s with
      | call call =>
        simp only [Option.some.injEq] at hstep
        subst hstep
        exact hbefore
      | settle outcome =>
        simp only [Option.some.injEq] at hstep
        subst hstep
        dsimp only at hawaited ⊢
        cases outcome with
        | threw error => exact hkeeps _ _ hbefore
        | returned result =>
          unfold Run.settle at hawaited ⊢
          dsimp only at hawaited ⊢
          split
          . apply hkeeps
            split <;> exact hbefore
          . next hstop =>
            simp [hstop] at hawaited
    . contradiction

theorem Chain.Inv.reach {m : HookManager π} (hm : Managed m) {inFlight : List HookEvent}
    {event : HookEvent} {data : δ} {c : Chain π δ}
    (h : Chain.Reach KeepsPlace m inFlight event data c) : c.Inv := by
  induction h with
  | start hexecute => exact Chain.Inv.start hm hexecute
  | @step c c' s hreach hstep hok ih =>
    unfold Chain.step at hstep
    split at hstep
    . next hawaited =>
      cases s with
      | call call =>
        simp only [Option.some.injEq] at hstep
        subst hstep
        cases call with
        | register pluginId event priority now => exact ih.register hawaited _ _ _ _ hok
        | unregister hookId => exact ih.unregister hawaited hookId hok
        | unregisterPlugin pluginId => exact ih.unregisterPlugin hawaited pluginId
      | settle outcome =>
        simp only [Option.some.injEq] at hstep
        subst hstep
        exact ih.settle hawaited (not_stopped hreach hawaited) outcome
    . contradiction

theorem Chain.Inv.correct {c : Chain π δ} (h : c.Inv) : c.Correct where
  ordered := by
    rw [h.passed]
    exact ((h.managed.sorted _).sublist (List.take_sublist _ _)).filter _
  complete hawaited hstopped r hr := by
    have htake : c.array.take c.run.next = c.array :=
      List.take_of_length_le (h.ended hawaited hstopped)
    have hmem : r ∈ (c.array.take c.run.next).filter (· ∈ c.staying) := by
      rw [htake, List.mem_filter]
      exact ⟨h.present r hr, by simpa using hr⟩
    rw [← h.passed] at hmem
    exact List.mem_of_mem_filter hmem
  stopped hstopped := by
    cases hlast : c.run.invoked.getLast? with
    | none =>
      rw [List.getLast?_eq_none_iff] at hlast
      rw [(h.begun hlast).2] at hstopped
      contradiction
    | some last =>
      refine ⟨last, rfl, ?_⟩
      intro r hr hnot
      apply h.ahead last hlast r hr
      have hmem := h.present r hr
      rw [← List.take_append_drop c.run.next c.array, List.mem_append] at hmem
      rcases hmem with hmem | hmem
      . have hpassed : r ∈ c.run.invoked.filter (· ∈ c.staying) := by
          rw [h.passed, List.mem_filter]
          exact ⟨hmem, by simpa using hr⟩
        exact absurd (List.mem_of_mem_filter hpassed) hnot
      . exact hmem

/--
In a run whose steps all keep its place in the array, from any state the manager can be in, each
handler that stays registered is invoked in order, never twice, and left out only behind a handler
that stopped the chain.
-/
theorem hook_chain_correct (calls : List (HookCall π)) (inFlight : List HookEvent)
    (event : HookEvent) (data : δ) {c : Chain π δ}
    (h : Chain.Reach KeepsPlace (calls.foldl HookManager.apply .empty) inFlight event data c) :
    c.Correct := by
  have hm : Managed (calls.foldl HookManager.apply (.empty : HookManager π)) := by
    apply List.foldlRecOn
    . exact managed_empty
    . intro m hm call _
      exact hm.apply call
  exact (Chain.Inv.reach hm h).correct

section Samples

instance (c : Chain π δ) (s : ChainStep π δ) : Decidable (KeepsPlace c s) :=
  match s with
  | .call (.register ..) => inferInstanceAs (Decidable (_ → _))
  | .call (.unregister _) => inferInstanceAs (Decidable (∀ _ ∈ _, _))
  | .call (.unregisterPlugin _) => inferInstanceAs (Decidable True)
  | .settle _ => inferInstanceAs (Decidable True)

/-- Take the steps of a run as long as they satisfy `ok`. -/
def Chain.exec (ok : Chain π δ → ChainStep π δ → Prop) [∀ c s, Decidable (ok c s)] (c : Chain π δ)
    (steps : List (ChainStep π δ)) : Option (Chain π δ) :=
  match steps with
  | [] => some c
  | s :: steps => if ok c s then (c.step s).bind fun c' => exec ok c' steps else none

theorem Chain.reach_of_exec {ok : Chain π δ → ChainStep π δ → Prop} [∀ c s, Decidable (ok c s)]
    {m : HookManager π} {inFlight : List HookEvent} {event : HookEvent} {data : δ} {c c' : Chain π δ}
    {steps : List (ChainStep π δ)} (h : Chain.Reach ok m inFlight event data c)
    (hexec : c.exec ok steps = some c') : Chain.Reach ok m inFlight event data c' := by
  induction steps generalizing c with
  | nil =>
    simp only [exec, Option.some.injEq] at hexec
    exact hexec ▸ h
  | cons s steps ih =>
    simp only [exec] at hexec
    split at hexec
    . next hok =>
      rw [Option.bind_eq_some_iff] at hexec
      rcases hexec with ⟨c₁, hstep, hrest⟩
      exact ih (.step s h hstep hok) hrest
    . contradiction

theorem Chain.reach_of_run {ok : Chain π Unit → ChainStep π Unit → Prop} [∀ c s, Decidable (ok c s)]
    {m : HookManager π} {steps : List (ChainStep π Unit)} {α : Type} {f : Chain π Unit → α} {a : α}
    (hrun : (((m.execute [] .messageReceived ()).map fun run => Chain.mk m run (m.arrays run.ref)).bind
      fun c => (c.exec ok steps).map f) = some a) :
    ∃ c, Chain.Reach ok m [] .messageReceived () c ∧ f c = a := by
  rw [Option.bind_eq_some_iff] at hrun
  rcases hrun with ⟨c, hstart, hexec⟩
  rw [Option.map_eq_some_iff] at hstart hexec
  rcases hstart with ⟨run, hrun, rfl⟩
  rcases hexec with ⟨c', hexec, hf⟩
  exact ⟨c', Chain.reach_of_exec (.start hrun) hexec, hf⟩

def passOn : HandlerOutcome Unit := .returned ⟨true, none, none⟩

/-- Two plugins that registered for `message:received` at the same priority. -/
def twoPlugins : List (HookCall Nat) :=
  [.register "log".toList .messageReceived 100 0, .register "moderate".toList .messageReceived 100 1]

def twoHooks : HookManager Nat := twoPlugins.foldl HookManager.apply .empty

theorem hook_chain_correct_lateHook :
    ∃ c : Chain Nat Unit, c.run.awaited = none ∧ c.run.invoked.length = 3 ∧ c.Correct := by
  have hrun : (((twoHooks.execute [] .messageReceived ()).map fun run =>
      Chain.mk twoHooks run (twoHooks.arrays run.ref)).bind fun c => (c.exec KeepsPlace
        [.settle passOn, .call (.register "late".toList .messageReceived 100 2), .settle (.threw []),
          .settle passOn]).map
        fun c => (c.run.awaited.isNone, c.run.invoked.length)) = some (true, 3) := by
    decide
  rcases Chain.reach_of_run hrun with ⟨c, hreach, hc⟩
  simp only [Prod.mk.injEq, Option.isNone_iff_eq_none] at hc
  exact ⟨c, hc.1, hc.2, hook_chain_correct twoPlugins [] .messageReceived () hreach⟩

/--
While the first handler is awaited, unregistering it makes the loop skip the second one, and
registering a hook of a lower priority number makes it run the first one twice.
-/
theorem hook_chain_shifts :
    (∃ c, Chain.Reach (fun _ _ => True) twoHooks [] .messageReceived () c ∧
      c.run.awaited = none ∧ c.run.stopped = false ∧ ∃ r ∈ c.staying, r ∉ c.run.invoked) ∧
    ∃ c, Chain.Reach (fun _ _ => True) twoHooks [] .messageReceived () c ∧
      ∃ r ∈ c.staying, c.run.invoked.count r = 2 := by
  constructor
  . have hrun : (((twoHooks.execute [] .messageReceived ()).map fun run =>
        Chain.mk twoHooks run (twoHooks.arrays run.ref)).bind fun c => (c.exec (fun _ _ => True)
          [.call (.unregister (hookId "log".toList .messageReceived 0)), .settle passOn]).map
          fun c => (c.run.awaited.isNone && !c.run.stopped,
            decide (∃ r ∈ c.staying, r ∉ c.run.invoked))) = some (true, true) := by
      decide
    rcases Chain.reach_of_run hrun with ⟨c, hreach, hc⟩
    simp only [Prod.mk.injEq, Bool.and_eq_true, Option.isNone_iff_eq_none, Bool.not_eq_true',
      decide_eq_true_eq] at hc
    exact ⟨c, hreach, hc.1.1, hc.1.2, hc.2⟩
  . have hrun : (((twoHooks.execute [] .messageReceived ()).map fun run =>
        Chain.mk twoHooks run (twoHooks.arrays run.ref)).bind fun c => (c.exec (fun _ _ => True)
          [.call (.register "early".toList .messageReceived 50 2), .settle passOn]).map
          fun c => decide (∃ r ∈ c.staying, c.run.invoked.count r = 2)) = some true := by
      decide
    rcases Chain.reach_of_run hrun with ⟨c, hreach, hc⟩
    exact ⟨c, hreach, of_decide_eq_true hc⟩

end Samples

end Runs

end OpenWA.Hooks
