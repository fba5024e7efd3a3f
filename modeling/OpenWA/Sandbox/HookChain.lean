import OpenWA.Sandbox.WorkerHooks
import Mathlib.Data.List.Sort

/-!
This module contains the comparison of the two chain runners: the handlers of a plugin in its worker
against the same handlers in the host's chain.
-/

namespace OpenWA.Sandbox

open Js Hooks

variable {π δ : Type}

section Host

/-- The awaited handler of a run settles as `handler` says, as often as `fuel` allows. -/
def drive (handler : Nat → Handler δ) (array : List (HookRegistration π)) (fuel : Nat)
    (run : Run π δ) : Run π δ :=
  match fuel with
  | 0 => run
  | fuel + 1 =>
    match run.awaited with
    | none => run
    | some registration =>
      drive handler array fuel (run.settle array (handler registration.handler run.currentData))

/-- What a run that is over returns. -/
def Run.result (run : Run π δ) : ChainResult δ := ⟨!run.stopped, run.currentData⟩

theorem drive_none (handler : Nat → Handler δ) (array : List (HookRegistration π)) (fuel : Nat)
    {run : Run π δ} (h : run.awaited = none) : drive handler array fuel run = run := by
  cases fuel with
  | zero => rfl
  | succ fuel =>
    unfold drive
    rw [h]

theorem settle_returned (run : Run π δ) (array : List (HookRegistration π)) (result : HookResult δ) :
    run.settle array (.returned result) =
      let run := { run with
        currentData :=
          if result.error = none then result.data.getD run.currentData else run.currentData }
      if result.continues then run.advance array
      else { run with awaited := none, stopped := true } := by
  rcases result with ⟨continues, data, error⟩
  cases error with
  | none => cases data <;> rfl
  | some error => rfl

theorem drive_advance (handler : Nat → Handler δ) (array : List (HookRegistration π)) (fuel : Nat)
    (run : Run π δ) (hfuel : array.length ≤ run.next + fuel) (hrunning : run.stopped = false) :
    (drive handler array fuel (run.advance array)).awaited = none ∧
      Run.result (drive handler array fuel (run.advance array)) =
        runHost ((array.drop run.next).map fun r => handler r.handler) run.currentData := by
  induction fuel generalizing run with
  | zero =>
    have hend : array[run.next]? = none := List.getElem?_eq_none (by omega)
    have hdrop : array.drop run.next = [] := List.drop_eq_nil_of_le (by omega)
    unfold Hooks.Run.advance drive
    rw [hend, hdrop]
    simp [Run.result, runHost, hrunning]
  | succ fuel ih =>
    cases hnext : array[run.next]? with
    | none =>
      have hdrop : array.drop run.next = [] :=
        List.drop_eq_nil_of_le (List.getElem?_eq_none_iff.mp hnext)
      unfold Hooks.Run.advance
      rw [hnext, drive_none _ _ _ rfl, hdrop]
      simp [Run.result, runHost, hrunning]
    | some registration =>
      rcases List.getElem?_eq_some_iff.mp hnext with ⟨hlt, hget⟩
      have hdrop : array.drop run.next = registration :: array.drop (run.next + 1) := by
        rw [List.drop_eq_getElem_cons hlt, hget]
      rw [hdrop, List.map_cons]
      unfold Hooks.Run.advance runHost drive
      rw [hnext]
      dsimp only
      cases handler registration.handler run.currentData with
      | returned result =>
        rw [settle_returned]
        dsimp only
        split
        . exact ih _ (by dsimp only; omega) hrunning
        . rw [drive_none _ _ _ rfl]
          exact ⟨rfl, rfl⟩
      | threw error => exact ih _ (by dsimp only; omega) hrunning

end Host

section Registration

variable [LinearOrder π]

/-- The same priority on both sides. -/
def Ranked (hooks : List (WorkerHook π δ)) (r : HookRegistration π) (hook : WorkerHook π δ) : Prop :=
  hooks[r.handler]? = some hook ∧ r.priority = hook.priority

theorem forall₂_orderedInsert {hooks : List (WorkerHook π δ)} {r : HookRegistration π}
    {hook : WorkerHook π δ} {array : List (HookRegistration π)} {list : List (WorkerHook π δ)}
    (h : Ranked hooks r hook) (hl : List.Forall₂ (Ranked hooks) array list) :
    List.Forall₂ (Ranked hooks) (array.orderedInsert (fun a b => a.priority ≤ b.priority) r)
      (list.orderedInsert (fun a b => a.priority ≤ b.priority) hook) := by
  induction hl with
  | nil => exact .cons h .nil
  | cons hfirst hrest ih =>
    rw [List.orderedInsert_cons, List.orderedInsert_cons, h.2, hfirst.2]
    split
    . exact .cons h (.cons hfirst hrest)
    . exact .cons hfirst ih

theorem forall₂_sortByPriority {hooks : List (WorkerHook π δ)} {array : List (HookRegistration π)}
    {list : List (WorkerHook π δ)} (hl : List.Forall₂ (Ranked hooks) array list) :
    List.Forall₂ (Ranked hooks) (Hooks.sortByPriority array)
      (WorkerHookRegistry.sortByPriority list) := by
  induction hl with
  | nil => exact .nil
  | cons hfirst hrest ih => exact forall₂_orderedInsert hfirst ih

/-- The handlers of a plugin for one event are registered with its worker. -/
def registerWorker (event : HookEvent) (hooks : List (WorkerHook π δ)) : WorkerHookRegistry π δ :=
  hooks.foldl (fun registry hook => registry.register event.toText hook) .empty

/-- The same handlers are registered with the hook manager, numbered in this order. -/
def registerHost (pluginId : Text) (event : HookEvent) (now : Nat → Nat)
    (hooks : List (WorkerHook π δ)) : HookManager π :=
  hooks.foldl (fun m hook => m.register pluginId event hook.priority (now m.registered)) .empty

/-- The array of an event, empty if there is none yet. -/
def arrayAt (m : HookManager π) (event : HookEvent) : List (HookRegistration π) :=
  (m.arrayOf event).elim [] m.arrays

theorem arrayAt_register (m : HookManager π) (pluginId : Text) (event : HookEvent) (priority : π)
    (now : Nat) :
    arrayAt (m.register pluginId event priority now) event =
      Hooks.sortByPriority (arrayAt m event ++ [m.registration pluginId event priority now]) := by
  unfold arrayAt HookManager.register HookManager.ensureArray
  cases hevent : m.arrayOf event with
  | none =>
    have hnew : ((m.hooks ++ [(event, m.fresh)]).lookup event) = some m.fresh := by
      rw [List.lookup_append, show m.hooks.lookup event = none from hevent]
      simp
    simp [HookManager.arrayOf, HookManager.setArray, hnew]
  | some ref =>
    have hsame : m.hooks.lookup event = some ref := hevent
    simp [HookManager.arrayOf, HookManager.setArray, hsame]

theorem registered_register (m : HookManager π) (pluginId : Text) (event : HookEvent) (priority : π)
    (now : Nat) : (m.register pluginId event priority now).registered = m.registered + 1 := by
  unfold HookManager.register HookManager.ensureArray
  cases m.arrayOf event <;> rfl

theorem registered_registerHost (pluginId : Text) (event : HookEvent) (now : Nat → Nat)
    (hooks : List (WorkerHook π δ)) :
    (registerHost pluginId event now hooks).registered = hooks.length := by
  induction hooks using List.reverseRecOn with
  | nil => rfl
  | append_singleton hooks hook ih =>
    unfold registerHost at ih ⊢
    rw [List.foldl_append, List.foldl_cons, List.foldl_nil, registered_register, ih,
      List.length_append, List.length_singleton]

theorem get?_register (registry : WorkerHookRegistry π δ) (event : Text) (hook : WorkerHook π δ) :
    ((registry.register event hook).handlers.get? event).getD [] =
      WorkerHookRegistry.sortByPriority ((registry.handlers.get? event).getD [] ++ [hook]) := by
  unfold WorkerHookRegistry.register
  cases hlist : registry.handlers.get? event with
  | none => simp [WorkerHookRegistry.sortByPriority]
  | some list => simp

omit [LinearOrder π] in
theorem Ranked.append {hooks : List (WorkerHook π δ)} {r : HookRegistration π}
    {hook : WorkerHook π δ} (h : Ranked hooks r hook) (new : WorkerHook π δ) :
    Ranked (hooks ++ [new]) r hook := by
  have hlt := (List.getElem?_eq_some_iff.mp h.1).1
  exact ⟨by rw [List.getElem?_append_left hlt, h.1], h.2⟩

theorem sameOrder (pluginId : Text) (event : HookEvent) (now : Nat → Nat)
    (hooks : List (WorkerHook π δ)) :
    List.Forall₂ (Ranked hooks) (arrayAt (registerHost pluginId event now hooks) event)
      (((registerWorker event hooks).handlers.get? event.toText).getD []) := by
  induction hooks using List.reverseRecOn with
  | nil => exact .nil
  | append_singleton hooks hook ih =>
    have hregistered := registered_registerHost pluginId event now hooks
    unfold registerHost at ih hregistered ⊢
    unfold registerWorker at ih ⊢
    rw [List.foldl_append, List.foldl_cons, List.foldl_nil, arrayAt_register, List.foldl_append,
      List.foldl_cons, List.foldl_nil, get?_register]
    apply forall₂_sortByPriority
    apply List.rel_append
    . exact ih.imp fun _ _ h => h.append hook
    . refine .cons ⟨?_, rfl⟩ .nil
      have hnumber : ∀ m : HookManager π, ∀ n,
          (m.registration pluginId event hook.priority n).handler = m.registered := fun _ _ => rfl
      rw [hnumber, hregistered]
      simp

/-- The handler that has a number. -/
def handlerAt (hooks : List (WorkerHook π δ)) (n : Nat) : Handler δ :=
  (hooks[n]?).elim (fun _ => .threw []) (·.handler)

omit [LinearOrder π] in
theorem map_handlerAt {hooks : List (WorkerHook π δ)} {array : List (HookRegistration π)}
    {list : List (WorkerHook π δ)} (hl : List.Forall₂ (Ranked hooks) array list) :
    array.map (fun r => handlerAt hooks r.handler) = list.map (·.handler) := by
  induction hl with
  | nil => rfl
  | cons hfirst _ ih => rw [List.map_cons, List.map_cons, ih, handlerAt, hfirst.1, Option.elim_some]

theorem execute_registered (pluginId : Text) (event : HookEvent) (now : Nat → Nat)
    (hooks : List (WorkerHook π δ)) (data : δ) {run : Run π δ}
    (hrun : (registerHost pluginId event now hooks).execute [] event data = some run) :
    ∃ fuel, (drive (handlerAt hooks) (arrayAt (registerHost pluginId event now hooks) event) fuel
        run).awaited = none ∧
      Run.result (drive (handlerAt hooks) (arrayAt (registerHost pluginId event now hooks) event)
        fuel run) =
        runHost ((((registerWorker event hooks).handlers.get? event.toText).getD []).map (·.handler))
          data := by
  have horder := map_handlerAt (sameOrder pluginId event now hooks)
  unfold HookManager.execute at hrun
  rw [if_neg List.not_mem_nil, Option.map_eq_some_iff] at hrun
  rcases hrun with ⟨ref, hevent, rfl⟩
  have harray : (registerHost pluginId event now hooks).arrays ref =
      arrayAt (registerHost pluginId event now hooks) event := by
    rw [arrayAt, hevent, Option.elim_some]
  unfold runHandlers
  rw [harray, ← horder]
  exact ⟨_, drive_advance (handlerAt hooks) _ _ _ (by rw [Nat.zero_add]) rfl⟩

end Registration

/-- No handler that the chain reaches reports an error together with other data than it was given. -/
def Clean (handlers : List (Handler δ)) (data : δ) : Prop :=
  match handlers with
  | [] => True
  | handler :: handlers =>
    match handler data with
    | .returned result =>
      (result.error ≠ none → result.data = none ∨ result.data = some data) ∧
        (result.continues = true → Clean handlers (result.data.getD data))
    | .threw _ => Clean handlers data

section Worker

variable {handlers : List (Handler δ)} {data : δ}

theorem runWorker_error (handlers : List (Handler δ)) (data : δ) (firstError : Option Text) :
    (runWorker handlers data firstError).data = (runWorker handlers data none).data ∧
      (runWorker handlers data firstError).continues = (runWorker handlers data none).continues := by
  induction handlers generalizing data firstError with
  | nil => exact ⟨rfl, rfl⟩
  | cons handler handlers ih =>
    unfold runWorker
    cases handler data with
    | returned result =>
      dsimp only
      split
      . exact ih _ firstError
      . exact ⟨rfl, rfl⟩
    | threw error =>
      have hfirst := ih data (firstError.or (some error))
      have hnone := ih data (some error)
      exact ⟨hfirst.1.trans hnone.1.symm, hfirst.2.trans hnone.2.symm⟩

theorem runSandboxed_eq (handlers : List (Handler δ)) (data : δ) :
    runSandboxed handlers data = ⟨(runWorker handlers data none).continues,
      (runWorker handlers data none).data.getD data⟩ := by
  unfold runSandboxed runHost hookRelay
  simp only [Gates.open, Bool.and_self, if_true]
  split
  . next hcontinues => rw [hcontinues, runHost]
  . next hcontinues => rw [Bool.eq_false_iff.mpr hcontinues]

@[simp]
theorem runSandboxed_nil : runSandboxed [] data = ⟨true, data⟩ := by
  rw [runSandboxed_eq, runWorker, Option.getD_some]

theorem runSandboxed_threw {handler : Handler δ} {error : Text} (h : handler data = .threw error) :
    runSandboxed (handler :: handlers) data = runSandboxed handlers data := by
  have herror := runWorker_error handlers data (some error)
  have hstep : runWorker (handler :: handlers) data none = runWorker handlers data (some error) := by
    rw [runWorker, h]
    rfl
  rw [runSandboxed_eq, runSandboxed_eq, hstep, herror.1, herror.2]

theorem runSandboxed_stopped {handler : Handler δ} {result : HookResult δ}
    (h : handler data = .returned result) (hstop : result.continues = false) :
    runSandboxed (handler :: handlers) data = ⟨false, result.data.getD data⟩ := by
  rw [runSandboxed_eq, runWorker, h]
  simp [hstop]

theorem some_of_runWorker (handlers : List (Handler δ)) (data : δ) (firstError : Option Text) :
    ((runWorker handlers data firstError).data).isSome := by
  induction handlers generalizing data firstError with
  | nil => rfl
  | cons handler handlers ih =>
    unfold runWorker
    split
    . dsimp only
      split
      . exact ih _ _
      . rfl
    . exact ih _ _

theorem runSandboxed_continued {handler : Handler δ} {result : HookResult δ}
    (h : handler data = .returned result) (hcontinue : result.continues = true) :
    runSandboxed (handler :: handlers) data = runSandboxed handlers (result.data.getD data) := by
  rcases Option.isSome_iff_exists.mp (some_of_runWorker handlers (result.data.getD data) none) with
    ⟨last, hlast⟩
  rw [runSandboxed_eq, runSandboxed_eq, runWorker, h]
  simp [hcontinue, hlast]

end Worker

/--
The two runners agree after every handler of a list exactly if no handler they reach reports an error
with other data than it was given.
-/
theorem agrees_iff (handlers : List (Handler δ)) (data : δ) :
    (∀ n, runSandboxed (handlers.take n) data = runHost (handlers.take n) data) ↔
      Clean handlers data := by
  induction handlers generalizing data with
  | nil => simp [Clean, runHost]
  | cons handler handlers ih =>
    have hsplit : (∀ n, runSandboxed ((handler :: handlers).take n) data =
          runHost ((handler :: handlers).take n) data) ↔
        ∀ n, runSandboxed (handler :: handlers.take n) data =
          runHost (handler :: handlers.take n) data := by
      constructor
      . exact fun h n => h (n + 1)
      . intro h n
        cases n with
        | zero => simp [runHost]
        | succ n => exact h n
    rw [hsplit]
    unfold Clean
    cases houtcome : handler data with
    | threw error =>
      dsimp only
      rw [← ih data]
      apply forall_congr'
      intro n
      rw [runSandboxed_threw houtcome, runHost, houtcome]
    | returned result =>
      dsimp only
      have hkept : (result.error ≠ none → result.data = none ∨ result.data = some data) ↔
          (if result.error = none then result.data.getD data else data) = result.data.getD data := by
        cases result.error with
        | none => simp
        | some error => cases result.data <;> simp [eq_comm]
      rw [hkept]
      by_cases hcontinue : result.continues = true
      . have hhost (n : Nat) : runHost (handler :: handlers.take n) data = runHost (handlers.take n)
            (if result.error = none then result.data.getD data else data) := by
          rw [runHost, houtcome]
          simp [hcontinue]
        simp only [runSandboxed_continued houtcome hcontinue, hhost, hcontinue, true_implies]
        rw [← ih (result.data.getD data)]
        constructor
        . intro h
          have hdata : (if result.error = none then result.data.getD data else data) =
              result.data.getD data := by simpa [runHost] using (h 0).symm
          exact ⟨hdata, fun n => (h n).trans (by rw [hdata])⟩
        . rintro ⟨hdata, h⟩ n
          rw [h n, hdata]
      . have hstop : result.continues = false := Bool.eq_false_iff.mpr hcontinue
        have hhost (n : Nat) : runHost (handler :: handlers.take n) data =
            ⟨false, if result.error = none then result.data.getD data else data⟩ := by
          rw [runHost, houtcome]
          simp [hstop]
        simp only [runSandboxed_stopped houtcome hstop, hhost, hstop, ChainResult.mk.injEq, true_and]
        simp [eq_comm]

/-- A handler that reports an error next to the data it has changed. -/
def partialResult : Handler Nat := fun data =>
  .returned { continues := true, data := some (data + 1), error := some "half done".toList }

/-- The worker keeps the change that the host's chain discards. -/
theorem partialResult_kept :
    runSandboxed [partialResult] 0 = ⟨true, 1⟩ ∧ runHost [partialResult] 0 = ⟨true, 0⟩ ∧
      runSandboxed [partialResult] 0 ≠ runHost [partialResult] 0 := by
  decide

end OpenWA.Sandbox
