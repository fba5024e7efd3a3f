import OpenWA.Auth.AuthService

/-!
This module contains the last-admin invariant over every interleaving of key requests, and the
unguarded statement that breaks it.
-/

namespace OpenWA.Auth

open Js Async

variable {guardNow : Nat} {s s' : State} {i : Nat}

/-- Some key can still manage the keys. -/
def HasUsableAdmin (guardNow : Nat) (apiKeys : List ApiKey) : Prop :=
  ∃ key ∈ apiKeys, usableAdmin guardNow key = true

instance (guardNow : Nat) (apiKeys : List ApiKey) : Decidable (HasUsableAdmin guardNow apiKeys) :=
  inferInstanceAs (Decidable (∃ key ∈ apiKeys, usableAdmin guardNow key = true))

/--
An unguarded statement that strips its row still finds the row as it was read: without the role that
the guard is for.
-/
def RoleCurrent (s : State) (event : Event) : Prop :=
  match event with
  | .receive _ => True
  | .step i =>
    match s.tasks[i]? with
    | some ⟨request, .write before⟩ =>
      request.strips = true → request.guarded before = false →
        ∀ key ∈ s.apiKeys, key.id = request.keyId → key.role ≠ .admin
    | some ⟨_, .findOne⟩ | some ⟨_, .assertMutationApplied _ _⟩ | some ⟨_, .reread _⟩
    | some ⟨_, .done _⟩ | none => True

instance (s : State) (event : Event) : Decidable (RoleCurrent s event) := by
  unfold RoleCurrent
  split
  . infer_instance
  . split <;> infer_instance

section Patches

theorem usableAdmin_updatePatch {dto : UpdateApiKeyDto} {key : ApiKey}
    (hstrips : removesOrSchedulesLastAdmin dto = false) (h : usableAdmin guardNow key = true) :
    usableAdmin guardNow ((updatePatch dto).apply key) = true := by
  simp only [removesOrSchedulesLastAdmin, Bool.or_eq_false_iff, Bool.and_eq_false_iff,
    decide_eq_false_iff_not, ne_eq, not_not, Option.isSome_eq_false_iff,
    Option.isNone_iff_eq_none] at hstrips
  rcases hstrips with ⟨⟨hrole, hexpires⟩, hsessions⟩
  simp only [usableAdmin, Bool.and_eq_true, decide_eq_true_eq] at h ⊢
  rcases h with ⟨⟨⟨hadmin, hactive⟩, hunexpired⟩, hunscoped⟩
  refine ⟨⟨⟨?_, ?_⟩, ?_⟩, ?_⟩
  . rcases hrole with hrole | hrole <;> simp [Patch.apply, updatePatch, hrole, Field.toOption, hadmin]
  . exact hactive
  . rcases hexpires with hexpires | hexpires <;>
      simp [Patch.apply, updatePatch, hexpires, Field.toOption, hunexpired]
  . simp only [Patch.apply, updatePatch, hsessions]
    split
    . exact hunscoped
    . rfl

end Patches

section Statements

variable {apiKeys : List ApiKey} {touched : ApiKey → Bool}

theorem HasUsableAdmin.updateRows {key : ApiKey} (hmem : key ∈ apiKeys)
    (husable : usableAdmin guardNow key = true) {patch : Patch}
    (h : touched key = true → usableAdmin guardNow (patch.apply key) = true) :
    HasUsableAdmin guardNow (updateRows apiKeys touched patch) := by
  refine ⟨if touched key then patch.apply key else key, List.mem_map.mpr ⟨key, hmem, rfl⟩, ?_⟩
  split
  . next htouched => exact h htouched
  . exact husable

theorem HasUsableAdmin.filter {key : ApiKey} (hmem : key ∈ apiKeys)
    (husable : usableAdmin guardNow key = true) (h : touched key = false) :
    HasUsableAdmin guardNow (apiKeys.filter fun key => !touched key) :=
  ⟨key, List.mem_filter.mpr ⟨hmem, by simp [h]⟩, husable⟩

/-- Some usable admin is not touched by a stripping statement, guarded or on a row without the role. -/
theorem untouched_of_strips {request : Request} {before : ApiKey}
    (hcurrent : request.guarded before = false →
      ∀ key ∈ apiKeys, key.id = request.keyId → key.role ≠ .admin)
    (h : HasUsableAdmin guardNow apiKeys) :
    ∃ key ∈ apiKeys, usableAdmin guardNow key = true ∧
      target guardNow apiKeys request before key = false := by
  rcases h with ⟨key, hmem, husable⟩
  have hadmin : key.role = .admin := by
    simp only [usableAdmin, Bool.and_eq_true, decide_eq_true_eq] at husable
    exact husable.1.1.1
  unfold target
  cases hguarded : request.guarded before with
  | false =>
    have hid : key.id ≠ request.keyId := fun hid => hcurrent hguarded key hmem hid hadmin
    exact ⟨key, hmem, husable, by simpa using hid⟩
  | true =>
    simp only [if_true]
    by_cases htouched : withLastAdminGuard guardNow apiKeys request.keyId key = true
    . -- the guard has found another usable admin
      simp only [withLastAdminGuard, husable, Bool.not_true, Bool.false_or, Bool.and_eq_true,
        List.any_eq_true, decide_eq_true_eq] at htouched
      rcases htouched.2 with ⟨other, hother, hid, hotherUsable⟩
      refine ⟨other, hother, hotherUsable, ?_⟩
      unfold withLastAdminGuard
      simp [hid]
    . exact ⟨key, hmem, husable, by simpa using htouched⟩

theorem HasUsableAdmin.write {task : Task} {before : ApiKey}
    (hcurrent : task.request.strips = true → task.request.guarded before = false →
      ∀ key ∈ s.apiKeys, key.id = task.request.keyId → key.role ≠ .admin)
    (h : HasUsableAdmin guardNow s.apiKeys) :
    HasUsableAdmin guardNow (s.write guardNow i task before).apiKeys := by
  unfold State.write
  cases hrequest : task.request with
  | update id dto =>
    rw [hrequest] at hcurrent
    have hwritten : HasUsableAdmin guardNow (Auth.updateRows s.apiKeys
        (target guardNow s.apiKeys (.update id dto) before) (updatePatch dto)) := by
      cases hstrips : removesOrSchedulesLastAdmin dto with
      | false =>
        rcases h with ⟨key, hmem, husable⟩
        exact .updateRows hmem husable fun _ => usableAdmin_updatePatch hstrips husable
      | true =>
        rcases untouched_of_strips (hcurrent hstrips) h with ⟨key, hmem, husable, htouched⟩
        exact .updateRows hmem husable fun h => absurd h (by simp [htouched])
    exact hwritten
  | revoke id =>
    rw [hrequest] at hcurrent
    rcases untouched_of_strips (hcurrent rfl) h with ⟨key, hmem, husable, htouched⟩
    exact HasUsableAdmin.updateRows hmem husable fun h => absurd h (by simp [htouched])
  | delete id =>
    rw [hrequest] at hcurrent
    rcases untouched_of_strips (hcurrent rfl) h with ⟨key, hmem, husable, htouched⟩
    have hwritten := HasUsableAdmin.filter hmem husable htouched
    dsimp only
    split
    . unfold State.complete
      rw [hrequest]
      exact hwritten
    . exact hwritten
  | createApiKey newId dto =>
    rcases h with ⟨key, hmem, husable⟩
    exact ⟨key, List.mem_append_left _ hmem, husable⟩

end Statements

theorem apiKeys_complete (task : Task) (before saved : ApiKey) :
    (s.complete i task before saved).apiKeys = s.apiKeys := by
  unfold State.complete
  split
  . dsimp only
    split <;> rfl
  all_goals rfl

theorem apiKeys_step (hstep : s.step guardNow i = some s') :
    s'.apiKeys = s.apiKeys ∨ ∃ task before, s.tasks[i]? = some task ∧
      (task.phase = .write before ∨ task.request.strips = false) ∧
      s' = s.write guardNow i task before := by
  unfold State.step at hstep
  split at hstep
  . contradiction
  . next task htask =>
    split at hstep
    . split at hstep
      . next newId dto hrequest =>
        split at hstep
        . contradiction
        . simp only [Option.some.injEq] at hstep
          exact .inr ⟨task, _, htask, .inr (by rw [hrequest]; rfl), hstep.symm⟩
      all_goals
        split at hstep
        all_goals
          simp only [Option.some.injEq] at hstep
          subst hstep
          exact .inl rfl
    . next before hphase =>
      simp only [Option.some.injEq] at hstep
      exact .inr ⟨task, before, htask, .inl hphase, hstep.symm⟩
    . split at hstep
      . simp only [Option.some.injEq] at hstep
        subst hstep
        exact .inl rfl
      . split at hstep
        all_goals
          simp only [Option.some.injEq] at hstep
          subst hstep
          exact .inl rfl
    . split at hstep
      . simp only [Option.some.injEq] at hstep
        subst hstep
        exact .inl rfl
      . simp only [Option.some.injEq] at hstep
        subst hstep
        exact .inl (apiKeys_complete _ _ _)
    . contradiction

theorem HasUsableAdmin.step {event : Event} (h : HasUsableAdmin guardNow s.apiKeys)
    (hcurrent : RoleCurrent s event) (hstep : (machine guardNow).step s event = some s') :
    HasUsableAdmin guardNow s'.apiKeys := by
  cases event with
  | receive request =>
    simp only [machine, Option.some.injEq] at hstep
    subst hstep
    exact h
  | step i =>
    rcases apiKeys_step hstep with heq | ⟨task, before, htask, hphase, rfl⟩
    . rw [heq]
      exact h
    . apply HasUsableAdmin.write _ h
      intro hstrips hguarded
      rcases hphase with hphase | hphase
      . unfold RoleCurrent at hcurrent
        rcases task with ⟨request, phase⟩
        dsimp only at hphase hstrips hguarded
        subst hphase
        simp only [htask] at hcurrent
        exact hcurrent hstrips hguarded
      . rw [hphase] at hstrips
        contradiction

/--
From a table with a usable admin, no run loses the last one in which each unguarded stripping
statement finds its row without the admin role.
-/
theorem hasUsableAdmin_of_reach (guardNow : Nat) (init s : State)
    (hinit : HasUsableAdmin guardNow init.apiKeys)
    (hreach : (machine guardNow).Reach RoleCurrent init s) : HasUsableAdmin guardNow s.apiKeys :=
  hreach.invariant (P := fun s => HasUsableAdmin guardNow s.apiKeys) hinit
    fun _ _ _ h hok hstep => h.step hok hstep

section Sample

def sampleKey (id : Text) (role : ApiKeyRole) : ApiKey where
  id := id
  name := "key".toList
  role := role
  allowedIps := none
  allowedSessions := none
  isActive := true
  expiresAt := none

def sampleTable : State where
  apiKeys := [sampleKey ['a'] .admin, sampleKey ['b'] .operator]
  tasks := []
  evicted := []

def setRole (role : ApiKeyRole) : UpdateApiKeyDto :=
  ⟨.undefined, .value role, .undefined, .undefined, .undefined⟩

/-- The operator is promoted, then both admins are demoted at once: one of the two is refused. -/
def guardedRun : List Event :=
  [.receive (.update ['b'] (setRole .admin)), .step 0, .step 0, .step 0,
    .receive (.update ['a'] (setRole .viewer)), .receive (.update ['b'] (setRole .viewer)),
    .step 1, .step 2, .step 1, .step 2, .step 1, .step 2]

theorem hasUsableAdmin_of_reach_sample :
    ∃ s, (machine 0).Reach RoleCurrent sampleTable s ∧
      s.tasks.map (·.phase) = [.done (.saved (sampleKey ['b'] .admin)),
        .done (.saved (sampleKey ['a'] .viewer)), .done .conflict] ∧
      HasUsableAdmin 0 s.apiKeys := by
  have hrun : ((machine 0).exec RoleCurrent sampleTable guardedRun).map (fun s =>
      s.tasks.map (·.phase)) = some [.done (.saved (sampleKey ['b'] .admin)),
        .done (.saved (sampleKey ['a'] .viewer)), .done .conflict] := by decide +kernel
  rcases Machine.reach_of_exec_map hrun with ⟨s, hreach, hvalues⟩
  exact ⟨s, hreach, hvalues, hasUsableAdmin_of_reach 0 sampleTable s (by decide) hreach⟩

/-- `delete` reads an operator, which is promoted before the row is removed. -/
def promotedRun : List Event :=
  [.receive (.delete ['b']), .step 0, .receive (.update ['b'] (setRole .admin)), .step 1, .step 1,
    .step 1, .receive (.delete ['a']), .step 2, .step 2, .step 0]

theorem promoted_delete_strands :
    HasUsableAdmin 0 sampleTable.apiKeys ∧
      ∃ s, (machine 0).Reach Machine.anyStep sampleTable s ∧ s.apiKeys = [] ∧
        ¬ HasUsableAdmin 0 s.apiKeys := by
  have hrun : ((machine 0).exec Machine.anyStep sampleTable promotedRun).map State.apiKeys =
      some [] := by decide +kernel
  rcases Machine.reach_of_exec_map hrun with ⟨s, hreach, hvalues⟩
  exact ⟨by decide, s, hreach, hvalues, by simp [HasUsableAdmin, hvalues]⟩

end Sample
end OpenWA.Auth
