import Mathlib.Logic.Basic

/-!
This module contains state machines that take one event after the other, with their runs and the
induction over these.
-/

namespace OpenWA.Async

/-- What an event makes of a state, if it can happen there. -/
structure Machine (σ ν : Type) where
  step : σ → ν → Option σ

namespace Machine

variable {σ ν : Type} (m : Machine σ ν)

/-- The states that steps which satisfy `ok` reach from `init`. -/
inductive Reach (ok : σ → ν → Prop) (init : σ) : σ → Prop where
  | init : Reach ok init init
  | step {s s' : σ} {v : ν} (h : Reach ok init s) (hok : ok s v) (hstep : m.step s v = some s') :
      Reach ok init s'

/-- The assumption that admits every step. -/
def anyStep (_s : σ) (_v : ν) : Prop := True

instance (s : σ) (v : ν) : Decidable (anyStep s v) := inferInstanceAs (Decidable True)

/-- Take the events in order as long as they satisfy `ok`. -/
def exec (ok : σ → ν → Prop) [∀ s v, Decidable (ok s v)] (s : σ) (vs : List ν) : Option σ :=
  match vs with
  | [] => some s
  | v :: vs =>
    if ok s v then
      match m.step s v with
      | some s' => exec ok s' vs
      | none => none
    else none

variable {m} {ok ok' : σ → ν → Prop} {init s s' : σ}

/-- An invariant that every admitted step keeps holds in every state of a run. -/
theorem Reach.invariant {P : σ → Prop} (hinit : P init)
    (hstep : ∀ s v s', P s → ok s v → m.step s v = some s' → P s') (h : m.Reach ok init s) : P s := by
  induction h with
  | init => exact hinit
  | step _ hok hs ih => exact hstep _ _ _ ih hok hs

theorem Reach.trans (h : m.Reach ok init s) (h' : m.Reach ok s s') : m.Reach ok init s' := by
  induction h' with
  | init => exact h
  | step _ hok hs ih => exact .step ih hok hs

theorem reach_of_exec [∀ s v, Decidable (ok s v)] {vs : List ν} (h : m.exec ok s vs = some s') :
    m.Reach ok s s' := by
  induction vs generalizing s with
  | nil =>
    simp only [exec, Option.some.injEq] at h
    exact h ▸ .init
  | cons v vs ih =>
    simp only [exec] at h
    split at h
    . next hok =>
      split at h
      . next s₁ hs => exact Reach.trans (.step .init hok hs) (ih h)
      . contradiction
    . contradiction

theorem reach_of_exec_map [∀ s v, Decidable (ok s v)] {vs : List ν} {β : Type} {f : σ → β} {b : β}
    (h : (m.exec ok s vs).map f = some b) : ∃ s', m.Reach ok s s' ∧ f s' = b := by
  rw [Option.map_eq_some_iff] at h
  rcases h with ⟨s', hexec, hf⟩
  exact ⟨s', reach_of_exec hexec, hf⟩

end Machine
end OpenWA.Async
