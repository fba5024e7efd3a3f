import Mathlib.Data.List.Basic

/-!
This module contains writes that may be run again over a value which reflects some of them already.
-/

namespace OpenWA.Concurrency

variable {V : Type}

/-- The writes in the order of their issue. -/
def runAll (ws : List (V → V)) (x : V) : V := ws.foldl (fun x w => w x) x

theorem runAll_append (ws ws' : List (V → V)) (x : V) : runAll (ws ++ ws') x = runAll ws' (runAll ws x) :=
  List.foldl_append

theorem runAll_concat (ws : List (V → V)) (w : V → V) (x : V) : runAll (ws ++ [w]) x = w (runAll ws x) :=
  runAll_append ws [w] x

/-- `x` is what the writes made of some value, or what was loaded over that. -/
def Reflects (loads : (Option V → V) → Prop) (ws : List (V → V)) (x : V) : Prop :=
  ∃ y, x = runAll ws y ∨ ∃ load, loads load ∧ x = load (some (runAll ws y))

/-- To run a sequence over a value that reflects a prefix of it is to run it once. -/
def Replayable (writes : (V → V) → Prop) (loads : (Option V → V) → Prop) : Prop :=
  ∀ ws ws' x, (∀ w ∈ ws ++ ws', writes w) → Reflects loads ws x → runAll (ws ++ ws') x = runAll ws' x

variable {writes : (V → V) → Prop} {loads : (Option V → V) → Prop}

theorem Replayable.over_run (h : Replayable writes loads) {ws ws' : List (V → V)} (hws : ∀ w ∈ ws ++ ws', writes w)
    (y : V) : runAll (ws ++ ws') (runAll ws y) = runAll ws' (runAll ws y) :=
  h ws ws' _ hws ⟨y, .inl rfl⟩

theorem Replayable.over_load (h : Replayable writes loads) {ws ws' : List (V → V)} (hws : ∀ w ∈ ws ++ ws', writes w)
    {load : Option V → V} (hload : loads load) (y : V) :
    runAll (ws ++ ws') (load (some (runAll ws y))) = runAll ws' (load (some (runAll ws y))) :=
  h ws ws' _ hws ⟨y, .inr ⟨load, hload, rfl⟩⟩

theorem Replayable.twice (h : Replayable writes loads) {ws : List (V → V)} (hws : ∀ w ∈ ws, writes w) (y : V) :
    runAll ws (runAll ws y) = runAll ws y := by
  have hrun : runAll (ws ++ []) (runAll ws y) = runAll [] (runAll ws y) :=
    h.over_run (by rwa [List.append_nil]) y
  rw [List.append_nil] at hrun
  exact hrun

end OpenWA.Concurrency
