import Mathlib.Data.List.Induction
import Mathlib.Data.List.Nodup

/-!
This module contains what holds of the entries of a log, each one judged by those before it.
-/

namespace OpenWA.Async

variable {ε : Type} {ok : List ε → ε → Prop} {log : List ε} {e : ε}

/-- Every entry of the log is in order after the ones before it. -/
def EachAfter (ok : List ε → ε → Prop) (log : List ε) : Prop :=
  ∀ before e after, log = before ++ e :: after → ok before e

theorem eachAfter_nil : EachAfter ok [] := by
  intro before e after h
  simp at h

theorem EachAfter.concat (h : EachAfter ok log) (he : ok log e) : EachAfter ok (log ++ [e]) := by
  intro before x after heq
  cases after using List.reverseRecOn with
  | nil =>
    rcases List.append_inj' heq rfl with ⟨rfl, hx⟩
    rw [List.cons.injEq] at hx
    exact hx.1 ▸ he
  | append_singleton after y =>
    rw [← List.cons_append, ← List.append_assoc] at heq
    exact h before x after (List.append_inj' heq rfl).1

theorem eachAfter_concat_iff : EachAfter ok (log ++ [e]) ↔ EachAfter ok log ∧ ok log e := by
  constructor
  . intro h
    constructor
    . intro before x after heq
      exact h before x (after ++ [e]) (by simp [heq])
    . exact h log e [] rfl
  . rintro ⟨h, he⟩
    exact h.concat he

theorem EachAfter.of_mem (h : EachAfter ok log) (he : e ∈ log) : ∃ before, ok before e := by
  rcases List.append_of_mem he with ⟨before, after, heq⟩
  exact ⟨before, h before e after heq⟩

/-- What is judged by the absence of its key so far has its keys once. -/
theorem EachAfter.nodup_filterMap {κ : Type} {key : ε → Option κ} (h : EachAfter ok log)
    (hok : ∀ before e k, ok before e → key e = some k → k ∉ before.filterMap key) :
    (log.filterMap key).Nodup := by
  induction log using List.reverseRecOn with
  | nil => exact List.nodup_nil
  | append_singleton log e ih =>
    rcases eachAfter_concat_iff.mp h with ⟨hlog, he⟩
    rw [List.filterMap_append]
    cases hkey : key e with
    | none => simpa [hkey] using ih hlog
    | some k =>
      rw [List.filterMap_cons_some hkey, List.filterMap_nil, ← List.concat_eq_append,
        List.nodup_concat]
      exact ⟨hok log e k he hkey, ih hlog⟩

end OpenWA.Async
