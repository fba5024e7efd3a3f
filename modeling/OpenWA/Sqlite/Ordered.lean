import Mathlib.Data.List.Sort

/-!
This module contains the order in which a query returns its rows, which is the same for a part of them.
-/

namespace OpenWA.Sqlite

variable {ρ : Type} (time : ρ → Int)

/-- The newest rows first, those of one time in the order of the table. -/
def newestFirst (rows : List ρ) : List ρ := rows.mergeSort fun a b => time b ≤ time a

theorem newest_trans (a b c : ρ) (hab : decide (time b ≤ time a) = true)
    (hbc : decide (time c ≤ time b) = true) : decide (time c ≤ time a) = true := by
  simp only [decide_eq_true_eq] at *
  omega

theorem newest_total (a b : ρ) : (decide (time b ≤ time a) || decide (time a ≤ time b)) = true := by
  simp only [Bool.or_eq_true, decide_eq_true_eq]
  omega

theorem pairwise_newestFirst (rows : List ρ) : (newestFirst time rows).Pairwise fun a b => time b ≤ time a := by
  have hsorted := List.pairwise_mergeSort (newest_trans time) (newest_total time) rows
  exact hsorted.imp of_decide_eq_true

theorem newestFirst_of_pairwise {rows : List ρ} (h : rows.Pairwise fun a b => time b ≤ time a) :
    newestFirst time rows = rows :=
  List.mergeSort_of_pairwise (h.imp decide_eq_true)

/-- The first row of the table comes after the newer ones and before all others. -/
theorem newestFirst_cons (row : ρ) (rows : List ρ) :
    let newer := (newestFirst time rows).filter fun r => time row < time r
    let older := (newestFirst time rows).filter fun r => ¬ time row < time r
    newestFirst time (row :: rows) = newer ++ row :: older ∧ newestFirst time rows = newer ++ older := by
  intro newer' older'
  rcases List.mergeSort_cons (newest_trans time) (newest_total time) row rows with
    ⟨newer, older, hcons, hrows, hnewer⟩
  have hrows' : newestFirst time rows = newer ++ older := hrows
  have hnew : ∀ r ∈ newer, time row < time r := by
    intro r hr
    simpa using hnewer r hr
  have hold : ∀ r ∈ older, ¬ time row < time r := by
    have hsorted : (newer ++ row :: older).Pairwise fun a b => time b ≤ time a :=
      hcons ▸ pairwise_newestFirst time (row :: rows)
    intro r hr
    exact not_lt.mpr (List.rel_of_pairwise_cons (List.pairwise_append.mp hsorted).2.1 hr)
  have hleft : newer' = newer := by
    change (newestFirst time rows).filter _ = newer
    rw [hrows', List.filter_append, List.filter_eq_self.mpr (by simpa using hnew),
      List.filter_eq_nil_iff.mpr (by simpa using hold), List.append_nil]
  have hright : older' = older := by
    change (newestFirst time rows).filter _ = older
    rw [hrows', List.filter_append, List.filter_eq_nil_iff.mpr (by simpa using hnew),
      List.filter_eq_self.mpr (by simpa using hold), List.nil_append]
  rw [hleft, hright]
  exact ⟨hcons, hrows'⟩

/-- The rows of a condition come in the order they have among all. -/
theorem newestFirst_filter (p : ρ → Bool) (rows : List ρ) :
    newestFirst time (rows.filter p) = (newestFirst time rows).filter p := by
  induction rows with
  | nil => simp [newestFirst]
  | cons row rows ih =>
    have hswap (q : ρ → Bool) : ((newestFirst time rows).filter q).filter p =
        (newestFirst time (rows.filter p)).filter q := by rw [ih, List.filter_comm]
    rw [(newestFirst_cons time row rows).1, List.filter_append, List.filter_cons, List.filter_cons, hswap, hswap]
    split
    . exact (newestFirst_cons time row _).1
    . exact (newestFirst_cons time row _).2

end OpenWA.Sqlite
