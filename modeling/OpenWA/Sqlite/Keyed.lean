import Mathlib.Data.Option.Basic

/-!
This module contains tables whose rows are found and upserted by a key.
-/

namespace OpenWA.Sqlite.Keyed

variable {ρ κ : Type} [DecidableEq κ] (keyOf : ρ → κ)

def find (rows : List ρ) (k : κ) : Option ρ := rows.find? (keyOf · = k)

/-- The rows of the key are replaced, or the row is added. -/
def upsert (rows : List ρ) (row : ρ) : List ρ :=
  if (find keyOf rows (keyOf row)).isSome then
    rows.map fun r => if keyOf r = keyOf row then row else r
  else rows ++ [row]

variable {keyOf} {rows : List ρ} {row : ρ} {k : κ}

theorem key_of_find (h : find keyOf rows k = some row) : keyOf row = k := by
  simpa using List.find?_some h

theorem mem_of_find (h : find keyOf rows k = some row) : row ∈ rows := List.mem_of_find?_eq_some h

theorem find_of_mem (hnodup : (rows.map keyOf).Nodup) (h : row ∈ rows) :
    find keyOf rows (keyOf row) = some row := by
  induction rows with
  | nil => nomatch h
  | cons r rows ih =>
    rw [List.map_cons, List.nodup_cons] at hnodup
    rcases List.mem_cons.mp h with rfl | h
    . simp [find]
    . have hne : keyOf r ≠ keyOf row := fun heq => hnodup.1 (heq ▸ List.mem_map_of_mem h)
      rw [find, List.find?_cons_of_neg (by simpa using hne)]
      exact ih hnodup.2 h

theorem find_upsert :
    find keyOf (upsert keyOf rows row) k = if k = keyOf row then some row else find keyOf rows k := by
  unfold upsert
  split
  . next hsome =>
    have hkey : ∀ r, keyOf (if keyOf r = keyOf row then row else r) = keyOf r := by
      intro r
      split
      . next h => exact h.symm
      . rfl
    have hmap : find keyOf (rows.map fun r => if keyOf r = keyOf row then row else r) k =
        (find keyOf rows k).map fun r => if keyOf r = keyOf row then row else r := by
      simp [find, List.find?_map, Function.comp_def, hkey]
    rw [hmap]
    split
    . next hk =>
      subst hk
      obtain ⟨r, hr⟩ := Option.isSome_iff_exists.mp hsome
      simp [hr, key_of_find hr]
    . next hk =>
      cases hr : find keyOf rows k with
      | none => rfl
      | some r =>
        have hne : keyOf r ≠ keyOf row := fun h => hk ((key_of_find hr).symm.trans h)
        simp [hne]
  . next hnone =>
    rw [Bool.not_eq_true, Option.isSome_eq_false_iff, Option.isNone_iff_eq_none] at hnone
    have happend : find keyOf (rows ++ [row]) k = (find keyOf rows k).or (find keyOf [row] k) :=
      List.find?_append
    rw [happend]
    split
    . next hk =>
      subst hk
      rw [hnone]
      simp [find]
    . next hk =>
      have hne : keyOf row ≠ k := fun h => hk h.symm
      simp [find, hne]

end OpenWA.Sqlite.Keyed
