import OpenWA.Js.Map

/-!
This module contains periods of time in which a key is to stay quiet, kept in a map that drops the ones
that are over when it grows, and what the map says of the periods that were ever entered.
-/

namespace OpenWA.Concurrency

open Js

/-- A period of a key, which ends at `expiry`. -/
structure Period (κ : Type) where
  key : κ
  expiry : Nat
deriving DecidableEq

namespace QuietPeriods

variable {κ : Type} [DecidableEq κ]

/-- The map from the keys to the ends of their periods. -/
def quiet (m : Map κ Nat) (k : κ) (now : Nat) : Bool := (m.get? k).any (now < ·)

def sweep (m : Map κ Nat) (now : Nat) : Map κ Nat := m.keep (now < ·)

/-- From `threshold` entries on, the periods that are over at `now` make room for the new one. -/
def enter (threshold : Nat) (m : Map κ Nat) (now : Nat) (p : Period κ) : Map κ Nat :=
  (if m.size ≥ threshold then sweep m now else m).set p.key p.expiry

/-- From `now` on, the map says of each key whether one of the periods in the log covers the time. -/
def Mirrors (m : Map κ Nat) (log : List (Period κ)) (now : Nat) : Prop :=
  ∀ k t, now ≤ t → (quiet m k t = true ↔ ∃ p ∈ log, p.key = k ∧ t < p.expiry)

variable {m : Map κ Nat} {log : List (Period κ)} {now t : Nat} {p : Period κ}

theorem mirrors_empty (now : Nat) : Mirrors (.empty : Map κ Nat) [] now := by
  intro k t _
  simp [quiet]

theorem Mirrors.later (h : Mirrors m log now) (hle : now ≤ t) : Mirrors m log t :=
  fun k u hu => h k u (Nat.le_trans hle hu)

theorem Mirrors.not_quiet_iff (h : Mirrors m log now) (k : κ) :
    quiet m k now = false ↔ ∀ p ∈ log, p.key = k → p.expiry ≤ now := by
  rw [← Bool.not_eq_true, h k now (Nat.le_refl now)]
  simp only [not_exists, not_and, Nat.not_lt]

theorem quiet_sweep (k : κ) (hle : now ≤ t) : quiet (sweep m now) k t = quiet m k t := by
  unfold quiet sweep
  rw [Map.get?_keep]
  cases m.get? k with
  | none => rfl
  | some expiry =>
    by_cases hlt : now < expiry
    . simp [Option.filter, hlt]
    . have hnot : ¬t < expiry := fun h => hlt (Nat.lt_of_le_of_lt hle h)
      simp [Option.filter, hlt, hnot]

/-- Dropping the periods that are over changes no answer about the time from then on. -/
theorem Mirrors.sweep (h : Mirrors m log now) : Mirrors (sweep m now) log now := by
  intro k t ht
  rw [quiet_sweep k ht]
  exact h k t ht

/-- A period is entered after the earlier ones of its key. -/
theorem Mirrors.enter {threshold : Nat} (h : Mirrors m log now)
    (hover : ∀ q ∈ log, q.key = p.key → q.expiry ≤ now) :
    Mirrors (enter threshold m now p) (log ++ [p]) now := by
  have hkept : Mirrors (if m.size ≥ threshold then QuietPeriods.sweep m now else m) log now := by
    split
    . exact h.sweep
    . exact h
  intro k t ht
  have hsplit : (∃ q ∈ log ++ [p], q.key = k ∧ t < q.expiry) ↔
      (∃ q ∈ log, q.key = k ∧ t < q.expiry) ∨ p.key = k ∧ t < p.expiry := by
    simp only [List.mem_append, List.mem_singleton, or_and_right, exists_or, exists_eq_left]
  rw [hsplit]
  by_cases hk : k = p.key
  . subst hk
    have hnone : ¬∃ q ∈ log, q.key = p.key ∧ t < q.expiry := by
      rintro ⟨q, hq, hkey, hlt⟩
      exact Nat.not_lt.mpr (Nat.le_trans (hover q hq hkey) ht) hlt
    simp [quiet, QuietPeriods.enter, hnone]
  . have hne : p.key ≠ k := fun heq => hk heq.symm
    have hsame : quiet (QuietPeriods.enter threshold m now p) k t =
        quiet (if m.size ≥ threshold then QuietPeriods.sweep m now else m) k t := by
      simp [quiet, QuietPeriods.enter, hk]
    rw [hsame, hkept k t ht]
    simp [hne]

end QuietPeriods
end OpenWA.Concurrency
