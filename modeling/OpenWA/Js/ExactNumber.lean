import Mathlib.Algebra.Order.Field.Rat
import Mathlib.Data.Rat.Floor
import Mathlib.Tactic.Linarith
import Mathlib.Tactic.NormNum

/-!
This module contains the numbers of the language, computed exactly but for a product that is too
large to be one.
-/

namespace OpenWA.Js

inductive ExactNumber where
  | nan
  | negInfinity
  | finite (r : Rat)
  | infinity
deriving DecidableEq

namespace ExactNumber

/-- `Number.isFinite` -/
def isFinite (x : ExactNumber) : Bool :=
  match x with
  | .finite _ => true
  | _ => false

/-- `x < y` -/
def lt (x y : ExactNumber) : Bool :=
  match x, y with
  | .finite a, .finite b => a < b
  | .negInfinity, .finite _ | .negInfinity, .infinity | .finite _, .infinity => true
  | _, _ => false

/-- `x >= y` -/
def ge (x y : ExactNumber) : Bool :=
  match x, y with
  | .nan, _ | _, .nan => false
  | x, y => !x.lt y

/-- `Math.max` -/
def max (x y : ExactNumber) : ExactNumber :=
  match x, y with
  | .nan, _ | _, .nan => .nan
  | x, y => if x.lt y then y else x

/-- `Math.min` -/
def min (x y : ExactNumber) : ExactNumber :=
  match x, y with
  | .nan, _ | _, .nan => .nan
  | x, y => if y.lt x then y else x

/-- `Math.floor` -/
def floor (x : ExactNumber) : ExactNumber :=
  match x with
  | .finite r => .finite ⌊r⌋
  | x => x

/-- The value of a product, which is infinite from `2 ^ 1024` on. -/
def ofProduct (r : Rat) : ExactNumber :=
  if 2 ^ 1024 ≤ r then .infinity
  else if r ≤ -2 ^ 1024 then .negInfinity
  else .finite r

def add (x y : ExactNumber) : ExactNumber :=
  match x, y with
  | .finite a, .finite b => .finite (a + b)
  | .nan, _ | _, .nan | .infinity, .negInfinity | .negInfinity, .infinity => .nan
  | .infinity, _ | _, .infinity => .infinity
  | .negInfinity, _ | _, .negInfinity => .negInfinity

def signed (positive : Bool) : ExactNumber := if positive then .infinity else .negInfinity

def mul (x y : ExactNumber) : ExactNumber :=
  match x, y with
  | .finite a, .finite b => ofProduct (a * b)
  | .nan, _ | _, .nan => .nan
  | .finite a, .infinity | .infinity, .finite a => if a = 0 then .nan else signed (0 < a)
  | .finite a, .negInfinity | .negInfinity, .finite a => if a = 0 then .nan else signed (a < 0)
  | .infinity, .infinity | .negInfinity, .negInfinity => .infinity
  | .infinity, .negInfinity | .negInfinity, .infinity => .negInfinity

/-- `Math.pow(2, n)` -/
def powTwo (n : Nat) : ExactNumber := ofProduct (2 ^ n)

theorem min_finite (a b : Rat) : min (.finite a) (.finite b) = .finite (Min.min a b) := by
  simp only [min, lt, decide_eq_true_eq]
  split
  . next h => rw [min_eq_right (le_of_lt h)]
  . next h => rw [min_eq_left (not_lt.mp h)]

theorem max_finite (a b : Rat) : max (.finite a) (.finite b) = .finite (Max.max a b) := by
  simp only [max, lt, decide_eq_true_eq]
  split
  . next h => rw [max_eq_right (le_of_lt h)]
  . next h => rw [max_eq_left (not_lt.mp h)]

theorem ge_finite (a b : Rat) : ge (.finite a) (.finite b) = decide (b ≤ a) := by
  simp only [ge, lt]
  rw [Bool.eq_iff_iff]
  simp

theorem ofProduct_of_lt {r : Rat} (h₀ : 0 ≤ r) (h : r < 2 ^ 1024) : ofProduct r = .finite r := by
  have hpos : (0 : Rat) < 2 ^ 1024 := by positivity
  have hneg : ¬ r ≤ -2 ^ 1024 := not_le.mpr ((neg_neg_of_pos hpos).trans_le h₀)
  rw [ofProduct, if_neg (not_le.mpr h), if_neg hneg]

theorem ofProduct_of_le {r : Rat} (h : 2 ^ 1024 ≤ r) : ofProduct r = .infinity := if_pos h

theorem mul_powTwo {a : Rat} (ha : 1 ≤ a) (n : Nat) :
    mul (.finite a) (powTwo n) = ofProduct (a * 2 ^ n) := by
  have hpow : (0 : Rat) < 2 ^ n := by positivity
  by_cases h : (2 : Rat) ^ 1024 ≤ 2 ^ n
  . have hprod : (2 : Rat) ^ 1024 ≤ a * 2 ^ n := h.trans (le_mul_of_one_le_left hpow.le ha)
    have ha₀ : (0 : Rat) < a := by linarith
    rw [powTwo, ofProduct_of_le h, ofProduct_of_le hprod]
    simp [mul, signed, ha₀, ha₀.ne']
  . rw [powTwo, ofProduct_of_lt hpow.le (not_le.mp h)]
    rfl

end ExactNumber
end OpenWA.Js
