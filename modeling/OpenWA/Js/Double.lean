import OpenWA.Js.ExactNumber
import OpenWA.Js.Text
import Mathlib.Algebra.Order.Field.Power
import Mathlib.Tactic.FieldSimp
import Mathlib.Tactic.Positivity
import Mathlib.Tactic.Ring

/-!
This module contains the rounding of exact values to doubles, and the numbers that `Number` reads from
a text.
-/

namespace OpenWA.Js

section Rounding

/-- The nearest integer, ties to even. -/
def roundHalfEven (x : Rat) : Int :=
  if x - ⌊x⌋ < 1 / 2 then ⌊x⌋
  else if 1 / 2 < x - ⌊x⌋ then ⌊x⌋ + 1
  else ⌊x⌋ + ⌊x⌋ % 2

/-- The exponent of the power of two at or below a positive value. -/
def binade (q : Rat) : Int :=
  let e := (q.num.toNat.log2 : Int) - q.den.log2
  if 2 ^ e ≤ q then e else e - 1

/-- The distance of the doubles around a positive value; below `2 ^ -1022` it stays the same. -/
def ulp (q : Rat) : Rat := 2 ^ (max (binade q) (-1022) - 52)

def roundPositive (q : Rat) : Rat := roundHalfEven (q / ulp q) * ulp q

def nearestPositive (q : Rat) : ExactNumber :=
  if 2 ^ 1024 ≤ roundPositive q then .infinity else .finite (roundPositive q)

def ExactNumber.neg (x : ExactNumber) : ExactNumber :=
  match x with
  | .nan => .nan
  | .negInfinity => .infinity
  | .finite r => .finite (-r)
  | .infinity => .negInfinity

/-- The double next to a value, ties to even. -/
def nearestDouble (r : Rat) : ExactNumber :=
  if r = 0 then .finite 0
  else if 0 < r then nearestPositive r
  else (nearestPositive (-r)).neg

theorem roundHalfEven_intCast (n : Int) : roundHalfEven n = n := by
  simp [roundHalfEven]

theorem floor_le_roundHalfEven (x : Rat) : ⌊x⌋ ≤ roundHalfEven x := by
  have hparity := Int.emod_nonneg ⌊x⌋ (by omega : (2 : Int) ≠ 0)
  unfold roundHalfEven
  split
  . omega
  . split <;> omega

theorem binade_spec {q : Rat} (h : 0 < q) :
    (2 : Rat) ^ binade q ≤ q ∧ q < (2 : Rat) ^ (binade q + 1) := by
  have hnum : 0 < q.num := Rat.num_pos.mpr h
  have hn : ((q.num.toNat : Nat) : Rat) = q.num := by
    exact_mod_cast congrArg (fun z : Int => (z : Rat)) (Int.toNat_of_nonneg hnum.le)
  have hq : q = (q.num.toNat : Rat) / (q.den : Rat) := by
    rw [hn]
    exact (Rat.num_div_den q).symm
  have hden : (0 : Rat) < q.den := by exact_mod_cast q.den_pos
  have htop₁ : (2 : Rat) ^ q.num.toNat.log2 ≤ q.num.toNat := by
    exact_mod_cast Nat.log2_self_le (by omega)
  have htop₂ : (q.num.toNat : Rat) < 2 ^ q.num.toNat.log2 * 2 := by
    exact_mod_cast Nat.lt_log2_self
  have hbot₁ : (2 : Rat) ^ q.den.log2 ≤ q.den := by exact_mod_cast Nat.log2_self_le q.den_nz
  have hbot₂ : (q.den : Rat) < 2 ^ q.den.log2 * 2 := by exact_mod_cast Nat.lt_log2_self
  have hpow : (2 : Rat) ^ ((q.num.toNat.log2 : Int) - q.den.log2) =
      2 ^ q.num.toNat.log2 / 2 ^ q.den.log2 := by
    rw [zpow_sub₀ (by norm_num), zpow_natCast, zpow_natCast]
  have hx : (0 : Rat) < 2 ^ q.num.toNat.log2 := by positivity
  have hy : (0 : Rat) < 2 ^ q.den.log2 := by positivity
  have hupper : q < (2 : Rat) ^ ((q.num.toNat.log2 : Int) - q.den.log2 + 1) := by
    rw [zpow_add_one₀ (by norm_num), hpow]
    conv_lhs => rw [hq]
    rw [div_mul_eq_mul_div, div_lt_div_iff₀ hden hy]
    calc (q.num.toNat : Rat) * 2 ^ q.den.log2 < 2 ^ q.num.toNat.log2 * 2 * 2 ^ q.den.log2 :=
          mul_lt_mul_of_pos_right htop₂ hy
      _ ≤ 2 ^ q.num.toNat.log2 * 2 * q.den := by gcongr
  have hlower : (2 : Rat) ^ ((q.num.toNat.log2 : Int) - q.den.log2 - 1) ≤ q := by
    rw [zpow_sub_one₀ (by norm_num), hpow, ← div_eq_mul_inv]
    conv_rhs => rw [hq]
    rw [div_div, div_le_div_iff₀ (by positivity) hden]
    calc (2 : Rat) ^ q.num.toNat.log2 * q.den ≤ q.num.toNat * q.den := by gcongr
      _ ≤ q.num.toNat * (2 ^ q.den.log2 * 2) := by gcongr
  unfold binade
  dsimp only
  split
  . next hle => exact ⟨hle, hupper⟩
  . next hlt =>
    rw [sub_add_cancel]
    exact ⟨hlower, not_le.mp hlt⟩

theorem binade_eq {q : Rat} {e : Int} (h₁ : (2 : Rat) ^ e ≤ q) (h₂ : q < (2 : Rat) ^ (e + 1)) :
    binade q = e := by
  have hpos : (0 : Rat) < q := lt_of_lt_of_le (zpow_pos (by norm_num) e) h₁
  have hspec := binade_spec hpos
  have hlt₁ := (zpow_lt_zpow_iff_right₀ (by norm_num : (1 : Rat) < 2)).mp
    (lt_of_le_of_lt hspec.1 h₂)
  have hlt₂ := (zpow_lt_zpow_iff_right₀ (by norm_num : (1 : Rat) < 2)).mp
    (lt_of_le_of_lt h₁ hspec.2)
  omega

theorem ulp_pos (q : Rat) : 0 < ulp q := zpow_pos (by norm_num) _

theorem binade_natCast {n : Nat} (h : n ≠ 0) : binade n = n.log2 := by
  apply binade_eq
  . rw [zpow_natCast]
    exact_mod_cast Nat.log2_self_le h
  . rw [show ((n.log2 : Int) + 1) = ((n.log2 + 1 : Nat) : Int) by simp, zpow_natCast]
    exact_mod_cast Nat.lt_log2_self

/-- The integers up to `2 ^ 53` are doubles. -/
theorem roundPositive_natCast {n : Nat} (h : n ≠ 0) (hn : n < 2 ^ 53) :
    roundPositive n = n := by
  have hlog : n.log2 ≤ 52 := by
    have hlt := (Nat.log2_lt h).mpr hn
    omega
  have hulp : ulp n = ((2 : Rat) ^ (52 - n.log2))⁻¹ := by
    rw [ulp, binade_natCast h, show max (n.log2 : Int) (-1022) - 52 = -((52 - n.log2 : Nat) : Int) by
      omega, zpow_neg, zpow_natCast]
  have hquot : (n : Rat) / ulp n = ((n * 2 ^ (52 - n.log2) : Nat) : Int) := by
    rw [hulp, div_inv_eq_mul]
    push_cast
    rfl
  rw [roundPositive, hquot, roundHalfEven_intCast, ← hquot, div_mul_cancel₀ _ (ulp_pos _).ne']

theorem le_roundPositive_natCast {n : Nat} (hn : 2 ^ 53 ≤ n) :
    (2 : Rat) ^ 53 ≤ roundPositive n := by
  have h : n ≠ 0 := by omega
  have hlog : 53 ≤ n.log2 := (Nat.le_log2 h).mpr hn
  have hulp : ulp n = 2 ^ (n.log2 - 52) := by
    rw [ulp, binade_natCast h, show max (n.log2 : Int) (-1022) - 52 = ((n.log2 - 52 : Nat) : Int) by
      omega, zpow_natCast]
  have hle : (2 : Rat) ^ n.log2 ≤ n := by exact_mod_cast Nat.log2_self_le h
  have hsplit : (2 : Rat) ^ n.log2 = 2 ^ 52 * 2 ^ (n.log2 - 52) := by
    rw [← pow_add, Nat.add_sub_cancel' (by omega)]
  have hfloor : (2 ^ 52 : Int) ≤ ⌊(n : Rat) / ulp n⌋ := by
    rw [Int.le_floor, hulp, le_div_iff₀ (by positivity)]
    push_cast
    linarith
  have hround : ((2 ^ 52 : Int) : Rat) ≤ roundHalfEven (n / ulp n) := by
    exact_mod_cast hfloor.trans (floor_le_roundHalfEven _)
  have hbig : (2 : Rat) ^ 53 ≤ 2 ^ n.log2 := pow_le_pow_right₀ (by norm_num) hlog
  calc (2 : Rat) ^ 53 ≤ 2 ^ 52 * 2 ^ (n.log2 - 52) := hsplit ▸ hbig
    _ ≤ (roundHalfEven (n / ulp n) : Rat) * 2 ^ (n.log2 - 52) := by
      gcongr
      exact_mod_cast hround
    _ = roundPositive n := by rw [roundPositive, hulp]

theorem nearestDouble_natCast {n : Nat} (hn : n < 2 ^ 53) : nearestDouble n = .finite n := by
  rcases Nat.eq_zero_or_pos n with rfl | hpos
  . simp [nearestDouble]
  . have hround := roundPositive_natCast (by omega) hn
    have hlt : (n : Rat) < 2 ^ 1024 := by
      calc (n : Rat) < 2 ^ 53 := by exact_mod_cast hn
        _ ≤ 2 ^ 1024 := pow_le_pow_right₀ (by norm_num) (by omega)
    have hpos' : (0 : Rat) < n := by exact_mod_cast hpos
    rw [nearestDouble, if_neg hpos'.ne', if_pos hpos', nearestPositive, hround,
      if_neg (not_le.mpr hlt)]

theorem nearestDouble_natCast_large {n : Nat} (hn : 2 ^ 53 ≤ n) :
    nearestDouble n = .infinity ∨ ∃ r, nearestDouble n = .finite r ∧ 2 ^ 53 ≤ r := by
  have hpos : (0 : Rat) < n := by exact_mod_cast (by omega : 0 < n)
  rw [nearestDouble, if_neg hpos.ne', if_pos hpos, nearestPositive]
  split
  . exact .inl rfl
  . exact .inr ⟨_, rfl, le_roundPositive_natCast hn⟩

end Rounding

section Reading

/-- The value of a digit in a base up to 36. -/
def charDigit (c : Char) : Nat :=
  if c.isDigit then c.toNat - '0'.toNat
  else if 'a' ≤ c && c ≤ 'z' then c.toNat - 'a'.toNat + 10
  else if 'A' ≤ c && c ≤ 'Z' then c.toNat - 'A'.toNat + 10
  else 36

def readRadix (base : Nat) (t : Text) : Option Nat :=
  if !t.isEmpty && t.all (charDigit · < base) then
    some (t.foldl (fun n c => base * n + charDigit c) 0)
  else
    none

/-- What follows `0x`, `0o` or `0b`, and the base. -/
def radixPrefix (t : Text) : Option (Nat × Text) :=
  match t with
  | '0' :: c :: ds =>
    if c = 'x' || c = 'X' then some (16, ds)
    else if c = 'o' || c = 'O' then some (8, ds)
    else if c = 'b' || c = 'B' then some (2, ds)
    else none
  | _ => none

/-- A number of decimal digits. -/
def readDigits (t : Text) : Option Nat :=
  if !t.isEmpty && t.all Char.isDigit then some (digitsValue t) else none

/-- What follows the digits of a decimal: nothing, or an exponent. -/
def readExponent (t : Text) : Option Int :=
  match t with
  | [] => some 0
  | e :: t =>
    if e = 'e' || e = 'E' then
      match t with
      | '-' :: ds => (readDigits ds).map fun n => -(n : Int)
      | '+' :: ds => (readDigits ds).map fun n => (n : Int)
      | ds => (readDigits ds).map fun n => (n : Int)
    else
      none

/-- The digits after a point, and what follows them. -/
def readFraction (t : Text) : Text × Text :=
  match t with
  | '.' :: t => (t.takeWhile Char.isDigit, t.dropWhile Char.isDigit)
  | t => ([], t)

/-- The exact value of a decimal without a sign. -/
def readDecimal (t : Text) : Option Rat :=
  let int := t.takeWhile Char.isDigit
  let (frac, rest) := readFraction (t.dropWhile Char.isDigit)
  if int.isEmpty && frac.isEmpty then none
  else (readExponent rest).map fun e : Int =>
    (digitsValue (int ++ frac) : Rat) * 10 ^ (e - (frac.length : Int))

def readUnsigned (t : Text) : ExactNumber :=
  if t = "Infinity".toList then .infinity
  else
    match readDecimal t with
    | some r => nearestDouble r
    | none => .nan

def readSigned (t : Text) : ExactNumber :=
  match t with
  | '-' :: t => (readUnsigned t).neg
  | '+' :: t => readUnsigned t
  | t => readUnsigned t

/-- `Number(t)` -/
def stringToNumber (t : Text) : ExactNumber :=
  let t := trim t
  if t.isEmpty then .finite 0
  else
    match radixPrefix t with
    | some (base, ds) =>
      match readRadix base ds with
      | some n => nearestDouble n
      | none => .nan
    | none => readSigned t

theorem trim_of_digits {t : Text} (h : ∀ c ∈ t, c.isDigit) : trim t = t := by
  have hstart : trimStart t = t := by
    cases t with
    | nil => rfl
    | cons c t => simp [trimStart, isWhiteSpace_of_isDigit (h c (by simp))]
  rw [trim, hstart, trimEnd, List.rdropWhile_eq_self_iff]
  intro hne
  simp [isWhiteSpace_of_isDigit (h _ (List.getLast_mem hne))]

theorem radixPrefix_of_digits {t : Text} (h : ∀ c ∈ t, c.isDigit) : radixPrefix t = none := by
  have hletters : ∀ x ∈ ['x', 'X', 'o', 'O', 'b', 'B'], x.isDigit = false :=
    forall_mem_of_all (by decide)
  unfold radixPrefix
  split
  . next c ds =>
    have hc : c.isDigit := h c (by simp)
    have hne : ∀ x ∈ ['x', 'X', 'o', 'O', 'b', 'B'], c ≠ x := by
      intro x hx heq
      rw [heq, hletters x hx] at hc
      exact Bool.false_ne_true hc
    simp [hne 'x', hne 'X', hne 'o', hne 'O', hne 'b', hne 'B']
  . rfl

theorem readDecimal_of_digits {t : Text} (hne : t ≠ []) (h : ∀ c ∈ t, c.isDigit) :
    readDecimal t = some ((digitsValue t : Nat) : Rat) := by
  have htake : t.takeWhile Char.isDigit = t := List.takeWhile_eq_self_iff.mpr h
  have hdrop : t.dropWhile Char.isDigit = [] := List.dropWhile_eq_nil_iff.mpr h
  simp [readDecimal, htake, hdrop, readFraction, readExponent, hne]

theorem stringToNumber_digits {t : Text} (hne : t ≠ []) (h : ∀ c ∈ t, c.isDigit) :
    stringToNumber t = nearestDouble ((digitsValue t : Nat) : Rat) := by
  have hsigned : readSigned t = readUnsigned t := by
    unfold readSigned
    split
    . simp at h
    . simp at h
    . rfl
  have hinfinity : t ≠ "Infinity".toList := by
    rintro rfl
    simp at h
  unfold stringToNumber
  dsimp only
  rw [trim_of_digits h, if_neg (by simpa using hne), radixPrefix_of_digits h]
  dsimp only
  rw [hsigned, readUnsigned, if_neg hinfinity, readDecimal_of_digits hne h]

end Reading

example : stringToNumber " 0x1F ".toList = .finite 31 := by decide +kernel

end OpenWA.Js
