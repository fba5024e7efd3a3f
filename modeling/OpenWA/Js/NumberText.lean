import OpenWA.Js.Double
import Mathlib.Data.Int.Log

/-!
This module contains the text of a number: the shortest decimal that denotes it. Read as a decimal, it
is the number again.
-/

namespace OpenWA.Js

/-- `significand * 10 ^ exponent` -/
structure Decimal where
  significand : Nat
  exponent : Int

def Decimal.value (d : Decimal) : Rat := d.significand * 10 ^ d.exponent

/-- A double with a finite value. -/
def IsDouble (x : Rat) : Prop := nearestDouble x = .finite x

instance (x : Rat) : Decidable (IsDouble x) := inferInstanceAs (Decidable (_ = _))

section Shortest

/-- The multiple of `10 ^ p` next to a positive double that denotes it, if there is one. -/
def denotingDecimal (x : Rat) (p : Int) : Option Decimal :=
  let q := x / 10 ^ p
  let lo := ⌊q⌋.toNat
  let below := nearestDouble (Decimal.mk lo p).value = .finite x
  let above := nearestDouble (Decimal.mk (lo + 1) p).value = .finite x
  if below && (!above || 2 * (q - lo) ≤ 1) then some ⟨lo, p⟩
  else if above then some ⟨lo + 1, p⟩
  else none

/-- The decimal of a positive double; 17 digits always denote it, so that its exact value is never needed. -/
def shortestDecimal (x : Rat) : Decimal :=
  let n := Int.log 10 x + 1
  ((List.range 17).findSome? fun k => denotingDecimal x (n - (k + 1))).getD
    ⟨(x * 2 ^ 1074).num.toNat * 5 ^ 1074, -1074⟩

/-- The digits with the decimal point after the first `n` ones, in the notation for its size. -/
def placePoint (digits : Text) (n : Int) : Text :=
  if digits.length ≤ n ∧ n ≤ 21 then digits ++ List.replicate (n - digits.length).toNat '0'
  else if 0 < n ∧ n ≤ 21 then digits.take n.toNat ++ '.' :: digits.drop n.toNat
  else if -6 < n ∧ n ≤ 0 then '0' :: '.' :: (List.replicate (-n).toNat '0' ++ digits)
  else
    (if digits.length = 1 then digits else digits.take 1 ++ '.' :: digits.drop 1) ++
      'e' :: (if 0 ≤ n - 1 then '+' else '-') :: Nat.toDigits 10 (n - 1).natAbs

def Decimal.text (d : Decimal) : Text :=
  let digits := Nat.toDigits 10 d.significand
  placePoint (digits.rdropWhile (· = '0')) (digits.length + d.exponent)

/-- `String(x)` of a finite double. -/
def numberText (x : Rat) : Text :=
  if x = 0 then ['0']
  else if 0 < x then (shortestDecimal x).text
  else '-' :: (shortestDecimal (-x)).text

end Shortest

example : numberText 120 = "120".toList := by decide +kernel

example : numberText (10 ^ 21) = "1e+21".toList := by decide +kernel

section Denoting

theorem nearestDouble_of_denotingDecimal {x : Rat} {p : Int} {d : Decimal}
    (h : denotingDecimal x p = some d) : nearestDouble d.value = .finite x := by
  unfold denotingDecimal at h
  dsimp only at h
  split at h
  . next hbelow =>
    cases h
    simp only [Bool.and_eq_true, decide_eq_true_eq] at hbelow
    exact hbelow.1
  . split at h
    . next habove =>
      cases h
      simpa using habove
    . cases h

theorem roundPositive_of_isDouble {x : Rat} (hpos : 0 < x) (h : IsDouble x) : roundPositive x = x := by
  rw [IsDouble, nearestDouble, if_neg hpos.ne', if_pos hpos, nearestPositive] at h
  split at h
  . cases h
  . exact ExactNumber.finite.inj h

/-- A double is a multiple of the least positive one. -/
theorem exists_eq_intCast_of_isDouble {x : Rat} (hpos : 0 < x) (h : IsDouble x) :
    ∃ m : Int, x * 2 ^ 1074 = m := by
  have hround := roundPositive_of_isDouble hpos h
  rw [roundPositive, ulp] at hround
  have hexponent : (0 : Int) ≤ max (binade x) (-1022) - 52 + 1074 := by omega
  obtain ⟨k, hk⟩ := Int.eq_ofNat_of_zero_le hexponent
  exists roundHalfEven (x / ulp x) * 2 ^ k
  have hpow : (2 : Rat) ^ (max (binade x) (-1022) - 52) * 2 ^ 1074 = 2 ^ k := by
    rw [← zpow_natCast, ← zpow_add₀ (by norm_num), ← zpow_natCast]
    congr 1
  conv_lhs => rw [← hround]
  rw [ulp, mul_assoc, hpow]
  push_cast
  rfl

theorem value_exact {x : Rat} (hpos : 0 < x) (h : IsDouble x) :
    (Decimal.mk ((x * 2 ^ 1074).num.toNat * 5 ^ 1074) (-1074)).value = x := by
  obtain ⟨m, hm⟩ := exists_eq_intCast_of_isDouble hpos h
  have hmpos : 0 ≤ m := by
    have hx : (0 : Rat) ≤ m := by
      rw [← hm]
      positivity
    exact_mod_cast hx
  have hcast : ((m.toNat : Nat) : Rat) = x * 2 ^ 1074 := by
    rw [hm]
    exact_mod_cast Int.toNat_of_nonneg hmpos
  have hten : (2 : Rat) ^ 1074 * (5 ^ 1074 * (10 ^ (1074 : Int))⁻¹) = 1 := by
    rw [← mul_assoc, ← mul_pow, zpow_ofNat, show (2 : Rat) * 5 = 10 by norm_num]
    exact mul_inv_cancel₀ (pow_ne_zero 1074 (by norm_num))
  rw [Decimal.value, hm, Rat.num_intCast]
  simp only [Nat.cast_mul, Nat.cast_pow, Nat.cast_ofNat]
  rw [hcast, zpow_neg, mul_assoc, mul_assoc, hten, mul_one]

/-- The decimal that is chosen denotes the double. -/
theorem nearestDouble_shortestDecimal {x : Rat} (hpos : 0 < x) (h : IsDouble x) :
    nearestDouble (shortestDecimal x).value = .finite x := by
  unfold shortestDecimal
  dsimp only
  cases hfound : (List.range 17).findSome? fun k => denotingDecimal x (Int.log 10 x + 1 - (k + 1)) with
  | some d =>
    obtain ⟨k, _, hk⟩ := List.exists_of_findSome?_eq_some hfound
    exact nearestDouble_of_denotingDecimal hk
  | none =>
    rw [Option.getD_none, value_exact hpos h]
    exact h

end Denoting

section Notation

/-- The digits of a decimal around its point, and its exponent. -/
def withFraction (int frac exp : Text) : Text :=
  int ++ ((if frac.isEmpty then [] else '.' :: frac) ++ exp)

theorem digitsValue_eq (t : Text) : digitsValue t = Nat.ofDigitChars 10 t 0 :=
  Nat.ofDigitChars_eq_foldl.symm

theorem digitsValue_toDigits (n : Nat) : digitsValue (Nat.toDigits 10 n) = n := by
  rw [digitsValue_eq, Nat.ofDigitChars_ten_toDigits]

theorem digitsValue_append_zeros (t : Text) (n : Nat) :
    digitsValue (t ++ List.replicate n '0') = 10 ^ n * digitsValue t := by
  rw [digitsValue_eq, digitsValue_eq, Nat.ofDigitChars_append, Nat.ofDigitChars_replicate_zero]

theorem digitsValue_zeros_append (n : Nat) (t : Text) :
    digitsValue (List.replicate n '0' ++ t) = digitsValue t := by
  rw [digitsValue_eq, digitsValue_eq, Nat.ofDigitChars_append, Nat.ofDigitChars_replicate_zero,
    Nat.mul_zero]

theorem isDigit_of_mem_toDigits {n : Nat} {c : Char} (h : c ∈ Nat.toDigits 10 n) : c.isDigit = true :=
  Nat.isDigit_of_mem_toDigits (by decide) (by decide) h

/-- What stands behind the digits of a decimal: nothing, or an exponent. -/
def exponentText (e : Int) : Text := 'e' :: (if 0 ≤ e then '+' else '-') :: Nat.toDigits 10 e.natAbs

theorem readDigits_toDigits (n : Nat) : readDigits (Nat.toDigits 10 n) = some n := by
  have hdigits : (Nat.toDigits 10 n).all Char.isDigit = true := by
    rw [List.all_eq_true]
    intro c hc
    exact isDigit_of_mem_toDigits hc
  simp [readDigits, hdigits, digitsValue_toDigits]

theorem readExponent_exponentText (e : Int) : readExponent (exponentText e) = some e := by
  unfold exponentText
  by_cases he : 0 ≤ e
  . rw [if_pos he]
    simpa [readExponent, readDigits_toDigits] using he
  . rw [if_neg he]
    have habs : |e| = -e := abs_of_neg (by omega)
    simp [readExponent, readDigits_toDigits, habs]

/-- What a text goes on with behind the digits of a number. -/
def NoDigit (t : Text) : Prop := ∀ c ∈ t.head?, c.isDigit = false

theorem takeWhile_digits {t : Text} (ht : ∀ c ∈ t, c.isDigit = true) {rest : Text} (hrest : NoDigit rest) :
    (t ++ rest).takeWhile Char.isDigit = t ∧ (t ++ rest).dropWhile Char.isDigit = rest := by
  have hstop : rest.takeWhile Char.isDigit = [] ∧ rest.dropWhile Char.isDigit = rest := by
    cases rest with
    | nil => exact ⟨rfl, rfl⟩
    | cons c rest => simp [hrest c rfl]
  rw [List.takeWhile_append_of_pos ht, List.dropWhile_append_of_pos ht, hstop.1, hstop.2,
    List.append_nil]
  exact ⟨rfl, rfl⟩

/-- What may follow the fraction: neither a digit nor a point. -/
def EndsFraction (exp : Text) : Prop := NoDigit exp ∧ exp.head? ≠ some '.'

theorem endsFraction_exponentText (e : Int) : EndsFraction (exponentText e) := by
  constructor
  . intro c hc
    cases hc
    rfl
  . simp [exponentText]

theorem endsFraction_nil : EndsFraction [] := by
  constructor
  . intro c hc
    cases hc
  . simp

section Scanning

variable {int frac exp : Text} (hint : ∀ c ∈ int, c.isDigit = true) (hfrac : ∀ c ∈ frac, c.isDigit = true)
  (hexp : EndsFraction exp)

include hint hexp in
theorem scan_int (frac : Text) : (withFraction int frac exp).takeWhile Char.isDigit = int ∧
    (withFraction int frac exp).dropWhile Char.isDigit =
      (if frac.isEmpty then [] else '.' :: frac) ++ exp := by
  apply takeWhile_digits hint
  split
  . exact hexp.1
  . intro c hc
    cases hc
    rfl

include hfrac hexp in
theorem readFraction_point :
    readFraction ((if frac.isEmpty then [] else '.' :: frac) ++ exp) = (frac, exp) := by
  split
  . next hempty =>
    rw [List.isEmpty_iff] at hempty
    rw [hempty, List.nil_append]
    unfold readFraction
    split
    . exact absurd rfl hexp.2
    . rfl
  . have hscan := takeWhile_digits hfrac hexp.1
    simp only [readFraction, List.cons_append, hscan.1, hscan.2]

include hint hfrac hexp in
theorem readDecimal_withFraction {e : Int} (hne : int ≠ []) (hread : readExponent exp = some e) :
    readDecimal (withFraction int frac exp) =
      some ((digitsValue (int ++ frac) : Rat) * 10 ^ (e - (frac.length : Int))) := by
  have hscan := scan_int hint hexp frac
  unfold readDecimal
  dsimp only
  rw [hscan.1, hscan.2, readFraction_point hfrac hexp]
  simp [hread, hne]

end Scanning

/-- What a number may consist of. -/
def isNumberChar (c : Char) : Bool := c.isDigit || c ∈ ['-', '+', '.', 'e', 'E']

theorem isNumberChar_of_isDigit {c : Char} (h : c.isDigit = true) : isNumberChar c = true := by
  simp [isNumberChar, h]

/-- The parts of a notation of the number that has the digits with the point after the first `n` ones. -/
structure Notates (int frac exp : Text) (e : Int) (digits : Text) (n : Int) : Prop where
  int_ne : int ≠ []
  int_digits : ∀ c ∈ int, c.isDigit = true
  frac_digits : ∀ c ∈ frac, c.isDigit = true
  ends : EndsFraction exp
  exp_chars : ∀ c ∈ exp, isNumberChar c = true
  read : readExponent exp = some e
  value : (digitsValue (int ++ frac) : Rat) * 10 ^ (e - (frac.length : Int)) =
    digitsValue digits * 10 ^ (n - (digits.length : Int))
  leading : int = ['0'] ∨ int.head? = digits.head?

theorem isNumberChar_of_mem_exponentText {e : Int} {c : Char} (h : c ∈ exponentText e) :
    isNumberChar c = true := by
  rcases List.mem_cons.mp h with rfl | h
  . decide
  rcases List.mem_cons.mp h with rfl | h
  . split <;> decide
  . exact isNumberChar_of_isDigit (isDigit_of_mem_toDigits h)

theorem isDigit_of_mem_zeros {k : Nat} {c : Char} (h : c ∈ List.replicate k '0') : c.isDigit = true := by
  rw [List.eq_of_mem_replicate h]
  rfl

section Parts

variable {digits : Text} (hne : digits ≠ []) (hdigits : ∀ c ∈ digits, c.isDigit = true) {n : Int}

include hne hdigits

theorem notates_integer (h : digits.length ≤ n) :
    Notates (digits ++ List.replicate (n - digits.length).toNat '0') [] [] 0 digits n where
  int_ne := by simp [hne]
  int_digits := by
    intro c hc
    rcases List.mem_append.mp hc with hc | hc
    . exact hdigits c hc
    . exact isDigit_of_mem_zeros hc
  frac_digits := by simp
  ends := endsFraction_nil
  exp_chars := by simp
  read := rfl
  value := by
    have hexponent : n - digits.length = ((n - digits.length).toNat : Int) := by omega
    rw [List.append_nil, digitsValue_append_zeros, hexponent, zpow_natCast]
    push_cast
    simp [mul_comm]
  leading := by
    right
    simp [List.head?_append, List.head?_eq_some_head hne]

theorem notates_point (h₁ : 0 < n) (h₂ : n < digits.length) :
    Notates (digits.take n.toNat) (digits.drop n.toNat) [] 0 digits n where
  int_ne := by
    simp [hne]
    omega
  int_digits c hc := hdigits c (List.mem_of_mem_take hc)
  frac_digits c hc := hdigits c (List.mem_of_mem_drop hc)
  ends := endsFraction_nil
  exp_chars := by simp
  read := rfl
  value := by
    have hlength : (0 : Int) - (digits.drop n.toNat).length = n - digits.length := by
      rw [List.length_drop]
      omega
    rw [List.take_append_drop, hlength]
  leading := by
    right
    rw [List.head?_take, if_neg (by omega)]

omit hne in
theorem notates_small (h : n ≤ 0) :
    Notates ['0'] (List.replicate (-n).toNat '0' ++ digits) [] 0 digits n where
  int_ne := by simp
  int_digits := by simp
  frac_digits := by
    intro c hc
    rcases List.mem_append.mp hc with hc | hc
    . exact isDigit_of_mem_zeros hc
    . exact hdigits c hc
  ends := endsFraction_nil
  exp_chars := by simp
  read := rfl
  value := by
    have hlength : (0 : Int) - (List.replicate (-n).toNat '0' ++ digits).length = n - digits.length := by
      rw [List.length_append, List.length_replicate]
      omega
    have hvalue : digitsValue (['0'] ++ (List.replicate (-n).toNat '0' ++ digits)) =
        digitsValue digits := by
      rw [← List.append_assoc, ← List.replicate_one, List.replicate_append_replicate,
        digitsValue_zeros_append]
    rw [hlength, hvalue]
  leading := .inl rfl

theorem notates_exponent : Notates (digits.take 1) (digits.drop 1) (exponentText (n - 1)) (n - 1) digits n where
  int_ne := by simp [hne]
  int_digits c hc := hdigits c (List.mem_of_mem_take hc)
  frac_digits c hc := hdigits c (List.mem_of_mem_drop hc)
  ends := endsFraction_exponentText _
  exp_chars c hc := isNumberChar_of_mem_exponentText hc
  read := readExponent_exponentText _
  value := by
    have hpos : 0 < digits.length := List.length_pos_of_ne_nil hne
    have hlength : n - 1 - (digits.drop 1).length = n - digits.length := by
      rw [List.length_drop]
      omega
    rw [List.take_append_drop, hlength]
  leading := by
    right
    rw [List.head?_take, if_neg (by omega)]

/-- Each notation of a number has its parts. -/
theorem placePoint_notates (n : Int) : ∃ int frac exp e,
    placePoint digits n = withFraction int frac exp ∧ Notates int frac exp e digits n := by
  unfold placePoint
  split
  . next h =>
    refine ⟨_, _, _, _, ?_, notates_integer hne hdigits h.1⟩
    simp [withFraction]
  split
  . next hinteger h =>
    have hlt : n < digits.length := by omega
    refine ⟨_, _, _, _, ?_, notates_point hne hdigits h.1 hlt⟩
    have hdrop : ¬digits.length ≤ n.toNat := by omega
    simp [withFraction, hdrop]
  split
  . next h =>
    refine ⟨_, _, _, _, ?_, notates_small hdigits h.2⟩
    simp [withFraction, hne]
  . refine ⟨_, _, _, _, ?_, notates_exponent hne hdigits⟩
    cases digits with
    | nil => exact absurd rfl hne
    | cons d digits => cases digits <;> simp [withFraction, exponentText]

end Parts

end Notation

section Reading

/-- The grammar of a JSON number without its sign, up to its exponent. -/
def isJsonNumber (t : Text) : Bool :=
  let int := t.takeWhile Char.isDigit
  let rest := t.dropWhile Char.isDigit
  !int.isEmpty && (int = ['0'] || int.head? ≠ some '0') &&
    !(rest.head? = some '.' && (readFraction rest).1.isEmpty)

def ExactNumber.finite? (x : ExactNumber) : Option Rat :=
  match x with
  | .finite r => some r
  | _ => none

/-- The number of a text without a sign. One that rounds to infinity is no value of JSON. -/
def readMagnitude (t : Text) : Option Rat :=
  if isJsonNumber t then (readDecimal t).bind fun r => (nearestDouble r).finite? else none

def readNumber (t : Text) : Option Rat :=
  match t with
  | '-' :: t => (readMagnitude t).map fun r => -r
  | t => readMagnitude t

theorem head?_toDigits {n : Nat} (h : n ≠ 0) : (Nat.toDigits 10 n).head? ≠ some '0' := by
  induction n using Nat.strongRecOn with
  | _ n ih =>
    rw [Nat.toDigits_eq_if (by decide)]
    split
    . next hlt =>
      have hdigit : ∀ m < 10, m ≠ 0 → [Nat.digitChar m].head? ≠ some '0' := by decide
      exact hdigit n hlt h
    . next hge =>
      rw [List.head?_append_of_ne_nil _ Nat.toDigits_ne_nil]
      exact ih (n / 10) (by omega) (by omega)

/-- The digits of a positive number, and the zeros at their end that its text leaves out. -/
theorem toDigits_eq_significant {s : Nat} (h : s ≠ 0) :
    (Nat.toDigits 10 s).rdropWhile (· = '0') ≠ [] ∧
      ∃ k, Nat.toDigits 10 s = (Nat.toDigits 10 s).rdropWhile (· = '0') ++ List.replicate k '0' := by
  constructor
  . intro hnil
    have hall := List.rdropWhile_eq_nil_iff.mp hnil
    have hhead := List.head?_eq_some_head (Nat.toDigits_ne_nil (b := 10) (n := s))
    have hzero := hall _ (List.head_mem Nat.toDigits_ne_nil)
    rw [of_decide_eq_true hzero] at hhead
    exact head?_toDigits h hhead
  . exists ((Nat.toDigits 10 s).rtakeWhile (· = '0')).length
    conv_lhs => rw [← List.rdropWhile_append_rtakeWhile (p := (· = '0')) (l := Nat.toDigits 10 s)]
    congr 1
    rw [List.eq_replicate_iff]
    refine ⟨rfl, ?_⟩
    intro c hc
    have hzero := List.mem_rtakeWhile_imp (p := fun c => decide (c = '0')) hc
    exact of_decide_eq_true hzero

theorem isJsonNumber_withFraction {int frac exp : Text} (hint : ∀ c ∈ int, c.isDigit = true)
    (hfrac : ∀ c ∈ frac, c.isDigit = true) (hexp : EndsFraction exp) (hne : int ≠ [])
    (hleading : int = ['0'] ∨ int.head? ≠ some '0') : isJsonNumber (withFraction int frac exp) = true := by
  have hscan := scan_int hint hexp frac
  unfold isJsonNumber
  dsimp only
  rw [hscan.1, hscan.2, readFraction_point hfrac hexp]
  cases frac with
  | nil => simp [hne, hleading, hexp.2]
  | cons c frac => simp [hne, hleading]

/-- The text of a decimal has the parts of a number, and they denote its value. -/
theorem text_notates {d : Decimal} (h : d.significand ≠ 0) : ∃ int frac exp e digits n,
    d.text = withFraction int frac exp ∧ Notates int frac exp e digits n ∧
      (digitsValue (int ++ frac) : Rat) * 10 ^ (e - (frac.length : Int)) = d.value ∧
      (int = ['0'] ∨ int.head? ≠ some '0') := by
  obtain ⟨hne, k, hdigits⟩ := toDigits_eq_significant h
  unfold Decimal.text
  generalize hall : Nat.toDigits 10 d.significand = all at hne hdigits
  generalize hsignificant : all.rdropWhile (· = '0') = significant at hne hdigits
  have hmem : ∀ c ∈ significant, c ∈ Nat.toDigits 10 d.significand := by
    intro c hc
    rw [hall, hdigits]
    exact List.mem_append_left _ hc
  obtain ⟨int, frac, exp, e, htext, hnotates⟩ := placePoint_notates hne
    (fun c hc => isDigit_of_mem_toDigits (hmem c hc)) (all.length + d.exponent)
  dsimp only
  rw [hsignificant]
  refine ⟨int, frac, exp, e, significant, _, htext, hnotates, ?_, ?_⟩
  . have hlength : (all.length : Int) + d.exponent - significant.length = k + d.exponent := by
      rw [hdigits, List.length_append, List.length_replicate]
      omega
    have hsignificand : 10 ^ k * digitsValue significant = d.significand := by
      rw [← digitsValue_append_zeros, ← hdigits, ← hall, digitsValue_toDigits]
    rw [hnotates.value, Decimal.value, ← hsignificand, hlength, zpow_add₀ (by norm_num), zpow_natCast]
    push_cast
    ring
  . rcases hnotates.leading with hzero | hhead
    . exact .inl hzero
    . right
      have hfirst : all.head? = significant.head? := by
        rw [hdigits, List.head?_append_of_ne_nil _ hne]
      rw [hhead, ← hfirst, ← hall]
      exact head?_toDigits h

/-- A JSON number is the double next to the decimal it was written from. -/
theorem readMagnitude_text {d : Decimal} (h : d.significand ≠ 0) :
    readMagnitude d.text = (nearestDouble d.value).finite? := by
  obtain ⟨int, frac, exp, e, _, _, htext, hnotates, hvalue, hleading⟩ := text_notates h
  rw [htext, readMagnitude, if_pos (isJsonNumber_withFraction hnotates.int_digits
    hnotates.frac_digits hnotates.ends hnotates.int_ne hleading), readDecimal_withFraction
    hnotates.int_digits hnotates.frac_digits hnotates.ends hnotates.int_ne hnotates.read,
    Option.bind_some, hvalue]

/-- The text of a decimal starts with a digit, and has only what numbers consist of. -/
theorem text_chars {d : Decimal} (h : d.significand ≠ 0) :
    (∃ c t, d.text = c :: t ∧ c.isDigit = true) ∧ ∀ c ∈ d.text, isNumberChar c = true := by
  obtain ⟨int, frac, exp, e, _, _, htext, hnotates, -, -⟩ := text_notates h
  rw [htext]
  constructor
  . cases hint : int with
    | nil => exact absurd hint hnotates.int_ne
    | cons c t => exact ⟨c, _, rfl, hnotates.int_digits c (by simp [hint])⟩
  . intro c hc
    rcases List.mem_append.mp hc with hc | hc
    . exact isNumberChar_of_isDigit (hnotates.int_digits c hc)
    rcases List.mem_append.mp hc with hc | hc
    . split at hc
      . cases hc
      . rcases List.mem_cons.mp hc with rfl | hc
        . decide
        . exact isNumberChar_of_isDigit (hnotates.frac_digits c hc)
    . exact hnotates.exp_chars c hc

theorem significand_ne_zero {x : Rat} (hpos : 0 < x) {d : Decimal} (h : nearestDouble d.value = .finite x) :
    d.significand ≠ 0 := by
  intro hzero
  rw [Decimal.value, hzero, Nat.cast_zero, zero_mul] at h
  cases h
  exact absurd hpos (lt_irrefl 0)

theorem isDouble_neg {x : Rat} (hneg : x < 0) (h : IsDouble x) : IsDouble (-x) := by
  have hpos : 0 < -x := neg_pos.mpr hneg
  rw [IsDouble, nearestDouble, if_neg hneg.ne, if_neg hneg.not_gt] at h
  rw [IsDouble, nearestDouble, if_neg hpos.ne', if_pos hpos]
  cases hround : nearestPositive (-x) with
  | finite r =>
    rw [hround] at h
    rw [← ExactNumber.finite.inj h, neg_neg]
  | _ =>
    rw [hround] at h
    cases h

theorem readMagnitude_shortest {x : Rat} (hpos : 0 < x) (h : IsDouble x) :
    readMagnitude (shortestDecimal x).text = some x := by
  have hdenotes := nearestDouble_shortestDecimal hpos h
  rw [readMagnitude_text (significand_ne_zero hpos hdenotes), hdenotes]
  rfl

/-- A number is read from its text. -/
theorem readNumber_numberText {x : Rat} (h : IsDouble x) : readNumber (numberText x) = some x := by
  unfold numberText
  by_cases hzero : x = 0
  . rw [if_pos hzero, hzero]
    decide +kernel
  rw [if_neg hzero]
  by_cases hpos : 0 < x
  . rw [if_pos hpos]
    obtain ⟨⟨c, t, htext, hdigit⟩, -⟩ := text_chars
      (significand_ne_zero hpos (nearestDouble_shortestDecimal hpos h))
    have hread := readMagnitude_shortest hpos h
    rw [htext] at hread ⊢
    unfold readNumber
    split
    . next heq =>
      cases heq
      cases hdigit
    . exact hread
  . have hneg : 0 < -x := by
      rw [neg_pos]
      exact lt_of_le_of_ne (not_lt.mp hpos) hzero
    rw [if_neg hpos, readNumber, readMagnitude_shortest hneg (isDouble_neg (neg_pos.mp hneg) h)]
    simp

/-- The text of a number starts with a digit or a minus, and has only what numbers consist of. -/
theorem numberText_chars {x : Rat} (h : IsDouble x) :
    (∃ c t, numberText x = c :: t ∧ (c.isDigit = true ∨ c = '-')) ∧
      ∀ c ∈ numberText x, isNumberChar c = true := by
  unfold numberText
  by_cases hzero : x = 0
  . rw [if_pos hzero]
    exact ⟨⟨'0', [], rfl, .inl rfl⟩, forall_mem_of_all (by decide)⟩
  rw [if_neg hzero]
  by_cases hpos : 0 < x
  . rw [if_pos hpos]
    obtain ⟨⟨c, t, htext, hdigit⟩, hchars⟩ := text_chars
      (significand_ne_zero hpos (nearestDouble_shortestDecimal hpos h))
    exact ⟨⟨c, t, htext, .inl hdigit⟩, hchars⟩
  . have hneg : 0 < -x := by
      rw [neg_pos]
      exact lt_of_le_of_ne (not_lt.mp hpos) hzero
    have hchars := (text_chars (significand_ne_zero hneg
      (nearestDouble_shortestDecimal hneg (isDouble_neg (neg_pos.mp hneg) h)))).2
    rw [if_neg hpos]
    refine ⟨⟨'-', _, rfl, .inr rfl⟩, ?_⟩
    intro c hc
    rcases List.mem_cons.mp hc with rfl | hc
    . decide
    . exact hchars c hc

end Reading

end OpenWA.Js
