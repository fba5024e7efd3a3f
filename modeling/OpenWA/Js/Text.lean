import Mathlib.Algebra.Group.Nat.Defs
import Mathlib.Algebra.GroupWithZero.Nat
import Mathlib.Data.List.DropRight

/-!
This module contains the strings of the source as lists of characters and the standard functions on
strings and numbers that the modelled code applies to them.
-/

namespace OpenWA.Js

abbrev Text := List Char

instance instLawfulBEqText : LawfulBEq Text := inferInstance

/-- What the language trims: its white space and its line terminators. -/
def isWhiteSpace (c : Char) : Bool :=
  c ∈ ['\t', '\n', '\x0b', '\x0c', '\r', ' ', '\u00a0', '\u1680', '\u2028', '\u2029', '\u202f',
    '\u205f', '\u3000', '\ufeff'] || ('\u2000' ≤ c && c ≤ '\u200a')

def trimStart (t : Text) : Text := t.dropWhile isWhiteSpace

def trimEnd (t : Text) : Text := t.rdropWhile isWhiteSpace

def trim (t : Text) : Text := trimEnd (trimStart t)

/-- `t.split(c).length` -/
def splitLength (c : Char) (t : Text) : Nat := t.count c + 1

/-- The numbers `parseInt` can return. Minus zero is `int true 0`. -/
inductive Number where
  | nan
  | infinity (negative : Bool)
  | int (negative : Bool) (v : Nat)
deriving DecidableEq

/-- The double closest to `v`, ties to even; none beyond the largest one. -/
def toDouble (v : Nat) : Option Nat :=
  let ulp := 2 ^ (v.log2 - 52)
  let q := v / ulp
  let r := v % ulp
  let q := if 2 * r > ulp || (2 * r = ulp && q % 2 = 1) then q + 1 else q
  if (q * ulp).log2 < 1024 then some (q * ulp) else none

def digitsValue (t : Text) : Nat := t.foldl (fun n c => 10 * n + (c.toNat - '0'.toNat)) 0

/-- `parseInt(t, 10)` -/
def parseInt (t : Text) : Number :=
  let t := trimStart t
  let negative := t.head? = some '-'
  let t := if t.head? = some '-' || t.head? = some '+' then t.tail else t
  match t.takeWhile Char.isDigit with
  | [] => .nan
  | digits =>
    match toDouble (digitsValue digits) with
    | some v => .int negative v
    | none => .infinity negative

/-- The multiple of `10 ^ p` next to `v` that denotes the same double, if there is one. -/
def denoting (v p : Nat) : Option Nat :=
  let lo := v / 10 ^ p
  let below := toDouble (lo * 10 ^ p) = some v
  let above := toDouble ((lo + 1) * 10 ^ p) = some v
  if below && (!above || 2 * (v % 10 ^ p) ≤ 10 ^ p) then some lo
  else if above then some (lo + 1)
  else none

/-- The significant digits of the shortest decimal that denotes `v`, and its exponent. -/
def shortest (v : Nat) : Text × Nat :=
  let size := (Nat.toDigits 10 v).length
  let found := (List.range 17).findSome? fun k =>
    (denoting v (size - (k + 1))).map fun s => (s, size - (k + 1))
  let (s, p) := found.getD (v, 0)
  let digits := Nat.toDigits 10 s
  let significant := digits.rdropWhile (· = '0')
  (significant, p + (digits.length - significant.length))

/-- The template string of a positive integral double. -/
def positiveToText (v : Nat) : Text :=
  let (digits, p) := shortest v
  let n := digits.length + p
  if n ≤ 21 then digits ++ List.replicate p '0'
  else
    let mantissa := if digits.length = 1 then digits else digits.take 1 ++ '.' :: digits.drop 1
    mantissa ++ ['e', '+'] ++ Nat.toDigits 10 (n - 1)

/-- The template string of a number. -/
def Number.toText (x : Number) : Text :=
  match x with
  | .nan => "NaN".toList
  | .infinity negative => (if negative then ['-'] else []) ++ "Infinity".toList
  | .int _ 0 => ['0']
  | .int negative v => (if negative then ['-'] else []) ++ positiveToText v

/-- The characters of a text are checked one by one, not all characters there are. -/
theorem forall_mem_of_all {t : Text} {p : Char → Prop} [DecidablePred p]
    (h : t.all (fun c => decide (p c)) = true) : ∀ c ∈ t, p c := by
  simpa using h

theorem isWhiteSpace_of_isDigit {c : Char} (h : c.isDigit) : isWhiteSpace c = false := by
  have hlist : ∀ x ∈ ['\t', '\n', '\x0b', '\x0c', '\r', ' ', '\u00a0', '\u1680', '\u2028',
      '\u2029', '\u202f', '\u205f', '\u3000', '\ufeff'], x.isDigit = false :=
    forall_mem_of_all (by decide)
  have hrange : decide ('\u2000' ≤ c) = false := by
    simp only [Char.isDigit, Bool.and_eq_true, decide_eq_true_eq] at h
    rw [decide_eq_false_iff_not]
    intro hle
    have hbig := Char.le_def.mp hle
    have hsmall := h.2
    rw [UInt32.le_iff_toNat_le] at hbig hsmall
    simp at hbig hsmall
    omega
  unfold isWhiteSpace
  simp only [hrange, Bool.false_and, Bool.or_false, decide_eq_false_iff_not]
  intro hmem
  simp [hlist c hmem] at h

section LowerCase

theorem toNat_toLower (c : Char) :
    c.toLower.toNat = if 65 ≤ c.toNat ∧ c.toNat ≤ 90 then c.toNat + 32 else c.toNat := by
  have hle (a b : Char) : a.val ≤ b.val ↔ a.toNat ≤ b.toNat := UInt32.le_iff_toNat_le
  unfold Char.toLower
  simp only [ge_iff_le, hle]
  split
  . next h =>
    have hadd : (c.val + ('a'.val - 'A'.val)).toNat = c.toNat + 32 := by
      have hc : c.val.toNat = c.toNat := rfl
      have hle : c.toNat ≤ 90 := h.2
      rw [UInt32.toNat_add, show ('a'.val - 'A'.val).toNat = 32 by decide]
      omega
    rw [if_pos (show 65 ≤ c.toNat ∧ c.toNat ≤ 90 from h)]
    exact hadd
  . next h => rw [if_neg (show ¬(65 ≤ c.toNat ∧ c.toNat ≤ 90) from h)]

theorem isDigit_iff (c : Char) : c.isDigit = true ↔ 48 ≤ c.toNat ∧ c.toNat ≤ 57 := by
  simp [Char.isDigit, UInt32.le_iff_toNat_le]

theorem isDigit_toLower (c : Char) : c.toLower.isDigit = c.isDigit := by
  rw [Bool.eq_iff_iff, isDigit_iff, isDigit_iff, toNat_toLower]
  split <;> omega

theorem toLower_eq_iff {s : Char} (hs : s.toNat < 65) (c : Char) : c.toLower = s ↔ c = s := by
  rw [← Char.toNat_inj, ← Char.toNat_inj (c := c), toNat_toLower]
  split <;> omega

theorem toLower_of_isDigit {c : Char} (h : c.isDigit = true) : c.toLower = c := by
  rw [isDigit_iff] at h
  rw [← Char.toNat_inj, toNat_toLower, if_neg]
  omega

end LowerCase

end OpenWA.Js
