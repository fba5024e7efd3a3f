import OpenWA.Js.Text
import Mathlib.Tactic.SplitIfs

/-!
This module contains the encodings of strings that the platform offers: UTF-16, in which the language
holds a string, UTF-8 and base64, with their round trips.
-/

namespace OpenWA.Js

/-! ### UTF-16 -/

abbrev JsString := List UInt16

/-- What stands for a code unit or a byte that cannot be decoded. -/
def replacement : Char := '\ufffd'

def isHighSurrogate (u : UInt16) : Bool := 0xd800 ≤ u.toNat && u.toNat < 0xdc00

def isLowSurrogate (u : UInt16) : Bool := 0xdc00 ≤ u.toNat && u.toNat < 0xe000

def decodeUnit (u : UInt16) : Char :=
  if isHighSurrogate u || isLowSurrogate u then replacement else Char.ofNat u.toNat

/-- The characters of a string; an unpaired surrogate is replaced. -/
def fromUtf16 (s : JsString) : Text :=
  match s with
  | [] => []
  | [u] => [decodeUnit u]
  | u :: v :: rest =>
    if isHighSurrogate u && isLowSurrogate v then
      Char.ofNat (0x10000 + (u.toNat - 0xd800) * 0x400 + (v.toNat - 0xdc00)) :: fromUtf16 rest
    else
      decodeUnit u :: fromUtf16 (v :: rest)

def toUtf16Char (c : Char) : JsString :=
  if c.toNat < 0x10000 then [c.toNat.toUInt16]
  else
    [(0xd800 + (c.toNat - 0x10000) / 0x400).toUInt16,
      (0xdc00 + (c.toNat - 0x10000) % 0x400).toUInt16]

def toUtf16 (t : Text) : JsString := t.flatMap toUtf16Char

/-- The order in which `sort` puts strings. -/
def sortLe (a b : String) : Bool := toUtf16 a.toList ≤ toUtf16 b.toList

/-- `s.isWellFormed()`: no surrogate is unpaired. -/
def isWellFormed (s : JsString) : Bool := toUtf16 (fromUtf16 s) = s

theorem toNat_cases (c : Char) : c.toNat < 0xd800 ∨ 0xdfff < c.toNat ∧ c.toNat < 0x110000 :=
  c.valid

theorem fromUtf16_append (c : Char) (s : JsString) :
    fromUtf16 (toUtf16Char c ++ s) = c :: fromUtf16 s := by
  have hc := toNat_cases c
  unfold toUtf16Char
  split
  . next h =>
    have hu : (c.toNat.toUInt16).toNat = c.toNat := by
      simp only [Nat.toUInt16_eq, UInt16.toNat_ofNat']
      omega
    have hhigh : isHighSurrogate c.toNat.toUInt16 = false := by
      simp only [isHighSurrogate, hu, Bool.and_eq_false_iff, decide_eq_false_iff_not]
      omega
    have hlow : isLowSurrogate c.toNat.toUInt16 = false := by
      simp only [isLowSurrogate, hu, Bool.and_eq_false_iff, decide_eq_false_iff_not]
      omega
    have hunit : decodeUnit c.toNat.toUInt16 = c := by
      simp [decodeUnit, hhigh, hlow, hu]
    cases s with
    | nil => simp [fromUtf16, hunit]
    | cons v s => simp [fromUtf16, hhigh, hunit]
  . next h =>
    have hu : ((0xd800 + (c.toNat - 0x10000) / 0x400).toUInt16).toNat =
        0xd800 + (c.toNat - 0x10000) / 0x400 := by
      simp only [Nat.toUInt16_eq, UInt16.toNat_ofNat']
      omega
    have hv : ((0xdc00 + (c.toNat - 0x10000) % 0x400).toUInt16).toNat =
        0xdc00 + (c.toNat - 0x10000) % 0x400 := by
      simp only [Nat.toUInt16_eq, UInt16.toNat_ofNat']
      omega
    have hpair : (isHighSurrogate (0xd800 + (c.toNat - 0x10000) / 0x400).toUInt16 &&
        isLowSurrogate (0xdc00 + (c.toNat - 0x10000) % 0x400).toUInt16) = true := by
      simp only [isHighSurrogate, isLowSurrogate, hu, hv, Bool.and_eq_true, decide_eq_true_eq]
      omega
    have hvalue : 0x10000 + (0xd800 + (c.toNat - 0x10000) / 0x400 - 0xd800) * 0x400 +
        (0xdc00 + (c.toNat - 0x10000) % 0x400 - 0xdc00) = c.toNat := by omega
    rw [List.cons_append, List.cons_append, List.nil_append, fromUtf16, if_pos hpair, hu, hv,
      hvalue, Char.ofNat_toNat]

theorem fromUtf16_toUtf16 (t : Text) : fromUtf16 (toUtf16 t) = t := by
  induction t with
  | nil => rfl
  | cons c t ih =>
    rw [toUtf16, List.flatMap_cons, fromUtf16_append]
    exact congrArg (c :: ·) ih

theorem isWellFormed_toUtf16 (t : Text) : isWellFormed (toUtf16 t) = true := by
  simp [isWellFormed, fromUtf16_toUtf16]

/-- All white space is of one unit. -/
def isSpaceUnit (u : UInt16) : Bool := isWhiteSpace (decodeUnit u)

/-- `s.trim()` -/
def trimUnits (s : JsString) : JsString := (s.dropWhile isSpaceUnit).rdropWhile isSpaceUnit

theorem dropWhile_of_prefix {s t : JsString} (h : t <+: s.dropWhile isSpaceUnit) :
    t.dropWhile isSpaceUnit = t := by
  rw [List.dropWhile_eq_self_iff]
  intro hl
  have hself := List.dropWhile_eq_self_iff.mp (List.dropWhile_idempotent isSpaceUnit s)
  rw [h.getElem hl]
  exact hself _

theorem trimUnits_trimUnits (s : JsString) : trimUnits (trimUnits s) = trimUnits s := by
  have hstart : (trimUnits s).dropWhile isSpaceUnit = trimUnits s :=
    dropWhile_of_prefix (List.rdropWhile_prefix isSpaceUnit _)
  conv_lhs => rw [trimUnits, hstart]
  exact List.rdropWhile_idempotent _ _

/-- What starts what was trimmed is not all white space. -/
theorem trimUnits_ne_nil {s t : JsString} (hs : trimUnits s = s) (ht : t <+: s) (hne : t ≠ []) :
    trimUnits t ≠ [] := by
  have hstart : t.dropWhile isSpaceUnit = t := by
    apply dropWhile_of_prefix (s := s)
    have hprefix : s <+: s.dropWhile isSpaceUnit := by
      conv_lhs => rw [← hs]
      exact List.rdropWhile_prefix isSpaceUnit _
    exact ht.trans hprefix
  rw [trimUnits, hstart]
  intro hnil
  rw [List.rdropWhile_eq_nil_iff] at hnil
  cases t with
  | nil => contradiction
  | cons u t =>
    have hnone := List.dropWhile_eq_self_iff.mp hstart (Nat.succ_pos _)
    exact hnone (hnil u (List.mem_cons_self))

/-! ### UTF-8 -/

/-- The bytes of a character. -/
def utf8Char (c : Char) : List Nat :=
  let n := c.toNat
  if n < 0x80 then [n]
  else if n < 0x800 then [0xc0 + n / 0x40, 0x80 + n % 0x40]
  else if n < 0x10000 then [0xe0 + n / 0x1000, 0x80 + n / 0x40 % 0x40, 0x80 + n % 0x40]
  else
    [0xf0 + n / 0x40000, 0x80 + n / 0x1000 % 0x40, 0x80 + n / 0x40 % 0x40, 0x80 + n % 0x40]

/-- `Buffer.from(t, 'utf8')` -/
def utf8 (t : Text) : List Nat := t.flatMap utf8Char

/-- A sequence of which `needed` bytes are missing; the next one is between `lower` and `upper`. -/
structure Pending where
  needed : Nat
  value : Nat
  lower : Nat
  upper : Nat

/-- The first byte of a sequence: what it decodes to alone, or the sequence it starts. -/
def utf8Start (b : Nat) : Text × Option Pending :=
  if b < 0x80 then ([Char.ofNat b], none)
  else if 0xc2 ≤ b && b ≤ 0xdf then ([], some ⟨1, b - 0xc0, 0x80, 0xbf⟩)
  else if 0xe0 ≤ b && b ≤ 0xef then
    ([], some ⟨2, b - 0xe0, if b = 0xe0 then 0xa0 else 0x80, if b = 0xed then 0x9f else 0xbf⟩)
  else if 0xf0 ≤ b && b ≤ 0xf4 then
    ([], some ⟨3, b - 0xf0, if b = 0xf0 then 0x90 else 0x80, if b = 0xf4 then 0x8f else 0xbf⟩)
  else ([replacement], none)

/-- `toString('utf8')`: what does not continue its sequence is replaced and read as a first byte. -/
def utf8Decode (pending : Option Pending) (bs : List Nat) : Text :=
  match bs with
  | [] => if pending.isSome then [replacement] else []
  | b :: bs =>
    match pending with
    | none => (utf8Start b).1 ++ utf8Decode (utf8Start b).2 bs
    | some p =>
      if p.lower ≤ b && b ≤ p.upper then
        let value := p.value * 0x40 + (b - 0x80)
        if p.needed = 1 then Char.ofNat value :: utf8Decode none bs
        else utf8Decode (some ⟨p.needed - 1, value, 0x80, 0xbf⟩) bs
      else
        replacement :: (utf8Start b).1 ++ utf8Decode (utf8Start b).2 bs

theorem utf8Decode_last {value lower upper b : Nat} (bs : List Nat) (h : lower ≤ b ∧ b ≤ upper) :
    utf8Decode (some ⟨1, value, lower, upper⟩) (b :: bs) =
      Char.ofNat (value * 0x40 + (b - 0x80)) :: utf8Decode none bs := by
  rw [utf8Decode, if_pos (by simpa using h)]
  rfl

theorem utf8Decode_more {needed value lower upper b : Nat} (bs : List Nat)
    (h : lower ≤ b ∧ b ≤ upper) :
    utf8Decode (some ⟨needed + 2, value, lower, upper⟩) (b :: bs) =
      utf8Decode (some ⟨needed + 1, value * 0x40 + (b - 0x80), 0x80, 0xbf⟩) bs := by
  rw [utf8Decode, if_pos (by simpa using h)]
  rfl

theorem utf8Decode_append (c : Char) (bs : List Nat) :
    utf8Decode none (utf8Char c ++ bs) = c :: utf8Decode none bs := by
  have hc := toNat_cases c
  unfold utf8Char
  dsimp only
  split_ifs with h₁ h₂ h₃
  . simp [utf8Decode, utf8Start, h₁]
  . have hvalue : (0xc0 + c.toNat / 0x40 - 0xc0) * 0x40 + (0x80 + c.toNat % 0x40 - 0x80) =
        c.toNat := by omega
    rw [List.cons_append, utf8Decode, utf8Start, if_neg (by omega),
      if_pos (by simp only [Bool.and_eq_true, decide_eq_true_eq]; omega)]
    rw [List.cons_append, List.nil_append, List.nil_append,
      utf8Decode_last _ (by omega), hvalue, Char.ofNat_toNat]
  . have hvalue : ((0xe0 + c.toNat / 0x1000 - 0xe0) * 0x40 +
        (0x80 + c.toNat / 0x40 % 0x40 - 0x80)) * 0x40 + (0x80 + c.toNat % 0x40 - 0x80) =
        c.toNat := by omega
    rw [List.cons_append, utf8Decode, utf8Start, if_neg (by omega),
      if_neg (by simp only [Bool.and_eq_true, decide_eq_true_eq]; omega),
      if_pos (by simp only [Bool.and_eq_true, decide_eq_true_eq]; omega)]
    rw [List.cons_append, List.cons_append, List.nil_append, List.nil_append, utf8Decode_more,
      utf8Decode_last, hvalue, Char.ofNat_toNat]
    . omega
    . -- the ranges after the first byte leave out the surrogates and the longer spellings
      constructor
      . split <;> omega
      . split <;> omega
  . have hvalue : (((0xf0 + c.toNat / 0x40000 - 0xf0) * 0x40 +
        (0x80 + c.toNat / 0x1000 % 0x40 - 0x80)) * 0x40 +
        (0x80 + c.toNat / 0x40 % 0x40 - 0x80)) * 0x40 + (0x80 + c.toNat % 0x40 - 0x80) =
        c.toNat := by omega
    rw [List.cons_append, utf8Decode, utf8Start, if_neg (by omega),
      if_neg (by simp only [Bool.and_eq_true, decide_eq_true_eq]; omega),
      if_neg (by simp only [Bool.and_eq_true, decide_eq_true_eq]; omega),
      if_pos (by simp only [Bool.and_eq_true, decide_eq_true_eq]; omega)]
    rw [List.cons_append, List.cons_append, List.cons_append, List.nil_append, List.nil_append,
      utf8Decode_more, utf8Decode_more, utf8Decode_last, hvalue, Char.ofNat_toNat]
    . omega
    . omega
    . constructor
      . split <;> omega
      . split <;> omega

theorem utf8Decode_utf8 (t : Text) : utf8Decode none (utf8 t) = t := by
  induction t with
  | nil => rfl
  | cons c t ih =>
    rw [utf8, List.flatMap_cons, utf8Decode_append]
    exact congrArg (c :: ·) ih

theorem lt_of_mem_utf8 {t : Text} {b : Nat} (h : b ∈ utf8 t) : b < 256 := by
  rcases List.mem_flatMap.mp h with ⟨c, _, hb⟩
  have hc := toNat_cases c
  unfold utf8Char at hb
  dsimp only at hb
  split_ifs at hb <;> simp only [List.mem_cons, List.not_mem_nil, or_false] at hb <;> omega

/-! ### Base64 -/

def base64Alphabet : Text :=
  "ABCDEFGHIJKLMNOPQRSTUVWXYZabcdefghijklmnopqrstuvwxyz0123456789+/".toList

def base64Char (n : Nat) : Char := base64Alphabet.getD n '='

/-- The six bits of a digit, in either alphabet. -/
def sextetOf (c : Char) : Option Nat :=
  if c = '-' then some 62
  else if c = '_' then some 63
  else base64Alphabet.findIdx? (· = c)

def sextets (bs : List Nat) : List Nat :=
  match bs with
  | [] => []
  | [a] => [a / 4, a % 4 * 16]
  | [a, b] => [a / 4, a % 4 * 16 + b / 16, b % 16 * 4]
  | a :: b :: c :: rest =>
    [a / 4, a % 4 * 16 + b / 16, b % 16 * 4 + c / 64, c % 64] ++ sextets rest

/-- `toString('base64')` -/
def base64 (bs : List Nat) : Text :=
  (sextets bs).map base64Char ++ List.replicate ((3 - bs.length % 3) % 3) '='

def ofSextets (ss : List Nat) : List Nat :=
  match ss with
  | w :: x :: y :: z :: rest =>
    [w * 4 + x / 16, x % 16 * 16 + y / 4, y % 4 * 64 + z] ++ ofSextets rest
  | [w, x, y] => [w * 4 + x / 16, x % 16 * 16 + y / 4]
  | [w, x] => [w * 4 + x / 16]
  | [_] | [] => []

/-- `Buffer.from(t, 'base64')`, which ends at the padding and skips what is not a digit. -/
def base64Decode (t : Text) : List Nat :=
  ofSextets ((t.takeWhile (· ≠ '=')).filterMap sextetOf)

theorem ofSextets_sextets {bs : List Nat} (h : ∀ b ∈ bs, b < 256) : ofSextets (sextets bs) = bs := by
  fun_induction sextets bs with
  | case1 => rfl
  | case2 a =>
    simp only [ofSextets]
    simp
    omega
  | case3 a b =>
    simp only [List.forall_mem_cons] at h
    simp only [ofSextets, List.cons.injEq, and_true]
    omega
  | case4 a b c rest ih =>
    simp only [List.forall_mem_cons] at h
    rw [List.cons_append, List.cons_append, List.cons_append, List.cons_append, List.nil_append,
      ofSextets, ih h.2.2.2]
    simp only [List.cons_append, List.nil_append, List.cons.injEq, and_true]
    omega

theorem lt_of_mem_sextets {bs : List Nat} (h : ∀ b ∈ bs, b < 256) : ∀ s ∈ sextets bs, s < 64 := by
  fun_induction sextets bs with
  | case1 => simp
  | case2 a =>
    simp only [List.forall_mem_cons, List.not_mem_nil, false_implies, implies_true, and_true] at *
    omega
  | case3 a b =>
    simp only [List.forall_mem_cons, List.not_mem_nil, false_implies, implies_true, and_true] at *
    omega
  | case4 a b c rest ih =>
    simp only [List.forall_mem_cons, List.forall_mem_append, List.not_mem_nil, false_implies,
      implies_true, and_true] at *
    exact ⟨⟨by omega, by omega, by omega, by omega⟩, ih h.2.2.2⟩

theorem base64Alphabet_eq : base64Alphabet =
    ['A', 'B', 'C', 'D', 'E', 'F', 'G', 'H', 'I', 'J', 'K', 'L', 'M', 'N', 'O', 'P', 'Q',
      'R', 'S', 'T', 'U', 'V', 'W', 'X', 'Y', 'Z', 'a', 'b', 'c', 'd', 'e', 'f', 'g', 'h',
      'i', 'j', 'k', 'l', 'm', 'n', 'o', 'p', 'q', 'r', 's', 't', 'u', 'v', 'w', 'x', 'y',
      'z', '0', '1', '2', '3', '4', '5', '6', '7', '8', '9', '+', '/'] :=
  String.toList_ofList

theorem sextetOf_base64Char {n : Nat} (h : n < 64) :
    sextetOf (base64Char n) = some n ∧ base64Char n ≠ '=' ∧ base64Char n ≠ '-' ∧
      base64Char n ≠ '_' := by
  unfold sextetOf base64Char
  rw [base64Alphabet_eq]
  revert n
  decide +kernel

/-- Digits decode to the bytes they encode, whatever padding follows them. -/
theorem base64Decode_digits {bs : List Nat} (h : ∀ b ∈ bs, b < 256) (n : Nat) :
    base64Decode ((sextets bs).map base64Char ++ List.replicate n '=') = bs := by
  have hlt := lt_of_mem_sextets h
  have hdigits : ∀ c ∈ (sextets bs).map base64Char, decide (c ≠ '=') = true := by
    intro c hc
    rcases List.mem_map.mp hc with ⟨s, hs, rfl⟩
    exact decide_eq_true (sextetOf_base64Char (hlt s hs)).2.1
  have hpadding : (List.replicate n '=').takeWhile (fun c => decide (c ≠ '=')) = [] := by
    cases n with
    | zero => rfl
    | succ n => simp [List.replicate_succ]
  have hback : ((sextets bs).map base64Char).filterMap sextetOf = sextets bs := by
    rw [List.filterMap_map]
    conv_rhs => rw [← List.filterMap_some (l := sextets bs)]
    apply List.filterMap_congr
    intro s hs
    exact (sextetOf_base64Char (hlt s hs)).1
  rw [base64Decode, List.takeWhile_append_of_pos hdigits, hpadding, List.append_nil, hback,
    ofSextets_sextets h]

end OpenWA.Js
