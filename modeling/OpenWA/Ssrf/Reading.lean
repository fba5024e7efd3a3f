import OpenWA.Ssrf.SsrfGuard
import Mathlib.Data.List.Forall2
import Mathlib.Tactic.SplitIfs

/-!
This module contains the agreement of the two readings of an IPv6 literal: `expandIPv6`, applied to
the literal in lower case, finds the hextets that the platform finds in the literal.
-/

namespace OpenWA.Ssrf

open Js

def toLowerCase (t : Text) : Text := t.map Char.toLower

section LowerCase

theorem isHexDigit_iff (c : Char) : isHexDigit c = true ↔
    48 ≤ c.toNat ∧ c.toNat ≤ 57 ∨ 97 ≤ c.toNat ∧ c.toNat ≤ 102 ∨ 65 ≤ c.toNat ∧ c.toNat ≤ 70 := by
  have hle (a b : Char) : a ≤ b ↔ a.toNat ≤ b.toNat := UInt32.le_iff_toNat_le
  simp only [isHexDigit, Bool.or_eq_true, Bool.and_eq_true, decide_eq_true_eq, hle, isDigit_iff]
  exact or_assoc

theorem isHexDigit_toLower (c : Char) : isHexDigit c.toLower = isHexDigit c := by
  rw [Bool.eq_iff_iff, isHexDigit_iff, isHexDigit_iff, toNat_toLower]
  split <;> omega

theorem hexDigitValue_toLower (c : Char) : hexDigitValue c.toLower = hexDigitValue c := by
  have hle (a b : Char) : a ≤ b ↔ a.toNat ≤ b.toNat := UInt32.le_iff_toNat_le
  simp only [hexDigitValue, isDigit_toLower, isDigit_iff, hle, toNat_toLower]
  have : '0'.toNat = 48 := rfl
  have : 'a'.toNat = 97 := rfl
  have : 'A'.toNat = 65 := rfl
  split_ifs <;> omega

theorem splitOn_toLowerCase {s : Char} (hs : s.toNat < 65) (t : Text) :
    (toLowerCase t).splitOn s = (t.splitOn s).map toLowerCase := by
  induction t with
  | nil => rfl
  | cons c t ih =>
    simp only [toLowerCase, List.map_cons] at *
    rw [List.splitOn_cons_eq_if_modifyHead, List.splitOn_cons_eq_if_modifyHead, ih]
    simp only [beq_iff_eq, toLower_eq_iff hs]
    split
    . simp [toLowerCase]
    . have hne := List.splitOn_ne_nil s t
      cases h : t.splitOn s with
      | nil => contradiction
      | cons p ps => simp [toLowerCase]

theorem cut_toLowerCase (t : Text) :
    cut (toLowerCase t) = (toLowerCase (cut t).1, (cut t).2.map toLowerCase) := by
  have hcolon := toLower_eq_iff (s := ':') (by decide)
  fun_induction cut t with
  | case1 rest => simp [cut, toLowerCase, (hcolon ':').mpr rfl]
  | case2 c rest hne ih =>
    have hne' : ∀ rest', ¬(c.toLower :: toLowerCase rest = ':' :: ':' :: rest') := by
      intro rest' heq
      cases rest with
      | nil => simp [toLowerCase] at heq
      | cons d rest =>
        simp only [toLowerCase, List.map_cons, List.cons.injEq, hcolon] at heq
        exact hne rest heq.1 (by rw [heq.2.1])
    have : cut (c.toLower :: toLowerCase rest) =
        (c.toLower :: (cut (toLowerCase rest)).1, (cut (toLowerCase rest)).2) := by
      rw [cut]
      intro rest' h₁ h₂
      exact hne' rest' (by rw [h₁, h₂])
    have hcons : toLowerCase (c :: rest) = c.toLower :: toLowerCase rest := rfl
    rw [hcons, this, ih]
    simp [toLowerCase]
  | case3 => rfl

theorem readGroup_toLowerCase (p : Text) : readGroup (toLowerCase p) = readGroup p := by
  have hall : (toLowerCase p).all isHexDigit = p.all isHexDigit := by
    simp only [toLowerCase, List.all_map, Function.comp_def, isHexDigit_toLower]
  have hvalue : hexValue (toLowerCase p) = hexValue p := by
    simp only [hexValue, toLowerCase, List.foldl_map, hexDigitValue_toLower]
  have hlength : (toLowerCase p).length = p.length := by simp [toLowerCase]
  simp only [readGroup, hall, hlength, hvalue]

theorem readOctet_toLowerCase (p : Text) : readOctet (toLowerCase p) = readOctet p := by
  have hall : (toLowerCase p).all Char.isDigit = p.all Char.isDigit := by
    simp only [toLowerCase, List.all_map, Function.comp_def, isDigit_toLower]
  by_cases hdigits : p.all Char.isDigit = true
  . have heq : toLowerCase p = p := by
      rw [toLowerCase]
      conv_rhs => rw [← List.map_id p]
      apply List.map_congr_left
      intro c hc
      exact toLower_of_isDigit (List.all_eq_true.mp hdigits c hc)
    rw [heq]
  . have hnone (q : Text) (hq : ¬q.all Char.isDigit = true) : readOctet q = none := by
      unfold readOctet
      split
      . rfl
      . rw [if_neg]
        simp only [Bool.and_eq_true]
        intro h
        exact hq h.1.1.1
    rw [hnone p hdigits, hnone _ (by rw [hall]; exact hdigits)]

theorem mapM_toLowerCase {f : Text → Option Nat} (h : ∀ p, f (toLowerCase p) = f p)
    (ps : List Text) : (ps.map toLowerCase).mapM f = ps.mapM f := by
  induction ps with
  | nil => rfl
  | cons p ps ih => simp [h, ih]

theorem readIPv4_toLowerCase (t : Text) : readIPv4 (toLowerCase t) = readIPv4 t := by
  simp only [readIPv4, splitOn_toLowerCase (s := '.') (by decide),
    mapM_toLowerCase readOctet_toLowerCase]

theorem readFields_toLowerCase (ps : List Text) :
    readFields (ps.map toLowerCase) = readFields ps := by
  fun_induction readFields ps with
  | case1 => rfl
  | case2 p g h => simp [readFields, readGroup_toLowerCase, h]
  | case3 p h => simp [readFields, readGroup_toLowerCase, h, readIPv4_toLowerCase]
  | case4 p ps hne g gs hg hgs ih =>
    cases ps with
    | nil => contradiction
    | cons q ps =>
      simp only [List.map_cons] at ih ⊢
      simp [readFields, readGroup_toLowerCase, hg, ih, hgs]
  | case5 p ps hne hno ih =>
    cases ps with
    | nil => contradiction
    | cons q ps =>
      simp only [List.map_cons] at ih ⊢
      simp only [readFields, readGroup_toLowerCase, ih]

theorem isEmpty_toLowerCase (t : Text) : (toLowerCase t).isEmpty = t.isEmpty := by
  cases t <;> rfl

theorem readAddress_toLowerCase (t : Text) : readAddress (toLowerCase t) = readAddress t := by
  have hlast (u : Text) : readLast (toLowerCase u) = readLast u := by
    simp only [readLast, isEmpty_toLowerCase, splitOn_toLowerCase (s := ':') (by decide),
      readFields_toLowerCase]
  have hgroups (u : Text) : readGroups (toLowerCase u) = readGroups u := by
    simp only [readGroups, isEmpty_toLowerCase, splitOn_toLowerCase (s := ':') (by decide),
      mapM_toLowerCase readGroup_toLowerCase]
  unfold readAddress
  rw [cut_toLowerCase]
  rcases cut t with ⟨before, _ | after⟩
  . simp [hlast]
  . simp [hlast, hgroups]

end LowerCase

theorem mapM_some_iff {α β : Type} {f : α → Option β} {l : List α} {r : List β} :
    List.Forall₂ (fun x y => f x = some y) l r ↔ l.mapM f = some r := by
  induction l generalizing r with
  | nil => simp [eq_comm]
  | cons x l ih =>
    simp only [List.mapM_cons, Option.bind_eq_bind, Option.bind_eq_some_iff, Option.pure_def,
      Option.some.injEq, List.forall₂_cons_left_iff, ih]
    constructor
    . rintro ⟨y, r, hx, hl, rfl⟩
      exact ⟨y, hx, r, hl, rfl⟩
    . rintro ⟨y, hx, r, hl, rfl⟩
      exact ⟨y, r, hx, hl, rfl⟩

section Cut

theorem cut_some {t a b : Text} (h : cut t = (a, some b)) : t = a ++ ':' :: ':' :: b := by
  fun_induction cut t generalizing a with
  | case1 rest =>
    simp only [Prod.mk.injEq, Option.some.injEq] at h
    simp [← h.1, h.2]
  | case2 c rest hne ih =>
    simp only [Prod.mk.injEq] at h
    rw [← h.1, List.cons_append, ← ih (a := (cut rest).1) (by rw [← h.2])]
  | case3 => simp at h

theorem cut_none {t a : Text} (h : cut t = (a, none)) : a = t := by
  fun_induction cut t generalizing a with
  | case1 rest => simp at h
  | case2 c rest hne ih =>
    simp only [Prod.mk.injEq] at h
    rw [← h.1, ih (a := (cut rest).1) (by rw [← h.2])]
  | case3 => simpa using h.symm

/-- The first `::` stays the first whatever follows it. -/
theorem cut_replace {t a b : Text} (h : cut t = (a, some b)) (b' : Text) :
    cut (a ++ ':' :: ':' :: b') = (a, some b') := by
  fun_induction cut t generalizing a with
  | case1 rest =>
    simp only [Prod.mk.injEq, Option.some.injEq] at h
    simp [← h.1, cut]
  | case2 c rest hne ih =>
    simp only [Prod.mk.injEq] at h
    have hrest := ih (a := (cut rest).1) (by rw [← h.2])
    have hshape := cut_some (t := rest) (a := (cut rest).1) (b := b) (by rw [← h.2])
    rw [← h.1, List.cons_append, cut]
    . rw [hrest]
    . intro rest' hc hcons
      cases ha : (cut rest).1 with
      | nil =>
        -- then `rest` itself starts with the separator
        rw [ha] at hshape
        exact hne (':' :: b) hc hshape
      | cons d a' =>
        rw [ha] at hshape hcons
        simp only [List.cons_append, List.cons.injEq] at hcons
        exact hne _ hc (by rw [hshape, List.cons_append, hcons.1])
  | case3 => simp at h

/-- A text whose fields are all there has no `::`. -/
theorem cut_of_fields {t : Text} (h : [] ∉ t.splitOn ':') : cut t = (t, none) := by
  rcases hcut : cut t with ⟨a, _ | b⟩
  . rw [cut_none hcut]
  . rw [cut_some hcut, List.splitOn_append_cons_self] at h
    simp [List.splitOn_cons_eq_if_modifyHead] at h

theorem splitPair_of_cut (t : Text) :
    splitPair t = match cut t with
      | (a, none) => [a]
      | (a, some b) => a :: splitPair b := by
  fun_induction cut t with
  | case1 rest => simp [splitPair]
  | case2 c rest hne ih =>
    rw [splitPair]
    . rw [ih]
      rcases cut rest with ⟨a, _ | b⟩ <;> rfl
    . exact hne
  | case3 => rfl

end Cut

section Fields

theorem mem_of_mem_splitOn {s c : Char} {t : Text} (hc : c ∈ t) (hne : c ≠ s) :
    ∃ p ∈ t.splitOn s, c ∈ p := by
  have hjoin : [s].intercalate (t.splitOn s) = t := List.intercalate_splitOn s
  rw [← hjoin] at hc
  generalize t.splitOn s = ps at hc
  induction ps with
  | nil => simp at hc
  | cons p ps ih =>
    by_cases hp : c ∈ p
    . exact ⟨p, by simp, hp⟩
    . cases ps with
      | nil => simp [hp] at hc
      | cons q ps =>
        have hrest : c ∈ [s].intercalate (q :: ps) := by
          simpa [List.intercalate_cons_cons, hp, hne] using hc
        rcases ih hrest with ⟨p', hmem, hin⟩
        exact ⟨p', List.mem_cons_of_mem _ hmem, hin⟩

theorem splitOn_last {s : Char} {t d : Text} {init : List Text} (h : t.splitOn s = init ++ [d]) :
    ∃ before, t = before ++ d ∧ (before = [] ∨ ∃ q, before = q ++ [s]) ∧
      ∀ z, (before ++ z).splitOn s = init ++ z.splitOn s := by
  by_cases hs : s ∈ t
  . rcases List.eq_append_cons_of_mem (List.mem_reverse.mpr hs) with ⟨d', q, hrev, hfree⟩
    have ht : t = q.reverse ++ s :: d'.reverse := by
      have := congrArg List.reverse hrev
      simpa using this
    have hlast : d'.reverse.splitOn s = [d'.reverse] :=
      List.splitOn_eq_singleton (by simpa using hfree)
    rw [ht, List.splitOn_append_cons_self, hlast] at h
    rcases List.append_inj' h rfl with ⟨hinit, hd⟩
    simp only [List.cons.injEq, and_true] at hd
    refine ⟨q.reverse ++ [s], by rw [ht, ← hd]; simp, .inr ⟨_, rfl⟩, ?_⟩
    intro z
    rw [List.append_assoc, List.singleton_append, List.splitOn_append_cons_self, hinit]
  . rw [List.splitOn_eq_singleton hs] at h
    rcases List.append_inj' (show [] ++ [t] = init ++ [d] from h) rfl with ⟨hinit, hd⟩
    simp only [List.cons.injEq, and_true] at hd
    refine ⟨[], by simpa using hd, .inl rfl, ?_⟩
    intro z
    rw [← hinit]
    rfl

/-- Fields are groups, up to a dotted quad at the end. -/
theorem readFields_cases {ps : List Text} {gs : List Nat} (h : readFields ps = some gs) :
    ps.mapM readGroup = some gs ∨
    ∃ init d gs₀ a, ps = init ++ [d] ∧ init.mapM readGroup = some gs₀ ∧ readIPv4 d = some a ∧
      gs = gs₀ ++ [a / 65536, a % 65536] := by
  fun_induction readFields ps generalizing gs with
  | case1 => exact .inl (by simpa using h)
  | case2 p g hg => exact .inl (by simpa [hg] using h)
  | case3 p hg =>
    simp only [Option.map_eq_some_iff] at h
    rcases h with ⟨a, ha, rfl⟩
    exact .inr ⟨[], p, [], a, rfl, rfl, ha, rfl⟩
  | case4 p ps hne g gs' hgs hg ih =>
    simp only [Option.some.injEq] at h
    subst h
    rcases ih hgs with hgroups | ⟨init, d, gs₀, a, rfl, hinit, ha, rfl⟩
    . exact .inl (by simp [hg, hgroups])
    . exact .inr ⟨p :: init, d, g :: gs₀, a, rfl, by simp [hg, hinit], ha, rfl⟩
  | case5 => contradiction

end Fields

section Dotted

theorem all_of_readOctet {p : Text} {n : Nat} (h : readOctet p = some n) :
    p.all Char.isDigit = true ∧ 1 ≤ p.length ∧ p.length ≤ 3 ∧ n ≤ 255 ∧ digitsValue p = n := by
  unfold readOctet at h
  split at h
  . contradiction
  . next c rest =>
    split at h
    . next hcond =>
      simp only [Bool.and_eq_true, decide_eq_true_eq] at hcond
      simp only [Option.some.injEq] at h
      exact ⟨hcond.1.1.1, by simp, hcond.1.1.2, h ▸ hcond.2, h⟩
    . contradiction

theorem readIPv4_cases {t : Text} {v : Nat} (h : readIPv4 t = some v) :
    ∃ p q r s a b c d, t.splitOn '.' = [p, q, r, s] ∧ readOctet p = some a ∧
      readOctet q = some b ∧ readOctet r = some c ∧ readOctet s = some d ∧
      v = ((a * 256 + b) * 256 + c) * 256 + d := by
  unfold readIPv4 at h
  split at h
  . next a b c d hmap =>
    simp only [Option.some.injEq] at h
    generalize t.splitOn '.' = ps at hmap
    rw [← mapM_some_iff] at hmap
    cases hmap with
    | cons ha hmap =>
      cases hmap with
      | cons hb hmap =>
        cases hmap with
        | cons hc hmap =>
          cases hmap with
          | cons hd hmap =>
            cases hmap
            exact ⟨_, _, _, _, a, b, c, d, rfl, ha, hb, hc, hd, h.symm⟩
  . contradiction

theorem isDottedQuad_of_readIPv4 {t : Text} {v : Nat} (h : readIPv4 t = some v) :
    isDottedQuad t = true := by
  rcases readIPv4_cases h with ⟨p, q, r, s, a, b, c, d, hsplit, ha, hb, hc, hd, _⟩
  have part {p : Text} {n : Nat} (hp : readOctet p = some n) :
      (1 ≤ p.length && p.length ≤ 3 && p.all Char.isDigit) = true := by
    rcases all_of_readOctet hp with ⟨hall, hpos, hle, _⟩
    simp only [Bool.and_eq_true, decide_eq_true_eq]
    exact ⟨⟨hpos, hle⟩, hall⟩
  simp only [isDottedQuad, hsplit, List.all_cons, part ha, part hb, part hc, part hd]
  rfl

theorem chars_of_isDottedQuad {t : Text} (h : isDottedQuad t = true) {c : Char} (hc : c ∈ t) :
    c = '.' ∨ c.isDigit = true := by
  simp only [isDottedQuad, Bool.and_eq_true, List.all_eq_true] at h
  by_cases hdot : c = '.'
  . exact .inl hdot
  . rcases mem_of_mem_splitOn hc hdot with ⟨p, hp, hin⟩
    exact .inr ((h.2 p hp).2 c hin)

theorem dot_of_isDottedQuad {t : Text} (h : isDottedQuad t = true) : '.' ∈ t := by
  by_contra hnone
  simp only [isDottedQuad, List.splitOn_eq_singleton hnone] at h
  simp at h

theorem matchDotted_none {t : Text} (h : '.' ∉ t) : matchDotted t = none := by
  induction t with
  | nil => rfl
  | cons c t ih =>
    have hnot : ¬isDottedQuad (c :: t) = true := fun hquad => h (dot_of_isDottedQuad hquad)
    rw [matchDotted, if_neg hnot, ih fun hin => h (List.mem_cons_of_mem _ hin)]
    rfl

theorem matchDotted_append {before d : Text} (hquad : isDottedQuad d = true)
    (hbefore : before = [] ∨ ∃ q, before = q ++ [':']) :
    matchDotted (before ++ d) = some (before, d.splitOn '.') := by
  induction before with
  | nil =>
    cases d with
    | nil => exact absurd (dot_of_isDottedQuad hquad) (by simp)
    | cons c d => rw [List.nil_append, matchDotted, if_pos hquad]
  | cons c before ih =>
    have hcolon : ':' ∈ c :: before := by
      rcases hbefore with hnil | ⟨q, hq⟩
      . contradiction
      . rw [hq]
        simp
    have hnot : ¬isDottedQuad (c :: (before ++ d)) = true := by
      intro hquad'
      have hmem : ':' ∈ c :: (before ++ d) := by
        rw [← List.cons_append]
        exact List.mem_append_left _ hcolon
      have := chars_of_isDottedQuad hquad' hmem
      simp at this
    have hrest : before = [] ∨ ∃ q, before = q ++ [':'] := by
      rcases hbefore with hnil | ⟨q, hq⟩
      . contradiction
      . cases q with
        | nil => exact .inl (by simpa using (List.cons.inj hq).2)
        | cons e q => exact .inr ⟨q, (List.cons.inj hq).2⟩
    rw [List.cons_append, matchDotted, if_neg hnot, ih hrest]
    rfl

end Dotted

section Hex

theorem hexDigitValue_digitChar {n : Nat} (h : n < 16) :
    hexDigitValue n.digitChar = n ∧
      (n.digitChar.isDigit || ('a' ≤ n.digitChar && n.digitChar ≤ 'f')) = true := by
  revert n
  decide

theorem toDigits_hex (n : Nat) :
    hexValue (Nat.toDigits 16 n) = n ∧
      ∀ c ∈ Nat.toDigits 16 n, (c.isDigit || ('a' ≤ c && c ≤ 'f')) = true := by
  induction n using Nat.strongRecOn with
  | ind n ih =>
    rw [Nat.toDigits_eq_if (by decide)]
    split
    . next h =>
      have hdigit := hexDigitValue_digitChar h
      refine ⟨by simpa [hexValue] using hdigit.1, ?_⟩
      intro c hc
      rw [List.mem_singleton.mp hc]
      exact hdigit.2
    . next h =>
      rcases ih (n / 16) (by omega) with ⟨hvalue, hchars⟩
      have hdigit := hexDigitValue_digitChar (n := n % 16) (by omega)
      constructor
      . simp only [hexValue, List.foldl_append, List.foldl_cons, List.foldl_nil] at hvalue ⊢
        rw [hvalue, hdigit.1]
        omega
      . intro c hc
        rcases List.mem_append.mp hc with hc | hc
        . exact hchars c hc
        . rw [List.mem_singleton.mp hc]
          exact hdigit.2

theorem isLowerGroup_toDigits {n : Nat} (h : n < 65536) :
    isLowerGroup (Nat.toDigits 16 n) = true := by
  have hpos : 1 ≤ (Nat.toDigits 16 n).length := Nat.length_toDigits_pos
  have hle : (Nat.toDigits 16 n).length ≤ 4 :=
    (Nat.length_toDigits_le_iff (by decide) (by decide)).mpr h
  simp only [isLowerGroup, Bool.and_eq_true, decide_eq_true_eq, List.all_eq_true]
  exact ⟨⟨hpos, hle⟩, (toDigits_hex n).2⟩

end Hex

section Expand

/-- No character is an upper-case letter. -/
def IsLower (t : Text) : Prop := ∀ c ∈ t, ¬(65 ≤ c.toNat ∧ c.toNat ≤ 90)

theorem isLower_toLowerCase (t : Text) : IsLower (toLowerCase t) := by
  intro c hc
  rcases List.mem_map.mp hc with ⟨d, _, rfl⟩
  rw [toNat_toLower]
  split <;> omega

theorem mem_of_splitOn {s c : Char} {t p : Text} (hp : p ∈ t.splitOn s) (hc : c ∈ p) : c ∈ t := by
  have hjoin : [s].intercalate (t.splitOn s) = t := List.intercalate_splitOn s
  rw [← hjoin]
  generalize t.splitOn s = ps at hp
  induction ps with
  | nil => contradiction
  | cons q ps ih =>
    cases ps with
    | nil =>
      rw [List.mem_singleton.mp hp] at hc
      simpa using hc
    | cons r ps =>
      rw [List.intercalate_cons_cons]
      rcases List.mem_cons.mp hp with rfl | hp
      . simp [hc]
      . exact List.mem_append_right _ (ih hp)

/-- The parse of one part. -/
def parsePart (h : Text) : Option Nat := if isLowerGroup h then some (hexValue h) else none

theorem parsePart_of_readGroup {p : Text} {g : Nat} (hlower : IsLower p)
    (h : readGroup p = some g) : parsePart p = some g := by
  unfold readGroup at h
  split at h
  . next hcond =>
    simp only [Bool.and_eq_true, decide_eq_true_eq, List.all_eq_true] at hcond
    have hle (a b : Char) : a ≤ b ↔ a.toNat ≤ b.toNat := UInt32.le_iff_toNat_le
    have hgroup : isLowerGroup p = true := by
      simp only [isLowerGroup, Bool.and_eq_true, decide_eq_true_eq, List.all_eq_true,
        Bool.or_eq_true]
      refine ⟨hcond.1, ?_⟩
      intro c hc
      have hhex := (isHexDigit_iff c).mp (hcond.2 c hc)
      have hno := hlower c hc
      rw [isDigit_iff, hle, hle]
      have : 'a'.toNat = 97 := rfl
      have : 'f'.toNat = 102 := rfl
      omega
    rw [parsePart, if_pos hgroup, h]
  . contradiction

theorem char_of_readGroup {p : Text} {g : Nat} (h : readGroup p = some g) :
    p ≠ [] ∧ ∀ c ∈ p, isHexDigit c = true := by
  unfold readGroup at h
  split at h
  . next hcond =>
    simp only [Bool.and_eq_true, decide_eq_true_eq, List.all_eq_true] at hcond
    refine ⟨?_, hcond.2⟩
    rintro rfl
    simp at hcond
  . contradiction

theorem parse_of_groups {ps : List Text} {gs : List Nat} (h : ps.mapM readGroup = some gs)
    (hlower : ∀ p ∈ ps, IsLower p) :
    ps.mapM parsePart = some gs ∧ ∀ p ∈ ps, p ≠ [] ∧ ∀ c ∈ p, isHexDigit c = true := by
  rw [← mapM_some_iff] at h ⊢
  induction h with
  | nil => exact ⟨.nil, by simp⟩
  | cons hp _ ih =>
    simp only [List.forall_mem_cons] at hlower ⊢
    rcases ih hlower.2 with ⟨hparse, hchars⟩
    exact ⟨.cons (parsePart_of_readGroup hlower.1 hp) hparse, char_of_readGroup hp, hchars⟩

theorem splitHalf_of_ne {u : Text} (h : u ≠ []) : splitHalf u = u.splitOn ':' := by
  cases u with
  | nil => contradiction
  | cons => rfl

theorem dot_notMem_of_groups {u : Text}
    (h : ∀ p ∈ u.splitOn ':', p ≠ [] ∧ ∀ c ∈ p, isHexDigit c = true) : '.' ∉ u := by
  intro hdot
  rcases mem_of_mem_splitOn (s := ':') hdot (by decide) with ⟨p, hp, hin⟩
  have := (h p hp).2 '.' hin
  simp [isHexDigit] at this

theorem parse_readGroups {u : Text} {gs : List Nat} (h : readGroups u = some gs)
    (hlower : IsLower u) : (splitHalf u).mapM parsePart = some gs ∧ '.' ∉ u := by
  unfold readGroups at h
  cases u with
  | nil => exact ⟨h, by simp⟩
  | cons c u =>
    rcases parse_of_groups h fun p hp c hc => hlower c (mem_of_splitOn hp hc) with ⟨hparse, hchars⟩
    exact ⟨hparse, dot_notMem_of_groups hchars⟩

/--
The last part of a literal, `u`, and what folding its dotted quad makes of it, `v`, whatever
precedes them.
-/
structure Folded (u v : Text) (gs : List Nat) : Prop where
  fold : ∀ before, (before = [] ∨ ∃ q, before = q ++ [':']) → '.' ∉ before →
    foldDotted (before ++ u) = some (before ++ v)
  cut : Ssrf.cut v = (v, none)
  parse : (splitHalf v).mapM parsePart = some gs

theorem shiftLeft_or {a b : Nat} (hb : b ≤ 255) : (a <<< 8) ||| b = a * 256 + b := by
  rw [← Nat.shiftLeft_add_eq_or_of_lt (show b < 2 ^ 8 by omega), Nat.shiftLeft_eq]

theorem folded_groups {u : Text} {gs : List Nat} (hlower : IsLower u) (hne : u ≠ [])
    (h : (u.splitOn ':').mapM readGroup = some gs) : Folded u u gs := by
  rcases parse_of_groups h fun p hp c hc => hlower c (mem_of_splitOn hp hc) with ⟨hparse, hchars⟩
  refine ⟨?_, ?_, by rwa [splitHalf_of_ne hne]⟩
  . intro before _ hdot
    have hnone : '.' ∉ before ++ u := by
      rw [List.mem_append]
      rintro (hin | hin)
      . exact hdot hin
      . exact dot_notMem_of_groups hchars hin
    rw [foldDotted, matchDotted_none hnone]
  . apply cut_of_fields
    intro hmem
    exact (hchars [] hmem).1 rfl

theorem folded_dotted {u d : Text} {init : List Text} {gs : List Nat} {v : Nat}
    (hlower : IsLower u) (hsplit : u.splitOn ':' = init ++ [d])
    (hinit : init.mapM readGroup = some gs) (hd : readIPv4 d = some v) :
    ∃ u', Folded u u' (gs ++ [v / 65536, v % 65536]) := by
  rcases splitOn_last hsplit with ⟨before', rfl, hends, hreplace⟩
  rcases readIPv4_cases hd with ⟨p, q, r, s, a, b, c, e, hgroups, ha, hb, hc, he, hv⟩
  rcases all_of_readOctet ha with ⟨_, _, _, hale, hav⟩
  rcases all_of_readOctet hb with ⟨_, _, _, hble, hbv⟩
  rcases all_of_readOctet hc with ⟨_, _, _, hcle, hcv⟩
  rcases all_of_readOctet he with ⟨_, _, _, hele, hev⟩
  have hparts : ∀ p ∈ init, IsLower p := by
    intro p hp c hc
    exact hlower c (mem_of_splitOn (s := ':') (by rw [hsplit]; simp [hp]) hc)
  rcases parse_of_groups hinit hparts with ⟨hparse, hchars⟩
  let hi := Nat.toDigits 16 ((a <<< 8) ||| b)
  let lo := Nat.toDigits 16 ((c <<< 8) ||| e)
  have hhi : parsePart hi = some (v / 65536) := by
    rw [parsePart, if_pos (isLowerGroup_toDigits (by rw [shiftLeft_or hble]; omega)),
      (toDigits_hex _).1, shiftLeft_or hble, hv]
    simp only [Option.some.injEq]
    omega
  have hlo : parsePart lo = some (v % 65536) := by
    rw [parsePart, if_pos (isLowerGroup_toDigits (by rw [shiftLeft_or hele]; omega)),
      (toDigits_hex _).1, shiftLeft_or hele, hv]
    simp only [Option.some.injEq]
    omega
  have hfree {n : Nat} : ':' ∉ Nat.toDigits 16 n := by
    intro hmem
    have := (toDigits_hex n).2 _ hmem
    simp at this
  have hfields : (before' ++ (hi ++ ':' :: lo)).splitOn ':' = init ++ [hi, lo] := by
    rw [hreplace, List.splitOn_append_cons_self_of_not_mem hfree, List.splitOn_eq_singleton hfree]
  refine ⟨before' ++ (hi ++ ':' :: lo), ?_, ?_, ?_⟩
  . intro before hbefore hdot
    have hends' : before ++ before' = [] ∨ ∃ q, before ++ before' = q ++ [':'] := by
      rcases hends with rfl | ⟨q, rfl⟩
      . simpa using hbefore
      . exact .inr ⟨before ++ q, by simp⟩
    rw [← List.append_assoc, foldDotted, matchDotted_append (isDottedQuad_of_readIPv4 hd) hends',
      hgroups]
    simp only [List.map_cons, List.map_nil, hav, hbv, hcv, hev]
    rw [if_neg (by simp; omega)]
    simp [hi, lo]
  . apply cut_of_fields
    rw [hfields]
    intro hmem
    rcases List.mem_append.mp hmem with hmem | hmem
    . exact (hchars [] hmem).1 rfl
    . have hne (n : Nat) : Nat.toDigits 16 n ≠ [] := Nat.toDigits_ne_nil
      simp only [List.mem_cons, List.not_mem_nil, or_false] at hmem
      rcases hmem with hmem | hmem <;> exact hne _ hmem.symm
  . rw [splitHalf_of_ne (by simp), hfields]
    simp [hparse, hhi, hlo]

theorem folded_readLast {u : Text} {gs : List Nat} (hlower : IsLower u)
    (h : readLast u = some gs) : ∃ v, Folded u v gs := by
  unfold readLast at h
  by_cases hne : u = []
  . subst hne
    refine ⟨[], ?_, rfl, h⟩
    intro before _ hdot
    rw [List.append_nil, foldDotted, matchDotted_none hdot]
  . have hempty : u.isEmpty = false := by simpa using hne
    rw [hempty] at h
    rcases readFields_cases h with hgroups | ⟨init, d, gs₀, v, hsplit, hinit, hd, rfl⟩
    . exact ⟨u, folded_groups hlower hne hgroups⟩
    . exact folded_dotted hlower hsplit hinit hd

theorem length_of_mapM {α β : Type} {f : α → Option β} {l : List α} {r : List β}
    (h : l.mapM f = some r) : l.length = r.length :=
  (mapM_some_iff.mpr h).length_eq

theorem mapM_replicate {α β : Type} {f : α → Option β} {x : α} {y : β} (h : f x = some y)
    (n : Nat) : (List.replicate n x).mapM f = some (List.replicate n y) := by
  rw [← mapM_some_iff]
  induction n with
  | zero => exact .nil
  | succ n ih => exact .cons h ih

theorem parseParts_of_mapM {parts : List Text} {hs : List Nat} (h : parts.mapM parsePart = some hs)
    (hlength : hs.length = 8) : parseParts parts = some hs := by
  rw [parseParts, if_neg (by simp [length_of_mapM h, hlength])]
  exact h

theorem expandIPv6_of_readAddress {t : Text} {hs : List Nat} (hlower : IsLower t)
    (h : readAddress t = some hs) : expandIPv6 t = some hs := by
  unfold readAddress at h
  split at h
  . next whole hcut =>
    -- all eight hextets are written out
    rw [cut_none hcut] at h
    simp only [Option.filter_eq_some_iff, decide_eq_true_eq] at h
    rcases h with ⟨hlast, hlength⟩
    rcases folded_readLast hlower hlast with ⟨v, hv⟩
    have hfold := hv.fold [] (.inl rfl) (by simp)
    simp only [List.nil_append] at hfold
    have hhead : (splitHalf v).length = 8 := by rw [length_of_mapM hv.parse, hlength]
    simp only [expandIPv6, hfold, splitPair_of_cut, hv.cut, hhead]
    exact parseParts_of_mapM hv.parse hlength
  . next before after hcut =>
    split at h
    . next head tail hhead htail =>
      split at h
      . next hle =>
        have ht := cut_some hcut
        have hbefore : IsLower before := fun c hc => hlower c (by rw [ht]; simp [hc])
        have hafter : IsLower after := fun c hc => hlower c (by rw [ht]; simp [hc])
        rcases parse_readGroups hhead hbefore with ⟨hparse, hdot⟩
        rcases folded_readLast hafter htail with ⟨v, hv⟩
        have hfold : foldDotted t = some (before ++ ':' :: ':' :: v) := by
          have := hv.fold (before ++ [':', ':']) (.inr ⟨before ++ [':'], by simp⟩) (by simp [hdot])
          rw [ht]
          simpa using this
        have hpair : splitPair (before ++ ':' :: ':' :: v) = [before, v] := by
          simp only [splitPair_of_cut, cut_replace hcut, hv.cut]
        have hheadlen := length_of_mapM hparse
        have htaillen := length_of_mapM hv.parse
        have hgap : ((8 : Int) - (splitHalf before).length - (splitHalf v).length).toNat =
            8 - head.length - tail.length := by omega
        have hlt : ¬((8 : Int) - (splitHalf before).length - (splitHalf v).length < 1) := by omega
        have hzero : parsePart ['0'] = some 0 := by decide
        simp only [Option.some.injEq] at h
        simp only [expandIPv6, hfold, hpair, if_neg hlt, hgap]
        apply parseParts_of_mapM
        . rw [List.mapM_append, List.mapM_append, hparse, hv.parse, mapM_replicate hzero, ← h]
          rfl
        . rw [← h]
          simp
          omega
      . contradiction
    . contradiction

end Expand

end OpenWA.Ssrf
