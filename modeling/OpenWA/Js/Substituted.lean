import OpenWA.Js.Split

/-!
This module contains what it means that the keys in a text are replaced by their values, and that one pass
over the text computes it.
-/

namespace OpenWA.Js

/-- `out` is the text with the values in place of the keys; the values are not looked at again. -/
inductive Substituted (rules : List (Text × Text)) : Text → Text → Prop where
  | nil : Substituted rules [] []
  | literal {c : Char} {t out : Text} (hc : ∀ rule ∈ rules, ¬ rule.1 <+: c :: t)
      (ht : Substituted rules t out) : Substituted rules (c :: t) (c :: out)
  | key {rule : Text × Text} {t out : Text} (hrule : rule ∈ rules) (ht : Substituted rules t out) :
      Substituted rules (rule.1 ++ t) (rule.2 ++ out)

/-- No key is empty or the start of another one. -/
structure Distinguished (rules : List (Text × Text)) : Prop where
  ne_nil : ∀ rule ∈ rules, rule.1 ≠ []
  eq_of_prefix : ∀ a ∈ rules, ∀ b ∈ rules, a.1 <+: b.1 → a = b

variable {rules : List (Text × Text)} {rule : Text × Text} {t out : Text}

theorem find_eq_some_of_distinguished (h : Distinguished rules) (hrule : rule ∈ rules)
    (hpre : rule.1 <+: t) : rules.find? (fun rule => rule.1.isPrefixOf t) = some rule := by
  have hsome : (rules.find? fun rule => rule.1.isPrefixOf t).isSome := by
    rw [List.find?_isSome]
    exact ⟨rule, hrule, List.isPrefixOf_iff_prefix.mpr hpre⟩
  rcases Option.isSome_iff_exists.mp hsome with ⟨found, hfound⟩
  have hmem := List.mem_of_find?_eq_some hfound
  have hfoundPre := List.find?_some hfound
  rw [List.isPrefixOf_iff_prefix] at hfoundPre
  rw [hfound]
  rcases List.prefix_or_prefix_of_prefix hfoundPre hpre with hle | hle
  . rw [h.eq_of_prefix found hmem rule hrule hle]
  . rw [h.eq_of_prefix rule hrule found hmem hle]

theorem replaceEach_of_substituted (h : Distinguished rules) (hsub : Substituted rules t out) :
    replaceEach rules t = out := by
  induction hsub with
  | nil => rfl
  | @literal c t out hc ht ih =>
    have hnone : rules.find? (fun rule => rule.1.isPrefixOf (c :: t)) = none := by
      rw [List.find?_eq_none]
      intro rule hrule hpre
      exact hc rule hrule (List.isPrefixOf_iff_prefix.mp hpre)
    rw [replaceEach_cons hnone, ih]
  | @key rule t out hrule ht ih =>
    have hfind := find_eq_some_of_distinguished h hrule (List.prefix_append rule.1 t)
    rw [replaceEach_of_find (h.ne_nil rule hrule) hfind, List.drop_left, ih]

theorem substituted_replaceEach (h : Distinguished rules) (t : Text) :
    Substituted rules t (replaceEach rules t) := by
  induction hn : t.length using Nat.strong_induction_on generalizing t with
  | _ n ih =>
    cases t with
    | nil => exact .nil
    | cons c t =>
      cases hfind : rules.find? fun rule => rule.1.isPrefixOf (c :: t) with
      | none =>
        rw [replaceEach_cons hfind]
        apply Substituted.literal
        . intro rule hrule hpre
          have := List.find?_eq_none.mp hfind rule hrule
          exact this (List.isPrefixOf_iff_prefix.mpr hpre)
        . exact ih t.length (by simp at hn; omega) t rfl
      | some rule =>
        have hrule := List.mem_of_find?_eq_some hfind
        have hpos := List.length_pos_iff.mpr (h.ne_nil rule hrule)
        have hpre := List.find?_some hfind
        rw [List.isPrefixOf_iff_prefix] at hpre
        rcases hpre with ⟨rest, hrest⟩
        rw [replaceEach_of_find (h.ne_nil rule hrule) hfind, ← hrest, List.drop_left]
        apply Substituted.key hrule
        apply ih rest.length _ rest rfl
        have hlen := congrArg List.length hrest
        rw [hn, List.length_append] at hlen
        omega

/-- One pass computes the substitution, and there is no other result. -/
theorem substituted_iff (h : Distinguished rules) :
    Substituted rules t out ↔ replaceEach rules t = out := by
  constructor
  . exact replaceEach_of_substituted h
  . rintro rfl
    exact substituted_replaceEach h t

end OpenWA.Js
