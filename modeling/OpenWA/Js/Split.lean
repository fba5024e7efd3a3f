import OpenWA.Js.Text
import Mathlib.Data.List.Find
import Mathlib.Data.List.Infix

/-!
This module contains `split` and `join` for a separator of several characters, and what replacing a
separator that way leaves of a text.
-/

namespace OpenWA.Js

/-- `pre + c + post` for the first piece. -/
def consHead (c : Char) (pieces : List Text) : List Text :=
  match pieces with
  | [] => [[c]]
  | piece :: pieces => (c :: piece) :: pieces

/-- `t.slice(skip).split(sep)`, for a separator that is not empty. -/
def splitFrom (sep : Text) (skip : Nat) (t : Text) : List Text :=
  match t with
  | [] => [[]]
  | c :: rest =>
    match skip with
    | skip + 1 => splitFrom sep skip rest
    | 0 =>
      if sep.isPrefixOf (c :: rest) then [] :: splitFrom sep (sep.length - 1) rest
      else consHead c (splitFrom sep 0 rest)

/-- `t.split(sep)` -/
def split (sep t : Text) : List Text := splitFrom sep 0 t

/-- `pieces.join(sep)` -/
def join (sep : Text) (pieces : List Text) : Text := sep.intercalate pieces

/-- `t.split(sep).join(value)` -/
def replaceAll (sep value t : Text) : Text := join value (split sep t)

theorem splitFrom_eq (sep : Text) (skip : Nat) (t : Text) :
    splitFrom sep skip t = split sep (t.drop skip) := by
  induction t generalizing skip with
  | nil => simp [split, splitFrom]
  | cons c t ih =>
    cases skip with
    | zero => rfl
    | succ skip =>
      rw [splitFrom, ih]
      rfl

theorem splitFrom_ne_nil (sep : Text) (skip : Nat) (t : Text) : splitFrom sep skip t ≠ [] := by
  induction t generalizing skip with
  | nil => simp [splitFrom]
  | cons c t ih =>
    unfold splitFrom
    split
    . apply ih
    . split
      . simp
      . unfold consHead
        split <;> simp

theorem split_ne_nil (sep t : Text) : split sep t ≠ [] := splitFrom_ne_nil sep 0 t

theorem join_cons {sep piece : Text} {pieces : List Text} (h : pieces ≠ []) :
    join sep (piece :: pieces) = piece ++ sep ++ join sep pieces := by
  cases pieces with
  | nil => contradiction
  | cons piece' pieces => simp [join, List.intercalate, List.intersperse]

theorem join_consHead {sep : Text} {c : Char} {pieces : List Text} (h : pieces ≠ []) :
    join sep (consHead c pieces) = c :: join sep pieces := by
  cases pieces with
  | nil => contradiction
  | cons piece pieces =>
    cases pieces with
    | nil => simp [consHead, join, List.intercalate]
    | cons piece' pieces => simp [consHead, join, List.intercalate, List.intersperse]

@[simp]
theorem replaceAll_nil (sep value : Text) : replaceAll sep value [] = [] := by
  simp [replaceAll, split, splitFrom, join, List.intercalate]

section Separator

variable {sep : Text}

theorem split_nil (sep : Text) : split sep [] = [[]] := rfl

theorem split_cons {c : Char} {t : Text} (h : ¬ sep <+: c :: t) :
    split sep (c :: t) = consHead c (split sep t) := by
  unfold split
  rw [splitFrom, if_neg (by simpa using h)]

theorem split_append (t : Text) (h : sep ≠ []) : split sep (sep ++ t) = [] :: split sep t := by
  cases sep with
  | nil => contradiction
  | cons c sep =>
    rw [split, List.cons_append, splitFrom, if_pos (by simp), splitFrom_eq]
    simp

/-- A text is read from one separator to the next. -/
theorem separator_induction {motive : Text → Prop} (h : sep ≠ []) (nil : motive [])
    (append : ∀ t, motive t → motive (sep ++ t))
    (cons : ∀ c t, ¬ sep <+: c :: t → motive t → motive (c :: t)) (t : Text) : motive t := by
  induction hn : t.length using Nat.strong_induction_on generalizing t with
  | _ n ih =>
    cases t with
    | nil => exact nil
    | cons c t =>
      by_cases hpre : sep <+: c :: t
      . have hpos : 0 < sep.length := List.length_pos_iff.mpr h
        rcases hpre with ⟨rest, hrest⟩
        rw [← hrest]
        apply append
        apply ih rest.length _ rest rfl
        have hlen := congrArg List.length hrest
        simp only [List.length_append, List.length_cons] at hlen hn
        omega
      . apply cons c t hpre
        apply ih t.length _ t rfl
        simp only [List.length_cons] at hn
        omega

theorem join_split (h : sep ≠ []) (t : Text) : join sep (split sep t) = t := by
  induction t using separator_induction h with
  | nil => rfl
  | append t ih => rw [split_append t h, join_cons (split_ne_nil sep t), ih, List.nil_append]
  | cons c t hpre ih => rw [split_cons hpre, join_consHead (split_ne_nil sep t), ih]

theorem join_append {pieces pieces' : List Text} (h : pieces ≠ []) (h' : pieces' ≠ []) :
    join sep (pieces ++ pieces') = join sep pieces ++ sep ++ join sep pieces' := by
  induction pieces with
  | nil => contradiction
  | cons piece pieces ih =>
    cases pieces with
    | nil => rw [List.singleton_append, join_cons h']; simp [join, List.intercalate]
    | cons next pieces =>
      rw [List.cons_append, join_cons (by simp), join_cons (by simp), ih (by simp)]
      simp

theorem join_flatMap {f : Text → List Text} (hf : ∀ piece, f piece ≠ []) (pieces : List Text) :
    join sep (pieces.flatMap f) = join sep (pieces.map fun piece => join sep (f piece)) := by
  induction pieces with
  | nil => rfl
  | cons piece pieces ih =>
    cases pieces with
    | nil => simp [join, List.intercalate]
    | cons next pieces =>
      have hne : (next :: pieces).flatMap f ≠ [] := by
        rw [List.flatMap_cons]
        simp [hf next]
      have hmap : (next :: pieces).map (fun piece => join sep (f piece)) ≠ [] := by simp
      rw [List.flatMap_cons, join_append (hf piece) hne, ih, List.map_cons (a := piece),
        join_cons hmap]

end Separator

section Marked

/-- A key whose first character marks where it begins. -/
def Marked (o : Char) (key : Text) : Prop := ∃ rest, key = o :: rest ∧ o ∉ rest

variable {o : Char} {key : Text}

theorem Marked.ne_nil (h : Marked o key) : key ≠ [] := by
  rcases h with ⟨rest, rfl, -⟩
  simp

/-- No key reaches over the place where another one begins. -/
theorem Marked.prefix_iff (h : Marked o key) (c : Char) (t b : Text) :
    key <+: c :: (t ++ o :: b) ↔ key <+: c :: t := by
  rcases h with ⟨rest, rfl, hrest⟩
  simp only [List.cons_prefix_cons, and_congr_right_iff]
  intro _
  constructor
  . intro hpre
    rcases List.prefix_or_prefix_of_prefix hpre (List.prefix_append t (o :: b)) with h | h
    . exact h
    . rcases h with ⟨tail, rfl⟩
      rw [List.prefix_append_right_inj] at hpre
      cases tail with
      | nil => simp
      | cons x tail =>
        rw [List.cons_prefix_cons] at hpre
        simp [hpre.1] at hrest
  . intro hpre
    exact hpre.trans (List.prefix_append t _)

theorem split_append_key (h : Marked o key) (a b : Text) :
    split key (a ++ key ++ b) = split key a ++ split key b := by
  induction a using separator_induction h.ne_nil with
  | nil => rw [List.nil_append, split_append b h.ne_nil, split_nil]; rfl
  | append a ih =>
    rw [List.append_assoc, List.append_assoc, split_append _ h.ne_nil, split_append a h.ne_nil,
      ← List.append_assoc, ih, List.cons_append]
  | cons c a hpre ih =>
    have hpre' : ¬ key <+: c :: (a ++ key ++ b) := by
      rcases id h with ⟨rest, rfl, -⟩
      rw [List.append_assoc, List.cons_append, h.prefix_iff]
      exact hpre
    rw [List.cons_append, List.cons_append, split_cons hpre', split_cons hpre, ih]
    cases hsplit : split key a with
    | nil => exact absurd hsplit (split_ne_nil key a)
    | cons piece pieces => rfl

theorem split_join (h : Marked o key) {pieces : List Text} (hne : pieces ≠ []) :
    split key (join key pieces) = pieces.flatMap (split key) := by
  induction pieces with
  | nil => contradiction
  | cons piece pieces ih =>
    cases pieces with
    | nil => simp [join, List.intercalate]
    | cons next pieces =>
      rw [join_cons (by simp), split_append_key h, ih (by simp), List.flatMap_cons (x := piece)]

theorem replaceAll_join (h : Marked o key) (value : Text) {pieces : List Text} (hne : pieces ≠ []) :
    replaceAll key value (join key pieces) = join value (pieces.map (replaceAll key value)) := by
  unfold replaceAll
  rw [split_join h hne, join_flatMap (split_ne_nil key)]

/-- How often the key occurs. -/
def occurrences (key t : Text) : Nat := (split key t).length - 1

theorem length_split (key t : Text) : (split key t).length = occurrences key t + 1 := by
  have hpos := List.length_pos_iff.mpr (split_ne_nil key t)
  unfold occurrences
  omega

theorem length_flatMap_split (key : Text) (pieces : List Text) :
    (pieces.flatMap (split key)).length =
      (pieces.map (occurrences key)).sum + pieces.length := by
  induction pieces with
  | nil => rfl
  | cons piece pieces ih =>
    rw [List.flatMap_cons, List.length_append, ih, length_split, List.map_cons, List.sum_cons,
      List.length_cons]
    omega

theorem split_of_free {t : Text} (h : key ≠ []) (hkey : ¬ key <:+: t) : split key t = [t] := by
  induction t using separator_induction h with
  | nil => rfl
  | append t _ => exact absurd (List.prefix_append key t).isInfix hkey
  | cons c t hpre ih =>
    rw [split_cons hpre, ih fun hin => hkey (List.infix_cons hin)]
    rfl

theorem occurrences_eq_zero_iff (h : Marked o key) (t : Text) :
    occurrences key t = 0 ↔ ¬ key <:+: t := by
  constructor
  . intro hzero hin
    rcases hin with ⟨a, b, rfl⟩
    have hlen := congrArg List.length (split_append_key h a b)
    rw [List.length_append, length_split, length_split, length_split] at hlen
    omega
  . intro hkey
    simp [occurrences, split_of_free h.ne_nil hkey]

/-- The pieces of a text do not contain the separator. -/
theorem free_of_mem_split (h : Marked o key) (t : Text) :
    ∀ piece ∈ split key t, ¬ key <:+: piece := by
  have hself : (split key t).flatMap (split key) = split key t := by
    rw [← split_join h (split_ne_nil key t), join_split h.ne_nil]
  intro piece hpiece
  have hsum := length_flatMap_split key (split key t)
  rw [hself] at hsum
  have hzero : ((split key t).map (occurrences key)).sum = 0 := by omega
  rw [← occurrences_eq_zero_iff h]
  exact List.sum_eq_zero_iff_forall_eq_nat.mp hzero _ (List.mem_map_of_mem hpiece)

theorem countP_join (p : Char → Bool) (sep : Text) {pieces : List Text} (hne : pieces ≠ []) :
    (join sep pieces).countP p + sep.countP p =
      (pieces.map (List.countP p)).sum + pieces.length * sep.countP p := by
  induction pieces with
  | nil => contradiction
  | cons piece pieces ih =>
    cases pieces with
    | nil => simp [join, List.intercalate]
    | cons next pieces =>
      rw [join_cons (by simp), List.countP_append, List.countP_append, List.map_cons,
        List.sum_cons, List.length_cons, Nat.add_one_mul]
      have hrest := ih (by simp)
      omega

theorem countP_replaceAll (h : key ≠ []) (p : Char → Bool) (value t : Text) :
    (replaceAll key value t).countP p + occurrences key t * key.countP p =
      t.countP p + occurrences key t * value.countP p := by
  have hvalue := countP_join p value (split_ne_nil key t)
  have hkey := countP_join p key (split_ne_nil key t)
  rw [join_split h, length_split, Nat.add_one_mul] at hkey
  rw [length_split, Nat.add_one_mul] at hvalue
  unfold replaceAll
  omega

theorem sum_countP_replaceAll (h : key ≠ []) (p : Char → Bool) (value : Text) (pieces : List Text) :
    (pieces.map fun piece => (replaceAll key value piece).countP p).sum +
        (pieces.map (occurrences key)).sum * key.countP p =
      (pieces.map (List.countP p)).sum + (pieces.map (occurrences key)).sum * value.countP p := by
  induction pieces with
  | nil => simp
  | cons piece pieces ih =>
    have hpiece := countP_replaceAll h p value piece
    simp only [List.map_cons, List.sum_cons, Nat.add_mul]
    omega

theorem countP_true (t : Text) : t.countP (fun _ => true) = t.length := by
  simp

theorem join_map_inj {sep : Text} {f : Text → Text} {pieces : List Text}
    (hlen : ∀ piece ∈ pieces, (f piece).length = piece.length)
    (h : join sep (pieces.map f) = join sep pieces) : ∀ piece ∈ pieces, f piece = piece := by
  induction pieces with
  | nil => simp
  | cons piece pieces ih =>
    rw [List.forall_mem_cons] at hlen ⊢
    cases pieces with
    | nil => simpa [join, List.intercalate] using h
    | cons next pieces =>
      rw [List.map_cons, join_cons (by simp), join_cons (by simp), List.append_assoc,
        List.append_assoc] at h
      have hparts := List.append_inj h hlen.1
      exact ⟨hparts.1, ih hlen.2 (List.append_cancel_left hparts.2)⟩

theorem eq_of_replaceAll_eq (h : Marked o key) {value t : Text} (hlen : value.length = key.length)
    (heq : replaceAll key value t = t) (hin : key <:+: t) : value = key := by
  have hocc := (occurrences_eq_zero_iff h t).not.mpr (not_not.mpr hin)
  have hsplit := length_split key t
  have hjoin : join value (split key t) = join key (split key t) := by
    rw [join_split h.ne_nil]
    exact heq
  cases hpieces : split key t with
  | nil => exact absurd hpieces (split_ne_nil key t)
  | cons piece pieces =>
    rw [hpieces] at hjoin hsplit
    have hne : pieces ≠ [] := by
      rintro rfl
      simp at hsplit
      omega
    rw [join_cons hne, join_cons hne, List.append_assoc, List.append_assoc] at hjoin
    exact (List.append_inj (List.append_cancel_left hjoin) hlen).1

/-- Replacing a key once more leaves the pieces alone if they do not contain it, or it stays. -/
theorem join_replaceAll_iff (h : Marked o key) (value : Text) {pieces : List Text}
    (hne : pieces ≠ []) :
    join value (pieces.map (replaceAll key value)) = join value pieces ↔
      value = key ∨ ∀ piece ∈ pieces, ¬ key <:+: piece := by
  constructor
  . intro heq
    by_cases hlen : value.length = key.length
    . by_cases hvalue : value = key
      . exact .inl hvalue
      . right
        have hsame : ∀ piece ∈ pieces, (replaceAll key value piece).length = piece.length := by
          intro piece _
          have hcount := countP_replaceAll h.ne_nil (fun _ => true) value piece
          rw [countP_true, countP_true, countP_true, countP_true, hlen] at hcount
          omega
        intro piece hpiece hin
        exact hvalue (eq_of_replaceAll_eq h hlen (join_map_inj hsame heq piece hpiece) hin)
    . right
      have hcount := sum_countP_replaceAll h.ne_nil (fun _ => true) value pieces
      have hmap : pieces.map (replaceAll key value) ≠ [] := by simpa using hne
      have hleft := countP_join (fun _ => true) value hmap
      have hright := countP_join (fun _ => true) value hne
      rw [heq, List.length_map, List.map_map] at hleft
      have hsum : (pieces.map (occurrences key)).sum * key.length =
          (pieces.map (occurrences key)).sum * value.length := by
        simp only [countP_true, Function.comp_def] at hcount hleft hright
        omega
      have hzero : (pieces.map (occurrences key)).sum = 0 := by
        rcases Nat.eq_zero_or_pos (pieces.map (occurrences key)).sum with hzero | hpos
        . exact hzero
        . exact absurd (Nat.eq_of_mul_eq_mul_left hpos hsum).symm hlen
      intro piece hpiece
      rw [← occurrences_eq_zero_iff h]
      exact List.sum_eq_zero_iff_forall_eq_nat.mp hzero _ (List.mem_map_of_mem hpiece)
  . rintro (rfl | hfree)
    . have hself : replaceAll value value = id := funext fun piece => join_split h.ne_nil piece
      rw [hself, List.map_id]
    . congr 1
      rw [List.map_congr_left (g := id), List.map_id]
      intro piece hpiece
      rw [replaceAll, split_of_free h.ne_nil (hfree piece hpiece)]
      simp [join, List.intercalate]

end Marked

section Rules

/-- `t.slice(skip)` with every occurrence of a key replaced by its value, all in one pass. -/
def replaceEachFrom (rules : List (Text × Text)) (skip : Nat) (t : Text) : Text :=
  match t with
  | [] => []
  | c :: rest =>
    match skip with
    | skip + 1 => replaceEachFrom rules skip rest
    | 0 =>
      match rules.find? fun rule => rule.1.isPrefixOf (c :: rest) with
      | some rule => rule.2 ++ replaceEachFrom rules (rule.1.length - 1) rest
      | none => c :: replaceEachFrom rules 0 rest

def replaceEach (rules : List (Text × Text)) (t : Text) : Text := replaceEachFrom rules 0 t

variable {o : Char} {rules : List (Text × Text)} {key : Text}

theorem replaceEachFrom_eq (rules : List (Text × Text)) (skip : Nat) (t : Text) :
    replaceEachFrom rules skip t = replaceEach rules (t.drop skip) := by
  induction t generalizing skip with
  | nil => simp [replaceEach, replaceEachFrom]
  | cons c t ih =>
    cases skip with
    | zero => rfl
    | succ skip =>
      rw [replaceEachFrom, ih]
      rfl

theorem replaceEach_cons {c : Char} {t : Text}
    (h : rules.find? (fun rule => rule.1.isPrefixOf (c :: t)) = none) :
    replaceEach rules (c :: t) = c :: replaceEach rules t := by
  unfold replaceEach
  rw [replaceEachFrom, h]

theorem replaceEach_of_find {rule : Text × Text} {t : Text} (hne : rule.1 ≠ [])
    (h : rules.find? (fun rule => rule.1.isPrefixOf t) = some rule) :
    replaceEach rules t = rule.2 ++ replaceEach rules (t.drop rule.1.length) := by
  cases t with
  | nil =>
    have hpre := List.find?_some h
    simp only [List.isPrefixOf_iff_prefix, List.prefix_nil] at hpre
    contradiction
  | cons c t =>
    have hpos := List.length_pos_iff.mpr hne
    rw [replaceEach, replaceEachFrom, h]
    cases hlen : rule.1.length with
    | zero => omega
    | succ n => simp [hlen, replaceEachFrom_eq]

theorem find_eq_none_of_apart (h : ∀ rule ∈ rules, ¬ rule.1 <+: key ∧ ¬ key <+: rule.1) (t : Text) :
    rules.find? (fun rule => rule.1.isPrefixOf (key ++ t)) = none := by
  rw [List.find?_eq_none]
  intro rule hrule hpre
  rw [List.isPrefixOf_iff_prefix] at hpre
  rcases List.prefix_or_prefix_of_prefix hpre (List.prefix_append key t) with hkey | hkey
  . exact (h rule hrule).1 hkey
  . exact (h rule hrule).2 hkey

variable (hrules : ∀ rule ∈ rules, Marked o rule.1)
include hrules

theorem replaceEach_unmarked {w : Text} (hw : o ∉ w) (t : Text) :
    replaceEach rules (w ++ t) = w ++ replaceEach rules t := by
  induction w with
  | nil => rfl
  | cons c w ih =>
    simp only [List.mem_cons, not_or] at hw
    have hnone : rules.find? (fun rule => rule.1.isPrefixOf (c :: (w ++ t))) = none := by
      rw [List.find?_eq_none]
      intro rule hrule hpre
      rcases hrules rule hrule with ⟨rest, hrest, -⟩
      rw [hrest, List.isPrefixOf_iff_prefix, List.cons_prefix_cons] at hpre
      exact hw.1 hpre.1
    rw [List.cons_append, replaceEach_cons hnone, ih hw.2, List.cons_append]

theorem replaceEach_key_of_apart (hkey : Marked o key)
    (hapart : ∀ rule ∈ rules, ¬ rule.1 <+: key ∧ ¬ key <+: rule.1) (t : Text) :
    replaceEach rules (key ++ t) = key ++ replaceEach rules t := by
  have hnone := find_eq_none_of_apart hapart t
  rcases hkey with ⟨w, rfl, hw⟩
  rw [List.cons_append] at hnone ⊢
  rw [replaceEach_cons hnone, replaceEach_unmarked hrules hw, List.cons_append]

/-- What is before a key is replaced as if it stood alone. -/
theorem replaceEach_append_key (hkey : Marked o key) {image : Text}
    (himage : ∀ t, replaceEach rules (key ++ t) = image ++ replaceEach rules t) (a b : Text) :
    replaceEach rules (a ++ key ++ b) = replaceEach rules a ++ image ++ replaceEach rules b := by
  induction hn : a.length using Nat.strong_induction_on generalizing a with
  | _ n ih =>
    cases a with
    | nil =>
      rw [List.nil_append, himage]
      rfl
    | cons c a =>
      have hfind : rules.find? (fun rule => rule.1.isPrefixOf (c :: a ++ key ++ b)) =
          rules.find? fun rule => rule.1.isPrefixOf (c :: a) := by
        apply List.find?_congr
        intro rule hrule
        rcases hkey with ⟨w, rfl, -⟩
        rw [Bool.eq_iff_iff, List.isPrefixOf_iff_prefix, List.isPrefixOf_iff_prefix,
          List.append_assoc, List.cons_append, List.cons_append, (hrules rule hrule).prefix_iff]
      cases h : rules.find? fun rule => rule.1.isPrefixOf (c :: a) with
      | none =>
        rw [h, List.cons_append, List.cons_append] at hfind
        rw [List.cons_append, List.cons_append, replaceEach_cons hfind, replaceEach_cons h,
          ih a.length (by simp at hn; omega) a rfl]
        simp
      | some rule =>
        have hmarked := hrules rule (List.mem_of_find?_eq_some h)
        have hpos := List.length_pos_iff.mpr hmarked.ne_nil
        have hpre := List.find?_some h
        rw [List.isPrefixOf_iff_prefix] at hpre
        have hlen := hpre.length_le
        rw [replaceEach_of_find hmarked.ne_nil (hfind.trans h), replaceEach_of_find hmarked.ne_nil h,
          List.append_assoc, List.drop_append_of_le_length hlen, ← List.append_assoc,
          ih _ _ ((c :: a).drop rule.1.length) rfl]
        . simp
        . rw [List.length_drop, hn]
          simp only [List.length_cons] at hn
          omega

theorem replaceEach_join (hkey : Marked o key) {image : Text}
    (himage : ∀ t, replaceEach rules (key ++ t) = image ++ replaceEach rules t)
    {pieces : List Text} (hne : pieces ≠ []) :
    replaceEach rules (join key pieces) = join image (pieces.map (replaceEach rules)) := by
  induction pieces with
  | nil => contradiction
  | cons piece pieces ih =>
    cases pieces with
    | nil => simp [join, List.intercalate]
    | cons next pieces =>
      rw [join_cons (by simp), replaceEach_append_key hrules hkey himage, ih (by simp),
        List.map_cons (a := piece), join_cons (by simp)]

omit hrules in
theorem replaceEach_of_free {value t : Text} (hkey : ¬ key <:+: t)
    (hne : ∀ rule ∈ rules, rule.1 ≠ []) :
    replaceEach (rules ++ [(key, value)]) t = replaceEach rules t := by
  induction hn : t.length using Nat.strong_induction_on generalizing t with
  | _ n ih =>
    cases t with
    | nil => rfl
    | cons c t =>
      have hpre : key.isPrefixOf (c :: t) = false := by
        rw [Bool.eq_false_iff, ne_eq, List.isPrefixOf_iff_prefix]
        exact fun hpre => hkey hpre.isInfix
      cases h : rules.find? fun rule => rule.1.isPrefixOf (c :: t) with
      | none =>
        have hboth : (rules ++ [(key, value)]).find? (fun rule => rule.1.isPrefixOf (c :: t)) =
            none := by
          simp [List.find?_append, h, hpre]
        rw [replaceEach_cons h, replaceEach_cons hboth,
          ih t.length (by simp at hn; omega) (fun hin => hkey (List.infix_cons hin)) rfl]
      | some rule =>
        have hboth : (rules ++ [(key, value)]).find? (fun rule => rule.1.isPrefixOf (c :: t)) =
            some rule := by
          simp [List.find?_append, h]
        have hrule := hne rule (List.mem_of_find?_eq_some h)
        have hpos := List.length_pos_iff.mpr hrule
        rw [replaceEach_of_find hrule h, replaceEach_of_find hrule hboth, ih _ _ _ rfl]
        . rw [List.length_drop, hn]
          simp only [List.length_cons] at hn
          omega
        . exact fun hin => hkey (hin.trans (List.drop_suffix _ _).isInfix)

/-- Replacing one more key in the same pass replaces it between the pieces that it separates. -/
theorem replaceEach_concat (hkey : Marked o key)
    (hapart : ∀ rule ∈ rules, ¬ rule.1 <+: key ∧ ¬ key <+: rule.1) (value t : Text) :
    replaceEach (rules ++ [(key, value)]) t =
      join value ((split key t).map (replaceEach rules)) := by
  have hmarked : ∀ rule ∈ rules ++ [(key, value)], Marked o rule.1 := by
    intro rule hrule
    rcases List.mem_append.mp hrule with hrule | hrule
    . exact hrules rule hrule
    . rw [List.mem_singleton.mp hrule]
      exact hkey
  have himage : ∀ t, replaceEach (rules ++ [(key, value)]) (key ++ t) =
      value ++ replaceEach (rules ++ [(key, value)]) t := by
    intro t
    have hfind : (rules ++ [(key, value)]).find? (fun rule => rule.1.isPrefixOf (key ++ t)) =
        some (key, value) := by
      rw [List.find?_append, find_eq_none_of_apart hapart]
      simp
    rw [replaceEach_of_find hkey.ne_nil hfind, List.drop_left]
  have hpieces : (split key t).map (replaceEach (rules ++ [(key, value)])) =
      (split key t).map (replaceEach rules) := by
    apply List.map_congr_left
    intro piece hpiece
    apply replaceEach_of_free (free_of_mem_split hkey t piece hpiece)
    exact fun rule hrule => (hrules rule hrule).ne_nil
  rw [← hpieces, ← replaceEach_join hmarked hkey himage (split_ne_nil key t), join_split hkey.ne_nil]

omit hrules in
theorem replaceEach_nil (t : Text) : replaceEach [] t = t := by
  induction t with
  | nil => rfl
  | cons c t ih => rw [replaceEach_cons rfl, ih]

omit hrules in
theorem replaceAll_eq_replaceEach (hkey : Marked o key) (value t : Text) :
    replaceAll key value t = replaceEach [(key, value)] t := by
  have hnone : ∀ rule ∈ ([] : List (Text × Text)), Marked o rule.1 := by simp
  have hone := replaceEach_concat hnone hkey (by simp) value t
  have hid : replaceEach [] = id := funext replaceEach_nil
  rw [hid, List.map_id] at hone
  exact hone.symm

/-- Replacing one more key in a second pass reads the values of the first one too. -/
theorem replaceAll_replaceEach (hkey : Marked o key)
    (hapart : ∀ rule ∈ rules, ¬ rule.1 <+: key ∧ ¬ key <+: rule.1) (value t : Text) :
    replaceAll key value (replaceEach rules t) =
      join value ((split key t).map fun piece => replaceAll key value (replaceEach rules piece)) := by
  have himage := replaceEach_key_of_apart hrules hkey hapart
  have hjoin := replaceEach_join hrules hkey himage (split_ne_nil key t)
  rw [join_split hkey.ne_nil] at hjoin
  rw [hjoin, replaceAll_join hkey value (by simp [split_ne_nil]), List.map_map]
  rfl

/-- The first pass adds to the occurrences of a key those between two of its own. -/
theorem occurrences_replaceEach (hkey : Marked o key)
    (hapart : ∀ rule ∈ rules, ¬ rule.1 <+: key ∧ ¬ key <+: rule.1) (t : Text) :
    occurrences key (replaceEach rules t) = occurrences key t +
      ((split key t).map fun piece => occurrences key (replaceEach rules piece)).sum := by
  have hjoin := replaceEach_join hrules hkey (replaceEach_key_of_apart hrules hkey hapart)
    (split_ne_nil key t)
  have hlen := length_split key (replaceEach rules t)
  rw [join_split hkey.ne_nil] at hjoin
  rw [hjoin, split_join hkey (by simp [split_ne_nil]), length_flatMap_split, List.length_map, length_split,
    List.map_map, ← hjoin] at hlen
  simp only [Function.comp_def] at hlen
  omega

/-- The characters that replacing one more key in the same pass brings in. -/
theorem countP_replaceEach_concat (hkey : Marked o key)
    (hapart : ∀ rule ∈ rules, ¬ rule.1 <+: key ∧ ¬ key <+: rule.1) (value t : Text)
    (p : Char → Bool) :
    (replaceEach (rules ++ [(key, value)]) t).countP p + occurrences key t * key.countP p =
      (replaceEach rules t).countP p + occurrences key t * value.countP p := by
  have hjoin := replaceEach_join hrules hkey (replaceEach_key_of_apart hrules hkey hapart)
    (split_ne_nil key t)
  have hne : (split key t).map (replaceEach rules) ≠ [] := by simp [split_ne_nil]
  have hvalue := countP_join p value hne
  have hown := countP_join p key hne
  rw [join_split hkey.ne_nil] at hjoin
  rw [← hjoin, List.length_map, length_split, Nat.add_one_mul] at hown
  rw [List.length_map, length_split, Nat.add_one_mul] at hvalue
  rw [replaceEach_concat hrules hkey hapart]
  omega

end Rules

end OpenWA.Js
