import Mathlib.Data.List.Perm.Basic

/-!
This module proves that the pages of a table concatenate, also where each page is cut out of an
arrangement of its own, as long as the order of the arrangements tells any two entries apart.
-/

namespace OpenWA.Paging

variable {α : Type}

/-- Pages of one list, one behind the other. -/
theorem flatMap_pages (l : List α) (size n : Nat) :
    (List.range n).flatMap (fun i => (l.drop (i * size)).take size) = l.take (n * size) := by
  induction n with
  | zero => simp
  | succ n ih =>
    rw [List.range_succ, List.flatMap_append, ih, Nat.succ_mul, List.take_add]
    simp

/-- `l` is the table in the order of `le`. -/
structure Arranged (le : α → α → Prop) (table l : List α) : Prop where
  perm : l.Perm table
  sorted : l.Pairwise le

variable {le : α → α → Prop} {table l l' : List α}

theorem Arranged.unique (hanti : ∀ a ∈ table, ∀ b ∈ table, le a b → le b a → a = b)
    (h : Arranged le table l) (h' : Arranged le table l') : l = l' := by
  apply List.Perm.eq_of_pairwise _ h.sorted h'.sorted (h.perm.trans h'.perm.symm)
  intro a b ha hb
  exact hanti a (h.perm.subset ha) b (h'.perm.subset hb)

/-- Whatever arrangement each page is cut out of, a walk visits each entry once. -/
theorem flatMap_arranged_pages (hanti : ∀ a ∈ table, ∀ b ∈ table, le a b → le b a → a = b)
    (h : Arranged le table l) {arrangement : Nat → List α} (harr : ∀ i, Arranged le table (arrangement i))
    (size n : Nat) :
    (List.range n).flatMap (fun i => ((arrangement i).drop (i * size)).take size) = l.take (n * size) := by
  rw [← flatMap_pages]
  congr 1
  funext i
  rw [(harr i).unique hanti h]

end OpenWA.Paging
