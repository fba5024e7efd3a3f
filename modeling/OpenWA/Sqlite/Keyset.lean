import Mathlib.Data.List.Sort
import Mathlib.Data.List.Chain

/-!
This module contains keyset pagination over a table that changes between the pages: the pages below the
key of the last row that was read, and what a walk over them visits.
-/

namespace OpenWA.Keyset

variable {κ : Type} [LinearOrder κ]

/-- The key is below the bound, if there is one. -/
def Below (bound : Option κ) (k : κ) : Prop := ∀ b ∈ bound, k < b

instance (bound : Option κ) (k : κ) : Decidable (Below bound k) :=
  inferInstanceAs (Decidable (∀ b ∈ bound, k < b))

/-- The first `limit` keys below the bound, the largest first. -/
def page (limit : Nat) (bound : Option κ) (keys : List κ) : List κ :=
  ((keys.filter (Below bound ·)).insertionSort (· ≥ ·)).take limit

/-- The pages that are read from one table after the other, each below the last key of the page before. -/
def walk (limit : Nat) (bound : Option κ) (tables : List (List κ)) : List (List κ) :=
  match tables with
  | [] => []
  | keys :: tables =>
    page limit bound keys ::
      match (page limit bound keys).getLast? with
      | none => []
      | some k => walk limit (some k) tables

variable {limit : Nat} {bound : Option κ} {keys : List κ} {tables : List (List κ)} {k : κ}

section Page

theorem pairwise_sorted (bound : Option κ) (hnodup : keys.Nodup) :
    ((keys.filter (Below bound ·)).insertionSort (· ≥ ·)).Pairwise (· > ·) := by
  have hsorted := List.pairwise_insertionSort (· ≥ ·) (keys.filter (Below bound ·))
  have hdistinct : ((keys.filter (Below bound ·)).insertionSort (· ≥ ·)).Nodup :=
    (List.perm_insertionSort _ _).nodup_iff.mpr (hnodup.filter _)
  apply (hsorted.and hdistinct).imp
  intro a b hab
  exact lt_of_le_of_ne hab.1 (Ne.symm hab.2)

theorem pairwise_page (limit : Nat) (bound : Option κ) (hnodup : keys.Nodup) :
    (page limit bound keys).Pairwise (· > ·) :=
  (pairwise_sorted bound hnodup).sublist (List.take_sublist _ _)

theorem mem_sorted : k ∈ (keys.filter (Below bound ·)).insertionSort (· ≥ ·) ↔ k ∈ keys ∧ Below bound k := by
  rw [(List.perm_insertionSort _ _).mem_iff, List.mem_filter, decide_eq_true_eq]

theorem mem_of_mem_page (h : k ∈ page limit bound keys) : k ∈ keys ∧ Below bound k :=
  mem_sorted.mp (List.mem_of_mem_take h)

/-- A page that is not full leaves no key out. -/
theorem mem_page_of_short (hk : k ∈ keys) (hbelow : Below bound k)
    (hshort : (page limit bound keys).length < limit) : k ∈ page limit bound keys := by
  have hmem := mem_sorted.mpr ⟨hk, hbelow⟩
  simp only [page, List.length_take] at hshort ⊢
  rw [List.take_of_length_le (by omega)]
  exact hmem

theorem lt_of_notMem_page (hnodup : keys.Nodup) (hk : k ∈ keys) (hbelow : Below bound k)
    (hout : k ∉ page limit bound keys) {p : κ} (hp : p ∈ page limit bound keys) : k < p := by
  have hmem := mem_sorted.mpr ⟨hk, hbelow⟩
  have hsorted := pairwise_sorted bound hnodup
  rw [← List.take_append_drop limit ((keys.filter (Below bound ·)).insertionSort (· ≥ ·))]
    at hmem hsorted
  rcases List.mem_append.mp hmem with hin | hdrop
  . exact absurd hin hout
  . exact (List.pairwise_append.mp hsorted).2.2 p hp k hdrop

theorem le_of_getLast? (hnodup : keys.Nodup) {last : κ} (hlast : (page limit bound keys).getLast? = some last)
    {p : κ} (hp : p ∈ page limit bound keys) : last ≤ p := by
  rcases List.getLast?_eq_some_iff.mp hlast with ⟨front, hfront⟩
  have hsorted := pairwise_page limit bound hnodup
  rw [hfront] at hsorted hp
  rcases List.mem_append.mp hp with hin | hin
  . exact le_of_lt ((List.pairwise_append.mp hsorted).2.2 p hin last (by simp))
  . rw [List.mem_singleton.mp hin]

end Page

section Walk

theorem walk_cons_of_empty (h : page limit bound keys = []) :
    walk limit bound (keys :: tables) = [[]] := by
  simp [walk, h]

theorem walk_cons_of_last (h : (page limit bound keys).getLast? = some k) :
    walk limit bound (keys :: tables) = page limit bound keys :: walk limit (some k) tables := by
  simp [walk, h]

theorem below_of_mem_walk {p : κ} (hp : p ∈ (walk limit bound tables).flatten) : Below bound p := by
  induction tables generalizing bound with
  | nil => simp [walk] at hp
  | cons keys tables ih =>
    cases hlast : (page limit bound keys).getLast? with
    | none =>
      rw [walk_cons_of_empty (List.getLast?_eq_none_iff.mp hlast)] at hp
      simp at hp
    | some last =>
      rw [walk_cons_of_last hlast, List.flatten_cons, List.mem_append] at hp
      rcases hp with hp | hp
      . exact (mem_of_mem_page hp).2
      . have hbelow := (mem_of_mem_page (List.mem_of_getLast? hlast)).2
        intro b hb
        exact lt_trans (ih hp last rfl) (hbelow b hb)

/-- A walk visits the keys in descending order, each one once at most. -/
theorem pairwise_walk (hnodup : ∀ keys ∈ tables, keys.Nodup) :
    (walk limit bound tables).flatten.Pairwise (· > ·) := by
  induction tables generalizing bound with
  | nil => exact List.Pairwise.nil
  | cons keys tables ih =>
    have hkeys := hnodup keys List.mem_cons_self
    cases hlast : (page limit bound keys).getLast? with
    | none =>
      rw [walk_cons_of_empty (List.getLast?_eq_none_iff.mp hlast)]
      exact List.Pairwise.nil
    | some last =>
      rw [walk_cons_of_last hlast, List.flatten_cons, List.pairwise_append]
      refine ⟨pairwise_page limit bound hkeys, ih fun t ht => hnodup t (List.mem_cons_of_mem _ ht), ?_⟩
      intro p hp q hq
      exact lt_of_lt_of_le (below_of_mem_walk hq last rfl) (le_of_getLast? hkeys hlast hp)

theorem mem_walk (hnodup : ∀ keys ∈ tables, keys.Nodup)
    (hk : ∀ keys ∈ tables.take (walk limit bound tables).length, k ∈ keys) (hbelow : Below bound k)
    (hshort : ∃ p ∈ walk limit bound tables, p.length < limit) :
    k ∈ (walk limit bound tables).flatten := by
  induction tables generalizing bound with
  | nil => simp [walk] at hshort
  | cons keys tables ih =>
    have hkeys := hnodup keys List.mem_cons_self
    cases hlast : (page limit bound keys).getLast? with
    | none =>
      have hempty := List.getLast?_eq_none_iff.mp hlast
      rw [walk_cons_of_empty hempty] at hshort hk
      have hin : k ∈ page limit bound keys :=
        mem_page_of_short (hk keys (by simp)) hbelow (by simpa [hempty] using hshort)
      simp [hempty] at hin
    | some last =>
      rw [walk_cons_of_last hlast] at hshort hk ⊢
      rw [List.flatten_cons, List.mem_append]
      by_cases hin : k ∈ page limit bound keys
      . exact .inl hin
      . have hmem := hk keys (by simp)
        have hlt := lt_of_notMem_page hkeys hmem hbelow hin (List.mem_of_getLast? hlast)
        right
        apply ih (fun t ht => hnodup t (List.mem_cons_of_mem _ ht))
        . intro t ht
          exact hk t (by simpa using .inr ht)
        . exact fun b hb => by cases hb; exact hlt
        . rcases hshort with ⟨p, hp, hlen⟩
          rcases List.mem_cons.mp hp with rfl | hp
          . exact absurd (mem_page_of_short hmem hbelow hlen) hin
          . exact ⟨p, hp, hlen⟩

/-- If no table adds a key below one of `L`, a walk from a key of `L` stays in it. -/
theorem walk_subset {L : List κ} (hdown : ∀ keys ∈ tables, ∀ q ∈ keys, ∀ l ∈ L, q ≤ l → q ∈ L)
    (hk : k ∈ L) : (walk limit (some k) tables).flatten ⊆ L := by
  induction tables generalizing k with
  | nil => simp [walk]
  | cons keys tables ih =>
    have hpage : page limit (some k) keys ⊆ L := fun q hq =>
      have hq := mem_of_mem_page hq
      hdown keys List.mem_cons_self q hq.1 k hk (le_of_lt (hq.2 k rfl))
    cases hlast : (page limit (some k) keys).getLast? with
    | none =>
      rw [walk_cons_of_empty (List.getLast?_eq_none_iff.mp hlast)]
      simp
    | some last =>
      rw [walk_cons_of_last hlast, List.flatten_cons]
      apply List.append_subset.mpr
      exact ⟨hpage, ih (fun t ht => hdown t (List.mem_cons_of_mem _ ht)) (hpage (List.mem_of_getLast? hlast))⟩

/-- A walk that met no empty page read one from every table. -/
theorem length_le_of_ne_nil (h : ∀ p ∈ walk limit bound tables, p ≠ []) :
    tables.length ≤ (walk limit bound tables).flatten.length := by
  induction tables generalizing bound with
  | nil => simp
  | cons keys tables ih =>
    cases hlast : (page limit bound keys).getLast? with
    | none =>
      rw [walk_cons_of_empty (List.getLast?_eq_none_iff.mp hlast)] at h
      simp at h
    | some last =>
      rw [walk_cons_of_last hlast] at h ⊢
      have hpos := List.length_pos_of_ne_nil (h _ List.mem_cons_self)
      have hrest := ih fun p hp => h p (List.mem_cons_of_mem _ hp)
      simp only [List.flatten_cons, List.length_append, List.length_cons]
      omega

/-- A walk over more tables than there are keys to visit comes to an empty page. -/
theorem exists_nil_of_subset {L : List κ} (hnodup : ∀ keys ∈ tables, keys.Nodup)
    (hsub : (walk limit bound tables).flatten ⊆ L) (hlen : L.length < tables.length) :
    [] ∈ walk limit bound tables := by
  by_contra hnone
  have hle := length_le_of_ne_nil fun p hp hnil => hnone (hnil ▸ hp)
  have hdistinct : (walk limit bound tables).flatten.Nodup :=
    (pairwise_walk hnodup).imp fun h => ne_of_gt h
  have := (List.subperm_of_subset hdistinct hsub).length_le
  omega

end Walk

end OpenWA.Keyset
