import Mathlib.Data.List.Perm.Basic

/-!
This module contains the bookkeeping of a reader that pages through a table by offset while the table grows at its
front: what it holds of the part that its pages have reached, and how large the offset may be for that.
-/

namespace OpenWA.Paging

variable {κ : Type} {fresh seen awaiting held held' : List κ} {reach : Nat} {key : κ}

theorem mem_take_or_mem_page {table : List κ} {offset size n : Nat} (hoffset : offset ≤ n)
    (h : key ∈ table.take (max n (offset + size))) : key ∈ table.take n ∨ key ∈ (table.drop offset).take size := by
  rcases List.mem_iff_getElem?.mp h with ⟨i, hi⟩
  rw [List.getElem?_take] at hi
  split at hi
  . next hlt =>
    by_cases hin : i < n
    . exact .inl (List.mem_iff_getElem?.mpr ⟨i, by rw [List.getElem?_take, if_pos hin, hi]⟩)
    . refine .inr (List.mem_iff_getElem?.mpr ⟨i - offset, ?_⟩)
      rw [List.getElem?_take, if_pos (by omega), List.getElem?_drop, show offset + (i - offset) = i by omega, hi]
  . contradiction

/-- A short page is the last one. -/
theorem told_of_short {table page : List κ} {size reach' : Nat} (hpage : page = (table.drop held.length).take size)
    (hshort : page.length < size) (hreach : held.length + size ≤ reach')
    (htold : ∀ key ∈ table.take reach', key ∉ awaiting → key ∈ held ++ page) :
    ∀ key ∈ table, key ∉ awaiting → key ∈ held ++ page := by
  have hlength : table.length ≤ reach' := by
    rw [hpage, List.length_take, List.length_drop] at hshort
    omega
  rw [List.take_of_length_le hlength] at htold
  exact htold

variable [DecidableEq κ]

/--
The table is `fresh ++ seen`, with `seen` as it was at the last page. Of the first `reach` entries of `seen` and of
the fresh ones the reader holds all that it does not await, and the number of entries held does not exceed the number of
these.
-/
structure Covers (fresh seen awaiting held : List κ) (reach : Nat) : Prop where
  told : ∀ key ∈ fresh ++ seen.take reach, key ∉ awaiting → key ∈ held
  count : held.length ≤ reach + fresh.countP (· ∈ held)

theorem Covers.perm (h : Covers fresh seen awaiting held reach) (hperm : held'.Perm held) :
    Covers fresh seen awaiting held' reach where
  told key hkey hnot := hperm.mem_iff.mpr (h.told key hkey hnot)
  count := by
    have hsame : fresh.countP (· ∈ held') = fresh.countP (· ∈ held) := by
      apply List.countP_congr
      intro key _
      rw [decide_eq_true_eq, decide_eq_true_eq, hperm.mem_iff]
    rw [hperm.length_eq, hsame]
    exact h.count

/-- A new entry is awaited. -/
theorem Covers.insert (h : Covers fresh seen awaiting held reach) (key : κ) :
    Covers (key :: fresh) seen (key :: awaiting) held reach where
  told key' hkey' hnot := by
    rcases List.mem_cons.mp hkey' with rfl | hmem
    . exact absurd List.mem_cons_self hnot
    . exact h.told key' hmem fun hmem' => hnot (List.mem_cons_of_mem _ hmem')
  count := by
    have hle : fresh.countP (· ∈ held) ≤ (key :: fresh).countP (· ∈ held) := (List.sublist_cons_self _ _).countP_le
    have := h.count
    omega

/-- An entry that is held already comes again. -/
theorem Covers.again (h : Covers fresh seen awaiting held reach) (hheld : key ∈ held) :
    Covers fresh seen (awaiting.filter (· ≠ key)) held reach where
  told key' hkey' hnot := by
    by_cases heq : key' = key
    . exact heq ▸ hheld
    . exact h.told key' hkey' fun hmem => hnot (List.mem_filter.mpr ⟨hmem, decide_eq_true heq⟩)
  count := h.count

theorem countP_lt_countP_cons {l : List κ} (hmem : key ∈ l) (hnot : key ∉ held) :
    l.countP (· ∈ held) < l.countP (· ∈ key :: held) := by
  rcases List.append_of_mem hmem with ⟨l₁, l₂, rfl⟩
  have hle : ∀ l' : List κ, l'.countP (· ∈ held) ≤ l'.countP (· ∈ key :: held) := by
    intro l'
    apply List.countP_mono_left
    intro key' _ hheld
    rw [decide_eq_true_eq] at hheld ⊢
    exact List.mem_cons_of_mem _ hheld
  have hle₁ := hle l₁
  have hle₂ := hle l₂
  rw [List.countP_append, List.countP_append, List.countP_cons_of_neg (by simpa using hnot),
    List.countP_cons_of_pos (by simp)]
  omega

/-- A fresh entry comes. -/
theorem Covers.deliver (h : Covers fresh seen awaiting held reach) (hfresh : key ∈ fresh) (hnot : key ∉ held) :
    Covers fresh seen (awaiting.filter (· ≠ key)) (key :: held) reach where
  told key' hkey' hnot' := by
    by_cases heq : key' = key
    . exact heq ▸ List.mem_cons_self
    . apply List.mem_cons_of_mem
      exact h.told key' hkey' fun hmem => hnot' (List.mem_filter.mpr ⟨hmem, decide_eq_true heq⟩)
  count := by
    have hlt := countP_lt_countP_cons hfresh hnot
    have := h.count
    rw [List.length_cons]
    omega

/-- The next page is read behind as many entries as are held. -/
theorem Covers.fetch (h : Covers fresh seen awaiting held reach) (size : Nat) :
    ∃ reach', held.length + size ≤ reach' ∧
      ∀ key ∈ (fresh ++ seen).take reach', key ∉ awaiting →
        key ∈ held ++ ((fresh ++ seen).drop held.length).take size := by
  refine ⟨max (fresh.length + reach) (held.length + size), by omega, ?_⟩
  intro key hkey hnot
  have hoffset : held.length ≤ fresh.length + reach := by
    have hle : fresh.countP (· ∈ held) ≤ fresh.length := List.countP_le_length
    have := h.count
    omega
  rcases mem_take_or_mem_page hoffset hkey with hnear | hpage
  . rw [List.take_length_add_append] at hnear
    exact List.mem_append_left _ (h.told key hnear hnot)
  . exact List.mem_append_right _ hpage

/-- A full page leaves nothing out. -/
theorem Covers.full {table page : List κ} {size reach' : Nat} (hsize : page.length ≤ size)
    (hreach : held.length + size ≤ reach')
    (htold : ∀ key ∈ table.take reach', key ∉ awaiting → key ∈ held ++ page) :
    Covers [] table awaiting (held ++ page) reach' where
  told := htold
  count := by
    rw [List.length_append, List.countP_nil]
    omega

end OpenWA.Paging
