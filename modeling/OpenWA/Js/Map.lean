import Mathlib.Data.List.Nodup

/-!
This module contains the maps of the language: their entries in the order of insertion, each key
once.
-/

namespace OpenWA.Js

structure Map (κ α : Type) where
  entries : List (κ × α)
  nodup : (entries.map (·.1)).Nodup
deriving DecidableEq

namespace Map

variable {κ α : Type} [DecidableEq κ]

def empty : Map κ α := ⟨[], List.nodup_nil⟩

def get? (m : Map κ α) (k : κ) : Option α := m.entries.lookup k

def has (m : Map κ α) (k : κ) : Bool := (m.get? k).isSome

def size (m : Map κ α) : Nat := m.entries.length

def keys (m : Map κ α) : List κ := m.entries.map (·.1)

/-- An entry keeps its place when its value is replaced. -/
def setEntries (entries : List (κ × α)) (k : κ) (x : α) : List (κ × α) :=
  match entries with
  | [] => [(k, x)]
  | entry :: entries =>
    if entry.1 = k then (k, x) :: entries else entry :: setEntries entries k x

theorem mem_setEntries_keys {entries : List (κ × α)} {k k' : κ} {x : α}
    (h : k' ∈ (setEntries entries k x).map (·.1)) : k' = k ∨ k' ∈ entries.map (·.1) := by
  induction entries with
  | nil => simpa [setEntries] using h
  | cons entry entries ih =>
    unfold setEntries at h
    split at h
    . simp only [List.map_cons, List.mem_cons] at h ⊢
      rcases h with h | h
      . exact .inl h
      . exact .inr (.inr h)
    . simp only [List.map_cons, List.mem_cons] at h ⊢
      rcases h with h | h
      . exact .inr (.inl h)
      . exact (ih h).imp_right .inr

theorem nodup_setEntries {entries : List (κ × α)} (h : (entries.map (·.1)).Nodup) (k : κ) (x : α) :
    ((setEntries entries k x).map (·.1)).Nodup := by
  induction entries with
  | nil => simp [setEntries]
  | cons entry entries ih =>
    rw [List.map_cons, List.nodup_cons] at h
    unfold setEntries
    split
    . next heq =>
      rw [List.map_cons, List.nodup_cons]
      exact heq ▸ h
    . next hne =>
      rw [List.map_cons, List.nodup_cons]
      refine ⟨fun hmem => ?_, ih h.2⟩
      rcases mem_setEntries_keys hmem with heq | hmem
      . exact hne heq
      . exact h.1 hmem

def set (m : Map κ α) (k : κ) (x : α) : Map κ α :=
  ⟨setEntries m.entries k x, nodup_setEntries m.nodup k x⟩

def delete (m : Map κ α) (k : κ) : Map κ α :=
  ⟨m.entries.filter fun entry => entry.1 ≠ k, m.nodup.sublist (List.filter_sublist.map _)⟩

@[simp]
theorem get?_empty (k : κ) : (empty : Map κ α).get? k = none := rfl

theorem has_eq (m : Map κ α) (k : κ) : m.has k = (m.get? k).isSome := rfl

theorem lookup_setEntries (entries : List (κ × α)) (k k' : κ) (x : α) :
    (setEntries entries k x).lookup k' = if k' = k then some x else entries.lookup k' := by
  induction entries with
  | nil =>
    unfold setEntries
    by_cases hk : k' = k
    . simp [hk]
    . simp [hk, List.lookup_cons, beq_eq_false_iff_ne.mpr hk]
  | cons entry entries ih =>
    unfold setEntries
    by_cases hentry : entry.1 = k
    . rw [if_pos hentry]
      by_cases hk : k' = k
      . simp [hk]
      . have hne : k' ≠ entry.1 := fun heq => hk (heq.trans hentry)
        rw [if_neg hk, List.lookup_cons, List.lookup_cons, beq_eq_false_iff_ne.mpr hk,
          beq_eq_false_iff_ne.mpr hne]
    . rw [if_neg hentry, List.lookup_cons, List.lookup_cons, ih]
      by_cases hk : k' = k
      . have hne : k' ≠ entry.1 := fun heq => hentry (heq.symm.trans hk)
        simp [hk, beq_eq_false_iff_ne.mpr (hk ▸ hne)]
      . simp [hk]

@[simp]
theorem get?_set (m : Map κ α) (k k' : κ) (x : α) :
    (m.set k x).get? k' = if k' = k then some x else m.get? k' :=
  lookup_setEntries m.entries k k' x

theorem lookup_filter_ne (entries : List (κ × α)) (k k' : κ) :
    (entries.filter fun entry => entry.1 ≠ k).lookup k' =
      if k' = k then none else entries.lookup k' := by
  induction entries with
  | nil => simp
  | cons entry entries ih =>
    by_cases hentry : entry.1 = k
    . rw [List.filter_cons_of_neg (by simp [hentry]), ih, List.lookup_cons]
      by_cases hk : k' = k
      . simp [hk]
      . have hne : k' ≠ entry.1 := fun heq => hk (heq.trans hentry)
        simp [hk, beq_eq_false_iff_ne.mpr hne]
    . rw [List.filter_cons_of_pos (by simp [hentry]), List.lookup_cons, List.lookup_cons, ih]
      by_cases hk : k' = k
      . have hne : k' ≠ entry.1 := fun heq => hentry (heq.symm.trans hk)
        simp [hk, beq_eq_false_iff_ne.mpr (hk ▸ hne)]
      . simp [hk]

@[simp]
theorem get?_delete (m : Map κ α) (k k' : κ) :
    (m.delete k).get? k' = if k' = k then none else m.get? k' :=
  lookup_filter_ne m.entries k k'

/-- What a loop leaves that deletes the entries whose value fails `p`. -/
def keep (m : Map κ α) (p : α → Bool) : Map κ α :=
  ⟨m.entries.filter fun entry => p entry.2, m.nodup.sublist (List.filter_sublist.map _)⟩

@[simp]
theorem get?_keep (m : Map κ α) (p : α → Bool) (k : κ) : (m.keep p).get? k = (m.get? k).filter p := by
  rcases m with ⟨entries, hnodup⟩
  simp only [keep, get?]
  induction entries with
  | nil => rfl
  | cons entry entries ih =>
    rcases entry with ⟨k', x⟩
    rw [List.map_cons, List.nodup_cons] at hnodup
    have ih := ih hnodup.2
    by_cases hk : k = k'
    . subst hk
      have hnone : entries.lookup k = none := by
        rw [List.lookup_eq_none_iff]
        intro entry hmem
        exact bne_iff_ne.mpr fun heq => hnodup.1 (List.mem_map.mpr ⟨entry, hmem, heq.symm⟩)
      cases hp : p x with
      | true => simp [hp, Option.filter]
      | false => simp [hp, ih, hnone, Option.filter]
    . have hne : (k == k') = false := beq_eq_false_iff_ne.mpr hk
      cases hp : p x with
      | true => simp [hp, List.lookup_cons, hne, ih]
      | false => simp [hp, List.lookup_cons, hne, ih]

theorem setEntries_setEntries (entries : List (κ × α)) (k : κ) (x y : α) :
    setEntries (setEntries entries k x) k y = setEntries entries k y := by
  induction entries with
  | nil => simp [setEntries]
  | cons entry entries ih =>
    by_cases hk : entry.1 = k
    . simp [setEntries, hk]
    . simp [setEntries, hk, ih]

@[simp]
theorem set_set (m : Map κ α) (k : κ) (x y : α) : (m.set k x).set k y = m.set k y := by
  unfold set
  simp only [mk.injEq]
  exact setEntries_setEntries m.entries k x y

theorem get?_isSome_iff (m : Map κ α) (k : κ) : (m.get? k).isSome ↔ k ∈ m.keys := by
  unfold get? keys
  induction m.entries with
  | nil => simp
  | cons entry entries ih =>
    rw [List.lookup_cons, List.map_cons, List.mem_cons, ← ih]
    by_cases hk : k = entry.1
    . simp [hk]
    . simp [hk, beq_eq_false_iff_ne.mpr hk]

theorem keys_setEntries (entries : List (κ × α)) (k : κ) (x : α) :
    (setEntries entries k x).map (·.1) =
      if k ∈ entries.map (·.1) then entries.map (·.1) else entries.map (·.1) ++ [k] := by
  induction entries with
  | nil => simp [setEntries]
  | cons entry entries ih =>
    unfold setEntries
    by_cases hkey : entry.1 = k
    . simp [hkey]
    . simp only [if_neg hkey, List.map_cons, ih, List.mem_cons, Ne.symm hkey, false_or]
      by_cases hmem : k ∈ entries.map (·.1)
      . rw [if_pos hmem, if_pos hmem]
      . rw [if_neg hmem, if_neg hmem, List.cons_append]

theorem setEntries_of_notMem {entries : List (κ × α)} {k : κ} (h : k ∉ entries.map (·.1)) (x : α) :
    setEntries entries k x = entries ++ [(k, x)] := by
  induction entries with
  | nil => rfl
  | cons entry entries ih =>
    rw [List.map_cons, List.mem_cons, not_or] at h
    rw [setEntries, if_neg (Ne.symm h.1), ih h.2, List.cons_append]

theorem lookup_eq_some_of_mem {entries : List (κ × α)} (hnodup : (entries.map (·.1)).Nodup)
    {entry : κ × α} (h : entry ∈ entries) : entries.lookup entry.1 = some entry.2 := by
  induction entries with
  | nil => cases h
  | cons head entries ih =>
    rw [List.map_cons, List.nodup_cons] at hnodup
    rw [List.lookup_cons]
    rcases List.mem_cons.mp h with rfl | hmem
    . simp
    . have hne : entry.1 ≠ head.1 := by
        intro hsame
        exact hnodup.1 (hsame ▸ List.mem_map_of_mem (f := (·.1)) hmem)
      rw [beq_eq_false_iff_ne.mpr hne]
      exact ih hnodup.2 hmem

theorem mem_entries_iff (m : Map κ α) (entry : κ × α) :
    entry ∈ m.entries ↔ m.get? entry.1 = some entry.2 := by
  constructor
  . exact lookup_eq_some_of_mem m.nodup
  . intro h
    rcases List.lookup_eq_some_iff.mp h with ⟨before, behind, heq, -⟩
    rw [heq]
    exact List.mem_append_right _ List.mem_cons_self

theorem get?_eq_of_perm {m m' : Map κ α} (h : m'.entries.Perm m.entries) : m'.get? = m.get? := by
  funext k
  apply Option.ext
  intro x
  rw [← mem_entries_iff m' (k, x), ← mem_entries_iff m (k, x), h.mem_iff]

theorem perm_of_get?_eq {m m' : Map κ α} (h : m'.get? = m.get?) : m'.entries.Perm m.entries := by
  have hmem (entry : κ × α) : entry ∈ m'.entries ↔ entry ∈ m.entries := by
    rw [mem_entries_iff, mem_entries_iff, h]
  exact (List.perm_ext_iff_of_nodup m'.nodup.of_map m.nodup.of_map).mpr hmem

theorem setEntries_eq_map {entries : List (κ × α)} (hnodup : (entries.map (·.1)).Nodup)
    {k : κ} (hkey : entries.lookup k ≠ none) (x : α) :
    setEntries entries k x = entries.map fun e => if e.1 = k then (k, x) else e := by
  induction entries with
  | nil => exact absurd rfl hkey
  | cons head entries ih =>
    rw [List.map_cons, List.nodup_cons] at hnodup
    unfold setEntries
    by_cases hhead : head.1 = k
    . have hrest : entries.map (fun e => if e.1 = k then (k, x) else e) = entries := by
        conv_rhs => rw [← List.map_id entries]
        apply List.map_congr_left
        intro e he
        have hne : e.1 ≠ k := by
          rintro rfl
          exact hnodup.1 (hhead ▸ List.mem_map_of_mem (f := (·.1)) he)
        rw [if_neg hne]
        rfl
      rw [if_pos hhead, List.map_cons, if_pos hhead, hrest]
    . rw [List.lookup_cons, beq_eq_false_iff_ne.mpr (Ne.symm hhead)] at hkey
      rw [if_neg hhead, List.map_cons, if_neg hhead, ih hnodup.2 hkey]

section Filter

variable {p : κ → Bool} {k : κ}

theorem filter_setEntries_of_neg (h : p k = false) (entries : List (κ × α)) (x : α) :
    (setEntries entries k x).filter (fun entry => p entry.1) =
      entries.filter fun entry => p entry.1 := by
  induction entries with
  | nil => simp [setEntries, h]
  | cons entry entries ih =>
    unfold setEntries
    by_cases hkey : entry.1 = k
    . rw [if_pos hkey, List.filter_cons_of_neg (by simp [h]), List.filter_cons_of_neg (by simp [hkey, h])]
    . rw [if_neg hkey, List.filter_cons, List.filter_cons, ih]

theorem filter_setEntries_of_pos (h : p k = true) (entries : List (κ × α)) (x : α) :
    (setEntries entries k x).filter (fun entry => p entry.1) =
      setEntries (entries.filter fun entry => p entry.1) k x := by
  induction entries with
  | nil => simp [setEntries, h]
  | cons entry entries ih =>
    by_cases hkey : entry.1 = k
    . have hentry : p entry.1 = true := by rw [hkey, h]
      simp [setEntries, hkey, h]
    . by_cases hentry : p entry.1 = true
      . simp [setEntries, hkey, hentry, ih]
      . simp [setEntries, hkey, hentry, ih]

theorem lookup_filter_of_pos (h : p k = true) (entries : List (κ × α)) :
    (entries.filter fun entry => p entry.1).lookup k = entries.lookup k := by
  induction entries with
  | nil => rfl
  | cons entry entries ih =>
    by_cases hkey : k = entry.1
    . rw [List.filter_cons_of_pos (by rw [← hkey, h]), List.lookup_cons, List.lookup_cons, hkey]
      simp
    . rw [List.lookup_cons, beq_eq_false_iff_ne.mpr hkey, ← ih, List.filter_cons]
      split
      . rw [List.lookup_cons, beq_eq_false_iff_ne.mpr hkey]
      . rfl

end Filter

end Map
end OpenWA.Js
