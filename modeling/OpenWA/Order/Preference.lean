import Mathlib.Data.List.Perm.Basic
import Mathlib.Data.List.Nodup
import Mathlib.Order.MinMax

/-!
This module contains the fold of entries of which the one with the lowest key wins and the others fill
what it lacks, and when its result does not depend on the order of the entries.
-/

namespace OpenWA.Preference

variable {α κ β : Type} [LinearOrder κ]

/-- The entry with the lower key wins, and the other one fills in. -/
def prefer (a b : κ × Option β) : κ × Option β :=
  if a.1 ≤ b.1 then (a.1, a.2.or b.2) else (b.1, b.2.or a.2)

def fold (xs : List (κ × Option β)) : Option (κ × Option β) :=
  match xs with
  | [] => none
  | x :: xs => some (xs.foldl prefer x)

/-- The entry with the lowest key has a value, or all values are one. -/
def Settled (xs : List (κ × Option β)) : Prop :=
  ∀ p ∈ xs, (∀ x ∈ xs, p.1 ≤ x.1) →
    p.2.isSome = true ∨ ∀ x ∈ xs, ∀ y ∈ xs, ∀ v w, x.2 = some v → y.2 = some w → v = w

variable {x p : κ × Option β} {xs ys : List (κ × Option β)} {v w : β}

theorem prefer_fst (a b : κ × Option β) : (prefer a b).1 = min a.1 b.1 := by
  unfold prefer
  split
  . next h => exact (min_eq_left h).symm
  . next h => exact (min_eq_right (le_of_not_ge h)).symm

theorem prefer_of_lt {a b : κ × Option β} (h : b.1 < a.1) : prefer a b = (b.1, b.2.or a.2) :=
  if_neg (not_le_of_gt h)

/-- The lowest key is that of an entry. -/
theorem exists_foldl_fst (x : κ × Option β) (xs : List (κ × Option β)) :
    ∃ p ∈ x :: xs, (xs.foldl prefer x).1 = p.1 ∧ ∀ y ∈ x :: xs, p.1 ≤ y.1 := by
  induction xs generalizing x with
  | nil => exact ⟨x, List.mem_cons_self, rfl, fun y hy => (List.mem_singleton.mp hy) ▸ le_refl _⟩
  | cons y xs ih =>
    rcases ih (prefer x y) with ⟨p, hp, heq, hle⟩
    have hmin := hle _ List.mem_cons_self
    rw [prefer_fst] at hmin
    have hall (q : κ × Option β) (hq : q.1 = p.1) : ∀ z ∈ x :: y :: xs, q.1 ≤ z.1 := by
      intro z hz
      rw [hq]
      rcases List.mem_cons.mp hz with rfl | hz
      . exact le_trans hmin (min_le_left _ _)
      . rcases List.mem_cons.mp hz with rfl | hz
        . exact le_trans hmin (min_le_right _ _)
        . exact hle z (List.mem_cons_of_mem _ hz)
    rcases List.mem_cons.mp hp with rfl | hp
    . rcases min_choice x.1 y.1 with h | h
      . have hx : x.1 = (prefer x y).1 := by rw [prefer_fst, h]
        exact ⟨x, List.mem_cons_self, heq.trans hx.symm, hall x hx⟩
      . have hy : y.1 = (prefer x y).1 := by rw [prefer_fst, h]
        exact ⟨y, List.mem_cons_of_mem _ List.mem_cons_self, heq.trans hy.symm, hall y hy⟩
    . exact ⟨p, List.mem_cons_of_mem _ (List.mem_cons_of_mem _ hp), heq, hall p rfl⟩

theorem foldl_of_winner (hp : p ∈ x :: xs) (hlow : ∀ y ∈ x :: xs, y = p ∨ p.1 < y.1)
    (hv : p.2 = some v) : (xs.foldl prefer x).2 = some v := by
  induction xs generalizing x with
  | nil => exact (List.mem_singleton.mp hp) ▸ hv
  | cons y xs ih =>
    have hy := hlow y (List.mem_cons_of_mem _ List.mem_cons_self)
    have hwin : (x = p ∨ y = p) → prefer x y = p := by
      intro hor
      by_cases hx : x = p
      . have hle : x.1 ≤ y.1 := by
          rcases hy with rfl | hlt
          . exact le_of_eq (congrArg Prod.fst hx)
          . exact hx ▸ le_of_lt hlt
        rw [prefer, if_pos hle, hx, hv, Option.some_or, ← hv]
      . have hlt := (hlow x List.mem_cons_self).resolve_left hx
        have hy' := hor.resolve_left hx
        subst hy'
        rw [prefer_of_lt hlt, hv, Option.some_or, ← hv]
    by_cases hor : x = p ∨ y = p
    . refine ih (List.mem_cons.mpr (.inl (hwin hor).symm)) fun z hz => ?_
      rcases List.mem_cons.mp hz with rfl | hz
      . exact .inl (hwin hor)
      . exact hlow z (List.mem_cons_of_mem _ (List.mem_cons_of_mem _ hz))
    . rw [not_or] at hor
      have hmem : p ∈ xs := by
        rcases List.mem_cons.mp hp with rfl | hp
        . exact absurd rfl hor.1
        . rcases List.mem_cons.mp hp with rfl | hp
          . exact absurd rfl hor.2
          . exact hp
      refine ih (List.mem_cons_of_mem _ hmem) fun z hz => ?_
      rcases List.mem_cons.mp hz with rfl | hz
      . right
        rw [prefer_fst]
        exact lt_min ((hlow x List.mem_cons_self).resolve_left hor.1) (hy.resolve_left hor.2)
      . exact hlow z (List.mem_cons_of_mem _ (List.mem_cons_of_mem _ hz))

theorem prefer_some {a b : κ × Option β} (h : (prefer a b).2 = some v) :
    a.2 = some v ∨ b.2 = some v := by
  unfold prefer at h
  split at h
  . exact (Option.or_eq_some_iff.mp h).imp_right And.right
  . exact ((Option.or_eq_some_iff.mp h).imp_right And.right).symm

theorem prefer_isSome (a b : κ × Option β) :
    (prefer a b).2.isSome = (a.2.isSome || b.2.isSome) := by
  unfold prefer
  split
  . simp
  . simp [Bool.or_comm]

theorem exists_of_foldl (h : (xs.foldl prefer x).2 = some v) : ∃ y ∈ x :: xs, y.2 = some v := by
  induction xs generalizing x with
  | nil => exact ⟨x, List.mem_cons_self, h⟩
  | cons y xs ih =>
    rcases ih h with ⟨z, hz, hv⟩
    rcases List.mem_cons.mp hz with rfl | hz
    . rcases prefer_some hv with hv | hv
      . exact ⟨x, List.mem_cons_self, hv⟩
      . exact ⟨y, List.mem_cons_of_mem _ List.mem_cons_self, hv⟩
    . exact ⟨z, List.mem_cons_of_mem _ (List.mem_cons_of_mem _ hz), hv⟩

theorem foldl_isSome (x : κ × Option β) (xs : List (κ × Option β)) :
    (xs.foldl prefer x).2.isSome = (x :: xs).any fun y => y.2.isSome := by
  induction xs generalizing x with
  | nil => simp
  | cons y xs ih =>
    rw [List.foldl_cons, ih, List.any_cons, prefer_isSome]
    simp [Bool.or_assoc]

/-- After the winner that lacks a value the first entry gives it. -/
theorem foldl_of_lacking (hp : p.2 = none) (hx : x.2 = some v) (hle : p.1 ≤ x.1)
    (hrest : ∀ y ∈ xs, p.1 ≤ y.1) : ((x :: xs).foldl prefer p).2 = some v := by
  have hstep : prefer p x = (p.1, some v) := by
    rw [prefer, if_pos hle, hp, hx]
    rfl
  rw [List.foldl_cons, hstep]
  clear hstep hx
  induction xs with
  | nil => rfl
  | cons y xs ih =>
    have hy : prefer (p.1, some v) y = (p.1, some v) := if_pos (hrest y List.mem_cons_self)
    rw [List.foldl_cons, hy]
    exact ih fun z hz => hrest z (List.mem_cons_of_mem _ hz)

theorem fold_snd_cons (x : κ × Option β) (xs : List (κ × Option β)) :
    (fold (x :: xs)).map (·.2) = some (xs.foldl prefer x).2 := rfl

theorem fold_of_winner (hp : p ∈ xs) (hlow : ∀ y ∈ xs, y = p ∨ p.1 < y.1) (hv : p.2 = some v) :
    (fold xs).map (·.2) = some (some v) := by
  cases xs with
  | nil => contradiction
  | cons x xs => rw [fold_snd_cons, foldl_of_winner hp hlow hv]

/-- With keys of their own, all entries but the winner have higher keys. -/
theorem eq_or_lt {a : α} {as : List α} {key : α → κ} {value : α → Option β}
    (hnodup : (as.map key).Nodup) (ha : a ∈ as)
    (hle : ∀ x ∈ as.map fun a => (key a, value a), key a ≤ x.1) :
    ∀ x ∈ as.map fun a => (key a, value a), x = (key a, value a) ∨ key a < x.1 := by
  intro x hx
  rcases List.mem_map.mp hx with ⟨b, hb, rfl⟩
  rcases (hle _ hx).eq_or_lt with heq | hlt
  . left
    rw [List.inj_on_of_nodup_map hnodup ha hb heq]
  . exact .inr hlt

theorem fold_eq_of_settled {key : α → κ} {value : α → Option β} {as bs : List α}
    (hnodup : (as.map key).Nodup) (hs : Settled (as.map fun a => (key a, value a))) (h : bs.Perm as) :
    (fold (bs.map fun a => (key a, value a))).map (·.2) =
      (fold (as.map fun a => (key a, value a))).map (·.2) := by
  have hperm := h.map fun a => (key a, value a)
  generalize hxs : (as.map fun a => (key a, value a)) = xs at hs hperm
  generalize hys : (bs.map fun a => (key a, value a)) = ys at hperm
  cases xs with
  | nil =>
    rw [List.perm_nil.mp hperm]
  | cons x xs =>
    cases ys with
    | nil => exact absurd hperm.symm (List.cons_ne_nil _ _ <| List.perm_nil.mp ·)
    | cons y ys =>
      rw [fold_snd_cons, fold_snd_cons, Option.some.injEq]
      rcases exists_foldl_fst x xs with ⟨p, hp, _, hle⟩
      rcases hs p hp hle with hsome | hagree
      . rcases Option.isSome_iff_exists.mp hsome with ⟨v, hv⟩
        have hlow : ∀ z ∈ x :: xs, z = p ∨ p.1 < z.1 := by
          rw [← hxs] at hp hle ⊢
          rcases List.mem_map.mp hp with ⟨a, ha, rfl⟩
          exact eq_or_lt hnodup ha hle
        rw [foldl_of_winner hp hlow hv, foldl_of_winner (hperm.mem_iff.mpr hp)
          (fun z hz => hlow z (hperm.mem_iff.mp hz)) hv]
      . have hany : (y :: ys).any (fun z => z.2.isSome) = (x :: xs).any fun z => z.2.isSome :=
          hperm.any_eq
        rw [← foldl_isSome, ← foldl_isSome] at hany
        cases hx : (xs.foldl prefer x).2 with
        | none =>
          rw [hx] at hany
          exact Option.not_isSome_iff_eq_none.mp (by rw [hany]; exact Bool.false_ne_true)
        | some v =>
          rw [hx] at hany
          rcases Option.isSome_iff_exists.mp hany with ⟨w, hw⟩
          rcases exists_of_foldl hx with ⟨a, ha, hav⟩
          rcases exists_of_foldl hw with ⟨b, hb, hbw⟩
          rw [hw, hagree b (hperm.mem_iff.mp hb) a ha w v hbw hav]

/-- The fold does not depend on the order of the entries if and only if it is settled. -/
theorem fold_eq_iff {key : α → κ} {value : α → Option β} {as : List α}
    (hnodup : (as.map key).Nodup) :
    (∀ bs : List α, bs.Perm as → (fold (bs.map fun a => (key a, value a))).map (·.2) =
      (fold (as.map fun a => (key a, value a))).map (·.2)) ↔
      Settled (as.map fun a => (key a, value a)) := by
  constructor
  . intro hall p hp hle
    rcases List.mem_map.mp hp with ⟨a, ha, rfl⟩
    cases hvalue : value a with
    | some v => exact .inl rfl
    | none =>
      right
      -- the winner first, then an entry that has a value: the fold has that value
      have hfirst (b : α) (hb : b ∈ as) (v : β) (hv : value b = some v) :
          (fold (as.map fun a => (key a, value a))).map (·.2) = some (some v) := by
        classical
        have hne : b ≠ a := by
          rintro rfl
          rw [hvalue] at hv
          contradiction
        have hperm : (a :: b :: (as.erase a).erase b).Perm as := by
          have hb' : b ∈ as.erase a := (List.mem_erase_of_ne hne).mpr hb
          exact ((List.perm_cons_erase hb').symm.cons a).trans (List.perm_cons_erase ha).symm
        rw [← hall _ hperm, List.map_cons, fold_snd_cons, List.map_cons]
        refine congrArg some (foldl_of_lacking hvalue hv (hle _ (List.mem_map_of_mem hb)) ?_)
        intro y hy
        rcases List.mem_map.mp hy with ⟨c, hc, rfl⟩
        exact hle _ (List.mem_map_of_mem (List.mem_of_mem_erase (List.mem_of_mem_erase hc)))
      intro x hx y hy v w hv hw
      rcases List.mem_map.mp hx with ⟨b, hb, rfl⟩
      rcases List.mem_map.mp hy with ⟨c, hc, rfl⟩
      have heq := (hfirst b hb v hv).symm.trans (hfirst c hc w hw)
      exact Option.some.inj (Option.some.inj heq)
  . exact fun hs bs h => fold_eq_of_settled hnodup hs h

end OpenWA.Preference
