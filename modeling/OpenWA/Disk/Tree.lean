import Mathlib.Data.List.Infix
import Mathlib.Logic.Function.Basic

/-!
This module contains trees of directories and files, with the calls that make and remove entries.
-/

namespace OpenWA.Disk

/-- A path is the list of its components. -/
abbrev Path (κ : Type) := List κ

inductive Node (β : Type) where
  | file (data : List β)
  | dir
deriving DecidableEq

/-- Whatever exists lies in directories. -/
structure Tree (κ β : Type) where
  node : Path κ → Option (Node β)
  closed : ∀ p name, node (p ++ [name]) ≠ none → node p = some .dir

namespace Tree

variable {κ β : Type} [DecidableEq κ] {t t' : Tree κ β} {p q : Path κ} {x : Node β} {data : List β}

def empty : Tree κ β where
  node _ := none
  closed _ _ h := absurd rfl h

/-- Remove the path with all that is below it. -/
def prune (t : Tree κ β) (p : Path κ) : Tree κ β where
  node q := if p <+: q then none else t.node q
  closed q name h := by
    split at h
    . contradiction
    . next hnot =>
      rw [if_neg fun hp => hnot (hp.trans (List.prefix_append q _))]
      exact t.closed q name h

/-- `rmSync(p, { force: true })` removes a file and does not mind if there is nothing. -/
def unlink (t : Tree κ β) (p : Path κ) : Option (Tree κ β) :=
  match t.node p with
  | some .dir => none
  | _ => some (t.prune p)

omit [DecidableEq κ] in
/-- What is above something that exists is a directory. -/
theorem dir_above (hq : t.node q ≠ none) (hp : p <+: q) (hne : p ≠ q) : t.node p = some .dir := by
  induction q using List.reverseRecOn with
  | nil => exact absurd (List.prefix_nil.mp hp) hne
  | append_singleton q name ih =>
    have hdir := t.closed q name hq
    rcases List.prefix_concat_iff.mp hp with heq | hp
    . exact absurd heq hne
    . by_cases hpq : p = q
      . exact hpq ▸ hdir
      . exact ih (by rw [hdir]; exact nofun) hp hpq

omit [DecidableEq κ] in
theorem none_below (hp : t.node p ≠ some .dir) (hpq : p <+: q) (hne : p ≠ q) : t.node q = none :=
  Classical.byContradiction fun hq => hp (dir_above hq hpq hne)

theorem prune_node (t : Tree κ β) (p q : Path κ) :
    (t.prune p).node q = if p <+: q then none else t.node q := rfl

theorem unlink_eq (h : t.unlink p = some t') : t.node p ≠ some .dir ∧ t' = t.prune p := by
  unfold unlink at h
  split at h
  . contradiction
  . next hne =>
    cases h
    exact ⟨hne, rfl⟩

theorem unlink_of_ne (h : t.node p ≠ some .dir) : t.unlink p = some (t.prune p) := by
  unfold unlink
  split
  . next hdir => exact absurd hdir h
  . rfl

section DecidableEq

variable [DecidableEq β]

/-- The path is the top, or its parent is a directory. -/
def hasParent (t : Tree κ β) (p : Path κ) : Bool := p = [] || t.node p.dropLast = some .dir

/-- A directory may not give way to a file. -/
def put (t : Tree κ β) (p : Path κ) (x : Node β) : Option (Tree κ β) :=
  if h : t.hasParent p = true ∧ (x = .dir ∨ t.node p ≠ some .dir) then
    some {
      node := Function.update t.node p (some x)
      closed := by
        intro q name hq
        by_cases hqp : q = p
        . subst hqp
          rw [Function.update_of_ne (by simp)] at hq
          have hdir := t.closed q name hq
          rw [Function.update_self, h.2.resolve_right fun hne => hne hdir]
        . rw [Function.update_of_ne hqp]
          by_cases hname : q ++ [name] = p
          . have hparent := h.1
            subst hname
            simpa [hasParent] using hparent
          . rw [Function.update_of_ne hname] at hq
            exact t.closed q name hq
    }
  else none

/-- One level of `mkdirSync(…, { recursive: true })`. -/
def mkdir (t : Tree κ β) (p : Path κ) : Option (Tree κ β) :=
  match t.node p with
  | some .dir => some t
  | some (.file _) => none
  | none => t.put p .dir

def openTruncated (t : Tree κ β) (p : Path κ) : Option (Tree κ β) := t.put p (.file [])

def append (t : Tree κ β) (p : Path κ) (byte : β) : Option (Tree κ β) :=
  match t.node p with
  | some (.file data) => t.put p (.file (data ++ [byte]))
  | _ => none

theorem put_node (h : t.put p x = some t') : t'.node = Function.update t.node p (some x) := by
  unfold put at h
  split at h
  . cases h
    rfl
  . contradiction

theorem put_isSome (hparent : t.hasParent p = true) (hx : x = .dir ∨ t.node p ≠ some .dir) :
    ∃ t', t.put p x = some t' := by
  unfold put
  rw [dif_pos ⟨hparent, hx⟩]
  exact ⟨_, rfl⟩

theorem put_not_dir (h : t.put p (.file data) = some t') : t.node p ≠ some .dir := by
  unfold put at h
  split at h
  . next hand => exact hand.2.resolve_left nofun
  . contradiction

theorem mkdir_of_dir (h : t.node p = some .dir) : t.mkdir p = some t := by
  unfold mkdir
  rw [h]

theorem mkdir_of_file (h : t.node p = some (.file data)) : t.mkdir p = none := by
  unfold mkdir
  rw [h]

theorem mkdir_of_none (h : t.node p = none) : t.mkdir p = t.put p .dir := by
  unfold mkdir
  rw [h]

end DecidableEq

end Tree
end OpenWA.Disk
