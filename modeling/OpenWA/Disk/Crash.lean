import Mathlib.Logic.Basic

/-!
This module contains programs whose calls take effect at once, may throw and may be the last thing
the process gets to before it dies, with the rules for what such a program leaves behind.
-/

namespace OpenWA.Disk

/-- Programs over a state `σ` whose calls carry labels from `ℓ`. A call that yields `none` throws. -/
inductive Prog (σ ℓ : Type) where
  | done
  | raise
  | call (l : ℓ) (f : σ → Option σ)
  | read (k : σ → Prog σ ℓ)
  | seq (p q : Prog σ ℓ)
  | attempt (body handler : Prog σ ℓ)

inductive Outcome where
  | finished
  | thrown
deriving DecidableEq

variable {σ ℓ α : Type}

namespace Prog

def block (ps : List (Prog σ ℓ)) : Prog σ ℓ :=
  match ps with
  | [] => done
  | p :: ps => seq p (block ps)

def forEach (xs : List α) (f : α → Prog σ ℓ) : Prog σ ℓ :=
  match xs with
  | [] => done
  | x :: xs => seq (f x) (forEach xs f)

def when (b : Bool) (p : Prog σ ℓ) : Prog σ ℓ := if b then p else done

end Prog

section Semantics

variable (throws : ℓ → Bool)

/-- How the program can end, and where; a call can throw if `throws` says so of its label. -/
inductive Ends : Prog σ ℓ → σ → Outcome → σ → Prop where
  | done {s : σ} : Ends .done s .finished s
  | raise {s : σ} : Ends .raise s .thrown s
  | call {l : ℓ} {f : σ → Option σ} {s s' : σ} (h : f s = some s') : Ends (.call l f) s .finished s'
  | refused {l : ℓ} {f : σ → Option σ} {s : σ} (h : f s = none) : Ends (.call l f) s .thrown s
  | fault {l : ℓ} {f : σ → Option σ} {s : σ} (h : throws l) : Ends (.call l f) s .thrown s
  | read {k : σ → Prog σ ℓ} {s s' : σ} {o : Outcome} (h : Ends (k s) s o s') : Ends (.read k) s o s'
  | seq {p q : Prog σ ℓ} {s s' s'' : σ} {o : Outcome} (hp : Ends p s .finished s')
      (hq : Ends q s' o s'') : Ends (.seq p q) s o s''
  | seqThrown {p q : Prog σ ℓ} {s s' : σ} (hp : Ends p s .thrown s') : Ends (.seq p q) s .thrown s'
  | attempt {p q : Prog σ ℓ} {s s' : σ} (hp : Ends p s .finished s') :
      Ends (.attempt p q) s .finished s'
  | caught {p q : Prog σ ℓ} {s s' s'' : σ} {o : Outcome} (hp : Ends p s .thrown s')
      (hq : Ends q s' o s'') : Ends (.attempt p q) s o s''

/-- The process can die before the call labelled `l`, with the state `s'` on the disk. -/
inductive Crash : Prog σ ℓ → σ → ℓ → σ → Prop where
  | call {l : ℓ} {f : σ → Option σ} {s : σ} : Crash (.call l f) s l s
  | read {k : σ → Prog σ ℓ} {s s' : σ} {l : ℓ} (h : Crash (k s) s l s') : Crash (.read k) s l s'
  | seq {p q : Prog σ ℓ} {s s' : σ} {l : ℓ} (h : Crash p s l s') : Crash (.seq p q) s l s'
  | seqRest {p q : Prog σ ℓ} {s s' s'' : σ} {l : ℓ} (hp : Ends throws p s .finished s')
      (hq : Crash q s' l s'') : Crash (.seq p q) s l s''
  | attempt {p q : Prog σ ℓ} {s s' : σ} {l : ℓ} (h : Crash p s l s') : Crash (.attempt p q) s l s'
  | handler {p q : Prog σ ℓ} {s s' s'' : σ} {l : ℓ} (hp : Ends throws p s .thrown s')
      (hq : Crash q s' l s'') : Crash (.attempt p q) s l s''

/-! ### Runs -/

structure Run (σ ℓ : Type) where
  /-- the calls in order, each with the state before it -/
  calls : List (ℓ × σ)
  outcome : Outcome
  final : σ
  /-- for the calls that are left, whether they throw -/
  faults : List Bool

def exec (p : Prog σ ℓ) (faults : List Bool) (s : σ) : Run σ ℓ :=
  match p with
  | .done => ⟨[], .finished, s, faults⟩
  | .raise => ⟨[], .thrown, s, faults⟩
  | .call l f =>
    if faults.headD false && throws l then ⟨[(l, s)], .thrown, s, faults.tail⟩
    else
      match f s with
      | some s' => ⟨[(l, s)], .finished, s', faults.tail⟩
      | none => ⟨[(l, s)], .thrown, s, faults.tail⟩
  | .read k => exec (k s) faults s
  | .seq p q =>
    let r := exec p faults s
    match r.outcome with
    | .thrown => r
    | .finished =>
      let r' := exec q r.faults r.final
      ⟨r.calls ++ r'.calls, r'.outcome, r'.final, r'.faults⟩
  | .attempt p q =>
    let r := exec p faults s
    match r.outcome with
    | .finished => r
    | .thrown =>
      let r' := exec q r.faults r.final
      ⟨r.calls ++ r'.calls, r'.outcome, r'.final, r'.faults⟩

variable {throws}

theorem ends_exec (p : Prog σ ℓ) (faults : List Bool) (s : σ) :
    Ends throws p s (exec throws p faults s).outcome (exec throws p faults s).final := by
  induction p generalizing faults s with
  | done => exact .done
  | raise => exact .raise
  | call l f =>
    unfold exec
    split
    . next h =>
      rw [Bool.and_eq_true] at h
      exact .fault h.2
    . split
      . next h => exact .call h
      . next h => exact .refused h
  | read k ih => exact .read (ih s faults s)
  | seq p q ihp ihq =>
    have hp := ihp faults s
    unfold exec
    cases ho : (exec throws p faults s).outcome with
    | thrown =>
      simp only [ho] at hp ⊢
      exact .seqThrown hp
    | finished =>
      simp only [ho] at hp ⊢
      exact .seq hp (ihq _ _)
  | attempt p q ihp ihq =>
    have hp := ihp faults s
    unfold exec
    cases ho : (exec throws p faults s).outcome with
    | thrown =>
      simp only [ho] at hp ⊢
      exact .caught hp (ihq _ _)
    | finished =>
      simp only [ho] at hp ⊢
      exact .attempt hp

theorem crash_exec {p : Prog σ ℓ} {faults : List Bool} {s s' : σ} {l : ℓ}
    (h : (l, s') ∈ (exec throws p faults s).calls) : Crash throws p s l s' := by
  induction p generalizing faults s with
  | done => simp [exec] at h
  | raise => simp [exec] at h
  | call l' f =>
    have heq : (l, s') = (l', s) := by
      unfold exec at h
      split at h
      . simpa using h
      . split at h <;> simpa using h
    cases heq
    exact .call
  | read k ih => exact .read (ih s h)
  | seq p q ihp ihq =>
    have hp : Ends throws p s _ _ := ends_exec p faults s
    unfold exec at h
    cases ho : (exec throws p faults s).outcome with
    | thrown =>
      simp only [ho] at h
      exact .seq (ihp h)
    | finished =>
      simp only [ho, List.mem_append] at h hp
      rcases h with h | h
      . exact .seq (ihp h)
      . exact .seqRest hp (ihq h)
  | attempt p q ihp ihq =>
    have hp : Ends throws p s _ _ := ends_exec p faults s
    unfold exec at h
    cases ho : (exec throws p faults s).outcome with
    | thrown =>
      simp only [ho, List.mem_append] at h hp
      rcases h with h | h
      . exact .attempt (ihp h)
      . exact .handler hp (ihq h)
    | finished =>
      simp only [ho] at h
      exact .attempt (ihp h)

end Semantics

/-! ### Rules -/

/--
From a state in `P` the program finishes in `Q`, throws in `T`, and a process that dies before a call
leaves what `C` says of the call.
-/
structure Triple (throws : ℓ → Bool) (P : σ → Prop) (p : Prog σ ℓ) (Q T : σ → Prop)
    (C : ℓ → σ → Prop) : Prop where
  finished : ∀ {s s' : σ}, P s → Ends throws p s .finished s' → Q s'
  thrown : ∀ {s s' : σ}, P s → Ends throws p s .thrown s' → T s'
  crash : ∀ {s s' : σ} {l : ℓ}, P s → Crash throws p s l s' → C l s'

namespace Triple

variable {throws : ℓ → Bool} {P Q R T : σ → Prop} {C : ℓ → σ → Prop} {p q : Prog σ ℓ}

theorem done (h : ∀ s, P s → Q s) : Triple throws P .done Q T C where
  finished hP hE := by
    cases hE
    exact h _ hP
  thrown _ hE := by cases hE
  crash _ hC := by cases hC

theorem raise (h : ∀ s, P s → T s) : Triple throws P .raise Q T C where
  finished _ hE := by cases hE
  thrown hP hE := by
    cases hE
    exact h _ hP
  crash _ hC := by cases hC

theorem call {l : ℓ} {f : σ → Option σ} (hC : ∀ s, P s → C l s)
    (hT : ∀ s, P s → throws l ∨ f s = none → T s) (hQ : ∀ s s', P s → f s = some s' → Q s') :
    Triple throws P (.call l f) Q T C where
  finished hP hE := by
    cases hE with
    | call h => exact hQ _ _ hP h
  thrown hP hE := by
    cases hE with
    | refused h => exact hT _ hP (.inr h)
    | fault h => exact hT _ hP (.inl h)
  crash hP hD := by
    cases hD
    exact hC _ hP

theorem read {k : σ → Prog σ ℓ} (h : ∀ s, P s → Triple throws (fun s' => s' = s) (k s) Q T C) :
    Triple throws P (.read k) Q T C where
  finished hP hE := by
    cases hE with
    | read hE => exact (h _ hP).finished rfl hE
  thrown hP hE := by
    cases hE with
    | read hE => exact (h _ hP).thrown rfl hE
  crash hP hD := by
    cases hD with
    | read hD => exact (h _ hP).crash rfl hD

theorem seq (hp : Triple throws P p R T C) (hq : Triple throws R q Q T C) :
    Triple throws P (.seq p q) Q T C where
  finished hP hE := by
    cases hE with
    | seq h h' => exact hq.finished (hp.finished hP h) h'
  thrown hP hE := by
    cases hE with
    | seq h h' => exact hq.thrown (hp.finished hP h) h'
    | seqThrown h => exact hp.thrown hP h
  crash hP hD := by
    cases hD with
    | seq h => exact hp.crash hP h
    | seqRest h h' => exact hq.crash (hp.finished hP h) h'

/-- What the body leaves when it throws is where the handler starts. -/
theorem attempt (hp : Triple throws P p Q R C) (hq : Triple throws R q Q T C) :
    Triple throws P (.attempt p q) Q T C where
  finished hP hE := by
    cases hE with
    | attempt h => exact hp.finished hP h
    | caught h h' => exact hq.finished (hp.thrown hP h) h'
  thrown hP hE := by
    cases hE with
    | caught h h' => exact hq.thrown (hp.thrown hP h) h'
  crash hP hD := by
    cases hD with
    | attempt h => exact hp.crash hP h
    | handler h h' => exact hq.crash (hp.thrown hP h) h'

theorem consequence {P' Q' T' : σ → Prop} {C' : ℓ → σ → Prop} (h : Triple throws P p Q T C)
    (hP : ∀ s, P' s → P s) (hQ : ∀ s, Q s → Q' s) (hT : ∀ s, T s → T' s)
    (hC : ∀ l s, C l s → C' l s) : Triple throws P' p Q' T' C' where
  finished hs hE := hQ _ (h.finished (hP _ hs) hE)
  thrown hs hE := hT _ (h.thrown (hP _ hs) hE)
  crash hs hD := hC _ _ (h.crash (hP _ hs) hD)

theorem pre {P' : σ → Prop} (h : Triple throws P p Q T C) (hP : ∀ s, P' s → P s) :
    Triple throws P' p Q T C :=
  h.consequence hP (fun _ => id) (fun _ => id) (fun _ _ => id)

theorem post {Q' : σ → Prop} (h : Triple throws P p Q T C) (hQ : ∀ s, Q s → Q' s) :
    Triple throws P p Q' T C :=
  h.consequence (fun _ => id) hQ (fun _ => id) (fun _ _ => id)

theorem ofExists {ι : Type} {P : ι → σ → Prop} (h : ∀ i, Triple throws (P i) p Q T C) :
    Triple throws (fun s => ∃ i, P i s) p Q T C where
  finished hP hE := hP.elim fun i hi => (h i).finished hi hE
  thrown hP hE := hP.elim fun i hi => (h i).thrown hi hE
  crash hP hD := hP.elim fun i hi => (h i).crash hi hD

theorem assume {φ : Prop} (h : φ → Triple throws P p Q T C) :
    Triple throws (fun s => φ ∧ P s) p Q T C where
  finished hP hE := (h hP.1).finished hP.2 hE
  thrown hP hE := (h hP.1).thrown hP.2 hE
  crash hP hD := (h hP.1).crash hP.2 hD

/-- The loop invariant speaks about the elements that are left. -/
theorem forEach {I : List α → σ → Prop} {f : α → Prog σ ℓ}
    (h : ∀ x xs, Triple throws (I (x :: xs)) (f x) (I xs) T C) (xs : List α) :
    Triple throws (I xs) (.forEach xs f) (I []) T C := by
  induction xs with
  | nil => exact done fun _ => id
  | cons x xs ih => exact seq (h x xs) ih

theorem when {b : Bool} (hp : b → Triple throws P p Q T C) (hn : b = false → ∀ s, P s → Q s) :
    Triple throws P (.when b p) Q T C := by
  unfold Prog.when
  cases b with
  | true => exact hp rfl
  | false => exact done (hn rfl)

end Triple

/-! ### Programs that keep an invariant -/

/-- The invariant holds at every call and at both ends. -/
def Keeps (throws : ℓ → Bool) (I : σ → Prop) (p : Prog σ ℓ) : Prop :=
  Triple throws I p I I fun _ => I

namespace Keeps

variable {throws : ℓ → Bool} {I : σ → Prop} {p q : Prog σ ℓ}

theorem call {l : ℓ} {f : σ → Option σ} (h : ∀ s s', I s → f s = some s' → I s') :
    Keeps throws I (.call l f) :=
  Triple.call (fun _ => id) (fun _ hs _ => hs) h

theorem done : Keeps throws I .done := Triple.done fun _ => id

theorem raise : Keeps throws I .raise := Triple.raise fun _ => id

theorem read {k : σ → Prog σ ℓ} (h : ∀ s, Keeps throws I (k s)) : Keeps throws I (.read k) :=
  Triple.read fun s hs => Triple.pre (h s) fun _ heq => heq ▸ hs

theorem seq (hp : Keeps throws I p) (hq : Keeps throws I q) : Keeps throws I (.seq p q) :=
  Triple.seq hp hq

theorem attempt (hp : Keeps throws I p) (hq : Keeps throws I q) : Keeps throws I (.attempt p q) :=
  Triple.attempt hp hq

theorem forEach {f : α → Prog σ ℓ} (h : ∀ x, Keeps throws I (f x)) (xs : List α) :
    Keeps throws I (.forEach xs f) :=
  Triple.forEach (I := fun _ => I) (fun x _ => h x) xs

theorem when {b : Bool} (h : Keeps throws I p) : Keeps throws I (.when b p) :=
  Triple.when (fun _ => h) fun _ _ => id

theorem triple {T : σ → Prop} {C : ℓ → σ → Prop} (h : Keeps throws I p) (hT : ∀ s, I s → T s)
    (hC : ∀ l s, I s → C l s) : Triple throws I p I T C :=
  Triple.consequence h (fun _ => id) (fun _ => id) hT hC

end Keeps
end OpenWA.Disk
