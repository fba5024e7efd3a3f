import OpenWA.Async.Task

/-!
This module contains the interleaving semantics of a pool of tasks over one shared state, and the
runs of such a system.
-/

namespace OpenWA.Async

/--
What a step of a run was: an external event, which starts the activation `tid`, or a turn of the
activation `tid` at the place `pt` that settled with the answer `x`.
-/
inductive Act (ν ι ℓ : Type) where
  | event (tid : Nat) (v : ν)
  | turn (tid : Nat) (pt : ℓ) (x : ι)

/-- The activation a step starts or continues. -/
def Act.tid {ν ι ℓ : Type} (a : Act ν ι ℓ) : Nat :=
  match a with
  | .event tid _ => tid
  | .turn tid _ _ => tid

/--
A system of async functions over a shared state. An event `v` runs its synchronous part at once, if
it can happen now, and starts the activation that carries the rest. `note` maintains a history `γ`
of the run from the state before and after each step; properties may speak about it and no function
reads it.
-/
structure System (σ ι ℓ ε ν γ : Type) where
  event : ν → σ → Option (σ × Task σ ι ℓ ε Unit)
  note : Act ν ι ℓ → σ → σ → γ → γ

/-- The shared state, the history of the run that led to it and how many activations it started. -/
structure World (σ γ : Type) where
  st : σ
  hist : γ
  started : Nat

/-- A world with its activations; an activation keeps its place in the pool. -/
structure Config (σ ι ℓ ε γ : Type) where
  st : σ
  hist : γ
  pool : List (Task σ ι ℓ ε Unit)

/-- What a property or an assumption about a step may look at. -/
def Config.world {σ ι ℓ ε γ : Type} (c : Config σ ι ℓ ε γ) : World σ γ :=
  ⟨c.st, c.hist, c.pool.length⟩

theorem Config.st_world {σ ι ℓ ε γ : Type} (c : Config σ ι ℓ ε γ) : c.world.st = c.st := rfl

/-- Every activation has returned or thrown. -/
def Config.drained {σ ι ℓ ε γ : Type} (c : Config σ ι ℓ ε γ) : Bool :=
  c.pool.all Task.finished

/-- A choice of the scheduler: an event happens, or the activation `tid` takes its next turn. -/
inductive Move (ν ι : Type) where
  | event (v : ν)
  | turn (tid : Nat) (x : ι)

theorem getElem?_start {τ : Type} {pool : List τ} {t t' : τ} {i : Nat} (h : (pool ++ [t])[i]? = some t') :
    pool[i]? = some t' ∨ i = pool.length ∧ t' = t := by
  by_cases hlt : i < pool.length
  . rw [List.getElem?_append_left hlt] at h
    exact .inl h
  . rw [List.getElem?_append_right (Nat.le_of_not_lt hlt)] at h
    have hidx : i = pool.length := by
      have := (List.getElem?_eq_some_iff.mp h).1
      simp at this
      omega
    subst hidx
    simp at h
    exact .inr ⟨rfl, h.symm⟩

namespace System

variable {σ ι ℓ ε ν γ : Type} (sys : System σ ι ℓ ε ν γ)

/-- The world after a step `a` that leaves the shared state `s`. -/
def after (w : World σ γ) (a : Act ν ι ℓ) (s : σ) : World σ γ where
  st := s
  hist := sys.note a w.st s w.hist
  started :=
    match a with
    | .event .. => w.started + 1
    | .turn .. => w.started

/-- The configuration after a move and the step it was, if the move is possible. -/
def step (c : Config σ ι ℓ ε γ) (m : Move ν ι) : Option (Act ν ι ℓ × Config σ ι ℓ ε γ) :=
  match m with
  | .event v =>
    match sys.event v c.st with
    | some (s, t) =>
      let a := .event c.pool.length v
      some (a, { st := s, hist := sys.note a c.st s c.hist, pool := c.pool ++ [t] })
    | none => none
  | .turn tid x =>
    match c.pool[tid]? with
    | some (.turn pt ready upd next) =>
      if ready x c.st then
        let a := .turn tid pt x
        let s := upd x c.st
        some (a, { st := s, hist := sys.note a c.st s c.hist, pool := c.pool.set tid (next x c.st) })
      else
        none
    | _ => none

/-- Execute a schedule as long as its steps satisfy `ok`. -/
def exec (ok : World σ γ → Act ν ι ℓ → Prop) [∀ w a, Decidable (ok w a)] (c : Config σ ι ℓ ε γ)
    (ms : List (Move ν ι)) : Option (Config σ ι ℓ ε γ) :=
  match ms with
  | [] => some c
  | m :: ms =>
    match sys.step c m with
    | some (a, c') => if ok c.world a then exec ok c' ms else none
    | none => none

/--
The configurations reachable from `init` through steps that satisfy `ok` in the world they are taken
in.
-/
inductive Reach (ok : World σ γ → Act ν ι ℓ → Prop) (init : Config σ ι ℓ ε γ) :
    Config σ ι ℓ ε γ → Prop where
  | init : Reach ok init init
  | step {c c' : Config σ ι ℓ ε γ} {a : Act ν ι ℓ} (m : Move ν ι) (h : Reach ok init c)
      (hstep : sys.step c m = some (a, c')) (hok : ok c.world a) : Reach ok init c'

/-- The assumption that admits every step. -/
def anyStep (_w : World σ γ) (_a : Act ν ι ℓ) : Prop := True

instance (w : World σ γ) (a : Act ν ι ℓ) : Decidable (anyStep w a) :=
  inferInstanceAs (Decidable True)

variable {sys}

theorem Reach.mono {ok ok' : World σ γ → Act ν ι ℓ → Prop} {init c : Config σ ι ℓ ε γ}
    (hle : ∀ w a, ok w a → ok' w a) (h : sys.Reach ok init c) : sys.Reach ok' init c := by
  induction h with
  | init => exact .init
  | step m _ hstep hok ih => exact .step m ih hstep (hle _ _ hok)

theorem Reach.trans {ok : World σ γ → Act ν ι ℓ → Prop} {init c c' : Config σ ι ℓ ε γ}
    (h : sys.Reach ok init c) (h' : sys.Reach ok c c') : sys.Reach ok init c' := by
  induction h' with
  | init => exact h
  | step m _ hstep hok ih => exact .step m ih hstep hok

theorem reach_of_exec {ok : World σ γ → Act ν ι ℓ → Prop} [∀ w a, Decidable (ok w a)]
    {init c : Config σ ι ℓ ε γ} {ms : List (Move ν ι)} (h : sys.exec ok init ms = some c) :
    sys.Reach ok init c := by
  induction ms generalizing init with
  | nil =>
    simp only [exec, Option.some.injEq] at h
    exact h ▸ .init
  | cons m ms ih =>
    simp only [exec] at h
    split at h
    . next a c₁ hstep =>
      split at h
      . next hok => exact Reach.trans (.step m .init hstep hok) (ih h)
      . contradiction
    . contradiction

theorem reach_of_exec_map {ok : World σ γ → Act ν ι ℓ → Prop} [∀ w a, Decidable (ok w a)]
    {init : Config σ ι ℓ ε γ} {ms : List (Move ν ι)} {β : Type} {f : Config σ ι ℓ ε γ → β} {b : β}
    (h : (sys.exec ok init ms).map f = some b) : ∃ c, sys.Reach ok init c ∧ f c = b := by
  rw [Option.map_eq_some_iff] at h
  rcases h with ⟨c, hexec, hf⟩
  exact ⟨c, reach_of_exec hexec, hf⟩

theorem reaches_of_exec_map {ok : World σ γ → Act ν ι ℓ → Prop} [∀ w a, Decidable (ok w a)]
    {init : Config σ ι ℓ ε γ} {ms ms' : List (Move ν ι)} {β : Type}
    {f : Config σ ι ℓ ε γ → Config σ ι ℓ ε γ → β} {b : β}
    (h : ((sys.exec ok init ms).bind fun c => (sys.exec ok c ms').map (f c)) = some b) :
    ∃ c, sys.Reach ok init c ∧ ∃ c', sys.Reach ok c c' ∧ f c c' = b := by
  rw [Option.bind_eq_some_iff] at h
  rcases h with ⟨c, hexec, hlater⟩
  exact ⟨c, reach_of_exec hexec, reach_of_exec_map hlater⟩

theorem step_cases {c c' : Config σ ι ℓ ε γ} {m : Move ν ι} {a : Act ν ι ℓ}
    (h : sys.step c m = some (a, c')) :
    (∃ v t, a = .event c.pool.length v ∧ sys.event v c.st = some (c'.st, t) ∧
      c'.pool = c.pool ++ [t] ∧ c'.world = sys.after c.world a c'.st) ∨
    (∃ tid pt ready upd next x, a = .turn tid pt x ∧
      c.pool[tid]? = some (.turn pt ready upd next) ∧ ready x c.st = true ∧ c'.st = upd x c.st ∧
      c'.pool = c.pool.set tid (next x c.st) ∧ c'.world = sys.after c.world a c'.st) := by
  cases m with
  | event v =>
    simp only [step] at h
    split at h
    . next s t heq =>
      simp only [Option.some.injEq, Prod.mk.injEq] at h
      rcases h with ⟨rfl, rfl⟩
      exact .inl ⟨v, t, rfl, heq, rfl, by simp [Config.world, after]⟩
    . contradiction
  | turn tid x =>
    simp only [step] at h
    split at h
    . next pt ready upd next heq =>
      split at h
      . next hready =>
        simp only [Option.some.injEq, Prod.mk.injEq] at h
        rcases h with ⟨rfl, rfl⟩
        refine .inr ⟨tid, pt, ready, upd, next, x, rfl, heq, hready, rfl, rfl, ?_⟩
        simp [Config.world, after]
      . contradiction
    . contradiction

end System
end OpenWA.Async
