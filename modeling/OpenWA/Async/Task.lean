import Mathlib.Logic.Basic

/-!
This module contains `Task`, one activation of an async function that runs to completion between two
of its suspension points, together with the operations the modelled functions are written in.
-/

namespace OpenWA.Async

/--
An activation of an async function over a shared state `σ`. It has returned, has thrown, or is
suspended before its next turn. A turn is the code that runs without interruption once the pending
await settles: `ready` says for which answers `ι` of the environment it may settle now, `upd` is the
effect on the shared state and `next` what is left of the function. `pt` names the place in the
function, so that a property or an assumption about runs can speak about it.
-/
inductive Task (σ ι ℓ ε α : Type) where
  | pure (a : α)
  | throw (e : ε)
  | turn (pt : ℓ) (ready : ι → σ → Bool) (upd : ι → σ → σ) (next : ι → σ → Task σ ι ℓ ε α)

namespace Task

variable {σ ι ℓ ε α β : Type}

/-- The continuation of an await, or of a call of another async function. -/
def bind (t : Task σ ι ℓ ε α) (k : α → Task σ ι ℓ ε β) : Task σ ι ℓ ε β :=
  match t with
  | .pure a => k a
  | .throw e => .throw e
  | .turn pt ready upd next => .turn pt ready upd fun x s => (next x s).bind k

/-- `try t catch e => h e`. -/
def catch' (t : Task σ ι ℓ ε α) (h : ε → Task σ ι ℓ ε α) : Task σ ι ℓ ε α :=
  match t with
  | .pure a => .pure a
  | .throw e => h e
  | .turn pt ready upd next => .turn pt ready upd fun x s => (next x s).catch' h

/-- `try t finally fin`. -/
def andFinally (t : Task σ ι ℓ ε α) (fin : Task σ ι ℓ ε Unit) : Task σ ι ℓ ε α :=
  match t with
  | .pure a => fin.bind fun _ => .pure a
  | .throw e => fin.bind fun _ => .throw e
  | .turn pt ready upd next => .turn pt ready upd fun x s => (next x s).andFinally fin

instance : Monad (Task σ ι ℓ ε) where
  pure := .pure
  bind := bind

instance : MonadExceptOf ε (Task σ ι ℓ ε) where
  throw := .throw
  tryCatch := catch'

/-- What a turn does with the value or the error it computed. -/
def ofExcept (r : Except ε α) : Task σ ι ℓ ε α :=
  match r with
  | .ok a => .pure a
  | .error e => .throw e

/-- A single turn that may be taken once `ready` holds. -/
def await (pt : ℓ) (ready : ι → σ → Bool) (f : ι → σ → σ × Except ε α) : Task σ ι ℓ ε α :=
  .turn pt ready (fun x s => (f x s).1) fun x s => ofExcept (f x s).2

/-- A single turn that may be taken at any time. -/
def atomic (pt : ℓ) (f : ι → σ → σ × Except ε α) : Task σ ι ℓ ε α :=
  await pt (fun _ _ => true) f

/-- The activation has returned or thrown. -/
def finished (t : Task σ ι ℓ ε α) : Bool :=
  match t with
  | .pure _ | .throw _ => true
  | .turn .. => false

/-- The activation has returned. -/
def returned (t : Task σ ι ℓ ε α) : Bool :=
  match t with
  | .pure _ => true
  | .throw _ | .turn .. => false

/-- Every place the activation may still come to satisfies `P`. -/
def Visits (P : ℓ → Prop) (t : Task σ ι ℓ ε α) : Prop :=
  match t with
  | .pure _ | .throw _ => True
  | .turn pt _ _ next => P pt ∧ ∀ x s, Visits P (next x s)

/-- Whatever the activation may return satisfies `Q`. -/
def Yields (Q : α → Prop) (t : Task σ ι ℓ ε α) : Prop :=
  match t with
  | .pure a => Q a
  | .throw _ => True
  | .turn _ _ _ next => ∀ x s, Yields Q (next x s)

@[simp]
theorem pure_eq (a : α) : (pure a : Task σ ι ℓ ε α) = .pure a := rfl

@[simp]
theorem throw_eq (e : ε) : (throw e : Task σ ι ℓ ε α) = .throw e := rfl

@[simp]
theorem pure_bind (a : α) (k : α → Task σ ι ℓ ε β) : (pure a >>= k : Task σ ι ℓ ε β) = k a := rfl

@[simp]
theorem bind_eq (t : Task σ ι ℓ ε α) (k : α → Task σ ι ℓ ε β) : t >>= k = t.bind k := rfl

@[simp]
theorem ofExcept_ok (a : α) : (ofExcept (.ok a) : Task σ ι ℓ ε α) = .pure a := rfl

@[simp]
theorem ofExcept_error (e : ε) : (ofExcept (.error e) : Task σ ι ℓ ε α) = .throw e := rfl

section Visits

variable {P : ℓ → Prop} {t : Task σ ι ℓ ε α}

@[simp]
theorem visits_pure (a : α) : (.pure a : Task σ ι ℓ ε α).Visits P := trivial

@[simp]
theorem visits_throw (e : ε) : (.throw e : Task σ ι ℓ ε α).Visits P := trivial

theorem visits_ofExcept (r : Except ε α) : (ofExcept r : Task σ ι ℓ ε α).Visits P := by
  cases r <;> trivial

theorem visits_await {pt : ℓ} {ready : ι → σ → Bool} {f : ι → σ → σ × Except ε α} (h : P pt) :
    (await pt ready f).Visits P :=
  ⟨h, fun _ _ => visits_ofExcept _⟩

theorem Visits.mono {P' : ℓ → Prop} (h : t.Visits P) (hP : ∀ pt, P pt → P' pt) : t.Visits P' := by
  induction t with
  | pure a => trivial
  | throw e => trivial
  | turn pt ready upd next ih => exact ⟨hP pt h.1, fun x s => ih x s (h.2 x s)⟩

theorem Visits.bind {k : α → Task σ ι ℓ ε β} (h : t.Visits P) (hk : ∀ a, (k a).Visits P) :
    (t.bind k).Visits P := by
  induction t with
  | pure a => exact hk a
  | throw e => trivial
  | turn pt ready upd next ih => exact ⟨h.1, fun x s => ih x s (h.2 x s)⟩

/-- The continuation only has to keep to `P` from what is returned to it. -/
theorem Visits.bind_of_yields {Q : α → Prop} {k : α → Task σ ι ℓ ε β} (h : t.Visits P)
    (hyields : t.Yields Q) (hk : ∀ a, Q a → (k a).Visits P) : (t.bind k).Visits P := by
  induction t with
  | pure a => exact hk a hyields
  | throw e => trivial
  | turn pt ready upd next ih => exact ⟨h.1, fun x s => ih x s (h.2 x s) (hyields x s)⟩

theorem Yields.bind {Q : α → Prop} {R : β → Prop} {k : α → Task σ ι ℓ ε β} (h : t.Yields Q)
    (hk : ∀ a, Q a → (k a).Yields R) : (t.bind k).Yields R := by
  induction t with
  | pure a => exact hk a h
  | throw e => trivial
  | turn pt ready upd next ih => exact fun x s => ih x s (h x s)

theorem yields_true : t.Yields fun _ => True := by
  induction t with
  | pure a => trivial
  | throw e => trivial
  | turn pt ready upd next ih => exact ih

theorem Visits.catch' {k : ε → Task σ ι ℓ ε α} (h : t.Visits P) (hk : ∀ e, (k e).Visits P) :
    (t.catch' k).Visits P := by
  induction t with
  | pure a => trivial
  | throw e => exact hk e
  | turn pt ready upd next ih => exact ⟨h.1, fun x s => ih x s (h.2 x s)⟩

theorem Visits.andFinally {fin : Task σ ι ℓ ε Unit} (h : t.Visits P) (hfin : fin.Visits P) :
    (t.andFinally fin).Visits P := by
  induction t with
  | pure a => exact hfin.bind fun _ => trivial
  | throw e => exact hfin.bind fun _ => trivial
  | turn pt ready upd next ih => exact ⟨h.1, fun x s => ih x s (h.2 x s)⟩

end Visits

end Task
end OpenWA.Async
