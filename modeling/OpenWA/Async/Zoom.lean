import OpenWA.Async.Outline

/-!
This module contains the embedding of a task over a part of a state into the tasks over the whole of
it.
-/

namespace OpenWA.Async

namespace Task

variable {σ τ ι ℓ ℓ' ε α β : Type}

/-- The task over the part of a state that `get` reads and `put` replaces. -/
def zoom (get : τ → σ) (put : σ → τ → τ) (loc : ℓ → ℓ') (t : Task σ ι ℓ ε α) : Task τ ι ℓ' ε α :=
  match t with
  | .pure a => .pure a
  | .throw e => .throw e
  | .turn pt ready upd next =>
    .turn (loc pt) (fun x s => ready x (get s)) (fun x s => put (upd x (get s)) s) fun x s =>
      (next x (get s)).zoom get put loc

variable {get : τ → σ} {put : σ → τ → τ} {loc : ℓ → ℓ'}

@[simp]
theorem zoom_pure (a : α) : (.pure a : Task σ ι ℓ ε α).zoom get put loc = .pure a := rfl

@[simp]
theorem zoom_throw (e : ε) : (.throw e : Task σ ι ℓ ε α).zoom get put loc = .throw e := rfl

theorem zoom_ofExcept (r : Except ε α) :
    (ofExcept r : Task σ ι ℓ ε α).zoom get put loc = ofExcept r := by
  cases r <;> rfl

theorem zoom_bind (t : Task σ ι ℓ ε α) (k : α → Task σ ι ℓ ε β) :
    (t.bind k).zoom get put loc = (t.zoom get put loc).bind fun a => (k a).zoom get put loc := by
  induction t with
  | pure a => rfl
  | throw e => rfl
  | turn pt ready upd next ih =>
    simp only [bind, zoom]
    congr 1
    funext x s
    exact ih x (get s)

theorem zoom_catch' (t : Task σ ι ℓ ε α) (h : ε → Task σ ι ℓ ε α) :
    (t.catch' h).zoom get put loc = (t.zoom get put loc).catch' fun e => (h e).zoom get put loc := by
  induction t with
  | pure a => rfl
  | throw e => rfl
  | turn pt ready upd next ih =>
    simp only [catch', zoom]
    congr 1
    funext x s
    exact ih x (get s)

theorem zoom_andFinally (t : Task σ ι ℓ ε α) (fin : Task σ ι ℓ ε Unit) :
    (t.andFinally fin).zoom get put loc = (t.zoom get put loc).andFinally (fin.zoom get put loc) := by
  induction t with
  | pure a => exact zoom_bind fin _
  | throw e => exact zoom_bind fin _
  | turn pt ready upd next ih =>
    simp only [andFinally, zoom]
    congr 1
    funext x s
    exact ih x (get s)

end Task

namespace Outline

variable {τ σ ι ℓ ℓ' ε ν γ α β : Type} {sys : System τ ι ℓ' ε ν γ} {o : Outline sys} {i : Nat}
variable {get : τ → σ} {put : σ → τ → τ} {loc : ℓ → ℓ'} {w : World τ γ}
variable {Q : α → World τ γ → Prop} {E : ε → World τ γ → Prop}

theorem safe_zoom_seq {t : Task σ ι ℓ ε α} {k : α → Task σ ι ℓ ε β} {R : β → World τ γ → Prop}
    {E' : ε → World τ γ → Prop} (h : o.Safe i (t.zoom get put loc) w Q E)
    (hk : ∀ a w, Q a w → o.Safe i ((k a).zoom get put loc) w R E') (hE : ∀ e w, E e w → E' e w) :
    o.Safe i ((t.bind k).zoom get put loc) w R E' := by
  rw [Task.zoom_bind]
  exact h.seq hk hE

theorem safe_zoom_catch {t : Task σ ι ℓ ε α} {k : ε → Task σ ι ℓ ε α} {Q' : α → World τ γ → Prop}
    {E' : ε → World τ γ → Prop} (h : o.Safe i (t.zoom get put loc) w Q E)
    (hQ : ∀ a w, Q a w → Q' a w) (hk : ∀ e w, E e w → o.Safe i ((k e).zoom get put loc) w Q' E') :
    o.Safe i ((t.catch' k).zoom get put loc) w Q' E' := by
  rw [Task.zoom_catch']
  exact Safe.catch' (h.mono hQ hk)

theorem safe_zoom_ofExcept {r : Except ε α} (hok : ∀ a, r = .ok a → Q a w) (herr : ∀ e, r = .error e → E e w) :
    o.Safe i ((Task.ofExcept r : Task σ ι ℓ ε α).zoom get put loc) w Q E := by
  rw [Task.zoom_ofExcept]
  exact safe_ofExcept hok herr

theorem safe_zoom_finally {t : Task σ ι ℓ ε α} {fin : Task σ ι ℓ ε Unit} {Q' : α → World τ γ → Prop}
    {E' : ε → World τ γ → Prop} (h : o.Safe i (t.zoom get put loc) w Q E)
    (hQ : ∀ a w, Q a w → o.Safe i (fin.zoom get put loc) w (fun _ => Q' a) E')
    (hE : ∀ e w, E e w → o.Safe i (fin.zoom get put loc) w (fun _ => E' e) E') :
    o.Safe i ((t.andFinally fin).zoom get put loc) w Q' E' := by
  rw [Task.zoom_andFinally]
  exact Safe.andFinally (h.mono hQ hE)

end Outline
end OpenWA.Async
