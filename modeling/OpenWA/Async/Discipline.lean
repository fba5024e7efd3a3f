import OpenWA.Async.Outline

/-!
This module contains outlines in which all activations rely on the same thing: the world only moves
along a preorder. What an activation once found then stays found if it is stable under that preorder.
-/

namespace OpenWA.Async

variable {σ ι ℓ ε ν γ α β : Type}

/-- An invariant of the worlds of a run and a preorder along which every admitted step moves. -/
structure Discipline (sys : System σ ι ℓ ε ν γ) where
  ok : World σ γ → Act ν ι ℓ → Prop
  inv : World σ γ → Prop
  grows : World σ γ → World σ γ → Prop
  refl : ∀ w, grows w w
  trans : ∀ {w₁ w₂ w₃}, grows w₁ w₂ → grows w₂ w₃ → grows w₁ w₃

namespace Discipline

variable {sys : System σ ι ℓ ε ν γ} (d : Discipline sys)

def outline : Outline sys where
  ok := d.ok
  inv := d.inv
  rely _ := d.grows
  chk w _ w' := d.grows w w'
  post _ _ _ := True

/-- A step to `w'` keeps the invariant and moves along the preorder. -/
structure Keeps (w w' : World σ γ) : Prop where
  inv : d.inv w'
  grows : d.grows w w'

/-- What is left of the activation `i` keeps the discipline, returns with `Q` and may throw. -/
def Safe (i : Nat) (t : Task σ ι ℓ ε α) (w : World σ γ) (Q : α → World σ γ → Prop)
    (E : ε → World σ γ → Prop) : Prop :=
  d.outline.Safe i t w Q E

/-- A fact about worlds that growth does not undo. -/
def Stable (P : World σ γ → Prop) : Prop := ∀ w w', d.grows w w' → P w → P w'

variable {d} {i : Nat} {w : World σ γ} {Q : α → World σ γ → Prop} {E : ε → World σ γ → Prop}

theorem Keeps.outline {a : Act ν ι ℓ} {s : σ} (h : d.Keeps w (sys.after w a s)) :
    d.outline.Keeps i w a s where
  chk := h.grows
  inv := h.inv
  rely _ _ _ := h.grows

@[simp]
theorem safe_pure {a : α} : d.Safe i (.pure a) w Q E ↔ Q a w := Iff.rfl

@[simp]
theorem safe_throw {e : ε} : d.Safe i (.throw e : Task σ ι ℓ ε α) w Q E ↔ E e w := Iff.rfl

theorem Safe.mono {t : Task σ ι ℓ ε α} {Q' : α → World σ γ → Prop} {E' : ε → World σ γ → Prop}
    (h : d.Safe i t w Q E) (hQ : ∀ a w, Q a w → Q' a w) (hE : ∀ e w, E e w → E' e w) :
    d.Safe i t w Q' E' :=
  Outline.Safe.mono h hQ hE

theorem Safe.bind {t : Task σ ι ℓ ε α} {k : α → Task σ ι ℓ ε β} {R : β → World σ γ → Prop}
    (h : d.Safe i t w (fun a w => d.Safe i (k a) w R E) E) : d.Safe i (t.bind k) w R E :=
  Outline.Safe.bind h

theorem Safe.seq {t : Task σ ι ℓ ε α} {k : α → Task σ ι ℓ ε β} {R : β → World σ γ → Prop}
    (h : d.Safe i t w Q E) (hk : ∀ a w, Q a w → d.Safe i (k a) w R E) :
    d.Safe i (t.bind k) w R E :=
  Outline.Safe.seq h hk fun _ _ he => he

theorem Safe.catch' {t : Task σ ι ℓ ε α} {k : ε → Task σ ι ℓ ε α}
    (h : d.Safe i t w Q (fun e w => d.Safe i (k e) w Q E)) : d.Safe i (t.catch' k) w Q E :=
  Outline.Safe.catch' h

theorem Safe.andFinally {t : Task σ ι ℓ ε α} {fin : Task σ ι ℓ ε Unit}
    (h : d.Safe i t w (fun a w => d.Safe i fin w (fun _ => Q a) E)
      (fun e w => d.Safe i fin w (fun _ => E e) E)) :
    d.Safe i (t.andFinally fin) w Q E :=
  Outline.Safe.andFinally h

theorem Safe.frame {P : World σ γ → Prop} (hstable : d.Stable P) (hP : P w)
    {t : Task σ ι ℓ ε α} (h : d.Safe i t w Q E) :
    d.Safe i t w (fun a w => Q a w ∧ P w) (fun e w => E e w ∧ P w) := by
  induction t generalizing w with
  | pure a => exact ⟨h, hP⟩
  | throw e => exact ⟨h, hP⟩
  | turn pt ready upd next ih =>
    intro w' x hgrows hinv hlt hready hok
    rcases h w' x hgrows hinv hlt hready hok with ⟨hkeeps, hnext⟩
    have hP' := hstable _ _ hkeeps.chk (hstable _ _ hgrows hP)
    exact ⟨hkeeps, ih x w'.st hP' hnext⟩

theorem safe_await {pt : ℓ} {ready : ι → σ → Bool} {f : ι → σ → σ × Except ε α}
    (h : ∀ w' x, d.grows w w' → d.inv w' → ready x w'.st = true → d.ok w' (.turn i pt x) →
      d.Keeps w' (sys.after w' (.turn i pt x) (f x w'.st).1) ∧
      d.Safe i (Task.ofExcept (f x w'.st).2) (sys.after w' (.turn i pt x) (f x w'.st).1) Q E) :
    d.Safe i (Task.await pt ready f) w Q E := by
  apply Outline.safe_await
  intro w' x hgrows hinv _ hready hok
  rcases h w' x hgrows hinv hready hok with ⟨hkeeps, hsafe⟩
  exact ⟨hkeeps.outline, hsafe⟩

/-- Every event keeps the discipline and starts a safe activation. -/
def Sound (d : Discipline sys) : Prop :=
  ∀ w v s t, d.inv w → d.ok w (.event w.started v) → sys.event v w.st = some (s, t) →
    d.Keeps w (sys.after w (.event w.started v) s) ∧
    d.Safe w.started t (sys.after w (.event w.started v) s) (fun _ _ => True) (fun _ _ => True)

theorem Sound.valid (h : d.Sound) : d.outline.Valid where
  refl _ := d.refl
  trans _ _ _ _ := d.trans
  event w v s t hinv hok hevent := by
    rcases h w v s t hinv hok hevent with ⟨hkeeps, hsafe⟩
    exact ⟨hkeeps.outline, hsafe⟩

theorem Sound.inv_of_reach (h : d.Sound) {init c : Config σ ι ℓ ε γ} (hinv : d.inv init.world)
    (hpool : init.pool = []) (hreach : sys.Reach d.ok init c) : d.inv c.world :=
  h.valid.inv_of_reach hinv hpool hreach

theorem Sound.grows_of_reach (h : d.Sound) {init c c' : Config σ ι ℓ ε γ}
    (hinv : d.inv init.world) (hpool : init.pool = []) (hreach : sys.Reach d.ok init c)
    (hlater : sys.Reach d.ok c c') : d.grows c.world c'.world := by
  induction hlater with
  | init => exact d.refl _
  | step m hmid hstep hok ih =>
    exact d.trans ih (h.valid.chk_of_reach hinv hpool (hreach.trans hmid) hstep hok)

end Discipline
end OpenWA.Async
