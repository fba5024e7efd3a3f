import OpenWA.Async.System

/-!
This module contains a proof method for the runs of a system of async functions. An `Outline` states
an invariant, what each activation relies on while it is suspended, and what every step shows. An
activation is `Safe` if each of its turns keeps what the others rely on. The soundness theorem turns
a valid outline into facts about every run.
-/

namespace OpenWA.Async

variable {σ ι ℓ ε ν γ α β : Type}

/--
`ok` is the assumption about the steps of a run, `inv` holds between any two steps, `rely i` relates
worlds that the activation `i` cannot tell apart for its own argument, `chk` relates the worlds
around every step, and `post i` holds once the activation `i` has finished.
-/
structure Outline (sys : System σ ι ℓ ε ν γ) where
  ok : World σ γ → Act ν ι ℓ → Prop
  inv : World σ γ → Prop
  rely : Nat → World σ γ → World σ γ → Prop
  chk : World σ γ → Act ν ι ℓ → World σ γ → Prop
  post : Nat → Except ε Unit → World σ γ → Prop

namespace Outline

variable {sys : System σ ι ℓ ε ν γ} (o : Outline sys)

/-- What a step of the activation `i` that leaves the shared state `s` has to establish. -/
structure Keeps (i : Nat) (w : World σ γ) (a : Act ν ι ℓ) (s : σ) : Prop where
  chk : o.chk w a (sys.after w a s)
  inv : o.inv (sys.after w a s)
  rely : ∀ j, j < w.started → j ≠ i → o.rely j w (sys.after w a s)

/--
Every turn of `t`, taken as the activation `i` from `w` on under interference of the others, keeps
the outline; it returns with `Q` and throws with `E`.
-/
def Safe (i : Nat) (t : Task σ ι ℓ ε α) (w : World σ γ) (Q : α → World σ γ → Prop)
    (E : ε → World σ γ → Prop) : Prop :=
  match t with
  | .pure a => Q a w
  | .throw e => E e w
  | .turn pt ready upd next =>
    ∀ w' x, o.rely i w w' → o.inv w' → i < w'.started → ready x w'.st = true →
      o.ok w' (.turn i pt x) →
      o.Keeps i w' (.turn i pt x) (upd x w'.st) ∧
      Safe i (next x w'.st) (sys.after w' (.turn i pt x) (upd x w'.st)) Q E

/-- The obligations of an outline. -/
structure Valid : Prop where
  refl : ∀ i w, o.rely i w w
  trans : ∀ i w₁ w₂ w₃, o.rely i w₁ w₂ → o.rely i w₂ w₃ → o.rely i w₁ w₃
  event : ∀ w v s t, o.inv w → o.ok w (.event w.started v) → sys.event v w.st = some (s, t) →
    o.Keeps w.started w (.event w.started v) s ∧
    o.Safe w.started t (sys.after w (.event w.started v) s)
      (fun a => o.post w.started (.ok a)) (fun e => o.post w.started (.error e))

section Rules

variable {o} {i : Nat} {w : World σ γ} {Q : α → World σ γ → Prop} {E : ε → World σ γ → Prop}

@[simp]
theorem safe_pure {a : α} : o.Safe i (.pure a) w Q E ↔ Q a w := Iff.rfl

@[simp]
theorem safe_throw {e : ε} : o.Safe i (.throw e : Task σ ι ℓ ε α) w Q E ↔ E e w := Iff.rfl

theorem Safe.mono {t : Task σ ι ℓ ε α} {Q' : α → World σ γ → Prop} {E' : ε → World σ γ → Prop}
    (h : o.Safe i t w Q E) (hQ : ∀ a w, Q a w → Q' a w) (hE : ∀ e w, E e w → E' e w) :
    o.Safe i t w Q' E' := by
  induction t generalizing w with
  | pure a => exact hQ _ _ h
  | throw e => exact hE _ _ h
  | turn pt ready upd next ih =>
    intro w' x hrely hinv hlt hready hok
    rcases h w' x hrely hinv hlt hready hok with ⟨hkeeps, hnext⟩
    exact ⟨hkeeps, ih _ _ hnext⟩

theorem Safe.bind {t : Task σ ι ℓ ε α} {k : α → Task σ ι ℓ ε β} {R : β → World σ γ → Prop}
    (h : o.Safe i t w (fun a w => o.Safe i (k a) w R E) E) : o.Safe i (t.bind k) w R E := by
  induction t generalizing w with
  | pure a => exact h
  | throw e => exact h
  | turn pt ready upd next ih =>
    intro w' x hrely hinv hlt hready hok
    rcases h w' x hrely hinv hlt hready hok with ⟨hkeeps, hnext⟩
    exact ⟨hkeeps, ih _ _ hnext⟩

theorem Safe.catch' {t : Task σ ι ℓ ε α} {k : ε → Task σ ι ℓ ε α}
    (h : o.Safe i t w Q (fun e w => o.Safe i (k e) w Q E)) : o.Safe i (t.catch' k) w Q E := by
  induction t generalizing w with
  | pure a => exact h
  | throw e => exact h
  | turn pt ready upd next ih =>
    intro w' x hrely hinv hlt hready hok
    rcases h w' x hrely hinv hlt hready hok with ⟨hkeeps, hnext⟩
    exact ⟨hkeeps, ih _ _ hnext⟩

theorem Safe.andFinally {t : Task σ ι ℓ ε α} {fin : Task σ ι ℓ ε Unit}
    (h : o.Safe i t w (fun a w => o.Safe i fin w (fun _ => Q a) E)
      (fun e w => o.Safe i fin w (fun _ => E e) E)) :
    o.Safe i (t.andFinally fin) w Q E := by
  induction t generalizing w with
  | pure a => exact Safe.bind h
  | throw e => exact Safe.bind h
  | turn pt ready upd next ih =>
    intro w' x hrely hinv hlt hready hok
    rcases h w' x hrely hinv hlt hready hok with ⟨hkeeps, hnext⟩
    exact ⟨hkeeps, ih _ _ hnext⟩

theorem Safe.seq {t : Task σ ι ℓ ε α} {k : α → Task σ ι ℓ ε β} {R : β → World σ γ → Prop}
    {E' : ε → World σ γ → Prop} (h : o.Safe i t w Q E) (hk : ∀ a w, Q a w → o.Safe i (k a) w R E')
    (hE : ∀ e w, E e w → E' e w) : o.Safe i (t.bind k) w R E' :=
  Safe.bind (h.mono hk hE)

theorem safe_ofExcept {r : Except ε α} (hok : ∀ a, r = .ok a → Q a w)
    (herr : ∀ e, r = .error e → E e w) : o.Safe i (Task.ofExcept r) w Q E := by
  cases r with
  | ok a => exact hok a rfl
  | error e => exact herr e rfl

theorem safe_await {pt : ℓ} {ready : ι → σ → Bool} {f : ι → σ → σ × Except ε α}
    (h : ∀ w' x, o.rely i w w' → o.inv w' → i < w'.started → ready x w'.st = true →
      o.ok w' (.turn i pt x) →
      o.Keeps i w' (.turn i pt x) (f x w'.st).1 ∧
      o.Safe i (Task.ofExcept (f x w'.st).2) (sys.after w' (.turn i pt x) (f x w'.st).1) Q E) :
    o.Safe i (Task.await pt ready f) w Q E := h

theorem safe_atomic {pt : ℓ} {f : ι → σ → σ × Except ε α}
    (h : ∀ w' x, o.rely i w w' → o.inv w' → i < w'.started → o.ok w' (.turn i pt x) →
      o.Keeps i w' (.turn i pt x) (f x w'.st).1 ∧
      o.Safe i (Task.ofExcept (f x w'.st).2) (sys.after w' (.turn i pt x) (f x w'.st).1) Q E) :
    o.Safe i (Task.atomic pt f) w Q E :=
  fun w' x hrely hinv hlt _ hok => h w' x hrely hinv hlt hok

end Rules

section Steady

/--
`t` keeps the outline from any world on, and what the activation `i` relies on survives its own turns
as well.
-/
def Steady (i : Nat) (t : Task σ ι ℓ ε α) : Prop :=
  ∀ w, o.Safe i t w (fun _ w' => o.rely i w w') (fun _ w' => o.rely i w w')

variable {o} {i : Nat} {t : Task σ ι ℓ ε α}

theorem steady_pure (hrefl : ∀ i w, o.rely i w w) (a : α) :
    o.Steady i (.pure a : Task σ ι ℓ ε α) :=
  fun w => hrefl i w

theorem steady_throw (hrefl : ∀ i w, o.rely i w w) (e : ε) :
    o.Steady i (.throw e : Task σ ι ℓ ε α) :=
  fun w => hrefl i w

variable (htrans : ∀ i w₁ w₂ w₃, o.rely i w₁ w₂ → o.rely i w₂ w₃ → o.rely i w₁ w₃)
include htrans

theorem Steady.later (h : o.Steady i t) {w w' : World σ γ} (hrely : o.rely i w w') :
    o.Safe i t w' (fun _ w'' => o.rely i w w'') (fun _ w'' => o.rely i w w'') :=
  (h w').mono (fun _ _ h' => htrans _ _ _ _ hrely h') fun _ _ h' => htrans _ _ _ _ hrely h'

theorem Steady.bind {k : α → Task σ ι ℓ ε β} (h : o.Steady i t) (hk : ∀ a, o.Steady i (k a)) :
    o.Steady i (t.bind k) := by
  intro w
  apply Safe.bind
  apply (h w).mono
  . intro a w' hrely
    exact (hk a).later htrans hrely
  . intro e w' hrely
    exact hrely

theorem Steady.catch' {k : ε → Task σ ι ℓ ε α} (h : o.Steady i t) (hk : ∀ e, o.Steady i (k e)) :
    o.Steady i (t.catch' k) := by
  intro w
  apply Safe.catch'
  apply (h w).mono
  . intro a w' hrely
    exact hrely
  . intro e w' hrely
    exact (hk e).later htrans hrely

theorem Steady.andFinally {fin : Task σ ι ℓ ε Unit} (h : o.Steady i t) (hfin : o.Steady i fin) :
    o.Steady i (t.andFinally fin) := by
  intro w
  apply Safe.andFinally
  apply (h w).mono <;> intro _ w' hrely <;> exact hfin.later htrans hrely

end Steady

/-- What holds of a reachable configuration: the invariant, and every activation is on its way. -/
structure Holds (c : Config σ ι ℓ ε γ) : Prop where
  inv : o.inv c.world
  safe : ∀ i t, c.pool[i]? = some t → ∃ w, o.rely i w c.world ∧
    o.Safe i t w (fun a => o.post i (.ok a)) (fun e => o.post i (.error e))

variable {o}

theorem Valid.step (hv : o.Valid) {c c' : Config σ ι ℓ ε γ} {m : Move ν ι} {a : Act ν ι ℓ}
    (h : o.Holds c) (hstep : sys.step c m = some (a, c')) (hok : o.ok c.world a) :
    o.Holds c' ∧ o.chk c.world a c'.world := by
  rcases System.step_cases hstep with
    ⟨v, t, rfl, hev, hpool, hw⟩ | ⟨tid, pt, ready, upd, next, x, rfl, hget, hready, hs, hpool, hw⟩
  . rcases hv.event c.world v c'.st t h.inv hok hev with ⟨hkeeps, hsafe⟩
    refine ⟨⟨hw ▸ hkeeps.inv, ?_⟩, hw ▸ hkeeps.chk⟩
    intro i t' hi
    rw [hpool] at hi
    rcases getElem?_start hi with hi | ⟨rfl, rfl⟩
    . have hlt := (List.getElem?_eq_some_iff.mp hi).1
      rcases h.safe i t' hi with ⟨w, hrely, hs⟩
      have hstable := hkeeps.rely i hlt (Nat.ne_of_lt hlt)
      exact ⟨w, hw ▸ hv.trans i _ _ _ hrely hstable, hs⟩
    . exact ⟨_, hw ▸ hv.refl _ _, hsafe⟩
  . rcases h.safe tid _ hget with ⟨w, hrely, hsafe⟩
    have hlt : tid < c.pool.length := (List.getElem?_eq_some_iff.mp hget).1
    rcases hsafe c.world x hrely h.inv hlt hready hok with ⟨hkeeps, hnext⟩
    rw [hs] at hw
    refine ⟨⟨hw ▸ hkeeps.inv, ?_⟩, hw ▸ hkeeps.chk⟩
    intro i t' hi
    rw [hpool] at hi
    by_cases hidx : i = tid
    . subst hidx
      rw [List.getElem?_set_self hlt] at hi
      simp only [Option.some.injEq] at hi
      exact ⟨_, hw ▸ hv.refl _ _, hi ▸ hnext⟩
    . rw [List.getElem?_set_ne (Ne.symm hidx)] at hi
      rcases h.safe i t' hi with ⟨w', hrely', hs'⟩
      have hlti : i < c.pool.length := (List.getElem?_eq_some_iff.mp hi).1
      exact ⟨w', hw ▸ hv.trans i _ _ _ hrely' (hkeeps.rely i hlti hidx), hs'⟩

/-- Soundness: a valid outline holds of every configuration a run of admitted steps reaches. -/
theorem Valid.holds (hv : o.Valid) {init c : Config σ ι ℓ ε γ} (hinv : o.inv init.world)
    (hpool : init.pool = []) (h : sys.Reach o.ok init c) : o.Holds c := by
  induction h with
  | init => exact ⟨hinv, by simp [hpool]⟩
  | step m _ hstep hok ih => exact (hv.step ih hstep hok).1

theorem Valid.inv_of_reach (hv : o.Valid) {init c : Config σ ι ℓ ε γ} (hinv : o.inv init.world)
    (hpool : init.pool = []) (h : sys.Reach o.ok init c) : o.inv c.world :=
  (hv.holds hinv hpool h).inv

theorem Valid.chk_of_reach (hv : o.Valid) {init c c' : Config σ ι ℓ ε γ} {m : Move ν ι}
    {a : Act ν ι ℓ} (hinv : o.inv init.world) (hpool : init.pool = [])
    (h : sys.Reach o.ok init c) (hstep : sys.step c m = some (a, c')) (hok : o.ok c.world a) :
    o.chk c.world a c'.world :=
  (hv.step (hv.holds hinv hpool h) hstep hok).2

theorem Holds.returned {c : Config σ ι ℓ ε γ} (h : o.Holds c) {i : Nat} {a : Unit}
    (hget : c.pool[i]? = some (.pure a)) : ∃ w, o.rely i w c.world ∧ o.post i (.ok a) w :=
  h.safe i _ hget

theorem Holds.finished {c : Config σ ι ℓ ε γ} (h : o.Holds c) {i : Nat} {t : Task σ ι ℓ ε Unit}
    (hget : c.pool[i]? = some t) (hfinished : t.finished = true) :
    ∃ r w, o.rely i w c.world ∧ o.post i r w := by
  rcases h.safe i t hget with ⟨w, hrely, hsafe⟩
  cases t with
  | pure a => exact ⟨.ok a, w, hrely, hsafe⟩
  | throw e => exact ⟨.error e, w, hrely, hsafe⟩
  | turn => contradiction

end Outline
end OpenWA.Async
