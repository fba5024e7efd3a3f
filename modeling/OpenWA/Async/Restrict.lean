import OpenWA.Async.Outline

/-!
This module contains tasks whose awaits settle with fewer answers, and how an outline of the runs that
keep to these answers carries over to them.
-/

namespace OpenWA.Async

variable {σ ι ℓ ε ν γ α : Type}

/-- The task whose awaits only settle with the answers that are allowed at their place. -/
def Task.restrict (allowed : ℓ → ι → σ → Bool) (t : Task σ ι ℓ ε α) : Task σ ι ℓ ε α :=
  match t with
  | .pure a => .pure a
  | .throw e => .throw e
  | .turn pt ready upd next =>
    .turn pt (fun x s => ready x s && allowed pt x s) upd fun x s => (next x s).restrict allowed

namespace Outline

variable {sys : System σ ι ℓ ε ν γ} {o : Outline sys} {allowed : ℓ → ι → σ → Bool}

/-- The outline of the runs whose awaits keep to the allowed answers. -/
def restrict (o : Outline sys) (allowed : ℓ → ι → σ → Bool) : Outline sys :=
  { o with
    ok := fun w a => o.ok w a ∧
      match a with
      | .turn _ pt x => allowed pt x w.st = true
      | .event .. => True }

theorem Keeps.restrict {i : Nat} {w : World σ γ} {a : Act ν ι ℓ} {s : σ} (h : o.Keeps i w a s) :
    (o.restrict allowed).Keeps i w a s := ⟨h.chk, h.inv, h.rely⟩

theorem Safe.restrict {i : Nat} {t : Task σ ι ℓ ε α} {w : World σ γ} {Q : α → World σ γ → Prop}
    {E : ε → World σ γ → Prop} (h : (o.restrict allowed).Safe i t w Q E) :
    o.Safe i (t.restrict allowed) w Q E := by
  induction t generalizing w with
  | pure a => exact h
  | throw e => exact h
  | turn pt ready upd next ih =>
    intro w' x hrely hinv hlt hready hok
    rw [Bool.and_eq_true] at hready
    rcases h w' x hrely hinv hlt hready.1 ⟨hok, hready.2⟩ with ⟨hkeeps, hnext⟩
    exact ⟨⟨hkeeps.chk, hkeeps.inv, hkeeps.rely⟩, ih x w'.st hnext⟩

end Outline
end OpenWA.Async
