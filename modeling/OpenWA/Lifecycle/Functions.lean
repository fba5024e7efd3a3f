import OpenWA.Lifecycle.Control

/-!
This module contains the functions of the lifecycle as made of its turns: whatever runs as one of them
takes the turns of `Turn` and nothing else, and at which places.
-/

namespace OpenWA.Lifecycle

open Async

variable {α β : Type} {P : Place → Bool}

/-- Every turn of the task is a turn of the lifecycle, at a place that satisfies `P`. -/
def Turns (P : Place → Bool) (t : Job α) : Prop :=
  match t with
  | .pure _ | .throw _ => True
  | .turn l ready upd next =>
    P l.place = true ∧
      ∀ x s, ready x s = true → guard l x s = true ∧ upd x s = effect l x s ∧ Turns P (next x s)

theorem turns_ofExcept (r : Except LifecycleError α) : Turns P (Task.ofExcept r) := by
  cases r <;> trivial

theorem turns_run {q : Nat} {pt : Place} {result : Answer → State → Except LifecycleError α} (h : P pt = true) :
    Turns P (run q pt result) :=
  ⟨h, fun x s hready => ⟨hready, rfl, turns_ofExcept (result x s)⟩⟩

theorem turns_seq {t : Job α} {k : α → Job β} (h : Turns P t) (hk : ∀ a, Turns P (k a)) : Turns P (t >>= k) := by
  rw [Task.bind_eq]
  induction t with
  | pure a => exact hk a
  | throw e => trivial
  | turn l ready upd next ih =>
    refine ⟨h.1, fun x s hready => ?_⟩
    rcases h.2 x s hready with ⟨hguard, heffect, hnext⟩
    exact ⟨hguard, heffect, ih x s hnext⟩

theorem turns_catch {t : Job α} {k : LifecycleError → Job α} (h : Turns P t) (hk : ∀ e, Turns P (k e)) :
    Turns P (t.catch' k) := by
  induction t with
  | pure a => trivial
  | throw e => exact hk e
  | turn l ready upd next ih =>
    refine ⟨h.1, fun x s hready => ?_⟩
    rcases h.2 x s hready with ⟨hguard, heffect, hnext⟩
    exact ⟨hguard, heffect, ih x s hnext⟩

theorem turns_ite {c : Prop} [Decidable c] {t t' : Job α} (h : Turns P t) (h' : Turns P t') :
    Turns P (if c then t else t') := by
  split
  . exact h
  . exact h'

theorem turns_of_safe {δ : Type} {noteExt : Act Event Answer Loc → State → State → δ → δ} {i : Nat} {t : Job α}
    {w : SessionWorld δ} {Q : α → SessionWorld δ → Prop} {E : LifecycleError → SessionWorld δ → Prop}
    (h : (control noteExt).Safe i t w Q E) (hlt : i < w.started) (hvisits : t.Visits fun l => P l.place = true) :
    Turns P t := by
  induction t generalizing w with
  | pure a => trivial
  | throw e => trivial
  | turn l ready upd next ih =>
    refine ⟨hvisits.1, fun x s hready => ?_⟩
    rcases h { w with st := s } x rfl trivial hlt hready trivial with ⟨hkeeps, hnext⟩
    rcases hkeeps.chk with ⟨hguard, heffect, _⟩
    exact ⟨hguard, heffect, ih x s hnext hlt (hvisits.2 x s)⟩

theorem turns_task {v : Event} {s : State} (hvisits : (v.task s).Visits fun l => P l.place = true) :
    Turns P (v.task s) := by
  let w : SessionWorld Unit := ⟨s, ⟨fun _ => some (Local.first v s), ()⟩, 1⟩
  have hfirst : Knows 0 (· = Local.first v s) w := ⟨_, rfl, rfl⟩
  let o := control fun (_ : Act Event Answer Loc) (_ _ : State) (u : Unit) => u
  have hsafe : o.Safe 0 (v.task s) w (fun a => o.post 0 (.ok a)) (fun e => o.post 0 (.error e)) := safe_task hfirst
  exact turns_of_safe hsafe Nat.one_pos hvisits

section Launch

/-- The places of a launch and of the check that follows it. -/
def Place.isLaunch (pt : Place) : Bool :=
  match pt with
  | .initialStatus _ | .initialised _ | .timeoutTeardown _ | .timeoutStatus _ | .retiredFind | .resurrected
  | .resurrectedTeardown _ | .purgeFind => true
  | _ => false

variable (h : ∀ pt, pt.isLaunch = true → P pt = true)
include h

theorem turns_initializeEngine (p e : Nat) : Turns P (initializeEngine p e) := by
  have htimeout : Turns P (initTimeout p e) := by
    refine turns_seq (turns_run (h _ rfl)) fun w => ?_
    exact turns_seq (turns_run (h _ rfl)) fun _ => trivial
  refine turns_seq (turns_run (h _ rfl)) fun launched => ?_
  refine turns_ite ?_ trivial
  exact turns_seq (turns_run (h _ rfl)) fun timedOut => turns_ite htimeout trivial

theorem turns_unlessRetired (p : Nat) (stopping : Bool) :
    Turns P (isSessionRetired p stopping >>= fun retired => if retired then unwindRetired p else pure ()) := by
  have hretired : Turns P (isSessionRetired p stopping) := by
    unfold isSessionRetired
    split
    . trivial
    . exact turns_seq (turns_run (h _ rfl)) fun row => trivial
  have hresurrected : Turns P (retireResurrected p) := by
    refine turns_seq (turns_run (h _ rfl)) fun resurrected => ?_
    cases resurrected with
    | none => trivial
    | some e => exact turns_run (h _ rfl)
  refine turns_seq hretired fun retired => turns_ite ?_ trivial
  exact turns_seq hresurrected fun _ => turns_run (h _ rfl)

end Launch
end OpenWA.Lifecycle
