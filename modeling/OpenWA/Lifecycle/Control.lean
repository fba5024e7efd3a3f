import OpenWA.Lifecycle.Places
import OpenWA.Lifecycle.Trace

/-!
This module contains the walk through the functions of one session that establishes the control flow
of `Local.precedes`, function by function, and the facts about every run that follow from it.
-/

namespace OpenWA.Lifecycle

open Async

/-- The parts of a history that most turns leave alone. -/
structure Local.Stays (b loc : Local) : Prop where
  began : loc.began = b.began
  origin : loc.origin = b.origin
  created : loc.created = b.created
  holding : loc.holding = b.holding

variable {δ : Type} {noteExt : Act Event Answer Loc → State → State → δ → δ}
variable {i p : Nat} {w : SessionWorld δ} {b : Local} {α : Type}

theorem Local.Stays.turn {loc : Local} {l : Loc} {x : Answer} {s : State} (h : b.Stays loc)
    (hcreated : (loc.turn l x s).created = loc.created)
    (hholding : (loc.turn l x s).holding = loc.holding) : b.Stays (loc.turn l x s) :=
  ⟨h.began, h.origin, hcreated.trans h.created, hholding.trans h.holding⟩

/-- The turns that create no engine and leave the reservation alone. -/
def Place.neutral (pt : Place) : Bool :=
  match pt with
  | .startReserve | .startRelease | .startCreate _ | .reconnectCreate .. => false
  | _ => true

theorem Local.Stays.neutral {loc : Local} {pt : Place} {x : Answer} {s : State} (h : b.Stays loc)
    (hpt : pt.neutral = true) : b.Stays (loc.turn ⟨p, pt⟩ x s) := by
  apply h.turn
  . cases pt <;> first | rfl | contradiction
  . cases pt <;> first | rfl | contradiction

theorem safe_neutral {pt : Place} {result : Answer → State → Except LifecycleError α}
    (h : Knows i b.Stays w) (hpt : pt.neutral = true)
    (hpre : ∀ loc, b.Stays loc → loc.precedes ⟨p, pt⟩) :
    (control noteExt).Safe i (run p pt result) w (fun _ => Knows i b.Stays) (fun _ => Knows i b.Stays) := by
  apply safe_run h hpre
  . intro loc x s a hloc _ _ w h
    exact h.mono fun _ heq => heq ▸ hloc.neutral hpt
  . intro loc x s e hloc _ _ w h
    exact h.mono fun _ heq => heq ▸ hloc.neutral hpt

theorem safe_told {P : Local → Prop} {R : α → Place → Answer → State → Prop}
    {S : LifecycleError → Place → Answer → State → Prop} {pt : Place}
    {result : Answer → State → Except LifecycleError α}
    (h : Knows i P w) (hP : ∀ loc, P loc → b.Stays loc) (hpt : pt.neutral = true)
    (hpre : ∀ loc, P loc → loc.precedes ⟨p, pt⟩)
    (hR : ∀ x s a, guard ⟨p, pt⟩ x s = true → result x s = .ok a → R a pt x s)
    (hS : ∀ x s e, guard ⟨p, pt⟩ x s = true → result x s = .error e → S e pt x s) :
    (control noteExt).Safe i (run p pt result) w
      (fun a => Knows i fun loc => b.Stays loc ∧ loc.came (R a))
      (fun e => Knows i fun loc => b.Stays loc ∧ loc.came (S e)) := by
  apply safe_run h hpre
  . intro loc x s a hloc hguard ha w h
    apply h.mono
    rintro _ rfl
    exact ⟨(hP loc hloc).neutral hpt, pt, x, s, rfl, hR x s a hguard ha⟩
  . intro loc x s e hloc hguard he w h
    apply h.mono
    rintro _ rfl
    exact ⟨(hP loc hloc).neutral hpt, pt, x, s, rfl, hS x s e hguard he⟩

theorem safe_came {P : Local → Prop} {R : α → Place → Answer → State → Prop} {pt : Place}
    {result : Answer → State → Except LifecycleError α}
    (h : Knows i P w) (hP : ∀ loc, P loc → b.Stays loc) (hpt : pt.neutral = true)
    (hpre : ∀ loc, P loc → loc.precedes ⟨p, pt⟩)
    (hR : ∀ x s a, guard ⟨p, pt⟩ x s = true → result x s = .ok a → R a pt x s) :
    (control noteExt).Safe i (run p pt result) w
      (fun a => Knows i fun loc => b.Stays loc ∧ loc.came (R a)) (fun _ => Knows i b.Stays) := by
  apply Outline.Safe.mono (safe_told (S := fun _ _ _ _ => True) h hP hpt hpre hR fun _ _ _ _ _ => trivial)
  . exact fun _ _ h => h
  . exact fun _ _ h => h.mono fun _ h => h.1

/-- The places that any activation of the process may come to. -/
def Place.free (pt : Place) : Bool :=
  match pt with
  | .startLaunched | .startFailed | .startFailedTeardown _ | .startFailedStatus _
  | .retiredFind | .purgeFind | .requireSession | .retireFind _ | .deleteFence
  | .retireMark _ | .deleteFenceAgain _ | .deleteFenceStatus _ | .deleteRow | .deleteDone | .orphanMark
  | .disconnectFind _ | .claimCall | .claimFind | .releaseCheck | .renewCall
  | .renewUpdate _ | .renewFind | .retryWait _ | .stopCount | .stopHeld _ | .stopHeldFault
  | .stopHeldElsewhere | .discardStopMark | .sweepCall | .sweepFind _ | .sweepCorrect .. => true
  | _ => false

theorem precedes_free {loc : Local} {pt : Place} (hpt : pt.free = true) (hpid : loc.began.pid? = some p) :
    loc.precedes ⟨p, pt⟩ := by
  refine ⟨hpid, ?_⟩
  cases pt <;> trivial

theorem Place.neutral_of_free {pt : Place} (hpt : pt.free = true) : pt.neutral = true := by
  cases pt <;> first | rfl | contradiction

section Free

variable (hpid : b.began.pid? = some p)
include hpid

theorem safe_free {pt : Place} {result : Answer → State → Except LifecycleError α}
    (h : Knows i b.Stays w) (hpt : pt.free = true) :
    (control noteExt).Safe i (run p pt result) w (fun _ => Knows i b.Stays) (fun _ => Knows i b.Stays) := by
  apply safe_neutral h (Place.neutral_of_free hpt)
  intro loc hloc
  exact precedes_free hpt (hloc.began ▸ hpid)

theorem safe_isSessionRetired {stopping : Bool}
    (h : Knows i (fun loc => b.Stays loc ∧ (stopping = true → loc.came (sawRetired p))) w) :
    (control noteExt).Safe i (isSessionRetired p stopping) w
      (fun retired => Knows i fun loc => b.Stays loc ∧ (retired = true → loc.came (sawRetired p)))
      (fun _ => Knows i b.Stays) := by
  unfold isSessionRetired
  split
  . next hstopping => exact h.mono fun _ h => ⟨h.1, fun _ => h.2 hstopping⟩
  . apply Outline.Safe.seq
    . apply safe_came (R := fun (row : Option Session) pt x s => pt = .retiredFind ∧ x ≠ .fault ∧ s.row = row) h
      . exact fun _ h => h.1
      . rfl
      . intro loc hloc
        exact precedes_free rfl (hloc.1.began ▸ hpid)
      . intro x s a _ ha
        split at ha
        . contradiction
        . next hx => exact ⟨rfl, hx, by simpa using ha⟩
    . intro row w h
      apply h.mono
      rintro loc ⟨hloc, pt, x, s, hlast, hpt, hx, hrow⟩
      refine ⟨hloc, fun hretired => ⟨pt, x, s, hlast, .inr (.inr ⟨hpt, hx, ?_⟩)⟩⟩
      rw [hrow]
      exact Option.isNone_iff_eq_none.mp hretired
    . exact fun _ _ h => h

theorem safe_after {P : Place → Answer → State → Prop} {pt : Place}
    {result : Answer → State → Except LifecycleError α}
    (h : Knows i (fun loc => b.Stays loc ∧ loc.came P) w) (hpt : pt.neutral = true)
    (hpre : ∀ loc : Local, loc.began.pid? = some p → loc.came P → loc.precedes ⟨p, pt⟩) :
    (control noteExt).Safe i (run p pt result) w (fun _ => Knows i b.Stays) (fun _ => Knows i b.Stays) := by
  apply Outline.Safe.mono (safe_came (R := fun _ _ _ _ => True) h ?_ hpt ?_ ?_)
  . exact fun _ _ h => h.mono fun _ h => h.1
  . exact fun _ _ h => h
  . exact fun _ h => h.1
  . intro loc hloc
    exact hpre loc (hloc.1.began ▸ hpid) hloc.2
  . intros
    trivial

theorem safe_retireResurrected (h : Knows i (fun loc => b.Stays loc ∧ loc.came (sawRetired p)) w) :
    (control noteExt).Safe i (retireResurrected p) w (fun _ => Knows i b.Stays)
      (fun _ => Knows i b.Stays) := by
  unfold retireResurrected
  apply Outline.Safe.seq
  . apply safe_came (R := fun (a : Option Nat) pt _ s => pt = .resurrected ∧ (s.node p).engine = a) h
    . exact fun _ h => h.1
    . rfl
    . intro loc hloc
      exact ⟨hloc.1.began ▸ hpid, hloc.2⟩
    . intro x s a _ ha
      exact ⟨rfl, by simpa using ha⟩
  . intro resurrected w h
    split
    . apply safe_after hpid h rfl
      intro loc hpid hcame
      exact ⟨hpid, hcame⟩
    . exact h.mono fun _ h => h.1
  . exact fun _ _ h => h

theorem safe_unwindRetired (h : Knows i (fun loc => b.Stays loc ∧ loc.came (sawRetired p)) w) :
    (control noteExt).Safe i (unwindRetired p) w (fun _ => Knows i b.Stays)
      (fun _ => Knows i b.Stays) := by
  unfold unwindRetired
  apply Outline.Safe.seq (safe_retireResurrected hpid h)
  . intro _ w h
    exact safe_free hpid h rfl
  . exact fun _ _ h => h

theorem safe_initTimeout {e : Nat} (hcreated : b.created = some e)
    (h : Knows i (fun loc => b.Stays loc ∧ loc.came fun pt x _ => pt = .initialised e ∧ x = .deadline) w) :
    (control noteExt).Safe i (initTimeout p e) w (fun _ => Knows i b.Stays)
      (fun _ => Knows i fun loc => b.Stays loc ∧ loc.came (launchFailed p e)) := by
  unfold initTimeout
  apply Outline.Safe.seq
  . apply safe_told (R := fun _ pt _ _ => pt = .timeoutTeardown e) (S := fun _ _ _ _ => False) h
    . exact fun _ h => h.1
    . rfl
    . intro loc hloc
      exact ⟨hloc.1.began ▸ hpid, hloc.1.created ▸ hcreated, hloc.2⟩
    . intros
      rfl
    . intro x s err _ herr
      contradiction
  . intro wr w h
    apply Outline.Safe.seq
    . apply safe_told (R := fun _ => launchFailed p e) (S := fun _ => launchFailed p e) h
      . exact fun _ h => h.1
      . rfl
      . intro loc hloc
        exact ⟨hloc.1.began ▸ hpid, e, hloc.1.created ▸ hcreated, hloc.2⟩
      . exact fun _ _ _ _ _ => .inr (.inr ⟨wr, rfl⟩)
      . exact fun _ _ _ _ _ => .inr (.inr ⟨wr, rfl⟩)
    . exact fun _ _ h => h
    . exact fun _ _ h => h
  . intro _ w h
    apply h.mono
    rintro loc ⟨_, _, _, _, _, hfalse⟩
    exact hfalse.elim

theorem safe_initializeEngine {e : Nat} (hcreated : b.created = some e) (h : Knows i b.Stays w) :
    (control noteExt).Safe i (initializeEngine p e) w (fun _ => Knows i b.Stays)
      (fun _ => Knows i fun loc => b.Stays loc ∧ loc.came (launchFailed p e)) := by
  unfold initializeEngine
  apply Outline.Safe.seq
  . apply safe_told (R := fun _ _ _ _ => True) (S := fun _ => launchFailed p e) h
    . exact fun _ h => h
    . rfl
    . intro loc hloc
      exact ⟨hloc.began ▸ hpid, hloc.created ▸ hcreated⟩
    . intros
      trivial
    . intro x s err _ herr
      dsimp only at herr
      split at herr
      . next hrejected => exact .inl ⟨rfl, hrejected⟩
      . contradiction
  . intro launched w h
    split
    . apply Outline.Safe.seq
      . apply safe_told (R := fun timedOut pt x _ => timedOut = true → pt = .initialised e ∧ x = .deadline)
          (S := fun _ => launchFailed p e) h
        . exact fun _ h => h.1
        . rfl
        . intro loc hloc
          exact ⟨hloc.1.began ▸ hpid, hloc.1.created ▸ hcreated⟩
        . rintro x s a _ ha rfl
          cases x <;> simp_all
        . intro x s err _ herr
          cases x with
          | rejected err => exact .inr (.inl ⟨err, rfl, rfl⟩)
          | _ => contradiction
      . intro timedOut w h
        split
        . next htimedOut =>
          apply safe_initTimeout hpid hcreated
          apply h.mono
          rintro loc ⟨hloc, pt, x, s, hlast, hpt⟩
          exact ⟨hloc, pt, x, s, hlast, hpt htimedOut⟩
        . exact h.mono fun _ h => h.1
      . exact fun _ _ h => h
    . exact h.mono fun _ h => h.1
  . exact fun _ _ h => h

theorem safe_requireSession {pt : Place} (h : Knows i b.Stays w) (hpt : pt.free = true) :
    (control noteExt).Safe i (requireSession p pt) w (fun _ => Knows i b.Stays)
      (fun _ => Knows i b.Stays) := safe_free hpid h hpt

section Reconnect

theorem safe_rejectRebind {e : Nat} {phone : Jid} (hbegan : b.began = .ready p e phone)
    (hrefuses : (b.origin.node p).refuses e phone = true)
    (h : Knows i (fun loc => b.Stays loc ∧ loc.last = none) w) :
    (control noteExt).Safe i (rejectRebind p e) w
      (fun _ => Knows i fun loc => b.Stays loc ∧ loc.last.isSome = true)
      (fun _ => Knows i fun loc => b.Stays loc ∧ loc.last.isSome = true) := by
  have hlast {loc : Local} {P : Place → Answer → State → Prop} (h : loc.came P) :
      loc.last.isSome = true := by
    rcases h with ⟨pt, x, s, h, _⟩
    simp [h]
  unfold rejectRebind
  apply Outline.Safe.bind
  apply safe_run h
  . rintro loc ⟨hloc, hlast⟩
    exact ⟨hloc.began ▸ hpid, hlast, phone, hloc.began ▸ hbegan, hloc.origin ▸ hrefuses⟩
  . intro loc x s wr hloc _ _ w h
    have h : Knows i (fun loc => b.Stays loc ∧ loc.came fun pt _ _ => ∃ e, pt = .rebindTeardown e) w := by
      apply h.mono
      rintro _ rfl
      exact ⟨hloc.1.neutral rfl, _, _, _, rfl, e, rfl⟩
    split
    . apply safe_run h
      . intro loc hloc
        exact ⟨hloc.1.began ▸ hpid, hloc.2⟩
      . intro loc x s _ hloc _ _ w h
        apply h.mono
        rintro _ rfl
        exact ⟨hloc.1.neutral rfl, rfl⟩
      . intro loc x s _ _ _ herr
        contradiction
    . exact h.mono fun _ hloc => ⟨hloc.1, hlast hloc.2⟩
  . intro loc x s _ _ _ herr
    contradiction

theorem safe_handleEngineDisconnected {e : Nat} (unlink : Bool) (h : Knows i b.Stays w) :
    (control noteExt).Safe i (handleEngineDisconnected p e unlink) w (fun _ => Knows i b.Stays)
      (fun _ => Knows i b.Stays) := by
  unfold handleEngineDisconnected
  apply Outline.Safe.seq
  . apply safe_came (R := fun (a : Option Session) pt x s => pt = .disconnectFind e ∧
      ∀ session, a = some session → x ≠ .fault ∧ s.row = some session) h
    . exact fun _ h => h
    . rfl
    . intro loc hloc
      exact precedes_free rfl (hloc.began ▸ hpid)
    . intro x s a _ ha
      refine ⟨rfl, ?_⟩
      rintro session rfl
      split at ha <;> simp_all
  . intro session w h
    split
    . next session =>
      apply safe_after hpid h rfl
      rintro loc hpid ⟨pt, x, s, hlast, hpt, hsession⟩
      exact ⟨hpid, pt, x, s, hlast, hpt, hsession session rfl⟩
    . exact h.mono fun _ h => h.1
  . exact fun _ _ h => h

theorem safe_cleanUpOld {k : Nat} {old : Option Nat} (hbegan : b.began = .timer p k)
    (hcreated : b.created = none)
    (hold : ∀ e, old = some e →
      (b.origin.node p).stopping = false ∧ (b.origin.node p).engine = some e)
    (h : Knows i (fun loc => b.Stays loc ∧ loc.last = none) w) :
    (control noteExt).Safe i (cleanUpOld p k old) w (fun _ => Knows i b.Stays)
      (fun _ => Knows i b.Stays) := by
  unfold cleanUpOld
  split
  . next e =>
    apply Outline.Safe.seq
    . apply safe_came (R := fun (a : Bool) pt _ _ => pt = .oldTeardown k e) h
      . exact fun _ h => h.1
      . rfl
      . rintro loc ⟨hloc, hlast⟩
        refine ⟨hloc.began ▸ hpid, hlast, hloc.began ▸ hbegan, hloc.created ▸ hcreated, ?_⟩
        exact hloc.origin ▸ hold e rfl
      . intro x s a _ _
        rfl
    . intro destroyed w h
      split
      . exact h.mono fun _ h => h.1
      . apply Outline.Safe.mono (safe_came (R := fun _ _ _ _ => True) h ?_ rfl ?_ ?_)
        . exact fun _ _ h => h.mono fun _ h => h.1
        . exact fun _ _ h => h
        . exact fun _ h => h.1
        . intro loc hloc
          exact ⟨hloc.1.began ▸ hpid, hloc.1.began ▸ hbegan, hloc.2⟩
        . intros
          trivial
    . exact fun _ _ h => h
  . exact h.mono fun _ h => h.1

/-- The history after the turn that creates the engine `e`. -/
def Local.creates (b : Local) (e : Nat) : Local := { b with created := some e }

theorem safe_reconnectPrepare {k : Nat} {session : Session} {old : Option Nat}
    (hbegan : b.began = .timer p k) (hcreated : b.created = none)
    (hold : ∀ e, old = some e →
      (b.origin.node p).stopping = false ∧ (b.origin.node p).engine = some e)
    (h : Knows i (fun loc => b.Stays loc ∧ loc.last = none) w) :
    (control noteExt).Safe i (reconnectPrepare p k session old) w
      (fun e => Knows i (b.creates e).Stays) (fun _ => Knows i b.Stays) := by
  have hpre {pt : Place} (hpt : pt = .reconnectFence k ∨ pt = .reconnectCreate k session) (loc : Local)
      (hloc : b.Stays loc) : loc.precedes ⟨p, pt⟩ := by
    refine ⟨hloc.began ▸ hpid, ?_⟩
    rcases hpt with rfl | rfl
    . exact ⟨hloc.began ▸ hbegan, hloc.created ▸ hcreated⟩
    . exact ⟨hloc.began ▸ hbegan, hloc.created ▸ hcreated⟩
  unfold reconnectPrepare
  apply Outline.Safe.seq (safe_cleanUpOld hpid hbegan hcreated hold h)
  . intro _ w h
    apply Outline.Safe.seq (safe_neutral h rfl (hpre (.inl rfl)))
    . intro _ w h
      apply safe_run h (hpre (.inr rfl))
      . intro loc x s e hloc _ he w h
        apply h.mono
        rintro _ rfl
        refine ⟨hloc.began, hloc.origin, ?_, hloc.holding⟩
        simp at he
        simp [Local.turn, Local.creates, he]
      . intro loc x s _ _ _ herr
        contradiction
    . exact fun _ _ h => h
  . exact fun _ _ h => h

theorem safe_reconnectRetired {stopping : Bool}
    (h : Knows i (fun loc => b.Stays loc ∧ (stopping = true → loc.came (sawRetired p))) w) :
    (control noteExt).Safe i (reconnectRetired p stopping) w (fun _ => Knows i b.Stays)
      (fun _ => Knows i b.Stays) := by
  unfold reconnectRetired
  apply Outline.Safe.seq (E := fun _ => Knows i b.Stays)
    (Q := fun retired => Knows i fun loc => b.Stays loc ∧ (retired = true → loc.came (sawRetired p)))
  . apply Outline.Safe.catch'
    apply Outline.Safe.mono (safe_isSessionRetired hpid h)
    . exact fun _ _ h => h
    . exact fun _ _ h => h.mono fun _ h => ⟨h, by simp⟩
  . intro retired w h
    split
    . next hretired => exact safe_unwindRetired hpid (h.mono fun _ h => ⟨h.1, h.2 hretired⟩)
    . exact h.mono fun _ h => h.1
  . exact fun _ _ h => h

theorem safe_reconnectFailed {k : Nat} {session : Session} {launched : Option Nat} {err : LifecycleError}
    (hbegan : b.began = .timer p k) (hcreated : b.created = launched)
    (h : Knows i (fun loc => b.Stays loc ∧ ∀ e, launched = some e → loc.came (launchFailed p e)) w) :
    (control noteExt).Safe i (pass p (.reconnectFailed k session launched err)) w
      (fun _ => Knows i b.Stays) (fun _ => Knows i b.Stays) := by
  apply Outline.Safe.mono (safe_came (R := fun _ _ _ _ => True) h ?_ rfl ?_ ?_)
  . exact fun _ _ h => h.mono fun _ h => h.1
  . exact fun _ _ h => h
  . exact fun _ h => h.1
  . intro loc hloc
    exact ⟨hloc.1.began ▸ hpid, hloc.1.began ▸ hbegan, hloc.1.created ▸ hcreated, hloc.2⟩
  . intros
    trivial

theorem safe_reconnectLaunch {k e : Nat} {session : Session} (hbegan : b.began = .timer p k)
    (hcreated : b.created = some e) (h : Knows i b.Stays w) :
    (control noteExt).Safe i (reconnectLaunch p k session e) w (fun _ => Knows i b.Stays)
      (fun _ => Knows i b.Stays) := by
  unfold reconnectLaunch
  apply Outline.Safe.seq (E := fun _ => Knows i b.Stays) (Q := fun failed => Knows i fun loc =>
    b.Stays loc ∧ (failed.isSome = true → loc.came (launchFailed p e)))
  . apply Outline.Safe.catch'
    apply Outline.Safe.seq (safe_initializeEngine hpid hcreated h)
    . exact fun _ _ h => h.mono fun _ h => ⟨h, by simp⟩
    . exact fun _ _ h => h.mono fun _ h => ⟨h.1, fun _ => h.2⟩
  . intro failed w h
    split
    . next err =>
      apply safe_reconnectFailed hpid hbegan hcreated
      apply h.mono
      rintro loc ⟨hloc, hfailed⟩
      refine ⟨hloc, fun e' he => ?_⟩
      simp only [Option.some.injEq] at he
      exact he ▸ hfailed rfl
    . apply Outline.Safe.seq
      . apply safe_came (R := fun stopping pt _ s => pt = .reconnectLaunched k e ∧
          ((s.node p).reconnectLaunched k).stopping = stopping) h
        . exact fun _ h => h.1
        . rfl
        . intro loc hloc
          exact ⟨hloc.1.began ▸ hpid, hloc.1.began ▸ hbegan, hloc.1.created ▸ hcreated⟩
        . intro x s a _ ha
          exact ⟨rfl, by simpa using ha⟩
      . intro stopping w h
        apply safe_reconnectRetired hpid
        apply h.mono
        rintro loc ⟨hloc, pt, x, s, hlast, hpt, hstopping⟩
        exact ⟨hloc, fun h => ⟨pt, x, s, hlast, .inr (.inl ⟨k, e, hpt, hstopping.trans h⟩)⟩⟩
      . exact fun _ _ h => h
  . exact fun _ _ h => h

/-- What is known after the preparation: the history with the engine that it created, or the same one. -/
def Prepared (i : Nat) (b : Local) (created : Except LifecycleError Nat) (w : SessionWorld δ) : Prop :=
  match created with
  | .ok e => Knows i (b.creates e).Stays w
  | .error _ => Knows i b.Stays w

theorem safe_executeReconnect {k : Nat} {session : Session} {old : Option Nat}
    (hbegan : b.began = .timer p k) (hcreated : b.created = none)
    (hold : ∀ e, old = some e →
      (b.origin.node p).stopping = false ∧ (b.origin.node p).engine = some e)
    (h : Knows i (fun loc => b.Stays loc ∧ loc.last = none) w) :
    (control noteExt).Safe i (executeReconnect p k session old) w
      (fun _ => Knows i fun loc => loc.began = b.began) (fun _ => Knows i fun loc => loc.began = b.began) := by
  unfold executeReconnect
  apply Outline.Safe.seq (E := fun _ => Knows i b.Stays) (Q := Prepared i b)
  . apply Outline.Safe.catch'
    apply Outline.Safe.seq (safe_reconnectPrepare hpid hbegan hcreated hold h)
    . exact fun _ _ h => h
    . exact fun _ _ h => h
  . intro created w h
    cases created with
    | ok e =>
      apply Outline.Safe.mono (safe_reconnectLaunch (b := b.creates e) hpid hbegan rfl h)
      . exact fun _ _ h => h.mono fun _ h => h.began
      . exact fun _ _ h => h.mono fun _ h => h.began
    | error err =>
      apply Outline.Safe.mono (safe_reconnectFailed hpid hbegan hcreated (h.mono fun _ h => ⟨h, by simp⟩))
      . exact fun _ _ h => h.mono fun _ h => h.began
      . exact fun _ _ h => h.mono fun _ h => h.began
  . exact fun _ _ h => h.mono fun _ h => h.began

end Reconnect

section Start

/-- The history of an activation that reserved the session. -/
def Local.reserves (b : Local) : Local := { b with holding := true }

theorem safe_startFailed {err : LifecycleError} (h : Knows i b.Stays w) :
    (control noteExt).Safe i (startFailed p err) w (fun _ => Knows i b.Stays)
      (fun _ => Knows i b.Stays) := by
  unfold startFailed
  apply Outline.Safe.seq (safe_free hpid h rfl)
  . intro orphan w h
    split
    . apply Outline.Safe.seq (safe_free hpid h rfl)
      . intro wr w h
        split
        . apply Outline.Safe.seq (safe_free hpid h rfl)
          . exact fun _ _ h => h
          . exact fun _ _ h => h
        . exact h
      . exact fun _ _ h => h
    . exact h
  . exact fun _ _ h => h

theorem safe_startLaunched (h : Knows i b.Stays w) :
    (control noteExt).Safe i (startLaunched p) w (fun _ => Knows i b.Stays)
      (fun _ => Knows i b.Stays) := by
  unfold startLaunched
  apply Outline.Safe.seq
  . apply safe_came (R := fun stopping pt _ s => pt = .startLaunched ∧ (s.node p).stopping = stopping) h
    . exact fun _ h => h
    . rfl
    . intro loc hloc
      exact precedes_free rfl (hloc.began ▸ hpid)
    . intro x s a _ ha
      exact ⟨rfl, by simpa using ha⟩
  . intro stopping w h
    have h : Knows i (fun loc => b.Stays loc ∧ (stopping = true → loc.came (sawRetired p))) w := by
      apply h.mono
      rintro loc ⟨hloc, pt, x, s, hlast, hpt, hstopping⟩
      exact ⟨hloc, fun h => ⟨pt, x, s, hlast, .inl ⟨hpt, hstopping.trans h⟩⟩⟩
    apply Outline.Safe.seq (safe_isSessionRetired hpid h)
    . intro retired w h
      split
      . next hretired => exact safe_unwindRetired hpid (h.mono fun _ h => ⟨h.1, h.2 hretired⟩)
      . exact h.mono fun _ h => h.1
    . exact fun _ _ h => h
  . exact fun _ _ h => h

theorem safe_startPrepare (hholding : b.holding = true) (h : Knows i b.Stays w) :
    (control noteExt).Safe i (startPrepare p) w (fun e => Knows i (b.creates e).Stays)
      (fun _ => Knows i b.Stays) := by
  have hpre {pt : Place} (session : Session)
      (hpt : pt = .startFind ∨ pt = .startChecks ∨ pt = .startPrepare ∨ pt = .startCreate session)
      (loc : Local) (hloc : b.Stays loc) : loc.precedes ⟨p, pt⟩ := by
    refine ⟨hloc.began ▸ hpid, ?_⟩
    rcases hpt with rfl | rfl | rfl | rfl <;> exact hloc.holding ▸ hholding
  unfold startPrepare
  apply Outline.Safe.seq (safe_neutral h rfl ?_)
  . intro session w h
    apply Outline.Safe.seq (safe_neutral h rfl (hpre session (.inr (.inl rfl))))
    . intro _ w h
      apply Outline.Safe.seq (safe_neutral h rfl (hpre session (.inr (.inr (.inl rfl)))))
      . intro _ w h
        apply safe_run h (hpre session (.inr (.inr (.inr rfl))))
        . intro loc x s e hloc _ he w h
          apply h.mono
          rintro _ rfl
          refine ⟨hloc.began, hloc.origin, ?_, hloc.holding⟩
          simp at he
          simp [Local.turn, Local.creates, he]
        . intro loc x s _ _ _ herr
          contradiction
      . exact fun _ _ h => h
    . exact fun _ _ h => h
  . exact fun _ _ h => h
  . intro loc hloc
    exact ⟨hloc.began ▸ hpid, hloc.holding ▸ hholding⟩

/-- What an activation of `start` keeps until its reservation goes. -/
def Local.Starts (b loc : Local) : Prop :=
  loc.began = b.began ∧ loc.holding = true

theorem safe_startReserved (hholding : b.holding = true) (h : Knows i b.Stays w) :
    (control noteExt).Safe i (startReserved p) w (fun _ => Knows i b.Starts)
      (fun _ => Knows i b.Starts) := by
  unfold startReserved
  apply Outline.Safe.seq (safe_startPrepare hpid hholding h)
  . intro e w h
    have hpid : (b.creates e).began.pid? = some p := hpid
    have hdone (w : SessionWorld δ) (h : Knows i (b.creates e).Stays w) : Knows i b.Starts w :=
      h.mono fun _ h => ⟨h.began, h.holding.trans hholding⟩
    apply Outline.Safe.seq (Q := fun _ => Knows i (b.creates e).Stays)
      (E := fun _ => Knows i (b.creates e).Stays)
    . apply Outline.Safe.catch'
      apply Outline.Safe.mono (safe_initializeEngine hpid rfl h)
      . exact fun _ _ h => h
      . intro err w h
        exact safe_startFailed hpid (h.mono fun _ h => h.1)
    . intro _ w h
      apply Outline.Safe.mono (safe_startLaunched hpid h)
      . exact fun _ w h => hdone w h
      . exact fun _ w h => hdone w h
    . exact fun _ w h => hdone w h
  . exact fun _ _ h => h.mono fun _ h => ⟨h.began, h.holding.trans hholding⟩

theorem safe_start {P : Local → Prop} (h : Knows i (fun loc => loc.began = b.began ∧ P loc) w)
    (hP : ∀ loc, P loc →
      loc.began = .start p ∨ loc.came fun pt _ _ => pt = .retryBegin ∨ pt = .claimed true) :
    (control noteExt).Safe i (start p) w (fun _ => Knows i fun loc => loc.began = b.began)
      (fun _ => Knows i fun loc => loc.began = b.began) := by
  unfold start
  apply Outline.Safe.bind
  apply safe_run h
  . intro loc hloc
    exact ⟨hloc.1 ▸ hpid, hP loc hloc.2⟩
  . intro loc x s a hloc _ ha w h
    have hfree : (s.node p).initializing = false := by
      by_contra hinit
      simp [hinit] at ha
    rcases h with ⟨loc', hlocal, rfl⟩
    have hpid' : (loc.turn ⟨p, .startReserve⟩ x s).began.pid? = some p := by
      exact hloc.1 ▸ hpid
    have hholding : (loc.turn ⟨p, .startReserve⟩ x s).holding = true := by
      simp [Local.turn, hfree]
    have h : Knows i (loc.turn ⟨p, .startReserve⟩ x s).Stays w := ⟨_, hlocal, rfl, rfl, rfl, rfl⟩
    have hrelease (w : SessionWorld δ) (h : Knows i (loc.turn ⟨p, .startReserve⟩ x s).Starts w) :
        (control noteExt).Safe i (pass p .startRelease) w (fun _ => Knows i fun loc => loc.began = b.began)
          (fun _ => Knows i fun loc => loc.began = b.began) := by
      apply safe_run h
      . intro loc hloc
        exact ⟨hloc.1 ▸ hpid', hloc.2⟩
      . intro loc' x s _ hloc' _ _ w h
        apply h.mono
        rintro _ rfl
        exact hloc'.1.trans hloc.1
      . intro loc x s _ _ _ herr
        contradiction
    apply Outline.Safe.seq (Q := fun _ => Knows i fun loc => loc.began = b.began)
      (E := fun _ => Knows i fun loc => loc.began = b.began)
    . apply Outline.Safe.andFinally
      apply Outline.Safe.mono (safe_startReserved hpid' hholding h)
      . exact fun _ w h => hrelease w h
      . exact fun _ w h => hrelease w h
    . intro _ w h
      rcases h with ⟨loc, hlocal, hbegan⟩
      apply Outline.Safe.seq (safe_requireSession (b := loc) (hbegan ▸ hpid) ⟨loc, hlocal, rfl, rfl, rfl, rfl⟩ rfl)
      . exact fun _ _ h => h.mono fun _ h => h.began.trans hbegan
      . exact fun _ _ h => h.mono fun _ h => h.began.trans hbegan
    . exact fun _ _ h => h
  . intro loc x s e hloc _ _ w h
    apply h.mono
    rintro _ rfl
    exact hloc.1

end Start

section Retire

theorem safe_requireSessionOrDropStopMark {v : Verb} (h : Knows i b.Stays w) :
    (control noteExt).Safe i (requireSessionOrDropStopMark p v) w (fun _ => Knows i b.Stays)
      (fun _ => Knows i b.Stays) := by
  unfold requireSessionOrDropStopMark
  apply Outline.Safe.catch'
  apply Outline.Safe.seq
  . apply safe_told (R := fun _ _ _ _ => True)
      (S := fun _ pt x s => (∃ v, pt = .retireFind v) ∧ (x = .fault ∨ s.row = none)) h
    . exact fun _ h => h
    . rfl
    . intro loc hloc
      exact precedes_free rfl (hloc.began ▸ hpid)
    . intros
      trivial
    . intro x s err _ herr
      refine ⟨⟨v, rfl⟩, ?_⟩
      split at herr
      . next hx => exact .inl hx
      . split at herr
        . contradiction
        . next hrow => exact .inr hrow
  . exact fun _ _ h => h.mono fun _ h => h.1
  . intro err w h
    apply Outline.Safe.seq
    . apply safe_came (R := fun _ _ _ _ => True) h
      . exact fun _ h => h.1
      . rfl
      . intro loc hloc
        exact ⟨hloc.1.began ▸ hpid, hloc.2⟩
      . intros
        trivial
    . exact fun _ _ h => h.mono fun _ h => h.1
    . exact fun _ _ h => h

/-- What the mark of a retiring verb tells about the state it found. -/
def Marked (p : Nat) (v : Verb) (a : Option (Nat × Bool) × Nat) (pt : Place) (_x : Answer) (s : State) : Prop :=
  pt = .retireMark v ∧ (s.node p).engine = a.1.map Prod.fst ∧ a.2 = s.issued ∧
    (a.1 = none → v ≠ .logout ∧ v ≠ .forceKill)

theorem safe_retireMark {v : Verb} (h : Knows i b.Stays w) :
    (control noteExt).Safe i (retireMark p v) w
      (fun a => Knows i fun loc => b.Stays loc ∧ loc.came (Marked p v a)) (fun _ => Knows i b.Stays) := by
  apply safe_came h
  . exact fun _ h => h
  . rfl
  . intro loc hloc
    exact precedes_free rfl (hloc.began ▸ hpid)
  . intro x s a _ ha
    dsimp only at ha
    split at ha
    . next e he =>
      simp only [Except.ok.injEq] at ha
      subst ha
      exact ⟨rfl, he, rfl, by simp⟩
    . next he =>
      split at ha
      . contradiction
      . next hv =>
        simp only [Except.ok.injEq] at ha
        subst ha
        exact ⟨rfl, he, rfl, fun _ => by simpa using hv⟩

theorem safe_retireInitial {v : Verb} {e : Nat} {pending : Bool} {wr : Nat}
    (h : Knows i (fun loc => b.Stays loc ∧ loc.came (Marked p v (some (e, pending), wr))) w) :
    (control noteExt).Safe i (retireInitial p v e pending) w
      (fun _ => Knows i fun loc => b.Stays loc ∧ loc.came fun pt x s => ∃ pending,
        pt = .retireInitial v e pending ∧ (x = .ok && pending && s.launchRejected (s.node p) e) = false)
      (fun _ => Knows i b.Stays) := by
  apply safe_came h
  . exact fun _ h => h.1
  . rfl
  . rintro loc ⟨hloc, pt, x, s, hlast, rfl, hengine, _⟩
    exact ⟨hloc.began ▸ hpid, _, x, s, hlast, rfl, hengine⟩
  . intro x s a _ ha
    refine ⟨pending, rfl, ?_⟩
    by_contra hrejected
    rw [Bool.not_eq_false] at hrejected
    simp only [hrejected] at ha
    contradiction

/-- The teardown of the captured engine has settled with the outcome `a`. -/
def TornDown (v : Verb) (e : Nat) (a : Bool × Nat) (pt : Place) (x : Answer) (s : State) : Prop :=
  pt = .retireTeardown v e ∧ a = (decide (x = .ok), s.issued) ∧ (x = .ok ∨ x = .failed)

theorem safe_retireEngine {v : Verb} {e : Nat} {pending : Bool} {wr : Nat}
    (h : Knows i (fun loc => b.Stays loc ∧ loc.came (Marked p v (some (e, pending), wr))) w) :
    (control noteExt).Safe i (retireEngine p v e pending) w
      (fun a => Knows i fun loc => b.Stays loc ∧ loc.came (TornDown v e a)) (fun _ => Knows i b.Stays) := by
  unfold retireEngine
  apply Outline.Safe.seq (safe_retireInitial hpid h)
  . intro _ w h
    apply safe_came h
    . exact fun _ h => h.1
    . rfl
    . intro loc hloc
      exact ⟨hloc.1.began ▸ hpid, hloc.2⟩
    . intro x s a hguard ha
      simp only [Except.ok.injEq] at ha
      refine ⟨rfl, ha.symm, ?_⟩
      simpa [Place.awaits, Place.isQuery, Place.isTeardown, Place.isFence] using
        (Bool.and_eq_true_iff.mp hguard).2
  . exact fun _ _ h => h

omit hpid in
theorem announces_tornDown {v : Verb} {e : Nat} {a : Bool × Nat} {pt : Place} {x : Answer} {s : State}
    (h : TornDown v e a pt x s) (ha : v = .stop → a.1 = true) : announces p v a.2 pt x s := by
  rcases h with ⟨rfl, rfl, hx⟩
  refine ⟨rfl, .inr (.inl ⟨⟨e, rfl⟩, ?_⟩)⟩
  rintro ⟨hv, rfl⟩
  simp at ha
  exact ha hv

theorem safe_retireStatus {v : Verb} {e : Option Nat} {wr : Nat}
    {result : Answer → State → Except LifecycleError α} (hv : v ≠ .delete)
    (h : Knows i (fun loc => b.Stays loc ∧ loc.came (announces p v wr)) w) :
    (control noteExt).Safe i (run p (.retireStatus v e wr) result) w
      (fun _ => Knows i fun loc => b.Stays loc ∧ loc.came fun pt _ _ => pt = .retireStatus v e wr)
      (fun _ => Knows i b.Stays) := by
  apply safe_came (R := fun _ pt _ _ => pt = .retireStatus v e wr) h
  . exact fun _ h => h.1
  . rfl
  . intro loc hloc
    exact ⟨hloc.1.began ▸ hpid, hv, hloc.2⟩
  . intros
    rfl

/-- An activation of the verb `v` has resolved. -/
def Local.Resolved (b : Local) (v : Verb) (loc : Local) : Prop :=
  b.Stays loc ∧ loc.came fun pt _ _ => pt = .retireDone v

theorem safe_retireDone {v : Verb} {P : Place → Answer → State → Prop} (hv : v ≠ .delete)
    (h : Knows i (fun loc => b.Stays loc ∧ loc.came P) w)
    (hP : ∀ pt x s, P pt x s → (∃ e w, pt = .retireStatus v e w) ∨ ∃ w, pt = .retirePhone w) :
    (control noteExt).Safe i (do let _ ← requireSession p (.retireDone v) : Job Unit) w
      (fun _ => Knows i (b.Resolved v)) (fun _ => Knows i b.Stays) := by
  apply Outline.Safe.seq
  . apply safe_came (R := fun _ pt _ _ => pt = .retireDone v) h
    . exact fun _ h => h.1
    . rfl
    . rintro loc ⟨hloc, pt, x, s, hlast, hpt⟩
      exact ⟨hloc.began ▸ hpid, hv, pt, x, s, hlast, hP pt x s hpt⟩
    . intros
      rfl
  . exact fun _ _ h => h
  . exact fun _ _ h => h

theorem safe_stopEngine {e : Nat} {pending : Bool} {wr : Nat}
    (h : Knows i (fun loc => b.Stays loc ∧ loc.came (Marked p .stop (some (e, pending), wr))) w) :
    (control noteExt).Safe i (stopEngine p e pending) w
      (fun _ => Knows i fun loc => b.Stays loc ∧ loc.came fun pt _ _ => ∃ e w, pt = .retireStatus .stop e w)
      (fun _ => Knows i b.Stays) := by
  have hstatus {e : Option Nat} {wr : Nat} {loc : Local}
      (h : b.Stays loc ∧ loc.came fun pt _ _ => pt = .retireStatus .stop e wr) :
      b.Stays loc ∧ loc.came fun pt _ _ => ∃ e w, pt = .retireStatus .stop e w := by
    rcases h with ⟨hloc, pt, x, s, hlast, hpt⟩
    exact ⟨hloc, pt, x, s, hlast, e, wr, hpt⟩
  unfold stopEngine
  apply Outline.Safe.seq (safe_retireEngine hpid h)
  . intro a w h
    dsimp only
    split
    . next htorn =>
      have h : Knows i (fun loc => b.Stays loc ∧ loc.came (announces p .stop a.2)) w := by
        apply h.mono
        rintro loc ⟨hloc, pt, x, s, hlast, hpt⟩
        exact ⟨hloc, pt, x, s, hlast, announces_tornDown hpt fun _ => htorn⟩
      apply Outline.Safe.mono (safe_retireStatus hpid (by decide) h)
      . exact fun _ _ h => h.mono fun _ h => hstatus h
      . exact fun _ _ h => h
    . apply Outline.Safe.seq
      . apply safe_came (R := fun (a : Bool × Nat) => announces p .stop a.2) h
        . exact fun _ h => h.1
        . rfl
        . rintro loc ⟨hloc, pt, x, s, hlast, hpt⟩
          exact ⟨hloc.began ▸ hpid, pt, x, s, hlast, hpt.1⟩
        . intro x s a _ ha
          simp only [Except.ok.injEq] at ha
          subst ha
          exact ⟨rfl, .inr (.inr ⟨⟨e, rfl⟩, rfl⟩)⟩
      . intro a w h
        apply Outline.Safe.seq (safe_retireStatus hpid (by decide) h)
        . intro _ w h
          split
          . exact h.mono fun _ h => hstatus h
          . exact h.mono fun _ h => h.1
        . exact fun _ _ h => h
      . exact fun _ _ h => h
  . exact fun _ _ h => h

theorem safe_stopMarked {a : Option (Nat × Bool) × Nat}
    (h : Knows i (fun loc => b.Stays loc ∧ loc.came (Marked p .stop a)) w) :
    (control noteExt).Safe i (stopMarked p a.1 a.2) w
      (fun _ => Knows i fun loc => b.Stays loc ∧ loc.came fun pt _ _ => ∃ e w, pt = .retireStatus .stop e w)
      (fun _ => Knows i b.Stays) := by
  unfold stopMarked
  split
  . next e pending heq =>
    rw [show a = (some (e, pending), a.2) from Prod.ext heq rfl] at h
    exact safe_stopEngine hpid h
  . next heq =>
    have h : Knows i (fun loc => b.Stays loc ∧ loc.came (announces p .stop a.2)) w := by
      apply h.mono
      rintro loc ⟨hloc, pt, x, s, hlast, hpt, hengine, hissued, _⟩
      rw [heq] at hengine
      exact ⟨hloc, pt, x, s, hlast, hissued, .inl ⟨hpt, rfl, hengine⟩⟩
    apply Outline.Safe.mono (safe_retireStatus hpid (by decide) h)
    . intro _ w h
      apply h.mono
      rintro loc ⟨hloc, pt, x, s, hlast, hpt⟩
      exact ⟨hloc, pt, x, s, hlast, _, _, hpt⟩
    . exact fun _ _ h => h

theorem safe_stop (h : Knows i b.Stays w) :
    (control noteExt).Safe i (stop p) w (fun _ => Knows i (b.Resolved .stop)) (fun _ => Knows i b.Stays) := by
  unfold stop
  apply Outline.Safe.seq (safe_requireSessionOrDropStopMark hpid h)
  . intro _ w h
    apply Outline.Safe.seq (safe_retireMark hpid h)
    . intro a w h
      apply Outline.Safe.seq (safe_stopMarked hpid h)
      . intro _ w h
        exact safe_retireDone hpid (by decide) h fun _ _ _ h => .inl h
      . exact fun _ _ h => h
    . exact fun _ _ h => h
  . exact fun _ _ h => h

theorem safe_logoutPhone {e : Nat} {unlinked : Bool} {wr : Nat}
    (h : Knows i (fun loc => b.Stays loc ∧ loc.came (announces p .logout wr)) w) :
    (control noteExt).Safe i (logoutPhone p e unlinked wr) w (fun _ => Knows i (b.Resolved .logout))
      (fun _ => Knows i b.Stays) := by
  unfold logoutPhone
  apply Outline.Safe.seq (safe_retireStatus hpid (by decide) h)
  . intro phone w h
    apply Outline.Safe.seq
    . apply safe_came (R := fun _ pt _ _ => pt = .retirePhone phone) h
      . exact fun _ h => h.1
      . rfl
      . rintro loc ⟨hloc, pt, x, s, hlast, hpt⟩
        exact ⟨hloc.began ▸ hpid, pt, x, s, hlast, _, _, hpt⟩
      . intros
        rfl
    . intro _ w h
      split
      . exact safe_retireDone hpid (by decide) h fun _ _ _ h => .inr ⟨_, h⟩
      . exact h.mono fun _ h => h.1
    . exact fun _ _ h => h
  . exact fun _ _ h => h

theorem safe_logout (h : Knows i b.Stays w) :
    (control noteExt).Safe i (logout p) w (fun _ => Knows i (b.Resolved .logout))
      (fun _ => Knows i b.Stays) := by
  unfold logout
  apply Outline.Safe.seq (safe_requireSession hpid h rfl)
  . intro _ w h
    apply Outline.Safe.seq (safe_retireMark hpid h)
    . intro a w h
      dsimp only
      split
      . next e pending heq =>
        rw [show a = (some (e, pending), a.2) from Prod.ext heq rfl] at h
        apply Outline.Safe.seq (safe_retireEngine hpid h)
        . intro a w h
          apply safe_logoutPhone hpid
          apply h.mono
          rintro loc ⟨hloc, pt, x, s, hlast, hpt⟩
          exact ⟨hloc, pt, x, s, hlast, announces_tornDown hpt (by simp)⟩
        . exact fun _ _ h => h
      . exact h.mono fun _ h => h.1
    . exact fun _ _ h => h
  . exact fun _ _ h => h

theorem safe_forceKill (h : Knows i b.Stays w) :
    (control noteExt).Safe i (forceKill p) w (fun _ => Knows i (b.Resolved .forceKill))
      (fun _ => Knows i b.Stays) := by
  unfold forceKill
  apply Outline.Safe.seq (safe_requireSession hpid h rfl)
  . intro _ w h
    apply Outline.Safe.seq (safe_retireMark hpid h)
    . intro a w h
      dsimp only
      split
      . next e pending heq =>
        rw [show a = (some (e, pending), a.2) from Prod.ext heq rfl] at h
        apply Outline.Safe.seq (safe_retireEngine hpid h)
        . intro a w h
          have h : Knows i (fun loc => b.Stays loc ∧ loc.came (announces p .forceKill a.2)) w := by
            apply h.mono
            rintro loc ⟨hloc, pt, x, s, hlast, hpt⟩
            exact ⟨hloc, pt, x, s, hlast, announces_tornDown hpt (by simp)⟩
          apply Outline.Safe.seq (safe_retireStatus hpid (by decide) h)
          . intro _ w h
            exact safe_retireDone hpid (by decide) h fun _ _ _ h => .inl ⟨_, _, h⟩
          . exact fun _ _ h => h
        . exact fun _ _ h => h
      . exact h.mono fun _ h => h.1
    . exact fun _ _ h => h
  . exact fun _ _ h => h

theorem safe_deleteFenceAgain {e : Option Nat} (h : Knows i b.Stays w) :
    (control noteExt).Safe i (deleteFenceAgain p e) w (fun _ => Knows i b.Stays)
      (fun _ => Knows i b.Stays) := by
  unfold deleteFenceAgain
  apply Outline.Safe.seq (safe_free hpid h rfl)
  . intro refused w h
    split
    . apply Outline.Safe.seq (safe_free hpid h rfl)
      . exact fun _ _ h => h
      . exact fun _ _ h => h
    . exact h
    . exact h
  . exact fun _ _ h => h

theorem safe_deleteEngine {a : Option (Nat × Bool) × Nat}
    (h : Knows i (fun loc => b.Stays loc ∧ loc.came (Marked p .delete a)) w) :
    (control noteExt).Safe i (deleteEngine p a.1) w (fun _ => Knows i b.Stays)
      (fun _ => Knows i b.Stays) := by
  unfold deleteEngine
  split
  . next e pending heq =>
    rw [show a = (some (e, pending), a.2) from Prod.ext heq rfl] at h
    apply Outline.Safe.seq (safe_retireEngine hpid h)
    . exact fun _ _ h => h.mono fun _ h => h.1
    . exact fun _ _ h => h
  . exact h.mono fun _ h => h.1

theorem safe_deleteMarked {a : Option (Nat × Bool) × Nat}
    (h : Knows i (fun loc => b.Stays loc ∧ loc.came (Marked p .delete a)) w) :
    (control noteExt).Safe i (deleteMarked p a.1) w (fun _ => Knows i b.Stays)
      (fun _ => Knows i b.Stays) := by
  unfold deleteMarked
  apply Outline.Safe.seq (safe_deleteEngine hpid h)
  . intro _ w h
    apply Outline.Safe.seq (safe_deleteFenceAgain hpid h)
    . intro _ w h
      exact safe_free hpid h rfl
    . exact fun _ _ h => h
  . exact fun _ _ h => h

theorem safe_delete (h : Knows i b.Stays w) :
    (control noteExt).Safe i (delete p) w (fun _ => Knows i b.Stays) (fun _ => Knows i b.Stays) := by
  unfold delete
  apply Outline.Safe.seq (safe_requireSessionOrDropStopMark hpid h)
  . intro _ w h
    apply Outline.Safe.seq (safe_free hpid h rfl)
    . intro _ w h
      apply Outline.Safe.seq (safe_retireMark hpid h)
      . intro a w h
        apply Outline.Safe.andFinally
        apply Outline.Safe.mono (safe_deleteMarked hpid h)
        . exact fun _ w h => safe_free hpid h rfl
        . exact fun _ w h => safe_free hpid h rfl
      . exact fun _ _ h => h
    . exact fun _ _ h => h
  . exact fun _ _ h => h

theorem safe_verb (v : Verb) (h : Knows i b.Stays w) :
    (control noteExt).Safe i (v.task p) w
      (fun _ => Knows i fun loc => b.Stays loc ∧ (v ≠ .delete → loc.came fun pt _ _ => pt = .retireDone v))
      (fun _ => Knows i b.Stays) := by
  have hdone (u : Unit) (w : SessionWorld δ) (h : Knows i (b.Resolved v) w) :
      Knows i (fun loc => b.Stays loc ∧ (v ≠ .delete → loc.came fun pt _ _ => pt = .retireDone v)) w :=
    h.mono fun _ h => ⟨h.1, fun _ => h.2⟩
  cases v with
  | stop => exact Outline.Safe.mono (safe_stop hpid h) hdone fun _ _ h => h
  | logout => exact Outline.Safe.mono (safe_logout hpid h) hdone fun _ _ h => h
  | forceKill => exact Outline.Safe.mono (safe_forceKill hpid h) hdone fun _ _ h => h
  | delete =>
    apply Outline.Safe.mono (safe_delete hpid h)
    . exact fun _ _ h => h.mono fun _ h => ⟨h, by simp⟩
    . exact fun _ _ h => h

theorem safe_stopOrphanEngines (h : Knows i b.Stays w) :
    (control noteExt).Safe i (stopOrphanEngines p) w (fun _ => Knows i b.Stays)
      (fun _ => Knows i b.Stays) := by
  unfold stopOrphanEngines
  apply Outline.Safe.seq
  . apply safe_came (R := fun (a : Option Nat) pt _ s => pt = .orphanMark ∧ (s.node p).engine = a) h
    . exact fun _ h => h
    . rfl
    . intro loc hloc
      exact precedes_free rfl (hloc.began ▸ hpid)
    . intro x s a _ ha
      exact ⟨rfl, by simpa using ha⟩
  . intro engine w h
    split
    . apply safe_after hpid h rfl
      intro loc hpid hcame
      exact ⟨hpid, hcame⟩
    . exact h.mono fun _ h => h.1
  . exact fun _ _ h => h

end Retire

section Service

/-- The activation began with the same event as `b`. -/
def Local.Same (b loc : Local) : Prop := loc.began = b.began

theorem safe_same {pt : Place} {result : Answer → State → Except LifecycleError α}
    (h : Knows i b.Same w) (hpt : pt.free = true) :
    (control noteExt).Safe i (run p pt result) w (fun _ => Knows i b.Same) (fun _ => Knows i b.Same) := by
  apply safe_run h
  . intro loc hloc
    exact precedes_free hpt (hloc ▸ hpid)
  . intro loc x s a hloc _ _ w h
    exact h.mono fun _ heq => heq ▸ hloc
  . intro loc x s e hloc _ _ w h
    exact h.mono fun _ heq => heq ▸ hloc

theorem safe_link {P : Local → Prop} {R : α → Place → Answer → State → Prop} {pt : Place}
    {result : Answer → State → Except LifecycleError α}
    (h : Knows i (fun loc => b.Same loc ∧ P loc) w)
    (hpre : ∀ loc, loc.began.pid? = some p → P loc → loc.precedes ⟨p, pt⟩)
    (hR : ∀ x s a, result x s = .ok a → R a pt x s) :
    (control noteExt).Safe i (run p pt result) w
      (fun a => Knows i fun loc => b.Same loc ∧ loc.came (R a)) (fun _ => Knows i b.Same) := by
  apply safe_run h
  . intro loc hloc
    exact hpre loc (hloc.1 ▸ hpid) hloc.2
  . intro loc x s a hloc _ ha w h
    apply h.mono
    rintro _ rfl
    exact ⟨hloc.1, pt, x, s, rfl, hR x s a ha⟩
  . intro loc x s e hloc _ _ w h
    exact h.mono fun _ heq => heq ▸ hloc.1

theorem safe_claim (h : Knows i b.Same w) :
    (control noteExt).Safe i (claim p) w
      (fun ok => Knows i fun loc => b.Same loc ∧ loc.came fun pt _ _ => pt = .claimed ok)
      (fun _ => Knows i b.Same) := by
  unfold claim
  have h : Knows i (fun loc => b.Same loc ∧ True) w := h.mono fun _ h => ⟨h, trivial⟩
  apply Outline.Safe.seq
  . apply safe_link hpid (R := fun (now : Nat) pt _ s => pt = .claimCall ∧ now = s.now) h
    . exact fun loc hpid _ => precedes_free rfl hpid
    . intro x s a ha
      exact ⟨rfl, by simpa using ha.symm⟩
  . intro now w h
    apply Outline.Safe.seq
    . apply safe_link hpid (R := fun (a : Bool) pt x s =>
        ∃ now, pt = .claim now ∧ x ≠ .fault ∧ a = s.affects (s.claimable p now)) h
      . exact fun loc hpid hcame => ⟨hpid, hcame⟩
      . intro x s a ha
        refine ⟨now, rfl, ?_⟩
        split at ha <;> simp_all
    . intro affected w h
      apply safe_link hpid (R := fun (a : Bool) pt _ _ => pt = .claimed a) h
      . exact fun loc hpid hcame => ⟨hpid, hcame⟩
      . intro x s a ha
        simp_all
    . exact fun _ _ h => h
  . exact fun _ _ h => h

theorem safe_releaseUnlessEngineActive (h : Knows i b.Same w) :
    (control noteExt).Safe i (releaseUnlessEngineActive p) w (fun _ => Knows i b.Same)
      (fun _ => Knows i b.Same) := by
  unfold releaseUnlessEngineActive
  have h : Knows i (fun loc => b.Same loc ∧ True) w := h.mono fun _ h => ⟨h, trivial⟩
  apply Outline.Safe.seq
  . apply safe_link hpid (R := fun (a : Option Nat) pt _ s =>
      pt = .releaseCheck ∧ ∀ now, a = some now → (s.node p).isEngineActive = false ∧ now = s.now) h
    . exact fun loc hpid _ => precedes_free rfl hpid
    . rintro x s a ha
      refine ⟨rfl, ?_⟩
      rintro now rfl
      split at ha
      . simp at ha
      . next hactive => exact ⟨Bool.eq_false_iff.mpr hactive, by simpa using ha.symm⟩
  . intro now w h
    split
    . apply Outline.Safe.mono (safe_link hpid (R := fun _ _ _ _ => True) h ?_ ?_)
      . exact fun _ _ h => h.mono fun _ h => h.1
      . exact fun _ _ h => h
      . rintro loc hpid ⟨pt, x, s, hlast, hpt, hactive⟩
        exact ⟨hpid, pt, x, s, hlast, hpt, hactive _ rfl⟩
      . intros
        trivial
    . exact h.mono fun _ h => h.1
  . exact fun _ _ h => h

theorem safe_stopOrphanEngines_same (h : Knows i b.Same w) :
    (control noteExt).Safe i (stopOrphanEngines p) w (fun _ => Knows i b.Same)
      (fun _ => Knows i b.Same) := by
  rcases h with ⟨loc, hlocal, hbegan⟩
  apply Outline.Safe.mono (safe_stopOrphanEngines (b := loc) (hbegan ▸ hpid) ⟨loc, hlocal, rfl, rfl, rfl, rfl⟩)
  . exact fun _ _ h => h.mono fun _ h => h.began.trans hbegan
  . exact fun _ _ h => h.mono fun _ h => h.began.trans hbegan

theorem safe_verb_same (v : Verb) (h : Knows i b.Same w) :
    (control noteExt).Safe i (v.task p) w (fun _ => Knows i b.Same) (fun _ => Knows i b.Same) := by
  rcases h with ⟨loc, hlocal, hbegan⟩
  apply Outline.Safe.mono (safe_verb (b := loc) (hbegan ▸ hpid) v ⟨loc, hlocal, rfl, rfl, rfl, rfl⟩)
  . exact fun _ _ h => h.mono fun _ h => h.1.began.trans hbegan
  . exact fun _ _ h => h.mono fun _ h => h.began.trans hbegan

theorem safe_renewQueries (live : Option Nat) (h : Knows i b.Same w) :
    (control noteExt).Safe i (renewQueries p live) w
      (fun kept => Knows i fun loc => b.Same loc ∧ ∀ a, kept = some a → loc.came fun pt x s =>
        pt = .renewFind ∧ x ≠ .fault ∧ a = s.affects fun row => row.nodeId = some (s.host p))
      (fun _ => Knows i b.Same) := by
  unfold renewQueries
  apply Outline.Safe.seq (Q := fun _ => Knows i b.Same) (E := fun _ => Knows i b.Same)
  . unfold renewUpdate
    split
    . exact safe_same hpid h rfl
    . exact h
  . intro failed w h
    split
    . exact h.mono fun _ h => ⟨h, by simp⟩
    . have h : Knows i (fun loc => b.Same loc ∧ True) w := h.mono fun _ h => ⟨h, trivial⟩
      apply Outline.Safe.mono
      . apply safe_link hpid (R := fun (kept : Option Bool) pt x s => ∀ a, kept = some a →
          pt = .renewFind ∧ x ≠ .fault ∧ a = s.affects fun row => row.nodeId = some (s.host p)) h
        . exact fun loc hpid _ => precedes_free rfl hpid
        . rintro x s kept ha a rfl
          split at ha <;> simp_all
      . intro kept w h
        apply h.mono
        rintro loc ⟨hloc, pt, x, s, hlast, hpt⟩
        exact ⟨hloc, fun a ha => ⟨pt, x, s, hlast, hpt a ha⟩⟩
      . exact fun _ _ h => h
  . exact fun _ _ h => h

theorem safe_renew (h : Knows i b.Same w) :
    (control noteExt).Safe i (renew p) w (fun _ => Knows i b.Same) (fun _ => Knows i b.Same) := by
  unfold renew
  apply Outline.Safe.seq (safe_same hpid h rfl)
  . intro a w h
    dsimp only
    split
    . unfold renewHeld
      apply Outline.Safe.seq (safe_renewQueries hpid _ h)
      . intro kept w h
        split
        . apply Outline.Safe.seq
          . apply safe_link hpid (R := fun _ _ _ _ => True) h
            . exact fun loc hpid hcame => ⟨hpid, hcame _ rfl⟩
            . intros
              trivial
          . intro _ w h
            have h : Knows i b.Same w := h.mono fun _ h => h.1
            split
            . exact h
            . exact safe_stopOrphanEngines_same hpid h
          . exact fun _ _ h => h
        . exact h.mono fun _ h => h.1
      . exact fun _ _ h => h
    . exact h
  . exact fun _ _ h => h

theorem safe_refuseClaim (h : Knows i b.Same w) :
    (control noteExt).Safe i (refuseClaim p) w (fun _ => Knows i b.Same) (fun _ => Knows i b.Same) := by
  unfold refuseClaim
  apply Outline.Safe.seq (safe_same hpid h rfl)
  . exact fun _ _ h => h
  . exact fun _ _ h => h

theorem safe_startClaimed
    (h : Knows i (fun loc => b.Same loc ∧ loc.came fun pt _ _ => pt = .retryBegin ∨ pt = .claimed true) w) :
    (control noteExt).Safe i (start p) w (fun _ => Knows i b.Same) (fun _ => Knows i b.Same) :=
  safe_start hpid h fun _ h => .inr h

theorem safe_retryStart {before : Nat} {err : LifecycleError} (h : Knows i b.Same w) :
    (control noteExt).Safe i (retryStart p before err) w (fun _ => Knows i b.Same)
      (fun _ => Knows i b.Same) := by
  unfold retryStart
  apply Outline.Safe.seq (safe_same hpid h rfl)
  . intro _ w h
    apply Outline.Safe.seq (safe_claim hpid h)
    . intro ok w h
      split
      . next hok =>
        subst hok
        apply safe_startClaimed hpid
        apply h.mono
        rintro loc ⟨hloc, pt, x, s, hlast, hpt⟩
        exact ⟨hloc, pt, x, s, hlast, .inr hpt⟩
      . exact safe_refuseClaim hpid (h.mono fun _ h => h.1)
    . exact fun _ _ h => h
  . exact fun _ _ h => h

theorem safe_startWithTransientRetry
    (h : Knows i (fun loc => b.Same loc ∧ loc.came fun pt _ _ => pt = .claimed true) w) :
    (control noteExt).Safe i (startWithTransientRetry p) w (fun _ => Knows i b.Same)
      (fun _ => Knows i b.Same) := by
  unfold startWithTransientRetry
  apply Outline.Safe.seq
  . apply safe_link hpid (R := fun _ pt _ _ => pt = .retryBegin) h
    . exact fun loc hpid hcame => ⟨hpid, hcame⟩
    . intros
      rfl
  . intro before w h
    apply Outline.Safe.catch'
    apply Outline.Safe.mono (safe_startClaimed hpid (h.mono ?_))
    . exact fun _ _ h => h
    . intro err w h
      split
      . exact safe_retryStart hpid h
      . exact h
    . rintro loc ⟨hloc, pt, x, s, hlast, hpt⟩
      exact ⟨hloc, pt, x, s, hlast, .inl hpt⟩
  . exact fun _ _ h => h

theorem safe_releaseAndThrow {err : LifecycleError} (h : Knows i b.Same w) :
    (control noteExt).Safe i (releaseAndThrow p err) w (fun _ => Knows i b.Same)
      (fun _ => Knows i b.Same) := by
  unfold releaseAndThrow
  apply Outline.Safe.seq (safe_releaseUnlessEngineActive hpid h)
  . exact fun _ _ h => h
  . exact fun _ _ h => h

theorem safe_serviceStart (h : Knows i b.Same w) :
    (control noteExt).Safe i (serviceStart p) w (fun _ => Knows i b.Same) (fun _ => Knows i b.Same) := by
  unfold serviceStart
  apply Outline.Safe.seq (safe_claim hpid h)
  . intro ok w h
    split
    . next hok =>
      subst hok
      apply Outline.Safe.seq (Q := fun _ => Knows i b.Same) (E := fun _ => Knows i b.Same)
      . apply Outline.Safe.catch'
        apply Outline.Safe.mono (safe_startWithTransientRetry hpid h)
        . exact fun _ _ h => h
        . intro err w h
          exact safe_releaseAndThrow hpid h
      . intro _ w h
        exact safe_releaseUnlessEngineActive hpid h
      . exact fun _ _ h => h
    . exact safe_refuseClaim hpid (h.mono fun _ h => h.1)
  . exact fun _ _ h => h

theorem safe_assertNotHeldElsewhere (h : Knows i b.Same w) :
    (control noteExt).Safe i (assertNotHeldElsewhere p) w (fun _ => Knows i b.Same)
      (fun _ => Knows i b.Same) := by
  unfold assertNotHeldElsewhere
  apply Outline.Safe.seq (safe_same hpid h rfl)
  . intro now w h
    apply Outline.Safe.seq (safe_same hpid h rfl)
    . intro held w h
      split
      . apply Outline.Safe.seq (safe_same hpid h rfl)
        . exact fun _ _ h => h
        . exact fun _ _ h => h
      . apply Outline.Safe.seq (safe_same hpid h rfl)
        . exact fun _ _ h => h
        . exact fun _ _ h => h
      . exact h
    . exact fun _ _ h => h
  . exact fun _ _ h => h

theorem safe_discardStopMark {err : LifecycleError} (h : Knows i b.Same w) :
    (control noteExt).Safe i (discardStopMark p err) w (fun _ => Knows i b.Same)
      (fun _ => Knows i b.Same) := by
  unfold discardStopMark
  split
  . apply Outline.Safe.seq (safe_same hpid h rfl)
    . exact fun _ _ h => h
    . exact fun _ _ h => h
  . exact h

theorem safe_stopFenced (h : Knows i b.Same w) :
    (control noteExt).Safe i (stopFenced p) w (fun _ => Knows i b.Same) (fun _ => Knows i b.Same) := by
  unfold stopFenced
  apply Outline.Safe.seq (safe_assertNotHeldElsewhere hpid h)
  . intro _ w h
    exact safe_verb_same hpid .stop h
  . exact fun _ _ h => h

theorem safe_serviceStop (h : Knows i b.Same w) :
    (control noteExt).Safe i (serviceStop p) w (fun _ => Knows i b.Same) (fun _ => Knows i b.Same) := by
  unfold serviceStop
  apply Outline.Safe.seq (safe_same hpid h rfl)
  . intro _ w h
    apply Outline.Safe.seq (Q := fun _ => Knows i b.Same) (E := fun _ => Knows i b.Same)
    . apply Outline.Safe.catch'
      apply Outline.Safe.mono (safe_stopFenced hpid h)
      . exact fun _ _ h => h
      . intro err w h
        exact safe_discardStopMark hpid h
    . intro _ w h
      exact safe_releaseUnlessEngineActive hpid h
    . exact fun _ _ h => h
  . exact fun _ _ h => h

theorem safe_releaseUnlessRefused (v : Verb) (h : Knows i b.Same w) :
    (control noteExt).Safe i (releaseUnlessRefused p (v.task p)) w (fun _ => Knows i b.Same)
      (fun _ => Knows i b.Same) := by
  unfold releaseUnlessRefused
  apply Outline.Safe.catch'
  apply Outline.Safe.seq (safe_verb_same hpid v h)
  . intro _ w h
    apply Outline.Safe.mono (safe_releaseUnlessEngineActive hpid h)
    . exact fun _ _ h => h
    . intro err w h
      split
      . exact h
      . exact safe_releaseAndThrow hpid h
  . intro err w h
    split
    . exact h
    . exact safe_releaseAndThrow hpid h

theorem safe_sweep {strandedAfter : Nat} (h : Knows i b.Same w) :
    (control noteExt).Safe i (sweep p strandedAfter) w (fun _ => Knows i b.Same)
      (fun _ => Knows i b.Same) := by
  unfold sweep
  apply Outline.Safe.seq (safe_same hpid h rfl)
  . intro now w h
    apply Outline.Safe.seq (safe_same hpid h rfl)
    . intro lapsed w h
      split
      . unfold sweepLapsed
        apply Outline.Safe.seq (Q := fun _ => Knows i b.Same) (E := fun _ => Knows i b.Same)
        . unfold sweepCorrect
          split
          . exact safe_same hpid h rfl
          . exact h
        . intro _ w h
          split
          . apply Outline.Safe.catch'
            apply Outline.Safe.mono (safe_serviceStart hpid h)
            . exact fun _ _ h => h
            . exact fun _ _ h => h
          . exact h
        . exact fun _ _ h => h
      . exact h
    . exact fun _ _ h => h
  . exact fun _ _ h => h

end Service
end Free

section Runs

theorem finished_of_began {v : Event} {loc : Local} {r : Except LifecycleError Unit} (h : loc.began = v)
    (hverb : ∀ verb p, v ≠ .verb verb p) (hready : ∀ p e phone, v ≠ .ready p e phone) : loc.finished r := by
  constructor
  . intro verb p hbegan
    exact absurd (h.symm.trans hbegan) (hverb verb p)
  . intro p e phone hbegan
    exact absurd (h.symm.trans hbegan) (hready p e phone)

theorem safe_task {v : Event} {s : State} (h : Knows i (· = Local.first v s) w) :
    (control noteExt).Safe i (v.task s) w (fun a => (control noteExt).post i (.ok a))
      (fun e => (control noteExt).post i (.error e)) := by
  have hfirst : Knows i (fun loc => (Local.first v s).Stays loc ∧ loc.last = none) w := by
    apply h.mono
    rintro _ rfl
    exact ⟨⟨rfl, rfl, rfl, rfl⟩, rfl⟩
  have hstays : Knows i (Local.first v s).Stays w := hfirst.mono fun _ h => h.1
  have hsame : Knows i (Local.first v s).Same w := h.mono fun _ h => h ▸ rfl
  have hdone {t : Job Unit} (hverb : ∀ verb p, v ≠ .verb verb p) (hready : ∀ p e phone, v ≠ .ready p e phone)
      (ht : (control noteExt).Safe i t w (fun _ => Knows i (Local.first v s).Same)
        (fun _ => Knows i (Local.first v s).Same)) :
      (control noteExt).Safe i t w (fun a => (control noteExt).post i (.ok a))
        (fun e => (control noteExt).post i (.error e)) := by
    apply Outline.Safe.mono ht
    . exact fun _ _ h => h.mono fun _ h => finished_of_began h hverb hready
    . exact fun _ _ h => h.mono fun _ h => finished_of_began h hverb hready
  cases v with
  | verb verb p =>
    apply Outline.Safe.mono (safe_verb rfl verb hstays)
    . intro _ w h
      apply h.mono
      rintro loc ⟨hloc, hcame⟩
      refine ⟨?_, fun p e phone hbegan => by simp [hloc.began, Local.first] at hbegan⟩
      intro verb' p' hbegan hne _
      simp [hloc.began, Local.first] at hbegan
      exact hbegan.1 ▸ hcame (hbegan.1 ▸ hne)
    . intro err w h
      apply h.mono
      intro loc hloc
      refine ⟨by simp, fun p e phone hbegan => by simp [hloc.began, Local.first] at hbegan⟩
  | ready p e phone =>
    have hfinished {loc : Local} {r : Except LifecycleError Unit} (hbegan : loc.began = .ready p e phone)
        (horigin : loc.origin = s) (h : (s.node p).refuses e phone = true → loc.last.isSome = true) :
        loc.finished r := by
      constructor
      . intro verb p' heq
        simp [hbegan] at heq
      . intro p' e' phone' heq
        simp only [hbegan, Event.ready.injEq] at heq
        rcases heq with ⟨rfl, rfl, rfl⟩
        exact horigin ▸ h
    unfold Event.task
    dsimp only
    split
    . next hrefuses =>
      apply Outline.Safe.mono (safe_rejectRebind (b := Local.first (.ready p e phone) s) rfl rfl hrefuses hfirst)
      . exact fun _ _ h => h.mono fun _ h => hfinished h.1.began h.1.origin fun _ => h.2
      . exact fun _ _ h => h.mono fun _ h => hfinished h.1.began h.1.origin fun _ => h.2
    . next hrefuses =>
      exact hstays.mono fun _ h => hfinished h.began h.origin fun h => absurd h hrefuses
  | start p =>
    apply hdone (by simp) (by simp)
    have hstart : Knows i (fun loc => loc.began = .start p ∧ loc.began = .start p) w :=
      hsame.mono fun _ h => ⟨h, h⟩
    exact safe_start (b := Local.first (.start p) s) rfl hstart fun _ h => .inl h
  | stopOrphanEngines p => exact hdone (by simp) (by simp) (safe_stopOrphanEngines_same rfl hsame)
  | serviceStart p => exact hdone (by simp) (by simp) (safe_serviceStart rfl hsame)
  | serviceStop p => exact hdone (by simp) (by simp) (safe_serviceStop rfl hsame)
  | serviceLogout p => exact hdone (by simp) (by simp) (safe_releaseUnlessRefused rfl .logout hsame)
  | serviceForceKill p => exact hdone (by simp) (by simp) (safe_releaseUnlessRefused rfl .forceKill hsame)
  | disconnected p e unlink =>
    apply hdone (by simp) (by simp)
    unfold Event.task
    dsimp only
    split
    . apply Outline.Safe.mono (safe_handleEngineDisconnected rfl unlink hstays)
      . exact fun _ _ h => h.mono fun _ h => h.began
      . exact fun _ _ h => h.mono fun _ h => h.began
    . exact hsame
  | watchdog p e =>
    apply hdone (by simp) (by simp)
    unfold Event.task
    dsimp only
    split
    . apply Outline.Safe.mono (safe_handleEngineDisconnected rfl false hstays)
      . exact fun _ _ h => h.mono fun _ h => h.began
      . exact fun _ _ h => h.mono fun _ h => h.began
    . exact hsame
  | timer p k =>
    apply hdone (by simp) (by simp)
    unfold Event.task
    dsimp only
    split
    . split
      . exact hsame
      . next hstopping =>
        apply safe_executeReconnect rfl rfl rfl ?_ hfirst
        intro e he
        exact ⟨Bool.eq_false_iff.mpr hstopping, he⟩
    . exact hsame
  | heartbeat p => exact hdone (by simp) (by simp) (safe_renew rfl hsame)
  | sweep p strandedAfter => exact hdone (by simp) (by simp) (safe_sweep rfl hsame)
  | qrCode | stateChanged | error | database | tick | boot | crash => exact hdone (by simp) (by simp) hsame

theorem control_valid : (control noteExt).Valid where
  refl _ _ := rfl
  trans _ _ _ _ h h' := Eq.trans h' h
  event w v s t _ _ hevent := by
    simp only [sessionSystem, sessionEvent] at hevent
    split at hevent
    . next henabled =>
      simp only [Option.some.injEq, Prod.mk.injEq] at hevent
      rcases hevent with ⟨rfl, rfl⟩
      refine ⟨⟨⟨henabled, rfl⟩, trivial, ?_⟩, ?_⟩
      . intro j _ hne
        simp [control, System.after, sessionSystem, Trace.note, Act.tid, hne]
      . apply safe_task
        refine ⟨_, ?_, rfl⟩
        simp [System.after, sessionSystem, Trace.note, Act.tid, Local.first]
    . contradiction

variable {ok : SessionWorld δ → Act Event Answer Loc → Prop} {init c c' : SessionConfig δ}

theorem holds_of_reach (hpool : init.pool = []) (h : (sessionSystem noteExt).Reach ok init c) :
    (control noteExt).Holds c :=
  control_valid.holds trivial hpool (h.mono fun _ _ _ => trivial)

theorem controlled_of_reach (hpool : init.pool = []) (h : (sessionSystem noteExt).Reach ok init c)
    {m : Move Event Answer} {a : Act Event Answer Loc} (hstep : (sessionSystem noteExt).step c m = some (a, c')) :
    Controlled c.world a c'.world :=
  control_valid.chk_of_reach trivial hpool (h.mono fun _ _ _ => trivial) hstep trivial

theorem within_of_reach (hpool : init.pool = []) (h : (sessionSystem noteExt).Reach ok init c) {i : Nat}
    {t : Job Unit} (hget : c.pool[i]? = some t) : Knows i (fun loc => Within loc.began t) c.world := by
  induction h generalizing i t with
  | init => simp [hpool] at hget
  | @step c₁ c₂ a m hreach hstep _ ih =>
    rcases System.step_cases hstep with
      ⟨v, t', rfl, hevent, hpool, hw⟩ | ⟨tid, pt, ready, upd, next, x, rfl, hturn, _, _, hpool, hw⟩
    . rw [hpool] at hget
      rw [hw]
      simp only [sessionSystem, sessionEvent] at hevent
      split at hevent
      . simp only [Option.some.injEq, Prod.mk.injEq] at hevent
        rcases getElem?_start hget with hget | ⟨rfl, rfl⟩
        . have hlt := (List.getElem?_eq_some_iff.mp hget).1
          rcases ih hget with ⟨loc, hlocal, hwithin⟩
          refine ⟨loc, ?_, hwithin⟩
          rw [← hlocal]
          simp [System.after, sessionSystem, Trace.note, Act.tid, Nat.ne_of_lt hlt]
        . refine ⟨Local.first v c₁.st, ?_, hevent.2 ▸ within_task v c₁.st⟩
          simp [System.after, sessionSystem, Trace.note, Act.tid, Local.first, Config.world]
      . contradiction
    . rcases ih hturn with ⟨loc, hlocal, hwithin⟩
      rw [hpool] at hget
      rw [hw]
      by_cases htid : tid = i
      . subst htid
        have hlt := (List.getElem?_eq_some_iff.mp hturn).1
        rw [List.getElem?_set_self hlt] at hget
        simp only [Option.some.injEq] at hget
        have hlocal : c₁.hist.locals tid = some loc := hlocal
        refine ⟨loc.turn pt x c₁.st, ?_, hget ▸ hwithin.2 x c₁.st⟩
        simp [System.after, sessionSystem, Trace.note, Act.tid, hlocal, Config.world]
      . rw [List.getElem?_set_ne htid] at hget
        rcases ih hget with ⟨loc, hlocal, hwithin⟩
        refine ⟨loc, ?_, hwithin⟩
        rw [← hlocal]
        simp [System.after, sessionSystem, Trace.note, Act.tid, Ne.symm htid]

/--
The induction principle for the runs of a session: an invariant only has to be kept by events, and by
turns that follow the control flow of a function of their event.
-/
theorem inv_of_reach {inv : SessionWorld δ → Prop} (hpool : init.pool = []) (hinit : inv init.world)
    (hevent : ∀ w v, inv w → ok w (.event w.started v) → v.enabled w.st = true →
      inv ((sessionSystem noteExt).after w (.event w.started v) (v.effect w.st)))
    (hturn : ∀ w tid l x loc, inv w → ok w (.turn tid l x) → w.hist.locals tid = some loc → loc.precedes l →
      loc.began.covers l.place = true → guard l x w.st = true →
      inv ((sessionSystem noteExt).after w (.turn tid l x) (effect l x w.st)))
    (h : (sessionSystem noteExt).Reach ok init c) : inv c.world := by
  induction h with
  | init => exact hinit
  | step m hreach hstep hok ih =>
    have hcontrolled := controlled_of_reach hpool hreach hstep
    rcases System.step_cases hstep with
      ⟨v, t, rfl, hev, _, hw⟩ | ⟨tid, pt, ready, upd, next, x, rfl, hget, _, _, _, hw⟩
    . rcases hcontrolled with ⟨henabled, heffect⟩
      rw [hw, ← Config.st_world, heffect]
      exact hevent _ v ih hok henabled
    . rcases hcontrolled with ⟨hguard, heffect, loc, hlocal, hprecedes⟩
      rcases within_of_reach hpool hreach hget with ⟨loc', hlocal', hwithin⟩
      have heq : loc' = loc := by
        rw [hlocal] at hlocal'
        exact (Option.some.inj hlocal').symm
      rw [hw, ← Config.st_world, heffect]
      exact hturn _ tid pt x loc ih hok hlocal hprecedes (heq ▸ hwithin.1) hguard

end Runs

section Plain

/-- The functions and events of one session without a history of the run. -/
def plainSystem : System State Answer Loc LifecycleError Event (Trace Unit) :=
  sessionSystem fun _ _ _ u => u

/-- One process that has just booted, and a linked session that is down. -/
def idleState : State where
  row := some ⟨.disconnected, some ['6', '2'], none, none, none⟩
  writes := []
  rejected := []
  issued := 0
  now := 0
  leaseTtl := 60000
  host := id
  alive := [0]
  crashed := []
  node := fun _ => Node.booted

def idle : SessionConfig Unit where
  st := idleState
  hist := ⟨fun _ => none, ()⟩
  pool := []

/-- A start of the process 0 up to the call of `initialize()`, as the activation `tid` with the write `w`. -/
def launch (tid w : Nat) : List (Move Event Answer) :=
  [.event (.start 0), .turn tid .ok, .turn tid .ok, .turn tid .ok, .turn tid .ok, .turn tid .ok,
    .event (.database w false), .turn tid .ok]

/-- The rest of that start. -/
def settleStart (tid : Nat) : List (Move Event Answer) :=
  [.turn tid .ok, .turn tid .ok, .turn tid .ok, .turn tid .ok, .turn tid .ok]

end Plain
end OpenWA.Lifecycle
