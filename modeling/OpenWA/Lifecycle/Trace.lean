import OpenWA.Async.Outline
import OpenWA.Lifecycle.Service

/-!
This module contains the history of an activation and what the control flow of the functions implies
for it: which turns may precede a turn, and with which values. The functions are walked through once
here, so that a property of the runs only has to be checked for the single turns.
-/

namespace OpenWA.Lifecycle

open Async

/-- A turn of an activation: its place, what its await settled with and the state it found. -/
structure Turn where
  place : Place
  answer : Answer
  before : State

/--
What an activation has done: the event it began with and the state it found, its last turn, the
engine it created last, and whether it holds the reservation of `initializingSessions`.
-/
structure Local where
  began : Event
  origin : State
  last : Option Turn
  created : Option Nat
  holding : Bool

/-- The history after another turn. -/
def Local.turn (loc : Local) (l : Loc) (x : Answer) (s : State) : Local :=
  { loc with
    last := some ⟨l.place, x, s⟩
    created :=
      match l.place with
      | .startCreate _ | .reconnectCreate .. => some (s.node l.pid).created
      | _ => loc.created
    holding :=
      match l.place with
      | .startReserve => loc.holding || !(s.node l.pid).initializing
      | .startRelease => false
      | _ => loc.holding }

/-- The histories of the activations, and a history of the whole run. -/
structure Trace (δ : Type) where
  locals : Nat → Option Local
  ext : δ

def Trace.note {δ : Type} (noteExt : Act Event Answer Loc → State → State → δ → δ)
    (a : Act Event Answer Loc) (s s' : State) (trace : Trace δ) : Trace δ where
  locals := fun i =>
    if i = a.tid then
      match a with
      | .event _ v => some ⟨v, s, none, none, false⟩
      | .turn _ l x => (trace.locals i).map fun loc => loc.turn l x s
    else
      trace.locals i
  ext := noteExt a s s' trace.ext

/-- The functions and events of one session, with a history of the run. -/
def sessionSystem {δ : Type} (noteExt : Act Event Answer Loc → State → State → δ → δ) :
    System State Answer Loc LifecycleError Event (Trace δ) where
  event := sessionEvent
  note := Trace.note noteExt

abbrev SessionWorld (δ : Type) := World State (Trace δ)

abbrev SessionConfig (δ : Type) := Config State Answer Loc LifecycleError (Trace δ)

/-- The history of an activation that just began. -/
def Local.first (v : Event) (s : State) : Local := ⟨v, s, none, none, false⟩

section Locals

variable {δ : Type} {noteExt : Act Event Answer Loc → State → State → δ → δ}
variable {w : SessionWorld δ} {s : State} {tid : Nat} {l : Loc} {x : Answer} {loc : Local} {v : Event}

/-- No activation has a history before it began. -/
def Fresh (w : SessionWorld δ) : Prop := ∀ tid, w.started ≤ tid → w.hist.locals tid = none

theorem Fresh.lt (h : Fresh w) (hlocal : w.hist.locals tid = some loc) : tid < w.started := by
  by_contra hlt
  rw [h tid (Nat.not_lt.mp hlt)] at hlocal
  contradiction

theorem locals_turn (h : w.hist.locals tid = some loc) (i : Nat) :
    ((sessionSystem noteExt).after w (.turn tid l x) s).hist.locals i =
      if i = tid then some (loc.turn l x w.st) else w.hist.locals i := by
  by_cases hi : i = tid
  . simp [System.after, sessionSystem, Trace.note, Act.tid, hi, h]
  . simp [System.after, sessionSystem, Trace.note, Act.tid, hi]

theorem locals_event (i : Nat) :
    ((sessionSystem noteExt).after w (.event w.started v) s).hist.locals i =
      if i = w.started then some (Local.first v w.st) else w.hist.locals i := by
  by_cases hi : i = w.started
  . simp [System.after, sessionSystem, Trace.note, Act.tid, Local.first, hi]
  . simp [System.after, sessionSystem, Trace.note, Act.tid, hi]

theorem Fresh.turn (h : Fresh w) (hlocal : w.hist.locals tid = some loc) :
    Fresh ((sessionSystem noteExt).after w (.turn tid l x) s) := by
  intro i hi
  rw [locals_turn hlocal]
  have hlt := h.lt hlocal
  have hle : w.started ≤ i := hi
  rw [if_neg (by omega)]
  exact h i hle

theorem Fresh.event (h : Fresh w) : Fresh ((sessionSystem noteExt).after w (.event w.started v) s) := by
  intro i hi
  rw [locals_event]
  have hle : w.started + 1 ≤ i := hi
  rw [if_neg (by omega)]
  exact h i (by omega)

theorem forall_turn {P : Nat → Local → Prop} (hlocal : w.hist.locals tid = some loc)
    (hself : P tid (loc.turn l x w.st)) (h : ∀ i loc', i ≠ tid → w.hist.locals i = some loc' → P i loc') :
    ∀ i loc', ((sessionSystem noteExt).after w (.turn tid l x) s).hist.locals i = some loc' → P i loc' := by
  intro i loc' hi
  rw [locals_turn hlocal] at hi
  split at hi
  . next htid =>
    simp only [Option.some.injEq] at hi
    exact htid ▸ hi ▸ hself
  . next htid => exact h i loc' htid hi

theorem forall_event {P : Nat → Local → Prop} (hself : P w.started (Local.first v w.st))
    (h : ∀ i loc', w.hist.locals i = some loc' → P i loc') :
    ∀ i loc', ((sessionSystem noteExt).after w (.event w.started v) s).hist.locals i = some loc' → P i loc' := by
  intro i loc' hi
  rw [locals_event] at hi
  split at hi
  . next htid =>
    simp only [Option.some.injEq] at hi
    exact htid ▸ hi ▸ hself
  . exact h i loc' hi

/-- Some activation has a history that satisfies `f`. -/
def anyLocal (w : SessionWorld δ) (f : Local → Bool) : Bool :=
  (List.range w.started).any fun tid => (w.hist.locals tid).any f

theorem anyLocal_iff (h : Fresh w) {f : Local → Bool} :
    anyLocal w f = true ↔ ∃ tid loc, w.hist.locals tid = some loc ∧ f loc = true := by
  simp only [anyLocal, List.any_eq_true, List.mem_range, Option.any_eq_true]
  constructor
  . rintro ⟨tid, _, loc, hlocal, hf⟩
    exact ⟨tid, loc, hlocal, hf⟩
  . rintro ⟨tid, loc, hlocal, hf⟩
    exact ⟨tid, h.lt hlocal, loc, hlocal, hf⟩

theorem anyLocal_turn (h : Fresh w) (hlocal : w.hist.locals tid = some loc) {f : Local → Bool}
    (hany : anyLocal ((sessionSystem noteExt).after w (.turn tid l x) s) f = true) :
    anyLocal w f = true ∨ f (loc.turn l x w.st) = true := by
  rw [anyLocal_iff (h.turn hlocal)] at hany
  rcases hany with ⟨i, loc', hi, hf⟩
  rw [locals_turn hlocal] at hi
  split at hi
  . simp only [Option.some.injEq] at hi
    exact .inr (hi ▸ hf)
  . exact .inl ((anyLocal_iff h).mpr ⟨i, loc', hi, hf⟩)

theorem anyLocal_event (h : Fresh w) {f : Local → Bool}
    (hany : anyLocal ((sessionSystem noteExt).after w (.event w.started v) s) f = true) :
    anyLocal w f = true ∨ f (Local.first v w.st) = true := by
  rw [anyLocal_iff h.event] at hany
  rcases hany with ⟨i, loc', hi, hf⟩
  rw [locals_event] at hi
  split at hi
  . simp only [Option.some.injEq] at hi
    exact .inr (hi ▸ hf)
  . exact .inl ((anyLocal_iff h).mpr ⟨i, loc', hi, hf⟩)

end Locals

/-- The last turn of an activation satisfies `P`. -/
def Local.came (loc : Local) (P : Place → Answer → State → Prop) : Prop :=
  ∃ pt x s, loc.last = some ⟨pt, x, s⟩ ∧ P pt x s

/-- The write that a retiring verb announces the end of the session with was issued by the turn. -/
def announces (p : Nat) (v : Verb) (w : Nat) (pt : Place) (x : Answer) (s : State) : Prop :=
  w = s.issued ∧
    (pt = .retireMark .stop ∧ v = .stop ∧ (s.node p).engine = none ∨
      (∃ e, pt = .retireTeardown v e) ∧ ¬(v = .stop ∧ x = .failed) ∨ (∃ e, pt = .retireEscalated e) ∧ v = .stop)

/-- The turn after which a launch takes its session for retired. -/
def sawRetired (p : Nat) (pt : Place) (x : Answer) (s : State) : Prop :=
  pt = .startLaunched ∧ (s.node p).stopping = true ∨
    (∃ k e, pt = .reconnectLaunched k e ∧ ((s.node p).reconnectLaunched k).stopping = true) ∨
    pt = .retiredFind ∧ x ≠ .fault ∧ s.row = none

/-- The turn that ended the launch of `e` with an error. -/
def launchFailed (p e : Nat) (pt : Place) (x : Answer) (s : State) : Prop :=
  pt = .initialStatus e ∧ s.launchRejected (s.node p) e = true ∨
    (∃ err, pt = .initialised e ∧ x = .rejected err) ∨ ∃ w, pt = .timeoutStatus w

/-- What the control flow implies for an activation that is about to take a turn. -/
def Local.precedes (loc : Local) (l : Loc) : Prop :=
  loc.began.pid? = some l.pid ∧
    match l.place with
    | .initialStatus e | .initialised e => loc.created = some e
    | .timeoutTeardown e => loc.created = some e ∧ loc.came fun pt x _ => pt = .initialised e ∧ x = .deadline
    | .timeoutStatus _ => ∃ e, loc.created = some e ∧ loc.came fun pt _ _ => pt = .timeoutTeardown e
    | .startReserve =>
      loc.began = .start l.pid ∨ loc.came fun pt _ _ => pt = .retryBegin ∨ pt = .claimed true
    | .startFind | .startChecks | .startPrepare | .startCreate _ | .startRelease => loc.holding = true
    | .resurrected => loc.came (sawRetired l.pid)
    | .resurrectedTeardown e => loc.came fun pt _ s => pt = .resurrected ∧ (s.node l.pid).engine = some e
    | .dropStopMark => loc.came fun pt x s => (∃ v, pt = .retireFind v) ∧ (x = .fault ∨ s.row = none)
    | .retireInitial v e _ =>
      loc.came fun pt _ s => pt = .retireMark v ∧ (s.node l.pid).engine = some e
    | .retireTeardown v e => loc.came fun pt x s => ∃ pending, pt = .retireInitial v e pending ∧
        (x = .ok && pending && s.launchRejected (s.node l.pid) e) = false
    | .retireEscalated e => loc.came fun pt _ _ => pt = .retireTeardown .stop e
    | .retireStatus v _ w => v ≠ .delete ∧ loc.came (announces l.pid v w)
    | .retirePhone _ => loc.came fun pt _ _ => ∃ e w, pt = .retireStatus .logout e w
    | .retireDone v => v ≠ .delete ∧
      loc.came fun pt _ _ => (∃ e w, pt = .retireStatus v e w) ∨ ∃ w, pt = .retirePhone w
    | .orphanTeardown e => loc.came fun pt _ s => pt = .orphanMark ∧ (s.node l.pid).engine = some e
    | .rebindTeardown e => loc.last = none ∧
      ∃ phone, loc.began = .ready l.pid e phone ∧ (loc.origin.node l.pid).refuses e phone = true
    | .rebindStatus _ => loc.came fun pt _ _ => ∃ e, pt = .rebindTeardown e
    | .disconnected e _ session => loc.came fun pt x s => pt = .disconnectFind e ∧ x ≠ .fault ∧ s.row = some session
    | .oldTeardown k e => loc.last = none ∧ loc.began = .timer l.pid k ∧ loc.created = none ∧
      (loc.origin.node l.pid).stopping = false ∧ (loc.origin.node l.pid).engine = some e
    | .oldForceDestroy k e => loc.began = .timer l.pid k ∧ loc.came fun pt _ _ => pt = .oldTeardown k e
    | .reconnectFence k | .reconnectCreate k _ => loc.began = .timer l.pid k ∧ loc.created = none
    | .reconnectLaunched k e => loc.began = .timer l.pid k ∧ loc.created = some e
    | .reconnectFailed k _ launched _ => loc.began = .timer l.pid k ∧ loc.created = launched ∧
      ∀ e, launched = some e → loc.came (launchFailed l.pid e)
    | .claim now => loc.came fun pt _ s => pt = .claimCall ∧ now = s.now
    | .claimed ok => loc.came fun pt x s =>
        ∃ now, pt = .claim now ∧ x ≠ .fault ∧ ok = s.affects (s.claimable l.pid now)
    | .retryBegin => loc.came fun pt _ _ => pt = .claimed true
    | .release now => loc.came fun pt _ s =>
        pt = .releaseCheck ∧ (s.node l.pid).isEngineActive = false ∧ now = s.now
    | .renewVerdict kept => loc.came fun pt x s =>
        pt = .renewFind ∧ x ≠ .fault ∧ kept = s.affects fun row => row.nodeId = some (s.host l.pid)
    | _ => True

/--
What an activation that finished did: a verb that resolved came to its last read, and an engine that
linked a refused account was taken down.
-/
def Local.finished (loc : Local) (r : Except LifecycleError Unit) : Prop :=
  (∀ v p, loc.began = .verb v p → v ≠ .delete → r = .ok () → loc.came fun pt _ _ => pt = .retireDone v) ∧
    (∀ p e phone, loc.began = .ready p e phone → (loc.origin.node p).refuses e phone = true → loc.last.isSome = true)

section Rules

variable {δ : Type} {noteExt : Act Event Answer Loc → State → State → δ → δ}

/-- The activation `i` has a history that satisfies `P`. -/
def Knows (i : Nat) (P : Local → Prop) (w : SessionWorld δ) : Prop :=
  ∃ loc, w.hist.locals i = some loc ∧ P loc

/-- What every step shows: an event happens as it is defined, and a turn follows the control flow. -/
def Controlled (w : SessionWorld δ) (a : Act Event Answer Loc) (w' : SessionWorld δ) : Prop :=
  match a with
  | .event _ v => v.enabled w.st = true ∧ w'.st = v.effect w.st
  | .turn tid l x => guard l x w.st = true ∧ w'.st = effect l x w.st ∧
    ∃ loc, w.hist.locals tid = some loc ∧ loc.precedes l

def control (noteExt : Act Event Answer Loc → State → State → δ → δ) :
    Outline (sessionSystem noteExt) where
  ok := System.anyStep
  inv _ := True
  rely i w w' := w'.hist.locals i = w.hist.locals i
  chk := Controlled
  post i r := Knows i fun loc => loc.finished r

variable {i p : Nat} {w : SessionWorld δ} {P : Local → Prop}

theorem Knows.mono {P' : Local → Prop} (h : Knows i P w) (hP : ∀ loc, P loc → P' loc) : Knows i P' w := by
  rcases h with ⟨loc, hloc, h⟩
  exact ⟨loc, hloc, hP loc h⟩

theorem safe_run {α : Type} {pt : Place} {result : Answer → State → Except LifecycleError α}
    {Q : α → SessionWorld δ → Prop} {E : LifecycleError → SessionWorld δ → Prop} (h : Knows i P w)
    (hpre : ∀ loc, P loc → loc.precedes ⟨p, pt⟩)
    (hok : ∀ loc x s a, P loc → guard ⟨p, pt⟩ x s = true → result x s = .ok a →
      ∀ w, Knows i (· = loc.turn ⟨p, pt⟩ x s) w → Q a w)
    (herr : ∀ loc x s e, P loc → guard ⟨p, pt⟩ x s = true → result x s = .error e →
      ∀ w, Knows i (· = loc.turn ⟨p, pt⟩ x s) w → E e w) :
    (control noteExt).Safe i (run p pt result) w Q E := by
  intro w' x hrely _ _ hready _
  rcases h with ⟨loc, hloc, hP⟩
  have hloc' : w'.hist.locals i = some loc := hrely.trans hloc
  have hnew : Knows i (· = loc.turn ⟨p, pt⟩ x w'.st)
      ((sessionSystem noteExt).after w' (.turn i ⟨p, pt⟩ x) (effect ⟨p, pt⟩ x w'.st)) := by
    refine ⟨_, ?_, rfl⟩
    simp [System.after, sessionSystem, Trace.note, Act.tid, hloc']
  refine ⟨⟨⟨hready, rfl, loc, hloc', hpre loc hP⟩, trivial, ?_⟩, ?_⟩
  . intro j _ hne
    simp [control, System.after, sessionSystem, Trace.note, Act.tid, hne]
  . apply Outline.safe_ofExcept
    . intro a ha
      exact hok loc x w'.st a hP hready ha _ hnew
    . intro e he
      exact herr loc x w'.st e hP hready he _ hnew

end Rules
end OpenWA.Lifecycle
