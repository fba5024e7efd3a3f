import OpenWA.Lifecycle.Control
import OpenWA.Lifecycle.Memory

/-!
This module contains the finality of `stop`, `logout` and `forceKill`: which steps of a start or of a
reconnect attempt may undo the mark of the last operator verb, and that otherwise the verb leaves no
engine behind and DISCONNECTED as the last status.
-/

namespace OpenWA.Lifecycle

open Async

/--
The last operator verb that was called, if it is a retiring one: its activation, whether it has marked
the session, the engine it captured then, and whether it has issued its DISCONNECTED.
-/
structure Retiring where
  tid : Nat
  marked : Bool
  captured : Option Nat
  issued : Bool
deriving DecidableEq

/-- What a turn of its own activation adds. -/
def Retiring.turn (r : Retiring) (l : Loc) (x : Answer) (s : State) : Retiring :=
  match l.place with
  | .retireMark v =>
    let captured := (s.node l.pid).engine
    { r with
      marked := r.marked || captured.isSome || v = .stop
      captured := captured
      issued := r.issued || captured.isNone && v = .stop }
  | .retireTeardown v _ => { r with issued := r.issued || !(v = .delete || v = .stop && x = .failed) }
  | .retireEscalated _ => { r with issued := true }
  | _ => r

/-- The history of the last operator verb. -/
def noteVerb (a : Act Event Answer Loc) (s _s' : State) (last : Option Retiring) : Option Retiring :=
  match a with
  | .event _ (.start _) => none
  | .event tid (.verb _ _) => some ⟨tid, false, none, false⟩
  | .event _ _ => last
  | .turn tid l x => last.map fun r => if r.tid = tid then r.turn l x s else r

/-- The events of one node: operator verbs, engine callbacks, watchdog verdicts, timers, and the database. -/
def Event.operates (p : Nat) (v : Event) : Bool :=
  match v with
  | .start q | .ready q .. | .qrCode q _ | .stateChanged q .. | .disconnected q .. | .error q .. | .watchdog q _
  | .timer q _ => q = p
  | .verb u q => u ≠ .delete && q = p
  | .database _ fault => !fault
  | .tick _ => true
  | _ => false

section Condition

variable {δ : Type} (p : Nat)

/-- The steps of one node without a fault, in which the writes take effect in the order of their issue. -/
def Operated (w : SessionWorld δ) (a : Act Event Answer Loc) : Prop :=
  match a with
  | .event _ v =>
    v.operates p = true ∧
      match v with
      | .database i _ => w.st.isNext i = true
      | _ => True
  | .turn _ _ x => x ≠ .fault

instance (w : SessionWorld δ) (a : Act Event Answer Loc) : Decidable (Operated p w a) :=
  match a with
  | .event _ v => by
    unfold Operated
    cases v <;> infer_instance
  | .turn _ _ x => inferInstanceAs (Decidable (x ≠ .fault))

/--
The condition on the steps of a run: no start clears the mark of the last operator verb, no engine is
registered and no start stores its FAILED while the stop mark is set.
-/
def Final (w : SessionWorld (Option Retiring)) (a : Act Event Answer Loc) : Prop :=
  Operated p w a ∧
    match a with
    | .event .. => True
    | .turn _ l x =>
      match l.place with
      | .startPrepare => x = .deadline ∨ w.hist.ext.all (fun r => !r.marked) = true
      | .startCreate _ | .reconnectCreate .. | .startFailedTeardown _ => (w.st.node p).stopping = false
      | _ => True

/-- What `Final` says at a place, as a test. -/
def finalAt (w : SessionWorld (Option Retiring)) (x : Answer) (pt : Place) : Bool :=
  match pt with
  | .startPrepare => x = .deadline || w.hist.ext.all fun r => !r.marked
  | .startCreate _ | .reconnectCreate .. | .startFailedTeardown _ => !(w.st.node p).stopping
  | _ => true

theorem finalAt_iff (w : SessionWorld (Option Retiring)) (x : Answer) (pt : Place) :
    finalAt p w x pt = true ↔
      match pt with
      | .startPrepare => x = .deadline ∨ w.hist.ext.all (fun r => !r.marked) = true
      | .startCreate _ | .reconnectCreate .. | .startFailedTeardown _ => (w.st.node p).stopping = false
      | _ => True := by
  cases pt <;> simp [finalAt]

instance (w : SessionWorld (Option Retiring)) (a : Act Event Answer Loc) : Decidable (Final p w a) :=
  match a with
  | .event .. => inferInstanceAs (Decidable (_ ∧ True))
  | .turn k l x =>
    decidable_of_iff (Operated p w (.turn k l x) ∧ finalAt p w x l.place = true)
      (and_congr_right' (finalAt_iff p w x l.place))

end Condition

/-- The turns that may take the stop mark away. -/
def Place.unmarks (pt : Place) : Bool :=
  match pt with
  | .startPrepare | .dropStopMark | .deleteDone | .stopHeldFault | .discardStopMark => true
  | _ => false

namespace Node

variable (n : Node)

@[simp] theorem deleteIfLive_stopping (e : Nat) : (n.deleteIfLive e).stopping = n.stopping := by
  unfold deleteIfLive; split <;> rfl

@[simp] theorem clearOperatorTeardown_stopping (e : Nat) : (n.clearOperatorTeardown e).stopping = n.stopping := by
  unfold clearOperatorTeardown; split <;> rfl

@[simp] theorem tear_stopping (e : Nat) : (n.tear e).stopping = n.stopping := rfl

@[simp] theorem evictAndForceDestroy_stopping (e : Nat) : (n.evictAndForceDestroy e).stopping = n.stopping := rfl

@[simp] theorem setState_stopping (k : Nat) (f : ReconnectState → ReconnectState) :
    (n.setState k f).stopping = n.stopping := rfl

@[simp] theorem evictRegistered_stopping : n.evictRegistered.stopping = n.stopping := by
  unfold evictRegistered; split <;> rfl

@[simp] theorem tearRegistered_stopping : n.tearRegistered.stopping = n.stopping := by
  unfold tearRegistered; split <;> rfl

@[simp] theorem retire_stopping : n.retire.stopping = true := by simp [retire]

@[simp] theorem retireEvict_stopping (v : Verb) (e : Nat) (b : Bool) :
    (n.retireEvict v e b).stopping = n.stopping := by
  unfold retireEvict; split <;> simp

@[simp] theorem resumeLaunch_stopping (e : Nat) (b : Bool) : (n.resumeLaunch e b).stopping = n.stopping := by
  unfold resumeLaunch dropInitialStatus; split <;> split <;> rfl

@[simp] theorem runFailure_stopping (f : Failure) : (n.runFailure f).stopping = n.stopping := by
  unfold runFailure; split <;> simp

@[simp] theorem scheduleReconnect_stopping (session : Session) :
    (n.scheduleReconnect session).stopping = n.stopping := by
  unfold scheduleReconnect; split <;> (try split) <;> simp

@[simp] theorem settleLaunch_stopping (k : Nat) (b : Bool) : (n.settleLaunch k b).stopping = n.stopping := rfl

@[simp] theorem reconnectLaunched_stopping (k : Nat) : (n.reconnectLaunched k).stopping = n.stopping := by
  unfold reconnectLaunched; split <;> simp

@[simp] theorem reconnectFailed_stopping (k : Nat) (session : Session) (b : Bool) (err : LifecycleError) :
    (n.reconnectFailed k session b err).stopping = n.stopping := by
  unfold reconnectFailed; split <;> (try split) <;> (try split) <;> simp

variable {n}

theorem retireMark_stopping (v : Verb) (h : n.stopping = true) : (n.retireMark v).stopping = true := by
  unfold retireMark
  split <;> simp [h]

theorem memory_stopping {pt : Place} (hpt : pt.unmarks = false) (x : Answer) (s : State) (h : n.stopping = true) :
    (pt.memory x s n).stopping = true := by
  cases pt with
  | startPrepare | dropStopMark | deleteDone | stopHeldFault | discardStopMark => contradiction
  | retireMark v => exact retireMark_stopping v h
  | initialised e => unfold Place.memory; dsimp only; split <;> simp [h]
  | startFailed => unfold Place.memory evictOrphan; dsimp only; split <;> simp [h]
  | startFailedTeardown e => unfold Place.memory; dsimp only; split <;> simp [h]
  | retireInitial v e pending =>
    unfold Place.memory retireInitial; dsimp only; split <;> (try split) <;> simp [h]
  | retireTeardown v e => unfold Place.memory; dsimp only; split <;> simp [h]
  | retireStatus v e w => cases e <;> simp [Place.memory, h]
  | disconnected e unlink session => unfold Place.memory disconnected; dsimp only; split <;> simp [h]
  | oldTeardown k e => unfold Place.memory; dsimp only; split <;> simp [h]
  | releaseCheck => unfold Place.memory giveUp; dsimp only; split <;> simp [h]
  | claimed ok => cases ok <;> exact h
  | renewVerdict kept => cases kept <;> exact h
  | _ => simp [Place.memory, createEngine, setEngine, setReconnect, h]

theorem event_stopping {v : Event} (hboot : ∀ p, v ≠ .boot p) (hcrash : ∀ p, v ≠ .crash p)
    (h : n.stopping = true) : (v.memory n).stopping = true := by
  cases v with
  | ready p e phone =>
    unfold Event.memory onReady accept
    dsimp only
    split <;> (try split) <;> (try split) <;> simp [h]
  | stateChanged p e status =>
    rcases n.parksOnly_onStateChanged e status with ⟨parked, heq⟩
    rw [Event.memory, heq]
    exact h
  | error p e terminal =>
    rcases n.onError_cases e terminal with ⟨parked, heq⟩ | ⟨_, heq⟩
    . rw [Event.memory, heq]
      exact h
    . rw [Event.memory, heq, runFailure_stopping]
      exact h
  | timer p k => unfold Event.memory beginReconnect spendTimer; dsimp only; split <;> (try split) <;> simp [h]
  | boot p => exact absurd rfl (hboot p)
  | crash p => exact absurd rfl (hcrash p)
  | _ => exact h

end Node

section Quiet

variable {n : Node} {s : State} {x : Answer}

/-- The turns that store a status other than DISCONNECTED although no engine is registered. -/
def Place.stores (pt : Place) : Bool :=
  match pt with
  | .startCreate _ | .reconnectCreate .. | .startFailedTeardown _ => true
  | _ => false

/-- A write that leaves a session DISCONNECTED that is. -/
def Write.quiet (w : Write) : Prop := w = .status .disconnected ∨ w = .clearPhone

theorem sends_quiet {pt : Place} (hpt : pt.stores = false) (hengine : n.engine = none) (hreconnect : n.reconnect = none) :
    ∀ w ∈ pt.sends x s n, w.quiet := by
  cases pt with
  | startCreate | reconnectCreate | startFailedTeardown => contradiction
  | retireMark v => cases v <;> simp [Place.sends, hengine, Write.quiet]
  | retireTeardown v e => simp only [Place.sends]; split <;> simp [Write.quiet]
  | retireStatus v e w => cases v <;> simp only [Place.sends] <;> (try split) <;> simp [Write.quiet]
  | deleteFenceAgain e => cases e <;> simp only [Place.sends] <;> (try split) <;> simp [Write.quiet]
  | rebindTeardown e => simp [Place.sends, Node.isLive, hengine]
  | disconnected e unlink session => simp [Place.sends, Node.disconnectedWrites, Node.isLive, hengine]
  | reconnectLaunched k e => simp [Place.sends, Node.parked, hreconnect]
  | reconnectFailed k session launched err => simp [Place.sends, Node.reconnectFailedWrites, hreconnect]
  | _ => simp [Place.sends, Write.quiet]

theorem event_sends_quiet {v : Event} (hengine : n.engine = none) : v.sends n = [] := by
  cases v <;> simp [Event.sends, Node.isLive, Node.reports, hengine]

theorem applyAll_quiet {ws : List Write} {row : Session} (hws : ∀ w ∈ ws, w.quiet)
    (hrow : row.status = .disconnected) : (State.applyAll ws row).status = .disconnected := by
  induction ws generalizing row with
  | nil => exact hrow
  | cons w ws ih =>
    refine ih (fun w' hw' => hws w' (List.mem_cons_of_mem _ hw')) ?_
    rcases hws w List.mem_cons_self with rfl | rfl
    . rfl
    . exact hrow

end Quiet

section Places

variable {v : Event} {p : Nat} {pt : Place} {s : State}

theorem statement_operated (hv : v.operates p = true) (hcovers : v.covers pt = true) (q : Nat) :
    pt.statement q s = s.row := by
  cases pt with
  | deleteRow | claim now | release now | renewUpdate now | sweepCorrect session goneBefore =>
    cases v <;> simp_all [Event.operates, Event.covers, Event.retires, Event.releases, Event.claims]
  | _ => rfl

theorem unmarks_operated (hv : v.operates p = true) (hcovers : v.covers pt = true) (hpt : pt.unmarks = true) :
    pt = .startPrepare ∨ pt = .dropStopMark := by
  cases pt with
  | startPrepare => exact .inl rfl
  | dropStopMark => exact .inr rfl
  | deleteDone | stopHeldFault | discardStopMark =>
    cases v <;> simp_all [Event.operates, Event.covers, Event.retires]
  | _ => contradiction

theorem pid_operated (hv : v.operates p = true) {q : Nat} (hpid : v.pid? = some q) : q = p := by
  cases v <;> simp_all [Event.operates, Event.pid?]

theorem ends_operated (hv : v.operates p = true) (q : Nat) : v ≠ .boot q ∧ v ≠ .crash q := by
  constructor
  . rintro rfl
    contradiction
  . rintro rfl
    contradiction

end Places

/-- What the last turn of the activation of a retiring verb tells about the history. -/
def Local.Tells (p : Nat) (loc : Local) (r : Retiring) : Prop :=
  match loc.last with
  | some ⟨.retireMark v, _, s⟩ =>
    ((s.node p).engine.isSome = true ∨ v = .stop → r.marked = true) ∧ r.captured = (s.node p).engine ∧
      ((s.node p).engine = none → v = .stop → r.issued = true)
  | some ⟨.retireInitial _ e _, _, _⟩ => r.marked = true ∧ r.captured = some e
  | some ⟨.retireTeardown v e, x, _⟩ =>
    r.marked = true ∧ r.captured = some e ∧ (v ≠ .delete → ¬(v = .stop ∧ x = .failed) → r.issued = true)
  | some ⟨.retireEscalated _, _, _⟩ | some ⟨.retireStatus .., _, _⟩ | some ⟨.retirePhone _, _, _⟩
  | some ⟨.retireDone _, _, _⟩ => r.issued = true
  | _ => True

theorem Local.Tells.turn {loc : Local} {l : Loc} {x : Answer} {s : State} {r : Retiring}
    (h : loc.Tells l.pid r) (hprecedes : loc.precedes l) : (loc.turn l x s).Tells l.pid (r.turn l x s) := by
  rcases l with ⟨p, pt⟩
  cases pt with
  | retireMark v =>
    refine ⟨fun hv => ?_, rfl, fun hengine hv => ?_⟩
    . rcases hv with hv | hv
      . simp [Retiring.turn, hv]
      . simp [Retiring.turn, hv]
    . simp [Retiring.turn, hengine, hv]
  | retireInitial v e pending =>
    rcases hprecedes.2 with ⟨pt, x', s', hlast, rfl, hengine⟩
    unfold Local.Tells at h
    rw [hlast] at h
    rcases h with ⟨hmarked, hcaptured, _⟩
    exact ⟨hmarked (.inl (by rw [hengine]; rfl)), hcaptured.trans hengine⟩
  | retireTeardown v e =>
    rcases hprecedes.2 with ⟨pt, x', s', hlast, pending, rfl, _⟩
    unfold Local.Tells at h
    rw [hlast] at h
    refine ⟨h.1, h.2, fun hv hx => ?_⟩
    simp only [Retiring.turn, Bool.or_eq_true, Bool.not_eq_true', Bool.or_eq_false_iff, Bool.and_eq_false_iff,
      decide_eq_false_iff_not]
    exact .inr ⟨hv, by tauto⟩
  | retireEscalated e => rfl
  | retireStatus v e w =>
    rcases hprecedes.2 with ⟨hv, pt, x', s', hlast, _, hpt⟩
    unfold Local.Tells at h
    rw [hlast] at h
    rcases hpt with ⟨rfl, rfl, hengine⟩ | ⟨⟨e, rfl⟩, hx⟩ | ⟨⟨e, rfl⟩, _⟩
    . exact h.2.2 hengine rfl
    . exact h.2.2 hv hx
    . exact h
  | retirePhone w =>
    rcases hprecedes.2 with ⟨pt, x', s', hlast, e, w, rfl⟩
    unfold Local.Tells at h
    rw [hlast] at h
    exact h
  | retireDone v =>
    rcases hprecedes.2 with ⟨_, pt, x', s', hlast, hpt⟩
    unfold Local.Tells at h
    rw [hlast] at h
    rcases hpt with ⟨e, w, rfl⟩ | ⟨w, rfl⟩
    . exact h
    . exact h
  | _ => trivial

/-- What holds in every state: a marked session has no other engine than the captured one. -/
structure StopFinal (p : Nat) (w : SessionWorld (Option Retiring)) : Prop where
  fresh : Fresh w
  began : ∀ tid loc, w.hist.locals tid = some loc → loc.began.operates p = true
  calm : ∀ tid loc, w.hist.locals tid = some loc → ∀ t, loc.last = some t →
    t.answer ≠ .fault ∧ t.before.row.isSome = true
  numbered : w.st.Numbered
  row : w.st.row.isSome = true
  tells : ∀ r, w.hist.ext = some r →
    ∃ loc, w.hist.locals r.tid = some loc ∧ (∃ v, loc.began = .verb v p) ∧ loc.Tells p r
  marked : ∀ r, w.hist.ext = some r → r.marked = true →
    (w.st.node p).stopping = true ∧ (w.st.node p).reconnect = none ∧
      ∀ e, (w.st.node p).engine = some e → r.captured = some e ∧ r.issued = false
  issued : ∀ r, w.hist.ext = some r → r.issued = true →
    r.marked = true ∧ ∃ row, w.st.outcome = some row ∧ row.status = .disconnected


section Turns

variable {p tid : Nat} {w : SessionWorld (Option Retiring)} {l : Loc} {x : Answer} {loc : Local} {r : Retiring}

abbrev verbSystem : System State Answer Loc LifecycleError Event (Trace (Option Retiring)) := sessionSystem noteVerb

theorem retireMark_marks {n : Node} {v : Verb} (h : n.engine.isSome = true ∨ v = .stop) :
    (n.retireMark v).stopping = true ∧ (n.retireMark v).reconnect = none := by
  have hreconnect : n.retire.reconnect = none := by simp [Node.retire]
  unfold Node.retireMark
  split
  . exact ⟨n.retire_stopping, hreconnect⟩
  . exact ⟨n.retire_stopping, hreconnect⟩
  . exact ⟨n.retire_stopping, hreconnect⟩
  . exact ⟨n.retire_stopping, hreconnect⟩
  . simp_all

theorem retireEvict_engine {n : Node} {v : Verb} {e : Nat} {tornDown : Bool} :
    (n.retireEvict v e tornDown).engine ≠ some e := by
  have hdelete : (n.deleteIfLive e).engine ≠ some e := by
    unfold Node.deleteIfLive
    split
    . simp
    . next hlive => simpa [Node.isLive] using hlive
  unfold Node.retireEvict
  split
  . rw [Node.clearOperatorTeardown_engine]
    exact hdelete
  . exact hdelete

namespace StopFinal

variable (hw : StopFinal p w) (hlocal : w.hist.locals tid = some loc) (hprecedes : loc.precedes l)
  (hcovers : loc.began.covers l.place = true) (hguard : guard l x w.st = true) (hok : Final p w (.turn tid l x))
include hw hlocal hprecedes hcovers hguard hok

omit hcovers hguard hok in
theorem pid : l.pid = p := pid_operated (hw.began tid loc hlocal) hprecedes.1

omit hlocal hprecedes hcovers hguard in
theorem calm_marked (hr : w.hist.ext = some r) (hmarked : r.marked = true) :
    l.place.stores = false ∧ (l.place.registers = true → l.place = .startReserve ∨ l.place = .startRelease) := by
  have hstopping := (hw.marked r hr hmarked).1
  have := hok.2
  rcases l with ⟨q, pt⟩
  cases pt with
  | startCreate | reconnectCreate | startFailedTeardown => simp_all
  | _ => simp [Place.stores, Place.registers]

theorem memory_marked (hr : w.hist.ext = some r) (hmarked : r.marked = true) :
    (l.place.memory x w.st (w.st.node p)).stopping = true ∧ (l.place.memory x w.st (w.st.node p)).reconnect = none ∧
      ∀ e, (l.place.memory x w.st (w.st.node p)).engine = some e → (w.st.node p).engine = some e := by
  rcases hw.marked r hr hmarked with ⟨hstopping, hreconnect, _⟩
  refine ⟨?_, ?_⟩
  . cases hunmarks : l.place.unmarks with
    | false => exact Node.memory_stopping hunmarks x w.st hstopping
    | true =>
      rcases l with ⟨q, pt⟩
      rcases unmarks_operated (hw.began tid loc hlocal) hcovers hunmarks with rfl | rfl
      . rcases hok.2 with rfl | hall
        . exact hstopping
        . simp [hr, hmarked] at hall
      . -- the verb that drops the mark found no row
        rcases hprecedes.2 with ⟨pt, x', s', hlast, _, hrow⟩
        have hcalm := hw.calm tid loc hlocal _ hlast
        rcases hrow with hx | hrow
        . exact absurd hx hcalm.1
        . simp [hrow] at hcalm
  . cases hregisters : l.place.registers with
    | false =>
      have hshrinks := Node.Shrinks.memory (n := w.st.node p) hregisters x w.st
      constructor
      . rcases hshrinks.reconnect with heq | heq
        . rw [heq, hreconnect]
        . exact heq
      . intro e he
        rcases hshrinks.engine with heq | heq
        . exact heq ▸ he
        . simp [heq] at he
    | true =>
      rcases l with ⟨q, pt⟩
      rcases (hw.calm_marked hok hr hmarked).2 hregisters with rfl | rfl
      . exact ⟨hreconnect, fun _ he => he⟩
      . exact ⟨hreconnect, fun _ he => he⟩

/-- The activation of the verb keeps the captured engine the only one, until it issues DISCONNECTED. -/
theorem marked_self (hr : w.hist.ext = some r) (htid : r.tid = tid) (hmarked : (r.turn l x w.st).marked = true) :
    (l.place.memory x w.st (w.st.node p)).stopping = true ∧ (l.place.memory x w.st (w.st.node p)).reconnect = none ∧
      ∀ e, (l.place.memory x w.st (w.st.node p)).engine = some e →
        (r.turn l x w.st).captured = some e ∧ (r.turn l x w.st).issued = false := by
  have hpid := hw.pid hlocal hprecedes
  have htells : loc.Tells p r := by
    rcases hw.tells r hr with ⟨loc', hlocal', _, htells⟩
    rw [htid, hlocal] at hlocal'
    exact Option.some.inj hlocal' ▸ htells
  by_cases hold : r.marked = true
  . rcases hw.memory_marked hlocal hprecedes hcovers hguard hok hr hold with ⟨hstopping, hreconnect, hengine⟩
    refine ⟨hstopping, hreconnect, fun e he => ?_⟩
    have hbefore := hengine e he
    rcases (hw.marked r hr hold).2.2 e hbefore with ⟨hcaptured, hissued⟩
    rcases l with ⟨q, pt⟩
    subst hpid
    cases pt with
    | retireMark v => simp [Retiring.turn, hbefore, hissued]
    | retireTeardown v e' =>
      rcases hprecedes.2 with ⟨pt, x', s', hlast, pending, rfl, _⟩
      unfold Local.Tells at htells
      rw [hlast] at htells
      have heq : e = e' := by simpa [hcaptured] using htells.2
      subst heq
      simp only [Place.memory] at he
      split at he
      . next hx => simp_all [Retiring.turn]
      . exact absurd he retireEvict_engine
    | retireEscalated e' =>
      rcases hprecedes.2 with ⟨pt, x', s', hlast, rfl⟩
      unfold Local.Tells at htells
      rw [hlast] at htells
      have heq : e = e' := by simpa [hcaptured] using htells.2.1
      subst heq
      exact absurd he retireEvict_engine
    | _ => exact ⟨hcaptured, hissued⟩
  . -- only the mark itself makes a session marked
    have hissued : r.issued = false := by
      rw [← Bool.not_eq_true]
      exact fun h => hold (hw.issued r hr h).1
    rcases l with ⟨q, pt⟩
    subst hpid
    cases pt with
    | retireMark v =>
      have hmarks : (w.st.node q).engine.isSome = true ∨ v = .stop := by simpa [Retiring.turn, hold] using hmarked
      rcases retireMark_marks hmarks with ⟨hstopping, hreconnect⟩
      refine ⟨hstopping, hreconnect, fun e he => ?_⟩
      have hbefore : (w.st.node q).engine = some e := by
        rcases (Node.Shrinks.retireMark (n := w.st.node q) v).engine with heq | heq
        . exact heq ▸ he
        . simp [Place.memory, heq] at he
      simp [Retiring.turn, hbefore, hissued]
    | retireTeardown | retireEscalated => exact absurd hmarked hold
    | _ => exact absurd hmarked hold

omit hcovers in
theorem sends_issued (hr : w.hist.ext = some r) (htid : r.tid = tid) (hold : r.issued = false)
    (hissued : (r.turn l x w.st).issued = true) :
    l.place.sends x w.st (w.st.node p) = [.status .disconnected] ∧ (r.turn l x w.st).marked = true := by
  have hpid := hw.pid hlocal hprecedes
  have htells : loc.Tells p r := by
    rcases hw.tells r hr with ⟨loc', hlocal', _, htells⟩
    rw [htid, hlocal] at hlocal'
    exact Option.some.inj hlocal' ▸ htells
  rcases l with ⟨q, pt⟩
  subst hpid
  cases pt with
  | retireMark v => simp_all [Retiring.turn, Place.sends]
  | retireTeardown v e =>
    rcases hprecedes.2 with ⟨pt, x', s', hlast, pending, rfl, _⟩
    unfold Local.Tells at htells
    rw [hlast] at htells
    simp only [Retiring.turn, hold, Bool.false_or, Bool.not_eq_true'] at hissued
    simp [Place.sends, Retiring.turn, htells.1, hissued]
  | retireEscalated e =>
    rcases hprecedes.2 with ⟨pt, x', s', hlast, rfl⟩
    unfold Local.Tells at htells
    rw [hlast] at htells
    exact ⟨rfl, htells.1⟩
  | _ => simp [Retiring.turn, hold] at hissued

theorem outcome_issued (hr : w.hist.ext = some r) (hissued : r.issued = true) :
    ∃ row, (effect l x w.st).outcome = some row ∧ row.status = .disconnected := by
  have hpid := hw.pid hlocal hprecedes
  rcases hw.issued r hr hissued with ⟨hmarked, row, hrow, hstatus⟩
  rcases hw.marked r hr hmarked with ⟨_, hreconnect, hengine⟩
  have hnone : (w.st.node p).engine = none := by
    cases he : (w.st.node p).engine with
    | none => rfl
    | some e => simp [(hengine e he).2] at hissued
  rw [effect_outcome hguard (statement_operated (hw.began tid loc hlocal) hcovers l.pid), hrow, hpid]
  refine ⟨_, rfl, applyAll_quiet ?_ hstatus⟩
  exact sends_quiet (hw.calm_marked hok hr hmarked).1 hnone hreconnect

theorem turn : StopFinal p (verbSystem.after w (.turn tid l x) (effect l x w.st)) := by
  have hpid := hw.pid hlocal hprecedes
  have hst : (verbSystem.after w (.turn tid l x) (effect l x w.st)).st = effect l x w.st := rfl
  have hext : (verbSystem.after w (.turn tid l x) (effect l x w.st)).hist.ext =
      w.hist.ext.map fun r => if r.tid = tid then r.turn l x w.st else r := rfl
  have hnode : (effect l x w.st).node p = l.place.memory x w.st (w.st.node p) := by
    rw [effect_node hguard, if_pos hpid.symm]
  have hrow : (effect l x w.st).row = w.st.row := by
    rw [effect_row, statement_operated (hw.began tid loc hlocal) hcovers]
    split <;> rfl
  constructor
  . exact hw.fresh.turn hlocal
  . exact forall_turn hlocal (hw.began tid loc hlocal) fun i loc' _ hi => hw.began i loc' hi
  . refine forall_turn hlocal ?_ fun i loc' _ hi => hw.calm i loc' hi
    intro t ht
    simp only [Local.turn, Option.some.injEq] at ht
    subst ht
    exact ⟨hok.1, hw.row⟩
  . exact numbered_effect hguard hw.numbered
  . rw [hst, hrow]
    exact hw.row
  . intro r' hr'
    rw [hext, Option.map_eq_some_iff] at hr'
    rcases hr' with ⟨r, hr, rfl⟩
    rcases hw.tells r hr with ⟨loc', hlocal', hbegan, htells⟩
    split
    . next htid =>
      have heq : loc' = loc := by
        rw [htid, hlocal] at hlocal'
        exact (Option.some.inj hlocal').symm
      subst heq
      refine ⟨loc'.turn l x w.st, ?_, hbegan, ?_⟩
      . rw [locals_turn hlocal, if_pos]
        rcases l with ⟨q, pt⟩
        cases pt <;> exact htid
      . subst hpid
        exact htells.turn hprecedes
    . next htid => exact ⟨loc', by rw [locals_turn hlocal, if_neg htid, hlocal'], hbegan, htells⟩
  . intro r' hr' hmarked
    rw [hext, Option.map_eq_some_iff] at hr'
    rcases hr' with ⟨r, hr, rfl⟩
    rw [hst, hnode]
    split at hmarked
    . next htid =>
      rw [if_pos htid]
      exact hw.marked_self hlocal hprecedes hcovers hguard hok hr htid hmarked
    . next htid =>
      rw [if_neg htid]
      rcases hw.memory_marked hlocal hprecedes hcovers hguard hok hr hmarked with ⟨hstopping, hreconnect, hengine⟩
      exact ⟨hstopping, hreconnect, fun e he => (hw.marked r hr hmarked).2.2 e (hengine e he)⟩
  . intro r' hr' hissued
    rw [hext, Option.map_eq_some_iff] at hr'
    rcases hr' with ⟨r, hr, rfl⟩
    rw [hst]
    by_cases hold : r.issued = true
    . refine ⟨?_, hw.outcome_issued hlocal hprecedes hcovers hguard hok hr hold⟩
      have hmarked := (hw.issued r hr hold).1
      split
      . rcases l with ⟨q, pt⟩
        cases pt <;> simp [Retiring.turn, hmarked]
      . exact hmarked
    . split at hissued
      . next htid =>
        rcases hw.sends_issued hlocal hprecedes hguard hok hr htid (Bool.eq_false_iff.mpr hold) hissued with
          ⟨hsends, hmarked⟩
        refine ⟨by rw [if_pos htid]; exact hmarked, ?_⟩
        rw [effect_outcome hguard (statement_operated (hw.began tid loc hlocal) hcovers l.pid), hpid, hsends]
        rcases Option.isSome_iff_exists.mp hw.row with ⟨row, hrow⟩
        exact ⟨_, by rw [State.outcome, hrow]; rfl, rfl⟩
      . exact absurd hissued hold

end StopFinal
end Turns


section Events

variable {p : Nat} {w : SessionWorld (Option Retiring)} {v : Event} {r : Retiring}

namespace StopFinal

theorem event_marked (hw : StopFinal p w) (hv : v.operates p = true) (hr : w.hist.ext = some r)
    (hmarked : r.marked = true) :
    ((v.effect w.st).node p).stopping = true ∧ ((v.effect w.st).node p).reconnect = none ∧
      ∀ e, ((v.effect w.st).node p).engine = some e → r.captured = some e ∧ r.issued = false := by
  rcases hw.marked r hr hmarked with ⟨hstopping, hreconnect, hengine⟩
  rw [Event.effect_node]
  split
  . have hboot := fun q => (ends_operated hv q).1
    have hcrash := fun q => (ends_operated hv q).2
    have hshrinks := Node.Shrinks.event (n := w.st.node p) v hboot hcrash
    refine ⟨Node.event_stopping hboot hcrash hstopping, ?_, fun e he => ?_⟩
    . rcases hshrinks.reconnect with heq | heq
      . rw [heq, hreconnect]
      . exact heq
    . rcases hshrinks.engine with heq | heq
      . exact hengine e (heq ▸ he)
      . simp [heq] at he
  . exact ⟨hstopping, hreconnect, hengine⟩

theorem event_issued (hw : StopFinal p w) (hok : Operated p w (.event w.started v)) (hr : w.hist.ext = some r)
    (hissued : r.issued = true) : ∃ row, (v.effect w.st).outcome = some row ∧ row.status = .disconnected := by
  rcases hw.issued r hr hissued with ⟨hmarked, hrow⟩
  have hnone : (w.st.node p).engine = none := by
    cases he : (w.st.node p).engine with
    | none => rfl
    | some e => simp [((hw.marked r hr hmarked).2.2 e he).2] at hissued
  by_cases hdatabase : ∃ i fault, v = .database i fault
  . rcases hdatabase with ⟨i, fault, rfl⟩
    have hfault : fault = false := by simpa [Event.operates] using hok.1
    rw [hfault, Event.effect, State.outcome_settle hw.numbered hok.2]
    exact hrow
  . rw [Event.effect_outcome v w.st fun i fault heq => hdatabase ⟨i, fault, heq⟩]
    have hsends : (v.pid?.map fun q => v.sends (w.st.node q)).getD [] = [] := by
      cases hpid : v.pid? with
      | none => rfl
      | some q =>
        have hq := pid_operated hok.1 hpid
        subst hq
        exact event_sends_quiet hnone
    rw [hsends]
    rcases hrow with ⟨row, hrow, hstatus⟩
    exact ⟨row, by rw [hrow]; rfl, hstatus⟩

theorem row_event (hw : StopFinal p w) : (v.effect w.st).row.isSome = true := by
  by_cases hdatabase : ∃ i fault, v = .database i fault
  . rcases hdatabase with ⟨i, fault, rfl⟩
    simp only [Event.effect, State.settle]
    split
    . exact hw.row
    . split
      . simpa using hw.row
      . exact hw.row
  . rw [Event.effect_row v w.st fun i fault heq => hdatabase ⟨i, fault, heq⟩]
    exact hw.row

theorem event_other (hw : StopFinal p w) (hok : Operated p w (.event w.started v))
    (hext : noteVerb (.event w.started v) w.st (v.effect w.st) w.hist.ext = w.hist.ext) :
    StopFinal p (verbSystem.after w (.event w.started v) (v.effect w.st)) := by
  have hext : (verbSystem.after w (.event w.started v) (v.effect w.st)).hist.ext = w.hist.ext := hext
  constructor
  . exact hw.fresh.event
  . exact forall_event hok.1 hw.began
  . exact forall_event (by simp [Local.first]) hw.calm
  . exact v.numbered hw.numbered
  . exact hw.row_event
  . intro r hr
    rw [hext] at hr
    rcases hw.tells r hr with ⟨loc, hlocal, hbegan, htells⟩
    refine ⟨loc, ?_, hbegan, htells⟩
    rw [locals_event, if_neg (Nat.ne_of_lt (hw.fresh.lt hlocal)), hlocal]
  . intro r hr
    rw [hext] at hr
    exact hw.event_marked hok.1 hr
  . intro r hr hissued
    rw [hext] at hr
    exact ⟨(hw.issued r hr hissued).1, hw.event_issued hok hr hissued⟩

theorem event_verb (hw : StopFinal p w) (hok : Operated p w (.event w.started v)) {last : Option Retiring}
    (hext : noteVerb (.event w.started v) w.st (v.effect w.st) w.hist.ext = last)
    (hlast : ∀ r, last = some r →
      r.tid = w.started ∧ r.marked = false ∧ r.issued = false ∧ ∃ u, v = .verb u p) :
    StopFinal p (verbSystem.after w (.event w.started v) (v.effect w.st)) := by
  have hext : (verbSystem.after w (.event w.started v) (v.effect w.st)).hist.ext = last := hext
  constructor
  . exact hw.fresh.event
  . exact forall_event hok.1 hw.began
  . exact forall_event (by simp [Local.first]) hw.calm
  . exact v.numbered hw.numbered
  . exact hw.row_event
  . intro r hr
    rw [hext] at hr
    refine ⟨Local.first v w.st, ?_, (hlast r hr).2.2.2, trivial⟩
    rw [locals_event, if_pos (hlast r hr).1]
  . intro r hr hmarked
    rw [hext] at hr
    simp [(hlast r hr).2.1] at hmarked
  . intro r hr hissued
    rw [hext] at hr
    simp [(hlast r hr).2.2.1] at hissued

theorem event (hw : StopFinal p w) (hok : Operated p w (.event w.started v)) :
    StopFinal p (verbSystem.after w (.event w.started v) (v.effect w.st)) := by
  cases v with
  | start q => exact hw.event_verb hok rfl (by rintro r ⟨⟩)
  | verb u q =>
    apply hw.event_verb hok rfl
    rintro r ⟨⟩
    have hq : q = p := pid_operated hok.1 rfl
    exact ⟨rfl, rfl, rfl, u, hq ▸ rfl⟩
  | _ => exact hw.event_other hok rfl

end StopFinal
end Events

section Runs

variable {p : Nat} {init c c' : SessionConfig (Option Retiring)} {r : Retiring}

theorem stopFinal_of_reach (hpool : init.pool = []) (hlocals : ∀ tid, init.hist.locals tid = none)
    (hext : init.hist.ext = none) (hrow : init.st.row.isSome = true) (hwrites : init.st.writes = [])
    (h : verbSystem.Reach (Final p) init c) : StopFinal p c.world := by
  have hnone {r : Retiring} : init.world.hist.ext = some r → False := by simp [Config.world, hext]
  have hinit : StopFinal p init.world := by
    constructor
    . exact fun tid _ => hlocals tid
    . exact fun tid loc h => by simp [Config.world, hlocals] at h
    . exact fun tid loc h => by simp [Config.world, hlocals] at h
    . constructor
      . simp [Config.st_world, hwrites]
      . simp [Config.st_world, hwrites]
    . exact hrow
    . exact fun r h => (hnone h).elim
    . exact fun r h => (hnone h).elim
    . exact fun r h => (hnone h).elim
  apply inv_of_reach hpool hinit ?_ ?_ h
  . exact fun w v hw hok _ => hw.event hok.1
  . exact fun w tid l x loc hw hok hlocal hprecedes hcovers hguard =>
      hw.turn hlocal hprecedes hcovers hguard hok

/-- The step calls no operator verb. -/
def NoVerb (a : Act Event Answer Loc) : Prop :=
  match a with
  | .event _ (.start _) | .event _ (.verb ..) => False
  | _ => True

theorem issued_of_reach (h : verbSystem.Reach (fun w a => Final p w a ∧ NoVerb a) c c')
    (hr : c.hist.ext = some r) (hissued : r.issued = true) :
    ∃ r', c'.hist.ext = some r' ∧ r'.issued = true := by
  induction h with
  | init => exact ⟨r, hr, hissued⟩
  | @step c₁ c₂ a m _ hstep hok ih =>
    rcases ih with ⟨r', hr', hissued'⟩
    have hext : c₂.hist.ext = noteVerb a c₁.st c₂.st c₁.hist.ext := by
      rcases System.step_cases hstep with ⟨v, t, rfl, _, _, hw⟩ | ⟨_, _, _, _, _, _, rfl, _, _, _, _, hw⟩
      . exact congrArg (fun w => w.hist.ext) hw
      . exact congrArg (fun w => w.hist.ext) hw
    rw [hext, hr']
    cases a with
    | event tid v =>
      cases v with
      | start | verb => exact absurd hok.2 id
      | _ => exact ⟨r', rfl, hissued'⟩
    | turn tid l x =>
      refine ⟨_, rfl, ?_⟩
      dsimp only
      split
      . rcases l with ⟨q, pt⟩
        cases pt <;> simp [Retiring.turn, hissued']
      . exact hissued'

/--
In such a run, once the last operator verb has resolved and is a `stop`, a `logout` or a `forceKill`, no
engine is registered as long as no further one is called, and the stored status is DISCONNECTED once the
writes in flight have taken effect.
-/
theorem stop_final (hpool : init.pool = []) (hlocals : ∀ tid, init.hist.locals tid = none)
    (hext : init.hist.ext = none) (hrow : init.st.row.isSome = true) (hwrites : init.st.writes = [])
    (h : verbSystem.Reach (Final p) init c) (hlast : c.hist.ext = some r)
    (hresolved : c.pool[r.tid]? = some (.pure ()))
    (h' : verbSystem.Reach (fun w a => Final p w a ∧ NoVerb a) c c') :
    (c'.st.node p).engine = none ∧
      (c'.st.writes = [] → ∃ row, c'.st.row = some row ∧ row.status = .disconnected) := by
  have hinv := stopFinal_of_reach hpool hlocals hext hrow hwrites h
  have hissued : r.issued = true := by
    rcases (holds_of_reach hpool h).returned hresolved with ⟨w, hrely, loc, hlocal, hfinished⟩
    rcases hinv.tells r hlast with ⟨loc', hlocal', ⟨v, hbegan⟩, htells⟩
    have heq : loc' = loc := by
      have := hlocal'.symm.trans (hrely.trans hlocal)
      simpa using this
    subst heq
    have hv : v ≠ .delete := by
      have := hinv.began r.tid loc' hlocal'
      rw [hbegan] at this
      rintro rfl
      contradiction
    rcases hfinished.1 v p hbegan hv rfl with ⟨pt, x, s, hdone, rfl⟩
    unfold Local.Tells at htells
    rw [hdone] at htells
    exact htells
  rcases issued_of_reach h' hlast hissued with ⟨r', hr', hissued'⟩
  have hinv' := stopFinal_of_reach hpool hlocals hext hrow hwrites (h.trans (h'.mono fun _ _ h => h.1))
  rcases hinv'.issued r' hr' hissued' with ⟨hmarked, row, houtcome, hstatus⟩
  constructor
  . cases he : (c'.st.node p).engine with
    | none => rfl
    | some e => simp [((hinv'.marked r' hr' hmarked).2.2 e he).2] at hissued'
  . intro hwrites
    refine ⟨row, ?_, hstatus⟩
    rw [← houtcome, Config.st_world, State.outcome, hwrites]
    exact (Option.map_id' ..).symm

def idleVerbs : SessionConfig (Option Retiring) where
  st := idleState
  hist := ⟨fun _ => none, none⟩
  pool := []

/-- A start, and a stop after it. -/
theorem stop_final_stop :
    ∃ c, verbSystem.Reach (Final 0) idleVerbs c ∧ (c.st.node 0).created = 1 ∧ (c.st.node 0).engine = none ∧
      ∃ row, c.st.row = some row ∧ row.status = .disconnected := by
  have hrun : (verbSystem.exec (Final 0) idleVerbs (launch 0 0 ++ settleStart 0 ++
      [.event (.verb .stop 0), .turn 2 .ok, .turn 2 .ok, .turn 2 .ok, .turn 2 .ok, .event (.database 1 false),
        .turn 2 .ok, .turn 2 .ok])).map
      (fun c => (c.hist.ext.map Retiring.tid, c.pool[2]?.map Task.returned, c.st.writes, (c.st.node 0).created)) =
      some (some 2, some true, [], 1) := by
    decide +kernel
  rcases System.reach_of_exec_map hrun with ⟨c, hreach, hruns⟩
  simp only [Prod.mk.injEq, Option.map_eq_some_iff] at hruns
  rcases hruns with ⟨⟨r, hlast, htid⟩, ⟨t, ht, hreturned⟩, hwrites, hcreated⟩
  cases t with
  | pure u =>
    have hfinal := stop_final rfl (fun _ => rfl) rfl rfl rfl hreach hlast (htid ▸ ht) .init
    exact ⟨c, hreach, hcreated, hfinal.1, hfinal.2 hwrites⟩
  | throw | turn => simp [Task.returned] at hreturned

/--
A stop runs from its call to its end while a start waits between its registry check and its fence. The
start takes the fresh mark for a stale one, and launches its engine after the stop has resolved.
-/
theorem start_clears_stop :
    ∃ c r, verbSystem.Reach (Operated 0) idleVerbs c ∧ c.hist.ext = some r ∧
      c.pool[r.tid]?.map Task.returned = some true ∧ c.drained = true ∧ c.st.writes = [] ∧
      (c.st.node 0).engine = some 0 ∧ c.st.row.map Session.status = some .initializing := by
  have hrun : (verbSystem.exec (Operated 0) idleVerbs
      ([.event (.start 0), .turn 0 .ok, .turn 0 .ok, .turn 0 .ok, .event (.verb .stop 0), .turn 1 .ok, .turn 1 .ok,
        .event (.database 0 false), .turn 1 .ok, .turn 1 .ok, .turn 0 .ok, .turn 0 .ok, .event (.database 1 false),
        .turn 0 .ok] ++ settleStart 0)).map
      (fun c => (c.hist.ext.map Retiring.tid, c.pool[1]?.map Task.returned,
        c.drained && c.st.writes = [], (c.st.node 0).engine, c.st.row.map Session.status)) =
      some (some 1, some true, true, some 0, some .initializing) := by
    decide +kernel
  rcases System.reach_of_exec_map hrun with ⟨c, hreach, hruns⟩
  simp only [Prod.mk.injEq, Option.map_eq_some_iff, Bool.and_eq_true, decide_eq_true_eq] at hruns
  rcases hruns with ⟨⟨r, hlast, htid⟩, ⟨t, ht, hreturned⟩, ⟨hdrained, hwrites⟩, hengine, hstatus⟩
  refine ⟨c, r, hreach, hlast, ?_, hdrained, hwrites, hengine, ?_⟩
  . rw [htid, ht, ← hreturned]
    rfl
  . simpa using hstatus

end Runs

end OpenWA.Lifecycle
