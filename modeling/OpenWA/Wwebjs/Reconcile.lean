import OpenWA.Async.History
import OpenWA.Async.Machine

/-!
This module contains the readiness window of the whatsapp-web.js adapter: its timer, the probes it sends
into the page, the reload of a page without an event bridge, and what happens at the deadline.
-/

namespace OpenWA.Wwebjs.Reconcile

open Async

inductive EngineStatus where
  | disconnected | initializing | qrReady | authenticating | ready | actionRequired | failed
deriving DecidableEq

/-- What is read of a client; an unpatched one has no `eventsAttached`. -/
structure Client where
  hasUser : Bool
  eventsAttached : Option Bool

/-- What is read of the clock and the host. -/
structure View where
  now : Int
  client : Option Client
  status : EngineStatus

/-- What a probe waits for, or which of its callbacks is due; `saw` is the state of the page it saw. -/
inductive Phase where
  | gettingState
  | evaluating
  | resolved (saw ready : Bool)
  | rejected (saw : Option Bool)
  | finishing (saw : Option Bool)
deriving DecidableEq

def Phase.saw (phase : Phase) : Option Bool :=
  match phase with
  | .gettingState => none
  | .evaluating => some true
  | .resolved saw _ => some saw
  | .rejected saw | .finishing saw => saw

/-- The probe waits for the page, so that no callback of it is due. -/
def Phase.waits (phase : Phase) : Bool :=
  match phase with
  | .gettingState | .evaluating => true
  | _ => false

structure Probe where
  window : Nat
  phase : Phase
deriving DecidableEq

/-- What happens in a window; `own` tells the probes it started from those of earlier windows. -/
inductive Entry where
  | ticked (now : Int)
  | answered (own connected : Bool)
  | promoted (own : Bool)
  | reloaded (own : Bool) (now : Int)
  | completed (saw : Option Bool)
  | bridgeDead
  | recovered
deriving DecidableEq

structure Window where
  startedAt : Int
  log : List Entry
deriving DecidableEq

structure State where
  readyReconcileTimer : Bool
  readyReconcileStartedAt : Int
  readyReconcileProbeInFlight : Bool
  lastProbeStateConnected : Bool
  readyReconcileReloadAttempted : Bool
  probes : List Probe
  /-- the windows that ended -/
  past : List Window
  window : Option Window

def init : State := ⟨false, 0, false, false, false, [], [], none⟩

/-- `READY_RECONCILE_TIMEOUT_MS` -/
def readyReconcileTimeoutMs : Int := 90000

/-- `READY_RECONCILE_BRIDGE_RELOAD_GRACE_MS` -/
def readyReconcileBridgeReloadGraceMs : Int := 45000

def note (s : State) (e : Entry) : State :=
  { s with window := s.window.map fun w => { w with log := w.log ++ [e] } }

/-- The probe was started in the window that is open now. -/
def owns (s : State) (p : Probe) : Bool := p.window = s.past.length

def clearReadyReconcile (s : State) : State :=
  { s with
    readyReconcileTimer := false
    readyReconcileStartedAt := 0
    readyReconcileProbeInFlight := false
    lastProbeStateConnected := false
    readyReconcileReloadAttempted := false
    past := s.past ++ s.window.toList
    window := none }

def scheduleReadyReconcile (now : Int) (s : State) : State :=
  { clearReadyReconcile s with
    readyReconcileStartedAt := now
    readyReconcileTimer := true
    window := some ⟨now, []⟩ }

def tick (v : View) (s : State) : State :=
  let s := note s (.ticked v.now)
  match v.client with
  | none => clearReadyReconcile s
  | some client =>
    if v.status ≠ .authenticating then clearReadyReconcile s
    else if v.now - s.readyReconcileStartedAt ≥ readyReconcileTimeoutMs then
      let bridgeDead := s.lastProbeStateConnected && client.eventsAttached == some false
      clearReadyReconcile (note s (if bridgeDead then .bridgeDead else .recovered))
    else
      let s := { s with readyReconcileTimer := true }
      if s.readyReconcileProbeInFlight then s
      else
        { s with
          readyReconcileProbeInFlight := true
          probes := s.probes ++ [⟨s.past.length, .gettingState⟩] }

def setPhase (s : State) (i : Nat) (p : Probe) (phase : Phase) : State :=
  { s with probes := s.probes.set i { p with phase } }

/-- `isClientRuntimeReady`, once `getState` resolves or rejects. -/
def gotState (v : View) (s : State) (i : Nat) (p : Probe) (state : Option Bool) : State :=
  match state with
  | none => setPhase s i p (.rejected none)
  | some connected =>
    let s := note { s with lastProbeStateConnected := connected } (.answered (owns s p) connected)
    if !connected then setPhase s i p (.resolved false false)
    else
      match v.client with
      | none => setPhase s i p (.resolved true false)
      | some client =>
        if !client.hasUser then setPhase s i p (.resolved true false)
        else if client.eventsAttached = some false then setPhase s i p (.resolved true false)
        else setPhase s i p .evaluating

/-- `isClientRuntimeReady`, once the page was searched for `WWebJS`. -/
def evaluated (s : State) (i : Nat) (p : Probe) (hasWWebJS : Option Bool) : State :=
  match hasWWebJS with
  | none => setPhase s i p (.rejected (some true))
  | some hasWWebJS => setPhase s i p (.resolved true hasWWebJS)

def maybeReloadDeadBridge (v : View) (s : State) (own : Bool) : State :=
  if s.readyReconcileReloadAttempted then s
  else
    match v.client with
    | none => s
    | some client =>
      if !s.lastProbeStateConnected then s
      else if client.eventsAttached ≠ some false then s
      else if v.now - s.readyReconcileStartedAt < readyReconcileBridgeReloadGraceMs then s
      else note { s with readyReconcileReloadAttempted := true } (.reloaded own v.now)

/-- The callback of a probe that resolved. -/
def resolvedReady (v : View) (s : State) (own ready : Bool) : State :=
  if ready && v.client.isSome && v.status = .authenticating then note s (.promoted own)
  else if v.status = .authenticating then maybeReloadDeadBridge v s own
  else s

/-- What happens to a probe: the page answers, or the next of its callbacks runs. -/
inductive ProbeEvent where
  | gotState (v : View) (state : Option Bool)
  | evaluated (hasWWebJS : Option Bool)
  | callback (v : View)
  | finish

def probeStep (s : State) (i : Nat) (p : Probe) (e : ProbeEvent) : Option State :=
  match p.phase, e with
  | .gettingState, .gotState v state => some (gotState v s i p state)
  | .evaluating, .evaluated hasWWebJS => some (evaluated s i p hasWWebJS)
  | .resolved saw ready, .callback v =>
    some (setPhase (resolvedReady v s (owns s p) ready) i p (.finishing saw))
  | .rejected saw, .callback _ => some (setPhase s i p (.finishing saw))
  | .finishing saw, .finish =>
    some (note { s with
      readyReconcileProbeInFlight := false
      probes := s.probes.eraseIdx i } (.completed saw))
  | _, _ => none

inductive Event where
  | schedule (now : Int)
  | clear
  | tick (v : View)
  | probe (i : Nat) (e : ProbeEvent)

def step (s : State) (e : Event) : Option State :=
  match e with
  | .schedule now => some (scheduleReadyReconcile now s)
  | .clear => some (clearReadyReconcile s)
  | .tick v =>
    -- a timer does not fire before the callbacks that are due have run
    if s.readyReconcileTimer && s.probes.all (·.phase.waits) then some (tick v s) else none
  | .probe i e => s.probes[i]?.bind fun p => probeStep s i p e

def machine : Machine State Event := ⟨step⟩

section Law

/-- What the probes of the window itself saw last. -/
def lastAnswer (log : List Entry) : Option Bool :=
  (log.filterMap fun
    | .answered true connected => some connected
    | _ => none).getLast?

/-- What the probe that completed last saw, if its state could be read. -/
def lastCompleted (log : List Entry) : Option (Option Bool) :=
  (log.filterMap fun
    | .completed saw => some saw
    | _ => none).getLast?

/--
No tick follows one at the deadline, the page is reloaded once and after the grace, by the probes of the
window, and the credentials are not wiped if the page was seen connected last.
-/
def InOrder (startedAt : Int) (before : List Entry) (e : Entry) : Prop :=
  match e with
  | .ticked _ => ∀ now, .ticked now ∈ before → now < startedAt + readyReconcileTimeoutMs
  | .promoted own => own = true
  | .reloaded own now =>
    own = true ∧ startedAt + readyReconcileBridgeReloadGraceMs ≤ now ∧
      ∀ own' now', .reloaded own' now' ∉ before
  | .recovered => lastCompleted before ≠ some (some true)
  | _ => True

/-- The next tick is due, none was at the deadline, and the probes of the window alone left their mark. -/
structure Current (s : State) (w : Window) : Prop where
  timer : s.readyReconcileTimer = true
  early : ∀ now, .ticked now ∈ w.log → now < w.startedAt + readyReconcileTimeoutMs
  inFlight : s.readyReconcileProbeInFlight = true ↔ ∃ p ∈ s.probes, owns s p = true
  connected : s.lastProbeStateConnected = (lastAnswer w.log).getD false
  attempted : s.readyReconcileReloadAttempted = true ↔ ∃ now, .reloaded true now ∈ w.log

structure KeepsCredentials (s : State) : Prop where
  past : ∀ w ∈ s.past, EachAfter (InOrder w.startedAt) w.log
  window : ∀ w, s.window = some w → EachAfter (InOrder w.startedAt) w.log ∧ Current s w

/--
In a window no probe of an earlier one is answered or runs its callbacks, and at its deadline a page that
was seen connected last has a dead event bridge.
-/
def undisturbed (s : State) (e : Event) : Prop :=
  match e with
  | .tick v =>
    ∀ client ∈ v.client, v.status = .authenticating →
      s.readyReconcileStartedAt + readyReconcileTimeoutMs ≤ v.now →
      s.lastProbeStateConnected = true → client.eventsAttached = some false
  | .probe _ (.evaluated _) => True
  | .probe i _ => s.window.isSome = true → ∀ p ∈ s.probes[i]?, owns s p = true
  | _ => True

instance (s : State) (e : Event) : Decidable (undisturbed s e) :=
  match e with
  | .tick v =>
    inferInstanceAs (Decidable (∀ client ∈ v.client, v.status = .authenticating →
      s.readyReconcileStartedAt + readyReconcileTimeoutMs ≤ v.now →
      s.lastProbeStateConnected = true → client.eventsAttached = some false))
  | .probe _ (.evaluated _) | .schedule _ | .clear => inferInstanceAs (Decidable True)
  | .probe i (.gotState _ _) | .probe i (.callback _) | .probe i .finish =>
    inferInstanceAs (Decidable (s.window.isSome = true → ∀ p ∈ s.probes[i]?, owns s p = true))

end Law

section Log

variable {log : List Entry} {e : Entry}

theorem lastAnswer_answered (log : List Entry) (connected : Bool) :
    lastAnswer (log ++ [.answered true connected]) = some connected := by
  simp [lastAnswer]

theorem lastAnswer_concat (h : ∀ connected, e ≠ .answered true connected) :
    lastAnswer (log ++ [e]) = lastAnswer log := by
  rcases e with _ | ⟨_ | _, connected⟩ | _ | _ | _ | _ | _
  case answered.true => exact absurd rfl (h connected)
  all_goals simp [lastAnswer]

theorem lastCompleted_completed (log : List Entry) (saw : Option Bool) :
    lastCompleted (log ++ [.completed saw]) = some saw := by
  simp [lastCompleted]

theorem lastCompleted_concat (h : ∀ saw, e ≠ .completed saw) :
    lastCompleted (log ++ [e]) = lastCompleted log := by
  cases e with
  | completed saw => exact absurd rfl (h saw)
  | ticked _ | answered _ _ | promoted _ | reloaded _ _ | bridgeDead | recovered => simp [lastCompleted]

end Log

section Running

variable {s : State} {w : Window} {own : Option Probe} {p : Probe} {i : Nat}

/-- The open window, and the probe of it that is pending. -/
structure Running (s : State) (w : Window) (own : Option Probe) : Prop where
  logged : EachAfter (InOrder w.startedAt) w.log
  timer : s.readyReconcileTimer = true
  startedAt : s.readyReconcileStartedAt = w.startedAt
  early : ∀ now, .ticked now ∈ w.log → now < w.startedAt + readyReconcileTimeoutMs
  probes : s.probes.filter (owns s) = own.toList
  inFlight : s.readyReconcileProbeInFlight = own.isSome
  connected : s.lastProbeStateConnected = (lastAnswer w.log).getD false
  attempted : s.readyReconcileReloadAttempted = true ↔ ∃ now, .reloaded true now ∈ w.log
  saw : ∀ p ∈ own, ∀ b, p.phase.saw = some b → s.lastProbeStateConnected = b
  completed : lastCompleted w.log = some (some true) →
    s.lastProbeStateConnected = true ∨ ∃ p ∈ own, p.phase.saw = some false

theorem Running.current (h : Running s w own) : Current s w where
  timer := h.timer
  early := h.early
  inFlight := by
    rw [h.inFlight]
    cases own with
    | none =>
      have hnone := List.filter_eq_nil_iff.mp h.probes
      simpa using hnone
    | some p =>
      have hmem : p ∈ s.probes.filter (owns s) := by simp [h.probes]
      rw [List.mem_filter] at hmem
      simpa using ⟨p, hmem⟩
  connected := h.connected
  attempted := h.attempted

/-- The pending probe of the window is the one at hand, and what becomes of it is again. -/
theorem Running.own_eq (h : Running s w own) (hi : s.probes[i]? = some p) (hown : owns s p = true) :
    own = some p ∧ (∀ phase, (s.probes.set i { p with phase }).filter (owns s) = [{ p with phase }]) ∧
      (s.probes.eraseIdx i).filter (owns s) = [] := by
  rcases List.getElem?_eq_some_iff.mp hi with ⟨hlt, hget⟩
  have hsplit : s.probes = s.probes.take i ++ p :: s.probes.drop (i + 1) := by
    rw [← hget, List.getElem_cons_drop hlt, List.take_append_drop]
  have hfilter := h.probes
  rw [hsplit, List.filter_append, List.filter_cons_of_pos hown] at hfilter
  have hsome : own = some p ∧ (s.probes.take i).filter (owns s) = [] ∧
      (s.probes.drop (i + 1)).filter (owns s) = [] := by
    cases own with
    | none => simp at hfilter
    | some q =>
      have hlength := congrArg List.length hfilter
      simp only [List.length_append, List.length_cons, Option.toList_some, List.length_nil] at hlength
      have hleft : (s.probes.take i).filter (owns s) = [] := List.length_eq_zero_iff.mp (by omega)
      have hright : (s.probes.drop (i + 1)).filter (owns s) = [] :=
        List.length_eq_zero_iff.mp (by omega)
      rw [hleft, hright] at hfilter
      simp only [List.nil_append, Option.toList_some, List.cons.injEq, and_true] at hfilter
      exact ⟨congrArg some hfilter.symm, hleft, hright⟩
  refine ⟨hsome.1, fun phase => ?_, ?_⟩
  . rw [List.set_eq_take_append_cons_drop, if_pos hlt, List.filter_append,
      List.filter_cons_of_pos (by exact hown), hsome.2.1, hsome.2.2, List.nil_append]
  . rw [List.eraseIdx_eq_take_drop_succ, List.filter_append, hsome.2.1, hsome.2.2, List.nil_append]

/-- A probe of an earlier window does not count. -/
theorem filter_set_of_not_owns (hi : s.probes[i]? = some p) (hother : owns s p = false) (phase : Phase) :
    (s.probes.set i { p with phase }).filter (owns s) = s.probes.filter (owns s) := by
  rcases List.getElem?_eq_some_iff.mp hi with ⟨hlt, hget⟩
  have hsplit : s.probes = s.probes.take i ++ p :: s.probes.drop (i + 1) := by
    rw [← hget, List.getElem_cons_drop hlt, List.take_append_drop]
  conv_rhs => rw [hsplit]
  rw [List.set_eq_take_append_cons_drop, if_pos hlt, List.filter_append, List.filter_append,
    List.filter_cons_of_neg (by simpa [owns] using hother),
    List.filter_cons_of_neg (by simpa using hother)]

theorem note_window (hw : s.window = some w) (e : Entry) :
    (note s e).window = some { w with log := w.log ++ [e] } := by
  simp [note, hw]

theorem Running.setPhase (h : Running s w own) (hi : s.probes[i]? = some p) (hown : owns s p = true)
    {phase : Phase} (hsaw : ∀ b, phase.saw = some b → s.lastProbeStateConnected = b)
    (hkeep : p.phase.saw = some false → phase.saw = some false) :
    Running (setPhase s i p phase) w (some { p with phase }) := by
  rcases h.own_eq hi hown with ⟨rfl, hset, -⟩
  exact {
    logged := h.logged
    timer := h.timer
    startedAt := h.startedAt
    early := h.early
    probes := hset phase
    inFlight := h.inFlight
    connected := h.connected
    attempted := h.attempted
    saw := by
      rintro q ⟨⟩ b hb
      exact hsaw b hb
    completed := by
      intro hlast
      rcases h.completed hlast with hflag | ⟨q, ⟨⟩, hq⟩
      . exact .inl hflag
      . exact .inr ⟨_, rfl, hkeep hq⟩ }

theorem Running.setPhase_of_not_owns (h : Running s w own) (hi : s.probes[i]? = some p)
    (hother : owns s p = false) (phase : Phase) : Running (Reconcile.setPhase s i p phase) w own := by
  exact {
    logged := h.logged
    timer := h.timer
    startedAt := h.startedAt
    early := h.early
    probes := (filter_set_of_not_owns hi hother phase).trans h.probes
    inFlight := h.inFlight
    connected := h.connected
    attempted := h.attempted
    saw := h.saw
    completed := h.completed }

/-- The page answered the probe of the window. -/
theorem Running.answered (h : Running s w own) (hi : s.probes[i]? = some p) (hown : owns s p = true)
    {phase : Phase} {connected : Bool} (hsaw : phase.saw = some connected) :
    Running (Reconcile.setPhase (note { s with lastProbeStateConnected := connected }
      (.answered true connected)) i p phase)
      { w with log := w.log ++ [.answered true connected] } (some { p with phase }) := by
  rcases h.own_eq hi hown with ⟨rfl, hset, -⟩
  exact {
    logged := h.logged.concat trivial
    timer := h.timer
    startedAt := h.startedAt
    early := fun now hmem => h.early now (by simpa using hmem)
    probes := hset phase
    inFlight := h.inFlight
    connected := by rw [lastAnswer_answered]; rfl
    attempted := h.attempted.trans (by simp)
    saw := by
      rintro q ⟨⟩ b hb
      rw [hsaw, Option.some.injEq] at hb
      exact hb
    completed := by
      intro _
      cases connected with
      | true => exact .inl rfl
      | false => exact .inr ⟨_, rfl, hsaw⟩ }

theorem Running.promoted (h : Running s w own) :
    Running (note s (.promoted true)) { w with log := w.log ++ [.promoted true] } own := by
  exact {
    logged := h.logged.concat rfl
    timer := h.timer
    startedAt := h.startedAt
    early := fun now hmem => h.early now (by simpa using hmem)
    probes := h.probes
    inFlight := h.inFlight
    connected := by
      rw [lastAnswer_concat (by simp)]
      exact h.connected
    attempted := h.attempted.trans (by simp)
    saw := h.saw
    completed := by
      rw [lastCompleted_concat (by simp)]
      exact h.completed }

theorem Running.reloaded (h : Running s w own) {now : Int}
    (hfirst : s.readyReconcileReloadAttempted = false)
    (hgrace : readyReconcileBridgeReloadGraceMs ≤ now - s.readyReconcileStartedAt) :
    Running (note { s with readyReconcileReloadAttempted := true } (.reloaded true now))
      { w with log := w.log ++ [.reloaded true now] } own := by
  have hnone : ∀ own' now', .reloaded own' now' ∉ w.log := by
    intro own' now' hmem
    rcases h.logged.of_mem hmem with ⟨before, rfl, -⟩
    rw [h.attempted.mpr ⟨now', hmem⟩] at hfirst
    contradiction
  have hstart := h.startedAt
  exact {
    logged := h.logged.concat ⟨rfl, by omega, hnone⟩
    timer := h.timer
    startedAt := h.startedAt
    early := fun now hmem => h.early now (by simpa using hmem)
    probes := h.probes
    inFlight := h.inFlight
    connected := by
      rw [lastAnswer_concat (by simp)]
      exact h.connected
    attempted := by simp [note]
    saw := h.saw
    completed := by
      rw [lastCompleted_concat (by simp)]
      exact h.completed }

/-- The callback of the probe of the window promotes the session, reloads the page or does nothing. -/
theorem Running.resolvedReady (h : Running s w own) (hw : s.window = some w) (v : View) (ready : Bool) :
    ∃ w', (resolvedReady v s true ready).window = some w' ∧
      Running (Reconcile.resolvedReady v s true ready) w' own := by
  unfold Reconcile.resolvedReady
  split
  . exact ⟨_, note_window hw _, h.promoted⟩
  . split
    . unfold maybeReloadDeadBridge
      split
      . exact ⟨w, hw, h⟩
      . next hfirst =>
        split
        . exact ⟨w, hw, h⟩
        . split
          . exact ⟨w, hw, h⟩
          . split
            . exact ⟨w, hw, h⟩
            . split
              . exact ⟨w, hw, h⟩
              . next hgrace =>
                exact ⟨_, note_window hw _, h.reloaded (by simpa using hfirst) (by omega)⟩
    . exact ⟨w, hw, h⟩

theorem Running.finish (h : Running s w own) (hi : s.probes[i]? = some p) (hown : owns s p = true)
    {saw : Option Bool} (hphase : p.phase = .finishing saw) :
    Running (note { s with
      readyReconcileProbeInFlight := false
      probes := s.probes.eraseIdx i } (.completed saw))
      { w with log := w.log ++ [.completed saw] } none := by
  rcases h.own_eq hi hown with ⟨rfl, -, herase⟩
  exact {
    logged := h.logged.concat trivial
    timer := h.timer
    startedAt := h.startedAt
    early := fun now hmem => h.early now (by simpa using hmem)
    probes := herase
    inFlight := rfl
    connected := by
      rw [lastAnswer_concat (by simp)]
      exact h.connected
    attempted := h.attempted.trans (by simp)
    saw := fun q hq => nomatch hq
    completed := by
      intro hlast
      rw [lastCompleted_completed, Option.some.injEq] at hlast
      exact .inl (h.saw p rfl true (by rw [hphase]; exact hlast)) }

/-- A tick before the deadline goes on, with a probe unless one is pending. -/
theorem Running.tick (h : Running s w own) {now : Int}
    (hearly : now - s.readyReconcileStartedAt < readyReconcileTimeoutMs) :
    Running { note s (.ticked now) with readyReconcileTimer := true }
      { w with log := w.log ++ [.ticked now] } own := by
  have hstart := h.startedAt
  exact {
    logged := h.logged.concat h.early
    timer := rfl
    startedAt := h.startedAt
    early := by
      intro now' hmem
      rw [List.mem_append, List.mem_singleton] at hmem
      rcases hmem with hmem | hmem
      . exact h.early now' hmem
      . rw [Entry.ticked.injEq] at hmem
        dsimp only
        omega
    probes := h.probes
    inFlight := h.inFlight
    connected := by
      rw [lastAnswer_concat (by simp)]
      exact h.connected
    attempted := h.attempted.trans (by simp)
    saw := h.saw
    completed := by
      rw [lastCompleted_concat (by simp)]
      exact h.completed }

theorem Running.probe (h : Running s w none) :
    Running { s with
      readyReconcileProbeInFlight := true
      probes := s.probes ++ [⟨s.past.length, .gettingState⟩] } w
      (some ⟨s.past.length, .gettingState⟩) := by
  exact {
    logged := h.logged
    timer := h.timer
    startedAt := h.startedAt
    early := h.early
    probes := by
      have hprobes : s.probes.filter (owns s) = [] := h.probes
      dsimp only
      rw [List.filter_append, List.filter_cons_of_pos (by simp [owns])]
      exact congrArg (· ++ _) hprobes
    inFlight := rfl
    connected := h.connected
    attempted := h.attempted
    saw := by
      rintro q ⟨⟩ b hb
      contradiction
    completed := by
      intro hlast
      rcases h.completed hlast with hflag | ⟨q, hq, -⟩
      . exact .inl hflag
      . contradiction }

/-- At the deadline the page was not seen connected by the probe that completed last. -/
theorem Running.not_connected (h : Running s w own) (hwaits : s.probes.all (·.phase.waits) = true)
    (hflag : s.lastProbeStateConnected = false) : lastCompleted w.log ≠ some (some true) := by
  intro hlast
  rcases h.completed hlast with htrue | ⟨p, hp, hsaw⟩
  . rw [hflag] at htrue
    contradiction
  . have hmem : p ∈ s.probes.filter (owns s) := by
      rw [h.probes]
      simpa using hp
    have hphase := List.all_eq_true.mp hwaits p (List.mem_filter.mp hmem).1
    cases hcase : p.phase with
    | gettingState | evaluating => simp [hcase, Phase.saw] at hsaw
    | resolved _ _ | rejected _ | finishing _ => simp [hcase, Phase.waits] at hphase

end Running

section Steps

variable {s s' : State} {w : Window} {p : Probe} {i : Nat} {v : View}

/-- The windows that ended are in order, and so is the open one; probes belong to windows that exist. -/
structure Sound (s : State) : Prop where
  past : ∀ w ∈ s.past, EachAfter (InOrder w.startedAt) w.log
  bound : ∀ p ∈ s.probes,
    p.window < s.past.length ∨ p.window = s.past.length ∧ s.window.isSome = true
  running : ∀ w, s.window = some w → ∃ own, Running s w own
  idle : s.window = none → s.readyReconcileTimer = false

theorem sound_init : Sound init where
  past _ h := nomatch h
  bound _ h := nomatch h
  running _ h := nomatch h
  idle _ := rfl

theorem Sound.keepsCredentials (h : Sound s) : KeepsCredentials s where
  past := h.past
  window w hw := by
    rcases h.running w hw with ⟨own, hrun⟩
    exact ⟨hrun.logged, hrun.current⟩

theorem sound_clear (hpast : ∀ w ∈ s.past, EachAfter (InOrder w.startedAt) w.log)
    (hwindow : ∀ w, s.window = some w → EachAfter (InOrder w.startedAt) w.log)
    (hbound : ∀ p ∈ s.probes,
      p.window < s.past.length ∨ p.window = s.past.length ∧ s.window.isSome = true) :
    Sound (clearReadyReconcile s) where
  past w hw := by
    rcases List.mem_append.mp hw with hw | hw
    . exact hpast w hw
    . exact hwindow w (by simpa using hw)
  bound p hp := by
    left
    have hlength : (clearReadyReconcile s).past.length = s.past.length + s.window.toList.length :=
      List.length_append
    rcases hbound p hp with hlt | ⟨heq, hsome⟩
    . omega
    . rcases Option.isSome_iff_exists.mp hsome with ⟨w, hw⟩
      rw [hw, Option.toList_some, List.length_singleton] at hlength
      omega
  running _ h := nomatch h
  idle _ := rfl

theorem Sound.clear (h : Sound s) : Sound (clearReadyReconcile s) := by
  apply sound_clear h.past _ h.bound
  intro w hw
  rcases h.running w hw with ⟨own, hrun⟩
  exact hrun.logged

theorem Sound.schedule (h : Sound s) (now : Int) : Sound (scheduleReadyReconcile now s) := by
  have hclear := h.clear
  have hold : ∀ p ∈ s.probes, p.window < (clearReadyReconcile s).past.length := by
    intro p hp
    rcases hclear.bound p hp with hlt | ⟨-, hsome⟩
    . exact hlt
    . contradiction
  constructor
  . exact hclear.past
  . intro p hp
    exact .inl (hold p hp)
  . rintro w ⟨⟩
    exact ⟨none, {
      logged := eachAfter_nil
      timer := rfl
      startedAt := rfl
      early := by simp
      probes := by
        apply List.filter_eq_nil_iff.mpr
        intro p hp
        have hlt := hold p hp
        have hne : p.window ≠ (scheduleReadyReconcile now s).past.length := Nat.ne_of_lt hlt
        simpa [owns] using hne
      inFlight := rfl
      connected := rfl
      attempted := by simp [scheduleReadyReconcile, clearReadyReconcile]
      saw := by simp
      completed := by simp [lastCompleted] }⟩
  . intro hnone
    contradiction

theorem Sound.tick (h : Sound s) (hok : undisturbed s (.tick v))
    (htimer : s.readyReconcileTimer = true) (hwaits : s.probes.all (·.phase.waits) = true) :
    Sound (tick v s) := by
  cases hw : s.window with
  | none =>
    rw [h.idle hw] at htimer
    contradiction
  | some w =>
    rcases h.running w hw with ⟨own, hrun⟩
    have hwindow := note_window hw (.ticked v.now)
    have hlog : EachAfter (InOrder w.startedAt) (w.log ++ [.ticked v.now]) :=
      hrun.logged.concat hrun.early
    have hbound : ∀ p ∈ s.probes, p.window < s.past.length ∨ p.window = s.past.length ∧
        (note s (.ticked v.now)).window.isSome = true := by
      intro p hp
      rcases h.bound p hp with hlt | ⟨heq, -⟩
      . exact .inl hlt
      . exact .inr ⟨heq, by rw [hwindow]; rfl⟩
    have hended : Sound (clearReadyReconcile (note s (.ticked v.now))) := by
      refine sound_clear (by exact h.past) ?_ (by exact hbound)
      intro w' hw'
      rw [hwindow, Option.some.injEq] at hw'
      exact hw' ▸ hlog
    unfold Reconcile.tick
    dsimp only
    split
    . exact hended
    . next client hclient =>
      split
      . exact hended
      . next hstatus =>
        split
        . next hlate =>
          refine sound_clear (by exact h.past) ?_ ?_
          . intro w' hw'
            rw [note_window hwindow, Option.some.injEq] at hw'
            subst hw'
            apply hlog.concat
            split
            . trivial
            . next halive =>
              have hflag : s.lastProbeStateConnected = false := by
                rw [← Bool.not_eq_true]
                intro hflag
                have hdead := hok client hclient (by simpa using hstatus) (by
                  have hlate : readyReconcileTimeoutMs ≤ v.now - s.readyReconcileStartedAt := hlate
                  omega) hflag
                exact halive (by simp [note, hflag, hdead])
              have hticked : lastCompleted (w.log ++ [.ticked v.now]) = lastCompleted w.log :=
                lastCompleted_concat (by simp)
              exact fun hlast => hrun.not_connected hwaits hflag (hticked.symm.trans hlast)
          . intro p hp
            rcases h.bound p hp with hlt | ⟨heq, -⟩
            . exact .inl hlt
            . exact .inr ⟨heq, by rw [note_window hwindow]; rfl⟩
        . next hearly =>
          have hnext := hrun.tick (Int.not_le.mp hearly)
          split
          . next hflight =>
            constructor
            . exact h.past
            . exact hbound
            . intro w' hw'
              rw [hwindow, Option.some.injEq] at hw'
              exact ⟨own, hw' ▸ hnext⟩
            . intro hnone
              rw [hwindow] at hnone
              contradiction
          . next hflight =>
            have hown : own = none := by
              have hnot := hnext.inFlight
              rw [Bool.not_eq_true] at hflight
              rw [hflight] at hnot
              exact Option.isNone_iff_eq_none.mp (by simpa using hnot.symm)
            subst hown
            constructor
            . exact h.past
            . intro p hp
              rcases List.mem_append.mp hp with hp | hp
              . exact hbound p hp
              . rw [List.mem_singleton.mp hp]
                exact .inr ⟨rfl, by rw [hwindow]; rfl⟩
            . intro w' hw'
              rw [hwindow, Option.some.injEq] at hw'
              exact ⟨_, hw' ▸ hnext.probe⟩
            . intro hnone
              rw [hwindow] at hnone
              contradiction

/-- A step of a probe ends no window and opens none. -/
structure Kept (s s' : State) : Prop where
  past : s'.past = s.past
  timer : s'.readyReconcileTimer = s.readyReconcileTimer
  window : s'.window.isSome = s.window.isSome
  probes : ∀ p ∈ s'.probes, ∃ q ∈ s.probes, p.window = q.window

theorem Kept.setPhase (h : Kept s s') (hi : s.probes[i]? = some p) (phase : Phase) :
    Kept s (setPhase s' i p phase) where
  past := h.past
  timer := h.timer
  window := h.window
  probes q hq := by
    rcases List.mem_or_eq_of_mem_set hq with hq | rfl
    . exact h.probes q hq
    . exact ⟨p, List.mem_of_getElem? hi, rfl⟩

theorem kept_resolvedReady (s : State) (v : View) (own ready : Bool) :
    Kept s (resolvedReady v s own ready) := by
  have hrefl : Kept s s := ⟨rfl, rfl, rfl, fun p hp => ⟨p, hp, rfl⟩⟩
  have hnoted (attempted : Bool) (e : Entry) :
      Kept s (note { s with readyReconcileReloadAttempted := attempted } e) :=
    ⟨rfl, rfl, Option.isSome_map, fun p hp => ⟨p, hp, rfl⟩⟩
  unfold resolvedReady
  split
  . exact hnoted _ _
  . split
    . unfold maybeReloadDeadBridge
      repeat' split
      all_goals first
        | exact hrefl
        | exact hnoted _ _
    . exact hrefl

theorem kept_probeStep {e : ProbeEvent} (hi : s.probes[i]? = some p)
    (hstep : probeStep s i p e = some s') : Kept s s' := by
  have hrefl : Kept s s := ⟨rfl, rfl, rfl, fun p hp => ⟨p, hp, rfl⟩⟩
  unfold probeStep at hstep
  split at hstep
  . next v state _ =>
    rw [Option.some.injEq] at hstep
    subst hstep
    cases state with
    | none => exact hrefl.setPhase hi _
    | some connected =>
      have hnoted : Kept s (note { s with lastProbeStateConnected := connected }
          (.answered (owns s p) connected)) :=
        ⟨rfl, rfl, Option.isSome_map, fun p hp => ⟨p, hp, rfl⟩⟩
      unfold gotState
      dsimp only
      repeat' split
      all_goals exact hnoted.setPhase hi _
  . next hasWWebJS _ =>
    rw [Option.some.injEq] at hstep
    subst hstep
    cases hasWWebJS with
    | none => exact hrefl.setPhase hi _
    | some _ => exact hrefl.setPhase hi _
  . rw [Option.some.injEq] at hstep
    subst hstep
    exact (kept_resolvedReady s _ _ _).setPhase hi _
  . rw [Option.some.injEq] at hstep
    subst hstep
    exact hrefl.setPhase hi _
  . rw [Option.some.injEq] at hstep
    subst hstep
    exact ⟨rfl, rfl, Option.isSome_map, fun p hp => ⟨p, List.mem_of_mem_eraseIdx hp, rfl⟩⟩
  . contradiction

theorem probes_resolvedReady (s : State) (v : View) (own ready : Bool) :
    (resolvedReady v s own ready).probes = s.probes ∧
      (resolvedReady v s own ready).past = s.past ∧
      (resolvedReady v s own ready).lastProbeStateConnected = s.lastProbeStateConnected := by
  unfold resolvedReady
  split
  . exact ⟨rfl, rfl, rfl⟩
  . split
    . unfold maybeReloadDeadBridge
      repeat' split
      all_goals exact ⟨rfl, rfl, rfl⟩
    . exact ⟨rfl, rfl, rfl⟩

/-- A step of the probe of the window, or the answer to a search that a probe of an earlier one made. -/
theorem Running.probeStep {own : Option Probe} {e : ProbeEvent} (h : Running s w own)
    (hw : s.window = some w) (hi : s.probes[i]? = some p)
    (hown : owns s p = true ∨ ∃ hasWWebJS, e = .evaluated hasWWebJS)
    (hstep : probeStep s i p e = some s') : ∃ w' own', s'.window = some w' ∧ Running s' w' own' := by
  unfold Reconcile.probeStep at hstep
  split at hstep
  . next v state hphase =>
    have howner : owns s p = true := hown.resolve_right (by simp)
    rw [Option.some.injEq] at hstep
    subst hstep
    cases state with
    | none => exact ⟨w, _, hw, h.setPhase hi howner (by simp [Phase.saw]) (by simp [hphase, Phase.saw])⟩
    | some connected =>
      have hwindow : ∀ s₁ : State, s₁.window = s.window →
          (note s₁ (.answered true connected)).window =
            some { w with log := w.log ++ [.answered true connected] } :=
        fun s₁ hs₁ => note_window (hs₁.trans hw) _
      unfold gotState
      dsimp only
      rw [howner]
      cases connected with
      | false => exact ⟨_, _, hwindow _ rfl, h.answered hi howner rfl⟩
      | true =>
        simp only [Bool.not_true, Bool.false_eq_true, if_false]
        repeat' split
        all_goals exact ⟨_, _, hwindow _ rfl, h.answered hi howner rfl⟩
  . next hasWWebJS hphase =>
    rw [Option.some.injEq] at hstep
    subst hstep
    cases hcase : owns s p with
    | false =>
      cases hasWWebJS with
      | none => exact ⟨w, _, hw, h.setPhase_of_not_owns hi hcase _⟩
      | some _ => exact ⟨w, _, hw, h.setPhase_of_not_owns hi hcase _⟩
    | true =>
      have hflag : s.lastProbeStateConnected = true := by
        rcases h.own_eq hi hcase with ⟨rfl, -, -⟩
        exact h.saw p rfl true (by rw [hphase]; rfl)
      cases hasWWebJS with
      | none =>
        exact ⟨w, _, hw, h.setPhase hi hcase (by simp [Phase.saw, hflag]) (by simp [hphase, Phase.saw])⟩
      | some _ =>
        exact ⟨w, _, hw, h.setPhase hi hcase (by simp [Phase.saw, hflag]) (by simp [hphase, Phase.saw])⟩
  . next saw ready v hphase =>
    have hown : owns s p = true := hown.resolve_right (by simp)
    rw [Option.some.injEq] at hstep
    subst hstep
    rw [hown]
    rcases h.resolvedReady hw v ready with ⟨w', hw', hrun⟩
    rcases probes_resolvedReady s v true ready with ⟨hprobes, hpast, hflag⟩
    refine ⟨w', _, hw', hrun.setPhase (hprobes ▸ hi) (by rw [owns, hpast]; exact hown) ?_ ?_⟩
    . intro b hb
      rcases h.own_eq hi hown with ⟨rfl, -, -⟩
      rw [hflag]
      exact h.saw p rfl b (by rw [hphase]; exact hb)
    . rw [hphase]
      exact fun hsaw => hsaw
  . next saw v hphase =>
    have hown : owns s p = true := hown.resolve_right (by simp)
    rw [Option.some.injEq] at hstep
    subst hstep
    refine ⟨w, _, hw, h.setPhase hi hown ?_ ?_⟩
    . intro b hb
      rcases h.own_eq hi hown with ⟨rfl, -, -⟩
      exact h.saw p rfl b (by rw [hphase]; exact hb)
    . rw [hphase]
      exact fun hsaw => hsaw
  . next saw hphase =>
    have hown : owns s p = true := hown.resolve_right (by simp)
    rw [Option.some.injEq] at hstep
    subst hstep
    exact ⟨_, _, note_window hw _, h.finish hi hown hphase⟩
  . contradiction

theorem Sound.probeStep {e : ProbeEvent} (h : Sound s) (hok : undisturbed s (.probe i e))
    (hi : s.probes[i]? = some p) (hstep : probeStep s i p e = some s') : Sound s' := by
  have hkept := kept_probeStep hi hstep
  constructor
  . rw [hkept.past]
    exact h.past
  . intro q hq
    rcases hkept.probes q hq with ⟨q', hq', heq⟩
    rw [hkept.past, hkept.window, heq]
    exact h.bound q' hq'
  . intro w' hw'
    have hsome : s.window.isSome = true := by
      rw [← hkept.window, hw']
      rfl
    rcases Option.isSome_iff_exists.mp hsome with ⟨w, hw⟩
    rcases h.running w hw with ⟨own, hrun⟩
    have hown : owns s p = true ∨ ∃ hasWWebJS, e = .evaluated hasWWebJS := by
      cases e with
      | evaluated hasWWebJS => exact .inr ⟨hasWWebJS, rfl⟩
      | gotState _ _ | callback _ | finish => exact .inl (hok hsome p hi)
    rcases hrun.probeStep hw hi hown hstep with ⟨w₁, own', hw₁, hrun'⟩
    rw [hw₁, Option.some.injEq] at hw'
    exact ⟨own', hw' ▸ hrun'⟩
  . intro hnone
    rw [hkept.timer]
    apply h.idle
    rw [← Option.isNone_iff_eq_none, ← Option.isSome_eq_false_iff, ← hkept.window, hnone]
    rfl

theorem Sound.step {e : Event} (h : Sound s) (hok : undisturbed s e) (hstep : step s e = some s') :
    Sound s' := by
  cases e with
  | schedule now =>
    rw [Reconcile.step, Option.some.injEq] at hstep
    exact hstep ▸ h.schedule now
  | clear =>
    rw [Reconcile.step, Option.some.injEq] at hstep
    exact hstep ▸ h.clear
  | tick v =>
    rw [Reconcile.step] at hstep
    split at hstep
    . next hdue =>
      rw [Bool.and_eq_true] at hdue
      rw [Option.some.injEq] at hstep
      exact hstep ▸ h.tick hok hdue.1 hdue.2
    . contradiction
  | probe i e =>
    rw [Reconcile.step, Option.bind_eq_some_iff] at hstep
    rcases hstep with ⟨p, hi, hstep⟩
    exact h.probeStep hok hi hstep

end Steps

section Claim

/--
The windows keep to their times and their own probes, and good credentials are kept, as long as no probe
of an earlier window goes on in a later one and a page that was seen connected last has a dead bridge at
the deadline.
-/
theorem keepsCredentials_of_undisturbed {s : State} (h : machine.Reach undisturbed init s) :
    KeepsCredentials s :=
  (h.invariant sound_init fun _ _ _ hs hok hstep => hs.step hok hstep).keepsCredentials

/-- A page without a bridge, and one whose bridge is attached but whose user is not known yet. -/
def deadBridge : Client := ⟨true, some false⟩

def noUser : Client := ⟨false, some true⟩

def viewAt (now : Int) (client : Client) : View := ⟨now, some client, .authenticating⟩

/-- A tick, and the probe that it starts. -/
def probed (now : Int) (client : Client) : List Event :=
  [.tick (viewAt now client), .probe 0 (.gotState (viewAt now client) (some true)),
    .probe 0 (.callback (viewAt now client)), .probe 0 .finish]

theorem keepsCredentials_deadBridge : ∃ s, machine.Reach undisturbed init s ∧
    s.past.map (·.log.filter fun e => e = .reloaded true 50000 ∨ e = .bridgeDead) =
      [[.reloaded true 50000, .bridgeDead]] ∧ KeepsCredentials s := by
  have hexec : (machine.exec undisturbed init
      (.schedule 0 :: probed 2000 deadBridge ++ probed 50000 deadBridge ++ [.tick (viewAt 92000 deadBridge)])).map
        (fun s => s.past.map (·.log.filter fun e => e = .reloaded true 50000 ∨ e = .bridgeDead)) =
          some [[.reloaded true 50000, .bridgeDead]] := by decide +kernel
  rcases Machine.reach_of_exec_map hexec with ⟨s, hreach, hlog⟩
  exact ⟨s, hreach, hlog, keepsCredentials_of_undisturbed hreach⟩

/--
The credentials of a page that was seen connected are wiped, and a probe of the first window makes the
second one take its page for connected.
-/
theorem connected_page_wiped :
    (¬∀ s, machine.Reach Machine.anyStep init s →
      ∀ w ∈ s.past, EachAfter (InOrder w.startedAt) w.log) ∧
    ¬∀ s, machine.Reach Machine.anyStep init s → ∀ w, s.window = some w → Current s w := by
  constructor
  . intro h
    have hexec : (machine.exec Machine.anyStep init
        (.schedule 0 :: probed 2000 noUser ++ [.tick (viewAt 92000 noUser)])).map (·.past) =
          some [⟨0, [.ticked 2000, .answered true true, .completed (some true), .ticked 92000,
            .recovered]⟩] := by decide +kernel
    rcases Machine.reach_of_exec_map hexec with ⟨s, hreach, hpast⟩
    have hlog := h s hreach _ (by rw [hpast]; exact List.mem_singleton_self _)
    have hlast : lastCompleted [.ticked 2000, .answered true true, .completed (some true),
        .ticked 92000] ≠ some (some true) := hlog _ .recovered [] rfl
    exact hlast rfl
  . intro h
    have hexec : (machine.exec Machine.anyStep init [.schedule 0, .tick (viewAt 2000 noUser),
        .schedule 10000, .probe 0 (.gotState (viewAt 11000 noUser) (some true))]).map
          (fun s => (s.window, s.lastProbeStateConnected)) =
            some (some ⟨10000, [.answered false true]⟩, true) := by decide +kernel
    rcases Machine.reach_of_exec_map hexec with ⟨s, hreach, hs⟩
    rw [Prod.mk.injEq] at hs
    have hconnected := (h s hreach _ hs.1).connected
    rw [hs.2] at hconnected
    contradiction

end Claim

end OpenWA.Wwebjs.Reconcile
