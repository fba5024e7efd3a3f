import OpenWA.Lifecycle.Controls

/-!
This module contains the verbs of `SessionService`, which claim a session before they start it and
hand the claim back afterwards, the ownership heartbeat and the takeover sweep, and the system of all
functions and events of one session.
-/

namespace OpenWA.Lifecycle

open Async

variable (p : Nat)

section Ownership

/-- `SessionOwnershipService.claim` -/
def claim : Job Bool := do
  let now ← run p .claimCall fun _ s => .ok s.now
  let affected ← run p (.claim now) fun x s =>
    if x = .fault then .error .transient else .ok (s.affects (s.claimable p now))
  run p (.claimed affected) fun _ _ => .ok affected

def releaseUnlessEngineActive : Job Unit := do
  let now ← run p .releaseCheck fun _ s => .ok (if (s.node p).isEngineActive then none else some s.now)
  match now with
  | some now => run p (.release now) fun x _ => if x = .fault then .error .transient else .ok ()
  | none => pure ()

/-- The renewal of a live claim; the result says whether it failed. -/
def renewUpdate (live : Option Nat) : Job Bool :=
  match live with
  | some now => run p (.renewUpdate now) fun x _ => .ok (decide (x = .fault))
  | none => pure false

/-- The queries of `renew`: whether the row still names this node, or `none` after a fault. -/
def renewQueries (live : Option Nat) : Job (Option Bool) := do
  let failed ← renewUpdate p live
  if failed then
    return none
  else
    run p .renewFind fun x s =>
      .ok (if x = .fault then none else some (s.affects fun row => row.nodeId = some (s.host p)))

/-- `renew` for a held session; a lost one is handed to `stopOrphanEngines`. -/
def renewHeld (live : Option Nat) : Job Unit := do
  let kept ← renewQueries p live
  match kept with
  | some kept => do
    pass p (.renewVerdict kept)
    if kept then
      pure ()
    else
      stopOrphanEngines p
  | none => pure ()

def renew : Job Unit := do
  let (held, live) ← run p .renewCall fun _ s =>
    let n := s.node p
    .ok (n.owned, if n.isEngineActive then some s.now else none)
  if held then
    renewHeld p live

end Ownership

section Service

/-- The refusal of a session whose claim failed. -/
def refuseClaim : Job Unit := do
  let _ ← requireSession p .claimFind
  throw (.http 409)

/-- The second launch of `startWithTransientRetry`. -/
def retryStart (before : Nat) (err : LifecycleError) : Job Unit := do
  run p (.retryWait before) fun _ s => if (s.node p).stopRequests = before then .ok () else .error err
  let ok ← claim p
  if ok then
    start p
  else
    refuseClaim p

def startWithTransientRetry : Job Unit := do
  let before ← run p .retryBegin fun _ s => .ok (s.node p).stopRequests
  (start p).catch' fun err => if err = .transient then retryStart p before err else throw err

/-- `catch (error) { await release; throw error }` -/
def releaseAndThrow (err : LifecycleError) : Job Unit := do
  releaseUnlessEngineActive p
  throw err

def serviceStart : Job Unit := do
  let ok ← claim p
  if ok then
    (startWithTransientRetry p).catch' (releaseAndThrow p)
    releaseUnlessEngineActive p
  else
    refuseClaim p

def assertNotHeldElsewhere : Job Unit := do
  let now ← run p .claimCall fun _ s => .ok s.now
  let held ← run p (.stopHeld now) fun x s =>
    .ok (if x = .fault then none else some (s.affects (s.heldByOther p now)))
  match held with
  | none => do
    pass p .stopHeldFault
    throw .transient
  | some true => do
    pass p .stopHeldElsewhere
    throw (.http 409)
  | some false => pure ()

/-- `discardStopMarkForMissingSession`, before the error is thrown again. -/
def discardStopMark (err : LifecycleError) : Job Unit :=
  if err = .http 404 then do
    pass p .discardStopMark
    throw err
  else
    throw err

def stopFenced : Job Unit := do
  assertNotHeldElsewhere p
  stop p

def serviceStop : Job Unit := do
  pass p .stopCount
  (stopFenced p).catch' (discardStopMark p)
  releaseUnlessEngineActive p

/-- A verb that hands the claim back unless it was refused as not started. -/
def releaseUnlessRefused (verb : Job Unit) : Job Unit := do
  let body : Job Unit := do
    verb
    releaseUnlessEngineActive p
  body.catch' fun err => if err = .http 400 then throw err else releaseAndThrow p err

def serviceLogout : Job Unit := releaseUnlessRefused p (logout p)

def serviceForceKill : Job Unit := releaseUnlessRefused p (forceKill p)

/-- `markLapsedDisconnected` -/
def sweepCorrect (session : Session) (goneBefore : Nat) : Job Unit :=
  if session.correctable goneBefore then
    pass p (.sweepCorrect session goneBefore)
  else
    pure ()

/-- `isEligible` -/
def Session.eligible (session : Session) : Bool := session.phone.any (· ≠ []) && session.status.takeover

/-- `SessionTakeoverService.sweep` for this session; `goneBefore` is its stranded cutoff. -/
def sweepLapsed (session : Session) (goneBefore : Nat) : Job Unit := do
  sweepCorrect p session goneBefore
  if session.eligible then
    (serviceStart p).catch' fun _ => pure ()

def sweep (strandedAfter : Nat) : Job Unit := do
  let now ← run p .sweepCall fun _ s => .ok s.now
  let lapsed ← run p (.sweepFind now) fun x s =>
    if x = .fault then .error .transient else .ok (s.row.filter fun row => s.lapsedHeldByOther p now row)
  match lapsed with
  | some session => sweepLapsed p session (now - strandedAfter)
  | none => pure ()

end Service

/--
What happens outside the functions: calls of the verbs of the lifecycle and of the service, engine
callbacks, a watchdog verdict, a timer that fires, the interval timers of heartbeat and sweep, the
database, the clock, and processes that boot and crash.
-/
inductive Event where
  | start (p : Nat)
  | verb (v : Verb) (p : Nat)
  | stopOrphanEngines (p : Nat)
  | serviceStart (p : Nat)
  | serviceStop (p : Nat)
  | serviceLogout (p : Nat)
  | serviceForceKill (p : Nat)
  | ready (p e : Nat) (phone : Jid)
  | qrCode (p e : Nat)
  | stateChanged (p e : Nat) (status : SessionStatus)
  | disconnected (p e : Nat) (unlink : Bool)
  | error (p e : Nat) (terminal : Bool)
  | watchdog (p e : Nat)
  | timer (p k : Nat)
  | heartbeat (p : Nat)
  | sweep (p : Nat) (strandedAfter : Nat)
  | database (w : Nat) (fault : Bool)
  | tick (ms : Nat)
  | boot (p : Nat)
  | crash (p : Nat)
deriving DecidableEq

/-- The account-binding guard of `onReady`. -/
def Engine.mismatch (g : Engine) (phone : Jid) : Bool :=
  match g.previousPhone with
  | some bound => bound ≠ [] && phone ≠ [] && userPart phone ≠ userPart bound
  | none => false

namespace Node

variable (n : Node)

/-- `onReady` makes `rejectRebind` take the engine down. -/
def refuses (e : Nat) (phone : Jid) : Bool := n.isLive e && (n.engines e).mismatch phone

/-- `handleEngineReady` for a live engine: the attempts are reset, a timer is not. -/
def accept : Node :=
  match n.reconnect with
  | some k => n.setState k fun st => { st with attempts := 0 }
  | none => n

/-- `onReady` and, for a mismatch, `rejectRebind` up to the settlement of `logout`. -/
def onReady (e : Nat) (phone : Jid) : Node :=
  if n.refuses e phone then n.retire.tear e
  else if n.isLive e then n.accept
  else n

/-- `onStateChanged` persists the status or parks it. -/
def reports (e : Nat) (status : SessionStatus) : Bool :=
  n.isLive e && !(status = .disconnected && n.operatorTeardown = some e)

def parkStatus (status : SessionStatus) : Option Node :=
  if status = .failed then n.parkReconnectInitFailure .status none else none

def onStateChanged (e : Nat) (status : SessionStatus) : Node :=
  if n.reports e status then (n.parkStatus status).getD n else n

theorem parksOnly_onStateChanged (e : Nat) (status : SessionStatus) : n.ParksOnly (n.onStateChanged e status) := by
  unfold onStateChanged
  split
  . cases hpark : n.parkStatus status with
    | none => exact ParksOnly.refl n
    | some parked =>
      unfold parkStatus at hpark
      split at hpark
      . exact parksOnly_of_park hpark
      . contradiction
  . exact ParksOnly.refl n

/-- `onError` -/
def onError (e : Nat) (terminal : Bool) : Node :=
  if n.isLive e then
    (n.parkReconnectInitFailure (.error e) (some terminal)).getD (n.runFailure (.error e))
  else
    n

theorem onError_cases (e : Nat) (terminal : Bool) :
    n.ParksOnly (n.onError e terminal) ∨ n.isLive e = true ∧ n.onError e terminal = n.runFailure (.error e) := by
  unfold onError
  split
  . next hlive =>
    cases hpark : n.parkReconnectInitFailure (.error e) (some terminal) with
    | none => exact .inr ⟨hlive, rfl⟩
    | some parked => exact .inl (parksOnly_of_park hpark)
  . exact .inl (ParksOnly.refl n)

/-- The handle of a timer that fired is not pending any more. -/
def spendTimer (k : Nat) : Node :=
  n.setState k fun st => { st with timer := st.timer.map fun t => { t with pending := false } }

/-- `executeReconnect` up to its first await. -/
def beginReconnect (k : Nat) : Node :=
  if n.stopping then
    if n.reconnect = some k then (n.spendTimer k).cancelReconnect else n.spendTimer k
  else
    (n.spendTimer k).tearRegistered

end Node

/-- The process an event happens in, if it happens in one. -/
def Event.pid? (v : Event) : Option Nat :=
  match v with
  | .start p | .verb _ p | .stopOrphanEngines p | .serviceStart p | .serviceStop p | .serviceLogout p
  | .serviceForceKill p | .ready p _ _ | .qrCode p _ | .stateChanged p _ _ | .disconnected p _ _
  | .error p _ _ | .watchdog p _ | .timer p _ | .heartbeat p | .sweep p _ | .boot p | .crash p => some p
  | .database .. | .tick _ => none

/-- An event can happen. -/
def Event.enabled (v : Event) (s : State) : Bool :=
  match v with
  | .boot p => !s.alive.contains p && !s.crashed.contains p && s.alive.all fun q => s.host q != s.host p
  | .database w _ => !s.settled w
  | .tick _ => true
  | .ready p e _ | .qrCode p e | .disconnected p e _ | .error p e _ | .watchdog p e =>
    s.alive.contains p && ((s.node p).engines e).initialised
  | .stateChanged p e status => s.alive.contains p && ((s.node p).engines e).initialised && status ≠ .created
  | .timer p k => s.alive.contains p && ((s.node p).states k).timer.any (·.pending)
  | .start p | .verb _ p | .stopOrphanEngines p | .serviceStart p | .serviceStop p | .serviceLogout p
  | .serviceForceKill p | .heartbeat p | .sweep p _ | .crash p => s.alive.contains p

/-- What an event does at once to the memory of the process it happens in. -/
def Event.memory (v : Event) (n : Node) : Node :=
  match v with
  | .ready _ e phone => n.onReady e phone
  | .stateChanged _ e status => n.onStateChanged e status
  | .error _ e terminal => n.onError e terminal
  | .timer _ k => n.beginReconnect k
  | .boot _ | .crash _ => Node.booted
  | _ => n

/-- The writes by id that an event sends to the database at once. -/
def Event.sends (v : Event) (n : Node) : List Write :=
  match v with
  | .ready _ e phone => if n.isLive e && !n.refuses e phone then [.ready phone] else []
  | .qrCode _ e => if n.isLive e then n.persistStatus .qrReady else []
  | .stateChanged _ e status =>
    if n.reports e status && (n.parkStatus status).isNone then n.persistStatus status else []
  | .error _ e terminal =>
    if n.isLive e && (n.parkReconnectInitFailure (.error e) (some terminal)).isNone then n.persistStatus .failed
    else []
  | _ => []

/-- What an event does to the state at once. -/
def Event.effect (v : Event) (s : State) : State :=
  match v with
  | .database w fault => s.settle w fault
  | .tick ms => { s with now := s.now + ms }
  | .boot p => { s.act p v.memory [] with alive := p :: s.alive }
  | .crash p => { s.act p v.memory [] with alive := s.alive.filter (· != p), crashed := p :: s.crashed }
  | _ =>
    match v.pid? with
    | some p => s.act p v.memory (v.sends (s.node p))
    | none => s

theorem Event.effect_node (v : Event) (s : State) (q : Nat) :
    (v.effect s).node q = if v.pid? = some q then v.memory (s.node q) else s.node q := by
  cases v <;> simp [Event.effect, Event.pid?, State.act, State.settle, eq_comm]

theorem Event.effect_booted {v : Event} {s : State} {p : Nat} (h : v = .boot p ∨ v = .crash p) :
    (v.effect s).node p = Node.booted := by
  rcases h with rfl | rfl <;> simp [effect_node, pid?, memory]

theorem Event.effect_writes (v : Event) (s : State) (h : ∀ w fault, v ≠ .database w fault) :
    (v.effect s).writes =
      s.writes ++ State.number s.issued ((v.pid?.map fun p => v.sends (s.node p)).getD []) := by
  cases v with
  | database w fault => exact absurd rfl (h w fault)
  | tick ms => simp [Event.effect, Event.pid?, State.number]
  | _ => rfl

theorem Event.effect_issued (v : Event) (s : State) :
    (v.effect s).issued = s.issued + ((v.pid?.map fun p => v.sends (s.node p)).getD []).length := by
  cases v <;> simp [Event.effect, Event.pid?, State.act, State.settle, Event.sends]

theorem Event.effect_row (v : Event) (s : State) (h : ∀ w fault, v ≠ .database w fault) :
    (v.effect s).row = s.row := by
  cases v with
  | database w fault => exact absurd rfl (h w fault)
  | _ => rfl

theorem Event.numbered (v : Event) {s : State} (h : s.Numbered) : (v.effect s).Numbered := by
  by_cases hv : ∃ w fault, v = .database w fault
  . rcases hv with ⟨w, fault, rfl⟩
    exact h.settle w fault
  . exact h.of_writes (v.effect_writes s fun w fault heq => hv ⟨w, fault, heq⟩) (v.effect_issued s)

theorem Event.effect_outcome (v : Event) (s : State) (h : ∀ w fault, v ≠ .database w fault) :
    (v.effect s).outcome =
      s.outcome.map (State.applyAll ((v.pid?.map fun p => v.sends (s.node p)).getD [])) :=
  State.outcome_of_writes (v.effect_row s h) (v.effect_writes s h)

@[simp]
theorem Event.effect_host (v : Event) (s : State) : (v.effect s).host = s.host := by
  cases v <;> rfl

theorem Event.now_le_effect (v : Event) (s : State) : s.now ≤ (v.effect s).now := by
  cases v with
  | tick ms => exact Nat.le_add_right _ _
  | _ => exact Nat.le_refl _

theorem Event.effect_alive (v : Event) (s : State) :
    (v.effect s).alive =
      match v with
      | .boot p => p :: s.alive
      | .crash p => s.alive.filter (· != p)
      | _ => s.alive := by
  cases v <;> rfl

theorem Event.effect_crashed (v : Event) (s : State) :
    (v.effect s).crashed =
      match v with
      | .crash p => p :: s.crashed
      | _ => s.crashed := by
  cases v <;> rfl

theorem Event.alive_of_enabled {v : Event} {s : State} {p : Nat} (h : v.enabled s = true)
    (hpid : v.pid? = some p) : p ∈ (v.effect s).alive ∨ p ∈ (v.effect s).crashed := by
  rw [effect_alive, effect_crashed]
  cases v <;> simp_all [enabled, pid?]

/-- The activation an event starts. -/
def Event.task (v : Event) (s : State) : Job Unit :=
  match v with
  | .start p => Lifecycle.start p
  | .verb v p => v.task p
  | .stopOrphanEngines p => Lifecycle.stopOrphanEngines p
  | .serviceStart p => Lifecycle.serviceStart p
  | .serviceStop p => Lifecycle.serviceStop p
  | .serviceLogout p => Lifecycle.serviceLogout p
  | .serviceForceKill p => Lifecycle.serviceForceKill p
  | .ready p e phone =>
    if (s.node p).refuses e phone then rejectRebind p e else pure ()
  | .disconnected p e unlink =>
    if (s.node p).isLive e then handleEngineDisconnected p e unlink else pure ()
  | .watchdog p e => if (s.node p).isLive e then handleEngineDisconnected p e false else pure ()
  | .timer p k =>
    let n := s.node p
    match (n.states k).timer with
    | some t => if n.stopping then pure () else executeReconnect p k t.session n.engine
    | none => pure ()
  | .heartbeat p => renew p
  | .sweep p strandedAfter => Lifecycle.sweep p strandedAfter
  | .qrCode .. | .stateChanged .. | .error .. | .database .. | .tick _ | .boot _ | .crash _ => pure ()

def sessionEvent (v : Event) (s : State) : Option (State × Job Unit) :=
  if v.enabled s then some (v.effect s, v.task s) else none

end OpenWA.Lifecycle
