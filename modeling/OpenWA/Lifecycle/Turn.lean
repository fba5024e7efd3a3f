import OpenWA.Async.System
import OpenWA.Lifecycle.State

/-!
This module contains the turns of the lifecycle functions: the places where they suspend, when the
await of a place may settle, and what the code that then runs up to the next await does to the
state. A place carries the locals that its turn uses.
-/

namespace OpenWA.Lifecycle

open Async

inductive LifecycleError where
  /-- an `HttpException` other than `EngineTransportError` -/
  | http (status : Nat)
  /-- a failure that `isTransientLaunchFailure` accepts -/
  | transient
  /-- an engine failure; `terminal` is `isKnownTerminalEngineFailure` of its message -/
  | engine (terminal : Bool)
deriving DecidableEq

def LifecycleError.terminal (e : LifecycleError) : Bool :=
  match e with
  | .engine terminal => terminal
  | .http _ | .transient => false

/-- What an await settles with. -/
inductive Answer where
  | ok
  /-- the repository call rejected and had no effect -/
  | fault
  /-- the engine call rejected, or lost the race against its deadline -/
  | failed
  /-- the deadline of a fence or of the initialisation passed -/
  | deadline
  /-- `engine.initialize()` rejected -/
  | rejected (e : LifecycleError)
  /-- other sessions use up `maxConcurrentSessions` -/
  | capacity
deriving DecidableEq

inductive Verb where
  | stop
  | logout
  | forceKill
  | delete
deriving DecidableEq

inductive Place where
  -- initializeEngine
  | initialStatus (e : Nat)
  | initialised (e : Nat)
  | timeoutTeardown (e : Nat)
  | timeoutStatus (w : Nat)
  -- start
  | startReserve
  | startFind
  | startChecks
  | startPrepare
  | startCreate (session : Session)
  | startLaunched
  | startFailed
  | startFailedTeardown (e : Nat)
  | startFailedStatus (w : Nat)
  | startRelease
  -- isSessionRetired and what follows it
  | retiredFind
  | resurrected
  | resurrectedTeardown (e : Nat)
  | purgeFind
  | requireSession
  -- stop, logout, forceKill and delete
  | retireFind (v : Verb)
  | dropStopMark
  | deleteFence
  | retireMark (v : Verb)
  | retireInitial (v : Verb) (e : Nat) (pending : Bool)
  | retireTeardown (v : Verb) (e : Nat)
  | retireEscalated (e : Nat)
  | retireStatus (v : Verb) (e : Option Nat) (w : Nat)
  | retirePhone (w : Nat)
  | retireDone (v : Verb)
  | deleteFenceAgain (e : Option Nat)
  | deleteFenceStatus (w : Nat)
  | deleteRow
  | deleteDone
  -- stopOrphanEngines
  | orphanMark
  | orphanTeardown (e : Nat)
  -- rejectRebind and handleEngineDisconnected
  | rebindTeardown (e : Nat)
  | rebindStatus (w : Nat)
  | disconnectFind (e : Nat)
  | disconnected (e : Nat) (unlink : Bool) (session : Session)
  -- executeReconnect
  | oldTeardown (k e : Nat)
  | oldForceDestroy (k e : Nat)
  | reconnectFence (k : Nat)
  | reconnectCreate (k : Nat) (session : Session)
  | reconnectLaunched (k e : Nat)
  | reconnectFailed (k : Nat) (session : Session) (launched : Option Nat) (err : LifecycleError)
  -- SessionOwnershipService
  | claimCall
  | claim (now : Nat)
  | claimed (ok : Bool)
  | claimFind
  | releaseCheck
  | release (now : Nat)
  | renewCall
  | renewUpdate (now : Nat)
  | renewFind
  | renewVerdict (kept : Bool)
  -- SessionService and the takeover sweep
  | retryBegin
  | retryWait (before : Nat)
  | stopCount
  | stopHeld (now : Nat)
  | stopHeldFault
  | stopHeldElsewhere
  | discardStopMark
  | sweepCall
  | sweepFind (now : Nat)
  | sweepCorrect (session : Session) (goneBefore : Nat)
deriving DecidableEq

/-- A place in the code of one process. -/
structure Loc where
  pid : Nat
  place : Place
deriving DecidableEq

/-- A repository call, which may reject. -/
def Place.isQuery (pt : Place) : Bool :=
  match pt with
  | .startFind | .retiredFind | .purgeFind | .requireSession | .retireFind _ | .retireDone _ | .deleteRow
  | .disconnectFind _ | .claim _ | .claimFind | .release _ | .renewUpdate _ | .renewFind | .stopHeld _
  | .sweepFind _ | .sweepCorrect .. => true
  | _ => false

/-- A teardown that `teardownEngineSafely` waits for: it resolves to whether the teardown completed. -/
def Place.isTeardown (pt : Place) : Bool :=
  match pt with
  | .timeoutTeardown _ | .startFailedTeardown _ | .resurrectedTeardown _ | .retireTeardown ..
  | .retireEscalated _ | .orphanTeardown _ | .rebindTeardown _ | .oldTeardown .. | .oldForceDestroy .. => true
  | _ => false

/-- A wait for `awaitPendingTeardown`, which may time out. -/
def Place.isFence (pt : Place) : Bool :=
  match pt with
  | .startPrepare | .deleteFence | .deleteFenceAgain _ | .reconnectFence _ => true
  | _ => false

/-- The write that an await waits for, if it is an awaited update by id. -/
def Place.awaits (pt : Place) (n : Node) : Option Nat :=
  match pt with
  | .initialStatus e => some (n.engines e).initialStatus
  | .timeoutStatus w | .startFailedStatus w | .retireStatus _ _ w | .retirePhone w | .deleteFenceStatus w
  | .rebindStatus w => some w
  | _ => none

/-- The await of a place may settle with `x`. -/
def guard (l : Loc) (x : Answer) (s : State) : Bool :=
  s.alive.contains l.pid &&
    match l.place with
    | .initialised _ => x = .ok || x = .deadline || (x matches .rejected _)
    | .startChecks => x = .ok || x = .capacity
    | .retireInitial _ e pending =>
      x = .ok && (!pending || s.settled ((s.node l.pid).engines e).initialStatus) || x = .deadline && pending
    | pt =>
      match pt.awaits (s.node l.pid) with
      | some w => x = .ok && s.settled w
      | none =>
        x = .ok || x = .fault && pt.isQuery || x = .failed && pt.isTeardown || x = .deadline && pt.isFence

namespace Node

variable (n : Node)

/-- A status write that is fenced on ownership. -/
def persistStatus (status : SessionStatus) : List Write :=
  if n.owned then [.status status] else []

/-- The registration of the engine that `initializeEngine` creates; `w` is its INITIALIZING write. -/
def createEngine (session : Session) (w : Nat) : Node :=
  { n.setEngine n.created fun _ => ⟨session.phone, w, false, false⟩ with
    engine := some n.created
    created := n.created + 1
    pendingInitialStatus := some n.created }

/-- The INITIALIZING write of `e` is not tracked any more. -/
def dropInitialStatus (e : Nat) : Node :=
  if n.pendingInitialStatus = some e then { n with pendingInitialStatus := none } else n

/-- The turn after the INITIALIZING write, up to the call of `initialize()`. -/
def resumeLaunch (e : Nat) (rejected : Bool) : Node :=
  if !rejected && n.isLive e && !n.stopping then
    (n.dropInitialStatus e).setEngine e fun g => { g with initialised := true }
  else
    n.dropInitialStatus e

/-- The `catch` of `start`: the registered engine is evicted and destroyed. -/
def evictOrphan : Node :=
  match n.engine with
  | some e => n.evictAndForceDestroy e
  | none => n.cancelReconnect

/-- `stoppingSessions.add(id)` and `cancelReconnect(id)`. -/
def retire : Node := { n with stopping := true }.cancelReconnect

/-- A retiring verb marks the session and captures the registered engine. -/
def retireMark (v : Verb) : Node :=
  match n.engine, v with
  | some _, .delete | none, .stop | none, .delete => n.retire
  | some e, _ => { n.retire with operatorTeardown := some e }
  | none, _ => n

/-- `awaitInitialStatus` has settled: it threw, or the teardown is called. -/
def retireInitial (v : Verb) (e : Nat) (rejected : Bool) : Node :=
  if !rejected then n.tear e
  else if v = .delete then n
  else n.clearOperatorTeardown e

/-- The captured engine leaves the registry. -/
def retireEvict (v : Verb) (e : Nat) (tornDown : Bool) : Node :=
  if v = .stop && tornDown then (n.deleteIfLive e).clearOperatorTeardown e else n.deleteIfLive e

/-- Run a failure that was parked or need not be parked. -/
def runFailure (f : Failure) : Node :=
  match f with
  | .status => n
  | .error e => n.cancelReconnect.evictAndForceDestroy e

def evictRegistered : Node :=
  match n.engine with
  | some e => n.evictAndForceDestroy e
  | none => n

/-- The reconnect budget of the registered state is spent. -/
def exhausted : Bool :=
  match n.reconnect with
  | some k => (n.states k).exhausted
  | none => false

/-- `scheduleReconnect`; `session` is what the timer hands to the attempt. -/
def scheduleReconnect (session : Session) : Node :=
  match n.reconnect with
  | none => n
  | some k =>
    if n.exhausted then
      n.evictRegistered.cancelReconnect
    else
      n.setState k fun st => { st with attempts := st.attempts + 1, timer := some ⟨session, true⟩ }

/-- The FAILED of an exhausted budget. -/
def exhaustedWrites : List Write :=
  if n.exhausted then n.persistStatus .failed else []

/-- The failure that is parked for the attempt of state `k`, if it still is the registered one. -/
def parked (k : Nat) : Option ParkedFailure :=
  if n.reconnect = some k then (n.states k).parkedFailure else none

/-- An attempt is done with its launch: `initInFlight` goes, and what was parked. -/
def settleLaunch (k : Nat) (launched : Bool) : Node :=
  n.setState k fun st => { st with initInFlight := !launched && st.initInFlight, parkedFailure := none }

/-- The launch of an attempt resolved. -/
def reconnectLaunched (k : Nat) : Node :=
  match n.parked k with
  | some parked => (n.settleLaunch k true).runFailure parked.run
  | none => n.settleLaunch k true

/-- What is parked is applied by the `catch` of an attempt that failed with `err`. -/
def parkedTerminal (k : Nat) (err : LifecycleError) : Option ParkedFailure :=
  (n.parked k).filter fun parked => parked.terminal || err.terminal

/-- The `catch` of `executeReconnect`. -/
def reconnectFailed (k : Nat) (session : Session) (launched : Bool) (err : LifecycleError) : Node :=
  if n.reconnect = some k then
    match n.parkedTerminal k err with
    | some parked => (n.settleLaunch k launched).runFailure parked.run
    | none =>
      if n.stopping then (n.settleLaunch k launched).evictRegistered.cancelReconnect
      else (n.settleLaunch k launched).evictRegistered.scheduleReconnect session
  else
    n.settleLaunch k launched

def reconnectFailedWrites (k : Nat) (err : LifecycleError) : List Write :=
  if n.reconnect = some k then
    match n.parkedTerminal k err with
    | some _ => n.persistStatus .failed
    | none => if n.stopping then [] else n.exhaustedWrites
  else
    []

/-- `handleEngineDisconnected` after it re-read the row. -/
def disconnected (e : Nat) (session : Session) : Node :=
  if n.isLive e then n.scheduleReconnect session else n

def disconnectedWrites (e : Nat) (unlink : Bool) : List Write :=
  if n.isLive e then
    (if unlink && n.owned then [.clearPhone] else []) ++ .status .disconnected :: n.exhaustedWrites
  else
    []

/-- `releaseUnlessEngineActive` up to the UPDATE of `release`. -/
def giveUp : Node :=
  if n.isEngineActive then n else { n with owned := false }

end Node

namespace State

variable (s : State) (p : Nat)

/-- The INITIALIZING write of `e` was refused. -/
def launchRejected (n : Node) (e : Nat) : Bool := s.rejected.contains (n.engines e).initialStatus

/-- `claimableWhere`, which `claim` repeats in its UPDATE. -/
def claimable (s : State) (p : Nat) (now : Nat) (row : Session) : Bool :=
  row.nodeId.isNone || row.nodeId = some (s.host p) || row.leaseExpiresAt.any (· < now)

def claim (now : Nat) : Option Session :=
  s.updateRow (s.claimable p now) fun row =>
    { row with nodeId := some (s.host p), leaseExpiresAt := some (now + s.leaseTtl) }

def release (now : Nat) : Option Session :=
  s.updateRow (fun row => row.nodeId = some (s.host p) || row.leaseExpiresAt.any (· < now)) fun row =>
    { row with nodeId := none, leaseExpiresAt := none }

def renew (now : Nat) : Option Session :=
  s.updateRow (fun row => row.nodeId = some (s.host p)) fun row =>
    { row with leaseExpiresAt := some (now + s.leaseTtl) }

/-- `isHeldByOtherNode` -/
def heldByOther (now : Nat) (row : Session) : Bool :=
  row.nodeId.any (· ≠ s.host p) && row.leaseExpiresAt.any (now < ·)

/-- `lapsedHeldByOthers` -/
def lapsedHeldByOther (now : Nat) (row : Session) : Bool :=
  row.nodeId.any (· ≠ s.host p) && row.leaseExpiresAt.any (· < now)

end State

/-- `ACTIVE_STATUSES` -/
def SessionStatus.active (status : SessionStatus) : Bool :=
  match status with
  | .ready | .initializing | .qrReady | .authenticating | .actionRequired => true
  | .created | .disconnected | .failed => false

/-- `TAKEOVER_STATUSES` -/
def SessionStatus.takeover (status : SessionStatus) : Bool :=
  match status with
  | .ready | .initializing | .authenticating | .actionRequired | .disconnected => true
  | .created | .qrReady | .failed => false

/-- The rows that `markLapsedDisconnected` tries to correct. -/
def Session.correctable (session : Session) (goneBefore : Nat) : Bool :=
  session.status.active && (session.status ≠ .qrReady || session.phone.isNone) && session.nodeId.isSome &&
    session.leaseExpiresAt.any (· < goneBefore)

/-- The condition of the update of `markLapsedDisconnected`. -/
def Session.stillLapsed (session : Session) (goneBefore : Nat) (row : Session) : Bool :=
  row.nodeId = session.nodeId && row.leaseExpiresAt.any (· < goneBefore) && row.status = session.status &&
    (session.status ≠ .qrReady || row.phone.isNone)

/--
What the turn at a place does to the memory `n` of its process when its await settles with `x`; `s`
is the state it finds.
-/
def Place.memory (pt : Place) (x : Answer) (s : State) (n : Node) : Node :=
  match pt with
  | .initialStatus e => n.resumeLaunch e (s.launchRejected n e)
  | .initialised e => if x = .deadline then n.evictAndForceDestroy e else n
  | .startReserve => { n with initializing := true }
  | .startPrepare => if x = .deadline then n else { n with stopping := false }.cancelReconnect
  | .startCreate session => (n.setReconnect session).createEngine session s.issued
  | .startFailed => n.evictOrphan
  | .startFailedTeardown _ => if n.owned then n else n.cancelReconnect
  | .startFailedStatus _ => n.cancelReconnect
  | .startRelease => { n with initializing := false }
  | .resurrected => n.tearRegistered
  | .resurrectedTeardown e | .orphanTeardown e | .rebindTeardown e | .oldForceDestroy _ e => n.deleteIfLive e
  | .dropStopMark | .deleteDone => { n with stopping := false }
  | .retireMark v => n.retireMark v
  | .retireInitial v e pending => n.retireInitial v e (x = .ok && pending && s.launchRejected n e)
  | .retireTeardown v e => if v = .stop && x = .failed then n else n.retireEvict v e true
  | .retireEscalated e => n.retireEvict .stop e (x = .ok)
  | .retireStatus _ (some e) _ => n.clearOperatorTeardown e
  | .orphanMark => n.retire.tearRegistered
  | .disconnected e _ session => n.disconnected e session
  | .oldTeardown _ e => if x = .ok then n.deleteIfLive e else n
  | .reconnectCreate k session =>
    (n.setState k fun st => { st with initInFlight := true }).createEngine session s.issued
  | .reconnectLaunched k _ => n.reconnectLaunched k
  | .reconnectFailed k session launched err => n.reconnectFailed k session launched.isSome err
  | .claimed true => { n with owned := true }
  | .releaseCheck => n.giveUp
  | .renewVerdict false => { n with owned := false }
  | .stopCount => { n with stopRequests := n.stopRequests + 1, stopping := true }
  | .stopHeldFault => { n with stopping := false, stopRequests := n.stopRequests - 1 }
  | .stopHeldElsewhere => { n with stopRequests := n.stopRequests - 1 }
  | .discardStopMark => { n with stopping := false, stopRequests := 0 }
  | _ => n

/-- The writes by id that the turn at a place sends to the database. -/
def Place.sends (pt : Place) (x : Answer) (s : State) (n : Node) : List Write :=
  match pt with
  | .startCreate _ | .reconnectCreate .. => [.status .initializing]
  | .timeoutTeardown _ | .retireEscalated _ => [.status .disconnected]
  | .startFailedTeardown _ => n.persistStatus .failed
  | .retireMark .stop => if n.engine.isNone then [.status .disconnected] else []
  | .retireTeardown v _ => if v = .delete || v = .stop && x = .failed then [] else [.status .disconnected]
  | .retireStatus .logout _ w => if s.rejected.contains w then [] else [.clearPhone]
  | .deleteFenceAgain (some _) => if x = .deadline then [.status .disconnected] else []
  | .rebindTeardown e => if n.isLive e then n.persistStatus .failed else []
  | .disconnected e unlink _ => n.disconnectedWrites e unlink
  | .reconnectLaunched k _ => if (n.parked k).isSome then n.persistStatus .failed else []
  | .reconnectFailed k _ _ err => n.reconnectFailedWrites k err
  | _ => []

/-- The row after the statement that a place waits for. -/
def Place.statement (pt : Place) (p : Nat) (s : State) : Option Session :=
  match pt with
  | .deleteRow => none
  | .claim now => s.claim p now
  | .release now => s.release p now
  | .renewUpdate now => s.renew p now
  | .sweepCorrect session goneBefore =>
    s.updateRow (session.stillLapsed goneBefore) fun row => { row with status := .disconnected }
  | _ => s.row

/-- What the turn at a place does to the state when its await settles with `x`. -/
def effect (l : Loc) (x : Answer) (s : State) : State :=
  if x = .fault then
    s
  else
    { s.act l.pid (l.place.memory x s) (l.place.sends x s (s.node l.pid)) with
      row := l.place.statement l.pid s }

theorem memory_of_isQuery {pt : Place} (h : pt.isQuery = true) (x : Answer) (s : State) (n : Node) :
    pt.memory x s n = n := by
  cases pt <;> first | rfl | contradiction

theorem sends_of_isQuery {pt : Place} (h : pt.isQuery = true) (x : Answer) (s : State) (n : Node) :
    pt.sends x s n = [] := by
  cases pt <;> first | rfl | contradiction

theorem isQuery_of_guard {l : Loc} {s : State} (h : guard l .fault s = true) : l.place.isQuery = true := by
  rcases l with ⟨p, pt⟩
  cases pt <;> first | rfl | simp [guard, Place.awaits, Place.isQuery] at h

section Effect

variable {l : Loc} {x : Answer} {s : State}

theorem effect_node (h : guard l x s = true) (q : Nat) :
    (effect l x s).node q = if q = l.pid then l.place.memory x s (s.node q) else s.node q := by
  unfold effect
  split
  . next hx =>
    subst hx
    rw [memory_of_isQuery (isQuery_of_guard h)]
    simp
  . rfl

theorem effect_writes (h : guard l x s = true) :
    (effect l x s).writes = s.writes ++ State.number s.issued (l.place.sends x s (s.node l.pid)) := by
  unfold effect
  split
  . next hx =>
    subst hx
    rw [sends_of_isQuery (isQuery_of_guard h)]
    simp [State.number]
  . rfl

theorem effect_issued (h : guard l x s = true) :
    (effect l x s).issued = s.issued + (l.place.sends x s (s.node l.pid)).length := by
  unfold effect
  split
  . next hx =>
    subst hx
    rw [sends_of_isQuery (isQuery_of_guard h)]
    rfl
  . rfl

@[simp]
theorem effect_alive : (effect l x s).alive = s.alive := by
  unfold effect
  split <;> rfl

@[simp]
theorem effect_crashed : (effect l x s).crashed = s.crashed := by
  unfold effect
  split <;> rfl

@[simp]
theorem effect_host : (effect l x s).host = s.host := by
  unfold effect
  split <;> rfl

@[simp]
theorem effect_now : (effect l x s).now = s.now := by
  unfold effect
  split <;> rfl

theorem alive_of_guard (h : guard l x s = true) : l.pid ∈ s.alive := by
  simp only [guard, Bool.and_eq_true] at h
  simpa using h.1

theorem effect_row : (effect l x s).row = if x = .fault then s.row else l.place.statement l.pid s := by
  unfold effect
  split <;> rfl

theorem numbered_effect (h : guard l x s = true) (hs : s.Numbered) : (effect l x s).Numbered :=
  hs.of_writes (effect_writes h) (effect_issued h)

theorem effect_outcome (h : guard l x s = true) (hrow : l.place.statement l.pid s = s.row) :
    (effect l x s).outcome = s.outcome.map (State.applyAll (l.place.sends x s (s.node l.pid))) := by
  apply State.outcome_of_writes ?_ (effect_writes h)
  rw [effect_row, hrow]
  split <;> rfl

end Effect

abbrev Job (α : Type) := Task State Answer Loc LifecycleError α

/-- The turn at a place of process `p`, with what it hands to the code after it. -/
def run {α : Type} (p : Nat) (pt : Place) (result : Answer → State → Except LifecycleError α) : Job α :=
  .turn ⟨p, pt⟩ (guard ⟨p, pt⟩) (effect ⟨p, pt⟩) fun x s => .ofExcept (result x s)

/-- A turn that hands nothing on and does not throw. -/
def pass (p : Nat) (pt : Place) : Job Unit := run p pt fun _ _ => .ok ()

end OpenWA.Lifecycle
