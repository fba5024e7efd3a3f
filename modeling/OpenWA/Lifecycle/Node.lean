import Mathlib.Data.List.Basic

/-!
This module contains the stored row of one session and what one process keeps about the session in
memory: the engine registry, the lifecycle marks and the reconnect states.
-/

namespace OpenWA.Lifecycle

inductive SessionStatus where
  | created
  | initializing
  | qrReady
  | authenticating
  | ready
  | disconnected
  | actionRequired
  | failed
deriving DecidableEq

/-- A WhatsApp address, such as `628123:5@c.us`. -/
abbrev Jid := List Char

/-- `jid.split('@')[0].split(':')[0]` -/
def userPart (jid : Jid) : Jid :=
  (jid.takeWhile (· ≠ '@')).takeWhile (· ≠ ':')

/--
A row of `sessions`. `maxAttempts` is the reconnect budget that `resolveReconnectConfig` reads from
its config, `none` for an unlimited one.
-/
structure Session where
  status : SessionStatus
  phone : Option Jid
  maxAttempts : Option Nat
  nodeId : Option Nat
  leaseExpiresAt : Option Nat
deriving DecidableEq

/--
An engine object: the phone its callbacks were built with, the INITIALIZING write of its launch, and
whether `initialize()` was called and a teardown was started on it.
-/
structure Engine where
  previousPhone : Option Jid
  initialStatus : Nat
  initialised : Bool
  torn : Bool
deriving DecidableEq

/-- What a parked failure runs: the FAILED of `onStateChanged`, or the `fail` of `onError`. -/
inductive Failure where
  | status
  | error (e : Nat)
deriving DecidableEq

structure ParkedFailure where
  run : Failure
  terminal : Bool
deriving DecidableEq

/-- A timeout handle with the row its callback closed over. A fired handle is no longer pending. -/
structure Timer where
  session : Session
  pending : Bool
deriving DecidableEq

structure ReconnectState where
  attempts : Nat
  maxAttempts : Option Nat
  timer : Option Timer
  initInFlight : Bool
  parkedFailure : Option ParkedFailure
deriving DecidableEq

/-- `decideReconnect` gives up. -/
def ReconnectState.exhausted (st : ReconnectState) : Bool :=
  match st.maxAttempts with
  | some max => max ≤ st.attempts
  | none => false

/--
The memory of one process. Engine and reconnect-state objects are numbered in the order of their
creation, so that identity of objects is equality of numbers; `engine` and `reconnect` are the
entries of the two maps for the session.
-/
structure Node where
  engine : Option Nat
  created : Nat
  engines : Nat → Engine
  initializing : Bool
  stopping : Bool
  reconnect : Option Nat
  statesCreated : Nat
  states : Nat → ReconnectState
  operatorTeardown : Option Nat
  pendingInitialStatus : Option Nat
  stopRequests : Nat
  owned : Bool

namespace Node

/-- A process that has just booted. -/
def booted : Node where
  engine := none
  created := 0
  engines := fun _ => ⟨none, 0, false, false⟩
  initializing := false
  stopping := false
  reconnect := none
  statesCreated := 0
  states := fun _ => ⟨0, none, none, false, none⟩
  operatorTeardown := none
  pendingInitialStatus := none
  stopRequests := 0
  owned := false

variable (n : Node)

def setEngine (e : Nat) (f : Engine → Engine) : Node :=
  { n with engines := fun i => if i = e then f (n.engines i) else n.engines i }

def setState (k : Nat) (f : ReconnectState → ReconnectState) : Node :=
  { n with states := fun i => if i = k then f (n.states i) else n.states i }

def isLive (e : Nat) : Bool := n.engine = some e

/-- `initialize()` was called on the engine and no teardown was started on it. -/
def runs (e : Nat) : Bool := (n.engines e).initialised && !(n.engines e).torn

def deleteIfLive (e : Nat) : Node :=
  if n.isLive e then { n with engine := none } else n

/-- A teardown is started on `e`. -/
def tear (e : Nat) : Node :=
  n.setEngine e fun g => { g with torn := true }

/-- `evictAndForceDestroy`, which evicts by session id. -/
def evictAndForceDestroy (e : Nat) : Node :=
  { n with engine := none }.tear e

/-- A teardown is started on the registered engine, if there is one. -/
def tearRegistered : Node :=
  match n.engine with
  | some e => n.tear e
  | none => n

def cancelReconnect : Node :=
  match n.reconnect with
  | some k => { n.setState k fun st => { st with timer := none } with reconnect := none }
  | none => n

/-- `operatorTeardowns.delete(id)` if the mark is still the one of `e`. -/
def clearOperatorTeardown (e : Nat) : Node :=
  if n.operatorTeardown = some e then { n with operatorTeardown := none } else n

@[simp] theorem cancelReconnect_engine : n.cancelReconnect.engine = n.engine := by
  unfold cancelReconnect; split <;> rfl

@[simp] theorem cancelReconnect_created : n.cancelReconnect.created = n.created := by
  unfold cancelReconnect; split <;> rfl

@[simp] theorem cancelReconnect_engines : n.cancelReconnect.engines = n.engines := by
  unfold cancelReconnect; split <;> rfl

@[simp] theorem cancelReconnect_stopping : n.cancelReconnect.stopping = n.stopping := by
  unfold cancelReconnect; split <;> rfl

@[simp] theorem cancelReconnect_initializing : n.cancelReconnect.initializing = n.initializing := by
  unfold cancelReconnect; split <;> rfl

@[simp] theorem cancelReconnect_owned : n.cancelReconnect.owned = n.owned := by
  unfold cancelReconnect; split <;> rfl

@[simp] theorem cancelReconnect_reconnect : n.cancelReconnect.reconnect = none := by
  unfold cancelReconnect; split <;> simp_all

@[simp] theorem clearOperatorTeardown_engine (e : Nat) : (n.clearOperatorTeardown e).engine = n.engine := by
  unfold clearOperatorTeardown; split <;> rfl

@[simp] theorem clearOperatorTeardown_created (e : Nat) :
    (n.clearOperatorTeardown e).created = n.created := by
  unfold clearOperatorTeardown; split <;> rfl

@[simp] theorem clearOperatorTeardown_engines (e : Nat) :
    (n.clearOperatorTeardown e).engines = n.engines := by
  unfold clearOperatorTeardown; split <;> rfl

@[simp] theorem deleteIfLive_created (e : Nat) : (n.deleteIfLive e).created = n.created := by
  unfold deleteIfLive; split <;> rfl

@[simp] theorem deleteIfLive_engines (e : Nat) : (n.deleteIfLive e).engines = n.engines := by
  unfold deleteIfLive; split <;> rfl

def isEngineActive : Bool :=
  n.engine.isSome || n.initializing ||
    match n.reconnect with
    | some k => (n.states k).timer.isSome || 0 < (n.states k).attempts
    | none => false

/-- The state object `start` registers. -/
def setReconnect (session : Session) : Node :=
  { n with
    statesCreated := n.statesCreated + 1
    reconnect := some n.statesCreated
    states := fun i => if i = n.statesCreated then ⟨0, session.maxAttempts, none, false, none⟩ else n.states i }

/-- `parkReconnectInitFailure`; `terminal` is `none` for a report without a reason. -/
def parkReconnectInitFailure (run : Failure) (terminal : Option Bool) : Option Node :=
  match n.reconnect with
  | some k =>
    if (n.states k).initInFlight then
      match (n.states k).parkedFailure, terminal with
      | none, _ => some (n.setState k fun st => { st with parkedFailure := some ⟨run, terminal.getD false⟩ })
      | some parked, some terminal =>
        if parked.terminal then some n
        else some (n.setState k fun st => { st with parkedFailure := some ⟨run, terminal⟩ })
      | some _, none => some n
    else
      none
  | none => none

/-- The two memories only differ in parked failures. -/
def ParksOnly (n n' : Node) : Prop :=
  ∃ parked : Nat → Option ParkedFailure, n' = { n with states := fun k => { n.states k with parkedFailure := parked k } }

theorem ParksOnly.refl : n.ParksOnly n := ⟨fun k => (n.states k).parkedFailure, rfl⟩

theorem parksOnly_setState (k : Nat) (parked : Option ParkedFailure) :
    n.ParksOnly (n.setState k fun st => { st with parkedFailure := parked }) := by
  refine ⟨fun i => if i = k then parked else (n.states i).parkedFailure, ?_⟩
  simp only [setState, mk.injEq, true_and, and_true]
  funext i
  split <;> rfl

theorem parksOnly_of_park {n n' : Node} {run : Failure} {terminal : Option Bool}
    (h : n.parkReconnectInitFailure run terminal = some n') : n.ParksOnly n' := by
  unfold parkReconnectInitFailure at h
  split at h
  . split at h
    . split at h
      . simp only [Option.some.injEq] at h
        exact h ▸ n.parksOnly_setState _ _
      . split at h
        . simp only [Option.some.injEq] at h
          exact h ▸ ParksOnly.refl n
        . simp only [Option.some.injEq] at h
          exact h ▸ n.parksOnly_setState _ _
      . simp only [Option.some.injEq] at h
        exact h ▸ ParksOnly.refl n
    . contradiction
  . contradiction

end Node
end OpenWA.Lifecycle
