import OpenWA.Async.Machine
import Mathlib.Algebra.Group.Nat.Defs
import Mathlib.Logic.Function.Basic

/-!
This module contains the connection of one Baileys session: its sockets, the reconnect timer, the connect
in flight, and what the updates of a socket, the timer, the connects and the teardowns do to them.
-/

namespace OpenWA.Baileys

open Async

inductive EngineStatus where
  | disconnected
  | initializing
  | qrReady
  | authenticating
  | ready
  | failed
deriving DecidableEq

structure Socket where
  /-- Our `connection.update` listener is attached. -/
  wired : Bool
  /-- It has closed since it was created. -/
  closed : Bool
  /-- It has reported `open` and has not closed since. -/
  healthy : Bool
deriving DecidableEq

inductive Connection where
  | connecting
  | opened
  | close
deriving DecidableEq

structure Update where
  connection : Option Connection
  isNewLogin : Bool
  statusCode : Option Nat
  /-- The message of the error is `QR refs attempts ended`. -/
  qrWindowEnded : Bool
  /-- `Date.now()` when it is handled. -/
  now : Nat
  /-- What `Math.floor(Math.random() * 1000)` draws if it arms a timer. -/
  jitter : Nat

/-- It reports a close and nothing else. -/
def Update.close (statusCode : Option Nat) (now : Nat) : Update := ⟨some .close, false, statusCode, false, now, 0⟩

/-- It reports `open` and nothing else. -/
def Update.opened : Update := ⟨some .opened, false, none, false, 0, 0⟩

/-- The connect was started by `initialize`, or by the reconnect timer. -/
inductive Origin where
  | first
  | reconnect
deriving DecidableEq

/-- A connect that waits: for the library, for the auth state or for the version. -/
structure Connect where
  origin : Origin
  passed : Nat
deriving DecidableEq

/-- What is observed of the reconnect loop. -/
inductive Effect where
  | armed
  | attempt
  | created (socket : Nat)
  | ended (socket : Nat) (healthy : Bool)
deriving DecidableEq

structure State where
  status : EngineStatus
  sock : Option Nat
  intentionalClose : Bool
  connecting : Option Connect
  reconnectAttempts : Nat
  /-- The delay it was armed with. -/
  reconnectTimer : Option Nat
  lastConnectionCloseAt : Nat
  sockets : Nat → Socket
  next : Nat
  /-- The sockets that a logout in flight is about to shut down. -/
  loggingOut : List Nat
  /-- A terminal close was handled or a teardown called. -/
  final : Bool
  /-- The effects, each with whether it came after that. -/
  effects : List (Effect × Bool)

inductive Event where
  /-- A call of `initialize`. -/
  | start
  | update (socket : Nat) (u : Update)
  | timer
  /-- The connect in flight passes an await but the last. -/
  | advance
  /-- The connect in flight fails. -/
  | fail (jitter : Nat)
  /-- The connect in flight runs on from its last await; `throws` says that no socket is made. -/
  | finish (throws : Bool) (jitter : Nat)
  | disconnect
  | logout
  /-- A logout is over with the socket it found. -/
  | shutdown (socket : Nat)
  | destroy

section Steps

variable (s : State)

def setStatus (status : EngineStatus) : State := { s with status := status }

def emit (effect : Effect) : State := { s with effects := s.effects ++ [(effect, s.final)] }

def modifySocket (k : Nat) (f : Socket → Socket) : State :=
  { s with sockets := Function.update s.sockets k (f (s.sockets k)) }

def RECONNECT_STABILITY_RESET_MS : Nat := 5 * 60000

def scheduleReconnect (countAttempt : Bool) (jitter : Nat) : State :=
  if s.intentionalClose ∨ s.reconnectTimer.isSome then s
  else
    let attempts := if countAttempt then s.reconnectAttempts + 1 else s.reconnectAttempts
    let delay := min 60000 (1000 * 2 ^ (attempts - 1)) + jitter
    emit { s with reconnectAttempts := attempts, reconnectTimer := some delay } .armed

def isTerminal (statusCode : Option Nat) : Bool :=
  statusCode == some 401 || statusCode == some 440 || statusCode == some 403

/-- The part of `handleRemoteLoggedOut` before its first await. -/
def handleRemoteLoggedOut : State := { setStatus s .disconnected with sock := none, final := true }

def handleClose (u : Update) : State :=
  if s.intentionalClose then setStatus s .disconnected
  else if u.statusCode = some 401 then handleRemoteLoggedOut s
  else if isTerminal u.statusCode then { setStatus s .failed with final := true }
  else
    let s := setStatus s .initializing
    if s.reconnectTimer.isSome then s
    else
      let reset := u.qrWindowEnded ||
        decide (RECONNECT_STABILITY_RESET_MS < u.now - s.lastConnectionCloseAt)
      scheduleReconnect
        { s with
          reconnectAttempts := if reset then 0 else s.reconnectAttempts
          lastConnectionCloseAt := u.now }
        (!u.qrWindowEnded) u.jitter

/-- What an update leaves before its connection is looked at. -/
def handleNewLogin (u : Update) : State :=
  if u.isNewLogin then { setStatus s .authenticating with reconnectAttempts := 0 } else s

def handleConnectionUpdate (k : Nat) (u : Update) : State :=
  let s := handleNewLogin s u
  match u.connection with
  | none => s
  | some .connecting => setStatus s .initializing
  | some .opened =>
    { setStatus (modifySocket s k fun socket => { socket with healthy := true }) .ready with
      reconnectAttempts := 0 }
  | some .close =>
    handleClose (modifySocket s k fun socket => { socket with closed := true, healthy := false }) u

def connect (origin : Origin) : State :=
  if s.connecting.isSome then s
  else { setStatus s .initializing with connecting := some ⟨origin, 0⟩ }

/-- `initialize` -/
def start : State := if s.intentionalClose then s else connect s .first

def fireTimer : State :=
  let s := { s with reconnectTimer := none }
  if s.intentionalClose then s else connect (emit s .attempt) .reconnect

/-- A connect has rejected. -/
def rejected (origin : Origin) (jitter : Nat) : State :=
  let s := { s with connecting := none }
  match origin with
  | .first => setStatus s .failed
  | .reconnect => scheduleReconnect s true jitter

/-- The listeners are detached before the socket is ended. -/
def endPrevious : State :=
  match s.sock with
  | some k =>
    emit (modifySocket s k fun socket => { socket with wired := false })
      (.ended k (s.sockets k).healthy)
  | none => s

def createSocket : State :=
  emit
    { s with
      sock := some s.next
      sockets := Function.update s.sockets s.next ⟨true, false, false⟩
      next := s.next + 1 }
    (.created s.next)

/-- `connectInner` from its last await on. -/
def finishConnect (origin : Origin) (throws : Bool) (jitter : Nat) : State :=
  if s.intentionalClose then { s with connecting := none }
  else
    let s := endPrevious s
    if throws then rejected s origin jitter else { createSocket s with connecting := none }

/-- `disconnect` and `destroy` -/
def tearDown : State :=
  { setStatus s .disconnected with
    intentionalClose := true, reconnectTimer := none, sock := none, final := true }

def logout : State :=
  let s := { s with intentionalClose := true, reconnectTimer := none, final := true }
  match s.sock with
  | some k => { s with loggingOut := s.loggingOut ++ [k] }
  | none => s

def localSocketShutdown (k : Nat) : State :=
  { setStatus s .disconnected with
    reconnectTimer := none
    sock := if s.sock = some k then none else s.sock
    loggingOut := s.loggingOut.erase k }

end Steps

def awaits : Nat := 3

def machine : Machine State Event where
  step s v :=
    match v with
    | .start => some (start s)
    | .update k u => if (s.sockets k).wired then some (handleConnectionUpdate s k u) else none
    | .timer => if s.reconnectTimer.isSome then some (fireTimer s) else none
    | .advance =>
      match s.connecting with
      | some c =>
        if c.passed + 1 < awaits then
          some { s with connecting := some { c with passed := c.passed + 1 } }
        else none
      | none => none
    | .fail jitter =>
      match s.connecting with
      | some c => some (rejected s c.origin jitter)
      | none => none
    | .finish throws jitter =>
      match s.connecting with
      | some c =>
        if c.passed + 1 = awaits then some (finishConnect s c.origin throws jitter) else none
      | none => none
    | .disconnect | .destroy => some (tearDown s)
    | .logout => some (logout s)
    | .shutdown k => if k ∈ s.loggingOut then some (localSocketShutdown s k) else none

def init : State where
  status := .disconnected
  sock := none
  intentionalClose := false
  connecting := none
  reconnectAttempts := 0
  reconnectTimer := none
  lastConnectionCloseAt := 0
  sockets := fun _ => ⟨false, false, false⟩
  next := 0
  loggingOut := []
  final := false
  effects := []

/-- A first connect that succeeds; its socket is socket 0. -/
def firstConnect : List Event := [.start, .advance, .advance, .finish false 0]

section Lemmas

variable {s : State} {u : Update} {k j : Nat} {f : Socket → Socket}

theorem handleNewLogin_eq : ∃ status attempts,
    handleNewLogin s u = { s with status := status, reconnectAttempts := attempts } := by
  unfold handleNewLogin
  split
  . exact ⟨.authenticating, 0, rfl⟩
  . exact ⟨s.status, s.reconnectAttempts, rfl⟩

theorem modifySocket_self : (modifySocket s k f).sockets k = f (s.sockets k) := by
  simp [modifySocket]

theorem modifySocket_of_ne (h : j ≠ k) : (modifySocket s k f).sockets j = s.sockets j := by
  simp [modifySocket, h]

end Lemmas
end OpenWA.Baileys
