import OpenWA.Lifecycle.Turn

/-!
This module contains the functions of `SessionEngineLifecycle` that create and replace engines: the
launch of an engine, its callbacks, and the reconnect attempts.
-/

namespace OpenWA.Lifecycle

open Async

variable (p : Nat)

/-- `findOne`, which returns null for a missing row. -/
def findOne (pt : Place) : Job (Option Session) :=
  run p pt fun x s => if x = .fault then .error .transient else .ok s.row

/-- `findOne`-or-404. -/
def requireSession (pt : Place) : Job Session :=
  run p pt fun x s =>
    if x = .fault then .error .transient
    else match s.row with
      | some row => .ok row
      | none => .error (.http 404)

/-- The outcome of an awaited update by id. -/
def awaitWrite (pt : Place) (w : Nat) : Job Unit :=
  run p pt fun _ s => if s.rejected.contains w then .error .transient else .ok ()

section Launch

/-- The deadline of `initialize()` passed. -/
def initTimeout (e : Nat) : Job Unit := do
  let w ← run p (.timeoutTeardown e) fun _ s => .ok s.issued
  awaitWrite p (.timeoutStatus w) w
  throw (.http 504)

/-- What `initialize()` settled with; `true` stands for the deadline. -/
def awaitInitialize (e : Nat) : Job Bool :=
  run p (.initialised e) fun x _ =>
    match x with
    | .rejected err => .error err
    | .deadline => .ok true
    | _ => .ok false

/--
`initializeEngine` after its synchronous part created the engine `e`. The first turn calls
`initialize()` unless the engine was retired or replaced meanwhile.
-/
def initializeEngine (e : Nat) : Job Unit := do
  let launched ← run p (.initialStatus e) fun _ s =>
    let n := s.node p
    if s.launchRejected n e then .error .transient else .ok (n.isLive e && !n.stopping)
  if launched then
    let timedOut ← awaitInitialize p e
    if timedOut then
      initTimeout p e

/-- `isSessionRetired`, given the stop mark that it reads before its first await. -/
def isSessionRetired (stopping : Bool) : Job Bool :=
  if stopping then
    pure true
  else do
    let row ← findOne p .retiredFind
    return row.isNone

/-- The engine of a session that was retired during its launch is torn down again. -/
def retireResurrected : Job Unit := do
  let resurrected ← run p .resurrected fun _ s => .ok (s.node p).engine
  match resurrected with
  | some e => pass p (.resurrectedTeardown e)
  | none => pure ()

/-- `purgeAuthDirsIfDeleted`, which swallows its errors. -/
def purgeAuthDirsIfDeleted : Job Unit :=
  run p .purgeFind fun _ _ => .ok ()

def unwindRetired : Job Unit := do
  retireResurrected p
  purgeAuthDirsIfDeleted p

end Launch

section Callbacks

/-- `rejectRebind` after it called `logout` on the engine. -/
def rejectRebind (e : Nat) : Job Unit := do
  let w ← run p (.rebindTeardown e) fun _ s =>
    let n := s.node p
    .ok (if n.isLive e && n.owned then some s.issued else none)
  match w with
  | some w => run p (.rebindStatus w) fun _ _ => .ok ()
  | none => pure ()

/-- `handleEngineDisconnected` after its entry fence; a failed reload ends it. -/
def handleEngineDisconnected (e : Nat) (unlink : Bool) : Job Unit := do
  let session ← run p (.disconnectFind e) fun x s => .ok (if x = .fault then none else s.row)
  match session with
  | some session => pass p (.disconnected e unlink session)
  | none => pure ()

end Callbacks

section Reconnect

/-- The cleanup of the engine that was registered when the attempt began. -/
def cleanUpOld (k : Nat) (old : Option Nat) : Job Unit :=
  match old with
  | some e => do
    let destroyed ← run p (.oldTeardown k e) fun x _ => .ok (x = .ok : Bool)
    if destroyed then
      pure ()
    else
      pass p (.oldForceDestroy k e)
  | none => pure ()

def awaitPendingTeardown (pt : Place) : Job Unit :=
  run p pt fun x _ => if x = .deadline then .error (.http 409) else .ok ()

/-- The retirement check of an attempt; a failed read keeps the engine. -/
def reconnectRetired (stopping : Bool) : Job Unit := do
  let retired ← (isSessionRetired p stopping).catch' fun _ => pure false
  if retired then
    unwindRetired p

/-- An attempt from its cleanup up to the registration of its engine. -/
def reconnectPrepare (k : Nat) (session : Session) (old : Option Nat) : Job Nat := do
  cleanUpOld p k old
  awaitPendingTeardown p (.reconnectFence k)
  run p (.reconnectCreate k session) fun _ s => .ok (s.node p).created

/-- An attempt once its engine was created. -/
def reconnectLaunch (k : Nat) (session : Session) (e : Nat) : Job Unit := do
  let failed ← (do initializeEngine p e; return none : Job (Option LifecycleError)).catch' fun err =>
    pure (some err)
  match failed with
  | some err => pass p (.reconnectFailed k session (some e) err)
  | none => do
    let stopping ← run p (.reconnectLaunched k e) fun _ s => .ok ((s.node p).reconnectLaunched k).stopping
    reconnectRetired p stopping

/--
`executeReconnect` after its synchronous part, which found the engine `old`. Whatever throws before
the engine is created ends in the same `catch` as a failed launch.
-/
def executeReconnect (k : Nat) (session : Session) (old : Option Nat) : Job Unit := do
  let created ← (do return .ok (← reconnectPrepare p k session old) : Job (Except LifecycleError Nat)).catch'
    fun err => pure (.error err)
  match created with
  | .ok e => reconnectLaunch p k session e
  | .error err => pass p (.reconnectFailed k session none err)

end Reconnect
end OpenWA.Lifecycle
