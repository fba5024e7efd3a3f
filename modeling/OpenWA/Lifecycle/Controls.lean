import OpenWA.Lifecycle.Engine

/-!
This module contains the control verbs of `SessionEngineControls`: `start`, `stop`, `logout`,
`forceKill`, `delete` and `stopOrphanEngines`.
-/

namespace OpenWA.Lifecycle

open Async

variable (p : Nat)

section Start

/-- The `catch` of the launch in `start`, which throws `err` again. -/
def startFailed (err : LifecycleError) : Job Unit := do
  let orphan ← run p .startFailed fun _ s => .ok (s.node p).engine
  match orphan with
  | some e => do
    let w ← run p (.startFailedTeardown e) fun _ s => .ok (if (s.node p).owned then some s.issued else none)
    match w with
    | some w => do
      pass p (.startFailedStatus w)
      throw err
    | none => throw err
  | none => throw err

/-- `start` once the engine was launched: a session retired meanwhile is taken down again. -/
def startLaunched : Job Unit := do
  let stopping ← run p .startLaunched fun _ s => .ok (s.node p).stopping
  let retired ← isSessionRetired p stopping
  if retired then
    unwindRetired p

/-- `start` from its checks up to the registration of its engine. -/
def startPrepare : Job Nat := do
  let session ← requireSession p .startFind
  run p .startChecks fun x s =>
    if (s.node p).engine.isSome || x = .capacity then .error (.http 400) else .ok ()
  awaitPendingTeardown p .startPrepare
  run p (.startCreate session) fun _ s => .ok (s.node p).created

/-- `start` once its slot is reserved. -/
def startReserved : Job Unit := do
  let e ← startPrepare p
  (initializeEngine p e).catch' (startFailed p)
  startLaunched p

/-- The last read is returned without an await, so the reservation goes before it settles. -/
def start : Job Unit := do
  run p .startReserve fun _ s => if (s.node p).initializing then .error (.http 400) else .ok ()
  (startReserved p).andFinally (pass p .startRelease)
  let _ ← requireSession p .requireSession

end Start

section Retire

/-- `requireSessionOrDropStopMark` -/
def requireSessionOrDropStopMark (v : Verb) : Job Unit :=
  (do let _ ← requireSession p (.retireFind v) : Job Unit).catch' fun err => do
    pass p .dropStopMark
    throw err

/--
The mark of a retiring verb, with the engine it captured, whether that engine's INITIALIZING write is
still tracked, and the number of the write that the turn issues without an engine.
-/
def retireMark (v : Verb) : Job (Option (Nat × Bool) × Nat) :=
  run p (.retireMark v) fun _ s =>
    let n := s.node p
    match n.engine with
    | some e => .ok (some (e, n.pendingInitialStatus = some e), s.issued)
    | none => if v = .logout ∨ v = .forceKill then .error (.http 400) else .ok (none, s.issued)

/-- `awaitInitialStatus` and the call of the teardown. -/
def retireInitial (v : Verb) (e : Nat) (pending : Bool) : Job Unit :=
  run p (.retireInitial v e pending) fun x s =>
    if x = .ok && pending && s.launchRejected (s.node p) e then .error .transient else .ok ()

/-- The teardown of the captured engine, with its outcome and the number of the DISCONNECTED write. -/
def retireTeardown (v : Verb) (e : Nat) : Job (Bool × Nat) :=
  run p (.retireTeardown v e) fun x s => .ok (x = .ok, s.issued)

def retireEngine (v : Verb) (e : Nat) (pending : Bool) : Job (Bool × Nat) := do
  retireInitial p v e pending
  retireTeardown p v e

/-- `stop` from the teardown of the captured engine on; a failed disconnect is escalated. -/
def stopEngine (e : Nat) (pending : Bool) : Job Unit := do
  let (tornDown, w) ← retireEngine p .stop e pending
  if tornDown then
    awaitWrite p (.retireStatus .stop none w) w
  else
    let (tornDown, w) ← run p (.retireEscalated e) fun x s => .ok (decide (x = .ok), s.issued)
    awaitWrite p (.retireStatus .stop (if tornDown then none else some e) w) w
    if tornDown then
      pure ()
    else
      throw (.http 502)

/-- `stop` from its mark up to the settlement of its DISCONNECTED write. -/
def stopMarked (captured : Option (Nat × Bool)) (w : Nat) : Job Unit :=
  match captured with
  | some (e, pending) => stopEngine p e pending
  | none => awaitWrite p (.retireStatus .stop none w) w

def stop : Job Unit := do
  requireSessionOrDropStopMark p .stop
  let (captured, w) ← retireMark p .stop
  stopMarked p captured w
  let _ ← requireSession p (.retireDone .stop)

/-- `logout` once its engine is torn down: the phone is cleared whether it was unlinked or not. -/
def logoutPhone (e : Nat) (unlinked : Bool) (w : Nat) : Job Unit := do
  let phone ← run p (.retireStatus .logout (some e) w) fun _ s =>
    if s.rejected.contains w then .error .transient else .ok s.issued
  awaitWrite p (.retirePhone phone) phone
  if unlinked then
    let _ ← requireSession p (.retireDone .logout)
  else
    throw (.http 502)

def logout : Job Unit := do
  let _ ← requireSession p (.retireFind .logout)
  let (captured, _) ← retireMark p .logout
  match captured with
  | some (e, pending) => do
    let (unlinked, w) ← retireEngine p .logout e pending
    logoutPhone p e unlinked w
  | none => throw (.http 400)

def forceKill : Job Unit := do
  let _ ← requireSession p (.retireFind .forceKill)
  let (captured, _) ← retireMark p .forceKill
  match captured with
  | some (e, pending) => do
    let (_, w) ← retireEngine p .forceKill e pending
    awaitWrite p (.retireStatus .forceKill (some e) w) w
    let _ ← requireSession p (.retireDone .forceKill)
  | none => throw (.http 400)

/-- The second fence of `delete`: a refusal announces DISCONNECTED for an engine it took down. -/
def deleteFenceAgain (e : Option Nat) : Job Unit := do
  let refused ← run p (.deleteFenceAgain e) fun x s =>
    .ok (if x = .deadline then some (if e.isSome then some s.issued else none) else none)
  match refused with
  | some (some w) => do
    pass p (.deleteFenceStatus w)
    throw (.http 409)
  | some none => throw (.http 409)
  | none => pure ()

def deleteEngine (captured : Option (Nat × Bool)) : Job Unit :=
  match captured with
  | some (e, pending) => do
    let _ ← retireEngine p .delete e pending
  | none => pure ()

/-- `delete` between its mark and its `finally`. -/
def deleteMarked (captured : Option (Nat × Bool)) : Job Unit := do
  deleteEngine p captured
  deleteFenceAgain p (captured.map Prod.fst)
  run p .deleteRow fun x _ => if x = .fault then .error .transient else .ok ()

def delete : Job Unit := do
  requireSessionOrDropStopMark p .delete
  awaitPendingTeardown p .deleteFence
  let (captured, _) ← retireMark p .delete
  (deleteMarked p captured).andFinally (pass p .deleteDone)

end Retire

def stopOrphanEngines : Job Unit := do
  let engine ← run p .orphanMark fun _ s => .ok (s.node p).engine
  match engine with
  | some e => pass p (.orphanTeardown e)
  | none => pure ()

def Verb.task (v : Verb) : Job Unit :=
  match v with
  | .stop => Lifecycle.stop p
  | .logout => Lifecycle.logout p
  | .forceKill => Lifecycle.forceKill p
  | .delete => Lifecycle.delete p

end OpenWA.Lifecycle
