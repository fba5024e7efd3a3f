import OpenWA.Async.Zoom
import OpenWA.Lifecycle.Service

/-!
This module contains one node with all its sessions while a backup is restored into it: the phases of
`importData` with what they do to the engines and the session rows, interleaved with the functions
and events of every session.
-/

namespace OpenWA.Restore

open Async Lifecycle

variable {κ : Type}

/--
Where `runImport` stands. `stopping` waits for the teardowns of `stopOrphanEngines`. The transaction
keeps the rows that a rollback brings back, and the claims it read with the time of the read.
-/
inductive Phase (κ : Type) where
  | idle
  | reconciling
  | stopping (pending : List (κ × Nat))
  | connecting
  | clearing (before : κ → Option Session)
  | inserting (before : κ → Option Session) (claims : κ → Option (Session × Nat))
  | committing (before rows : κ → Option Session)
  | committed
  | refused

/-- A request to import a backup, and the response as far as it is known. -/
structure Import (κ : Type) where
  sessions : List (κ × Session)
  stopOrphans : Bool
  force : Bool
  orphanedEngines : List κ
  stoppedOrphanEngines : List κ
  failedOrphanEngines : List κ
  notRunning : List κ
  restartRequired : Bool
  phase : Phase κ

/-- No import was requested. -/
def Import.none : Import κ := ⟨[], false, false, [], [], [], [], false, .idle⟩

/-- The state of one node: what the lifecycle of each session runs over, and the import. -/
structure Gateway (κ : Type) where
  sessions : κ → State
  data : Import κ

/-- An engine callback, a timer, a call of a control verb, or the database. -/
def onNode (p : Nat) (v : Event) : Bool :=
  match v with
  | .start q | .verb _ q | .ready q .. | .qrCode q _ | .stateChanged q .. | .disconnected q .. | .error q ..
  | .watchdog q _ | .timer q _ => q = p
  | .database .. => true
  | _ => false

/-- What happens on the node: something in a session, or the next step of the import. -/
inductive GatewayEvent (κ : Type) where
  | session (id : κ) (v : Event)
  | importData (sessions : List (κ × Session)) (stopOrphans force : Bool)
  | heldByOtherNodes (others : List κ)
  | orphanTorn (id : κ) (e : Nat) (tornDown : Bool)
  | orphansStopped
  | startTransaction
  | deleteSessions
  | insertSessions
  | commitTransaction
  | refuse
  | tick (ms : Nat)

variable [DecidableEq κ]

instance instLawfulBEqClaim : LawfulBEq (κ × Nat) := inferInstance

/-- The session rows of the backup. -/
def Import.restores (d : Import κ) (id : κ) : Bool := d.sessions.any fun row => row.1 = id

/-- A lease is carried over the import by the time it had left; a lapsed one stays as it is. -/
def carryLease (readAt now deadline : Nat) : Nat :=
  if deadline ≤ readAt then deadline else max (now + (deadline - readAt)) deadline

/-- `restoreSessionOwnership` for one restored row. -/
def restoreOwnership (claim : Option (Session × Nat)) (now : Nat) (row : Session) : Session :=
  match claim with
  | some (held, readAt) =>
    { row with
      nodeId := held.nodeId
      leaseExpiresAt := held.leaseExpiresAt.map (carryLease readAt now) }
  | none => row

/-- A claimable row whose status describes a running engine is restored as `disconnected`. -/
def normalizeStatus (p : Nat) (s : State) (row : Session) : Session :=
  if row.status.active && s.claimable p s.now row then { row with status := .disconnected } else row

namespace Gateway

-- the sessions known to the node, its process, and whether all queries share one connection
variable (ids : List κ) (p : Nat) (sharesOneConnection : Bool) (g : Gateway κ)

def engine (id : κ) : Option Nat := ((g.sessions id).node p).engine

def setSession (id : κ) (s : State) : Gateway κ :=
  { g with sessions := fun i => if i = id then s else g.sessions i }

def setRows (rows : κ → Option Session) : Gateway κ :=
  { g with sessions := fun i => { g.sessions i with row := rows i } }

def setPhase (phase : Phase κ) : Gateway κ := { g with data := { g.data with phase } }

/-- `getActiveSessionIds` -/
def getActiveSessionIds : List κ :=
  ids.filter fun id => (g.engine p id).isSome || ((g.sessions id).node p).initializing

/-- The orphans of the pre-flight: the active sessions that the backup lacks. -/
def importData (sessions : List (κ × Session)) (stopOrphans force : Bool) : Gateway κ :=
  { g with data := { Import.none with
      sessions, stopOrphans, force
      orphanedEngines := (g.getActiveSessionIds ids p).filter fun id => !sessions.any fun row => row.1 = id
      phase := .reconciling } }

/-- `stopOrphanEngines` up to its teardowns: the stop marks, and the engines that are captured. -/
def stopOrphanEngines : Gateway κ where
  sessions := fun id =>
    if id ∈ g.data.orphanedEngines then (g.sessions id).act p (·.retire.tearRegistered) [] else g.sessions id
  data := { g.data with
    notRunning := g.data.orphanedEngines.filter fun id => (g.engine p id).isNone
    phase := .stopping (g.data.orphanedEngines.filterMap fun id => (g.engine p id).map (id, ·)) }

/-- The pre-flight once the sessions held by other nodes are known. -/
def reconcile (others : List κ) : Gateway κ :=
  let g : Gateway κ := { g with data := { g.data with restartRequired := !others.isEmpty } }
  if !g.data.orphanedEngines.isEmpty && g.data.stopOrphans then g.stopOrphanEngines p
  else if !g.data.orphanedEngines.isEmpty && !g.data.force then g.setPhase .refused
  else if !g.data.orphanedEngines.isEmpty then
    { g with data := { g.data with restartRequired := true, phase := .connecting } }
  else g.setPhase .connecting

/-- The teardown of an orphan settled; its engine leaves the registry either way. -/
def orphanTorn (pending : List (κ × Nat)) (id : κ) (e : Nat) (tornDown : Bool) : Gateway κ :=
  let g := g.setSession id ((g.sessions id).act p (·.deleteIfLive e) [])
  { g with data := { g.data with
    stoppedOrphanEngines := if tornDown then g.data.stoppedOrphanEngines ++ [id] else g.data.stoppedOrphanEngines
    failedOrphanEngines := if tornDown then g.data.failedOrphanEngines else g.data.failedOrphanEngines ++ [id]
    phase := .stopping (pending.erase (id, e)) } }

/-- `stopOrphanEngines` resolved. -/
def orphansStopped : Gateway κ :=
  { g with data := { g.data with
    restartRequired := g.data.restartRequired || !g.data.failedOrphanEngines.isEmpty
    phase := .connecting } }

/-- The claims that the transaction finds before it deletes the rows. -/
def readOwnership (id : κ) : Option (Session × Nat) :=
  let s := g.sessions id
  (s.row.filter (·.nodeId.isSome)).map fun row => (row, s.now)

/-- The row that the import writes for a session. -/
def restoredRow (claims : κ → Option (Session × Nat)) (id : κ) : Option Session :=
  let s := g.sessions id
  (g.data.sessions.find? fun row => row.1 = id).map fun row =>
    normalizeStatus p s (restoreOwnership (claims id) s.now { row.2 with nodeId := none, leaseExpiresAt := none })

/-- The rows of an open transaction are seen by other functions on a shared connection only. -/
def showRows (shown : Bool) (rows : κ → Option Session) : Gateway κ := if shown then g.setRows rows else g

def deleteSessions (before : κ → Option Session) : Gateway κ :=
  (g.showRows sharesOneConnection fun _ => none).setPhase (.inserting before g.readOwnership)

def insertSessions (before : κ → Option Session) (claims : κ → Option (Session × Nat)) : Gateway κ :=
  (g.showRows sharesOneConnection (g.restoredRow p claims)).setPhase (.committing before (g.restoredRow p claims))

def commitTransaction (rows : κ → Option Session) : Gateway κ :=
  (g.showRows (!sharesOneConnection) rows).setPhase .committed

/-- The request ends with an error; an open transaction is rolled back. -/
def refuse : Gateway κ :=
  match g.data.phase with
  | .clearing before | .inserting before _ | .committing before _ =>
    (g.showRows sharesOneConnection before).setPhase .refused
  | _ => g.setPhase .refused

def tick (ms : Nat) : Gateway κ :=
  { g with sessions := fun id => { g.sessions id with now := (g.sessions id).now + ms } }

end Gateway

/-- A function of the session `id` as a function of the node. -/
def inSession {α : Type} (id : κ) (t : Job α) : Task (Gateway κ) Answer (κ × Loc) LifecycleError α :=
  t.zoom (·.sessions id) (fun s g => g.setSession id s) (id, ·)

/-- What an event does to the node at once and the activation it starts, if it can happen. -/
def gatewayEvent (ids : List κ) (p : Nat) (sharesOneConnection : Bool) (v : GatewayEvent κ) (g : Gateway κ) :
    Option (Gateway κ × Task (Gateway κ) Answer (κ × Loc) LifecycleError Unit) :=
  match v, g.data.phase with
  | .session id v, _ =>
    if id ∈ ids && onNode p v && v.enabled (g.sessions id) then
      some (g.setSession id (v.effect (g.sessions id)), inSession id (v.task (g.sessions id)))
    else
      none
  | .importData sessions stopOrphans force, .idle => some (g.importData ids p sessions stopOrphans force, .pure ())
  | .heldByOtherNodes others, .reconciling => some (g.reconcile p others, .pure ())
  | .orphanTorn id e tornDown, .stopping pending =>
    if (id, e) ∈ pending then some (g.orphanTorn p pending id e tornDown, .pure ()) else none
  | .orphansStopped, .stopping [] => some (g.orphansStopped, .pure ())
  | .startTransaction, .connecting => some (g.setPhase (.clearing fun id => (g.sessions id).row), .pure ())
  | .deleteSessions, .clearing before => some (g.deleteSessions sharesOneConnection before, .pure ())
  | .insertSessions, .inserting before claims =>
    some (g.insertSessions p sharesOneConnection before claims, .pure ())
  | .commitTransaction, .committing _ rows => some (g.commitTransaction sharesOneConnection rows, .pure ())
  | .refuse, .reconciling | .refuse, .connecting | .refuse, .clearing _ | .refuse, .inserting ..
  | .refuse, .committing .. => some (g.refuse sharesOneConnection, .pure ())
  | .tick ms, _ => some (g.tick ms, .pure ())
  | _, _ => none

/-- The turn registers an engine. -/
def creates (pt : Place) : Bool :=
  match pt with
  | .startCreate _ | .reconnectCreate .. => true
  | _ => false

/-- Which activation created an engine object of a session. -/
abbrev Creators (κ : Type) := κ → Nat → Option Nat

def noteCreator (p : Nat) (a : Act (GatewayEvent κ) Answer (κ × Loc)) (g _g' : Gateway κ)
    (creators : Creators κ) : Creators κ :=
  match a with
  | .turn tid (id, l) _ =>
    if creates l.place then
      fun i e => if i = id ∧ e = ((g.sessions id).node p).created then some tid else creators i e
    else
      creators
  | .event .. => creators

/-- One node with its sessions and the import. -/
def gateway (ids : List κ) (p : Nat) (sharesOneConnection : Bool) :
    System (Gateway κ) Answer (κ × Loc) LifecycleError (GatewayEvent κ) (Creators κ) where
  event := gatewayEvent ids p sharesOneConnection
  note := noteCreator p

abbrev GatewayWorld (κ : Type) := World (Gateway κ) (Creators κ)

abbrev GatewayConfig (κ : Type) := Config (Gateway κ) Answer (κ × Loc) LifecycleError (Creators κ)

end OpenWA.Restore
