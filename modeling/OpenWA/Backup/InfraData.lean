import OpenWA.Backup.TableImporters

/-!
This module contains the import: the checks before the transaction, the replacement of every table
inside it, and the conditions under which it is committed.
-/

namespace OpenWA.Backup

open Sqlite Js

section Datetime

def isLineTerminator (c : Char) : Bool := ['\n', '\r', '\u2028', '\u2029'].contains c

/-- `(Z|[+-]\d{2}:?\d{2})`, read from its end. -/
def startsWithZone (reversed : List Char) : Bool :=
  match reversed with
  | 'Z' :: _ | 'z' :: _ => true
  | d :: c :: rest =>
    match if rest.head? = some ':' then rest.tail else rest with
    | b :: a :: sign :: _ =>
      [a, b, c, d].all Char.isDigit && (sign == '+' || sign == '-')
    | _ => false
  | _ => false

/-- `/T.*(Z|[+-]\d{2}:?\d{2})$/i` -/
def hasZonedTime (chars : List Char) : Bool :=
  match chars with
  | [] => false
  | c :: rest =>
    ((c == 'T' || c == 't') && !rest.any isLineTerminator && startsWithZone rest.reverse) ||
      hasZonedTime rest

variable (host : Host)

def toSqliteDatetime (value : Json) : Json :=
  match value with
  | .string s =>
    if hasZonedTime s.toList then
      match host.utcDatetime s with
      | some text => .string text
      | none => .string s
    else .string s
  | value => value

def normalizeDates (key : TableKey) (row : Row) : Row :=
  row.map fun entry =>
    (entry.1,
      if entry.1 ∈ sqliteDatetimeColumns key then toSqliteDatetime host entry.2 else entry.2)

end Datetime

structure Clock where
  /-- `datetime('now')` and `CURRENT_TIMESTAMP` -/
  now : String
  /-- The time the leases are compared with. -/
  leaseNow : String
  ownershipReadAt : Rat
  ownershipRestoredAt : Rat

structure ImportState where
  tables : Tables TableKey
  counts : TableKey → Nat
  warnings : List String

section Restore

variable (host : Host) (clock : Clock)

def importRow (key : TableKey) (state : ImportState) (archivedRow : Row) : ImportState :=
  let importer := importer host key
  let row := normalizeDates host key archivedRow
  match importer.skip row with
  | some warning => { state with warnings := state.warnings ++ [warning] }
  | none =>
    match insertRow host clock.now state.tables importer row with
    | .ok tables =>
      { state with
        tables := tables
        counts := Function.update state.counts key (state.counts key + 1) }
    | .error error =>
      { state with
        warnings := state.warnings ++
          ["Failed to import " ++ importer.label ++ " " ++
            "/".intercalate (importer.id.map fun column => host.interpolate (row.lookup column)) ++
            ": " ++ error] }

def importTables (archive : TableKey → List Row) (state : ImportState) : ImportState :=
  TableKey.all.foldl (fun state key => (archive key).foldl (importRow host clock key) state) state

/-- Every table is deleted from but one: `DELETE FROM sessions` takes the rules of the sessions
along. -/
def clearTables (tables : Tables TableKey) : Tables TableKey := fun key =>
  match key with
  | .automationRules =>
    (tables .automationRules).filter fun rule =>
      !(tables .sessions).any fun session => session.get "id" == rule.get "sessionId"
  | _ => []

/-! ### Ownership -/

def readSessionOwnership (tables : Tables TableKey) : List Record :=
  (tables .sessions).filter fun session => session.get "nodeId" != .null

def carryLease (raw : Cell) : Cell :=
  match raw with
  | .text s =>
    if !s.endsWith "Z" then raw
    else
      match host.dateParse (some (.string s)) with
      | none => raw
      | some deadline =>
        let remaining := deadline - clock.ownershipReadAt
        if remaining ≤ 0 then raw
        else
          match host.toISOString (max (clock.ownershipRestoredAt + remaining) deadline) with
          | some carried => .text carried
          | none => raw
  | _ => raw

def restoreSessionOwnership (preserved : List Record) (sessions : List Record) : List Record :=
  preserved.foldl
    (fun sessions row => sessions.map fun session =>
      if session.get "id" = row.get "id" then
        (((session.set "nodeId" (row.get "nodeId")).set "claimedAt" (row.get "claimedAt")).set
          "leaseExpiresAt" (carryLease host clock (row.get "leaseExpiresAt"))).set
          "nodeUrl" (row.get "nodeUrl")
      else session)
    sessions

/-- SQLite sorts numbers before texts, and `NULL` compares with nothing. -/
def isBefore (cell : Cell) (time : String) : Bool :=
  match cell with
  | .null => false
  | .number _ => true
  | .text s => s < time

def isAfter (cell : Cell) (time : String) : Bool :=
  match cell with
  | .text s => time < s
  | _ => false

def isClaimable (nodeId : String) (session : Record) : Bool :=
  session.get "nodeId" == .null || session.get "nodeId" == .text nodeId ||
    isBefore (session.get "leaseExpiresAt") clock.leaseNow

def heldByOtherNodes (nodeId : String) (tables : Tables TableKey) : List Record :=
  (tables .sessions).filter fun session =>
    session.get "nodeId" != .null && session.get "nodeId" != .text nodeId &&
      isAfter (session.get "leaseExpiresAt") clock.leaseNow

def activeStatuses : List Cell :=
  [.text "ready", .text "initializing", .text "qr_ready", .text "authenticating",
    .text "action_required"]

def isActive (session : Record) : Bool := activeStatuses.contains (session.get "status")

/-- The update of the statuses, which also stamps `updatedAt`, as every update through a repository
does. -/
def normalizeSession (nodeId : String) (session : Record) : Record :=
  if isClaimable clock nodeId session && isActive session then
    (session.set "status" (.text "disconnected")).set "updatedAt" (.text clock.now)
  else session

end Restore

structure Gateway where
  tables : Tables TableKey
  nodeId : String
  /-- The sessions this process runs an engine for. -/
  activeSessionIds : List String
  importInFlight : Bool
  isTransactionActive : Bool

structure StoppedEngines where
  stopped : List String
  notRunning : List String
  failed : List String

structure ImportRequest where
  /-- The rows of the archive; a table it lacks has none. -/
  tables : TableKey → List Row
  force : Bool
  stopOrphans : Bool

structure ImportResult where
  imported : Bool
  counts : TableKey → Nat
  warnings : List String
  notices : List String
  restartRequired : Bool
  orphanedEngines : List String
  stoppedOrphanEngines : List String
  failedOrphanEngines : List String

structure Conflict where
  code : String
  message : String

section Import

variable (host : Host) (clock : Clock) (stopOrphanEngines : List String → StoppedEngines)

/-- What the pre-flight leaves: the notices, whether a restart is due, and what became of the
orphans. -/
structure Preflight where
  notices : List String
  restartRequired : Bool
  orphanedEngines : List String
  engines : StoppedEngines

def join (ids : List String) : String := ", ".intercalate ids

def preflight (gateway : Gateway) (request : ImportRequest) : Except Conflict Preflight :=
  let importedSessionIds := (request.tables .sessions).map fun session => session.lookup "id"
  let orphans := gateway.activeSessionIds.filter fun id =>
    !importedSessionIds.contains (some (.string id))
  let heldElsewhere := heldByOtherNodes clock gateway.nodeId gateway.tables
  let notices :=
    if heldElsewhere ≠ [] then
      [toString heldElsewhere.length ++ " session(s) are running on another node and could not be " ++
        "reconciled from this request: " ++
        join (heldElsewhere.map fun session => host.interpolate (some (ofCell (session.get "id")))) ++
        ". Their engines may still write into the restored tables — stop those nodes before " ++
        "relying on this import."]
    else []
  let restartRequired := heldElsewhere ≠ []
  if orphans = [] then .ok ⟨notices, restartRequired, [], ⟨[], [], []⟩⟩
  else if request.stopOrphans then
    let result := stopOrphanEngines orphans
    let failed :=
      if result.failed ≠ [] then
        ["Teardown failed for " ++ toString result.failed.length ++ " orphan engine(s): " ++
          join result.failed ++
          " (removed from the engine registry; a process restart guarantees cleanup)."]
      else []
    let notRunning :=
      if result.notRunning ≠ [] then
        [toString result.notRunning.length ++
          " orphan session(s) had no live engine yet (still initializing): " ++
          join result.notRunning ++ " — their start() will self-abort."]
      else []
    .ok ⟨notices ++ failed ++ notRunning, restartRequired || result.failed ≠ [], orphans, result⟩
  else if request.force then .ok ⟨notices, true, orphans, ⟨[], [], []⟩⟩
  else
    .error ⟨"IMPORT_WOULD_ORPHAN_ENGINES",
      "Import would orphan " ++ toString orphans.length ++ " running engine(s) for session(s) " ++
        join orphans ++ " that the backup does not contain. Stop them first, retry with " ++
        "stopOrphans=true (stops them inside this request), or retry with force=true " ++
        "(a server restart is then required to stop the orphaned engines)."⟩

/-- The transaction: its result, and the tables it leaves. -/
def replaceTables (gateway : Gateway) (request : ImportRequest) (before : Preflight) :
    ImportResult × Tables TableKey :=
  let preserved := readSessionOwnership gateway.tables
  let state := importTables host clock request.tables ⟨clearTables gateway.tables, fun _ => 0, []⟩
  let sessions := restoreSessionOwnership host clock preserved (state.tables .sessions)
  let affected := (sessions.filter fun session =>
    isClaimable clock gateway.nodeId session && isActive session).length
  let tables := Function.update state.tables .sessions
    (sessions.map (normalizeSession clock gateway.nodeId))
  let notices :=
    if affected > 0 then
      before.notices ++ [toString affected ++ " imported session(s) carried an active status (the " ++
        "source host's engines): restored as disconnected - start them via " ++
        "POST /api/sessions/:id/start or let auto-start adopt them."]
    else before.notices
  let rolledBack : ImportResult :=
    { imported := false, counts := state.counts, warnings := state.warnings, notices := notices
      restartRequired := before.engines.failed ≠ []
      orphanedEngines := before.orphanedEngines
      stoppedOrphanEngines := before.engines.stopped
      failedOrphanEngines := before.engines.failed }
  if state.warnings ≠ [] then (rolledBack, gateway.tables)
  else if (TableKey.all.map state.counts).sum = 0 then
    ({ rolledBack with
      warnings :=
        ["Backup contained no rows to restore; refused to replace existing data. Check the file."] },
      gateway.tables)
  else
    ({ rolledBack with imported := true, restartRequired := before.restartRequired }, tables)

def importData (gateway : Gateway) (request : ImportRequest) :
    Except Conflict (ImportResult × Tables TableKey) :=
  if gateway.importInFlight then
    .error ⟨"IMPORT_ALREADY_RUNNING",
      "A data import is already running; wait for it to finish before starting another."⟩
  else
    match preflight host clock stopOrphanEngines gateway request with
    | .error conflict => .error conflict
    | .ok before =>
      if gateway.isTransactionActive then
        .error ⟨"IMPORT_NESTED_TRANSACTION",
          "Another database transaction is in progress on this connection, so a restore could not " ++
            "be made durable. Retry with no other data operation in flight."⟩
      else .ok (replaceTables host clock gateway request before)

end Import
end OpenWA.Backup
