import OpenWA.Backup.InfraData

/-!
This module contains the transaction of the import as statements that a database answers, on either
dialect: what becomes of each row, which error paths end in a rollback, and what they report.
-/

namespace OpenWA.Backup

open Sqlite Js

/-- What the statements of the transaction do, as long as it is not aborted. -/
structure Database where
  Contents : Type
  Claim : Type
  isPostgres : Bool
  /-- The `DELETE` statements. -/
  clear : Contents → Contents
  readSessionOwnership : Contents → List Claim
  /-- The `INSERT` of the row's importer. -/
  insertRow : TableKey → Row → Contents → Except String Contents
  /-- The `UPDATE` that binds one claim again. -/
  bindClaim : Claim → Contents → Contents
  /-- The update of the statuses, with the number of rows affected. -/
  normalizeStatuses : Contents → Contents × Nat

structure Connection (db : Database) where
  contents : db.Contents
  aborted : Bool

/-- What the promise of the import settles with. -/
inductive Settlement where
  | resolved (result : ImportResult)
  | rejected (error : String)

section Statements

variable {db : Database} {α : Type}

/-- On PostgreSQL every statement after a failed one fails until the rollback. -/
def Connection.query (connection : Connection db)
    (statement : db.Contents → Except String (α × db.Contents)) : Except String α × Connection db :=
  if connection.aborted then
    (.error "current transaction is aborted, commands ignored until end of transaction block", connection)
  else
    match statement connection.contents with
    | .ok (answer, contents) => (.ok answer, { connection with contents := contents })
    | .error error => (.error error, { connection with aborted := db.isPostgres })

variable (db : Database) (host : Host)

structure Progress where
  connection : Connection db
  counts : TableKey → Nat
  warnings : List String

/-- The row as its importer sees it; only SQLite has `datetime` columns to rewrite. -/
def importedRow (key : TableKey) (archivedRow : Row) : Row :=
  if db.isPostgres then archivedRow else normalizeDates host key archivedRow

def insertStatement (key : TableKey) (row : Row) (contents : db.Contents) :
    Except String (Unit × db.Contents) :=
  (db.insertRow key row contents).map fun contents => ((), contents)

def failureWarning (key : TableKey) (row : Row) (error : String) : String :=
  "Failed to import " ++ (importer host key).label ++ " " ++
    "/".intercalate ((importer host key).id.map fun column => host.interpolate (row.lookup column)) ++
    ": " ++ error

def insertArchived (progress : Progress db) (entry : TableKey × Row) : Progress db :=
  let row := importedRow db host entry.1 entry.2
  match (importer host entry.1).skip row with
  | some warning => { progress with warnings := progress.warnings ++ [warning] }
  | none =>
    match progress.connection.query (insertStatement db entry.1 row) with
    | (.ok _, connection) =>
      { progress with
        connection := connection
        counts := Function.update progress.counts entry.1 (progress.counts entry.1 + 1) }
    | (.error error, connection) =>
      { progress with
        connection := connection
        warnings := progress.warnings ++ [failureWarning host entry.1 row error] }

/-- The rows of the archive in the order of the import. -/
def archiveRows (archive : TableKey → List Row) : List (TableKey × Row) :=
  TableKey.all.flatMap fun key => (archive key).map fun row => (key, row)

def bindClaims (claims : List db.Claim) (connection : Connection db) :
    Except String Unit × Connection db :=
  match claims with
  | [] => (.ok (), connection)
  | claim :: claims =>
    match connection.query fun contents => .ok ((), db.bindClaim claim contents) with
    | (.ok _, connection) => bindClaims claims connection
    | (.error error, connection) => (.error error, connection)

def normalizeStatement (contents : db.Contents) : Except String (Nat × db.Contents) :=
  .ok ((db.normalizeStatuses contents).2, (db.normalizeStatuses contents).1)

/-- The transaction of `runImport`: what the import settles with, and the tables it leaves. -/
def runTransaction (contents : db.Contents) (archive : TableKey → List Row) (before : Preflight) :
    Settlement × db.Contents :=
  let claims := db.readSessionOwnership contents
  let progress := (archiveRows archive).foldl (insertArchived db host)
    ⟨⟨db.clear contents, false⟩, fun _ => 0, []⟩
  let (restored, connection) := bindClaims db claims progress.connection
  let warnings :=
    match restored with
    | .ok _ => progress.warnings
    | .error error => progress.warnings ++ ["Failed to restore session ownership: " ++ error]
  match connection.query (normalizeStatement db) with
  | (.error error, _) => (.rejected error, contents)
  | (.ok affected, connection) =>
    let notices :=
      if affected > 0 then
        before.notices ++ [toString affected ++ " imported session(s) carried an active status (the " ++
          "source host's engines): restored as disconnected - start them via " ++
          "POST /api/sessions/:id/start or let auto-start adopt them."]
      else before.notices
    let rolledBack : ImportResult :=
      { imported := false, counts := progress.counts, warnings := warnings, notices := notices
        restartRequired := before.engines.failed ≠ []
        orphanedEngines := before.orphanedEngines
        stoppedOrphanEngines := before.engines.stopped
        failedOrphanEngines := before.engines.failed }
    if warnings ≠ [] then (.resolved rolledBack, contents)
    else if (TableKey.all.map progress.counts).sum = 0 then
      (.resolved
        { rolledBack with
          warnings :=
            ["Backup contained no rows to restore; refused to replace existing data. Check the file."] },
        contents)
    else
      (.resolved { rolledBack with imported := true, restartRequired := before.restartRequired },
        connection.contents)

end Statements

section Fates

variable (db : Database) (host : Host)

/-- What becomes of an archived row. -/
inductive Fate where
  | vetoed (warning : String)
  | inserted
  | rejected (error : String)

def fate (connection : Connection db) (entry : TableKey × Row) : Fate :=
  let row := importedRow db host entry.1 entry.2
  match (importer host entry.1).skip row with
  | some warning => .vetoed warning
  | none =>
    match (connection.query (insertStatement db entry.1 row)).1 with
    | .ok _ => .inserted
    | .error error => .rejected error

def afterFate (connection : Connection db) (entry : TableKey × Row) : Connection db :=
  let row := importedRow db host entry.1 entry.2
  match (importer host entry.1).skip row with
  | some _ => connection
  | none => (connection.query (insertStatement db entry.1 row)).2

/-- The rows with what becomes of them, one after the other. -/
def fates (connection : Connection db) (entries : List (TableKey × Row)) :
    List ((TableKey × Row) × Fate) :=
  match entries with
  | [] => []
  | entry :: entries =>
    (entry, fate db host connection entry) :: fates (afterFate db host connection entry) entries

/-- The warning that a row calls for. -/
def warningOf (entry : (TableKey × Row) × Fate) : Option String :=
  match entry.2 with
  | .vetoed warning => some warning
  | .inserted => none
  | .rejected error =>
    some (failureWarning host entry.1.1 (importedRow db host entry.1.1 entry.1.2) error)

/-- The database accepts the rows that no importer vetoes, one after the other. -/
def accepts (contents : db.Contents) (entries : List (TableKey × Row)) : Bool :=
  match entries with
  | [] => true
  | entry :: entries =>
    let row := importedRow db host entry.1 entry.2
    if ((importer host entry.1).skip row).isSome then accepts contents entries
    else
      match db.insertRow entry.1 row contents with
      | .ok contents => accepts contents entries
      | .error _ => false

/-- What becomes of the rows of an archive. -/
def archiveFates (contents : db.Contents) (archive : TableKey → List Row) :
    List ((TableKey × Row) × Fate) :=
  fates db host ⟨db.clear contents, false⟩ (archiveRows archive)

/-- The tables stay, and the import resolves with a warning for each row that calls for one. -/
structure Reported (contents : db.Contents) (archive : TableKey → List Row) (before : Preflight) : Prop where
  unchanged : (runTransaction db host contents archive before).2 = contents
  resolves : ∃ result, (runTransaction db host contents archive before).1 = .resolved result ∧
    result.imported = false ∧
    ∀ entry ∈ archiveFates db host contents archive, ∀ warning,
      warningOf db host entry = some warning → warning ∈ result.warnings

structure AllOrNothing (contents : db.Contents) (archive : TableKey → List Row) (before : Preflight) :
    Prop where
  reported : (∃ entry ∈ archiveFates db host contents archive, (warningOf db host entry).isSome = true) →
    Reported db host contents archive before
  /-- Nothing was restored, and nothing is committed. -/
  restored : (∀ entry ∈ archiveFates db host contents archive, entry.2 ≠ .inserted) →
    (runTransaction db host contents archive before).2 = contents ∧
      ∀ result, (runTransaction db host contents archive before).1 = .resolved result →
        result.imported = false

end Fates

section Lemmas

variable {db : Database} {host : Host} {contents : db.Contents} {connection : Connection db}
  {progress : Progress db} {entry : TableKey × Row} {entries : List (TableKey × Row)}

/-- The importer vetoes the row. -/
def vetoes (db : Database) (host : Host) (entry : TableKey × Row) : Option String :=
  (importer host entry.1).skip (importedRow db host entry.1 entry.2)

theorem afterFate_of_veto {warning : String} (h : vetoes db host entry = some warning) :
    afterFate db host connection entry = connection := by
  unfold vetoes at h
  simp only [afterFate, h]

theorem afterFate_of_insert (h : vetoes db host entry = none) :
    afterFate db host connection entry = (connection.query
      (insertStatement db entry.1 (importedRow db host entry.1 entry.2))).2 := by
  unfold vetoes at h
  simp only [afterFate, h]

theorem insertArchived_spec (host : Host) (progress : Progress db) (entry : TableKey × Row) :
    (insertArchived db host progress entry).connection = afterFate db host progress.connection entry ∧
      (insertArchived db host progress entry).warnings = progress.warnings ++
        (warningOf db host (entry, fate db host progress.connection entry)).toList ∧
      (fate db host progress.connection entry ≠ .inserted →
        (insertArchived db host progress entry).counts = progress.counts) := by
  cases hskip : (importer host entry.1).skip (importedRow db host entry.1 entry.2) with
  | some warning =>
    simp only [insertArchived, fate, afterFate, hskip, implies_true, and_true, true_and]
    rfl
  | none =>
    simp only [insertArchived, fate, afterFate, hskip]
    cases progress.connection.query
        (insertStatement db entry.1 (importedRow db host entry.1 entry.2)) with
    | mk answer connection =>
      cases answer with
      | ok => exact ⟨rfl, by simp [warningOf], fun h => absurd rfl h⟩
      | error error => exact ⟨rfl, rfl, fun _ => rfl⟩

/-- The connection after all rows. -/
def finalConnection (db : Database) (host : Host) (connection : Connection db)
    (entries : List (TableKey × Row)) : Connection db :=
  entries.foldl (afterFate db host) connection

theorem foldl_insertArchived (host : Host) (progress : Progress db) (entries : List (TableKey × Row)) :
    (entries.foldl (insertArchived db host) progress).connection =
        finalConnection db host progress.connection entries ∧
      (entries.foldl (insertArchived db host) progress).warnings = progress.warnings ++
        (fates db host progress.connection entries).filterMap (warningOf db host) ∧
      ((∀ e ∈ fates db host progress.connection entries, e.2 ≠ .inserted) →
        (entries.foldl (insertArchived db host) progress).counts = progress.counts) := by
  induction entries generalizing progress with
  | nil => exact ⟨rfl, by simp [fates], fun _ => rfl⟩
  | cons entry entries ih =>
    obtain ⟨hconnection, hwarnings, hcounts⟩ := insertArchived_spec host progress entry
    obtain ⟨ihconnection, ihwarnings, ihcounts⟩ := ih (insertArchived db host progress entry)
    rw [hconnection] at ihconnection ihwarnings ihcounts
    refine ⟨ihconnection, ?_, fun hnone => ?_⟩
    . rw [List.foldl_cons, ihwarnings, hwarnings, fates, List.filterMap_cons, List.append_assoc]
      cases warningOf db host (entry, fate db host progress.connection entry) <;> rfl
    . rw [List.foldl_cons, ihcounts fun e he => hnone e (List.mem_cons_of_mem _ he)]
      exact hcounts (hnone _ (List.mem_cons_self ..))

theorem query_of_aborted {α : Type} {statement : db.Contents → Except String (α × db.Contents)}
    (h : connection.aborted = true) : ∃ error, connection.query statement = (.error error, connection) := by
  unfold Connection.query
  rw [if_pos h]
  exact ⟨_, rfl⟩

theorem finalConnection_of_aborted (h : connection.aborted = true) :
    finalConnection db host connection entries = connection := by
  induction entries with
  | nil => rfl
  | cons entry entries ih =>
    have hstays : afterFate db host connection entry = connection := by
      cases hskip : vetoes db host entry with
      | some warning => exact afterFate_of_veto hskip
      | none =>
        rcases query_of_aborted h with ⟨error, herror⟩
        rw [afterFate_of_insert hskip, herror]
    rw [finalConnection, List.foldl_cons, hstays]
    exact ih

theorem finalConnection_sqlite (hsqlite : db.isPostgres = false) (h : connection.aborted = false) :
    (finalConnection db host connection entries).aborted = false := by
  unfold finalConnection
  induction entries generalizing connection with
  | nil => exact h
  | cons entry entries ih =>
    refine ih ?_
    cases hskip : vetoes db host entry with
    | some warning => rw [afterFate_of_veto hskip, h]
    | none =>
      rw [afterFate_of_insert hskip]
      simp only [Connection.query, h, Bool.false_eq_true, if_false]
      split
      . rfl
      . exact hsqlite

theorem finalConnection_postgres (hpostgres : db.isPostgres = true) (h : connection.aborted = false) :
    (finalConnection db host connection entries).aborted =
      !accepts db host connection.contents entries := by
  unfold finalConnection
  induction entries generalizing connection with
  | nil => exact h
  | cons entry entries ih =>
    rw [List.foldl_cons, accepts]
    cases hskip : (importer host entry.1).skip (importedRow db host entry.1 entry.2) with
    | some warning =>
      rw [afterFate_of_veto hskip]
      exact ih h
    | none =>
      rw [afterFate_of_insert hskip]
      simp only [Connection.query, h, insertStatement, Option.isSome_none, Bool.false_eq_true, if_false]
      cases hinsert : db.insertRow entry.1 (importedRow db host entry.1 entry.2) connection.contents with
      | ok contents => exact ih rfl
      | error error =>
        have hstays : finalConnection db host ⟨connection.contents, true⟩ entries =
            ⟨connection.contents, true⟩ := finalConnection_of_aborted rfl
        unfold finalConnection at hstays
        simp only [Except.map, hpostgres]
        rw [hstays]
        rfl

theorem accepts_of_silent (connection : Connection db) (h : connection.aborted = false)
    (hsilent : ∀ e ∈ fates db host connection entries, warningOf db host e = none) :
    accepts db host connection.contents entries = true := by
  induction entries generalizing connection with
  | nil => rfl
  | cons entry entries ih =>
    have hfirst := hsilent _ (List.mem_cons_self ..)
    have hrest : ∀ e ∈ fates db host (afterFate db host connection entry) entries,
        warningOf db host e = none := fun e he => hsilent e (List.mem_cons_of_mem _ he)
    rw [accepts]
    cases hskip : (importer host entry.1).skip (importedRow db host entry.1 entry.2) with
    | some warning => simp [warningOf, fate, hskip] at hfirst
    | none =>
      rw [afterFate_of_insert hskip] at hrest
      simp only [fate, hskip, Connection.query, h, insertStatement, Bool.false_eq_true,
        if_false] at hfirst hrest
      simp only [Option.isSome_none, Bool.false_eq_true, if_false]
      cases hinsert : db.insertRow entry.1 (importedRow db host entry.1 entry.2) connection.contents with
      | ok contents =>
        simp only [hinsert, Except.map] at hrest
        exact ih ⟨contents, false⟩ rfl hrest
      | error error => simp [hinsert, Except.map, warningOf] at hfirst

theorem bindClaims_of_open (h : connection.aborted = false) (claims : List db.Claim) :
    (bindClaims db claims connection).1 = .ok () ∧
      (bindClaims db claims connection).2.aborted = false := by
  induction claims generalizing connection with
  | nil => exact ⟨rfl, h⟩
  | cons claim claims ih =>
    simp only [bindClaims, Connection.query, h, Bool.false_eq_true, if_false]
    exact ih rfl

theorem bindClaims_of_aborted (h : connection.aborted = true) (claims : List db.Claim) :
    (bindClaims db claims connection).2 = connection := by
  cases claims with
  | nil => rfl
  | cons claim claims => simp [bindClaims, Connection.query, h]

end Lemmas

section Main

variable {db : Database} {host : Host} {contents : db.Contents} {archive : TableKey → List Row}
  {before : Preflight}

/-- What the loop over the rows of an archive leaves. -/
def archived (db : Database) (host : Host) (contents : db.Contents) (archive : TableKey → List Row) :
    Progress db :=
  (archiveRows archive).foldl (insertArchived db host) ⟨⟨db.clear contents, false⟩, fun _ => 0, []⟩

theorem archived_warnings : (archived db host contents archive).warnings =
    (archiveFates db host contents archive).filterMap (warningOf db host) :=
  (foldl_insertArchived host _ _).2.1

theorem archived_counts (h : ∀ entry ∈ archiveFates db host contents archive, entry.2 ≠ .inserted) :
    (archived db host contents archive).counts = fun _ => 0 :=
  (foldl_insertArchived host _ _).2.2 h

theorem archived_aborted : (archived db host contents archive).connection.aborted =
    (db.isPostgres && !accepts db host (db.clear contents) (archiveRows archive)) := by
  unfold archived
  rw [(foldl_insertArchived host _ _).1]
  cases hdialect : db.isPostgres with
  | false => exact finalConnection_sqlite hdialect rfl
  | true => exact finalConnection_postgres hdialect rfl

/-- In an aborted transaction the update of the statuses fails, which nothing catches. -/
theorem runTransaction_of_aborted (before : Preflight)
    (h : (archived db host contents archive).connection.aborted = true) :
    ∃ error, runTransaction db host contents archive before = (.rejected error, contents) := by
  have hbound := bindClaims_of_aborted h (db.readSessionOwnership contents)
  have hfails : ∃ error, (archived db host contents archive).connection.query (normalizeStatement db) =
      (.error error, (archived db host contents archive).connection) := query_of_aborted h
  rcases hfails with ⟨error, herror⟩
  refine ⟨error, ?_⟩
  unfold archived at hbound herror
  simp only [runTransaction, hbound, herror]

theorem runTransaction_of_open (before : Preflight)
    (h : (archived db host contents archive).connection.aborted = false) :
    ∃ result after, runTransaction db host contents archive before = (.resolved result, after) ∧
      ((archived db host contents archive).warnings ≠ [] →
        result.imported = false ∧ after = contents ∧
          result.warnings = (archived db host contents archive).warnings) ∧
      ((archived db host contents archive).counts = (fun _ => 0) →
        result.imported = false ∧ after = contents) := by
  obtain ⟨hbound, hopen⟩ := bindClaims_of_open h (db.readSessionOwnership contents)
  unfold archived at hbound hopen ⊢
  simp only [runTransaction, hbound, Connection.query, hopen, Bool.false_eq_true, if_false,
    normalizeStatement]
  split
  . next hwarnings => exact ⟨_, _, rfl, fun _ => ⟨rfl, rfl, rfl⟩, fun _ => ⟨rfl, rfl⟩⟩
  . next hnone =>
    split
    . next hzero => exact ⟨_, _, rfl, fun hwarnings => absurd hwarnings hnone, fun _ => ⟨rfl, rfl⟩⟩
    . next hsome =>
      refine ⟨_, _, rfl, fun hwarnings => absurd hwarnings hnone, fun hcounts => ?_⟩
      rw [hcounts] at hsome
      exact absurd (by decide) hsome

/--
The import is all-or-nothing and says so if and only if it runs on SQLite or the database rejects no row.
-/
theorem all_or_nothing_iff : AllOrNothing db host contents archive before ↔
    db.isPostgres = false ∨ accepts db host (db.clear contents) (archiveRows archive) = true := by
  cases haborted : (archived db host contents archive).connection.aborted with
  | true =>
    obtain ⟨error, hrun⟩ := runTransaction_of_aborted before haborted
    rw [archived_aborted, Bool.and_eq_true, Bool.not_eq_true'] at haborted
    refine ⟨fun h => ?_, by simp [haborted]⟩
    by_contra
    have hfailed : ∃ entry ∈ archiveFates db host contents archive,
        (warningOf db host entry).isSome = true := by
      by_contra hsilent
      push Not at hsilent
      have haccepts := accepts_of_silent ⟨db.clear contents, false⟩ rfl
        fun e he => Option.not_isSome_iff_eq_none.mp (hsilent e he)
      simp [haccepts] at haborted
    rcases (h.reported hfailed).resolves with ⟨result, hresolved, -⟩
    rw [hrun] at hresolved
    exact nomatch hresolved
  | false =>
    obtain ⟨result, after, hrun, hwarned, hempty⟩ := runTransaction_of_open before haborted
    rw [archived_aborted, Bool.and_eq_false_imp, Bool.not_eq_false'] at haborted
    refine iff_of_true ⟨fun hfailed => ?_, fun hnone => ?_⟩ ?_
    . rcases hfailed with ⟨entry, hentry, hwarning⟩
      have hwarnings : (archived db host contents archive).warnings ≠ [] := by
        rw [archived_warnings]
        rcases Option.isSome_iff_exists.mp hwarning with ⟨warning, hsome⟩
        exact List.ne_nil_of_mem (List.mem_filterMap.mpr ⟨entry, hentry, hsome⟩)
      obtain ⟨himported, hafter, heq⟩ := hwarned hwarnings
      refine ⟨by rw [hrun, hafter], result, by rw [hrun], himported, fun e he warning hw => ?_⟩
      rw [heq, archived_warnings]
      exact List.mem_filterMap.mpr ⟨e, he, hw⟩
    . obtain ⟨himported, hafter⟩ := hempty (archived_counts hnone)
      refine ⟨by rw [hrun, hafter], fun r hr => ?_⟩
      rw [hrun] at hr
      obtain rfl := Settlement.resolved.inj hr
      exact himported
    . cases hdialect : db.isPostgres with
      | false => exact .inl rfl
      | true => exact .inr (haborted hdialect)

end Main

section Dialects

variable (host : Host) (clock : Clock)

/-- The SQLite database of the gateway `nodeId`. -/
abbrev sqlite (nodeId : String) : Database where
  Contents := Tables TableKey
  Claim := Record
  isPostgres := false
  clear := clearTables
  readSessionOwnership := readSessionOwnership
  insertRow key row tables := insertRow host clock.now tables (importer host key) row
  bindClaim claim tables :=
    Function.update tables .sessions (restoreSessionOwnership host clock [claim] (tables .sessions))
  normalizeStatuses tables :=
    (Function.update tables .sessions ((tables .sessions).map (normalizeSession clock nodeId)),
      ((tables .sessions).filter fun session =>
        isClaimable clock nodeId session && isActive session).length)

variable {host clock}

theorem insertArchived_sqlite {nodeId : String} (entry : TableKey × Row)
    {progress : Progress (sqlite host clock nodeId)} (h : progress.connection.aborted = false) :
    let progress' := insertArchived (sqlite host clock nodeId) host progress entry
    importRow host clock entry.1
        ⟨progress.connection.contents, progress.counts, progress.warnings⟩ entry.2 =
        ⟨progress'.connection.contents, progress'.counts, progress'.warnings⟩ ∧
      progress'.connection.aborted = false := by
  simp only [importRow, insertArchived, importedRow, sqlite, Bool.false_eq_true, if_false]
  cases (importer host entry.1).skip (normalizeDates host entry.1 entry.2) with
  | some warning => exact ⟨rfl, h⟩
  | none =>
    simp only [Connection.query, h, insertStatement, Bool.false_eq_true, if_false]
    cases insertRow host clock.now progress.connection.contents (importer host entry.1)
        (normalizeDates host entry.1 entry.2) with
    | ok tables => exact ⟨rfl, rfl⟩
    | error error => exact ⟨rfl, rfl⟩

theorem importTables_sqlite (host : Host) (clock : Clock) (nodeId : String) (tables : Tables TableKey) (archive : TableKey → List Row) :
    let progress := archived (sqlite host clock nodeId) host tables archive
    importTables host clock archive ⟨clearTables tables, fun _ => 0, []⟩ =
        ⟨progress.connection.contents, progress.counts, progress.warnings⟩ ∧
      progress.connection.aborted = false := by
  have hflat : ∀ (keys : List TableKey) (state : ImportState),
      keys.foldl (fun state key => (archive key).foldl (importRow host clock key) state) state =
        (keys.flatMap fun key => (archive key).map fun row => (key, row)).foldl
          (fun state entry => importRow host clock entry.1 state entry.2) state := by
    intro keys state
    rw [List.foldl_flatMap]
    simp only [List.foldl_map]
  have hfold : ∀ (entries : List (TableKey × Row)) (progress : Progress (sqlite host clock nodeId)),
      progress.connection.aborted = false →
      let progress' := entries.foldl (insertArchived (sqlite host clock nodeId) host) progress
      entries.foldl (fun state entry => importRow host clock entry.1 state entry.2)
          ⟨progress.connection.contents, progress.counts, progress.warnings⟩ =
          ⟨progress'.connection.contents, progress'.counts, progress'.warnings⟩ ∧
        progress'.connection.aborted = false := by
    intro entries
    induction entries with
    | nil => exact fun _ h => ⟨rfl, h⟩
    | cons entry entries ih =>
      intro progress h
      obtain ⟨hrow, hopen⟩ := insertArchived_sqlite entry h
      simp only [List.foldl_cons]
      rw [hrow]
      exact ih _ hopen
  rw [importTables, hflat]
  exact hfold _ ⟨⟨clearTables tables, false⟩, fun _ => 0, []⟩ rfl

theorem bindClaims_sqlite {nodeId : String} (claims : List Record)
    (connection : Connection (sqlite host clock nodeId)) (h : connection.aborted = false) :
    bindClaims (sqlite host clock nodeId) claims connection =
      (.ok (), ⟨Function.update connection.contents .sessions
        (restoreSessionOwnership host clock claims (connection.contents .sessions)), false⟩) := by
  induction claims generalizing connection with
  | nil =>
    rcases connection with ⟨tables, aborted⟩
    simp only at h
    subst h
    have hsame : Function.update (show Tables TableKey from tables) .sessions
        ((show Tables TableKey from tables) .sessions) = tables := Function.update_eq_self _ _
    exact congrArg (fun t => (Except.ok (), (⟨t, false⟩ : Connection (sqlite host clock nodeId)))) hsame.symm
  | cons claim claims ih =>
    simp only [bindClaims, Connection.query, h, Bool.false_eq_true, if_false]
    rw [ih _ rfl]
    simp [sqlite, restoreSessionOwnership]

/-- On SQLite the transaction does what `replaceTables` says. -/
theorem runTransaction_sqlite (gateway : Gateway) (request : ImportRequest) (before : Preflight) :
    runTransaction (sqlite host clock gateway.nodeId) host gateway.tables request.tables before =
      (.resolved (replaceTables host clock gateway request before).1,
        (replaceTables host clock gateway request before).2) := by
  have himport := importTables_sqlite host clock gateway.nodeId gateway.tables request.tables
  unfold archived at himport
  simp only [runTransaction, replaceTables]
  generalize List.foldl (insertArchived (sqlite host clock gateway.nodeId) host) _
    (archiveRows request.tables) = progress at himport ⊢
  obtain ⟨htables, hopen⟩ := himport
  rw [htables]
  have hbound := bindClaims_sqlite ((sqlite host clock gateway.nodeId).readSessionOwnership gateway.tables)
    progress.connection hopen
  simp only [hbound, Connection.query, normalizeStatement, Function.update_self,
    Function.update_idem, Bool.false_eq_true, if_false]
  split
  . rfl
  . split <;> rfl

end Dialects

section Aborted

/-- A host that is asked for texts only. -/
def textHost : Host where
  numerals := ⟨fun _ => none, fun _ => ""⟩
  parse _ := none
  stringify _ := "\x7b\x7d"
  stringify_empty := rfl
  interpolate value :=
    match value with
    | some (.string s) => s
    | _ => ""
  parseUrl _ := none
  toNumber _ := none
  dateParse _ := none
  toISOString _ := none
  utcDatetime _ := none

/-- A PostgreSQL database that knows the primary keys only. -/
def postgres : Database where
  Contents := List (TableKey × Row)
  Claim := Unit
  isPostgres := true
  clear _ := []
  readSessionOwnership _ := []
  insertRow key row contents :=
    if contents.any fun entry => entry.1 = key && entry.2.lookup "id" = row.lookup "id" then
      .error "duplicate key value violates unique constraint"
    else .ok (contents ++ [(key, row)])
  bindClaim _ contents := contents
  normalizeStatuses contents := (contents, 0)

def idle (id name : String) : Row :=
  [("id", .string id), ("name", .string name), ("status", .string "disconnected")]

/-- An archive that has one session twice. -/
def twice : TableKey → List Row := fun key =>
  match key with
  | .sessions => [idle "a1" "main", idle "a1" "main"]
  | _ => []

def noEngines : Preflight := ⟨[], false, [], ⟨[], [], []⟩⟩

/-- The rejected row aborts the transaction; the tables stay, but the import rejects instead of resolving. -/
theorem aborted_import_rejects :
    (runTransaction postgres textHost [(.sessions, idle "b2" "old")] twice noEngines =
        (.rejected "current transaction is aborted, commands ignored until end of transaction block",
          [(.sessions, idle "b2" "old")])) ∧
      ¬ AllOrNothing postgres textHost [(.sessions, idle "b2" "old")] twice noEngines := by
  have hrun : runTransaction postgres textHost [(.sessions, idle "b2" "old")] twice noEngines =
      (.rejected "current transaction is aborted, commands ignored until end of transaction block",
        [(.sessions, idle "b2" "old")]) := by
    rfl
  refine ⟨hrun, fun h => ?_⟩
  have hwarned : ∃ entry ∈ archiveFates postgres textHost [(.sessions, idle "b2" "old")] twice,
      (warningOf postgres textHost entry).isSome = true :=
    ⟨((.sessions, idle "a1" "main"), .rejected "duplicate key value violates unique constraint"),
      .tail _ (.head _), rfl⟩
  rcases (h.reported hwarned).resolves with ⟨result, hresolved, -⟩
  rw [hrun] at hresolved
  exact nomatch hresolved

end Aborted
end OpenWA.Backup
