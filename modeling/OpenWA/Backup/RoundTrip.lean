import OpenWA.Backup.InfraData

/-!
This module contains the round trip of a backup: which cell of which column comes back from the export
of a database and its import into an empty one.
-/

namespace OpenWA.Backup

open Sqlite Js

section Cells

variable (host : Host) (clock : Clock)

/-- The proxy of a session without its userinfo; a proxy that is no URL is dropped. -/
def redactedProxy (cell : Cell) : Cell :=
  match cell with
  | .text proxyUrl =>
    if proxyUrl = "" then cell
    else
      match host.parseUrl proxyUrl with
      | some parsed =>
        if parsed.username = "" ∧ parsed.password = "" then cell else .text (parsed.withUserinfo "" "")
      | none => .null
  | cell => cell

/-- A date with a time zone, in the form that TypeORM gives it on SQLite. -/
def restoredDate (cell : Cell) : Cell :=
  match cell with
  | .text s =>
    if hasZonedTime s.toList then
      match host.utcDatetime s with
      | some t => .text t
      | none => cell
    else cell
  | cell => cell

def ownershipColumns : List String := ["nodeId", "claimedAt", "leaseExpiresAt", "nodeUrl"]

def credentialColumns : List String := ["secret", "headers"]

/-- The columns of a table that may not come back as they were. -/
def changedColumns (key : TableKey) : List String :=
  sqliteDatetimeColumns key ++
    match key with
    | .sessions => "proxyUrl" :: ownershipColumns
    | .webhooks => credentialColumns
    | _ => []

/-- What a row of the archive holds in a column, before it is bound; `none` where it has no such key. -/
def archivedCell (key : TableKey) (record : Record) (column : String) : Option Cell :=
  if key = .webhooks ∧ column ∈ credentialColumns then none
  else if key = .sessions ∧ column = "proxyUrl" then some (redactedProxy host (record.get column))
  else if column ∈ sqliteDatetimeColumns key then some (restoredDate host (record.get column))
  else some (record.get column)

/-- The cell that the `INSERT` of a row leaves in a column. -/
def insertedCell (key : TableKey) (record : Record) (column : String) : Cell :=
  if key = .sessions ∧ column ∈ ownershipColumns then .null
  else
    match archivedCell host key record column with
    | some cell => cell
    | none => if column = "headers" then .text "\x7b\x7d" else .null

def insertedRow (key : TableKey) (record : Record) : Record :=
  (schema key).columns.map fun column => (column.name, insertedCell host key record column.name)

/--
The row that comes back: a webhook without its secret and headers, a session without the userinfo of
its proxy and without its owner, every date in SQLite's form, and a session that was active as a
disconnected one, updated at the time of the import. Every other cell is the one that was exported.
-/
def restoredCell (key : TableKey) (record : Record) (column : String) : Cell :=
  if key = .webhooks ∧ column = "secret" then .null
  else if key = .webhooks ∧ column = "headers" then .text "\x7b\x7d"
  else if key = .sessions ∧ column = "proxyUrl" then redactedProxy host (record.get column)
  else if key = .sessions ∧ column ∈ ownershipColumns then .null
  else if key = .sessions ∧ column = "status" ∧ isActive record then .text "disconnected"
  else if key = .sessions ∧ column = "updatedAt" ∧ isActive record then .text clock.now
  else if column ∈ sqliteDatetimeColumns key then restoredDate host (record.get column)
  else record.get column

def restoredRow (key : TableKey) (record : Record) : Record :=
  record.map fun entry => (entry.1, restoredCell host clock key record entry.1)

end Cells

section Rows

variable {host : Host}

theorem lookup_entry (name column : String) (value : Json) (rest : Row) :
    List.lookup column ((name, value) :: rest) = if column = name then some value else rest.lookup column := by
  by_cases h : column = name
  . simp [h]
  . have hbeq : (column == name) = false := by simpa using h
    simp [List.lookup_cons, h, hbeq]

theorem lookup_ofRecord {record : Record} {column : String} (h : column ∈ record.map Prod.fst) :
    (ofRecord record).lookup column = some (ofCell (record.get column)) := by
  induction record with
  | nil => simp at h
  | cons entry rest ih =>
    obtain ⟨name, cell⟩ := entry
    have hcons : ofRecord ((name, cell) :: rest) = (name, ofCell cell) :: ofRecord rest := rfl
    rw [hcons, Record.get_cons, lookup_entry]
    split
    . rfl
    . next hname =>
      apply ih
      simpa [hname] using h

theorem lookup_delete (row : Row) (key column : String) :
    (row.delete key).lookup column = if column = key then none else row.lookup column := by
  induction row with
  | nil => simp [Row.delete]
  | cons entry rest ih =>
    obtain ⟨name, value⟩ := entry
    by_cases hname : name = key
    . subst hname
      have hcons : Row.delete ((name, value) :: rest) name = Row.delete rest name := by simp [Row.delete]
      rw [hcons, ih, lookup_entry]
      split <;> rfl
    . have hcons : Row.delete ((name, value) :: rest) key = (name, value) :: Row.delete rest key := by
        simp [Row.delete, hname]
      rw [hcons, lookup_entry, lookup_entry, ih]
      by_cases hcolumn : column = name
      . subst hcolumn
        simp [hname]
      . simp [hcolumn]

theorem lookup_set (row : Row) (key : String) (value : Json) (column : String) :
    (row.set key value).lookup column =
      if column = key then (row.lookup key).map fun _ => value else row.lookup column := by
  induction row with
  | nil => simp [Row.set]
  | cons entry rest ih =>
    obtain ⟨name, old⟩ := entry
    have hcons : Row.set ((name, old) :: rest) key value =
        (if name = key then (key, value) else (name, old)) :: Row.set rest key value := rfl
    rw [hcons, lookup_entry name key, lookup_entry name column]
    by_cases hname : name = key
    . subst hname
      rw [if_pos rfl, lookup_entry, ih]
      by_cases hcolumn : column = name <;> simp [hcolumn]
    . rw [if_neg hname, lookup_entry, ih]
      by_cases hcolumn : column = name
      . subst hcolumn
        simp [hname]
      . simp [hcolumn, Ne.symm hname]

theorem lookup_map_value (row : Row) (f : String → Json → Json) (column : String) :
    List.lookup column (row.map fun entry => (entry.1, f entry.1 entry.2)) = (row.lookup column).map (f column) := by
  induction row with
  | nil => rfl
  | cons entry rest ih =>
    obtain ⟨name, value⟩ := entry
    rw [List.map_cons, lookup_entry, lookup_entry, ih]
    by_cases hcolumn : column = name <;> simp [hcolumn]

theorem toSqliteDatetime_ofCell (cell : Cell) : toSqliteDatetime host (ofCell cell) = ofCell (restoredDate host cell) := by
  cases cell with
  | null => rfl
  | number n => rfl
  | text s =>
    simp only [ofCell, toSqliteDatetime, restoredDate]
    split
    . cases host.utcDatetime s <;> rfl
    . rfl

/-- What the export makes of a single row. -/
def afterReadRow (host : Host) (key : TableKey) (row : Row) : Row :=
  match key with
  | .sessions => redactSessionProxyCredentials host row
  | .webhooks => redactWebhookCredentials row
  | .messages => stripBodyTs row
  | _ => row

theorem afterRead_eq_map (key : TableKey) (rows : List Row) :
    afterRead host key rows = rows.map (afterReadRow host key) := by
  have hid : rows = rows.map fun row => row := (List.map_id' rows).symm
  cases key <;> first | rfl | exact hid

theorem redactSession_cases (host : Host) (row : Row) :
    redactSessionProxyCredentials host row = row ∨
      ∃ value, redactSessionProxyCredentials host row = row.set "proxyUrl" value := by
  unfold redactSessionProxyCredentials
  split
  . split
    . exact .inl rfl
    . split
      . split
        . exact .inl rfl
        . exact .inr ⟨_, rfl⟩
      . exact .inr ⟨_, rfl⟩
  . exact .inl rfl

theorem lookup_redactSession {record : Record} (h : "proxyUrl" ∈ record.map Prod.fst) :
    (redactSessionProxyCredentials host (ofRecord record)).lookup "proxyUrl" =
      some (ofCell (redactedProxy host (record.get "proxyUrl"))) := by
  have hread := lookup_ofRecord h
  unfold redactSessionProxyCredentials
  cases hcell : record.get "proxyUrl" with
  | null =>
    rw [hcell] at hread
    simp [hread, ofCell, redactedProxy]
  | number n =>
    rw [hcell] at hread
    simp [hread, ofCell, redactedProxy]
  | text proxyUrl =>
    rw [hcell] at hread
    simp only [hread, ofCell, redactedProxy]
    split
    . exact hread
    . cases hparsed : host.parseUrl proxyUrl with
      | none => simp [lookup_set, hread]
      | some parsed =>
        dsimp only
        split
        . exact hread
        . simp [lookup_set, hread]

theorem lookup_redactSession_of_ne {row : Row} {column : String} (h : column ≠ "proxyUrl") :
    (redactSessionProxyCredentials host row).lookup column = row.lookup column := by
  rcases redactSession_cases host row with heq | ⟨value, heq⟩
  . rw [heq]
  . rw [heq, lookup_set, if_neg h]

theorem lookup_archived (host : Host) {key : TableKey} {record : Record} {column : String}
    (hcolumns : record.map Prod.fst = (schema key).columns.map Column.name) (h : column ∈ record.map Prod.fst) :
    (normalizeDates host key (afterReadRow host key (ofRecord record))).lookup column =
      (archivedCell host key record column).map ofCell := by
  have hread := lookup_ofRecord h
  have hdates (row : Row) : (normalizeDates host key row).lookup column = (row.lookup column).map fun value =>
      if column ∈ sqliteDatetimeColumns key then toSqliteDatetime host value else value :=
    lookup_map_value row (fun name value => if name ∈ sqliteDatetimeColumns key then toSqliteDatetime host value else value) column
  have hkept : (afterReadRow host key (ofRecord record)).lookup column = some (ofCell (record.get column)) →
      ¬(key = .webhooks ∧ column ∈ credentialColumns) → ¬(key = .sessions ∧ column = "proxyUrl") →
      (normalizeDates host key (afterReadRow host key (ofRecord record))).lookup column =
        (archivedCell host key record column).map ofCell := by
    intro hrow hwebhook hproxy
    rw [hdates, hrow]
    unfold archivedCell
    rw [if_neg hwebhook, if_neg hproxy]
    split
    . simp [toSqliteDatetime_ofCell]
    . rfl
  cases key with
  | sessions =>
    by_cases hproxy : column = "proxyUrl"
    . subst hproxy
      rw [hdates]
      simp only [afterReadRow, lookup_redactSession h]
      simp [archivedCell, sqliteDatetimeColumns]
    . apply hkept
      . exact (lookup_redactSession_of_ne hproxy).trans hread
      . simp
      . simp [hproxy]
  | webhooks =>
    by_cases hcredential : column ∈ credentialColumns
    . rw [hdates]
      have hnone : (redactWebhookCredentials (ofRecord record)).lookup column = none := by
        simp only [credentialColumns, List.mem_cons, List.not_mem_nil, or_false] at hcredential
        rcases hcredential with rfl | rfl <;> simp [redactWebhookCredentials, lookup_delete]
      simp only [afterReadRow, hnone]
      simp [archivedCell, hcredential]
    . apply hkept
      . simp only [credentialColumns, List.mem_cons, List.not_mem_nil, or_false, not_or] at hcredential
        simp only [afterReadRow, redactWebhookCredentials, lookup_delete, if_neg hcredential.1, if_neg hcredential.2]
        exact hread
      . simp [hcredential]
      . simp
  | messages =>
    apply hkept
    . have hts : column ≠ "body_ts" := by
        rintro rfl
        rw [hcolumns] at h
        exact absurd h (by decide +kernel)
      simp only [afterReadRow, stripBodyTs, lookup_delete, if_neg hts]
      exact hread
    . simp
    . simp
  | _ => exact hkept hread (by simp) (by simp)

end Rows

section Parameters

/-- The column of the archived row that a parameter reads. -/
def Param.column (param : Param) : String :=
  match param with
  | .get column | .orElse column _ | .jsonOr column _ | .jsonOrElse column _ | .jsonOrNull column => column

/-- The parameter binds every cell that the column can hold as it is. -/
def Param.faithful (param : Param) (column : Column) : Bool :=
  match param with
  | .get _ => true
  | .orElse _ fallback => column.notNull || fallback = .null
  | .jsonOr .. | .jsonOrElse .. => column.notNull && column.affinity = .text
  | .jsonOrNull _ => column.affinity = .text

variable {host : Host}

theorem bind_ofCell (cell : Cell) : bind (some (ofCell cell)) = .ok cell := by
  cases cell <;> rfl

theorem text_or_null {column : Column} {cell : Cell} (htext : column.affinity = .text)
    (hstored : column.affinity.store host.numerals cell = cell) : cell = .null ∨ ∃ s, cell = .text s := by
  cases cell with
  | null => exact .inl rfl
  | text s => exact .inr ⟨s, rfl⟩
  | number n =>
    rw [htext] at hstored
    contradiction

theorem bind_eval {param : Param} {column : Column} {row : Row} {cell : Cell} (hfaithful : param.faithful column = true)
    (hrow : row.lookup param.column = some (ofCell cell)) (hnotNull : column.notNull = true → cell ≠ .null)
    (hstored : column.affinity.store host.numerals cell = cell) : bind (param.eval host row) = .ok cell := by
  cases param with
  | get name =>
    simp only [Param.column] at hrow
    simp only [Param.eval, hrow, bind_ofCell]
  | orElse name fallback =>
    simp only [Param.column] at hrow
    simp only [Param.faithful, Bool.or_eq_true, decide_eq_true_eq] at hfaithful
    simp only [Param.eval, hrow]
    cases cell with
    | null =>
      rcases hfaithful with hrequired | hnull
      . exact absurd rfl (hnotNull hrequired)
      . simp [ofCell, nullish, hnull, bind]
    | number n => rfl
    | text s => rfl
  | jsonOr name fallback =>
    simp only [Param.column] at hrow
    simp only [Param.faithful, Bool.and_eq_true, decide_eq_true_eq] at hfaithful
    rcases text_or_null hfaithful.2 hstored with hnull | ⟨s, rfl⟩
    . exact absurd hnull (hnotNull hfaithful.1)
    . simp only [Param.eval, hrow, ofCell]
      rfl
  | jsonOrElse name fallback =>
    simp only [Param.column] at hrow
    simp only [Param.faithful, Bool.and_eq_true, decide_eq_true_eq] at hfaithful
    rcases text_or_null hfaithful.2 hstored with hnull | ⟨s, rfl⟩
    . exact absurd hnull (hnotNull hfaithful.1)
    . simp only [Param.eval, hrow, ofCell]
      rfl
  | jsonOrNull name =>
    simp only [Param.column] at hrow
    simp only [Param.faithful, decide_eq_true_eq] at hfaithful
    rcases text_or_null hfaithful hstored with rfl | ⟨s, rfl⟩ <;> simp only [Param.eval, hrow, ofCell] <;> rfl

/-- A host that no import depends on: it stands in where only the columns of an importer matter. -/
def blankHost : Host where
  numerals := ⟨fun _ => none, fun _ => ""⟩
  parse _ := none
  stringify _ := "{}"
  stringify_empty := rfl
  interpolate _ := ""
  parseUrl _ := none
  toNumber _ := none
  dateParse _ := none
  toISOString _ := none
  utcDatetime _ := none

/-- The columns that an export leaves out. -/
def isCredential (key : TableKey) (column : String) : Bool := key = .webhooks && column ∈ credentialColumns

/-- The columns that an import does not name. -/
def isOwnership (key : TableKey) (column : String) : Bool := key = .sessions && column ∈ ownershipColumns

/--
What the `INSERT` of a table has in common with the table: as many values as columns, the parameters
in the order of the columns, every column of the table named but those of the ownership, and a
parameter that keeps what the column can hold.
-/
def isAligned (key : TableKey) : Bool :=
  let importer := importer blankHost key
  importer.placeholders.length = importer.columns.length && importer.map.map Param.column = importer.columns &&
    importer.key = key &&
    (importer.columns.all fun name => name ∈ (schema key).columns.map Column.name && !isOwnership key name) &&
    ((schema key).columns.all fun column => column.name ∈ importer.columns ||
      isOwnership key column.name && column.default = .literal .null) &&
    importer.map.all fun param => isCredential key param.column ||
      (schema key).columns.any fun column => column.name = param.column && param.faithful column

theorem isAligned_all (key : TableKey) : isAligned key = true := by
  cases key <;> decide +kernel

def isUnchanged (key : TableKey) (column : String) : Bool :=
  column ∈ (schema key).columns.map Column.name && column ∉ changedColumns key

/-- The columns that are not restored as they were belong to no key and to no reference. -/
theorem unchanged_keys (key : TableKey) :
    (((schema key).unique.all fun columns => columns.all fun column => isUnchanged key column) &&
      (schema key).references.all fun reference => isUnchanged key reference.column &&
        reference.table = .sessions && reference.target = "id" && key ≠ .sessions) = true := by
  cases key <;> decide +kernel

theorem changed_columns (key : TableKey) : ((schema key).columns.all fun column =>
    (!(key = .sessions && column.name = "proxyUrl" || key = .webhooks && column.name = "headers") || column.affinity = .text) &&
      !(column.notNull && (key = .sessions && (column.name = "proxyUrl" || column.name ∈ ownershipColumns) ||
        key = .webhooks && column.name = "secret"))) = true := by
  cases key <;> decide +kernel

end Parameters

section Insert

variable {host : Host} {key : TableKey} {record : Record} {column : Column}

theorem redactedProxy_stored {affinity : Affinity} {cell : Cell} (htext : affinity = .text)
    (hstored : affinity.store host.numerals cell = cell) :
    affinity.store host.numerals (redactedProxy host cell) = redactedProxy host cell := by
  subst htext
  cases cell with
  | null => rfl
  | number n => contradiction
  | text s =>
    unfold redactedProxy
    dsimp only
    split
    . rfl
    . split
      . split <;> rfl
      . rfl

/-- Dates are texts that SQLite does not take for numbers. -/
def KeepsDates (host : Host) : Prop := ∀ s t, host.utcDatetime s = some t → host.numerals.ofText t = none

theorem restoredDate_stored (hdates : KeepsDates host) {affinity : Affinity} {cell : Cell}
    (hstored : affinity.store host.numerals cell = cell) :
    affinity.store host.numerals (restoredDate host cell) = restoredDate host cell := by
  cases cell with
  | null => exact hstored
  | number n => exact hstored
  | text s =>
    simp only [restoredDate]
    split
    . cases hdate : host.utcDatetime s with
      | none => exact hstored
      | some t =>
        cases affinity with
        | text => rfl
        | numeric => simp [Affinity.store, hdates s t hdate]
    . exact hstored

theorem restoredDate_ne_null {cell : Cell} (h : cell ≠ .null) : restoredDate host cell ≠ .null := by
  cases cell with
  | null => contradiction
  | number n => exact h
  | text s =>
    simp only [restoredDate]
    split
    . cases host.utcDatetime s <;> simp
    . exact h

/-- What a database guarantees of a row of a table. -/
structure Fits (host : Host) (key : TableKey) (record : Record) : Prop where
  columns : record.map Prod.fst = (schema key).columns.map Column.name
  stored : ∀ column ∈ (schema key).columns,
    column.affinity.store host.numerals (record.get column.name) = record.get column.name
  notNull : ∀ column ∈ (schema key).columns, column.notNull = true → record.get column.name ≠ .null

theorem insertedCell_cases (host : Host) (key : TableKey) (record : Record) (name : String) :
    isOwnership key name = true ∧ insertedCell host key record name = .null ∨
    key = .webhooks ∧ name = "secret" ∧ insertedCell host key record name = .null ∨
    key = .webhooks ∧ name = "headers" ∧ insertedCell host key record name = .text "\x7b\x7d" ∨
    key = .sessions ∧ name = "proxyUrl" ∧ insertedCell host key record name = redactedProxy host (record.get name) ∨
    name ∈ sqliteDatetimeColumns key ∧ insertedCell host key record name = restoredDate host (record.get name) ∨
    insertedCell host key record name = record.get name := by
  unfold insertedCell archivedCell
  by_cases howner : key = .sessions ∧ name ∈ ownershipColumns
  . exact .inl ⟨by simp [isOwnership, howner], if_pos howner⟩
  . rw [if_neg howner]
    by_cases hwebhook : key = .webhooks ∧ name ∈ credentialColumns
    . rw [if_pos hwebhook]
      have hname : name = "secret" ∨ name = "headers" := by simpa [credentialColumns] using hwebhook.2
      rcases hname with rfl | rfl
      . exact .inr (.inl ⟨hwebhook.1, rfl, rfl⟩)
      . exact .inr (.inr (.inl ⟨hwebhook.1, rfl, rfl⟩))
    . rw [if_neg hwebhook]
      by_cases hproxy : key = .sessions ∧ name = "proxyUrl"
      . rw [if_pos hproxy]
        exact .inr (.inr (.inr (.inl ⟨hproxy.1, hproxy.2, rfl⟩)))
      . rw [if_neg hproxy]
        by_cases hdate : name ∈ sqliteDatetimeColumns key
        . rw [if_pos hdate]
          exact .inr (.inr (.inr (.inr (.inl ⟨hdate, rfl⟩))))
        . rw [if_neg hdate]
          exact .inr (.inr (.inr (.inr (.inr rfl))))

theorem insertedCell_stored (hdates : KeepsDates host) (h : Fits host key record) (hcolumn : column ∈ (schema key).columns) :
    column.affinity.store host.numerals (insertedCell host key record column.name) =
      insertedCell host key record column.name := by
  have hnull (affinity : Affinity) : affinity.store host.numerals .null = .null := by cases affinity <;> rfl
  have htext : key = .sessions ∧ column.name = "proxyUrl" ∨ key = .webhooks ∧ column.name = "headers" →
      column.affinity = .text := by
    have hchanged := List.all_eq_true.mp (changed_columns key) column hcolumn
    simp only [Bool.and_eq_true, Bool.or_eq_true, Bool.not_eq_true', Bool.or_eq_false_iff, Bool.and_eq_false_iff,
      decide_eq_true_eq, decide_eq_false_iff_not] at hchanged
    rintro (⟨hkey, hname⟩ | ⟨hkey, hname⟩)
    . exact hchanged.1.resolve_left fun hno => hno.1.elim (fun h => h hkey) fun h => h hname
    . exact hchanged.1.resolve_left fun hno => hno.2.elim (fun h => h hkey) fun h => h hname
  rcases insertedCell_cases host key record column.name with
    ⟨-, heq⟩ | ⟨-, -, heq⟩ | ⟨hkey, hname, heq⟩ | ⟨hkey, hname, heq⟩ | ⟨-, heq⟩ | heq
  . rw [heq, hnull]
  . rw [heq, hnull]
  . rw [heq, htext (.inr ⟨hkey, hname⟩)]
    rfl
  . rw [heq]
    exact redactedProxy_stored (htext (.inl ⟨hkey, hname⟩)) (h.stored column hcolumn)
  . rw [heq]
    exact restoredDate_stored hdates (h.stored column hcolumn)
  . rw [heq]
    exact h.stored column hcolumn

theorem insertedCell_notNull (host : Host) (h : Fits host key record) (hcolumn : column ∈ (schema key).columns)
    (hnotNull : column.notNull = true) : insertedCell host key record column.name ≠ .null := by
  have hchanged := List.all_eq_true.mp (changed_columns key) column hcolumn
  simp only [Bool.and_eq_true, Bool.or_eq_true, Bool.not_eq_true', Bool.or_eq_false_iff, Bool.and_eq_false_iff,
    decide_eq_true_eq, decide_eq_false_iff_not, hnotNull] at hchanged
  obtain ⟨hsession, hsecret⟩ := hchanged.2.resolve_left (by simp)
  rcases insertedCell_cases host key record column.name with
    ⟨howner, -⟩ | ⟨hkey, hname, -⟩ | ⟨-, -, heq⟩ | ⟨hkey, hname, -⟩ | ⟨-, heq⟩ | heq
  . simp only [isOwnership, Bool.and_eq_true, decide_eq_true_eq] at howner
    exact (hsession.elim (fun h => h howner.1) fun h => h.2 howner.2).elim
  . exact (hsecret.elim (fun h => h hkey) fun h => h hname).elim
  . simp [heq]
  . exact (hsession.elim (fun h => h hkey) fun h => h.1 hname).elim
  . rw [heq]
    exact restoredDate_ne_null (h.notNull column hcolumn hnotNull)
  . rw [heq]
    exact h.notNull column hcolumn hnotNull

theorem insertedCell_of_archived {name : String} {cell : Cell} (howner : isOwnership key name = false)
    (h : archivedCell host key record name = some cell) : insertedCell host key record name = cell := by
  simp only [isOwnership, Bool.and_eq_false_iff, decide_eq_false_iff_not] at howner
  unfold insertedCell
  rw [if_neg, h]
  rintro ⟨hkey, hname⟩
  rcases howner with hne | hne
  . exact hne hkey
  . exact hne hname

theorem archivedCell_isSome (host : Host) (record : Record) {name : String} (h : isCredential key name = false) :
    ∃ cell, archivedCell host key record name = some cell := by
  simp only [isCredential, Bool.and_eq_false_iff, decide_eq_false_iff_not] at h
  unfold archivedCell
  rw [if_neg]
  . split
    . exact ⟨_, rfl⟩
    . split <;> exact ⟨_, rfl⟩
  . rintro ⟨hkey, hname⟩
    rcases h with hne | hne
    . exact hne hkey
    . exact hne hname

/-- The columns and the parameters of an importer do not depend on the host. -/
theorem importer_blank (host : Host) (key : TableKey) :
    (importer host key).key = (importer blankHost key).key ∧
      (importer host key).columns = (importer blankHost key).columns ∧
      (importer host key).placeholders = (importer blankHost key).placeholders ∧
      (importer host key).map = (importer blankHost key).map := by
  cases key <;> exact ⟨rfl, rfl, rfl, rfl⟩

/-- What `isAligned` says of an importer. -/
structure Aligned (key : TableKey) (importer : TableImporter) : Prop where
  own : importer.key = key
  placeholders : importer.placeholders.length = importer.columns.length
  map : importer.map.map Param.column = importer.columns
  known : ∀ name ∈ importer.columns,
    name ∈ (schema key).columns.map Column.name ∧ isOwnership key name = false
  named : ∀ column ∈ (schema key).columns, column.name ∈ importer.columns ∨
    isOwnership key column.name = true ∧ column.default = .literal .null
  faithful : ∀ param ∈ importer.map, isCredential key param.column = true ∨
    ∃ column ∈ (schema key).columns, column.name = param.column ∧ param.faithful column = true

theorem importer_aligned (host : Host) (key : TableKey) : Aligned key (importer host key) := by
  have haligned := isAligned_all key
  obtain ⟨hkey, hcolumns, hplaceholders, hmap⟩ := importer_blank host key
  simp only [isAligned, Bool.and_eq_true, decide_eq_true_eq, List.all_eq_true, List.any_eq_true, Bool.or_eq_true,
    Bool.not_eq_true', ← hkey, ← hcolumns, ← hplaceholders, ← hmap] at haligned
  obtain ⟨⟨⟨⟨⟨hlength, hparams⟩, hself⟩, hknown⟩, hnamed⟩, hfaithful⟩ := haligned
  exact ⟨hself, hlength, hparams, hknown, hnamed, hfaithful⟩

theorem bind_credential {param : Param} {row : Row} (hparam : param ∈ (importer host key).map)
    (hcredential : isCredential key param.column = true) (hrow : row.lookup param.column = none) :
    bind (param.eval host row) = .ok (insertedCell host key record param.column) := by
  simp only [isCredential, Bool.and_eq_true, decide_eq_true_eq] at hcredential
  obtain ⟨rfl, hname⟩ := hcredential
  have hcases : param = orNull "secret" ∨ param = .jsonOr "headers" (.object .nil) := by
    simp only [importer, List.mem_cons, List.not_mem_nil, or_false] at hparam
    rcases hparam with rfl | rfl | rfl | rfl | rfl | rfl | rfl | rfl | rfl | rfl | rfl | rfl <;>
      simp_all [Param.column, credentialColumns, orNull]
  rcases hcases with rfl | rfl
  . simp only [orNull, Param.column] at hrow
    simp only [orNull, Param.eval, hrow]
    rfl
  . simp only [Param.column] at hrow
    simp only [Param.eval, hrow, host.stringify_empty]
    rfl

/-- The row that an import makes of an exported one, before it binds it. -/
def archivedRow (host : Host) (key : TableKey) (record : Record) : Row :=
  normalizeDates host key (afterReadRow host key (ofRecord record))

theorem bind_param (hdates : KeepsDates host) (h : Fits host key record) {param : Param}
    (hparam : param ∈ (importer host key).map) :
    bind (param.eval host (archivedRow host key record)) = .ok (insertedCell host key record param.column) := by
  have haligned := importer_aligned host key
  have hnamed : param.column ∈ (importer host key).columns := haligned.map ▸ List.mem_map_of_mem hparam
  obtain ⟨hknown, howner⟩ := haligned.known _ hnamed
  have hrow := lookup_archived host h.columns (h.columns ▸ hknown)
  by_cases hcredential : isCredential key param.column = true
  . refine bind_credential hparam hcredential ?_
    simp only [isCredential, Bool.and_eq_true, decide_eq_true_eq] at hcredential
    rw [archivedRow, hrow, archivedCell, if_pos hcredential]
    rfl
  . obtain ⟨column, hcolumn, hname, hfaithful⟩ := (haligned.faithful param hparam).resolve_left hcredential
    obtain ⟨cell, hcell⟩ := archivedCell_isSome host record (Bool.not_eq_true _ ▸ hcredential)
    have hinserted := insertedCell_of_archived howner hcell
    have hstored := insertedCell_stored hdates h hcolumn
    have hnotNull := insertedCell_notNull host h hcolumn
    rw [hname, hinserted] at hstored hnotNull
    rw [hinserted]
    rw [hcell] at hrow
    exact bind_eval hfaithful hrow hnotNull hstored

theorem mapM_ok {α β : Type} {f : α → Except String β} {g : α → β} {l : List α} (h : ∀ a ∈ l, f a = .ok (g a)) :
    l.mapM f = .ok (l.map g) := by
  induction l with
  | nil => rfl
  | cons a l ih =>
    rw [List.mapM_cons, h a List.mem_cons_self, ih fun a ha => h a (List.mem_cons_of_mem _ ha)]
    rfl

theorem row_inserted (hdates : KeepsDates host) (h : Fits host key record) (now : String) :
    (schema key).row host.numerals now
        ((importer host key).columns.map fun name => (name, insertedCell host key record name)) =
      insertedRow host key record := by
  have haligned := importer_aligned host key
  unfold Schema.row insertedRow
  refine List.map_congr_left fun column hcolumn => ?_
  congr 1
  by_cases hnamed : column.name ∈ (importer host key).columns
  . rw [List.lookup_graph _ hnamed]
    exact insertedCell_stored hdates h hcolumn
  . obtain ⟨howner, hdefault⟩ := (haligned.named column hcolumn).resolve_left hnamed
    have hnone : ((importer host key).columns.map fun name =>
        (name, insertedCell host key record name)).lookup column.name = none := by
      rw [List.lookup_eq_none_iff]
      intro entry hentry
      obtain ⟨name, hname, rfl⟩ := List.mem_map.mp hentry
      rw [bne_iff_ne]
      intro heq
      exact hnamed (heq ▸ hname)
    simp only [isOwnership, Bool.and_eq_true, decide_eq_true_eq] at howner
    rw [hnone, hdefault, insertedCell, if_pos howner]
    cases column.affinity <;> rfl

theorem insertRow_archived (hdates : KeepsDates host) (h : Fits host key record) (now : String)
    {tables : Tables TableKey} (hadmits : Admits schema tables key (insertedRow host key record)) :
    insertRow host now tables (importer host key) (archivedRow host key record) =
      .ok (Function.update tables key (tables key ++ [insertedRow host key record])) := by
  have haligned := importer_aligned host key
  have hcells : ((importer host key).map.map fun param => param.eval host (archivedRow host key record)).mapM bind =
      .ok ((importer host key).columns.map (insertedCell host key record)) := by
    have hbind : ∀ param ∈ (importer host key).map,
        (OpenWA.Backup.bind ∘ fun param => param.eval host (archivedRow host key record)) param =
          .ok (insertedCell host key record param.column) :=
      fun param hparam => bind_param hdates h hparam
    rw [List.mapM_map, mapM_ok hbind, ← haligned.map, List.map_map]
    rfl
  have hinsert : insert host.numerals schema now tables key
      ((importer host key).columns.map fun name => (name, insertedCell host key record name)) =
        .ok (Function.update tables key (tables key ++ [insertedRow host key record])) := by
    rw [← row_inserted hdates h now] at hadmits ⊢
    refine insert_of_admits ?_ hadmits
    intro entry hentry
    obtain ⟨name, hname, rfl⟩ := List.mem_map.mp hentry
    exact (haligned.known name hname).1
  rw [List.map_prod_left_eq_zip] at hinsert
  unfold insertRow
  rw [hcells, haligned.own]
  simp only [Bind.bind, Except.bind, haligned.placeholders, List.length_map, ne_eq, not_true_eq_false, lt_irrefl, if_false]
  exact hinsert

theorem insertedRow_get {name : String} (h : name ∈ (schema key).columns.map Column.name) :
    (insertedRow host key record).get name = insertedCell host key record name := by
  obtain ⟨column, hcolumn, rfl⟩ := List.mem_map.mp h
  exact Record.get_map (fun column => insertedCell host key record column.name) (schema_nodup key) hcolumn

theorem insertedRow_get_unchanged {name : String} (h : isUnchanged key name = true) :
    (insertedRow host key record).get name = record.get name := by
  simp only [isUnchanged, Bool.and_eq_true, decide_eq_true_eq, changedColumns, List.mem_append, not_or] at h
  obtain ⟨hname, hdate, hrest⟩ := h
  rw [insertedRow_get hname]
  rcases insertedCell_cases host key record name with
    ⟨howner, -⟩ | ⟨rfl, rfl, -⟩ | ⟨rfl, rfl, -⟩ | ⟨rfl, rfl, -⟩ | ⟨hdates, -⟩ | heq
  . simp only [isOwnership, Bool.and_eq_true, decide_eq_true_eq] at howner
    obtain ⟨rfl, howner⟩ := howner
    exact absurd (List.mem_cons_of_mem _ howner) hrest
  . simp [credentialColumns] at hrest
  . simp [credentialColumns] at hrest
  . simp at hrest
  . exact absurd hdates hdate
  . exact heq

theorem conflicts_inserted {columns : List String} (h : columns ∈ (schema key).unique) (a b : Record) :
    conflicts columns (insertedRow host key a) (insertedRow host key b) = conflicts columns a b := by
  have hkeys := unchanged_keys key
  simp only [Bool.and_eq_true, List.all_eq_true] at hkeys
  have hsame : ∀ column ∈ columns, ∀ record, (insertedRow host key record).get column = Record.get record column :=
    fun column hcolumn _ => insertedRow_get_unchanged (hkeys.1 columns h column hcolumn)
  rw [Bool.eq_iff_iff]
  simp only [conflicts, List.all_eq_true]
  refine forall₂_congr fun column hcolumn => ?_
  rw [hsame column hcolumn a, hsame column hcolumn b]

end Insert

section Load

variable {host : Host} {clock : Clock} {database : Tables TableKey}

/-- What the import has done once it is at a row of a table. -/
structure Loaded (host : Host) (database : Tables TableKey) (tables : Tables TableKey) (key : TableKey)
    (done : List Record) : Prop where
  own : tables key = done.map (insertedRow host key)
  sessions : key ≠ .sessions → tables .sessions = (database .sessions).map (insertedRow host .sessions)

theorem fits_of_valid (hvalid : Valid host.numerals schema database) {key : TableKey} {record : Record}
    (h : record ∈ database key) : Fits host key record :=
  ⟨hvalid.columns key record h, hvalid.stored key record h, hvalid.notNull key record h⟩

theorem admits_inserted (hvalid : Valid host.numerals schema database) {key : TableKey}
    {done rest : List Record} {record : Record} (hsplit : database key = done ++ record :: rest)
    {tables : Tables TableKey} (hloaded : Loaded host database tables key done) :
    Admits schema tables key (insertedRow host key record) := by
  have hmem : record ∈ database key := by simp [hsplit]
  have hkeys := unchanged_keys key
  simp only [Bool.and_eq_true, List.all_eq_true, decide_eq_true_eq] at hkeys
  constructor
  . intro column hcolumn hnotNull
    rw [insertedRow_get (List.mem_map_of_mem hcolumn)]
    exact insertedCell_notNull host (fits_of_valid hvalid hmem) hcolumn hnotNull
  . intro columns hcolumns row hrow
    rw [hloaded.own] at hrow
    obtain ⟨earlier, hearlier, rfl⟩ := List.mem_map.mp hrow
    rw [conflicts_inserted hcolumns]
    have hpairwise := hvalid.unique key columns hcolumns
    rw [hsplit, List.pairwise_append] at hpairwise
    exact hpairwise.2.2 earlier hearlier record List.mem_cons_self
  . intro reference hreference
    obtain ⟨⟨⟨hunchanged, htable⟩, htarget⟩, hother⟩ := hkeys.2 reference hreference
    have hrefers := hvalid.references key record hmem reference hreference
    unfold refers at hrefers ⊢
    rw [insertedRow_get_unchanged hunchanged]
    rw [htable, htarget] at hrefers ⊢
    rw [hloaded.sessions (by simpa using hother), List.any_map]
    have hid (session : Record) : (insertedRow host .sessions session).get "id" = Record.get session "id" :=
      insertedRow_get_unchanged (by decide +kernel)
    simpa only [Function.comp_def, hid] using hrefers

/-- A session that the import does not skip. -/
def isSafeSession (session : Record) : Bool :=
  isSafe (some (ofCell (session.get "id"))) && isSafe (some (ofCell (session.get "name")))

theorem skip_archived (host : Host) {key : TableKey} {record : Record} (h : Fits host key record)
    (hsafe : key = .sessions → isSafeSession record = true) :
    (importer host key).skip (archivedRow host key record) = none := by
  cases key with
  | sessions =>
    have hlookup (name : String) (hname : name ∈ (schema .sessions).columns.map Column.name)
        (hplain : archivedCell host .sessions record name = some (record.get name)) :
        (archivedRow host .sessions record).lookup name = some (ofCell (record.get name)) := by
      rw [archivedRow, lookup_archived host h.columns (h.columns ▸ hname), hplain]
      rfl
    have hsafe' := hsafe rfl
    simp only [isSafeSession, Bool.and_eq_true] at hsafe'
    have hid := hlookup "id" (by decide) (by simp [archivedCell, sqliteDatetimeColumns])
    have hname := hlookup "name" (by decide) (by simp [archivedCell, sqliteDatetimeColumns])
    simp only [importer, skipSession, hid, hname, hsafe'.1, hsafe'.2, Bool.not_true, Bool.false_eq_true, if_false, if_true]
  | _ => rfl

theorem importRow_archived (hdates : KeepsDates host) (hvalid : Valid host.numerals schema database)
    (hsafe : ∀ session ∈ database .sessions, isSafeSession session = true) {key : TableKey} {done rest : List Record}
    {record : Record} (hsplit : database key = done ++ record :: rest) {state : ImportState}
    (hloaded : Loaded host database state.tables key done) :
    importRow host clock key state (afterReadRow host key (ofRecord record)) =
      { state with
        tables := Function.update state.tables key ((done ++ [record]).map (insertedRow host key))
        counts := Function.update state.counts key (state.counts key + 1) } := by
  have hmem : record ∈ database key := by simp [hsplit]
  have hfits := fits_of_valid hvalid hmem
  have hskip := skip_archived host hfits (by rintro rfl; exact hsafe record hmem)
  have hinsert := insertRow_archived hdates hfits clock.now (admits_inserted hvalid hsplit hloaded)
  unfold archivedRow at hskip hinsert
  simp only [importRow, hskip, hinsert, hloaded.own, List.map_append, List.map_cons, List.map_nil]

theorem foldl_importRow (hdates : KeepsDates host) (hvalid : Valid host.numerals schema database)
    (hsafe : ∀ session ∈ database .sessions, isSafeSession session = true) {key : TableKey}
    (done records : List Record) (hsplit : database key = done ++ records) (state : ImportState)
    (hloaded : Loaded host database state.tables key done) :
    (records.map fun record => afterReadRow host key (ofRecord record)).foldl (importRow host clock key) state =
      { state with
        tables := Function.update state.tables key ((database key).map (insertedRow host key))
        counts := Function.update state.counts key (state.counts key + records.length) } := by
  induction records generalizing done state with
  | nil =>
    rw [List.append_nil] at hsplit
    rw [hsplit, ← hloaded.own]
    simp
  | cons record rest ih =>
    rw [List.map_cons, List.foldl_cons, importRow_archived hdates hvalid hsafe hsplit hloaded]
    rw [ih (done ++ [record]) (by simpa using hsplit)]
    . simp only [Function.update_idem, Function.update_self, List.length_cons]
      congr 2
      omega
    . refine ⟨by simp, fun hother => ?_⟩
      exact (Function.update_of_ne (Ne.symm hother) _ _).trans (hloaded.sessions hother)

/-- The rows of an archive as the export left them. -/
def archiveOf (host : Host) (database : Tables TableKey) (key : TableKey) : List Row :=
  (database key).map fun record => afterReadRow host key (ofRecord record)

theorem foldl_importTables (hdates : KeepsDates host) (hvalid : Valid host.numerals schema database)
    (hsafe : ∀ session ∈ database .sessions, isSafeSession session = true) (keys : List TableKey) (hnodup : keys.Nodup)
    (hothers : .sessions ∉ keys) (state : ImportState) (hempty : ∀ key ∈ keys, state.tables key = [])
    (hsessions : state.tables .sessions = (database .sessions).map (insertedRow host .sessions)) :
    keys.foldl (fun state key => (archiveOf host database key).foldl (importRow host clock key) state) state =
      { state with
        tables := fun key => if key ∈ keys then (database key).map (insertedRow host key) else state.tables key
        counts := fun key => if key ∈ keys then state.counts key + (database key).length else state.counts key } := by
  induction keys generalizing state with
  | nil => simp
  | cons key keys ih =>
    rw [List.nodup_cons] at hnodup
    simp only [List.mem_cons, not_or] at hothers
    have hloaded : Loaded host database state.tables key [] := ⟨hempty key List.mem_cons_self, fun _ => hsessions⟩
    rw [List.foldl_cons, archiveOf, foldl_importRow hdates hvalid hsafe [] _ rfl state hloaded]
    rw [ih hnodup.2 hothers.2]
    . congr 1
      . funext other
        by_cases heq : other = key
        . subst heq
          simp [hnodup.1]
        . simp [heq]
      . funext other
        by_cases heq : other = key
        . subst heq
          simp [hnodup.1]
        . simp [heq]
    . intro other hother
      have hne : other ≠ key := fun heq => hnodup.1 (heq ▸ hother)
      exact (Function.update_of_ne hne _ _).trans (hempty other (List.mem_cons_of_mem _ hother))
    . exact (Function.update_of_ne hothers.1 _ _).trans hsessions

theorem importTables_archive (hdates : KeepsDates host) (hvalid : Valid host.numerals schema database)
    (hsafe : ∀ session ∈ database .sessions, isSafeSession session = true) :
    importTables host clock (archiveOf host database) ⟨fun _ => [], fun _ => 0, []⟩ =
      ⟨fun key => (database key).map (insertedRow host key), fun key => (database key).length, []⟩ := by
  have hall : TableKey.all = .sessions :: TableKey.all.tail := rfl
  have hnodup := TableKey.nodup_all
  rw [hall, List.nodup_cons] at hnodup
  have hmem (key : TableKey) : key ∈ TableKey.all.tail ↔ key ≠ .sessions := by cases key <;> decide
  unfold importTables
  rw [hall, List.foldl_cons, archiveOf,
    foldl_importRow hdates hvalid hsafe [] _ rfl _ ⟨rfl, fun hother => absurd rfl hother⟩,
    foldl_importTables hdates hvalid hsafe _ hnodup.2 hnodup.1]
  . congr 1
    . funext key
      by_cases hkey : key = .sessions
      . subst hkey
        simp [hmem]
      . simp [hmem, hkey]
    . funext key
      by_cases hkey : key = .sessions
      . subst hkey
        simp [hmem]
      . simp [hmem, hkey]
  . intro key hkey
    exact Function.update_of_ne ((hmem key).mp hkey) _ _
  . simp

end Load

section Restored

variable {host : Host} {clock : Clock}

theorem restoredRow_eq {key : TableKey} {record : Record} (h : Fits host key record) :
    restoredRow host clock key record = (schema key).columns.map fun column =>
      (column.name, restoredCell host clock key record column.name) := by
  have hnames : restoredRow host clock key record =
      (record.map Prod.fst).map fun name => (name, restoredCell host clock key record name) := by
    rw [List.map_map]
    rfl
  rw [hnames, h.columns, List.map_map]
  rfl

theorem archivedCell_of_plain {key : TableKey} {column : String} (record : Record)
    (hcredential : ¬(key = .webhooks ∧ column ∈ credentialColumns)) (hproxy : ¬(key = .sessions ∧ column = "proxyUrl")) :
    archivedCell host key record column = some
      (if column ∈ sqliteDatetimeColumns key then restoredDate host (record.get column) else record.get column) := by
  unfold archivedCell
  rw [if_neg hcredential, if_neg hproxy]
  split <;> rfl

theorem insertedCell_eq_restored {key : TableKey} (record : Record) (column : String)
    (hidle : key = .sessions → isActive record = true → column ≠ "status" ∧ column ≠ "updatedAt") :
    insertedCell host key record column = restoredCell host clock key record column := by
  cases key with
  | sessions =>
    by_cases hproxy : column = "proxyUrl"
    . subst hproxy
      simp [insertedCell, restoredCell, archivedCell, ownershipColumns]
    . by_cases howner : column ∈ ownershipColumns
      . simp [insertedCell, restoredCell, hproxy, howner]
      . have hstatus : ¬(column = "status" ∧ isActive record = true) := fun h => (hidle rfl h.2).1 h.1
        have hupdated : ¬(column = "updatedAt" ∧ isActive record = true) := fun h => (hidle rfl h.2).2 h.1
        simp [insertedCell, restoredCell, archivedCell_of_plain, hproxy, howner, hstatus, hupdated]
  | webhooks =>
    by_cases hsecret : column = "secret"
    . simp [insertedCell, restoredCell, archivedCell, credentialColumns, hsecret]
    . by_cases hheaders : column = "headers"
      . simp [insertedCell, restoredCell, archivedCell, credentialColumns, hheaders]
      . have hcredential : column ∉ credentialColumns := by simp [credentialColumns, hsecret, hheaders]
        simp [insertedCell, restoredCell, archivedCell_of_plain, hcredential, hsecret, hheaders]
  | _ => simp [insertedCell, restoredCell, archivedCell_of_plain]

theorem normalizeSession_inserted (nodeId : String) {record : Record} (h : Fits host .sessions record) :
    normalizeSession clock nodeId (insertedRow host .sessions record) = restoredRow host clock .sessions record := by
  have hstatus : isActive (insertedRow host .sessions record) = isActive record := by
    unfold isActive
    rw [insertedRow_get_unchanged (by decide +kernel)]
  have howner : isClaimable clock nodeId (insertedRow host .sessions record) = true := by
    unfold isClaimable
    rw [insertedRow_get (by decide)]
    simp [insertedCell, ownershipColumns]
  unfold normalizeSession
  rw [howner, hstatus, restoredRow_eq h, insertedRow]
  simp only [Bool.true_and]
  split
  . next hactive =>
    rw [Record.set_map, Record.set_map _ fun name => if name = "status" then .text "disconnected" else insertedCell host .sessions record name]
    refine List.map_congr_left fun column _ => ?_
    congr 1
    by_cases hupdated : column.name = "updatedAt"
    . simp [hupdated, restoredCell, hactive, ownershipColumns]
    . by_cases hstatus : column.name = "status"
      . simp [hstatus, restoredCell, hactive, ownershipColumns]
      . rw [if_neg hupdated, if_neg hstatus]
        exact insertedCell_eq_restored record column.name fun _ _ => ⟨hstatus, hupdated⟩
  . next hidle =>
    refine List.map_congr_left fun column _ => ?_
    congr 1
    exact insertedCell_eq_restored record column.name fun _ hactive => absurd hactive hidle

/-- A server whose database is migrated and empty. -/
structure Fresh (gateway : Gateway) : Prop where
  tables : gateway.tables = fun _ => []
  activeSessionIds : gateway.activeSessionIds = []
  importInFlight : gateway.importInFlight = false
  isTransactionActive : gateway.isTransactionActive = false

variable {database : Tables TableKey}

theorem importData_archive (clock : Clock) (stopOrphanEngines : List String → StoppedEngines) (hdates : KeepsDates host)
    (hvalid : Valid host.numerals schema database)
    (hsafe : ∀ session ∈ database .sessions, isSafeSession session = true) (hrows : ∃ key, database key ≠ [])
    {gateway : Gateway} (hfresh : Fresh gateway) (force stopOrphans : Bool) :
    ∃ result, importData host clock stopOrphanEngines gateway ⟨archiveOf host database, force, stopOrphans⟩ =
        .ok (result, fun key => (database key).map (restoredRow host clock key)) ∧
      result.imported = true := by
  have hpreflight : preflight host clock stopOrphanEngines gateway ⟨archiveOf host database, force, stopOrphans⟩ =
      .ok ⟨[], false, [], ⟨[], [], []⟩⟩ := by
    simp [preflight, heldByOtherNodes, hfresh.tables, hfresh.activeSessionIds]
  have hclear : clearTables gateway.tables = fun _ => [] := by
    funext key
    rw [hfresh.tables]
    cases key <;> rfl
  have hpreserved : readSessionOwnership gateway.tables = [] := by simp [readSessionOwnership, hfresh.tables]
  have hcounts : (TableKey.all.map fun key => (database key).length).sum ≠ 0 := by
    obtain ⟨key, hkey⟩ := hrows
    intro hzero
    rw [List.sum_eq_zero_iff_forall_eq_nat] at hzero
    exact hkey (List.length_eq_zero_iff.mp (hzero _ (List.mem_map_of_mem key.mem_all)))
  have htables : Function.update (fun key => (database key).map (insertedRow host key)) .sessions
      (((database .sessions).map (insertedRow host .sessions)).map (normalizeSession clock gateway.nodeId)) =
        fun key => (database key).map (restoredRow host clock key) := by
    funext key
    by_cases hkey : key = .sessions
    . subst hkey
      rw [Function.update_self, List.map_map]
      refine List.map_congr_left fun record hrecord => ?_
      exact normalizeSession_inserted gateway.nodeId (fits_of_valid hvalid hrecord)
    . rw [Function.update_of_ne hkey]
      refine List.map_congr_left fun record hrecord => ?_
      rw [restoredRow_eq (fits_of_valid hvalid hrecord)]
      refine List.map_congr_left fun column _ => ?_
      congr 1
      exact insertedCell_eq_restored record column.name fun heq => absurd heq hkey
  unfold importData
  rw [hfresh.importInFlight, hfresh.isTransactionActive, hpreflight]
  simp only [replaceTables, hclear, hpreserved, importTables_archive hdates hvalid hsafe, restoreSessionOwnership,
    List.foldl_nil, ne_eq, not_true_eq_false, hcounts, if_false, Bool.false_eq_true, htables]
  exact ⟨_, rfl, rfl⟩

/-- The rows of a database; a table that is yet to be created has none. -/
def contents (source : Source) : Tables TableKey := fun key => (source key).getD []

/-- A database that can be restored into an empty one. -/
structure Restorable (host : Host) (budget : Nat) (source : Source) : Prop where
  present : ∀ key, optional key = false → source key ≠ none
  valid : Valid host.numerals schema (contents source)
  media : (TableKey.all.map (tableBytes host source)).sum ≤ budget
  safe : ∀ session ∈ contents source .sessions, isSafeSession session = true

theorem exportData_restorable {budget : Nat} {source : Source} (hsource : Restorable host budget source) :
    ∃ archive, exportData host budget source = .ok archive ∧ archive.tables = archiveOf host (contents source) := by
  obtain ⟨archive, harchive, htables⟩ := exportData_of_fits hsource.present hsource.media
  refine ⟨archive, harchive, ?_⟩
  funext key
  rw [htables key, readRows, afterRead_eq_map, List.map_map]
  rfl

end Restored

section Backups

/-- The proxy without its userinfo, and nothing else changed. -/
def withoutUserinfo (host : Host) (cell : Cell) : Cell :=
  match cell with
  | .text proxyUrl =>
    match host.parseUrl proxyUrl with
    | some parsed =>
      if parsed.username = "" ∧ parsed.password = "" then cell else .text (parsed.withUserinfo "" "")
    | none => cell
  | cell => cell

/-- A cell that only the redactions, the ownership and an active status may change. -/
def redactedCell (host : Host) (key : TableKey) (record : Record) (column : String) : Cell :=
  if key = .webhooks ∧ column = "secret" then .null
  else if key = .webhooks ∧ column = "headers" then .text "{}"
  else if key = .sessions ∧ column = "proxyUrl" then withoutUserinfo host (record.get column)
  else if key = .sessions ∧ column ∈ ownershipColumns then .null
  else if key = .sessions ∧ column = "status" ∧ isActive record then .text "disconnected"
  else record.get column

def redactedRow (host : Host) (key : TableKey) (record : Record) : Record :=
  record.map fun entry => (entry.1, redactedCell host key record entry.1)

/-- The import is committed and leaves the tables as they were, the redactions aside. -/
def ComesBack (host : Host) (clock : Clock) (budget : Nat) (source : Source) (gateway : Gateway) : Prop :=
  ∃ archive result, exportData host budget source = .ok archive ∧
    importData host clock (fun _ => ⟨[], [], []⟩) gateway ⟨archive.tables, false, false⟩ =
      .ok (result, fun key => (contents source key).map (redactedRow host key)) ∧
    result.imported = true

/-- A host for which nothing but the texts below is a URL or a date. -/
def sampleHost : Host :=
  { blankHost with
    stringify_empty := rfl
    utcDatetime := fun s => if s = "2026-01-02T03:04:05.000Z" then some "2026-01-02 03:04:05.000" else none }

def sampleClock : Clock := ⟨"2026-02-01 00:00:00", "2026-02-01 00:00:00", 0, 0⟩

/-- A server that was just set up. -/
def freshGateway : Gateway := ⟨fun _ => [], "node-1", [], false, false⟩

/-- A session that was running, behind a proxy that is no URL, restored once from another server. -/
def runningSession : Record :=
  [("id", .text "a1"), ("name", .text "main"), ("status", .text "ready"), ("phone", .null), ("pushName", .null),
    ("config", .text "{}"), ("proxyUrl", .text "no url"), ("proxyType", .null), ("connectedAt", .null),
    ("lastActiveAt", .null), ("createdAt", .text "2026-01-02T03:04:05.000Z"),
    ("updatedAt", .text "2026-01-02 03:04:05"), ("nodeId", .null), ("claimedAt", .null), ("leaseExpiresAt", .null),
    ("nodeUrl", .null)]

def sessionsOnly (sessions : List Record) : Source := fun key => some (if key = .sessions then sessions else [])

theorem restorable_of_sessions {host : Host} {sessions : List Record} (hlength : sessions.length ≤ 1)
    (hfits : ∀ session ∈ sessions, Fits host .sessions session)
    (hsafe : ∀ session ∈ sessions, isSafeSession session = true) : Restorable host 0 (sessionsOnly sessions) := by
  have hmem {key : TableKey} {record : Record} (h : record ∈ contents (sessionsOnly sessions) key) :
      key = .sessions ∧ record ∈ sessions := by
    cases key <;> simp_all [contents, sessionsOnly]
  have hrow {key : TableKey} {record : Record} (h : record ∈ contents (sessionsOnly sessions) key) :
      Fits host key record := by
    obtain ⟨rfl, hsession⟩ := hmem h
    exact hfits record hsession
  refine ⟨fun key _ => by simp [sessionsOnly], ?_, ?_, fun session h => hsafe session (hmem h).2⟩
  . refine ⟨fun key record h => (hrow h).columns, fun key record h => (hrow h).stored,
      fun key record h => (hrow h).notNull, ?_, ?_⟩
    . intro key columns _
      match sessions, hlength with
      | [], _ => simp [contents, sessionsOnly]
      | [session], _ =>
        unfold contents sessionsOnly
        by_cases hkey : key = .sessions <;> simp [hkey]
    . intro key record h reference hreference
      obtain ⟨rfl, -⟩ := hmem h
      simp [schema] at hreference
  . have hbytes : ∀ key, tableBytes host (sessionsOnly sessions) key = 0 := by
      intro key
      have hzero (rows : List Row) : (rows.map fun _ => 0).sum = 0 := by simp
      cases key <;> first | exact hzero _ | rfl
    rw [show tableBytes host (sessionsOnly sessions) = fun _ => 0 from funext hbytes]
    simp

theorem runningSession_restorable : Restorable sampleHost 0 (sessionsOnly [runningSession]) := by
  refine restorable_of_sessions (by simp) ?_ ?_
  . intro session h
    rw [List.mem_singleton.mp h]
    constructor <;> decide +kernel
  . intro session h
    rw [List.mem_singleton.mp h]
    decide +kernel

theorem keepsDates_sample : KeepsDates sampleHost := fun _ _ _ => rfl

theorem freshGateway_fresh : Fresh freshGateway := ⟨rfl, rfl, rfl, rfl⟩

/-- A backup comes back row for row, each cell as `restoredCell` says. -/
theorem importData_exportData (host : Host) (clock : Clock) (stopOrphanEngines : List String → StoppedEngines)
    (budget : Nat) (source : Source) (gateway : Gateway) (force stopOrphans : Bool) (hdates : KeepsDates host)
    (hsource : Restorable host budget source) (hrows : ∃ key, contents source key ≠ []) (hfresh : Fresh gateway) :
    ∃ archive result, exportData host budget source = .ok archive ∧
      importData host clock stopOrphanEngines gateway ⟨archive.tables, force, stopOrphans⟩ =
        .ok (result, fun key => (contents source key).map (restoredRow host clock key)) ∧
      result.imported = true := by
  obtain ⟨archive, harchive, hread⟩ := exportData_restorable hsource
  obtain ⟨result, himport, himported⟩ :=
    importData_archive clock stopOrphanEngines hdates hsource.valid hsource.safe hrows hfresh force stopOrphans
  rw [← hread] at himport
  exact ⟨archive, result, harchive, himport, himported⟩

/-- A running session behind a proxy that is no URL is restored. -/
theorem importData_exportData_runningSession :
    ∃ archive result, exportData sampleHost 0 (sessionsOnly [runningSession]) = .ok archive ∧
      importData sampleHost sampleClock (fun _ => ⟨[], [], []⟩) freshGateway ⟨archive.tables, false, false⟩ =
        .ok (result, fun key => (contents (sessionsOnly [runningSession]) key).map (restoredRow sampleHost sampleClock key)) ∧
      result.imported = true :=
  importData_exportData sampleHost sampleClock (fun _ => ⟨[], [], []⟩) 0 (sessionsOnly [runningSession]) freshGateway
    false false keepsDates_sample runningSession_restorable ⟨.sessions, by simp [contents, sessionsOnly]⟩
    freshGateway_fresh

/--
The empty backup is refused, and a session that was active comes back with another `updatedAt`, without a
proxy that is no URL, and with its dates in SQLite's form.
-/
theorem not_every_backup_comes_back :
    (Restorable sampleHost 0 (sessionsOnly []) ∧
      ¬ ComesBack sampleHost sampleClock 0 (sessionsOnly []) freshGateway) ∧
    Restorable sampleHost 0 (sessionsOnly [runningSession]) ∧
      ¬ ComesBack sampleHost sampleClock 0 (sessionsOnly [runningSession]) freshGateway ∧
      (restoredRow sampleHost sampleClock .sessions runningSession).get "updatedAt" = .text "2026-02-01 00:00:00" ∧
      (restoredRow sampleHost sampleClock .sessions runningSession).get "proxyUrl" = .null ∧
      (restoredRow sampleHost sampleClock .sessions runningSession).get "createdAt" =
        .text "2026-01-02 03:04:05.000" := by
  have hempty : Restorable sampleHost 0 (sessionsOnly []) :=
    restorable_of_sessions (by simp) (by simp) (by simp)
  refine ⟨⟨hempty, ?_⟩, runningSession_restorable, ?_, by decide +kernel, by decide +kernel, by decide +kernel⟩
  . rintro ⟨archive, result, hexport, himport, himported⟩
    obtain ⟨archive', hexport', hread⟩ := exportData_restorable hempty
    have hsame : archive = archive' := by simpa using hexport.symm.trans hexport'
    have hrows : archive.tables = fun _ => [] := by
      rw [hsame, hread]
      funext key
      cases key <;> rfl
    rw [hrows] at himport
    have hrefused : (importData sampleHost sampleClock (fun _ => ⟨[], [], []⟩) freshGateway
        ⟨fun _ => [], false, false⟩).map (fun answer => answer.1.imported) = .ok false := by
      rfl
    rw [himport] at hrefused
    simp [Except.map, himported] at hrefused
  . rintro ⟨archive, result, hexport, himport, -⟩
    obtain ⟨archive', hexport', hread⟩ := exportData_restorable runningSession_restorable
    have hsame : archive = archive' := by simpa using hexport.symm.trans hexport'
    obtain ⟨result', himport', -⟩ := importData_archive sampleClock (fun _ => ⟨[], [], []⟩) keepsDates_sample
      runningSession_restorable.valid runningSession_restorable.safe ⟨.sessions, by simp [contents, sessionsOnly]⟩
      freshGateway_fresh false false
    rw [hsame, hread, himport'] at himport
    have hsessions : [restoredRow sampleHost sampleClock .sessions runningSession] =
        [redactedRow sampleHost .sessions runningSession] :=
      congrFun (congrArg Prod.snd (Except.ok.inj himport)) .sessions
    exact absurd hsessions (by decide +kernel)

end Backups
end OpenWA.Backup
