import OpenWA.Backup.Tables
import OpenWA.Js.Encoding
import OpenWA.Js.Json
import Mathlib.Algebra.BigOperators.Group.List.Basic
import Mathlib.Data.List.Sort
import Mathlib.Algebra.Order.Ring.Rat

/-!
This module contains the export: what it keeps out of the sessions and webhooks it reads, the budget
it spends on inline media, and that a database whose media fits is exported whole.
-/

namespace OpenWA.Backup

open Sqlite Js

/-- A parsed URL, as far as its userinfo matters. -/
structure Url where
  username : String
  password : String
  /-- How the URL reads with the given userinfo. -/
  withUserinfo : String → String → String

/-- What the language and TypeORM do to texts. -/
structure Host where
  numerals : Numerals
  /-- `JSON.parse` -/
  parse : String → Option Json
  /-- `JSON.stringify` -/
  stringify : Json → String
  stringify_empty : stringify (.object .nil) = "\x7b\x7d"
  /-- What a template string makes of a value. -/
  interpolate : Option Json → String
  /-- `new URL` -/
  parseUrl : String → Option Url
  /-- `Number(value)`, where that is finite. -/
  toNumber : Option Json → Option Rat
  /-- `Date.parse(value)`, where that is finite. -/
  dateParse : Option Json → Option Rat
  /-- `date.toISOString()`, where the date can be written so. -/
  toISOString : Rat → Option String
  /-- `DateUtils.mixedDateToUtcDatetimeString(new Date(value))`, where the date is valid. -/
  utcDatetime : String → Option String

/-- A row of the archive: an object with the columns as its keys. -/
abbrev Row := List (String × Json)

def Row.set (row : Row) (key : String) (value : Json) : Row :=
  row.map fun entry => if entry.1 = key then (key, value) else entry

/-- `delete row[key]` -/
def Row.delete (row : Row) (key : String) : Row :=
  row.filter fun entry => entry.1 ≠ key

def ofCell (cell : Cell) : Json :=
  match cell with
  | .null => .null
  | .number n => .number n
  | .text s => .string s

/-- A row as `SELECT *` reads it. -/
def ofRecord (record : Record) : Row :=
  record.map fun entry => (entry.1, ofCell entry.2)

section AfterRead

variable (host : Host)

def redactWebhookCredentials (row : Row) : Row := (row.delete "secret").delete "headers"

def redactSessionProxyCredentials (row : Row) : Row :=
  match row.lookup "proxyUrl" with
  | some (.string proxyUrl) =>
    if proxyUrl = "" then row
    else
      match host.parseUrl proxyUrl with
      | some parsed =>
        if parsed.username = "" ∧ parsed.password = "" then row
        else row.set "proxyUrl" (.string (parsed.withUserinfo "" ""))
      | none => row.set "proxyUrl" .null
  | _ => row

def stripBodyTs (row : Row) : Row := row.delete "body_ts"

def afterRead (key : TableKey) (rows : List Row) : List Row :=
  match key with
  | .sessions => rows.map (redactSessionProxyCredentials host)
  | .webhooks => rows.map redactWebhookCredentials
  | .messages => rows.map stripBodyTs
  | _ => rows

end AfterRead

structure InlineMediaBudget where
  budget : Nat
  spent : Nat
  dropped : Nat

def InlineMediaBudget.exceeds (state : InlineMediaBudget) (encodedBytes : Nat) :
    Bool × InlineMediaBudget :=
  if state.spent + encodedBytes > state.budget then
    (true, { state with dropped := state.dropped + 1 })
  else
    (false, { state with spent := state.spent + encodedBytes })

def InlineMediaBudget.spend (state : InlineMediaBudget) (encodedBytes : Nat) : InlineMediaBudget :=
  { state with spent := state.spent + encodedBytes }

section InlineMedia

/-- A URL in place of the bytes, which costs next to nothing and is never dropped. -/
def isMediaPointer (data : String) : Bool :=
  let lower := data.toList.map Char.toLower
  "http://".toList.isPrefixOf lower || "https://".toList.isPrefixOf lower

/-- `Buffer.byteLength(data, 'base64')` -/
def base64ByteLength (data : String) : Nat :=
  let units := toUtf16 data.toList
  let bytes := if units.getLast? = some 0x3d then units.length - 1 else units.length
  let bytes := if 1 < bytes ∧ units.dropLast.getLast? = some 0x3d then bytes - 1 else bytes
  bytes * 3 / 4

/-- The `media` of a message's metadata, and its payload if it carries one inline. -/
def inlinePayload (bag : Json) : Option (Fields × String) :=
  match bag.get? "media" with
  | some (.object media) =>
    match media.get? "data" with
    | some (.string data) => if isMediaPointer data then none else some (media, data)
    | _ => none
  | _ => none

def omitPayload (media : Fields) (data : String) : Fields :=
  let size :=
    match media.get? "sizeBytes" with
    | none | some .null => .number (base64ByteLength data)
    | some size => size
  ((media.erase "data").set "omitted" (.bool true)).set "sizeBytes" size

variable (host : Host)

def stripInlineMediaPayload (row : Row) (state : InlineMediaBudget) : Row × InlineMediaBudget :=
  match row.lookup "metadata" with
  | some (.string raw) =>
    match host.parse raw with
    | some (.object bag) =>
      match inlinePayload (.object bag) with
      | some (media, data) =>
        match state.exceeds data.utf8ByteSize with
        | (true, state) =>
          (row.set "metadata"
            (.string (host.stringify (.object (bag.set "media" (.object (omitPayload media data)))))),
            state)
        | (false, state) => (row, state)
      | none => (row, state)
    | _ => (row, state)
  | _ => (row, state)

def mediaKinds : List String := ["image", "video", "audio", "document"]

/-- The payload under one of the media kinds of a batch entry's content. -/
def contentPayload (content : Fields) (kind : String) : Option (Fields × String) :=
  match content.get? kind with
  | some (.object media) =>
    match media.get? "base64" with
    | some (.string base64) => some (media, base64)
    | _ => none
  | _ => none

/-- The content as it is left, whether anything was stripped, and the budget. -/
abbrev Stripping (α : Type) := α × Bool × InlineMediaBudget

def stripKind (stripping : Stripping Fields) (kind : String) : Stripping Fields :=
  let (content, stripped, state) := stripping
  match contentPayload content kind with
  | some (media, base64) =>
    match state.exceeds base64.utf8ByteSize with
    | (true, state) => (content.set kind (.object (media.erase "base64")), true, state)
    | (false, state) => (content, stripped, state)
  | none => (content, stripped, state)

def stripEntry (entry : Json) (stripped : Bool) (state : InlineMediaBudget) : Stripping Json :=
  match entry with
  | .object fields =>
    match fields.get? "content" with
    | some (.object content) =>
      let (content, stripped, state) := mediaKinds.foldl stripKind (content, stripped, state)
      (.object (fields.set "content" (.object content)), stripped, state)
    | _ => (entry, stripped, state)
  | _ => (entry, stripped, state)

def stripEntries (entries : Items) (stripped : Bool) (state : InlineMediaBudget) :
    Stripping Items :=
  match entries with
  | .nil => (.nil, stripped, state)
  | .cons entry rest =>
    let (entry, stripped, state) := stripEntry entry stripped state
    let (rest, stripped, state) := stripEntries rest stripped state
    (.cons entry rest, stripped, state)

def stripBatchInlineMedia (row : Row) (state : InlineMediaBudget) : Row × InlineMediaBudget :=
  match row.lookup "messages" with
  | some (.string raw) =>
    match host.parse raw with
    | some (.array entries) =>
      match stripEntries entries false state with
      | (entries, true, state) => (row.set "messages" (.string (host.stringify (.array entries))), state)
      | (_, false, state) => (row, state)
    | _ => (row, state)
  | _ => (row, state)

/-- The rows by their place, the newest first. -/
def newestFirst (rows : List Row) (time : Row → Option Rat) : List (Row × Nat) :=
  rows.zipIdx.mergeSort fun a b => (time b.1).getD 0 ≤ (time a.1).getD 0

def spendNewestFirst (time : Row → Option Rat)
    (strip : Row → InlineMediaBudget → Row × InlineMediaBudget) (rows : List Row)
    (state : InlineMediaBudget) : List Row × InlineMediaBudget :=
  (newestFirst rows time).foldl
    (fun (rows, state) (row, i) =>
      let (row, state) := strip row state
      (rows.set i row, state))
    (rows, state)

/-- What an export makes of the rows it read from a table. -/
def exportRows (key : TableKey) (rows : List Row) (state : InlineMediaBudget) :
    List Row × InlineMediaBudget :=
  let rows := afterRead host key rows
  match key with
  | .messages =>
    spendNewestFirst (fun row => host.toNumber (row.lookup "timestamp"))
      (stripInlineMediaPayload host) rows state
  | .messageBatches =>
    spendNewestFirst (fun row => host.dateParse (row.lookup "created_at"))
      (stripBatchInlineMedia host) rows state
  | _ => (rows, state)

end InlineMedia

structure Export where
  tables : TableKey → List Row
  counts : TableKey → Nat
  skippedTables : List String
  omittedInlineMedia : TableKey → Nat

/-- The tables of a database; `none` is a table that a migration has yet to create. -/
abbrev Source := TableKey → Option (List Record)

def optional (key : TableKey) : Bool :=
  match key with
  | .sessions | .webhooks => false
  | _ => true

section Export

variable (host : Host)

def exportTable (source : Source) (state : Export × InlineMediaBudget) (key : TableKey) :
    Except String (Export × InlineMediaBudget) :=
  let (result, budget) := state
  match source key, optional key with
  | none, false => .error ("no such table: " ++ (schema key).name)
  | none, true =>
    .ok ({ result with
      tables := Function.update result.tables key []
      skippedTables := result.skippedTables ++ [(schema key).name] }, budget)
  | some records, _ =>
    let (rows, budget') := exportRows host key (records.map ofRecord) budget
    .ok ({ result with
      tables := Function.update result.tables key rows
      counts := Function.update result.counts key rows.length
      omittedInlineMedia :=
        Function.update result.omittedInlineMedia key (budget'.dropped - budget.dropped) }, budget')

def exportData (budget : Nat) (source : Source) : Except String Export :=
  (TableKey.all.foldlM (exportTable host source)
    (⟨fun _ => [], fun _ => 0, [], fun _ => 0⟩, ⟨budget, 0, 0⟩)).map Prod.fst

end Export

/-! ### A database whose media fits -/

section Fits

variable (host : Host)

/-- What the budget is charged for a message. -/
def messageBytes (row : Row) : Nat :=
  match row.lookup "metadata" with
  | some (.string raw) =>
    match host.parse raw with
    | some (.object bag) =>
      match inlinePayload (.object bag) with
      | some (_, data) => data.utf8ByteSize
      | none => 0
    | _ => 0
  | _ => 0

def kindBytes (content : Fields) (kind : String) : Nat :=
  match contentPayload content kind with
  | some (_, base64) => base64.utf8ByteSize
  | none => 0

def entryBytes (entry : Json) : Nat :=
  match entry with
  | .object fields =>
    match fields.get? "content" with
    | some (.object content) => (mediaKinds.map (kindBytes content)).sum
    | _ => 0
  | _ => 0

/-- What the budget is charged for a batch. -/
def batchBytes (row : Row) : Nat :=
  match row.lookup "messages" with
  | some (.string raw) =>
    match host.parse raw with
    | some (.array entries) => (entries.toList.map entryBytes).sum
    | _ => 0
  | _ => 0

def rowBytes (key : TableKey) (row : Row) : Nat :=
  match key with
  | .messages => messageBytes host row
  | .messageBatches => batchBytes host row
  | _ => 0

theorem exceeds_of_fits {state : InlineMediaBudget} {bytes : Nat} (h : state.spent + bytes ≤ state.budget) :
    state.exceeds bytes = (false, state.spend bytes) := by
  have hnot : ¬ state.spent + bytes > state.budget := by omega
  simp [InlineMediaBudget.exceeds, InlineMediaBudget.spend, hnot]

@[simp]
theorem spend_zero (state : InlineMediaBudget) : state.spend 0 = state := rfl

theorem spend_spend (state : InlineMediaBudget) (a b : Nat) : (state.spend a).spend b = state.spend (a + b) := by
  simp [InlineMediaBudget.spend, Nat.add_assoc]

variable {host}

theorem stripInlineMediaPayload_of_fits {row : Row} {state : InlineMediaBudget}
    (h : state.spent + messageBytes host row ≤ state.budget) :
    stripInlineMediaPayload host row state = (row, state.spend (messageBytes host row)) := by
  unfold messageBytes at h ⊢
  unfold stripInlineMediaPayload
  split
  . next raw hraw =>
    simp only [hraw] at h ⊢
    split
    . next bag hbag =>
      simp only [hbag] at h ⊢
      split
      . next media data hdata =>
        simp only [hdata] at h ⊢
        rw [exceeds_of_fits h]
      . rfl
    . rfl
  . rfl

theorem stripKind_of_fits {content : Fields} {kind : String} {state : InlineMediaBudget}
    (h : state.spent + kindBytes content kind ≤ state.budget) :
    stripKind (content, false, state) kind = (content, false, state.spend (kindBytes content kind)) := by
  unfold kindBytes at h ⊢
  unfold stripKind
  dsimp only
  split
  . next media base64 hmedia =>
    simp only [hmedia] at h ⊢
    rw [exceeds_of_fits h]
  . rfl

theorem stripKinds_of_fits {content : Fields} (kinds : List String) {state : InlineMediaBudget}
    (h : state.spent + (kinds.map (kindBytes content)).sum ≤ state.budget) :
    kinds.foldl stripKind (content, false, state) =
      (content, false, state.spend (kinds.map (kindBytes content)).sum) := by
  induction kinds generalizing state with
  | nil => rfl
  | cons kind kinds ih =>
    simp only [List.map_cons, List.sum_cons] at h ⊢
    rw [List.foldl_cons, stripKind_of_fits (by omega), ih (by simp only [InlineMediaBudget.spend]; omega), spend_spend]

theorem stripEntry_of_fits {entry : Json} {state : InlineMediaBudget} (h : state.spent + entryBytes entry ≤ state.budget) :
    (stripEntry entry false state).2 = (false, state.spend (entryBytes entry)) := by
  unfold entryBytes at h ⊢
  unfold stripEntry
  split
  . next fields =>
    dsimp only at h ⊢
    split
    . next content hcontent =>
      simp only [hcontent] at h ⊢
      rw [stripKinds_of_fits mediaKinds h]
    . rfl
  . rfl

theorem stripEntries_of_fits (entries : Items) {state : InlineMediaBudget}
    (h : state.spent + (entries.toList.map entryBytes).sum ≤ state.budget) :
    (stripEntries entries false state).2 = (false, state.spend (entries.toList.map entryBytes).sum) := by
  match entries with
  | .nil => rfl
  | .cons entry rest =>
    simp only [Items.toList, List.map_cons, List.sum_cons] at h ⊢
    have hentry : (stripEntry entry false state).2 = (false, state.spend (entryBytes entry)) :=
      stripEntry_of_fits (by omega)
    have hrest : (stripEntries rest false (state.spend (entryBytes entry))).2 =
        (false, (state.spend (entryBytes entry)).spend (rest.toList.map entryBytes).sum) :=
      stripEntries_of_fits rest (by simp only [InlineMediaBudget.spend]; omega)
    unfold stripEntries
    rw [spend_spend] at hrest
    generalize stripEntry entry false state = stripping at hentry ⊢
    rcases stripping with ⟨kept, stripped, after⟩
    simp only [Prod.mk.injEq] at hentry
    rcases hentry with ⟨rfl, rfl⟩
    exact hrest

theorem stripBatchInlineMedia_of_fits {row : Row} {state : InlineMediaBudget}
    (h : state.spent + batchBytes host row ≤ state.budget) :
    stripBatchInlineMedia host row state = (row, state.spend (batchBytes host row)) := by
  unfold batchBytes at h ⊢
  unfold stripBatchInlineMedia
  split
  . next raw hraw =>
    simp only [hraw] at h ⊢
    split
    . next entries hentries =>
      simp only [hentries] at h ⊢
      have hfits := stripEntries_of_fits entries h
      generalize stripEntries entries false state = stripping at hfits ⊢
      rcases stripping with ⟨kept, stripped, after⟩
      simp only [Prod.mk.injEq] at hfits
      rcases hfits with ⟨rfl, rfl⟩
      rfl
    . rfl
  . rfl

theorem foldl_strip_of_fits {strip : Row → InlineMediaBudget → Row × InlineMediaBudget} {bytes : Row → Nat}
    (hstrip : ∀ row state, state.spent + bytes row ≤ state.budget → strip row state = (row, state.spend (bytes row)))
    {rows : List Row} (visits : List (Row × Nat)) (hvisits : ∀ visit ∈ visits, rows[visit.2]? = some visit.1)
    {state : InlineMediaBudget} (h : state.spent + (visits.map fun visit => bytes visit.1).sum ≤ state.budget) :
    visits.foldl (fun (acc : List Row × InlineMediaBudget) visit =>
        ((acc.1.set visit.2 (strip visit.1 acc.2).1), (strip visit.1 acc.2).2)) (rows, state) =
      (rows, state.spend (visits.map fun visit => bytes visit.1).sum) := by
  induction visits generalizing state with
  | nil => rfl
  | cons visit visits ih =>
    simp only [List.map_cons, List.sum_cons] at h ⊢
    have hrow := hvisits visit List.mem_cons_self
    have hset : rows.set visit.2 visit.1 = rows := by
      rw [List.getElem?_eq_some_iff] at hrow
      obtain ⟨hlt, heq⟩ := hrow
      rw [← heq]
      exact List.set_getElem_self hlt
    rw [List.foldl_cons, hstrip visit.1 state (by omega), hset,
      ih (fun v hv => hvisits v (List.mem_cons_of_mem _ hv)) (by simp only [InlineMediaBudget.spend]; omega), spend_spend]

theorem spendNewestFirst_of_fits {strip : Row → InlineMediaBudget → Row × InlineMediaBudget} {bytes : Row → Nat}
    (hstrip : ∀ row state, state.spent + bytes row ≤ state.budget → strip row state = (row, state.spend (bytes row)))
    (time : Row → Option Rat) {rows : List Row} {state : InlineMediaBudget}
    (h : state.spent + (rows.map bytes).sum ≤ state.budget) :
    spendNewestFirst time strip rows state = (rows, state.spend (rows.map bytes).sum) := by
  have hperm : (newestFirst rows time).Perm rows.zipIdx := List.mergeSort_perm _ _
  have hsum : ((newestFirst rows time).map fun visit => bytes visit.1).sum = (rows.map bytes).sum := by
    rw [(hperm.map _).sum_eq]
    congr 1
    rw [← List.zipIdx_map_fst 0 rows, List.map_map]
    simp
  have hvisits : ∀ visit ∈ newestFirst rows time, rows[visit.2]? = some visit.1 := by
    intro visit hvisit
    exact List.mk_mem_zipIdx_iff_getElem?.mp (hperm.mem_iff.mp hvisit)
  rw [← hsum] at h ⊢
  exact foldl_strip_of_fits hstrip _ hvisits h

/-- The rows that an export reads from a table. -/
def readRows (host : Host) (source : Source) (key : TableKey) : List Row :=
  afterRead host key (((source key).getD []).map ofRecord)

/-- The inline media of a table, and of the whole database. -/
def tableBytes (host : Host) (source : Source) (key : TableKey) : Nat :=
  ((readRows host source key).map (rowBytes host key)).sum

theorem exportRows_of_fits {key : TableKey} {rows : List Row} {state : InlineMediaBudget}
    (h : state.spent + ((afterRead host key rows).map (rowBytes host key)).sum ≤ state.budget) :
    exportRows host key rows state =
      (afterRead host key rows, state.spend ((afterRead host key rows).map (rowBytes host key)).sum) := by
  cases key with
  | messages => exact spendNewestFirst_of_fits (fun _ _ => stripInlineMediaPayload_of_fits) _ h
  | messageBatches => exact spendNewestFirst_of_fits (fun _ _ => stripBatchInlineMedia_of_fits) _ h
  | _ =>
    have hzero (rows : List Row) : (rows.map fun _ => 0).sum = 0 := by simp
    unfold exportRows rowBytes
    rw [hzero]
    rfl

theorem foldlM_exportTable_of_fits {source : Source} (hpresent : ∀ key, optional key = false → source key ≠ none)
    (keys : List TableKey) (result : Export) (state : InlineMediaBudget)
    (h : state.spent + (keys.map (tableBytes host source)).sum ≤ state.budget) :
    ∃ after, keys.foldlM (exportTable host source) (result, state) = .ok after ∧
      ∀ key, after.1.tables key = if key ∈ keys then readRows host source key else result.tables key := by
  induction keys generalizing result state with
  | nil => exact ⟨_, rfl, fun key => rfl⟩
  | cons key keys ih =>
    simp only [List.map_cons, List.sum_cons] at h
    have hstep : ∃ step : Export × InlineMediaBudget, exportTable host source (result, state) key = .ok step ∧
        step.1.tables = Function.update result.tables key (readRows host source key) ∧
        step.2.spent + (keys.map (tableBytes host source)).sum ≤ step.2.budget := by
      cases hsource : source key with
      | none =>
        cases hoptional : optional key with
        | false => exact absurd hsource (hpresent key hoptional)
        | true =>
          have hempty : readRows host source key = [] := by
            cases key <;> simp [readRows, hsource, afterRead]
          refine ⟨({ result with
              tables := Function.update result.tables key []
              skippedTables := result.skippedTables ++ [(schema key).name] }, state), ?_, ?_, ?_⟩
          . unfold exportTable
            simp only [hsource, hoptional]
          . rw [hempty]
          . dsimp only
            omega
      | some records =>
        have hread : afterRead host key (records.map ofRecord) = readRows host source key := by
          simp [readRows, hsource]
        have hfits : state.spent + ((readRows host source key).map (rowBytes host key)).sum ≤ state.budget := by
          unfold tableBytes at h
          omega
        have hrows := exportRows_of_fits (hread ▸ hfits)
        rw [hread] at hrows
        refine ⟨({ result with
            tables := Function.update result.tables key (readRows host source key)
            counts := Function.update result.counts key (readRows host source key).length
            omittedInlineMedia := Function.update result.omittedInlineMedia key
              ((state.spend (tableBytes host source key)).dropped - state.dropped) },
          state.spend (tableBytes host source key)), ?_, rfl, ?_⟩
        . unfold exportTable
          simp only [hsource]
          rw [hrows]
          rfl
        . simp only [InlineMediaBudget.spend]
          omega
    obtain ⟨step, hstep, htables, hbudget⟩ := hstep
    obtain ⟨after, hafter, hrest⟩ := ih step.1 step.2 hbudget
    refine ⟨after, ?_, fun key' => ?_⟩
    . rw [List.foldlM_cons, hstep]
      exact hafter
    . rw [hrest key', htables]
      by_cases hsame : key' = key
      . subst hsame
        simp
      . simp [hsame]

theorem exportData_of_fits {budget : Nat} {source : Source} (hpresent : ∀ key, optional key = false → source key ≠ none)
    (h : (TableKey.all.map (tableBytes host source)).sum ≤ budget) :
    ∃ archive, exportData host budget source = .ok archive ∧
      ∀ key, archive.tables key = readRows host source key := by
  obtain ⟨after, hafter, htables⟩ := foldlM_exportTable_of_fits hpresent TableKey.all
    ⟨fun _ => [], fun _ => 0, [], fun _ => 0⟩ ⟨budget, 0, 0⟩ (by simpa using h)
  refine ⟨after.1, ?_, fun key => ?_⟩
  . unfold exportData
    rw [hafter]
    rfl
  . rw [htables key, if_pos key.mem_all]

end Fits
end OpenWA.Backup
