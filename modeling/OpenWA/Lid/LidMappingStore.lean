import OpenWA.Async.System
import OpenWA.Js.Text

/-!
This module contains the in-memory mirror of the `lid -> phone` table in one process: the lookups,
the write-through, and the queries they leave in flight.
-/

namespace OpenWA.Lid

open Async Js

/-- A row of `lid_mappings`. -/
structure LidMapping where
  lid : Text
  phone : Option Text
  sessionId : Option Text
  updatedAt : Nat
deriving DecidableEq

/--
The table and the maps of the service. A `Map` or `Set` is a list in insertion order; a phone of none
is the negative result `null`.
-/
structure LidStore where
  table : List LidMapping
  lidToPhone : List (Text × Option Text)
  phoneToLids : List (Text × List Text)
  pendingLookups : List Text
  absentFromTable : List Text
  unsettledWrites : List Text
  maxCachedLids : Nat

/-- What an await settles with. -/
inductive Answer where
  | ok
  /-- the query rejected -/
  | fault
deriving DecidableEq

inductive Place where
  | findOne (lid : Text)
  /-- the callback of the query: the lid, the row it found and what was captured before it -/
  | answered (lid : Text) (row : Option LidMapping) (writeInFlight : Bool)
  | lookupDone
  | upsert (row : LidMapping)
  | writeDone
deriving DecidableEq

/-- A query rejected. -/
inductive QueryError where
  | rejected

abbrev LidTask (α : Type) := Task LidStore Answer Place QueryError α

def rowOf (table : List LidMapping) (lid : Text) : Option LidMapping := table.find? (·.lid = lid)

/-- The upsert on the conflict column `lid`. -/
def upsertRow (table : List LidMapping) (row : LidMapping) : List LidMapping :=
  if (rowOf table row.lid).isSome then table.map fun r => if r.lid = row.lid then row else r
  else table ++ [row]

/-- A phone that is neither null nor the empty string. -/
def truthy (phone : Option Text) : Option Text := phone.filter fun p => !p.isEmpty

/-- `this.phoneToLids.get(phone)?.delete(lid)`, for a phone that is set. -/
def dropLid (phoneToLids : List (Text × List Text)) (phone : Option Text) (lid : Text) :
    List (Text × List Text) :=
  match truthy phone with
  | some phone => phoneToLids.map fun entry =>
    if entry.1 = phone then (entry.1, entry.2.filter (· ≠ lid)) else entry
  | none => phoneToLids

/-- The set of a phone that is set, with the lid added and the set created if need be. -/
def addLid (phoneToLids : List (Text × List Text)) (phone : Option Text) (lid : Text) :
    List (Text × List Text) :=
  match truthy phone with
  | some phone =>
    match phoneToLids.lookup phone with
    | some lids =>
      let lids := if lid ∈ lids then lids else lids ++ [lid]
      phoneToLids.map fun entry => if entry.1 = phone then (entry.1, lids) else entry
    | none => phoneToLids ++ [(phone, [lid])]
  | none => phoneToLids

/-- Evict the least recently used entries, and their reverse entries, while over the cap. -/
def evictOver (cap : Nat) (entries : List (Text × Option Text)) (phoneToLids : List (Text × List Text)) :
    List (Text × Option Text) × List (Text × List Text) :=
  match entries with
  | [] => ([], phoneToLids)
  | (lid, phone) :: rest =>
    if entries.length > cap then evictOver cap rest (dropLid phoneToLids phone lid)
    else (entries, phoneToLids)

namespace LidStore

/-- `this.lidToPhone.get(lid)`; none is `undefined`. -/
def cached (s : LidStore) (lid : Text) : Option (Option Text) := s.lidToPhone.lookup lid

/-- `delete` and `set`: the entry moves to the most recent end. -/
def touch (s : LidStore) (lid : Text) (phone : Option Text) : LidStore :=
  { s with lidToPhone := (s.lidToPhone.filter fun entry => entry.1 ≠ lid) ++ [(lid, phone)] }

def evictIfOverCap (s : LidStore) : LidStore :=
  if s.maxCachedLids = 0 then s
  else
    let (entries, phoneToLids) := evictOver s.maxCachedLids s.lidToPhone s.phoneToLids
    { s with lidToPhone := entries, phoneToLids := phoneToLids }

/-- Both in-memory indexes learn a mapping. -/
def index (s : LidStore) (lid : Text) (phone : Option Text) : LidStore :=
  let phoneToLids :=
    match s.cached lid with
    | some prev => if prev ≠ phone then dropLid s.phoneToLids prev lid else s.phoneToLids
    | none => s.phoneToLids
  let s := { s.touch lid phone with
    phoneToLids := addLid phoneToLids phone lid
    absentFromTable := s.absentFromTable.filter (· ≠ lid) }
  s.evictIfOverCap

/-- The absence is recorded, bounded oldest-recorded first; skipped when the cap is disabled. -/
def noteAbsent (s : LidStore) (lid : Text) : LidStore :=
  if s.maxCachedLids = 0 then s
  else
    let absent := if lid ∈ s.absentFromTable then s.absentFromTable else s.absentFromTable ++ [lid]
    { s with absentFromTable := absent.drop (absent.length - s.maxCachedLids) }

end LidStore

section Lookup

/-- `findOne`, an atomic read whose answer is delivered later. -/
def findOne (lid : Text) : LidTask (Option LidMapping) :=
  .atomic (.findOne lid) fun x s =>
    (s, if x = .fault then .error .rejected else .ok (rowOf s.table lid))

/-- The callback of a lookup. -/
def answer (lid : Text) (row : Option LidMapping) (writeInFlight : Bool) (s : LidStore) : LidStore :=
  match row with
  | some row =>
    -- a `remember` that landed while the lookup was in flight is newer
    if (s.cached row.lid).isNone then s.index row.lid row.phone else s
  | none => if (s.cached lid).isNone && !writeInFlight then s.noteAbsent lid else s

/-- The query of a lookup with its `then`, `catch` and `finally`. -/
def lookup (lid : Text) (writeInFlight : Bool) : LidTask Unit :=
  let query : LidTask Unit := do
    let row ← findOne lid
    .atomic (.answered lid row writeInFlight) fun _ s => (answer lid row writeInFlight s, .ok ())
  (query.catch' fun _ => pure ()).andFinally (.atomic .lookupDone fun _ s =>
    ({ s with pendingLookups := s.pendingLookups.filter (· ≠ lid) }, .ok ()))

def warmFromTable (lid : Text) (s : LidStore) : LidStore × LidTask Unit :=
  if lid.isEmpty || lid ∈ s.pendingLookups || lid ∈ s.absentFromTable then (s, pure ())
  else
    -- captured before the query
    let writeInFlight : Bool := lid ∈ s.unsettledWrites
    ({ s with pendingLookups := s.pendingLookups ++ [lid] }, lookup lid writeInFlight)

/-- What `getCached` returns. -/
def cachedPhone (lid : Text) (s : LidStore) : Option (Option Text) := s.cached lid

/-- A hit moves its entry to the most recent end; a miss starts a lookup. -/
def getCached (lid : Text) (s : LidStore) : LidStore × LidTask Unit :=
  match s.cached lid with
  | some phone => (s.touch lid phone, pure ())
  | none => warmFromTable lid s

end Lookup

section Remember

/-- The persistence of a mapping that is indexed already. -/
def persist (row : LidMapping) : LidTask Unit := do
  .atomic (.upsert row) fun _ s => ({ s with table := upsertRow s.table row }, .ok ())
  .atomic .writeDone fun _ s =>
    ({ s with unsettledWrites := s.unsettledWrites.filter (· ≠ row.lid) }, .ok ())

/-- An empty lid is ignored, and so is a mapping the cache already holds. -/
def learns (s : LidStore) (row : LidMapping) : Bool :=
  !row.lid.isEmpty && s.cached row.lid ≠ some row.phone

def remember (row : LidMapping) (s : LidStore) : LidStore × LidTask Unit :=
  if learns s row then
    let s := s.index row.lid row.phone
    let unsettled :=
      if row.lid ∈ s.unsettledWrites then s.unsettledWrites else s.unsettledWrites ++ [row.lid]
    ({ s with unsettledWrites := unsettled }, persist row)
  else
    (s, pure ())

end Remember

section Reload

def lidsForPhone (phone : Text) (s : LidStore) : List Text := (s.phoneToLids.lookup phone).getD []

/-- `find` with the newest rows first. -/
def newest (cap : Nat) (table : List LidMapping) : List LidMapping :=
  let rows := table.mergeSort fun a b => b.updatedAt ≤ a.updatedAt
  if cap > 0 then rows.take cap else rows

/-- `reload` when its query succeeds. -/
def reload (s : LidStore) : LidStore :=
  (newest s.maxCachedLids s.table).foldl (fun s row => s.index row.lid row.phone)
    { s with lidToPhone := [], phoneToLids := [], absentFromTable := [] }

end Reload

/-- The calls; `remember` is called with the row it would write, stamped with the current time. -/
inductive LidEvent where
  | getCached (lid : Text)
  | remember (row : LidMapping)
deriving DecidableEq

def LidEvent.run (v : LidEvent) (s : LidStore) : LidStore × LidTask Unit :=
  match v with
  | .getCached lid => Lid.getCached lid s
  | .remember row => Lid.remember row s

end OpenWA.Lid
