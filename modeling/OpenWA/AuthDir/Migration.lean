import Mathlib.Data.List.Nodup
import Mathlib.Data.List.Perm.Basic

/-!
This module contains the engine auth directories of the sessions: how they are keyed, the boot
migration from the session name to the session id, and the purge of a deleted session.
-/

namespace OpenWA.AuthDir

/-- The engine shapes that keep credentials on disk, each under a base directory of its own. -/
inductive Engine where
  | wwebjs
  | baileys
deriving DecidableEq

/-- The part of a session row that keys its directories. -/
structure Session where
  id : String
  name : String
deriving DecidableEq

def isKeyChar (c : Char) : Bool :=
  ('a' ≤ c && c ≤ 'z') || ('A' ≤ c && c ≤ 'Z') || ('0' ≤ c && c ≤ '9') || c == '-'

/-- `/^[a-zA-Z0-9-]+$/` -/
def isSafeSessionName (value : String) : Bool :=
  !value.toList.isEmpty && value.toList.all isKeyChar

/-- The names `CreateSessionDto` accepts. -/
def acceptsName (name : String) : Bool :=
  isSafeSessionName name && 3 ≤ name.toList.length && name.toList.length ≤ 50

/-- The session rows: ids and names are unique and every name went through the API. -/
structure SessionTable where
  rows : List Session
  nodup_ids : (rows.map Session.id).Nodup
  nodup_names : (rows.map Session.name).Nodup
  accepted : ∀ row ∈ rows, acceptsName row.name = true

/-- The entry of the directory keyed `key` under the base of an engine. -/
def dirName (engine : Engine) (key : String) : String :=
  match engine with
  | .wwebjs => "session-" ++ key
  | .baileys => key

/-- What an operation does to one directory on behalf of a row. -/
inductive DirAction where
  | rename (row : Session) (engine : Engine) (legacy target : String)
  | rm (row : Session) (engine : Engine) (dir : String)
deriving DecidableEq

/-- The directory entries under the base of each engine, or `none` where they cannot be listed. -/
abbrev Bases := Engine → Option (List String)

section Migration

/-- The listing `migrateBase` works on and what it did so far. -/
structure Walk where
  entries : List String
  found : List String
  actions : List DirAction

/-- One iteration of the loop of `migrateBase`; `renameFails` says which renames throw. -/
def migrateSession (engine : Engine) (renameFails : String → Bool) (w : Walk) (session : Session) :
    Walk :=
  let legacy := dirName engine session.name
  let target := dirName engine session.id
  if legacy = target ∨ legacy ∉ w.entries then
    w
  else
    let w := { w with found := w.found ++ [session.name] }
    if target ∈ w.entries then
      w
    else if renameFails legacy then
      w
    else
      { w with
        entries := w.entries.filter (· != legacy) ++ [target]
        actions := w.actions ++ [.rename session engine legacy target] }

def migrateBase (engine : Engine) (renameFails : String → Bool) (sessions : List Session)
    (entries : Option (List String)) : Walk :=
  match entries with
  | none => ⟨[], [], []⟩
  | some entries => sessions.foldl (migrateSession engine renameFails) ⟨entries, [], []⟩

/-- The renames of one boot, for the rows in the order the query returned them. -/
def onModuleInit (renameFails : Engine → String → Bool) (rows : List Session) (bases : Bases) :
    List DirAction :=
  let sessions := rows.filter fun row => isSafeSessionName row.name && isSafeSessionName row.id
  (migrateBase .wwebjs (renameFails .wwebjs) sessions (bases .wwebjs)).actions ++
    (migrateBase .baileys (renameFails .baileys) sessions (bases .baileys)).actions

end Migration

section Purge

def authDirExists (bases : Bases) (engine : Engine) (dir : String) : Bool :=
  match bases engine with
  | some entries => entries.contains dir
  | none => false

/-- The directories a delete removes; `rm` of a directory that is not there does nothing. -/
def purgeSessionData (row : Session) (bases : Bases) : List DirAction :=
  if !isSafeSessionName row.id then
    []
  else
    let dirs := [(Engine.wwebjs, dirName .wwebjs row.id), (Engine.baileys, dirName .baileys row.id)]
    let legacyDirs :=
      if isSafeSessionName row.name then
        [(Engine.wwebjs, dirName .wwebjs row.name), (Engine.baileys, dirName .baileys row.name)].filter
          fun dir => authDirExists bases dir.1 dir.2
      else
        []
    (dirs ++ legacyDirs).map fun dir => .rm row dir.1 dir.2

end Purge

section Ownership

/-- The row that owns the directories keyed `key`: the one with that id, otherwise with that name. -/
def owner (t : SessionTable) (key : String) : Option Session :=
  match t.rows.find? fun row => row.id == key with
  | some row => some row
  | none => t.rows.find? fun row => row.name == key

/-- The directory is owned by the row. -/
def OwnedBy (t : SessionTable) (row : Session) (engine : Engine) (dir : String) : Prop :=
  ∃ key, dir = dirName engine key ∧ owner t key = some row

/-- An operation touches only directories of the row it acts for. -/
def ActsOnOwn (t : SessionTable) (a : DirAction) : Prop :=
  match a with
  | .rename row engine legacy target =>
    OwnedBy t row engine legacy ∧ OwnedBy t row engine target
  | .rm row engine dir => OwnedBy t row engine dir

/-- The boot migration, for any row order and failing renames, and every purge stay with their row. -/
structure KeepsOwnership (t : SessionTable) (bases : Bases) : Prop where
  migration : ∀ rows renameFails, rows.Perm t.rows →
    ∀ a ∈ onModuleInit renameFails rows bases, ActsOnOwn t a
  purge : ∀ row ∈ t.rows, ∀ a ∈ purgeSessionData row bases, ActsOnOwn t a

/--
Where a row carries the id of another row as its name, there is no directory keyed by that id, and
one keyed by the name of the other row only beside one that keeps the first row from being migrated.
-/
def NoForeignKey (t : SessionTable) (engine : Engine) (entries : List String) : Prop :=
  ∀ row ∈ t.rows, ∀ other ∈ t.rows, row ≠ other → row.name = other.id →
    isSafeSessionName row.id = true →
    dirName engine other.id ∉ entries ∧
      (dirName engine other.name ∈ entries → dirName engine row.id ∈ entries)

end Ownership
end OpenWA.AuthDir
