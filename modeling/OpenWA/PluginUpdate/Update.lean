import OpenWA.Disk.Crash
import OpenWA.Js.Map
import OpenWA.Js.Text

/-!
This module contains the update of an installed plugin on the directories of the plugins, and the
recovery of interrupted updates that the next boot starts with.
-/

namespace OpenWA.PluginUpdate

open Js Disk

abbrev Bytes := List UInt8

/-- The files below a directory, by their relative paths. -/
abbrev Dir := Js.Map Text Bytes

/-- The directories in the directory of the plugins. -/
abbrev Root := Js.Map Text Dir

/-! ### Names -/

/-- `SAFE_ID`, and no two dots in a row -/
def safeId (id : Text) : Bool :=
  match id with
  | [] => false
  | c :: rest =>
    c.isAlphanum && rest.all (fun c => c.isAlphanum || c = '.' || c = '_' || c = '-') &&
      !(id.zip rest).contains ('.', '.')

structure Plugin where
  id : Text
  safe : safeId id
  /-- the name of the directory that its package was loaded from -/
  dir : Text

def stagingSuffix : Text := ".new".toList

def backupSuffix : Text := ".bak".toList

def pluginUpdateStagingDirName (id : Text) : Text := '.' :: id ++ stagingSuffix

def pluginUpdateBackupDirName (id : Text) : Text := '.' :: id ++ backupSuffix

def Plugin.staging (t : Plugin) : Text := pluginUpdateStagingDirName t.id

def Plugin.backup (t : Plugin) : Text := pluginUpdateBackupDirName t.id

def statePrefix : Text := "key-".toList

def stateSuffix : Text := ".json".toList

/-- `/^key-[A-Za-z0-9_-]+\.json$/` -/
def isStateFile (name : Text) : Bool :=
  let key := (name.drop statePrefix.length).take (name.length - statePrefix.length - stateSuffix.length)
  name = statePrefix ++ key ++ stateSuffix && !key.isEmpty &&
    key.all fun c => c.isAlphanum || c = '_' || c = '-'

/-! ### The calls -/

/-- The calls of an update by what they are for. -/
inductive Call where
  | validate
  | dropStaging
  | stage
  | unload
  | restoreBackup
  | dropOldBackup
  | setAside
  | swapIn
  | reload
  | listState
  | copyState
  | chmodState
  | load
  | enable
  | dropBackup
  | unloadNew
  | dropNew
  | putBack
  | findOne
deriving DecidableEq

abbrev Cmd := Prog Root Call

def noEffect (l : Call) : Cmd := .call l some

def mkdir (l : Call) (d : Text) : Cmd :=
  .call l fun root => some (if root.has d then root else root.set d Js.Map.empty)

/-- It fails if there is nothing at `a` or a directory with files at `b`. -/
def renameSync (l : Call) (a b : Text) : Cmd :=
  .call l fun root =>
    match root.get? a with
    | none => none
    | some dir =>
      match root.get? b with
      | none => some ((root.delete a).set b dir)
      | some target => if target.size = 0 then some ((root.delete a).set b dir) else none

def unlink (l : Call) (d p : Text) : Cmd :=
  .call l fun root => (root.get? d).map fun dir => root.set d (dir.delete p)

/-- `rmSync(d, { recursive: true, force: true })` takes the files one after the other. -/
def rmSync (l : Call) (d : Text) : Cmd :=
  .read fun root =>
    match root.get? d with
    | none => .done
    | some dir => .seq (.forEach dir.keys fun p => unlink l d p) (.call l fun root => some (root.delete d))

def openTruncated (l : Call) (d p : Text) : Cmd :=
  .call l fun root => (root.get? d).map fun dir => root.set d (dir.set p [])

def append (l : Call) (d p : Text) (byte : UInt8) : Cmd :=
  .call l fun root =>
    (root.get? d).map fun dir => root.set d (dir.set p ((dir.get? p).getD [] ++ [byte]))

/-- The bytes reach the disk one after the other. -/
def writeFileSync (l : Call) (d p : Text) (data : Bytes) : Cmd :=
  .seq (openTruncated l d p) (.forEach data fun byte => append l d p byte)

def copyFileSync (l : Call) (a b p : Text) : Cmd :=
  .read fun root =>
    match (root.get? a).bind fun dir => dir.get? p with
    | none => .raise
    | some data => writeFileSync l b p data

/-! ### The update -/

/-- The files of a parsed package, in the order in which they are written. -/
abbrev Package := List (Text × Bytes)

def Package.paths (entries : Package) : List Text := entries.map (·.1)

/-- The directory that holds the package. -/
def Package.dir (entries : Package) : Dir := entries.foldl (fun dir e => dir.set e.1 e.2) Js.Map.empty

/-- The state files in the backup that the package does not supply itself. -/
def stateFiles (entries : Package) (backup : Dir) : List Text :=
  backup.keys.filter fun name => isStateFile name && !entries.paths.contains name

def stagePackage (t : Plugin) (entries : Package) : Cmd :=
  .forEach entries fun e => .seq (mkdir .stage t.staging) (writeFileSync .stage t.staging e.1 e.2)

/-- A swap that was interrupted before left the backup only. -/
def restoreIfMissing (t : Plugin) : Cmd :=
  .read fun root =>
    .when (!root.has t.dir && root.has t.backup) (renameSync .restoreBackup t.backup t.dir)

def loadAndEnable (wasEnabled : Bool) : Cmd :=
  .seq (noEffect .load) (.when wasEnabled (noEffect .enable))

def bestEffortReload (wasEnabled : Bool) : Cmd :=
  .attempt (.seq (noEffect .reload) (.when wasEnabled (noEffect .reload))) .done

def swap (t : Plugin) (wasEnabled : Bool) : Cmd :=
  .attempt
    (.block [
      restoreIfMissing t,
      rmSync .dropOldBackup t.backup,
      renameSync .setAside t.dir t.backup,
      renameSync .swapIn t.staging t.dir])
    (.block [
      restoreIfMissing t,
      rmSync .dropStaging t.staging,
      bestEffortReload wasEnabled,
      .raise])

def restoreState (t : Plugin) (entries : Package) : Cmd :=
  .seq (noEffect .listState) (.read fun root =>
    match root.get? t.backup with
    | none => .raise
    | some backup =>
      .forEach (stateFiles entries backup) fun name =>
        .seq (copyFileSync .copyState t.backup t.dir name) (noEffect .chmodState))

def rollback (t : Plugin) (wasEnabled : Bool) : Cmd :=
  .block [
    .attempt (noEffect .unloadNew) .done,
    rmSync .dropNew t.dir,
    renameSync .putBack t.backup t.dir,
    bestEffortReload wasEnabled,
    .raise]

def activate (t : Plugin) (entries : Package) (wasEnabled : Bool) : Cmd :=
  .attempt
    (.block [
      restoreState t entries,
      loadAndEnable wasEnabled,
      rmSync .dropBackup t.backup])
    (rollback t wasEnabled)

def updatePackageInner (t : Plugin) (entries : Package) (wasEnabled : Bool) : Cmd :=
  .block [
    noEffect .validate,
    rmSync .dropStaging t.staging,
    .attempt (stagePackage t entries) (.seq (rmSync .dropStaging t.staging) .raise),
    noEffect .unload,
    swap t wasEnabled,
    activate t entries wasEnabled,
    noEffect .findOne]

/-! ### Recovery -/

def isLineTerminator (c : Char) : Bool := c ∈ ['\n', '\r', '\u2028', '\u2029']

/-- The group of `/^\.(.+)\.(?:bak|new)$/` -/
def leftoverOf (name : Text) : Option Text :=
  match name with
  | '.' :: rest =>
    let id := rest.take (rest.length - 4)
    let suffix := rest.drop (rest.length - 4)
    if id ≠ [] && (suffix = backupSuffix || suffix = stagingSuffix) && !id.any isLineTerminator then
      some id
    else
      none
  | _ => none

def recoverEntry (root : Root) (name : Text) : Root :=
  match leftoverOf name with
  | none => root
  | some id =>
    if name = pluginUpdateStagingDirName id then root.delete name
    else if root.has id then root.delete name
    else
      match root.get? name with
      | some dir => (root.delete name).set id dir
      | none => root

def recoverInterruptedUpdates (root : Root) : Root := root.keys.foldl recoverEntry root

end OpenWA.PluginUpdate
