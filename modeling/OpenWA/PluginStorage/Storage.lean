import OpenWA.Js.Encoding

/-!
This module contains the storage of one plugin: its operations on the files of the plugin's directory.
-/

namespace OpenWA.PluginStorage

open Js

/-! ### File names -/

def encodedKeyPrefix : Text := "key-".toList

def urlSafe (c : Char) : Char :=
  if c = '+' then '-' else if c = '/' then '_' else c

def urlPlain (c : Char) : Char :=
  if c = '-' then '+' else if c = '_' then '/' else c

def encodeStorageKey (key : JsString) : Text :=
  encodedKeyPrefix ++ ((base64 (utf8 (fromUtf16 key))).map urlSafe).rdropWhile (· = '=')

def decodeStorageFileName (stem : Text) : Option JsString :=
  if encodedKeyPrefix.isPrefixOf stem then
    let encoded := stem.drop encodedKeyPrefix.length
    let padded := encoded.map urlPlain ++ List.replicate ((4 - encoded.length % 4) % 4) '='
    let decoded := toUtf16 (utf8Decode none (base64Decode padded))
    -- only a name that round-trips exactly is one of ours
    if encodeStorageKey decoded = stem then some decoded else none
  else
    none

/-- A path below the directory of the plugin, by its components. -/
abbrev Path := List Text

def unitOf (c : Char) : UInt16 := c.toNat.toUInt16

def isSafeStorageKey (key : JsString) : Bool :=
  !key.isEmpty && key.all (fun u => 0x20 ≤ u.toNat) && key.head? ≠ some (unitOf '/') &&
    !(key.splitOnP fun u => u = unitOf '/' || u = unitOf '\\').contains [unitOf '.', unitOf '.']

/-- `path.resolve` from the directory of the plugin on; `none` outside of it. -/
def resolve (t : Text) : Option Path :=
  (t.splitOn '/').foldl (fun (path : Option Path) segment =>
    match path with
    | none => none
    | some path =>
      if segment = [] || segment = ['.'] then some path
      else if segment = ['.', '.'] then
        if path = [] then none else some path.dropLast
      else some (path ++ [segment])) (some [])

def jsonSuffix : Text := ".json".toList

def resolveKeyPath (key : JsString) : Option Path :=
  if isSafeStorageKey key then resolve (encodeStorageKey key ++ jsonSuffix) else none

def resolveLegacyKeyPath (key : JsString) : Option Path :=
  if !isSafeStorageKey key then none
  -- package-owned files when package code and state share a directory
  else if key = toUtf16 "manifest".toList || key = toUtf16 "package".toList then none
  else resolve (fromUtf16 key ++ jsonSuffix)

/-- The file names of a key in the order in which they are tried, if the key is accepted. -/
def candidates (key : JsString) : Option (List Path) :=
  match resolveKeyPath key with
  | none => none
  | some filePath =>
    match resolveLegacyKeyPath key with
    | some legacyPath => some (if legacyPath ≠ filePath then [filePath, legacyPath] else [filePath])
    | none => some [filePath]

/-! ### The directory -/

variable {V : Type}

/-- A file with the JSON text of a value, a file that does not parse, or a directory. -/
inductive Entry (V : Type) where
  | json (value : V)
  | other (size : Nat)
  | folder (size : Nat)
deriving DecidableEq

abbrev Dir (V : Type) := List (Path × Entry V)

def Dir.entryAt (d : Dir V) (p : Path) : Option (Entry V) :=
  (d.find? fun file => file.1 = p).map (·.2)

def Dir.remove (d : Dir V) (p : Path) : Dir V := d.filter fun file => file.1 ≠ p

def Dir.write (d : Dir V) (p : Path) (e : Entry V) : Dir V := d.remove p ++ [(p, e)]

/-- `readdirSync` of the plugin's directory -/
def Dir.names (d : Dir V) : List Text :=
  d.filterMap fun file =>
    match file.1 with
    | [name] => some name
    | _ => none

/-- The first of the paths that exists, and what is there. -/
def Dir.first (d : Dir V) (paths : List Path) : Option (Path × Entry V) :=
  paths.findSome? fun p => (d.entryAt p).map fun e => (p, e)

/-! ### The operations -/

/--
The size of the JSON text of a value, the quota, and the file names that the file system takes, with
their temporary siblings.
-/
structure Host (V : Type) where
  size : V → Nat
  maxPluginStorageBytes : Nat
  takes : Path → Bool

def Entry.size (host : Host V) (e : Entry V) : Nat :=
  match e with
  | .json v => host.size v
  | .other n | .folder n => n

/-- What the encoded files of the other keys take. -/
def used (host : Host V) (d : Dir V) (target : Path) : Nat :=
  (d.map fun file =>
    match file.1 with
    | [name] =>
      if encodedKeyPrefix.isPrefixOf name && jsonSuffix.isSuffixOf name && file.1 ≠ target then
        file.2.size host
      else 0
    | _ => 0).sum

def get (d : Dir V) (key : JsString) : Option V :=
  match candidates key with
  | none => none
  | some paths =>
    match d.first paths with
    | some (_, .json v) => some v
    | _ => none

/-- The directory afterwards, and whether the promise was fulfilled. -/
def set (host : Host V) (d : Dir V) (key : JsString) (value : V) : Dir V × Bool :=
  match resolveKeyPath key with
  | none => (d, false)
  | some filePath =>
    if used host d filePath + host.size value > host.maxPluginStorageBytes then (d, false)
    else if !host.takes filePath then (d, false)
    else
      match d.entryAt filePath with
      | some (.folder _) => (d, false)
      | _ => (d.write filePath (.json value), true)

/-- `unlinkSync` of the candidates that exist; it throws at a directory. -/
def unlinkAll (d : Dir V) (paths : List Path) : Dir V × Bool :=
  match paths with
  | [] => (d, true)
  | p :: paths =>
    match d.entryAt p with
    | none => unlinkAll d paths
    | some (.folder _) => (d, false)
    | some _ => unlinkAll (d.remove p) paths

def delete (d : Dir V) (key : JsString) : Dir V × Bool :=
  match candidates key with
  | none => (d, false)
  | some paths => unlinkAll d paths

/-- The key that a file name is listed as. -/
def listedKey (name : Text) : Option JsString :=
  if jsonSuffix.isSuffixOf name then
    let stem := name.take (name.length - jsonSuffix.length)
    some ((decodeStorageFileName stem).getD (toUtf16 stem))
  else
    none

def list (d : Dir V) (keyPrefix : Option JsString) : List JsString :=
  let keys := (d.names.filterMap listedKey).dedup
  match keyPrefix with
  | none => keys
  | some keyPrefix => keys.filter fun key => keyPrefix.isPrefixOf key

end OpenWA.PluginStorage
