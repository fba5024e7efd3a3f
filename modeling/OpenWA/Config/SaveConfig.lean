import Mathlib.Data.List.Sort
import OpenWA.Config.Sections

/-!
This module contains a save of the configuration: the merge into what the generated file holds, the
checks, and the file that is written. The file is read with the third-party parser `dotenv`.
-/

namespace OpenWA.Config

open Js

/-- What a save finds in its process. -/
structure Host where
  availableEngines : List Text
  /-- the value of a key that the host environment supplies -/
  osEnv : EnvKey → Option Text
  /-- `new URL(url).hostname`; none where the constructor throws -/
  urlHostname : Text → Option Text

section BootGuard

/-- The keys the guard reads that count as unset when the host forwards them blank. -/
def blankShadowed : List EnvKey :=
  [.databaseType, .databaseHost, .databasePassword, .storageType, .s3Endpoint, .s3AccessKeyId,
    .s3SecretAccessKey, .redisPassword]

/-- What the next boot sees for a key. -/
def bootValue (host : Host) (merged : Record) (key : EnvKey) : Option Text :=
  match host.osEnv key with
  | some envValue =>
    if trim envValue ≠ [] || key ∉ blankShadowed then some envValue else merged.lookup key.name
  | none => merged.lookup key.name

def forbiddenProdSecrets : List Text :=
  ["openwa".toList, "minioadmin".toList, "your-secure-password".toList, "dev-master-key".toList,
    "dev-admin-key".toList, "changeme".toList, "change-me".toList, "password".toList,
    "secret".toList, "admin".toList, "123456".toList, "qwerty".toList, "root".toList,
    "test".toList, "demo".toList]

/--
`toLowerCase`, as far as a comparison with ASCII words can tell: the Kelvin sign is the only other
character whose lower case is ASCII.
-/
def toLowerCase (t : Text) : Text := t.map fun c => if c = '\u212a' then 'k' else c.toLower

def isForbidden (value : Text) : Bool := toLowerCase (trim value) ∈ forbiddenProdSecrets

def isWeak (value : Option Text) : Bool :=
  match truthy value with
  | some value => isForbidden value
  | none => true

def isInternalS3Endpoint (host : Host) (endpoint : Option Text) : Bool :=
  match truthy (endpoint.map trim) with
  | some e => host.urlHostname e = some "minio".toList
  | none => false

/-- The names of the weak secrets that are in use. -/
def problems (host : Host) (merged : Record) : List Text :=
  let value := bootValue host merged
  let dbHost := truthy ((value .databaseHost).map trim)
  let dbExempt := value .postgresBuiltin = some "true".toList &&
    (dbHost.isNone || dbHost = some "postgres".toList)
  let database :=
    if value .databaseType = some "postgres".toList && !dbExempt && isWeak (value .databasePassword)
    then ["DATABASE_PASSWORD".toList] else []
  let s3Exempt := value .minioBuiltin = some "true".toList &&
    isInternalS3Endpoint host (value .s3Endpoint)
  let s3 :=
    if value .storageType = some "s3".toList && !s3Exempt then
      (if isWeak (value .s3AccessKeyId) then ["S3_ACCESS_KEY".toList] else []) ++
      (if isWeak (value .s3SecretAccessKey) then ["S3_SECRET_KEY".toList] else [])
    else []
  let redis :=
    if (truthy (value .redisPassword)).any isForbidden then ["REDIS_PASSWORD".toList] else []
  database ++ s3 ++ redis

def assertProductionBootable (host : Host) (merged : Record) : Except Text Unit :=
  match problems host merged with
  | [] => .ok ()
  | names => .error <|
    "Refusing to save a configuration that would be rejected at production boot. ".toList ++
    "Refusing to start in production: insecure or default value for ".toList ++
    ", ".toList.intercalate names ++
    ". Set strong, unique secrets (see .env.example).".toList

end BootGuard

section Save

def isLineBreak (c : Char) : Bool := c = '\n' || c = '\r'

/-- The values the payload sets, and no others, are refused if they carry a line break. -/
def assertNoLineBreakValues (updates : List (EnvKey × Text)) : Except Text Unit :=
  match updates.find? fun entry => entry.2.any isLineBreak with
  | some (key, _) => .error <|
    "Invalid configuration value for ".toList ++ key.name ++ ": line breaks are not allowed".toList
  | none => .ok ()

/-- `{ ...existing, ...updates }` without the stale keys. -/
def mergeWithExisting (existing : Record) (ctx : ConfigSectionContext) : Record :=
  let merged := ctx.updates.foldl (fun m entry => assign m entry.1.name entry.2) existing
  merged.filter fun entry => entry.1 ∉ ctx.staleKeys.map EnvKey.name

/-- The order of `sort()` on ASCII keys. -/
def keyLe (a b : Text) : Bool :=
  match a, b with
  | [], _ => true
  | _ :: _, [] => false
  | a :: as, b :: bs => if a = b then keyLe as bs else a.val < b.val

/-- `lines.join('\n')` -/
def joinLines (lines : List Text) : Text := ['\n'].intercalate lines

/-- A text without line terminators, such as what `toISOString` returns. -/
structure Timestamp where
  text : Text
  oneLine : ∀ c ∈ text, c ∉ ['\n', '\r', '\u2028', '\u2029']

def fileHeader (generatedAt : Timestamp) : List Text :=
  ["# OpenWA Configuration".toList,
    "# Generated at ".toList ++ generatedAt.text,
    "# Managed via Dashboard > Infrastructure. Values in process env or project .env take precedence.".toList,
    []]

/-- The contents of the generated file. -/
def contents (generatedAt : Timestamp) (merged : Record) : Text :=
  let keys := (merged.map (·.1)).insertionSort (keyLe · ·)
  let body := keys.map fun key => key ++ '=' :: (merged.lookup key).getD []
  joinLines (fileHeader generatedAt ++ body ++ [[]])

/-- A save: its payload, its process, its time and what the write of the file does. -/
structure Save where
  config : SaveConfigDto
  host : Host
  generatedAt : Timestamp
  writeSecretFile : Except Text Unit

structure SaveResponse where
  message : Text
  saved : Bool
  profiles : List Text

/-- `dotenv.parse` on the text of the file; no entries when there is no file. -/
def readGeneratedEnv (parse : Text → Record) (file : Option Text) : Record :=
  match file with
  | some text => parse text
  | none => []

def buildSaveResponse (profiles : List Text) : SaveResponse where
  message :=
    "Configuration saved successfully.".toList ++
    (if profiles = [] then [] else
      " Docker profiles required: ".toList ++ ", ".toList.intercalate profiles ++ ".".toList) ++
    " Server restart required to apply changes.".toList
  saved := true
  profiles := profiles

/-- The merged map a save computes, or the message of the error it throws before writing. -/
def computeMerged (parse : Text → Record) (file : Option Text) (save : Save) :
    Except Text (Record × List Text) := do
  let existing := readGeneratedEnv parse file
  let ctx ← applyConfigSections save.config existing save.host.availableEngines
  assertNoLineBreakValues ctx.updates
  let merged := mergeWithExisting existing ctx
  assertProductionBootable save.host merged
  .ok (merged, ctx.profiles)

/-- A save answers, or throws the message of a bad request; the file afterwards. -/
def saveConfig (parse : Text → Record) (file : Option Text) (save : Save) :
    Except Text SaveResponse × Option Text :=
  match computeMerged parse file save with
  | .error message => (.error message, file)
  | .ok (merged, profiles) =>
    match save.writeSecretFile with
    | .ok () => (.ok (buildSaveResponse profiles), some (contents save.generatedAt merged))
    | .error message =>
      (.ok ⟨"Failed to save configuration: ".toList ++ message, false, []⟩, file)

end Save

end OpenWA.Config
