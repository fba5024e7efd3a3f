import OpenWA.Config.SaveConfig
import OpenWA.Js.Encoding

/-!
This module contains the guard on default secrets as a production boot runs it on the environment it has
layered, and when the guard of a save gives the same verdict.
-/

namespace OpenWA.Config

open Js

/-! ### The boot -/

def s3AccessKey : Text := "S3_ACCESS_KEY".toList

def s3SecretKey : Text := "S3_SECRET_KEY".toList

def apiMasterKey : Text := "API_MASTER_KEY".toList

def allowDevApiKey : Text := "ALLOW_DEV_API_KEY".toList

/-- `BLANK_SHADOWED_ENV_KEYS`, as far as the guard reads them. -/
def blankShadowedEnvKeys : List Text :=
  blankShadowed.map EnvKey.name ++ [s3AccessKey, s3SecretKey, apiMasterKey, allowDevApiKey]

def clearBlankEnv (env : Text → Option Text) (key : Text) : Option Text :=
  (env key).filter fun value => trim value ≠ [] || key ∉ blankShadowedEnvKeys

/-- The variable once the file is loaded, which overrides nothing. -/
def loadEnvironment (env : Text → Option Text) (file : Record) (key : Text) : Option Text :=
  (clearBlankEnv env key).or (file.lookup key)

structure SecretCheckEnv where
  nodeEnv : Option Text
  databaseType : Option Text
  databasePassword : Option Text
  postgresBuiltIn : Option Text
  databaseHost : Option Text
  storageType : Option Text
  s3AccessKey : Option Text
  s3SecretKey : Option Text
  s3Endpoint : Option Text
  minioBuiltIn : Option Text
  apiMasterKey : Option Text
  allowDevApiKey : Option Text
  redisPassword : Option Text

/-- `MIN_PROD_MASTER_KEY_LENGTH` -/
def minProdMasterKeyLength : Nat := 32

def databaseExempt (env : SecretCheckEnv) : Bool :=
  let dbHost := truthy (env.databaseHost.map trim)
  env.postgresBuiltIn = some "true".toList && (dbHost.isNone || dbHost = some "postgres".toList)

def s3Exempt (host : Host) (env : SecretCheckEnv) : Bool :=
  env.minioBuiltIn = some "true".toList && isInternalS3Endpoint host env.s3Endpoint

def masterKeyProblems (masterKey : Option Text) : List Text :=
  match truthy masterKey with
  | none => []
  | some masterKey =>
    if isForbidden masterKey then ["API_MASTER_KEY".toList]
    else if (toUtf16 (trim masterKey)).length < minProdMasterKeyLength then
      ["API_MASTER_KEY (below the 32-character minimum)".toList]
    else []

def databaseProblems (env : SecretCheckEnv) : List Text :=
  if env.databaseType = some "postgres".toList && !databaseExempt env && isWeak env.databasePassword
  then ["DATABASE_PASSWORD".toList] else []

def s3Problems (host : Host) (env : SecretCheckEnv) : List Text :=
  if env.storageType = some "s3".toList && !s3Exempt host env then
    (if isWeak env.s3AccessKey then ["S3_ACCESS_KEY".toList] else []) ++
    (if isWeak env.s3SecretKey then ["S3_SECRET_KEY".toList] else [])
  else []

def redisProblems (env : SecretCheckEnv) : List Text :=
  if (truthy env.redisPassword).any isForbidden then ["REDIS_PASSWORD".toList] else []

def devKeyProblems (allowDevApiKey : Option Text) : List Text :=
  if allowDevApiKey = some "true".toList then
    ["ALLOW_DEV_API_KEY (seeds the public dev-admin-key)".toList]
  else []

/-- The names the guard reports. -/
def insecure (host : Host) (env : SecretCheckEnv) : List Text :=
  databaseProblems env ++ s3Problems host env ++ masterKeyProblems env.apiMasterKey ++ redisProblems env ++
    devKeyProblems env.allowDevApiKey

def assertNoDefaultSecretsInProduction (host : Host) (env : SecretCheckEnv) : Except Text Unit :=
  let nodeEnv := truthy (env.nodeEnv.map trim)
  if nodeEnv = none || nodeEnv = some "development".toList || nodeEnv = some "test".toList then .ok ()
  else
    match insecure host env with
    | [] => .ok ()
    | names => .error <|
      "Refusing to start in production: insecure or default value for ".toList ++
      ", ".toList.intercalate names ++ ". Set strong, unique secrets (see .env.example).".toList

/-- What `main.ts` gives the guard, the variables once they are loaded. -/
def bootSecrets (nodeEnv : Text) (value : Text → Option Text) : SecretCheckEnv where
  nodeEnv := some nodeEnv
  databaseType := value EnvKey.databaseType.name
  databasePassword := value EnvKey.databasePassword.name
  postgresBuiltIn := value EnvKey.postgresBuiltin.name
  databaseHost := value EnvKey.databaseHost.name
  storageType := value EnvKey.storageType.name
  s3AccessKey := (truthy (value EnvKey.s3AccessKeyId.name)).or (value s3AccessKey)
  s3SecretKey := (truthy (value EnvKey.s3SecretAccessKey.name)).or (value s3SecretKey)
  s3Endpoint := value EnvKey.s3Endpoint.name
  minioBuiltIn := value EnvKey.minioBuiltin.name
  apiMasterKey := value apiMasterKey
  allowDevApiKey := value allowDevApiKey
  redisPassword := value EnvKey.redisPassword.name

/-! ### The save -/

/-- What the guard of a save gives it. -/
def saveSecrets (host : Host) (merged : Record) : SecretCheckEnv where
  nodeEnv := some "production".toList
  databaseType := bootValue host merged .databaseType
  databasePassword := bootValue host merged .databasePassword
  postgresBuiltIn := bootValue host merged .postgresBuiltin
  databaseHost := bootValue host merged .databaseHost
  storageType := bootValue host merged .storageType
  s3AccessKey := bootValue host merged .s3AccessKeyId
  s3SecretKey := bootValue host merged .s3SecretAccessKey
  s3Endpoint := bootValue host merged .s3Endpoint
  minioBuiltIn := bootValue host merged .minioBuiltin
  apiMasterKey := none
  allowDevApiKey := none
  redisPassword := bootValue host merged .redisPassword

/-- A process of that environment, whose snapshot was taken after the blanks were cleared. -/
def hostOf (env : Text → Option Text) (engines : List Text) (urlHostname : Text → Option Text) : Host where
  availableEngines := engines
  osEnv key := clearBlankEnv env key.name
  urlHostname := urlHostname

/-- The same with the credentials under their canonical names, and no keys of the API. -/
def canonicalOnly (value : Text → Option Text) (env : SecretCheckEnv) : SecretCheckEnv :=
  { env with
    s3AccessKey := value EnvKey.s3AccessKeyId.name
    s3SecretKey := value EnvKey.s3SecretAccessKey.name
    apiMasterKey := none
    allowDevApiKey := none }

/-- S3 is in use, not the bundled one, and one of its credentials is set under its legacy name only; nothing
that is in use is weak. -/
structure ReliesOnLegacyName (host : Host) (value : Text → Option Text) (boot : SecretCheckEnv) : Prop where
  s3 : boot.storageType = some "s3".toList
  external : s3Exempt host boot = false
  missing : truthy (value EnvKey.s3AccessKeyId.name) = none ∨
    truthy (value EnvKey.s3SecretAccessKey.name) = none
  accessKey : isWeak boot.s3AccessKey = false
  secretKey : isWeak boot.s3SecretKey = false
  database : boot.databaseType = some "postgres".toList → databaseExempt boot = false →
    isWeak boot.databasePassword = false
  redis : (truthy boot.redisPassword).any isForbidden = false

section Agreement

variable {env : Text → Option Text} {engines : List Text} {urlHostname : Text → Option Text}
  {merged : Record} {host : Host} {boot : SecretCheckEnv} {value : Text → Option Text}

theorem problems_eq (host : Host) (merged : Record) :
    problems host merged = insecure host (saveSecrets host merged) := by
  have hmaster : masterKeyProblems (saveSecrets host merged).apiMasterKey = [] := rfl
  have hdev : devKeyProblems (saveSecrets host merged).allowDevApiKey = [] := if_neg nofun
  rw [insecure, hmaster, hdev, List.append_nil, List.append_nil]
  rfl

/-- The save layers the variables as the boot does. -/
theorem bootValue_hostOf (key : EnvKey) :
    bootValue (hostOf env engines urlHostname) merged key = loadEnvironment env merged key.name := by
  have hos : (hostOf env engines urlHostname).osEnv key = clearBlankEnv env key.name := rfl
  unfold bootValue loadEnvironment
  rw [hos]
  cases hclear : clearBlankEnv env key.name with
  | none => rfl
  | some envValue =>
    have hkeep := (Option.filter_eq_some_iff.mp hclear).2
    have hkey : key ∈ blankShadowed → key.name ∈ blankShadowedEnvKeys := by
      intro hmem
      exact List.mem_append_left _ (List.mem_map_of_mem hmem)
    simp only [Bool.or_eq_true, decide_eq_true_eq] at hkeep
    dsimp only
    rw [if_pos, Option.some_or]
    simp only [Bool.or_eq_true, decide_eq_true_eq]
    exact hkeep.imp_right (mt hkey)

theorem ite_singleton_eq_nil {b : Bool} {name : Text} : (if b then [name] else []) = [] ↔ b = false := by
  cases b <;> simp

theorem databaseProblems_eq_nil : databaseProblems boot = [] ↔
    (boot.databaseType = some "postgres".toList → databaseExempt boot = false →
      isWeak boot.databasePassword = false) := by
  rw [databaseProblems, ite_singleton_eq_nil]
  simp only [Bool.and_eq_false_iff, decide_eq_false_iff_not, Bool.not_eq_false']
  generalize (boot.databaseType = some "postgres".toList) = used
  cases databaseExempt boot <;> simp [imp_iff_not_or]

theorem s3Problems_eq_nil : s3Problems host boot = [] ↔
    (boot.storageType = some "s3".toList → s3Exempt host boot = false →
      isWeak boot.s3AccessKey = false ∧ isWeak boot.s3SecretKey = false) := by
  unfold s3Problems
  split
  . next hused =>
    simp only [Bool.and_eq_true, decide_eq_true_eq, Bool.not_eq_true'] at hused
    rw [List.append_eq_nil_iff, ite_singleton_eq_nil, ite_singleton_eq_nil]
    exact ⟨fun h _ _ => h, fun h => h hused.1 hused.2⟩
  . next hunused =>
    simp only [Bool.and_eq_true, decide_eq_true_eq, Bool.not_eq_true', not_and] at hunused
    exact ⟨fun _ htype hexternal => absurd hexternal (hunused htype), fun _ => rfl⟩

theorem redisProblems_eq_nil : redisProblems boot = [] ↔
    (truthy boot.redisPassword).any isForbidden = false := by
  rw [redisProblems, ite_singleton_eq_nil]

theorem insecure_eq_nil (hmaster : boot.apiMasterKey = none) (hdev : boot.allowDevApiKey = none) :
    insecure host boot = [] ↔
      databaseProblems boot = [] ∧ s3Problems host boot = [] ∧ redisProblems boot = [] := by
  have hnoMaster : masterKeyProblems boot.apiMasterKey = [] := by rw [hmaster]; rfl
  have hnoDev : devKeyProblems boot.allowDevApiKey = [] := by rw [hdev]; exact if_neg nofun
  rw [insecure, hnoMaster, hnoDev, List.append_nil, List.append_nil, List.append_eq_nil_iff,
    List.append_eq_nil_iff, and_assoc]

/-- What the two guards are given differs in the credentials alone. -/
theorem saveSecrets_hostOf : saveSecrets (hostOf env engines urlHostname) merged =
    canonicalOnly (loadEnvironment env merged)
      (bootSecrets "production".toList (loadEnvironment env merged)) := by
  unfold saveSecrets canonicalOnly bootSecrets
  simp only [bootValue_hostOf]

theorem isWeak_or {canonical legacy : Option Text} :
    isWeak ((truthy canonical).or legacy) = false ↔
      isWeak canonical = false ∨ truthy canonical = none ∧ isWeak legacy = false := by
  cases htruthy : truthy canonical with
  | none => simp [isWeak, htruthy]
  | some value =>
    have hvalue : truthy (some value) = some value := by
      rcases Option.filter_eq_some_iff.mp htruthy with ⟨_, hne⟩
      exact Option.filter_eq_some_iff.mpr ⟨rfl, hne⟩
    simp [isWeak, htruthy, hvalue]

theorem saveConfig_guard {parse : Text → Record} {file : Option Text} {save : Save}
    {ctx : ConfigSectionContext}
    (hctx : applyConfigSections save.config (readGeneratedEnv parse file) save.host.availableEngines = .ok ctx)
    (hlines : assertNoLineBreakValues ctx.updates = .ok ()) :
    (∃ message, (saveConfig parse file save).1 = .error message) ↔
      problems save.host (mergeWithExisting (readGeneratedEnv parse file) ctx) ≠ [] := by
  have hmerged : computeMerged parse file save =
      (assertProductionBootable save.host (mergeWithExisting (readGeneratedEnv parse file) ctx)).map
        fun _ => (mergeWithExisting (readGeneratedEnv parse file) ctx, ctx.profiles) := by
    simp only [computeMerged, hctx, bind, Except.bind, hlines]
    cases assertProductionBootable save.host (mergeWithExisting (readGeneratedEnv parse file) ctx) <;> rfl
  unfold saveConfig
  rw [hmerged]
  unfold assertProductionBootable
  cases problems save.host (mergeWithExisting (readGeneratedEnv parse file) ctx) with
  | nil =>
    simp only [Except.map]
    cases save.writeSecretFile <;> simp
  | cons name names => simp [Except.map]

theorem boot_refused (hproduction : boot.nodeEnv = some "production".toList) :
    (∃ message, assertNoDefaultSecretsInProduction host boot = .error message) ↔ insecure host boot ≠ [] := by
  have hchecked : (truthy (boot.nodeEnv.map trim) = none ||
      truthy (boot.nodeEnv.map trim) = some "development".toList ||
      truthy (boot.nodeEnv.map trim) = some "test".toList) = false := by
    rw [hproduction]
    decide +kernel
  unfold assertNoDefaultSecretsInProduction
  dsimp only
  rw [hchecked]
  cases insecure host boot <;> simp

/-- A save is refused just when the next production boot would be, unless that relies on a legacy name. -/
theorem guards_agree_iff {parse : Text → Record} {file : Option Text} {ctx : ConfigSectionContext}
    (env : Text → Option Text) (engines : List Text) (urlHostname : Text → Option Text)
    (config : SaveConfigDto) (generatedAt : Timestamp) (write : Except Text Unit)
    (hctx : applyConfigSections config (readGeneratedEnv parse file) engines = .ok ctx)
    (hlines : assertNoLineBreakValues ctx.updates = .ok ()) :
    let host := hostOf env engines urlHostname
    let value := loadEnvironment env (mergeWithExisting (readGeneratedEnv parse file) ctx)
    let boot := bootSecrets "production".toList value
    value apiMasterKey = none → value allowDevApiKey = none →
      (((∃ message, (saveConfig parse file ⟨config, host, generatedAt, write⟩).1 = .error message) ↔
          ∃ message, assertNoDefaultSecretsInProduction host boot = .error message) ↔
        ¬ ReliesOnLegacyName host value boot) := by
  intro host value boot hmaster hdev
  rw [saveConfig_guard hctx hlines, boot_refused rfl, not_iff_not, problems_eq, saveSecrets_hostOf,
    insecure_eq_nil rfl rfl, insecure_eq_nil hmaster hdev]
  have hdatabase : databaseProblems (canonicalOnly value boot) = databaseProblems boot := rfl
  have hredis : redisProblems (canonicalOnly value boot) = redisProblems boot := rfl
  have hsave : s3Problems host (canonicalOnly value boot) = [] ↔
      (boot.storageType = some "s3".toList → s3Exempt host boot = false →
        isWeak (value EnvKey.s3AccessKeyId.name) = false ∧
          isWeak (value EnvKey.s3SecretAccessKey.name) = false) := s3Problems_eq_nil
  have hboot : s3Problems host boot = [] ↔ _ := s3Problems_eq_nil
  have haccess : isWeak boot.s3AccessKey = false ↔ _ := isWeak_or
  have hsecret : isWeak boot.s3SecretKey = false ↔ _ := isWeak_or
  have hmissing (key : Text) (h : truthy (value key) = none) : isWeak (value key) ≠ false := by
    simp [isWeak, h]
  have hmissingAccess := hmissing EnvKey.s3AccessKeyId.name
  have hmissingSecret := hmissing EnvKey.s3SecretAccessKey.name
  rw [hdatabase, hredis, hsave, hboot]
  constructor
  . rintro hagree ⟨hs3, hexternal, hnone, hkey, hsecretKey, hdb, hrd⟩
    have hsaved := hagree.mpr ⟨databaseProblems_eq_nil.mpr hdb, fun _ _ => ⟨hkey, hsecretKey⟩,
      redisProblems_eq_nil.mpr hrd⟩
    rcases hsaved.2.1 hs3 hexternal with ⟨hweakKey, hweakSecret⟩
    rcases hnone with hnone | hnone
    . exact hmissingAccess hnone hweakKey
    . exact hmissingSecret hnone hweakSecret
  . intro hnot
    refine and_congr_right fun hdb => and_congr_left fun hrd => ?_
    constructor
    . intro hsaved hs3 hexternal
      rcases hsaved hs3 hexternal with ⟨hkey, hsecretKey⟩
      exact ⟨haccess.mpr (.inl hkey), hsecret.mpr (.inl hsecretKey)⟩
    . intro hboots hs3 hexternal
      rcases hboots hs3 hexternal with ⟨hkey, hsecretKey⟩
      -- a credential that is set under its own name is the one both guards see
      refine Classical.byContradiction fun hweak => hnot ⟨hs3, hexternal, ?_, hkey, hsecretKey,
        databaseProblems_eq_nil.mp hdb, redisProblems_eq_nil.mp hrd⟩
      rcases haccess.mp hkey with hkey | ⟨hnone, _⟩
      . rcases hsecret.mp hsecretKey with hsecretKey | ⟨hnone, _⟩
        . exact absurd ⟨hkey, hsecretKey⟩ hweak
        . exact .inr hnone
      . exact .inl hnone

/-- Nothing is set, and the payload turns the queue on. -/
theorem guards_agree_iff_queue :
    let host := hostOf (fun _ => none) [] fun _ => none
    let value := loadEnvironment (fun _ => none) [(EnvKey.queueEnabled.name, "true".toList)]
    let boot := bootSecrets "production".toList value
    (((∃ message, (saveConfig (fun _ => []) none
        ⟨⟨none, none, some ⟨some true⟩, none, none⟩, host, ⟨[], nofun⟩, .ok ()⟩).1 = .error message) ↔
          ∃ message, assertNoDefaultSecretsInProduction host boot = .error message) ↔
        ¬ ReliesOnLegacyName host value boot) :=
  @guards_agree_iff (fun _ => []) none ⟨[(.queueEnabled, "true".toList)], [], []⟩ (fun _ => none) []
    (fun _ => none) _ _ _ rfl (by decide +kernel) (by decide +kernel) (by decide +kernel)

def legacyEnv (key : Text) : Option Text :=
  if key = s3AccessKey then some "AKIA7".toList
  else if key = s3SecretKey then some "c0ffee42".toList
  else none

/-- A switch to S3 in a host environment that has its credentials under the legacy names. -/
def s3Save : Save where
  config := ⟨none, none, none, some ⟨.s3, some false, none, none, none, none, none, none⟩, none⟩
  host := hostOf legacyEnv [] fun _ => none
  generatedAt := ⟨[], nofun⟩
  writeSecretFile := .ok ()

/-- The save is refused and the boot would not be. -/
theorem legacy_names_refused :
    (∃ message, (saveConfig (fun _ => []) none s3Save).1 = .error message) ∧
      ∃ ctx, applyConfigSections s3Save.config [] [] = .ok ctx ∧
        assertNoDefaultSecretsInProduction s3Save.host
          (bootSecrets "production".toList (loadEnvironment legacyEnv (mergeWithExisting [] ctx))) = .ok () := by
  constructor
  . refine (saveConfig_guard rfl ?_).mpr ?_
    . decide +kernel
    . decide +kernel
  . refine ⟨_, rfl, ?_⟩
    decide +kernel

end Agreement

end OpenWA.Config
