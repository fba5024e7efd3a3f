import OpenWA.Js.Text

/-!
This module contains the payload of a configuration save and the appliers of its sections: which keys
a payload sets, which ones it drops and which Docker profiles it asks for.
-/

namespace OpenWA.Config

open Js

inductive ConfigSection where
  | database | redis | queue | storage | engine
deriving DecidableEq

/-- The keys the appliers write or drop. -/
inductive EnvKey where
  | databaseType | postgresBuiltin | databaseHost | databasePort | databaseUsername
  | databasePassword | databaseName | postgresSchema | databasePoolSize | databaseSsl
  | databaseSslRejectUnauthorized
  | redisEnabled | redisBuiltin | redisHost | redisPort | redisPassword
  | queueEnabled
  | storageType | minioBuiltin | storageLocalPath | s3Endpoint | s3AccessKeyId
  | s3SecretAccessKey | s3Bucket | s3Region
  | engineType | puppeteerHeadless | sessionDataPath | puppeteerArgs
deriving DecidableEq

namespace EnvKey

def name (key : EnvKey) : Text :=
  match key with
  | databaseType => "DATABASE_TYPE".toList
  | postgresBuiltin => "POSTGRES_BUILTIN".toList
  | databaseHost => "DATABASE_HOST".toList
  | databasePort => "DATABASE_PORT".toList
  | databaseUsername => "DATABASE_USERNAME".toList
  | databasePassword => "DATABASE_PASSWORD".toList
  | databaseName => "DATABASE_NAME".toList
  | postgresSchema => "POSTGRES_SCHEMA".toList
  | databasePoolSize => "DATABASE_POOL_SIZE".toList
  | databaseSsl => "DATABASE_SSL".toList
  | databaseSslRejectUnauthorized => "DATABASE_SSL_REJECT_UNAUTHORIZED".toList
  | redisEnabled => "REDIS_ENABLED".toList
  | redisBuiltin => "REDIS_BUILTIN".toList
  | redisHost => "REDIS_HOST".toList
  | redisPort => "REDIS_PORT".toList
  | redisPassword => "REDIS_PASSWORD".toList
  | queueEnabled => "QUEUE_ENABLED".toList
  | storageType => "STORAGE_TYPE".toList
  | minioBuiltin => "MINIO_BUILTIN".toList
  | storageLocalPath => "STORAGE_LOCAL_PATH".toList
  | s3Endpoint => "S3_ENDPOINT".toList
  | s3AccessKeyId => "S3_ACCESS_KEY_ID".toList
  | s3SecretAccessKey => "S3_SECRET_ACCESS_KEY".toList
  | s3Bucket => "S3_BUCKET".toList
  | s3Region => "S3_REGION".toList
  | engineType => "ENGINE_TYPE".toList
  | puppeteerHeadless => "PUPPETEER_HEADLESS".toList
  | sessionDataPath => "SESSION_DATA_PATH".toList
  | puppeteerArgs => "PUPPETEER_ARGS".toList

/-- The section of the payload that may write or drop the key. -/
def owner (key : EnvKey) : ConfigSection :=
  match key with
  | databaseType | postgresBuiltin | databaseHost | databasePort | databaseUsername
  | databasePassword | databaseName | postgresSchema | databasePoolSize | databaseSsl
  | databaseSslRejectUnauthorized => .database
  | redisEnabled | redisBuiltin | redisHost | redisPort | redisPassword => .redis
  | queueEnabled => .queue
  | storageType | minioBuiltin | storageLocalPath | s3Endpoint | s3AccessKeyId
  | s3SecretAccessKey | s3Bucket | s3Region => .storage
  | engineType | puppeteerHeadless | sessionDataPath | puppeteerArgs => .engine

end EnvKey

/-- A finite number as `String()` writes it. -/
structure Numeral where
  text : Text
  chars : ∀ c ∈ text, c.isDigit = true ∨ c ∈ ['.', 'e', '+', '-']

inductive DatabaseType where
  | sqlite | postgres
deriving DecidableEq

inductive StorageType where
  | «local» | s3
deriving DecidableEq

/-- An absent field is none. -/
structure DatabaseConfigDto where
  type : DatabaseType
  builtIn : Option Bool
  host : Option Text
  port : Option Text
  username : Option Text
  password : Option Text
  database : Option Text
  schema : Option Text
  poolSize : Option Numeral
  sslEnabled : Option Bool
  sslRejectUnauthorized : Option Bool

structure RedisConfigDto where
  enabled : Option Bool
  builtIn : Option Bool
  host : Option Text
  port : Option Text
  password : Option Text

structure QueueConfigDto where
  enabled : Option Bool

structure StorageConfigDto where
  type : StorageType
  builtIn : Option Bool
  localPath : Option Text
  s3Bucket : Option Text
  s3Region : Option Text
  s3AccessKey : Option Text
  s3SecretKey : Option Text
  s3Endpoint : Option Text

structure EngineConfigDto where
  type : Option Text
  headless : Option Bool
  sessionDataPath : Option Text
  browserArgs : Option Text

structure SaveConfigDto where
  database : Option DatabaseConfigDto
  redis : Option RedisConfigDto
  queue : Option QueueConfigDto
  storage : Option StorageConfigDto
  engine : Option EngineConfigDto

/-- The sections a payload carries. -/
def SaveConfigDto.carries (config : SaveConfigDto) (owner : ConfigSection) : Bool :=
  match owner with
  | .database => config.database.isSome
  | .redis => config.redis.isSome
  | .queue => config.queue.isSome
  | .storage => config.storage.isSome
  | .engine => config.engine.isSome

/-- An object, its entries in insertion order. -/
abbrev Record := List (Text × Text)

/-- `record[key] = value` -/
def assign {κ : Type} [BEq κ] [DecidableEq κ] (record : List (κ × Text)) (key : κ) (value : Text) :
    List (κ × Text) :=
  if (record.lookup key).isSome then
    record.map fun entry => if entry.1 = key then (key, value) else entry
  else record ++ [(key, value)]

structure ConfigSectionContext where
  updates : List (EnvKey × Text)
  staleKeys : List EnvKey
  profiles : List Text

/-- A text that is neither absent nor empty. -/
def truthy (value : Option Text) : Option Text := value.filter fun t => !t.isEmpty

def flag (value : Bool) : Text := if value then "true".toList else "false".toList

namespace ConfigSectionContext

def set (ctx : ConfigSectionContext) (key : EnvKey) (value : Text) : ConfigSectionContext :=
  { ctx with updates := assign ctx.updates key value }

def stale (ctx : ConfigSectionContext) (key : EnvKey) : ConfigSectionContext :=
  { ctx with
    staleKeys := if key ∈ ctx.staleKeys then ctx.staleKeys else ctx.staleKeys ++ [key] }

def profile (ctx : ConfigSectionContext) (name : Text) : ConfigSectionContext :=
  { ctx with profiles := ctx.profiles ++ [name] }

/-- `if (value !== undefined) updates[key] = value ? 'true' : 'false'` -/
def setFlag (ctx : ConfigSectionContext) (key : EnvKey) (value : Option Bool) : ConfigSectionContext :=
  match value with
  | some value => ctx.set key (flag value)
  | none => ctx

/-- `if (value !== undefined) updates[key] = value || byDefault` -/
def setText (ctx : ConfigSectionContext) (key : EnvKey) (value : Option Text) (byDefault : Text) :
    ConfigSectionContext :=
  match value with
  | some value => ctx.set key (if value.isEmpty then byDefault else value)
  | none => ctx

/-- An empty submission of a secret means unchanged. -/
def setSecret (ctx : ConfigSectionContext) (key : EnvKey) (value : Option Text) : ConfigSectionContext :=
  match truthy value with
  | some value => ctx.set key value
  | none => ctx

/-- `if (!value) staleKeys.add(key)` -/
def staleUnless (ctx : ConfigSectionContext) (key : EnvKey) (value : Option Text) :
    ConfigSectionContext :=
  if (truthy value).isNone then ctx.stale key else ctx

end ConfigSectionContext

/-- `existing[key] === 'true'` -/
def savedFlag (existing : Record) (key : EnvKey) : Bool :=
  existing.lookup key.name = some "true".toList

section Database

def applyBuiltInPostgres (database : DatabaseConfigDto) (existing : Record)
    (ctx : ConfigSectionContext) : ConfigSectionContext :=
  let ctx := ctx.set .databaseHost "postgres".toList
  let ctx := ctx.set .databasePort "5432".toList
  let ctx := ctx.set .databaseUsername "openwa".toList
  -- the stored password is the container's only if the saved mode was already built-in
  let storedPassword :=
    if savedFlag existing .postgresBuiltin then existing.lookup EnvKey.databasePassword.name else none
  let password := ((truthy database.password).or (truthy storedPassword)).getD "openwa".toList
  let ctx := ctx.set .databasePassword password
  let ctx := ctx.set .databaseName "openwa".toList
  let ctx := ctx.set .postgresSchema "public".toList
  ctx.profile "postgres".toList

def applyExternalPostgres (database : DatabaseConfigDto) (existing : Record)
    (ctx : ConfigSectionContext) : ConfigSectionContext :=
  let ctx :=
    if database.builtIn = some false && savedFlag existing .postgresBuiltin then
      ctx.staleUnless .databasePassword database.password
    else ctx
  let ctx := ctx.setText .databaseHost database.host "localhost".toList
  let ctx := ctx.setText .databasePort database.port "5432".toList
  let ctx := ctx.setText .databaseUsername database.username "postgres".toList
  let ctx := ctx.setSecret .databasePassword database.password
  let ctx := ctx.setText .databaseName database.database "openwa".toList
  ctx.setText .postgresSchema database.schema "public".toList

/-- The keys of a Postgres connection, which a switch to SQLite drops. -/
def postgresKeys : List EnvKey :=
  [.databaseHost, .databasePort, .databaseUsername, .databasePassword, .databaseName,
    .databasePoolSize, .databaseSsl, .databaseSslRejectUnauthorized, .postgresSchema]

def applyDatabaseSection (database : DatabaseConfigDto) (existing : Record)
    (ctx : ConfigSectionContext) : ConfigSectionContext :=
  let type := match database.type with
    | .sqlite => "sqlite".toList
    | .postgres => "postgres".toList
  let ctx := ctx.set .databaseType type
  let ctx := ctx.setFlag .postgresBuiltin database.builtIn
  let dbBuiltIn := database.builtIn.getD (savedFlag existing .postgresBuiltin)
  match database.type with
  | .postgres =>
    let ctx :=
      if dbBuiltIn then applyBuiltInPostgres database existing ctx
      else applyExternalPostgres database existing ctx
    let ctx :=
      match database.poolSize with
      | some poolSize =>
        ctx.set .databasePoolSize (if poolSize.text = ['0'] then "10".toList else poolSize.text)
      | none => ctx
    let ctx := ctx.setFlag .databaseSsl database.sslEnabled
    if database.sslEnabled = some true then
      ctx.set .databaseSslRejectUnauthorized (flag (database.sslRejectUnauthorized ≠ some false))
    else ctx
  | .sqlite => postgresKeys.foldl .stale (ctx.set .postgresBuiltin "false".toList)

end Database

def applyRedisSection (redis : RedisConfigDto) (existing : Record) (ctx : ConfigSectionContext) :
    ConfigSectionContext :=
  let ctx := ctx.setFlag .redisEnabled redis.enabled
  let ctx := ctx.setFlag .redisBuiltin redis.builtIn
  let ctx :=
    if redis.builtIn = some true then
      let ctx := ctx.set .redisHost "redis".toList
      let ctx := ctx.set .redisPort "6379".toList
      ctx.staleUnless .redisPassword redis.password
    else
      let ctx := ctx.setText .redisHost redis.host "localhost".toList
      ctx.setText .redisPort redis.port "6379".toList
  let ctx := ctx.setSecret .redisPassword redis.password
  let redisEnabled := redis.enabled.getD (savedFlag existing .redisEnabled)
  let redisBuiltIn := redis.builtIn.getD (savedFlag existing .redisBuiltin)
  if redisEnabled && redisBuiltIn then ctx.profile "redis".toList else ctx

def applyQueueSection (queue : QueueConfigDto) (ctx : ConfigSectionContext) : ConfigSectionContext :=
  ctx.setFlag .queueEnabled queue.enabled

section Storage

def applyBuiltInMinio (ctx : ConfigSectionContext) : ConfigSectionContext :=
  let ctx := ctx.set .s3Endpoint "http://minio:9000".toList
  let ctx := ctx.set .s3AccessKeyId "minioadmin".toList
  let ctx := ctx.set .s3SecretAccessKey "minioadmin".toList
  let ctx := ctx.set .s3Bucket "openwa".toList
  let ctx := ctx.set .s3Region "us-east-1".toList
  ctx.profile "minio".toList

def applyExternalS3 (storage : StorageConfigDto) (existing : Record) (ctx : ConfigSectionContext) :
    ConfigSectionContext :=
  let ctx :=
    if storage.builtIn = some false && savedFlag existing .minioBuiltin then
      let ctx := ctx.staleUnless .s3AccessKeyId storage.s3AccessKey
      let ctx := ctx.staleUnless .s3SecretAccessKey storage.s3SecretKey
      ctx.staleUnless .s3Endpoint storage.s3Endpoint
    else ctx
  let ctx :=
    match storage.s3Bucket with
    | some s3Bucket => ctx.set .s3Bucket s3Bucket
    | none => ctx
  let ctx := ctx.setText .s3Region storage.s3Region "ap-southeast-1".toList
  let ctx := ctx.setSecret .s3AccessKeyId storage.s3AccessKey
  let ctx := ctx.setSecret .s3SecretAccessKey storage.s3SecretKey
  match storage.s3Endpoint with
  -- an empty submission of the endpoint clears it
  | some s3Endpoint =>
    if s3Endpoint.isEmpty then ctx.stale .s3Endpoint else ctx.set .s3Endpoint s3Endpoint
  | none => ctx

/-- The keys of an S3 store, which a switch to local storage drops. -/
def s3Keys : List EnvKey := [.s3Endpoint, .s3AccessKeyId, .s3SecretAccessKey, .s3Bucket, .s3Region]

def applyStorageSection (storage : StorageConfigDto) (existing : Record)
    (ctx : ConfigSectionContext) : ConfigSectionContext :=
  let type := match storage.type with
    | .local => "local".toList
    | .s3 => "s3".toList
  let ctx := ctx.set .storageType type
  let ctx := ctx.setFlag .minioBuiltin storage.builtIn
  match storage.type with
  | .local =>
    let ctx := ctx.set .minioBuiltin "false".toList
    let ctx := ctx.setText .storageLocalPath storage.localPath "./data/media".toList
    s3Keys.foldl .stale ctx
  | .s3 =>
    let ctx := ctx.stale .storageLocalPath
    if storage.builtIn = some true then applyBuiltInMinio ctx
    else applyExternalS3 storage existing ctx

end Storage

def applyEngineSection (engine : EngineConfigDto) (availableEngines : List Text)
    (ctx : ConfigSectionContext) : Except Text ConfigSectionContext := do
  let ctx ←
    match truthy engine.type with
    | some type =>
      if type ∈ availableEngines then .ok (ctx.set .engineType type)
      else .error ("Unknown engine type: ".toList ++ type)
    | none => .ok ctx
  let ctx := ctx.setFlag .puppeteerHeadless engine.headless
  let ctx := ctx.setText .sessionDataPath engine.sessionDataPath "./data/sessions".toList
  .ok (ctx.setText .puppeteerArgs engine.browserArgs
    "--no-sandbox --disable-setuid-sandbox --disable-dev-shm-usage --disable-gpu".toList)

/-- Each section that is present is dispatched to its applier. -/
def applyConfigSections (config : SaveConfigDto) (existing : Record) (availableEngines : List Text) :
    Except Text ConfigSectionContext :=
  let ctx : ConfigSectionContext := ⟨[], [], []⟩
  let ctx := config.database.elim ctx (applyDatabaseSection · existing ctx)
  let ctx := config.redis.elim ctx (applyRedisSection · existing ctx)
  let ctx := config.queue.elim ctx (applyQueueSection · ctx)
  let ctx := config.storage.elim ctx (applyStorageSection · existing ctx)
  match config.engine with
  | some engine => applyEngineSection engine availableEngines ctx
  | none => .ok ctx

section Records

variable {κ : Type} [BEq κ] [LawfulBEq κ] [DecidableEq κ] {record : List (κ × Text)} {key : κ}
  {value : Text}

omit [LawfulBEq κ] in
theorem mem_assign {entry : κ × Text} (h : entry ∈ assign record key value) :
    entry = (key, value) ∨ entry ∈ record := by
  unfold assign at h
  split at h
  . rcases List.mem_map.mp h with ⟨e, he, heq⟩
    split at heq
    . exact .inl heq.symm
    . exact .inr (heq ▸ he)
  . rcases List.mem_append.mp h with h | h
    . exact .inr h
    . exact .inl (List.mem_singleton.mp h)

theorem lookup_isSome_iff :
    (record.lookup key).isSome = true ↔ key ∈ record.map (·.1) := by
  induction record with
  | nil => simp
  | cons entry record ih =>
    by_cases hkey : key = entry.1
    . simp [hkey]
    . have hne : (key == entry.1) = false := by simpa using hkey
      rw [List.lookup_cons, hne, List.map_cons, List.mem_cons]
      simp [ih, hkey]

theorem nodup_assign (h : (record.map (·.1)).Nodup) : ((assign record key value).map (·.1)).Nodup := by
  unfold assign
  split
  . have hkeys : (record.map fun entry => if entry.1 = key then (key, value) else entry).map (·.1) =
        record.map (·.1) := by
      rw [List.map_map]
      apply List.map_congr_left
      intro entry _
      by_cases hkey : entry.1 = key <;> simp [hkey]
    rwa [hkeys]
  . next hnone =>
    rw [lookup_isSome_iff] at hnone
    rw [List.map_append, List.nodup_append]
    refine ⟨h, by simp, ?_⟩
    intro k hk k' hk' heq
    simp only [List.map_cons, List.map_nil, List.mem_singleton] at hk'
    exact hnone (hk' ▸ heq ▸ hk)

end Records

section Within

/-- Every key that a context writes or drops satisfies `P`, and it writes none twice. -/
structure Within (P : EnvKey → Prop) (ctx : ConfigSectionContext) : Prop where
  updates : ∀ entry ∈ ctx.updates, P entry.1
  staleKeys : ∀ key ∈ ctx.staleKeys, P key
  unique : (ctx.updates.map (·.1)).Nodup

variable {P : EnvKey → Prop} {ctx : ConfigSectionContext} {key : EnvKey}

theorem Within.set (h : Within P ctx) (hkey : P key) (value : Text) : Within P (ctx.set key value) := by
  refine ⟨?_, h.staleKeys, nodup_assign h.unique⟩
  intro entry hentry
  rcases mem_assign hentry with rfl | hold
  . exact hkey
  . exact h.updates entry hold

theorem Within.stale (h : Within P ctx) (hkey : P key) : Within P (ctx.stale key) := by
  refine ⟨h.updates, ?_, h.unique⟩
  intro k hk
  unfold ConfigSectionContext.stale at hk
  split at hk
  . exact h.staleKeys k hk
  . rcases List.mem_append.mp hk with hk | hk
    . exact h.staleKeys k hk
    . exact List.mem_singleton.mp hk ▸ hkey

theorem Within.profile (h : Within P ctx) (name : Text) : Within P (ctx.profile name) :=
  ⟨h.updates, h.staleKeys, h.unique⟩

theorem Within.setFlag (h : Within P ctx) (hkey : P key) (value : Option Bool) :
    Within P (ctx.setFlag key value) := by
  cases value with
  | some value => exact h.set hkey _
  | none => exact h

theorem Within.setText (h : Within P ctx) (hkey : P key) (value : Option Text) (byDefault : Text) :
    Within P (ctx.setText key value byDefault) := by
  cases value with
  | some value => exact h.set hkey _
  | none => exact h

theorem Within.setSecret (h : Within P ctx) (hkey : P key) (value : Option Text) :
    Within P (ctx.setSecret key value) := by
  unfold ConfigSectionContext.setSecret
  split
  . exact h.set hkey _
  . exact h

theorem Within.staleUnless (h : Within P ctx) (hkey : P key) (value : Option Text) :
    Within P (ctx.staleUnless key value) := by
  unfold ConfigSectionContext.staleUnless
  split
  . exact h.stale hkey
  . exact h

theorem Within.staleAll {keys : List EnvKey} (h : Within P ctx) (hkeys : ∀ key ∈ keys, P key) :
    Within P (keys.foldl .stale ctx) := by
  induction keys generalizing ctx with
  | nil => exact h
  | cons key keys ih =>
    apply ih
    . exact h.stale (hkeys key List.mem_cons_self)
    . intro k hk
      exact hkeys k (List.mem_cons_of_mem _ hk)

theorem Within.ite {c : Prop} [Decidable c] {ctx₁ ctx₂ : ConfigSectionContext} (h₁ : Within P ctx₁)
    (h₂ : Within P ctx₂) : Within P (if c then ctx₁ else ctx₂) := by
  split
  . exact h₁
  . exact h₂

theorem within_builtInPostgres (database : DatabaseConfigDto) (existing : Record) (h : Within P ctx)
    (hP : ∀ key : EnvKey, key.owner = .database → P key) :
    Within P (applyBuiltInPostgres database existing ctx) := by
  unfold applyBuiltInPostgres
  apply Within.profile
  repeat' apply Within.set _ (hP _ rfl)
  exact h

theorem within_externalPostgres (database : DatabaseConfigDto) (existing : Record) (h : Within P ctx)
    (hP : ∀ key : EnvKey, key.owner = .database → P key) :
    Within P (applyExternalPostgres database existing ctx) := by
  unfold applyExternalPostgres
  apply Within.setText _ (hP _ rfl)
  apply Within.setText _ (hP _ rfl)
  apply Within.setSecret _ (hP _ rfl)
  repeat' apply Within.setText _ (hP _ rfl)
  exact (h.staleUnless (hP _ rfl) _).ite h

theorem within_database (database : DatabaseConfigDto) (existing : Record) (h : Within P ctx)
    (hP : ∀ key : EnvKey, key.owner = .database → P key) :
    Within P (applyDatabaseSection database existing ctx) := by
  have hmode (type : Text) :
      Within P ((ctx.set .databaseType type).setFlag .postgresBuiltin database.builtIn) :=
    (h.set (hP _ rfl) type).setFlag (hP _ rfl) database.builtIn
  have hpool {ctx : ConfigSectionContext} (h : Within P ctx) : Within P (match database.poolSize with
      | some poolSize =>
        ctx.set .databasePoolSize (if poolSize.text = ['0'] then "10".toList else poolSize.text)
      | none => ctx) := by
    split
    . exact h.set (hP _ rfl) _
    . exact h
  unfold applyDatabaseSection
  cases database.type with
  | postgres =>
    have hconnection :=
      (within_builtInPostgres database existing (hmode "postgres".toList) hP).ite
        (c := database.builtIn.getD (savedFlag existing .postgresBuiltin) = true)
        (within_externalPostgres database existing (hmode "postgres".toList) hP)
    have hssl := (hpool hconnection).setFlag (hP .databaseSsl rfl) database.sslEnabled
    exact (hssl.set (hP _ rfl) _).ite hssl
  | sqlite =>
    apply Within.staleAll ((hmode _).set (hP _ rfl) _)
    intro key hkey
    apply hP
    revert key
    decide

theorem within_redis (redis : RedisConfigDto) (existing : Record) (h : Within P ctx)
    (hP : ∀ key : EnvKey, key.owner = .redis → P key) :
    Within P (applyRedisSection redis existing ctx) := by
  have hflags := (h.setFlag (hP .redisEnabled rfl) redis.enabled).setFlag (hP .redisBuiltin rfl)
    redis.builtIn
  have hplaces := (((hflags.set (hP .redisHost rfl) "redis".toList).set (hP .redisPort rfl)
    "6379".toList).staleUnless (hP .redisPassword rfl) redis.password).ite
    (c := redis.builtIn = some true)
    ((hflags.setText (hP .redisHost rfl) redis.host "localhost".toList).setText (hP .redisPort rfl)
      redis.port "6379".toList)
  have hsecret := hplaces.setSecret (hP .redisPassword rfl) redis.password
  exact (hsecret.profile _).ite hsecret

theorem within_builtInMinio (h : Within P ctx) (hP : ∀ key : EnvKey, key.owner = .storage → P key) :
    Within P (applyBuiltInMinio ctx) := by
  unfold applyBuiltInMinio
  apply Within.profile
  repeat' apply Within.set _ (hP _ rfl)
  exact h

theorem within_externalS3 {storage : StorageConfigDto} {existing : Record} (h : Within P ctx)
    (hP : ∀ key : EnvKey, key.owner = .storage → P key) :
    Within P (applyExternalS3 storage existing ctx) := by
  have hflip := (((h.staleUnless (hP .s3AccessKeyId rfl) storage.s3AccessKey).staleUnless
    (hP .s3SecretAccessKey rfl) storage.s3SecretKey).staleUnless (hP .s3Endpoint rfl)
    storage.s3Endpoint).ite
    (c := (storage.builtIn = some false && savedFlag existing .minioBuiltin) = true) h
  have hbucket {ctx : ConfigSectionContext} (h : Within P ctx) : Within P (match storage.s3Bucket with
      | some s3Bucket => ctx.set .s3Bucket s3Bucket
      | none => ctx) := by
    split
    . exact h.set (hP _ rfl) _
    . exact h
  have hregion := (hbucket hflip).setText (hP .s3Region rfl) storage.s3Region "ap-southeast-1".toList
  have hsecrets := (hregion.setSecret (hP .s3AccessKeyId rfl) storage.s3AccessKey).setSecret
    (hP .s3SecretAccessKey rfl) storage.s3SecretKey
  unfold applyExternalS3
  cases hendpoint : storage.s3Endpoint with
  | some s3Endpoint =>
    simp only [hendpoint] at hsecrets
    exact (hsecrets.stale (hP _ rfl)).ite (hsecrets.set (hP _ rfl) _)
  | none =>
    simp only [hendpoint] at hsecrets
    exact hsecrets

theorem within_storage (storage : StorageConfigDto) (existing : Record) (h : Within P ctx)
    (hP : ∀ key : EnvKey, key.owner = .storage → P key) :
    Within P (applyStorageSection storage existing ctx) := by
  have hmode (type : Text) :
      Within P ((ctx.set .storageType type).setFlag .minioBuiltin storage.builtIn) :=
    (h.set (hP _ rfl) type).setFlag (hP _ rfl) storage.builtIn
  unfold applyStorageSection
  cases storage.type with
  | «local» =>
    apply Within.staleAll
    . exact ((hmode _).set (hP _ rfl) _).setText (hP _ rfl) _ _
    . intro key hkey
      apply hP
      revert key
      decide
  | s3 =>
    have hstale := (hmode "s3".toList).stale (hP .storageLocalPath rfl)
    exact (within_builtInMinio hstale hP).ite (within_externalS3 hstale hP)

theorem within_engine {engine : EngineConfigDto} {availableEngines : List Text}
    {ctx' : ConfigSectionContext} (h : Within P ctx)
    (hP : ∀ key : EnvKey, key.owner = .engine → P key)
    (happly : applyEngineSection engine availableEngines ctx = .ok ctx') : Within P ctx' := by
  have hrest {ctx : ConfigSectionContext} (h : Within P ctx) :
      Within P (((ctx.setFlag .puppeteerHeadless engine.headless).setText .sessionDataPath
        engine.sessionDataPath "./data/sessions".toList).setText .puppeteerArgs engine.browserArgs
        "--no-sandbox --disable-setuid-sandbox --disable-dev-shm-usage --disable-gpu".toList) :=
    ((h.setFlag (hP _ rfl) _).setText (hP _ rfl) _ _).setText (hP _ rfl) _ _
  unfold applyEngineSection at happly
  split at happly
  . next type _ =>
    by_cases htype : type ∈ availableEngines
    . simp only [htype, if_true, bind, Except.bind, Except.ok.injEq] at happly
      exact happly ▸ hrest (h.set (hP .engineType rfl) type)
    . simp [htype, bind, Except.bind] at happly
  . exact Except.ok.inj happly ▸ hrest h

theorem within_elim {β : Type} {o : Option β}
    {f : β → ConfigSectionContext → ConfigSectionContext} (h : Within P ctx)
    (hf : ∀ b, o = some b → Within P (f b ctx)) : Within P (o.elim ctx (f · ctx)) := by
  cases o with
  | none => exact h
  | some b => exact hf b rfl

theorem within_sections {config : SaveConfigDto} {existing : Record} {availableEngines : List Text}
    {ctx : ConfigSectionContext} (h : applyConfigSections config existing availableEngines = .ok ctx) :
    Within (fun key => config.carries key.owner = true) ctx := by
  have hkeys {owner : ConfigSection} (hcarries : config.carries owner = true) :
      ∀ key : EnvKey, key.owner = owner → config.carries key.owner = true := by
    intro key hkey
    rwa [hkey]
  have hempty : Within (fun key => config.carries key.owner = true) ⟨[], [], []⟩ := by
    constructor <;> simp
  have hdatabase := within_elim (o := config.database) (f := (applyDatabaseSection · existing))
    hempty fun database hsome =>
      within_database database existing hempty (hkeys (by simp [SaveConfigDto.carries, hsome]))
  have hredis := within_elim (o := config.redis) (f := (applyRedisSection · existing))
    hdatabase fun redis hsome =>
      within_redis redis existing hdatabase (hkeys (by simp [SaveConfigDto.carries, hsome]))
  have hqueue := within_elim (o := config.queue) (f := applyQueueSection) hredis fun queue hsome =>
    have hcarries : config.carries .queue = true := by simp [SaveConfigDto.carries, hsome]
    hredis.setFlag (hkeys hcarries .queueEnabled rfl) queue.enabled
  have hstorage := within_elim (o := config.storage) (f := (applyStorageSection · existing))
    hqueue fun storage hsome =>
      within_storage storage existing hqueue (hkeys (by simp [SaveConfigDto.carries, hsome]))
  unfold applyConfigSections at h
  split at h
  . next engine hsome =>
    exact within_engine hstorage (hkeys (by simp [SaveConfigDto.carries, hsome])) h
  . exact Except.ok.inj h ▸ hstorage

end Within

end OpenWA.Config
