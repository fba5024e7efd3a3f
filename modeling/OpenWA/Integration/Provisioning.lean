import Mathlib.Algebra.GroupWithZero.Nat
import Mathlib.Data.List.Nodup

/-!
This module contains the provisioning of plugin instances: the rows of one plugin, the runtime state
of that plugin, and the operations of the instance controller that keep the two in step.
-/

namespace OpenWA.Integration

/-- What provisioning does with a plugin config, which it treats as an opaque JSON object. -/
structure ConfigOps (κ : Type) where
  empty : κ
  isEmpty : κ → Bool
  /-- `{ ...base, ...patch }` -/
  merge : κ → κ → κ
  /-- `restoreSecretConfig(incoming, existing, schema)` for the schema of the plugin -/
  restoreSecretConfig : κ → Option κ → κ

/-- A row of `plugin_instances`. -/
structure PluginInstance (κ : Type) where
  instanceId : String
  sessionScope : Option String
  secret : String
  verifyToken : Option String
  config : Option κ
  enabled : Bool

/-- What assigning to this key of an object sets is its prototype. -/
def protoKey : String := "__proto__"

/--
The loaded plugin. `activeSessions` is `none` while no operator has set it; an entry `protoKey` of
`sessionConfig` is the prototype of that object.
-/
structure Plugin (κ : Type) where
  sessionScoped : Option Bool
  ingressRoutes : List String
  permissions : List String
  config : κ
  activeSessions : Option (List String)
  sessionConfig : List (String × κ)

/-- The rows of one plugin; its instance ids are unique. -/
structure InstanceTable (κ : Type) where
  rows : List (PluginInstance κ)
  nodup : (rows.map PluginInstance.instanceId).Nodup

/-- The instance rows of the plugin and its runtime state. -/
structure Provisioned (κ : Type) where
  instances : InstanceTable κ
  plugin : Plugin κ

inductive HttpError where
  | badRequest (message : String)
  | forbidden (message : String)
  | notFound (message : String)
  | conflict (message : String)

variable {κ : Type}

section Loader

/-- A call into the plugin loader: it changes the plugin and may throw midway. -/
abbrev Loader (κ : Type) := ExceptT String (StateM (Plugin κ))

def globalPluginError (pluginId suffix : String) : String :=
  "Plugin " ++ pluginId ++ " is global (not session-scoped) and " ++ suffix

def updatePluginConfig (ops : ConfigOps κ) (config : κ) : Loader κ Unit :=
  modify fun plugin => { plugin with config := ops.merge plugin.config config }

def setPluginSessions (pluginId : String) (sessions : List String) : Loader κ Unit := do
  if (← get).sessionScoped = some false then
    throw (globalPluginError pluginId "cannot be activated per session")
  modify fun plugin => { plugin with activeSessions := some sessions }

def setPluginSessionConfig (ops : ConfigOps κ) (pluginId : String) (sessionId : String) (config : κ) :
    Loader κ Unit := do
  if (← get).sessionScoped = some false then
    throw (globalPluginError pluginId "has no per-session config")
  modify fun plugin =>
    -- the copy has no prototype of its own until it is assigned one
    let rest := plugin.sessionConfig.filter fun entry => entry.1 != sessionId && entry.1 != protoKey
    if ops.isEmpty config then
      { plugin with sessionConfig := rest }
    else
      { plugin with sessionConfig := rest ++ [(sessionId, config)] }

end Loader

section ScopeBinding

/-- `!scope || scope === '*'` -/
def isWildcard (scope : Option String) : Bool :=
  match scope with
  | none => true
  | some scope => scope == "" || scope == "*"

/-- `plugin.activeSessions ?? []` -/
def Plugin.sessions (plugin : Plugin κ) : List String := plugin.activeSessions.getD []

/-- `set.add(scope)` -/
def addSession (scope : String) (sessions : List String) : List String :=
  if scope ∈ sessions then sessions else sessions ++ [scope]

/-- Whether an enabled row binds all sessions. -/
def anyWildcard (instances : List (PluginInstance κ)) : Bool :=
  instances.any fun i => i.enabled && isWildcard i.sessionScope

/-- Whether an enabled row binds exactly `scope`. -/
def anyBinds (instances : List (PluginInstance κ)) (scope : String) : Bool :=
  instances.any fun i => i.enabled && i.sessionScope == some scope

/-- The body of `applyScopeBinding` for the provisioning path, where `additive` is not set. -/
def bindScope (ops : ConfigOps κ) (pluginId : String) (instances : List (PluginInstance κ))
    (scope : Option String) (config : κ) (activate : Bool) : Loader κ Unit := do
  match scope with
  | some scope =>
    if isWildcard (some scope) then
      bindWildcard
    else if !activate && anyBinds instances scope then
      setPluginSessionConfig ops pluginId scope ops.empty
    else
      setPluginSessionConfig ops pluginId scope (if activate then config else ops.empty)
      let current := (← get).sessions
      let set := (current.filter (· != "*")).eraseDups
      let set := if activate then addSession scope set else set.filter (· != scope)
      let set := if "*" ∈ current && anyWildcard instances then addSession "*" set else set
      setPluginSessions pluginId set
  | none => bindWildcard
where
  bindWildcard : Loader κ Unit := do
    if activate then
      updatePluginConfig ops config
      setPluginSessions pluginId ["*"]
    else if !anyWildcard instances then
      let current := (← get).sessions
      setPluginSessions pluginId (current.filter (· != "*"))

/-- A failed binding leaves what it changed so far and is reported as an audit warning only. -/
def applyScopeBinding (ops : ConfigOps κ) (pluginId : String) (scope : Option String) (config : κ)
    (activate : Bool) (s : Provisioned κ) : Provisioned κ :=
  { s with
    plugin := ((bindScope ops pluginId s.instances.rows scope config activate).run s.plugin).2 }

end ScopeBinding

section Instances

/-- The white space `String.prototype.trim` removes. -/
def isTrimmed (c : Char) : Bool :=
  [0x09, 0x0A, 0x0B, 0x0C, 0x0D, 0x20, 0xA0, 0x1680, 0x2028, 0x2029, 0x202F, 0x205F, 0x3000,
    0xFEFF].contains c.toNat || (0x2000 ≤ c.toNat && c.toNat ≤ 0x200A)

/-- `s.trim()` -/
def trim (s : String) : String :=
  String.ofList ((s.toList.dropWhile isTrimmed).reverse.dropWhile isTrimmed).reverse

/-- `s.length`, which counts UTF-16 code units. -/
def jsLength (s : String) : Nat :=
  (s.toList.map fun c => if c.toNat < 0x10000 then 1 else 2).sum

def normalizeSecret (generated : String) (supplied : Option String) : Except HttpError String :=
  match supplied with
  | none => .ok generated
  | some supplied =>
    let s := trim supplied
    if jsLength s < 16 then
      .error (.badRequest "instance secret must be a non-empty string of at least 16 characters")
    else
      .ok s

namespace InstanceTable

def empty : InstanceTable κ where
  rows := []
  nodup := by simp

def resolve (t : InstanceTable κ) (instanceId : String) : Option (PluginInstance κ) :=
  t.rows.find? fun i => i.instanceId == instanceId

theorem not_mem_ids_of_resolve {t : InstanceTable κ} {instanceId : String}
    (h : ¬(t.resolve instanceId).isSome = true) :
    instanceId ∉ t.rows.map PluginInstance.instanceId := by
  simp [resolve] at h
  simpa using h

/-- `repo.save` of a new row. -/
def insert (t : InstanceTable κ) (inst : PluginInstance κ)
    (h : ¬(t.resolve inst.instanceId).isSome = true) : InstanceTable κ where
  rows := t.rows ++ [inst]
  nodup := by
    have := not_mem_ids_of_resolve h
    simp only [List.map_append, List.map_cons, List.map_nil]
    apply List.Nodup.append t.nodup (List.nodup_singleton _)
    simpa using this

/-- `repo.save` of a row that exists. -/
def save (t : InstanceTable κ) (inst : PluginInstance κ) : InstanceTable κ where
  rows := t.rows.map fun i => if i.instanceId == inst.instanceId then inst else i
  nodup := by
    rw [List.map_map]
    have : PluginInstance.instanceId ∘
        (fun i => if i.instanceId == inst.instanceId then inst else i)
          = PluginInstance.instanceId := by
      funext i
      by_cases h : i.instanceId = inst.instanceId <;> simp [h]
    rw [this]
    exact t.nodup

/-- `repo.delete` -/
def delete (t : InstanceTable κ) (instanceId : String) : InstanceTable κ where
  rows := t.rows.filter fun i => i.instanceId != instanceId
  nodup := t.nodup.sublist (List.filter_sublist.map _)

end InstanceTable

/-- `scope || null` -/
def orNull (scope : Option String) : Option String :=
  if scope = some "" then none else scope

structure CreateInstanceDto (κ : Type) where
  instanceId : String
  sessionScope : Option String
  verifyToken : Option String
  secret : Option String
  config : Option κ

/-- A field that is `none` is absent from the request; `sessionScope` may also be sent as `null`. -/
structure UpdateInstanceDto (κ : Type) where
  enabled : Option Bool
  sessionScope : Option (Option String)
  config : Option κ

def sessionScopeVisible (allowedSessions : Option (List String)) (sessionScope : Option String) :
    Bool :=
  match allowedSessions with
  | none | some [] => true
  | some allowed =>
    match sessionScope with
    | none => false
    | some scope => scope != "*" && allowed.contains scope

/-- The row `setEnabled` and then `update` leave of `inst`. -/
def PluginInstance.patched (ops : ConfigOps κ) (dto : UpdateInstanceDto κ) (inst : PluginInstance κ) :
    PluginInstance κ where
  instanceId := inst.instanceId
  secret := inst.secret
  verifyToken := inst.verifyToken
  enabled := dto.enabled.getD inst.enabled
  sessionScope :=
    match dto.sessionScope with
    | some scope => orNull scope
    | none => inst.sessionScope
  config :=
    match dto.config with
    | some config => some (ops.restoreSecretConfig config inst.config)
    | none => inst.config

end Instances

section Controller

/-- A request of the provisioning API, with the `allowedSessions` of the calling key. -/
inductive Op (κ : Type) where
  | create (allowedSessions : Option (List String)) (dto : CreateInstanceDto κ) (generated : String)
  | patch (allowedSessions : Option (List String)) (instanceId : String) (dto : UpdateInstanceDto κ)
  | remove (allowedSessions : Option (List String)) (instanceId : String)

def assertIngressCapable (pluginId : String) (plugin : Plugin κ) : Except HttpError Unit :=
  if plugin.ingressRoutes.isEmpty || !plugin.permissions.contains "webhook:ingress" then
    .error (.badRequest ("plugin " ++ pluginId ++ " is not ingress-capable"))
  else
    .ok ()

def assertScopeWritable (allowedSessions : Option (List String)) (sessionScope : Option String) :
    Except HttpError Unit :=
  if sessionScopeVisible allowedSessions sessionScope then
    .ok ()
  else
    .error (.forbidden "sessionScope is outside the API key's allowed sessions")

def resolveVisible (instances : InstanceTable κ) (allowedSessions : Option (List String))
    (instanceId : String) : Except HttpError (PluginInstance κ) :=
  match instances.resolve instanceId with
  | none => .error (.notFound "instance not found")
  | some inst =>
    if sessionScopeVisible allowedSessions inst.sessionScope then
      .ok inst
    else
      .error (.notFound "instance not found")

/-- The row `create` stores for an accepted request. -/
def CreateInstanceDto.toRow (dto : CreateInstanceDto κ) (secret : String) : PluginInstance κ where
  instanceId := dto.instanceId
  sessionScope := orNull dto.sessionScope
  secret := secret
  verifyToken := dto.verifyToken
  config := dto.config
  enabled := true

def create (ops : ConfigOps κ) (pluginId : String) (allowedSessions : Option (List String))
    (dto : CreateInstanceDto κ) (generated : String) (s : Provisioned κ) :
    Except HttpError (Provisioned κ) := do
  assertIngressCapable pluginId s.plugin
  assertScopeWritable allowedSessions dto.sessionScope
  if h : (s.instances.resolve dto.instanceId).isSome then
    throw (.conflict ("instance " ++ dto.instanceId ++ " already exists for plugin " ++ pluginId))
  else
    let secret ← normalizeSecret generated dto.secret
    let inst := dto.toRow secret
    let s := { s with instances := s.instances.insert inst h }
    return applyScopeBinding ops pluginId inst.sessionScope (inst.config.getD ops.empty) inst.enabled
      s

/-- The bindings `patch` applies once the rows are stored: the old scope is torn down first. -/
def rebindScope (ops : ConfigOps κ) (pluginId : String) (previousScope : Option String)
    (updated : PluginInstance κ) (s : Provisioned κ) : Provisioned κ :=
  let s :=
    if previousScope != updated.sessionScope then
      applyScopeBinding ops pluginId previousScope ops.empty false s
    else
      s
  applyScopeBinding ops pluginId updated.sessionScope (updated.config.getD ops.empty)
    updated.enabled s

def patch (ops : ConfigOps κ) (pluginId : String) (allowedSessions : Option (List String))
    (instanceId : String) (dto : UpdateInstanceDto κ) (s : Provisioned κ) :
    Except HttpError (Provisioned κ) := do
  let inst ← resolveVisible s.instances allowedSessions instanceId
  if let some scope := dto.sessionScope then
    assertScopeWritable allowedSessions scope
  let updated := inst.patched ops dto
  let s := { s with instances := s.instances.save updated }
  return rebindScope ops pluginId inst.sessionScope updated s

def remove (ops : ConfigOps κ) (pluginId : String) (allowedSessions : Option (List String))
    (instanceId : String) (s : Provisioned κ) : Except HttpError (Provisioned κ) := do
  let inst ← resolveVisible s.instances allowedSessions instanceId
  let s := { s with instances := s.instances.delete instanceId }
  return applyScopeBinding ops pluginId inst.sessionScope ops.empty false s

def handle (ops : ConfigOps κ) (pluginId : String) (op : Op κ) (s : Provisioned κ) :
    Except HttpError (Provisioned κ) :=
  match op with
  | .create allowedSessions dto generated => create ops pluginId allowedSessions dto generated s
  | .patch allowedSessions instanceId dto => patch ops pluginId allowedSessions instanceId dto s
  | .remove allowedSessions instanceId => remove ops pluginId allowedSessions instanceId s

/-- A refused request changes nothing. -/
def step (ops : ConfigOps κ) (pluginId : String) (s : Provisioned κ) (op : Op κ) : Provisioned κ :=
  match handle ops pluginId op s with
  | .ok s => s
  | .error _ => s

def run (ops : ConfigOps κ) (pluginId : String) (s : Provisioned κ) (requests : List (Op κ)) :
    Provisioned κ :=
  requests.foldl (step ops pluginId) s

end Controller

end OpenWA.Integration
