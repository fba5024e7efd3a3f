import OpenWA.Integration.Provisioning
import OpenWA.Js.Json

/-!
This module contains the config that a webhook of an instance is dispatched with: the base config of
the plugin, the slice of the instance's scope and the row of the instance on top of each other.
-/

namespace OpenWA.Integration

open Js

/-- What the resolution does with configs. -/
structure ResolveOps (κ : Type) extends ConfigOps κ where
  deepMerge : κ → κ → κ
  /-- what a property of a config adds as an override, if it is there and truthy -/
  property : κ → String → Option κ

variable {κ : Type}

section Resolution

/-- `sessionConfig[sessionId]`, which falls through to the prototype. -/
def overrideFor (ops : ResolveOps κ) (sessionConfig : List (String × κ)) (sessionId : String) :
    Option κ :=
  match sessionConfig.lookup sessionId with
  | some override => some override
  | none => (sessionConfig.lookup protoKey).bind fun proto => ops.property proto sessionId

def resolvePluginConfig (ops : ResolveOps κ) (base : κ) (sessionConfig : List (String × κ))
    (sessionId : Option String) (sessionScoped : Bool) : κ :=
  match sessionId with
  | none => base
  | some sessionId =>
    if !sessionScoped then base
    else
      match overrideFor ops sessionConfig sessionId with
      | some override => ops.deepMerge base override
      | none => base

def resolveInstanceConfig (ops : ResolveOps κ) (resolved : κ) (instanceConfig : Option κ) : κ :=
  match instanceConfig with
  | some config => ops.deepMerge resolved config
  | none => resolved

/-- `list` is what the lookup of the rows yields, `none` when it fails. -/
def scopeHasAtMostOneInstance (list : Option (List (PluginInstance κ))) (scope : Option String) :
    Bool :=
  match scope, list with
  | none, _ | some "", _ | _, none => false
  | some scope, some rows =>
    (rows.filter fun row => row.enabled && row.sessionScope == some scope).length ≤ 1

/-- The config that the worker gets; `listed` says whether the rows can be listed. -/
def dispatchConfig (ops : ResolveOps κ) (listed : Bool) (s : Provisioned κ) (instanceId : String) : κ :=
  let inst := s.instances.resolve instanceId
  let scope := inst.bind (·.sessionScope)
  let list := if listed then some s.instances.rows else none
  let resolved :=
    if scopeHasAtMostOneInstance list scope then
      resolvePluginConfig ops s.plugin.config s.plugin.sessionConfig scope
        (s.plugin.sessionScoped ≠ some false)
    else
      s.plugin.config
  resolveInstanceConfig ops resolved (inst.bind (·.config))

end Resolution

/-! ### Configs as objects -/

section Objects

mutual

/-- Nested objects are merged key by key, everything else is replaced. -/
def deepMerge (base override : Fields) : Fields :=
  match override with
  | .nil => base
  | .cons key value rest => deepMerge (base.set key (mergeValue (base.get? key) value)) rest

def mergeValue (baseValue : Option Json) (value : Json) : Json :=
  match value with
  | .object fields =>
    match baseValue with
    | some (.object base) => .object (deepMerge base fields)
    | _ => value
  | _ => value

end

/-- `Object.entries` of a list of values -/
def indexed (values : List Json) : Fields :=
  .ofList (values.zipIdx.map fun entry => (toString entry.2, entry.1))

/-- What `deepMerge` goes through of a truthy value. -/
def overrideEntries (value : Json) : Option Fields :=
  match value with
  | .null | .bool false | .string "" => none
  | .bool true => some .nil
  | .number n => if n = 0 then none else some .nil
  | .string s => some (indexed (s.toList.map fun c => .string (String.singleton c)))
  | .array items => some (indexed items.toList)
  | .object fields => some fields

def secretSentinel : Json := .string "***"

/-- `restoreSecretConfig` for a plugin without a schema -/
def restoreSecrets (incoming : Fields) (existing : Option Fields) : Fields :=
  match incoming with
  | .nil => .nil
  | .cons key value rest =>
    let restored := restoreSecrets rest existing
    if value ≠ secretSentinel then .cons key value restored
    else
      match existing.bind fun fields => fields.get? key with
      | none | some .null | some (.string "") => restored
      | some stored => .cons key stored restored

def objectOps : ResolveOps Fields where
  empty := .nil
  isEmpty config := config = .nil
  merge := .spread
  restoreSecretConfig := restoreSecrets
  deepMerge := deepMerge
  property config key := (config.get? key).bind overrideEntries

end Objects
end OpenWA.Integration
