import OpenWA.Async.System
import OpenWA.Js.ExactNumber
import OpenWA.Js.Json
import OpenWA.Js.Text

/-!
This module contains what stands between a plugin and the host: what its manifest declares, what the
operator activated it for, and the gates in front of the capabilities.
-/

namespace OpenWA.Capability

open Async Js

/-- What a permission is for, by the name a manifest declares it with. -/
inductive Permission where
  | messagesSend
  | engineRead
  | netFetch
  | storageUse
  | conversationSend
deriving DecidableEq

def Permission.name (permission : Permission) : String :=
  match permission with
  | .messagesSend => "messages:send"
  | .engineRead => "engine:read"
  | .netFetch => "net:fetch"
  | .storageUse => "storage:use"
  | .conversationSend => "conversation:send"

structure PluginNet where
  allow : Option (List String)
  allowConfigHosts : Option (List String)
deriving DecidableEq

structure PluginManifest where
  id : String
  permissions : Option (List String)
  sessions : Option (List String)
  sessionScoped : Option Bool
  net : Option PluginNet
deriving DecidableEq

/-- What the operator changes of a `PluginInstance`. -/
structure Activation where
  activeSessions : Option (List String)
  config : Option Fields
  sessionConfig : Option (List (String × Fields))

structure MappingKey where
  sessionId : String
  chatId : String
  pluginId : String
  instanceId : String
deriving DecidableEq

inductive PluginError where
  /-- `PluginCapabilityError` -/
  | capability (message : String)
  | plain (message : String)
  /-- `ConversationMappingConflict` -/
  | conflict (key : MappingKey) (providerConversationId : String)
  | uniqueViolation
  | notFound
  /-- what a service of the host rejects with -/
  | host (message : String)
deriving DecidableEq

abbrev Checked (α : Type) := Except PluginError α

/-- What crosses the boundary to a worker, in either direction. -/
inductive Value where
  | undefined
  | null
  | bool (b : Bool)
  | number (n : ExactNumber)
  | string (s : String)
  | array (items : List Value)
  | object (fields : List (String × Value))

section Gates

variable (manifest : PluginManifest) (activation : Activation)

def assertPermission (permission : Permission) : Checked Unit :=
  if (manifest.permissions.getD []).contains permission.name then .ok ()
  else
    .error (.capability ("Plugin " ++ manifest.id ++ " is missing the '" ++ permission.name ++
      "' permission required for this capability. Add \"" ++ permission.name ++
      "\" to the \"permissions\" array in the plugin's manifest.json, then reload the plugin."))

def assertSessionAllowed (sessionId : String) : Checked Unit :=
  let allowed := manifest.sessions.getD ["*"]
  if !allowed.contains "*" && !allowed.contains sessionId then
    .error (.capability ("Plugin " ++ manifest.id ++ " is not permitted to act on session " ++
      sessionId))
  else .ok ()

def isPluginActiveForSession (sessionScoped : Bool) (activeSessions : List String)
    (sessionId : Option String) : Bool :=
  match sessionId with
  | none => true
  | some sessionId =>
    !sessionScoped || activeSessions.contains "*" || activeSessions.contains sessionId

def isHookActive (sessionId : Option String) : Bool :=
  isPluginActiveForSession (manifest.sessionScoped.getD true)
    (activation.activeSessions.getD ["*"]) sessionId

def assertSessionActive (sessionId : String) : Checked Unit := do
  assertSessionAllowed manifest sessionId
  if !isHookActive manifest activation (some sessionId) then
    throw (.capability ("Plugin " ++ manifest.id ++ " is not activated for session " ++ sessionId))

/-- `engines` says for which sessions `getEngine` answers. -/
def resolveEngine (engines : String → Bool) (sessionId : String) : Checked Unit := do
  assertSessionActive manifest activation sessionId
  if !engines sessionId then
    throw (.capability ("Session " ++ sessionId ++
      " has no active engine (unknown or not started)"))

def resolveEngineRead (engines : String → Bool) (sessionId : String) : Checked Unit := do
  assertPermission manifest .engineRead
  resolveEngine manifest activation engines sessionId

variable {manifest activation} {sessionId : String}

theorem isHookActive_iff : isHookActive manifest activation (some sessionId) = true ↔
    manifest.sessionScoped = some false ∨ "*" ∈ activation.activeSessions.getD ["*"] ∨
      sessionId ∈ activation.activeSessions.getD ["*"] := by
  simp only [isHookActive, isPluginActiveForSession, Bool.or_eq_true, Bool.not_eq_true',
    List.contains_iff_mem]
  rcases manifest.sessionScoped with _ | _ | _ <;> simp

/-- The manifest admits the session and the operator activated the plugin for it. -/
theorem assertSessionActive_ok_iff : assertSessionActive manifest activation sessionId = .ok () ↔
    assertSessionAllowed manifest sessionId = .ok () ∧
      isHookActive manifest activation (some sessionId) = true := by
  simp only [assertSessionActive]
  cases hallowed : assertSessionAllowed manifest sessionId with
  | error e => simp [bind, Except.bind]
  | ok _ =>
    cases hactive : isHookActive manifest activation (some sessionId) with
    | false => simp [bind, Except.bind, throw, throwThe, MonadExceptOf.throw]
    | true => simp [bind, Except.bind, pure, Except.pure]

end Gates
end OpenWA.Capability
