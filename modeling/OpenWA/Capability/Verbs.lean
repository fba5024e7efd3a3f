import OpenWA.Capability.Mappings
import OpenWA.Identity.WaId

/-!
This module contains the capabilities of a plugin and the router that leads the requests of a worker to
them.
-/

namespace OpenWA.Capability

open Async Js

/-- What the URL parser finds in a text. -/
structure Url where
  protocol : String
  username : String
  password : String
  hostname : String
  /-- empty for the default port of the protocol -/
  port : String
deriving DecidableEq

def Url.host (u : Url) : String := if u.port = "" then u.hostname else u.hostname ++ ":" ++ u.port

/-- What the runtime supplies: the URL parser, `none` where it throws, and `toLowerCase`. -/
structure Runtime where
  parseUrl : String → Option Url
  toLowerCase : Text → Text

/-- A text that is there and not empty. -/
def truthy (t : Option String) : Option String := t.filter (· ≠ "")

/-! ### Engines and storage -/

section Reads

variable (manifest : PluginManifest)

/-- The gate of a capability, then the call that it guards. -/
def guarded (check : Host → Checked Unit) (effect : Effect) : Job Value := do
  issue fun s => do
    check s
    pure effect
  settle

def Host.assertSessionActive (s : Host) (sessionId : String) : Checked Unit :=
  Capability.assertSessionActive manifest (s.activation manifest.id) sessionId

def Host.resolveEngine (s : Host) (sessionId : String) : Checked Unit :=
  Capability.resolveEngine manifest (s.activation manifest.id) s.engines sessionId

def Host.resolveEngineRead (s : Host) (sessionId : String) : Checked Unit :=
  Capability.resolveEngineRead manifest (s.activation manifest.id) s.engines sessionId

def messageCapability (sessionId : String) (message : Message) : Job Value :=
  guarded (fun s => do
    assertPermission manifest .messagesSend
    s.resolveEngine manifest sessionId) ⟨manifest, .send .messages sessionId message⟩

def engineCapability (sessionId : String) (read : EngineRead) : Job Value :=
  guarded (fun s => s.resolveEngineRead manifest sessionId)
    ⟨manifest, .read sessionId read⟩

/-- `Math.trunc` -/
def trunc (x : ExactNumber) : ExactNumber :=
  match x with
  | .finite r => .finite (if 0 ≤ r then ⌊r⌋ else ⌈r⌉)
  | x => x

def historyLimit (limit : Value) : ExactNumber :=
  let given :=
    match limit with
    | .undefined | .null => .finite 50
    | .number n => n
    | _ => .nan
  ((trunc given).max (.finite 1)).min (.finite 100)

def getChatHistory (sessionId chatId : String) (limit includeMedia : Value) : Job Value :=
  engineCapability manifest sessionId (.getChatHistory chatId (historyLimit limit)
    (match includeMedia with
      | .undefined | .null => .bool false
      | given => given))

def canonicalChatId (rt : Runtime) (sessionId chatId : String) : Job Value := do
  issue fun s => do
    s.resolveEngineRead manifest sessionId
    pure ⟨manifest, .read sessionId (.canonicalChatId chatId)⟩
  memory fun s =>
    .ok (.string (String.ofList (Identity.toNeutralJid rt.toLowerCase chatId.toList s.phones)))

def storageCapability (call : StorageCall) : Job Value :=
  guarded (fun _ => assertPermission manifest .storageUse) ⟨manifest, .store call⟩

end Reads

/-! ### Outbound requests -/

section Net

def MAX_INFLIGHT_FETCHES : Nat := 16

variable (rt : Runtime)

/-- The hosts of the config values that are URLs an operator may have named. -/
def configHost (value : Option Json) : Option String :=
  match value with
  | some (.string raw) =>
    match rt.parseUrl raw with
    | some u =>
      if u.protocol ≠ "https:" || u.username ≠ "" || u.password ≠ "" then none
      -- a config value never supplies the wildcard
      else if u.hostname.toList.contains '*' then none
      else some u.host
    | none => none
  | _ => none

def effectiveNetAllow (allow allowConfigHosts : Option (List String)) (config : Fields) :
    List String :=
  allow.getD [] ++ (allowConfigHosts.getD []).filterMap fun key => configHost rt (config.get? key)

def isNetHostAllowed (allow : List String) (url : String) : Bool :=
  match rt.parseUrl url with
  | none => false
  | some u =>
    if u.protocol ≠ "http:" && u.protocol ≠ "https:" then false
    else if allow.contains "*" then true
    else
      let port := if u.port ≠ "" then u.port else if u.protocol = "https:" then "443" else "80"
      allow.contains (u.hostname ++ ":" ++ port) || allow.contains u.hostname

variable (manifest : PluginManifest)

/-- A slot is taken before the request and given back in `finally`. -/
def performPluginFetch (url : String) (init : Value) : Job Value := do
  Task.atomic .takeSlot fun _ s =>
    if s.inFlightFetches ≥ MAX_INFLIGHT_FETCHES then
      (s, .error (.plain ("too many concurrent plugin net.fetch calls (max " ++
        toString MAX_INFLIGHT_FETCHES ++ "); retry shortly")))
    else
      ({ s with inFlightFetches := s.inFlightFetches + 1,
                effects := s.effects ++ [⟨manifest, .fetch url init⟩] }, .ok ())
  settle.andFinally
    (.atomic .releaseSlot fun _ s =>
      ({ s with inFlightFetches := s.inFlightFetches - 1 }, .ok ()))

/-- The config of the plugin and those of its sessions. -/
def Host.ownConfigs (s : Host) (pluginId : String) : List Fields :=
  (s.activation pluginId).config.getD .nil ::
    ((s.activation pluginId).sessionConfig.getD []).map (·.2)

def Host.instanceConfigs (s : Host) (pluginId : String) : List Fields :=
  ((s.instances pluginId).filter (·.enabled)).map fun row => row.config.getD .nil

def enabledInstanceConfigs (pluginId : String) : Job (List Fields) :=
  (query fun s => (s, .ok (s.instanceConfigs pluginId))).catch' fun _ => .pure []

/-- The allowlist is the manifest's, widened by the hosts that any config of the plugin names. -/
def netAllow (configs : List Fields) : List String :=
  (configs.flatMap (effectiveNetAllow rt (manifest.net.bind (·.allow))
    (manifest.net.bind (·.allowConfigHosts)))).eraseDups

def netCapability (url : String) (init : Value) : Job Value := do
  let own ← memory fun s => do
    assertPermission manifest .netFetch
    pure (s.ownConfigs manifest.id)
  let instances ← enabledInstanceConfigs manifest.id
  if !isNetHostAllowed rt (netAllow rt manifest (own ++ instances)) url then
    throw (.capability ("Plugin " ++ manifest.id ++ " may not fetch " ++ url ++
      " — add its host to net.allow or net.allowConfigHosts"))
  else
    performPluginFetch manifest url init

end Net

/-! ### Conversations -/

/-- `ConversationSendEnvelope`; of `source` only the id is read. -/
structure Envelope where
  sessionId : Option String
  instanceId : Option String
  chatId : Option String
  type : Option String
  text : Option String
  mediaUrl : Option String
  replyTo : Option String
  linkPreview : Option Bool
  latitude : Option ExactNumber
  longitude : Option ExactNumber
  externalConversationId : Option String
deriving DecidableEq

section Conversations

/-- A finite number between `-bound` and `bound`. -/
def isWithin (bound : Rat) (v : ExactNumber) : Bool :=
  match v with
  | .finite r => -bound ≤ r ∧ r ≤ bound
  | _ => false

def isValidLatitude (v : ExactNumber) : Bool := isWithin 90 v

def isValidLongitude (v : ExactNumber) : Bool := isWithin 180 v

/-- `dispatchConversationMedia`; `none` for a type that is not one of the media. -/
def mediaMessage (type : Option String) (chatId url : String) (caption : Option String) :
    Option Message :=
  match type with
  | some "image" => some (.image chatId url caption)
  | some "video" => some (.video chatId url caption)
  | some "audio" => some (.audio chatId url caption false)
  | some "voice" => some (.audio chatId url caption true)
  | some "file" => some (.document chatId url caption)
  | _ => none

/-- The message an envelope stands for, once its chat is known. -/
def deliver (env : Envelope) (chatId : String) : Checked Message :=
  if env.type = some "location" then
    if (truthy env.replyTo).isSome then
      .error (.capability "conversation.send: replyTo is not supported for location messages")
    else
      match env.latitude.filter isValidLatitude, env.longitude.filter isValidLongitude with
      | some latitude, some longitude => .ok (.location chatId latitude longitude env.text)
      | _, _ =>
        .error (.capability
          "conversation.send: type location requires latitude (-90..90) and longitude (-180..180)")
  else
    match (truthy env.mediaUrl).bind fun url => mediaMessage env.type chatId url env.text with
    | some message =>
      if (truthy env.replyTo).isSome then
        .error (.capability "conversation.send: replyTo is not supported for media messages")
      else .ok message
    | none =>
      match truthy env.replyTo with
      | some quoted => .ok (.reply chatId quoted (env.text.getD ""))
      | none => .ok (.text chatId (env.text.getD "") env.linkPreview)

variable (manifest : PluginManifest)

/-- The chat of an envelope that names a conversation of the provider instead. -/
def resolveChatId (env : Envelope) (sessionId : String) : Job String :=
  match truthy env.instanceId, truthy env.externalConversationId with
  | some instanceId, some conversationId => do
    match ← getByProvider manifest.id instanceId conversationId with
    | none =>
      throw (.capability ("Plugin " ++ manifest.id ++ ": no conversation mapping for instance " ++
        instanceId ++ " / " ++ conversationId))
    | some mapping =>
      if mapping.key.sessionId ≠ sessionId then
        -- a row of a session that was deleted is taken along to the session of the envelope
        if ← isSessionGone mapping.key.sessionId then
          rebindSession mapping.id sessionId
          pure mapping.key.chatId
        else
          throw (.capability ("Plugin " ++ manifest.id ++ ": conversation mapping for instance " ++
            instanceId ++ " / " ++ conversationId ++ " belongs to session " ++
            mapping.key.sessionId ++ ", not " ++ sessionId))
      else
        pure mapping.key.chatId
  | _, _ =>
    throw (.capability ("Plugin " ++ manifest.id ++
      ": conversation.send requires chatId, or both instanceId and source to resolve one"))

/-- `env.chatId ?? (await deps.resolveChatId(env))` -/
def chatIdOf (env : Envelope) (sessionId : String) : Job String :=
  match env.chatId with
  | some chatId => pure chatId
  | none => resolveChatId manifest env sessionId

/-- The checks of `send` before its first await; an envelope of `none` has no properties. -/
def checkEnvelope (env : Option Envelope) (s : Host) : Checked (Envelope × String) := do
  assertPermission manifest .conversationSend
  match env with
  | none => throw (.plain "Cannot read properties of undefined (reading 'sessionId')")
  | some env =>
    match truthy env.sessionId with
    | none => throw (.capability "conversation.send: sessionId is required")
    | some sessionId =>
      s.assertSessionActive manifest sessionId
      pure (env, sessionId)

/-- `send` of the facade. -/
def conversationSend (env : Option Envelope) : Job Value := do
  let (env, sessionId) ← memory (checkEnvelope manifest env)
  let chatId ← chatIdOf manifest env sessionId
  issue fun _ => do
    let message ← deliver env chatId
    pure ⟨manifest, .send .conversations sessionId message⟩
  settle

/-- The key of a mapping as the plugin gives it. -/
structure PluginKey where
  sessionId : String
  chatId : String
  instanceId : String
deriving DecidableEq

def PluginKey.mappingKey (key : PluginKey) : MappingKey where
  sessionId := key.sessionId
  chatId := key.chatId
  pluginId := manifest.id
  instanceId := key.instanceId

/-- The gate of the capabilities that work on the mapping of a session. -/
def assertConversation (sessionId : String) : Job Unit :=
  memory fun s => do
    assertPermission manifest .conversationSend
    s.assertSessionActive manifest sessionId

def handoverSet (key : PluginKey) (state : Value) : Job Value := do
  assertConversation manifest key.sessionId
  match ← get (key.mappingKey manifest) with
  | none =>
    throw (.capability ("Plugin " ++ manifest.id ++ ": no conversation mapping for session " ++
      key.sessionId ++ " / chat " ++ key.chatId ++ " / instance " ++ key.instanceId))
  | some mapping =>
    setHandover mapping.id state
    pure .undefined

def mappingsUpsert (key : PluginKey) (providerConversationId : String) : Job Value := do
  assertConversation manifest key.sessionId
  (upsert (key.mappingKey manifest) providerConversationId).catch' fun e =>
    match e with
    | .conflict .. => do
      match ← getByProvider manifest.id key.instanceId providerConversationId with
      | none => .throw e
      | some stale =>
        -- only the row of a session that was deleted gives way
        if ← isSessionGone stale.key.sessionId then
          deleteRow stale.id
          upsert (key.mappingKey manifest) providerConversationId
        else .throw e
    | e => .throw e
  pure .undefined

/-- The plugin is told of a row. -/
def tell (check : Host → Checked Unit) (mapping : ConversationMapping) (view : Value) :
    Job Value := do
  issue fun s => do
    check s
    pure ⟨manifest, .told mapping⟩
  pure view

def mappingsGet (key : PluginKey) : Job Value := do
  assertConversation manifest key.sessionId
  match ← get (key.mappingKey manifest) with
  | none => pure .null
  | some m =>
    tell manifest (fun _ => pure ()) m (.object [("providerConversationId",
      .string m.providerConversationId), ("handoverState", m.handoverState)])

def mappingsGetByProvider (instanceId providerConversationId : String) : Job Value := do
  memory fun _ => assertPermission manifest .conversationSend
  match ← getByProvider manifest.id instanceId providerConversationId with
  | none => pure .null
  | some m =>
    tell manifest (·.assertSessionActive manifest m.key.sessionId) m (.object [("sessionId",
      .string m.key.sessionId), ("chatId", .string m.key.chatId),
      ("handoverState", m.handoverState)])

end Conversations

/-! ### The router -/

section Router

def arg (args : List Value) (index : Nat) : Value := args[index]?.getD .undefined

/-- `value[key]` of a value that has properties -/
def Value.get (value : Value) (key : String) : Value :=
  match value with
  | .object fields => (fields.lookup key).getD .undefined
  | _ => .undefined

def nonEmpty (value : Value) : Option String :=
  match value with
  | .string s => truthy (some s)
  | _ => none

/-- The argument `index` as a text. -/
def textArg (verb : String) (args : List Value) (index : Nat) : Checked String :=
  match nonEmpty (arg args index) with
  | some s => .ok s
  | none =>
    .error (.plain ("Capability " ++ verb ++ ": argument " ++ toString index ++
      " must be a non-empty string"))

def mappingKeyArg (verb : String) (args : List Value) (index : Nat) : Checked PluginKey :=
  let k := arg args index
  match nonEmpty (k.get "sessionId"), nonEmpty (k.get "chatId"), nonEmpty (k.get "instanceId") with
  | some sessionId, some chatId, some instanceId => .ok ⟨sessionId, chatId, instanceId⟩
  | _, _, _ =>
    .error (.plain ("Capability " ++ verb ++ ": argument " ++ toString index ++
      " must be \x7b sessionId, chatId, instanceId \x7d strings"))

def Value.text? (value : Value) : Option String :=
  match value with
  | .string s => some s
  | _ => none

def Value.number? (value : Value) : Option ExactNumber :=
  match value with
  | .number n => some n
  | _ => none

def Value.bool? (value : Value) : Option Bool :=
  match value with
  | .bool b => some b
  | _ => none

/-- The properties of an envelope, which the router does not check. -/
def envelopeArg (value : Value) : Option Envelope :=
  match value with
  | .undefined | .null => none
  | env =>
    some {
      sessionId := (env.get "sessionId").text?
      instanceId := (env.get "instanceId").text?
      chatId := (env.get "chatId").text?
      type := (env.get "type").text?
      text := (env.get "text").text?
      mediaUrl := (env.get "mediaUrl").text?
      replyTo := (env.get "replyTo").text?
      linkPreview := (env.get "linkPreview").bool?
      latitude := (env.get "latitude").number?
      longitude := (env.get "longitude").number?
      externalConversationId := ((env.get "source").get "externalConversationId").text?
    }

variable (rt : Runtime) (manifest : PluginManifest)

/-- The capability that a verb and its arguments lead to. -/
def route (verb : String) (args : List Value) : Checked (Job Value) :=
  let s := textArg verb args
  let mappingKey := mappingKeyArg verb args
  match verb with
  | "messages.sendText" => do
    pure (messageCapability manifest (← s 0) (.text (← s 1) (← s 2) none))
  | "messages.reply" => do
    pure (messageCapability manifest (← s 0) (.reply (← s 1) (← s 2) (← s 3)))
  | "engine.getGroupInfo" => do pure (engineCapability manifest (← s 0) (.getGroupInfo (← s 1)))
  | "engine.getContacts" => do pure (engineCapability manifest (← s 0) .getContacts)
  | "engine.getContactById" => do
    pure (engineCapability manifest (← s 0) (.getContactById (← s 1)))
  | "engine.checkNumberExists" => do
    pure (engineCapability manifest (← s 0) (.checkNumberExists (← s 1)))
  | "engine.getChats" => do pure (engineCapability manifest (← s 0) .getChats)
  | "engine.getChatHistory" => do
    pure (getChatHistory manifest (← s 0) (← s 1) (arg args 2) (arg args 3))
  | "engine.canonicalChatId" => do pure (canonicalChatId manifest rt (← s 0) (← s 1))
  | "storage.get" => do pure (storageCapability manifest (.get (← s 0)))
  | "storage.set" => do pure (storageCapability manifest (.set (← s 0) (arg args 1)))
  | "storage.delete" => do pure (storageCapability manifest (.delete (← s 0)))
  | "storage.list" => pure (storageCapability manifest (.list (arg args 0)))
  | "net.fetch" => do pure (netCapability rt manifest (← s 0) (arg args 1))
  | "conversation.send" => pure (conversationSend manifest (envelopeArg (arg args 0)))
  | "handover.set" => do pure (handoverSet manifest (← mappingKey 0) (arg args 1))
  | "mappings.upsert" => do pure (mappingsUpsert manifest (← mappingKey 0) (← s 1))
  | "mappings.get" => do pure (mappingsGet manifest (← mappingKey 0))
  | "mappings.getByProvider" => do pure (mappingsGetByProvider manifest (← s 0) (← s 1))
  | _ => .error (.plain ("Unknown capability verb: " ++ verb))

def dispatchCapabilityVerb (verb : String) (args : List Value) : Job Value :=
  match route rt manifest verb args with
  | .ok job => job
  | .error e => .throw e

/-- What a property of all that the router leads to has to cover. -/
structure EachCapability (P : Job Value → Prop) : Prop where
  message : ∀ sessionId message, P (messageCapability manifest sessionId message)
  engine : ∀ sessionId read, P (engineCapability manifest sessionId read)
  canonical : ∀ sessionId chatId, P (canonicalChatId manifest rt sessionId chatId)
  storage : ∀ call, P (storageCapability manifest call)
  net : ∀ url init, P (netCapability rt manifest url init)
  send : ∀ env, P (conversationSend manifest env)
  handover : ∀ key state, P (handoverSet manifest key state)
  upsert : ∀ key conversationId, P (mappingsUpsert manifest key conversationId)
  get : ∀ key, P (mappingsGet manifest key)
  getByProvider : ∀ instanceId conversationId,
    P (mappingsGetByProvider manifest instanceId conversationId)

end Router

section Cases

variable {α β : Type} {rt : Runtime} {manifest : PluginManifest} {P : Job Value → Prop}

theorem checked_bind_eq_ok {x : Checked α} {f : α → Checked β} {b : β} :
    (x >>= f) = .ok b ↔ ∃ a, x = .ok a ∧ f a = .ok b := by
  cases x <;> simp [bind, Except.bind]

/-- Whatever the router finds satisfies `P`. -/
def Leads (P : Job Value → Prop) (r : Checked (Job Value)) : Prop := ∀ job, r = .ok job → P job

theorem leads_pure {job : Job Value} (h : P job) : Leads P (pure job) := by
  intro job' heq
  simp only [pure, Except.pure, Except.ok.injEq] at heq
  exact heq ▸ h

theorem leads_bind {x : Checked α} {f : α → Checked (Job Value)} (h : ∀ a, Leads P (f a)) :
    Leads P (x >>= f) := by
  intro job heq
  rcases checked_bind_eq_ok.mp heq with ⟨a, -, hjob⟩
  exact h a job hjob

/-- One case for each verb, behind the checks of its arguments. -/
theorem EachCapability.route (h : EachCapability rt manifest P) (verb : String)
    (args : List Value) : Leads P (route rt manifest verb args) := by
  unfold Capability.route
  dsimp only
  split
  . exact leads_bind fun _ => leads_bind fun _ => leads_bind fun _ => leads_pure (h.message _ _)
  . exact leads_bind fun _ => leads_bind fun _ => leads_bind fun _ => leads_bind fun _ =>
      leads_pure (h.message _ _)
  . exact leads_bind fun _ => leads_bind fun _ => leads_pure (h.engine _ _)
  . exact leads_bind fun _ => leads_pure (h.engine _ _)
  . exact leads_bind fun _ => leads_bind fun _ => leads_pure (h.engine _ _)
  . exact leads_bind fun _ => leads_bind fun _ => leads_pure (h.engine _ _)
  . exact leads_bind fun _ => leads_pure (h.engine _ _)
  . exact leads_bind fun _ => leads_bind fun _ => leads_pure (h.engine _ _)
  . exact leads_bind fun _ => leads_bind fun _ => leads_pure (h.canonical _ _)
  . exact leads_bind fun _ => leads_pure (h.storage _)
  . exact leads_bind fun _ => leads_pure (h.storage _)
  . exact leads_bind fun _ => leads_pure (h.storage _)
  . exact leads_pure (h.storage _)
  . exact leads_bind fun _ => leads_pure (h.net _ _)
  . exact leads_pure (h.send _)
  . exact leads_bind fun _ => leads_pure (h.handover _ _)
  . exact leads_bind fun _ => leads_bind fun _ => leads_pure (h.upsert _ _)
  . exact leads_bind fun _ => leads_pure (h.get _)
  . exact leads_bind fun _ => leads_bind fun _ => leads_pure (h.getByProvider _ _)
  . intro _ herror
    contradiction

theorem EachCapability.dispatch (h : EachCapability rt manifest P) (hthrow : ∀ e, P (.throw e))
    (verb : String) (args : List Value) : P (dispatchCapabilityVerb rt manifest verb args) := by
  unfold dispatchCapabilityVerb
  split
  . next job hjob => exact h.route verb args job hjob
  . exact hthrow _

end Cases
end OpenWA.Capability
