import OpenWA.Capability.Gates

/-!
This module contains the state of the host that the calls of plugins work on, and the operations on the
conversation mappings among it.
-/

namespace OpenWA.Capability

open Async Js

/-- A row of `conversation_mappings`. -/
structure ConversationMapping where
  id : Nat
  key : MappingKey
  providerConversationId : String
  handoverState : Value

namespace ConversationMapping

/-- The columns of the second unique index. -/
def reverseKey (row : ConversationMapping) : String × String × String :=
  (row.key.pluginId, row.key.instanceId, row.providerConversationId)

/-- The two rows cannot both be in the table. -/
def conflicts (a b : ConversationMapping) : Bool := a.key = b.key || a.reverseKey = b.reverseKey

end ConversationMapping

/-- A message that is handed to `MessageService`. -/
inductive Message where
  | text (chatId text : String) (linkPreview : Option Bool)
  | reply (chatId quotedMessageId text : String)
  | image (chatId url : String) (caption : Option String)
  | video (chatId url : String) (caption : Option String)
  | audio (chatId url : String) (caption : Option String) (ptt : Bool)
  | document (chatId url : String) (caption : Option String)
  | location (chatId : String) (latitude longitude : ExactNumber) (description : Option String)
deriving DecidableEq

inductive EngineRead where
  | getGroupInfo (groupId : String)
  | getContacts
  | getContactById (contactId : String)
  | checkNumberExists (phone : String)
  | getChats
  | getChatHistory (chatId : String) (limit : ExactNumber) (includeMedia : Value)
  /-- the lookup of the phone behind a chat, which no engine sees -/
  | canonicalChatId (chatId : String)

inductive StorageCall where
  | get (key : String)
  | set (key : String) (value : Value)
  | delete (key : String)
  | list (keyPrefix : Value)

/-- The capability a message is sent with. -/
inductive Sender where
  | messages
  | conversations
deriving DecidableEq

/-- What a plugin makes the host do, or tell it. -/
inductive Deed where
  | send (sender : Sender) (sessionId : String) (message : Message)
  | read (sessionId : String) (query : EngineRead)
  | store (call : StorageCall)
  | fetch (url : String) (init : Value)
  /-- the plugin is told about a mapping -/
  | told (mapping : ConversationMapping)

namespace Deed

def permission (deed : Deed) : Permission :=
  match deed with
  | .send .messages _ _ => .messagesSend
  | .send .conversations _ _ | .told _ => .conversationSend
  | .read _ _ => .engineRead
  | .store _ => .storageUse
  | .fetch _ _ => .netFetch

/-- The session it touches. -/
def sessionId? (deed : Deed) : Option String :=
  match deed with
  | .send _ sessionId _ | .read sessionId _ => some sessionId
  | .told mapping => some mapping.key.sessionId
  | .store _ | .fetch _ _ => none

end Deed

structure Effect where
  plugin : PluginManifest
  deed : Deed

structure PluginInstanceRecord where
  enabled : Bool
  config : Option Fields

/-- `inFlightFetches` and the mutable part of the plugins are memory, the rows are in the database. -/
structure Host where
  activation : String → Activation
  engines : String → Bool
  phones : Text → Option Text
  inFlightFetches : Nat
  instances : String → List PluginInstanceRecord
  sessions : String → Bool
  mappings : List ConversationMapping
  nextId : Nat
  effects : List Effect

/-- What an await settles with; a `fault` had no effect. -/
inductive Answer where
  | done (value : Value)
  | fault (message : String)

inductive Place where
  /-- code that runs in one turn on the memory of the host -/
  | memory
  /-- a statement of the database -/
  | query
  /-- the answer of a service of the host -/
  | settle
  /-- one of the slots for outbound requests is taken, or given back -/
  | takeSlot
  | releaseSlot
deriving DecidableEq

abbrev Job (α : Type) := Task Host Answer Place PluginError α

section Turns

variable {α : Type}

def memory (f : Host → Checked α) : Job α := .atomic .memory fun _ s => (s, f s)

def query (f : Host → Host × Checked α) : Job α :=
  .atomic .query fun x s =>
    match x with
    | .done _ => f s
    | .fault message => (s, .error (.host message))

/-- The gates are passed and a service of the host is called, all in one turn. -/
def issue (check : Host → Checked Effect) : Job Unit :=
  .atomic .memory fun _ s =>
    match check s with
    | .ok effect => ({ s with effects := s.effects ++ [effect] }, .ok ())
    | .error e => (s, .error e)

def settle : Job Value :=
  .atomic .settle fun x s =>
    match x with
    | .done value => (s, .ok value)
    | .fault message => (s, .error (.host message))

end Turns

/-! ### The rows -/

def findOne (p : ConversationMapping → Bool) : Job (Option ConversationMapping) :=
  query fun s => (s, .ok (s.mappings.find? p))

def save (key : MappingKey) (providerConversationId : String) : Job Unit :=
  query fun s =>
    let row : ConversationMapping := ⟨s.nextId, key, providerConversationId, .string "bot"⟩
    if s.mappings.any row.conflicts then (s, .error .uniqueViolation)
    else ({ s with mappings := s.mappings ++ [row], nextId := s.nextId + 1 }, .ok ())

/-- `update({ id }, patch)`, which may affect no row. -/
def updateRow (id : Nat) (patch : ConversationMapping → ConversationMapping) : Job Unit :=
  query fun s =>
    match s.mappings.find? (·.id = id) with
    | none => (s, .ok ())
    | some row =>
      if s.mappings.any fun other => other.id ≠ id && other.conflicts (patch row) then
        (s, .error .uniqueViolation)
      else
        ({ s with mappings := s.mappings.map fun r => if r.id = id then patch r else r }, .ok ())

def deleteRow (id : Nat) : Job Unit :=
  query fun s => ({ s with mappings := s.mappings.filter (·.id ≠ id) }, .ok ())

/-! ### `ConversationMappingService` -/

def updateById (id : Nat) (key : MappingKey) (providerConversationId : String) : Job Unit :=
  (updateRow id fun row => { row with providerConversationId }).catch' fun e =>
    if e = .uniqueViolation then .throw (.conflict key providerConversationId) else .throw e

def get (key : MappingKey) : Job (Option ConversationMapping) := findOne (·.key = key)

def upsert (key : MappingKey) (providerConversationId : String) : Job Unit := do
  match ← get key with
  | some existing => updateById existing.id key providerConversationId
  | none =>
    (save key providerConversationId).catch' fun e =>
      if e ≠ .uniqueViolation then .throw e
      else do
        -- either key may be taken: the row of the forward key is updated, if it is there
        match ← get key with
        | some raced => updateById raced.id key providerConversationId
        | none => .throw (.conflict key providerConversationId)

def getByProvider (pluginId instanceId providerConversationId : String) :
    Job (Option ConversationMapping) :=
  findOne fun row => row.reverseKey = (pluginId, instanceId, providerConversationId)

def setHandover (id : Nat) (state : Value) : Job Unit :=
  updateRow id fun row => { row with handoverState := state }

def rebindSession (id : Nat) (sessionId : String) : Job Unit :=
  (updateRow id fun row => { row with key := { row.key with sessionId } }).catch' fun e =>
    if e ≠ .uniqueViolation then .throw e else deleteRow id

/-- `findOne` of the sessions; only a row that is not there says that the session is gone. -/
def isSessionGone (sessionId : String) : Job Bool :=
  (query fun s => if s.sessions sessionId then (s, .ok false) else (s, .error .notFound)).catch'
    fun e => .pure (e = .notFound)

end OpenWA.Capability
