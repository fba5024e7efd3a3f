import OpenWA.Stored.Rows

/-!
This module contains the writers of a stored message: the outbound sends, the engine's events, the
history backfill and the reaper of pending messages.
-/

namespace OpenWA.Stored

open Async Js

/-- What the deployment provides. -/
structure Host where
  /-- the phone of a session -/
  phone : Text → Option Text
  storeEphemeralMessages : Bool
  resolveLidToPhone : Bool
  graceMs : Nat
  batchSize : Nat

section Sends

variable (host : Host)

structure SaveOutgoingMessageData where
  waMessageId : Option Text
  chatId : Text
  body : Option Text
  type : Text
  timestamp : Option Nat
  status : Option MessageStatus
  metadata : Option Metadata
  quotedMessageId : Option Text
deriving DecidableEq

/-- The body of the quoted message, or the empty string. -/
def resolveQuotedBody (sessionId quotedMessageId : Text) : MessageTask Text :=
  (call .findQuoted fun s =>
    (s, .ok (((s.rowOf sessionId quotedMessageId).bind (·.body)).getD []))).catch' fun _ => pure []

/-- The columns of an outgoing message, with what it quotes. -/
def outgoingFields (sessionId : Text) (data : SaveOutgoingMessageData)
    (quotedMessage : Option QuotedMessage) : MessageFields where
  sessionId := sessionId
  waMessageId := data.waMessageId.bind storableWaMessageId
  chatId := data.chatId
  chatName := none
  author := none
  «from» := ((host.phone sessionId).filter (!·.isEmpty)).getD "me".toList
  «to» := data.chatId
  body := data.body
  type := data.type
  direction := .outgoing
  timestamp := data.timestamp
  status := data.status.getD .pending
  metadata :=
    match quotedMessage with
    | some quoted => some { data.metadata.getD .empty with quotedMessage := some quoted }
    | none => data.metadata
  createdAt := none

/-- What a merge writes onto the row of the own-send echo; a URL pointer must not replace its bytes. -/
def mergePatch (timestamp : Option Nat) (metadata : Option Metadata) (row : Message) : Message :=
  { row with
    timestamp := timestamp <|> row.timestamp
    metadata := if isUrlPointerMetadata metadata then row.metadata else metadata <|> row.metadata }

/-- `update` of the row with the engine id to the patch. -/
def merge (sessionId waMessageId : Text) (timestamp : Option Nat) (metadata : Option Metadata) :
    MessageTask Unit :=
  call (.merge sessionId waMessageId metadata) fun s =>
    (s.updateRows (·.named sessionId waMessageId) (mergePatch timestamp metadata), .ok ())

def findSurviving (sessionId waMessageId : Text) : MessageTask (Option Message) :=
  call .findSurviving fun s => (s, .ok (s.rowOf sessionId waMessageId))

/-- The insert; losing the race of the own-send echo merges onto the echo's row. -/
def saveOutgoingRow (fields : MessageFields) : MessageTask Message :=
  (call (.save fields) fun s => s.insertRow fields).catch' fun err =>
    match fields.waMessageId, err with
    | some waMessageId, .uniqueViolation => do
      merge fields.sessionId waMessageId fields.timestamp fields.metadata
      match ← findSurviving fields.sessionId waMessageId with
      | some surviving => return surviving
      | none => .throw .uniqueViolation
    | _, _ => .throw err

def saveOutgoingMessage (sessionId : Text) (data : SaveOutgoingMessageData) : MessageTask Message := do
  call .findSession fun s => (s, .ok ())
  match data.quotedMessageId.filter (!·.isEmpty) with
  | some id =>
    let body ← resolveQuotedBody sessionId id
    saveOutgoingRow (outgoingFields host sessionId data (some ⟨id, body⟩))
  | none => saveOutgoingRow (outgoingFields host sessionId data none)

/-- The entity that is saved after the send failed. -/
def failedEntity (message : Message) : Message :=
  { message with status := .failed, metadata := dropPayload message.metadata }

def saveFailedMessage (message : Message) : MessageTask Unit :=
  call (.saveFailed message.id) fun s => s.saveRow (failedEntity message)

/-- The entity that is saved after the engine accepted the send; an empty id stays unset. -/
def sentEntity (message : Message) (result : MessageResult) : Message :=
  { message with
    waMessageId := storableWaMessageId result.id <|> message.waMessageId
    status := .sent
    timestamp := some result.timestamp }

/--
The row of the echo won: the merge onto it, and the end of the redundant row. Best-effort throughout.
-/
def mergeSentState (message : Message) (result : MessageResult) : MessageTask Unit := do
  (merge message.sessionId result.id (some result.timestamp) message.metadata).catch' fun _ => pure ()
  (call (.deleteRow message.id) fun s => (s.deleteRow message.id, .ok ())).catch' fun _ => pure ()
  let _ ← (findSurviving message.sessionId result.id).catch' fun _ => pure none
  return ()

def persistSentState (message : Message) (result : MessageResult) : MessageTask Unit :=
  let entity := sentEntity message result
  (call (.saveSent entity) fun s => s.saveRow entity).catch' fun err =>
    if !result.id.isEmpty && err = .uniqueViolation then mergeSentState entity result
    -- the send itself has succeeded, so a failure to write its state is only logged
    else pure ()

/-- What a sender saves before its send; a button is what was clicked. -/
structure SendRequest where
  chatId : Text
  body : Option Text
  type : Text
  media : Option Media
  quotedMessage : Option QuotedMessage
  button : Option Button
  quotedMessageId : Option Text
deriving DecidableEq

def SendRequest.metadata (req : SendRequest) : Option Metadata :=
  let metadata : Metadata :=
    { Metadata.empty with
      media := req.media
      quotedMessage := req.quotedMessage
      button := req.button }
  if metadata = Metadata.empty then none else some metadata

def SendRequest.data (req : SendRequest) : SaveOutgoingMessageData where
  waMessageId := none
  chatId := req.chatId
  body := req.body
  type := req.type
  timestamp := none
  status := none
  metadata := req.metadata
  quotedMessageId := req.quotedMessageId

/-- A button click stores the label the engine sent. -/
def SendRequest.relabel (req : SendRequest) (result : MessageResult) (message : Message) : Message :=
  match req.button, result.body.filter (!·.isEmpty) with
  | some button, some label =>
    { message with
      body := some label
      metadata := some { message.metadata.getD .empty with button := some ⟨button.id, some label⟩ } }
  | _, _ => message

def Answer.result? (x : Answer) : Option MessageResult :=
  match x with
  | .accepted result => some result
  | _ => none

/-- The engine's send, and what it reports of the message it sent. -/
def engineSend (rowId : Nat) : MessageTask MessageResult :=
  .await (.engineSend rowId) (fun x _ => x.result?.isSome || x = .refused) fun x s =>
    match x.result? with
    | some result => (s, .ok result)
    | none => (s, .error .refused)

/-- A sender past its gate. -/
def send (sessionId : Text) (req : SendRequest) : MessageTask Unit := do
  let message ← saveOutgoingMessage host sessionId req.data
  let sent ← ((engineSend message.id).bind fun result => pure (some result)).catch' fun _ => do
    saveFailedMessage message
    return none
  match sent with
  | some result => persistSentState (req.relabel result message) result
  | none => .throw .refused

end Sends

section Projector

variable (host : Host)

def Answer.message? (x : Answer) : Option IncomingMessage :=
  match x with
  | .chain message => some message
  | _ => none

/-- A hook chain, and whether the engine is still live once it is over. -/
def hook (id : Text) (engine : Nat) (message : IncomingMessage) :
    MessageTask (IncomingMessage × Bool) :=
  .await .hook (fun x _ => x.message?.isSome) fun x s =>
    (s, .ok (x.message?.getD message, s.isLive id engine))

def mayStore (message : IncomingMessage) : Bool :=
  host.storeEphemeralMessages || !(message.ephemeralDuration.any (· > 0))

def storedFields (id : Text) (message : IncomingMessage) (chatName author : Option Text)
    (direction : MessageDirection) (metadata : Option Metadata) : MessageFields where
  sessionId := id
  waMessageId := storableWaMessageId message.id
  chatId := message.chatId
  chatName := chatName
  author := author
  «from» := message.from
  «to» := message.to
  body := some message.body
  type := message.type
  direction := direction
  timestamp := some message.timestamp
  status := .sent
  metadata := metadata
  createdAt := none

def directionOf (message : IncomingMessage) : MessageDirection :=
  if message.fromMe then .outgoing else .incoming

def inboundFields (id : Text) (message : IncomingMessage) : MessageFields :=
  storedFields id message message.contactName message.author (directionOf message)
    (buildMessageMetadata message false)

def echoFields (id : Text) (message : IncomingMessage) : MessageFields :=
  storedFields id message none none .outgoing (buildMessageMetadata message true)

/-- The insert under the dedup oracle; a duplicate is skipped and a failure is only logged. -/
def insertMessage (fields : MessageFields) : MessageTask Unit :=
  ((call (.insert fields) fun s => s.insertRow fields).bind fun _ => pure ()).catch' fun _ => pure ()

/-- The sender's phone is resolved if need be; it does not throw. Then liveness is checked again. -/
def resolveSender (id : Text) (engine : Nat) (message : IncomingMessage) (live : Bool) :
    MessageTask Bool :=
  if host.resolveLidToPhone && message.isLidSender && !message.fromMe then
    local' .resolveSender fun s => (s, s.isLive id engine)
  else pure live

def projectInboundMessage (id : Text) (engine : Nat) (message : IncomingMessage) : MessageTask Unit := do
  let (message, live) ← hook id engine message
  if ← resolveSender host id engine message live then insertMessage (inboundFields id message)

/-- A status broadcast goes to the status store, and a message that expires may be skipped. -/
def handleInboundMessage (id : Text) (engine : Nat) (message : IncomingMessage) (s : Store) :
    MessageTask Unit :=
  if s.isLive id engine && !message.isStatusBroadcast && mayStore host message then
    projectInboundMessage host id engine message
  else pure ()

def projectOwnSend (id : Text) (engine : Nat) (message : IncomingMessage) : MessageTask Unit := do
  let (message, live) ← hook id engine message
  if mayStore host message && live then insertMessage (echoFields id message)

def handleOwnSendEcho (id : Text) (engine : Nat) (message : IncomingMessage) (s : Store) :
    MessageTask Unit :=
  if s.isLive id engine && message.fromMe && !message.isStatusBroadcast then
    projectOwnSend host id engine message
  else pure ()

inductive DeliveryStatus where
  | pending
  | sent
  | delivered
  | read
  | failed
deriving DecidableEq

def deliveryStatusToMessageStatus (status : DeliveryStatus) : Option MessageStatus :=
  match status with
  | .failed => some .failed
  | .read => some .read
  | .delivered => some .delivered
  | .pending | .sent => none

/-- The stored statuses a delivery transition may advance from. -/
def ackStatusTransitionFrom (target : MessageStatus) : List MessageStatus :=
  match target with
  | .delivered => [.pending, .sent]
  | .read => [.pending, .sent, .delivered]
  | .failed => [.pending, .sent]
  | .pending | .sent => []

def acked (id messageId : Text) (status : MessageStatus) (row : Message) : Bool :=
  row.named id messageId && row.status ∈ ackStatusTransitionFrom status

/-- The guarded update, and how many rows it advanced. -/
def advanceAck (id messageId : Text) (status : MessageStatus) : MessageTask Nat :=
  call (.ack id messageId status) fun s =>
    (s.updateRows (acked id messageId status) fun row => { row with status := status },
      .ok (s.affected (acked id messageId status)))

/-- An ack that found no row is tried once more. -/
def reflectAck (id messageId : Text) (status : MessageStatus) : MessageTask Unit := do
  let affected ← advanceAck id messageId status
  if affected > 0 then return ()
  local' .ackTimer fun s => (s, ())
  let _ ← advanceAck id messageId status
  return ()

def handleMessageAck (id : Text) (engine : Nat) (messageId : Text) (status : DeliveryStatus) (s : Store) :
    MessageTask Unit :=
  match deliveryStatusToMessageStatus status with
  | some status => if s.isLive id engine then reflectAck id messageId status else pure ()
  | none => pure ()

/-- The direct update of the message that was deleted for everyone. -/
def handleMessageRevoked (id : Text) (engine : Nat) (revokedWaMessageId : Text) (s : Store) :
    MessageTask Unit :=
  if s.isLive id engine then
    call (.revoke id revokedWaMessageId) fun s =>
      (s.updateRows (·.named id revokedWaMessageId) fun row =>
        { row with body := some [], type := "revoked".toList }, .ok ())
  else pure ()

end Projector

section Mutations

/-- The work waits for the earlier ones of its key, runs, and settles whatever became of it. -/
def mutation (key : Text × Text) (n : Nat) (work : MessageTask Unit) : MessageTask Unit := do
  .await (.startMutation key n) (fun x s => x = .ok && s.mutations.find? (·.1 = key) = some (key, n))
    fun _ s => (s, .ok ())
  work.catch' fun _ => pure ()
  local' (.settleMutation key n) fun s =>
    ({ s with mutations := s.mutations.filter (· ≠ (key, n)) }, ())

/-- Queue a mutation of a message. -/
def enqueueMessageMutation (id messageId : Text) (work : MessageTask Unit) (s : Store) :
    Store × MessageTask Unit :=
  let key := (id, messageId)
  ({ s with
    mutations := s.mutations ++ [(key, s.nextMutation)]
    nextMutation := s.nextMutation + 1 },
    mutation key s.nextMutation work)

/-- `reactions[senderId] = reaction`, or its deletion if the reaction is empty. -/
def setReaction (event : ReactionEvent) (reactions : List (Text × Text)) : List (Text × Text) :=
  let others := reactions.filter (·.1 ≠ event.senderId)
  if event.reaction.isEmpty then others else others ++ [(event.senderId, event.reaction)]

/-- The stored reactions; none stored is `{}`. -/
def reactionsOf (metadata : Option Metadata) : List (Text × Text) :=
  (metadata.bind (·.reactions)).getD []

def reacted (event : ReactionEvent) (metadata : Option Metadata) : Metadata :=
  { metadata.getD .empty with reactions := some (setReaction event (reactionsOf metadata)) }

/-- The read of the row and the write of its metadata column. -/
def applyReaction (id : Text) (event : ReactionEvent) : MessageTask Unit := do
  if event.messageId.isEmpty then return ()
  let msg ← call (.findReacted id event) fun s => (s, .ok (s.rowOf id event.messageId))
  match msg with
  | some msg =>
    let metadata := reacted event msg.metadata
    call (.react id event.messageId metadata) fun s =>
      (s.updateRows (·.named id event.messageId) fun row => { row with metadata := some metadata },
        .ok ())
  | none => return ()

def applyMessageEdit (id messageId body : Text) : MessageTask Unit :=
  call (.edit id messageId) fun s =>
    (s.updateRows (·.named id messageId) fun row => { row with body := some body }, .ok ())

def onMessageReaction (id : Text) (engine : Nat) (event : ReactionEvent) (s : Store) :
    Store × MessageTask Unit :=
  if s.isLive id engine && !event.messageId.isEmpty then
    enqueueMessageMutation id event.messageId (applyReaction id event) s
  else (s, pure ())

def onMessageEdited (id : Text) (engine : Nat) (messageId body : Text) (s : Store) :
    Store × MessageTask Unit :=
  if s.isLive id engine && !messageId.isEmpty then
    enqueueMessageMutation id messageId (applyMessageEdit id messageId body) s
  else (s, pure ())

end Mutations

section History

variable (host : Host)

/-- The messages to persist, the last one of an id standing for all. -/
def historyMessages (messages : List IncomingMessage) : List IncomingMessage :=
  let kept := messages.filter fun m =>
    !m.id.isEmpty && !m.isStatusBroadcast && !m.chatId.isEmpty && !m.from.isEmpty && !m.to.isEmpty &&
    mayStore host m
  kept.foldl (fun byId m =>
    if byId.any (·.id = m.id) then byId.map fun m' => if m'.id = m.id then m else m' else byId ++ [m]) []

/-- A history row is stamped with the real time. -/
def historyFields (id : Text) (m : IncomingMessage) : MessageFields :=
  let author := if m.fromMe then none else m.author
  { storedFields id m none author (directionOf m) (buildMessageMetadata m true) with
    createdAt := if m.timestamp = 0 then none else some (m.timestamp * 1000) }

/-- Insert or ignore. -/
def Store.insertRows (s : Store) (rows : List MessageFields) : Store :=
  rows.foldl (fun s fields => (s.insertRow fields).1) s

/-- The dedup query and the insert of one chunk. -/
def persistChunk (id : Text) (chunk : List IncomingMessage) : MessageTask Unit := do
  let fresh ← call .findHistory fun s =>
    (s, .ok (chunk.filter fun m => (s.rowOf id m.id).isNone))
  if fresh.isEmpty then return ()
  call .insertHistory fun s => (s.insertRows (fresh.map (historyFields id)), .ok ())

def persistChunks (id : Text) (chunks : List (List IncomingMessage)) : MessageTask Unit :=
  match chunks with
  | [] => pure ()
  | chunk :: chunks => do
    persistChunk id chunk
    persistChunks id chunks

def persistHistoryMessages (id : Text) (messages : List IncomingMessage) : MessageTask Unit :=
  persistChunks id ((historyMessages host messages).toChunks 400)

def onHistoryMessages (id : Text) (engine : Nat) (messages : List IncomingMessage) (s : Store) :
    MessageTask Unit :=
  if s.isLive id engine then persistHistoryMessages host id messages else pure ()

end History

section Reaper

variable (host : Host)

/-- A reap is guarded on the row still being pending. -/
def reapRow (row : Message) (now : Nat) : MessageTask Unit :=
  let metadata : Metadata := { (dropPayload row.metadata).getD .empty with reapedAt := some now }
  call (.reap row.id) fun s =>
    (s.updateRows (fun r => r.id = row.id && r.status = .pending) fun r =>
      { r with status := .failed, metadata := some metadata }, .ok ())

/-- A bookkeeping failure does not abort the batch. -/
def reapRows (rows : List Message) (now : Nat) : MessageTask Unit :=
  match rows with
  | [] => pure ()
  | row :: rows => do
    (reapRow row now).catch' fun _ => pure ()
    reapRows rows now

/-- Stale outgoing pending rows, oldest first. -/
def findPending (s : Store) (now : Nat) : List Message :=
  let stale := s.messages.filter fun row =>
    row.direction = .outgoing && row.status = .pending && row.createdAt.any (· + host.graceMs < now)
  (stale.mergeSort fun a b => a.createdAt.getD 0 ≤ b.createdAt.getD 0).take host.batchSize

def sweep (now : Nat) : MessageTask Unit :=
  Task.andFinally (do
    let rows ← call .findPending fun s => (s, .ok (findPending host s now))
    reapRows rows now) (local' .sweepEnd fun s => ({ s with sweeping := false }, ()))

/-- A slow sweep never stacks a second pass on top of itself. -/
def onReaperTick (s : Store) : Store × MessageTask Unit :=
  if s.sweeping then (s, pure ()) else ({ s with sweeping := true }, sweep host s.clock)

end Reaper

end OpenWA.Stored
