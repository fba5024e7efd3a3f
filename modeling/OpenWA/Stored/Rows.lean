import Mathlib.Data.List.Nodup
import OpenWA.Async.System
import OpenWA.Js.Text

/-!
This module contains the `messages` table with the repository calls on it, and the memory of the
process that the writers of a row share.
-/

namespace OpenWA.Stored

open Async Js

inductive MessageDirection where
  | incoming
  | outgoing
deriving DecidableEq

inductive MessageStatus where
  | pending
  | sent
  | delivered
  | read
  | failed
deriving DecidableEq

/-- The media field of a message; the payload is base64 or the URL of a URL send. -/
structure Media where
  mimetype : Option Text
  filename : Option Text
  data : Option Text
  omitted : Bool
deriving DecidableEq

structure QuotedMessage where
  id : Text
  body : Text
deriving DecidableEq

structure Button where
  id : Text
  text : Option Text
deriving DecidableEq

structure Call where
  video : Bool
  missed : Bool
deriving DecidableEq

/-- The `metadata` JSON column. -/
structure Metadata where
  media : Option Media
  quotedMessage : Option QuotedMessage
  call : Option Call
  buttons : List Button
  button : Option Button
  /-- by the sender's id -/
  reactions : Option (List (Text × Text))
  reapedAt : Option Nat
deriving DecidableEq

/-- The object `{}`. -/
def Metadata.empty : Metadata := ⟨none, none, none, [], none, none, none⟩

/-- The columns of a message that a writer sets; none is `undefined` or NULL. -/
structure MessageFields where
  sessionId : Text
  waMessageId : Option Text
  chatId : Text
  chatName : Option Text
  author : Option Text
  «from» : Text
  «to» : Text
  body : Option Text
  type : Text
  direction : MessageDirection
  timestamp : Option Nat
  status : MessageStatus
  metadata : Option Metadata
  createdAt : Option Nat
deriving DecidableEq

/-- A row of `messages`. -/
structure Message extends MessageFields where
  id : Nat
deriving DecidableEq

/--
The table, and of the process the engines that are live, the works of the per-message mutation queue
that have not settled and whether the reaper sweeps. Row ids and works are numbered.
-/
structure Store where
  messages : List Message
  nextId : Nat
  clock : Nat
  engines : Text → Option Nat
  mutations : List ((Text × Text) × Nat)
  nextMutation : Nat
  sweeping : Bool

structure MessageResult where
  id : Text
  timestamp : Nat
  body : Option Text
deriving DecidableEq

structure IncomingMessage where
  id : Text
  «from» : Text
  «to» : Text
  chatId : Text
  body : Text
  type : Text
  timestamp : Nat
  fromMe : Bool
  isStatusBroadcast : Bool
  ephemeralDuration : Option Nat
  author : Option Text
  call : Option Call
  buttons : List Button
  isLidSender : Bool
  /-- `contact?.pushName ?? contact?.name` -/
  contactName : Option Text
  media : Option Media
  quotedMessage : Option QuotedMessage
deriving DecidableEq

structure ReactionEvent where
  messageId : Text
  reaction : Text
  senderId : Text
deriving DecidableEq

/-- What an await settles with. -/
inductive Answer where
  | ok
  /-- the repository call rejected, other than by a unique violation -/
  | fault
  /-- the engine accepted the send -/
  | accepted (result : MessageResult)
  /-- the engine's send threw -/
  | refused
  /-- the data of a hook chain -/
  | chain (message : IncomingMessage)
deriving DecidableEq

/-- What a repository call or the engine throws. -/
inductive Failure where
  | uniqueViolation
  | fault
  | refused
deriving DecidableEq

inductive Place where
  | findSession
  | findQuoted
  | save (fields : MessageFields)
  | engineSend (rowId : Nat)
  | saveSent (entity : Message)
  | saveFailed (rowId : Nat)
  | merge (sessionId waMessageId : Text) (metadata : Option Metadata)
  | deleteRow (rowId : Nat)
  | findSurviving
  | hook
  | resolveSender
  | insert (fields : MessageFields)
  | startMutation (key : Text × Text) (n : Nat)
  | findReacted (sessionId : Text) (event : ReactionEvent)
  | react (sessionId messageId : Text) (metadata : Metadata)
  | edit (sessionId messageId : Text)
  | settleMutation (key : Text × Text) (n : Nat)
  | revoke (sessionId messageId : Text)
  | ack (sessionId messageId : Text) (status : MessageStatus)
  | ackTimer
  | findHistory
  | insertHistory
  | findPending
  | reap (rowId : Nat)
  | sweepEnd
deriving DecidableEq

abbrev MessageTask (α : Type) := Task Store Answer Place Failure α

/-- A repository call, which may reject without effect. -/
def call {α : Type} (place : Place) (f : Store → Store × Except Failure α) : MessageTask α :=
  .await place (fun x _ => x = .ok || x = .fault) fun x s =>
    if x = .fault then (s, .error .fault) else f s

/-- A turn that only touches the memory of the process. -/
def local' {α : Type} (place : Place) (f : Store → Store × α) : MessageTask α :=
  .await place (fun x _ => x = .ok) fun _ s => ((f s).1, .ok (f s).2)

section Repository

/-- The row of a session that carries the engine id. -/
def Message.named (row : Message) (sessionId waMessageId : Text) : Bool :=
  row.sessionId = sessionId && row.waMessageId = some waMessageId

/-- The stored row under the defined columns of an entity. -/
def overwrite (stored entity : Message) : Message :=
  { entity with
    waMessageId := entity.waMessageId <|> stored.waMessageId
    chatName := entity.chatName <|> stored.chatName
    author := entity.author <|> stored.author
    body := entity.body <|> stored.body
    timestamp := entity.timestamp <|> stored.timestamp
    metadata := entity.metadata <|> stored.metadata
    createdAt := entity.createdAt <|> stored.createdAt }

namespace Store

variable (s : Store)

/-- UNIQUE(sessionId, waMessageId) refuses the fields beside the rows of another id; NULLs are exempt. -/
def refuses (own : Option Nat) (fields : MessageFields) : Bool :=
  s.messages.any fun row => own ≠ some row.id && fields.waMessageId.any (row.named fields.sessionId)

def rowOf (sessionId waMessageId : Text) : Option Message :=
  s.messages.find? (·.named sessionId waMessageId)

/-- `insert`, and `save` of an entity without an id. -/
def insertRow (fields : MessageFields) : Store × Except Failure Message :=
  if s.refuses none fields then (s, .error .uniqueViolation)
  else
    let row : Message :=
      { fields with id := s.nextId, createdAt := some (fields.createdAt.getD s.clock) }
    ({ s with messages := s.messages ++ [row], nextId := s.nextId + 1 }, .ok row)

/-- `save` of an entity with an id: an update of its row, or an insert if there is none. -/
def saveRow (entity : Message) : Store × Except Failure Unit :=
  if s.refuses (some entity.id) entity.toMessageFields then (s, .error .uniqueViolation)
  else if s.messages.any (·.id = entity.id) then
    ({ s with messages := s.messages.map fun row =>
        if row.id = entity.id then overwrite row entity else row }, .ok ())
  else
    ({ s with messages := s.messages ++ [entity] }, .ok ())

/-- `update` -/
def updateRows (p : Message → Bool) (f : Message → Message) : Store :=
  { s with messages := s.messages.map fun row => if p row then f row else row }

/-- `result.affected` of an update -/
def affected (p : Message → Bool) : Nat := s.messages.countP p

def deleteRow (id : Nat) : Store := { s with messages := s.messages.filter (·.id ≠ id) }

/-- `engines.isLive(id, engine)` -/
def isLive (id : Text) (engine : Nat) : Bool := s.engines id = some engine

end Store

end Repository

section Table

/-- Row ids are unique and were given out. -/
structure WellKept (s : Store) : Prop where
  ids : (s.messages.map (·.id)).Nodup
  bound : ∀ row ∈ s.messages, row.id < s.nextId

theorem row_unique {s : Store} (hs : WellKept s) {row row' : Message} (h : row ∈ s.messages)
    (h' : row' ∈ s.messages) (hid : row.id = row'.id) : row = row' :=
  List.inj_on_of_nodup_map hs.ids h h' hid

theorem named_waMessageId {row : Message} {sessionId waMessageId : Text}
    (h : row.named sessionId waMessageId = true) : row.waMessageId = some waMessageId := by
  simp only [Message.named, Bool.and_eq_true, decide_eq_true_eq] at h
  exact h.2

/-- The row an insert of the fields adds. -/
def newRow (s : Store) (fields : MessageFields) : Message :=
  { fields with id := s.nextId, createdAt := some (fields.createdAt.getD s.clock) }

theorem insertRow_of_not_refused {s : Store} {fields : MessageFields}
    (h : s.refuses none fields = false) :
    s.insertRow fields = ({ s with messages := s.messages ++ [newRow s fields], nextId := s.nextId + 1 },
      .ok (newRow s fields)) := by
  simp only [Store.insertRow, h, Bool.false_eq_true, if_false]
  rfl

theorem WellKept.congr {s s' : Store} (hs : WellKept s) (hmessages : s'.messages = s.messages)
    (hnextId : s'.nextId = s.nextId) : WellKept s' :=
  ⟨hmessages ▸ hs.ids, by rw [hmessages, hnextId]; exact hs.bound⟩

theorem wellKept_append {s s' : Store} (row : Message) (hs : WellKept s)
    (hmessages : s'.messages = s.messages ++ [row]) (hfresh : ∀ old ∈ s.messages, old.id ≠ row.id)
    (hle : s.nextId ≤ s'.nextId) (hlt : row.id < s'.nextId) : WellKept s' := by
  constructor
  . rw [hmessages, List.map_append]
    refine List.Nodup.append hs.ids (List.nodup_singleton _) ?_
    simpa [List.disjoint_singleton] using hfresh
  . intro old hold
    rw [hmessages] at hold
    rcases List.mem_append.mp hold with hold | hold
    . exact Nat.lt_of_lt_of_le (hs.bound old hold) hle
    . rw [List.mem_singleton.mp hold]
      exact hlt

theorem wellKept_map {s s' : Store} {f : Message → Message} (hs : WellKept s)
    (hmessages : s'.messages = s.messages.map f) (hid : ∀ row, (f row).id = row.id)
    (hnextId : s'.nextId = s.nextId) : WellKept s' := by
  constructor
  . simpa only [hmessages, List.map_map, Function.comp_def, hid] using hs.ids
  . intro row hrow
    rw [hmessages] at hrow
    rcases List.mem_map.mp hrow with ⟨old, hold, rfl⟩
    rw [hid, hnextId]
    exact hs.bound old hold

theorem WellKept.updateRows {s : Store} {p : Message → Bool} {f : Message → Message} (hs : WellKept s)
    (hid : ∀ row, p row = true → (f row).id = row.id) : WellKept (s.updateRows p f) := by
  refine wellKept_map (f := fun row => if p row then f row else row) hs rfl ?_ rfl
  intro row
  split
  . next hp => exact hid row hp
  . rfl

theorem WellKept.insertRow {s : Store} (hs : WellKept s) (fields : MessageFields) :
    WellKept (s.insertRow fields).1 := by
  by_cases h : s.refuses none fields = true
  . rw [Store.insertRow, if_pos h]
    exact hs
  . rw [insertRow_of_not_refused (Bool.eq_false_iff.mpr h)]
    apply wellKept_append _ hs rfl _ (Nat.le_succ _) (Nat.lt_succ_self _)
    intro old hold
    exact Nat.ne_of_lt (hs.bound old hold)

theorem WellKept.deleteRow {s : Store} (hs : WellKept s) (id : Nat) : WellKept (s.deleteRow id) where
  ids := hs.ids.sublist (List.Sublist.map _ List.filter_sublist)
  bound row hrow := hs.bound row (List.mem_of_mem_filter hrow)

theorem WellKept.saveRow {s : Store} {entity : Message} (hs : WellKept s) (hlt : entity.id < s.nextId) :
    WellKept (s.saveRow entity).1 := by
  unfold Store.saveRow
  split
  . exact hs
  . split
    . refine wellKept_map (f := fun row => if row.id = entity.id then overwrite row entity else row)
        hs rfl ?_ rfl
      intro row
      split
      . next hid => exact hid.symm
      . rfl
    . next hnone =>
      refine wellKept_append entity hs rfl ?_ (Nat.le_refl _) hlt
      simpa using hnone

end Table

section Carriers

/-- The rows that carry the engine id. -/
def carriers (key : Text × Text) (s : Store) : List Message :=
  s.messages.filter (·.named key.1 key.2)

variable {key : Text × Text}

theorem mem_carriers {s : Store} {row : Message} :
    row ∈ carriers key s ↔ row ∈ s.messages ∧ row.named key.1 key.2 = true :=
  List.mem_filter

theorem named_eq {row : Message} : row.named key.1 key.2 = true ↔
    row.sessionId = key.1 ∧ row.waMessageId = some key.2 := by
  simp [Message.named]

theorem unnamed {row : Message} (h : row.waMessageId = none) : row.named key.1 key.2 = false := by
  simp [Message.named, h]

theorem refuses_iff {s : Store} {own : Option Nat} {fields : MessageFields}
    (hsession : fields.sessionId = key.1) (hid : fields.waMessageId = some key.2) :
    s.refuses own fields = true ↔ ∃ row ∈ carriers key s, own ≠ some row.id := by
  simp only [Store.refuses, List.any_eq_true, Bool.and_eq_true, decide_eq_true_eq, hsession, hid,
    Option.any_some, mem_carriers]
  constructor
  . rintro ⟨row, hrow, hown, hnamed⟩
    exact ⟨row, ⟨hrow, hnamed⟩, hown⟩
  . rintro ⟨row, ⟨hrow, hnamed⟩, hown⟩
    exact ⟨row, hrow, hown, hnamed⟩

theorem carriers_updateRows {s : Store} {f : Message → Message}
    (hf : ∀ row, (f row).sessionId = row.sessionId ∧ (f row).waMessageId = row.waMessageId) :
    carriers key (s.updateRows (·.named key.1 key.2) f) = (carriers key s).map f := by
  have hnamed (row : Message) : (f row).named key.1 key.2 = row.named key.1 key.2 := by
    simp only [Message.named, (hf row).1, (hf row).2]
  simp only [carriers, Store.updateRows]
  induction s.messages with
  | nil => rfl
  | cons row rows ih =>
    simp only [List.map_cons, List.filter_cons]
    by_cases h : row.named key.1 key.2 = true
    . simp only [h, if_true, hnamed, List.map_cons, ih]
    . simp only [h, if_false, Bool.false_eq_true, ih]

theorem carriers_of_rowOf {s : Store} {row : Message} (h : s.rowOf key.1 key.2 = some row) :
    row ∈ carriers key s :=
  mem_carriers.mpr ⟨List.mem_of_find?_eq_some h,
    List.find?_some (p := fun row : Message => row.named key.1 key.2) h⟩

end Carriers

section Metadata

/-- `/^https?:\/\//i` -/
def isHttpUrl (data : Text) : Bool :=
  let lower := data.map Char.toLower
  "http://".toList.isPrefixOf lower || "https://".toList.isPrefixOf lower

/-- The media of a write is only a remote-URL pointer. -/
def isUrlPointerMetadata (metadata : Option Metadata) : Bool :=
  ((metadata.bind (·.media)).bind (·.data)).any isHttpUrl

def mediaMessageTypes : List Text :=
  ["image", "video", "audio", "voice", "sticker", "document"].map String.toList

def omittedMedia : Media := ⟨some [], none, none, true⟩

/-- The metadata of a persisted row, or none when there is nothing to store. -/
def buildMessageMetadata (message : IncomingMessage) (synthesizeOmittedMedia : Bool) : Option Metadata :=
  let media :=
    if message.media.isSome then message.media
    else if synthesizeOmittedMedia && message.type ∈ mediaMessageTypes then some omittedMedia
    else none
  let metadata : Metadata :=
    { Metadata.empty with
      media := media
      quotedMessage := message.quotedMessage
      call := message.call
      buttons := message.buttons }
  if metadata = Metadata.empty then none else some metadata

/-- `id || undefined` -/
def storableWaMessageId (id : Text) : Option Text := if id.isEmpty then none else some id

/-- A failed or reaped row keeps no payload. -/
def dropPayload (metadata : Option Metadata) : Option Metadata :=
  metadata.map fun m => { m with media := m.media.map fun media => { media with data := none } }

end Metadata

end OpenWA.Stored
