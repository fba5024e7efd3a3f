import OpenWA.Js.JsonParse
import OpenWA.Webhooks.Delivery

/-!
This module contains the idempotency keys of webhook deliveries, and which deliveries they tell apart.
-/

namespace OpenWA.Webhooks

open Async Js

section Allowlist

/-- The object with these entries. -/
def fieldsOf (entries : List (String × Json)) : Fields :=
  match entries with
  | [] => .nil
  | (key, value) :: rest => .cons key value (fieldsOf rest)

/-- The properties of an object that a list of keys names, in its order. -/
def pickFields (keys : List String) (fields : Fields) : Fields :=
  fieldsOf (keys.filterMap fun key => (fields.get? key).map fun value => (key, value))

mutual

/-- What `JSON.stringify(value, keys)` writes down: objects at every level have the listed keys only. -/
def pick (keys : List String) (value : Json) : Json :=
  match value with
  | .array items => .array (pickItems keys items)
  | .object fields => .object (pickFields keys (pickValues keys fields))
  | value => value
termination_by structural value

def pickItems (keys : List String) (items : Items) : Items :=
  match items with
  | .nil => .nil
  | .cons item rest => .cons (pick keys item) (pickItems keys rest)
termination_by structural items

def pickValues (keys : List String) (fields : Fields) : Fields :=
  match fields with
  | .nil => .nil
  | .cons key value rest => .cons key (pick keys value) (pickValues keys rest)
termination_by structural fields

end

end Allowlist

section Key

/-- `Object.keys(data).sort()` -/
def sortedKeys (data : Fields) : List String := data.keys.insertionSort fun a b => sortLe a b

def toStr (value : Option Json) (fallback : Text) : Text :=
  match value with
  | some (.string s) => s.toList
  | some (.number n) => numberText n
  | some (.bool true) => "true".toList
  | some (.bool false) => "false".toList
  | _ => fallback

def unknown : Text := "unknown".toList

/-- `a ?? b` -/
def orElse (a b : Option Json) : Option Json :=
  match a with
  | none | some .null => b
  | a => a

/-- `{ [key]: value }`, which has no property that `JSON.stringify` writes if there is no value. -/
def singleton (key : String) (value : Option Json) : Fields :=
  match value with
  | some value => .cons key value .nil
  | none => .nil

-- the SHA-256 of a text, in hexadecimal digits
variable (sha256 : Text → Text)

/-- The text that is hashed: of the whole data, with the keys of its top level. -/
def hashedText (data : Fields) : Text := stringify (pick (sortedKeys data) (.object data))

def hashData (data : Fields) : Text := (sha256 (hashedText data)).take 12

/-- `event.replace(/\./g, '_')` -/
def underscored (event : String) : Text := event.toList.map fun c => if c = '.' then '_' else c

/-- The parts of a key, joined by underscores. -/
def joined (parts : List Text) : Text := ['_'].intercalate parts

def generateIdempotencyKey (event : String) (data : Fields) (occurredAt : Text) : Text :=
  let occurrence := if occurredAt.isEmpty then [] else '_' :: occurredAt
  let sessionId := toStr (data.get? "sessionId") unknown
  let messageId := toStr (orElse (data.get? "id") (data.get? "messageId")) unknown
  let status := toStr (orElse (data.get? "status") (data.get? "ack")) ['0']
  let field := fun key => toStr (data.get? key) unknown
  let participants := hashData sha256 (singleton "participants" (data.get? "participantIds"))
  match event with
  | "message.received" | "message.sent" => joined ["msg".toList, sessionId, messageId]
  | "message.ack" => joined ["ack".toList, sessionId, messageId, status]
  | "message.failed" => joined ["failed".toList, sessionId, messageId, status]
  | "message.revoked" => joined ["rev".toList, sessionId, messageId]
  | "message.edited" => joined ["edit".toList, sessionId, field "messageId"] ++ occurrence
  | "message.reaction" =>
    joined ["react".toList, sessionId, field "messageId", field "senderId"] ++ occurrence
  | "session.status" => joined ["sess".toList, sessionId, field "status"] ++ occurrence
  | "session.qr" =>
    joined ["qr".toList, sessionId, hashData sha256 (singleton "qr" (data.get? "qr"))]
  | "session.authenticated" => joined ["auth".toList, sessionId, hashData sha256 data] ++ occurrence
  | "session.disconnected" =>
    joined ["disc".toList, sessionId, hashData sha256 (singleton "reason" (data.get? "reason"))] ++
      occurrence
  | "session.reconnect_loop" => joined ["loop".toList, sessionId, field "attempts"] ++ occurrence
  | "session.restriction" =>
    joined ["restr".toList, sessionId, field "kind", field "active"] ++ occurrence
  | "call.accepted" | "call.rejected" | "call.missed" =>
    joined ["call".toList, sessionId, field "callId", field "outcome"]
  | "presence.update" => joined ["pres".toList, sessionId, field "chatId"] ++ occurrence
  | "group.join" => joined ["grp".toList, field "groupId", participants, "join".toList] ++ occurrence
  | "group.leave" => joined ["grp".toList, field "groupId", participants, "leave".toList] ++ occurrence
  | "group.join_request" =>
    joined ["grp".toList, field "groupId", participants, "join_request".toList] ++ occurrence
  | "group.update" =>
    let changes := stringify ((orElse (data.get? "changes") none).getD .null)
    joined ["grp".toList, field "groupId", "update".toList,
      hashData sha256 (singleton "changes" (some (.string (String.ofList changes))))] ++ occurrence
  | "call.received" => joined ["call".toList, sessionId, field "callId"]
  | event => joined ["evt".toList, underscored event, hashData sha256 data]

/-- The key of an event before it is salted with a webhook, from `dispatch`. -/
def baseIdempotencyKey (sessionId event : String) (data : Fields) (occurredAt : Text) : Text :=
  generateIdempotencyKey sha256 event (data.set "sessionId" (.string sessionId)) occurredAt

end Key

section Messages

variable (sha256 : Text → Text)

def messageEvents : List String := ["message.received", "message.sent"]

/-- The `waMessageId` to store for a message; an empty one is none. -/
def storableWaMessageId (id : Option String) : Option String := id.filter fun s => s ≠ ""

/-- `message.id` -/
def messageId (data : Fields) : Option String :=
  match data.get? "id" with
  | some (.string s) => some s
  | _ => none

/-- The unique index keeps two messages apart unless both have the same id to store. -/
def DifferentRows (data data' : Fields) : Prop :=
  storableWaMessageId (messageId data) = none ∨ storableWaMessageId (messageId data') = none ∨
    storableWaMessageId (messageId data) ≠ storableWaMessageId (messageId data')

/-- The identifier of a message that can be told, if it has one. -/
def told (data : Fields) : Option Text :=
  match orElse (data.get? "id") (data.get? "messageId") with
  | some (.string s) => some s.toList
  | some (.number n) => some (numberText n)
  | some (.bool true) => some "true".toList
  | some (.bool false) => some "false".toList
  | _ => none

/-- The messages have the same identifier, or none and the one that stands for none. -/
def Confused (data data' : Fields) : Prop :=
  told data = told data' ∨ told data = none ∧ told data' = some unknown ∨
    told data = some unknown ∧ told data' = none

theorem toStr_identifier (data : Fields) :
    toStr (orElse (data.get? "id") (data.get? "messageId")) unknown = (told data).getD unknown := by
  unfold told toStr
  split <;> rfl

theorem confused_iff (data data' : Fields) :
    Confused data data' ↔ (told data).getD unknown = (told data').getD unknown := by
  unfold Confused
  cases told data with
  | none =>
    cases told data' with
    | none => simp
    | some t => simp [eq_comm]
  | some t =>
    cases told data' with
    | none => simp
    | some t' => simp

theorem get?_set_sessionId (data : Fields) (sessionId : String) {key : String} (h : key ≠ "sessionId") :
    (data.set "sessionId" (.string sessionId)).get? key = data.get? key := by
  rw [Fields.get?_set, if_neg h]

theorem generateIdempotencyKey_message {event : String} (hevent : event ∈ messageEvents) (data : Fields)
    (occurredAt : Text) : generateIdempotencyKey sha256 event data occurredAt =
      joined ["msg".toList, toStr (data.get? "sessionId") unknown,
        toStr (orElse (data.get? "id") (data.get? "messageId")) unknown] := by
  simp only [messageEvents, List.mem_cons, List.not_mem_nil, or_false] at hevent
  rcases hevent with rfl | rfl
  . rfl
  . rfl

theorem baseIdempotencyKey_message {event : String} (hevent : event ∈ messageEvents) (sessionId : String)
    (data : Fields) (occurredAt : Text) : baseIdempotencyKey sha256 sessionId event data occurredAt =
      joined ["msg".toList, sessionId.toList, (told data).getD unknown] := by
  have hid := get?_set_sessionId data sessionId (by decide : "id" ≠ "sessionId")
  have hmessageId := get?_set_sessionId data sessionId (by decide : "messageId" ≠ "sessionId")
  have hsession : (data.set "sessionId" (.string sessionId)).get? "sessionId" =
      some (.string sessionId) := by
    rw [Fields.get?_set, if_pos rfl]
  rw [baseIdempotencyKey, generateIdempotencyKey_message sha256 hevent, hsession, hid, hmessageId,
    toStr_identifier]
  rfl

/-- Two messages of one session have different keys unless their identifiers are confused. -/
theorem baseIdempotencyKey_message_ne_iff {event event' : String} (hevent : event ∈ messageEvents)
    (hevent' : event' ∈ messageEvents) (sessionId : String) (data data' : Fields)
    (occurredAt occurredAt' : Text) :
    baseIdempotencyKey sha256 sessionId event data occurredAt ≠
        baseIdempotencyKey sha256 sessionId event' data' occurredAt' ↔
      ¬Confused data data' := by
  rw [baseIdempotencyKey_message sha256 hevent, baseIdempotencyKey_message sha256 hevent', confused_iff]
  simp [joined]

end Messages

section Default

variable (sha256 : Text → Text)

/-- The events that have a key of their own. -/
def keyedEvents : List String :=
  ["message.received", "message.sent", "message.ack", "message.failed", "message.revoked",
    "message.edited", "message.reaction", "session.status", "session.qr", "session.authenticated",
    "session.disconnected", "session.reconnect_loop", "session.restriction", "call.accepted",
    "call.rejected", "call.missed", "presence.update", "group.join", "group.leave",
    "group.join_request", "group.update", "call.received"]

/-- The data of an event. -/
structure EventPayload where
  fields : Fields
  proper : (Json.object fields).Proper

/-- The data with every object cut down to the keys that the data has at its top level. -/
def cutPayload (sessionId : String) (data : EventPayload) : Json :=
  let data := data.fields.set "sessionId" (.string sessionId)
  pick (sortedKeys data) (.object data)

theorem generateIdempotencyKey_default {event : String} (h : event ∉ keyedEvents) (data : Fields)
    (occurredAt : Text) : generateIdempotencyKey sha256 event data occurredAt =
      joined ["evt".toList, underscored event, hashData sha256 data] := by
  unfold generateIdempotencyKey
  dsimp only
  split
  all_goals first
    | exact absurd (by decide) h
    | rfl

theorem entries_fieldsOf (entries : List (String × Json)) : (fieldsOf entries).entries = entries := by
  induction entries with
  | nil => rfl
  | cons entry entries ih =>
    obtain ⟨key, value⟩ := entry
    rw [fieldsOf, Fields.entries, ih]

theorem pickFields_doubles (keys : List String) {fields : Fields} (h : fields.Doubles) :
    (pickFields keys fields).Doubles := by
  rw [Fields.doubles_iff] at h ⊢
  rw [pickFields, entries_fieldsOf]
  intro entry hentry
  obtain ⟨key, _, hkey⟩ := List.mem_filterMap.mp hentry
  obtain ⟨value, hvalue, rfl⟩ := Option.map_eq_some_iff.mp hkey
  rw [Fields.get?_eq_lookup] at hvalue
  obtain ⟨before, after, hentries, _⟩ := List.lookup_eq_some_iff.mp hvalue
  apply h (key, value)
  rw [hentries]
  exact List.mem_append_right _ List.mem_cons_self

mutual

theorem pick_doubles (keys : List String) (value : Json) (h : value.Doubles) :
    (pick keys value).Doubles := by
  match value with
  | .null => trivial
  | .bool _ => trivial
  | .number _ => exact h
  | .string _ => trivial
  | .array items => exact pickItems_doubles keys items h
  | .object fields => exact pickFields_doubles keys (pickValues_doubles keys fields h)
termination_by structural value

theorem pickItems_doubles (keys : List String) (items : Items) (h : items.Doubles) :
    (pickItems keys items).Doubles := by
  match items with
  | .nil => trivial
  | .cons item rest => exact ⟨pick_doubles keys item h.1, pickItems_doubles keys rest h.2⟩
termination_by structural items

theorem pickValues_doubles (keys : List String) (fields : Fields) (h : fields.Doubles) :
    (pickValues keys fields).Doubles := by
  match fields with
  | .nil => trivial
  | .cons key value rest => exact ⟨pick_doubles keys value h.1, pickValues_doubles keys rest h.2⟩
termination_by structural fields

end

theorem cutPayload_doubles (sessionId : String) (data : EventPayload) :
    (cutPayload sessionId data).Doubles := by
  have hstring : (Json.string sessionId).Proper := trivial
  have hproper := Fields.Proper.set data.fields data.proper.2 "sessionId" hstring
  exact pick_doubles _ _ (Fields.Proper.doubles _ hproper)

/-- The texts that are hashed for two payloads have different digests, as far as they are shown. -/
def NoCollision (text text' : Text) : Prop :=
  (sha256 text).take 12 = (sha256 text').take 12 → text = text'

/-- Two payloads of an event without a key of its own are told apart exactly if they differ once cut. -/
theorem baseIdempotencyKey_default_ne_iff {event : String} (hevent : event ∉ keyedEvents)
    (sessionId sessionId' : String) (data data' : EventPayload) (occurredAt occurredAt' : Text)
    (hsha256 : NoCollision sha256 (stringify (cutPayload sessionId data))
      (stringify (cutPayload sessionId' data'))) :
    baseIdempotencyKey sha256 sessionId event data.fields occurredAt ≠
        baseIdempotencyKey sha256 sessionId' event data'.fields occurredAt' ↔
      cutPayload sessionId data ≠ cutPayload sessionId' data' := by
  rw [baseIdempotencyKey, baseIdempotencyKey, generateIdempotencyKey_default sha256 hevent,
    generateIdempotencyKey_default sha256 hevent]
  apply not_congr
  constructor
  . intro heq
    have hhash : (sha256 (stringify (cutPayload sessionId data))).take 12 =
        (sha256 (stringify (cutPayload sessionId' data'))).take 12 := by
      simpa [joined, hashData, hashedText, cutPayload] using heq
    exact stringify_injective (cutPayload_doubles sessionId data) (cutPayload_doubles sessionId' data')
      (hsha256 hhash)
  . intro heq
    have htext : hashedText (data.fields.set "sessionId" (.string sessionId)) =
        hashedText (data'.fields.set "sessionId" (.string sessionId')) := congrArg stringify heq
    rw [hashData, hashData, htext]

end Default

section Replay

/-- The key of what a place stores, hands to a plugin, queues or sends. -/
def Place.usedKey? (place : Place) : Option Text :=
  match place with
  | .openRow key _ | .before key => some key.idempotencyKey
  | .add job => some job.data.payload.idempotencyKey
  | .post req => some req.key.idempotencyKey
  | _ => none

/-- What happens at this location happens under the key. -/
def UsesKey (key : Text) (l : Loc) : Prop := ∀ used ∈ l.place.usedKey?, used = key

theorem usesKey_of_none {key : Text} {pid : Nat} {place : Place} (h : place.usedKey? = none) :
    UsesKey key ⟨pid, place⟩ := by
  intro used hused
  rw [h] at hused
  cases hused

theorem usesKey_of_some {key : Text} {pid : Nat} {place : Place} (h : place.usedKey? = some key) :
    UsesKey key ⟨pid, place⟩ := by
  intro used hused
  rw [h] at hused
  exact (Option.some.inj hused).symm

theorem usesKey_post {key : Text} {pid : Nat} {req : PostRequest} (h : req.key.idempotencyKey = key) :
    UsesKey key ⟨pid, .post req⟩ :=
  usesKey_of_some (congrArg some h)

theorem usesKey_add {key : Text} {pid : Nat} {job : QueuedJob}
    (h : job.data.payload.idempotencyKey = key) : UsesKey key ⟨pid, .add job⟩ :=
  usesKey_of_some (congrArg some h)

variable (host : Host) (pid : Nat) {key : Text}

theorem visits_write {α : Type} {place : Place} (h : place.usedKey? = none) (f : Store → Store × α) :
    (write pid place f).Visits (UsesKey key) :=
  Task.visits_await (usesKey_of_none h)

theorem visits_read {α : Type} {place : Place} (h : place.usedKey? = none) (f : Store → α) :
    (read pid place f).Visits (UsesKey key) :=
  Task.visits_await (usesKey_of_none h)

theorem visits_recordFailure (row : WebhookDeliveryFailure) :
    (recordWebhookDeliveryFailure pid row).Visits (UsesKey key) := by
  unfold recordWebhookDeliveryFailure
  apply Task.Visits.catch'
  . split
    . exact visits_write pid rfl _
    . apply Task.Visits.bind (visits_read pid rfl _)
      intro existing
      split
      . exact Task.visits_pure _
      . exact visits_write pid rfl _
  . intro e
    exact Task.visits_pure _

theorem visits_recordUndelivered (webhook : Webhook) (deliveryId : Nat) (idempotencyKey error : Text)
    (ctx : DispatchEventContext) :
    (recordUndelivered host pid webhook deliveryId idempotencyKey error ctx).Visits (UsesKey key) := by
  unfold recordUndelivered
  apply Task.Visits.bind (visits_recordFailure pid _)
  intro _
  exact visits_write pid rfl _

theorem visits_preflightDelivery (webhook : Webhook) (attempt : Attempt) (ctx : DispatchEventContext) :
    (preflightDelivery host pid webhook attempt key ctx).Visits (UsesKey key) := by
  unfold preflightDelivery
  apply Task.Visits.bind (Task.visits_await (usesKey_of_some rfl))
  intro result
  split
  . apply Task.Visits.bind (visits_recordUndelivered host pid _ _ _ _ _)
    intro _
    exact Task.visits_pure _
  . exact Task.visits_pure _
  . split
    . apply Task.Visits.bind (visits_recordUndelivered host pid _ _ _ _ _)
      intro _
      exact Task.visits_pure _
    . exact Task.visits_pure _

/-- A delivery that may go on has the key in its payload. -/
def GoesOnWith (key : Text) (result : PreflightResult) : Prop :=
  match result with
  | .go p => p.finalPayload.idempotencyKey = key
  | _ => True

theorem yields_preflightDelivery (webhook : Webhook) (attempt : Attempt) (ctx : DispatchEventContext) :
    (preflightDelivery host pid webhook attempt key ctx).Yields (GoesOnWith key) := by
  unfold preflightDelivery
  apply Task.Yields.bind Task.yields_true
  intro result _
  split
  . apply Task.Yields.bind Task.yields_true
    intro _ _
    trivial
  . trivial
  . split
    . apply Task.Yields.bind Task.yields_true
      intro _ _
      trivial
    . next hchecked => exact checkSize_identity hchecked

theorem visits_deliverWebhook (webhook : Webhook) {payload : WebhookPayload}
    (hpayload : payload.idempotencyKey = key) (headers : List (Text × Text)) (body : Text)
    (left attempt : Nat) :
    (deliverWebhook host pid webhook payload headers body left attempt).Visits (UsesKey key) := by
  induction left generalizing headers attempt with
  | zero =>
    unfold deliverWebhook
    apply Task.Visits.bind (Task.visits_await (usesKey_post hpayload))
    intro result
    split
    . apply Task.Visits.catch' (visits_read pid rfl _)
      intro e
      exact Task.visits_pure _
    . apply Task.Visits.bind (visits_recordFailure pid _)
      intro _
      exact Task.visits_throw _
  | succ left ih =>
    unfold deliverWebhook
    apply Task.Visits.bind (Task.visits_await (usesKey_post hpayload))
    intro result
    split
    . apply Task.Visits.catch' (visits_read pid rfl _)
      intro e
      exact Task.visits_pure _
    . apply Task.Visits.bind (visits_write pid rfl _)
      intro _
      exact ih _ _

theorem visits_deliverDirect (webhook : Webhook) {p : Preflight}
    (hp : p.finalPayload.idempotencyKey = key) :
    (deliverDirect host pid webhook p).Visits (UsesKey key) := by
  unfold deliverDirect
  apply Task.Visits.catch'
  . apply Task.Visits.bind (visits_deliverWebhook host pid webhook hp _ _ _ _)
    intro _
    apply Task.Visits.bind (visits_write pid rfl _)
    intro _
    apply Task.Visits.bind (visits_write pid rfl _)
    intro _
    exact Task.visits_pure _
  . intro e
    apply Task.Visits.bind (visits_write pid rfl _)
    intro _
    exact Task.visits_pure _

theorem visits_enqueueWithFallback (webhook : Webhook) {p : Preflight}
    (hp : p.finalPayload.idempotencyKey = key) (attempt : Attempt) (ctx : DispatchEventContext) :
    (enqueueWithFallback host pid webhook p attempt ctx).Visits (UsesKey key) := by
  unfold enqueueWithFallback
  apply Task.Visits.bind (Task.visits_await (usesKey_add hp))
  intro accepted
  split
  . apply Task.Visits.bind (visits_write pid rfl _)
    intro _
    exact Task.visits_pure _
  . apply Task.Visits.bind (visits_write pid rfl _)
    intro _
    apply Task.Visits.catch'
    . apply Task.Visits.bind (visits_deliverWebhook host pid webhook hp _ _ _ _)
      intro _
      apply Task.Visits.bind (visits_write pid rfl _)
      intro _
      apply Task.Visits.bind (visits_write pid rfl _)
      intro _
      exact Task.visits_pure _
    . intro e
      apply Task.Visits.bind (visits_write pid rfl _)
      intro _
      exact Task.visits_pure _

/-- Everything that one delivery queues or sends is under the key it was given. -/
theorem visits_deliverOne (webhook : Webhook) (attempt : Attempt) (ctx : DispatchEventContext) :
    (deliverOne host pid webhook attempt key ctx).Visits (UsesKey key) := by
  unfold deliverOne
  apply Task.Visits.bind_of_yields (visits_preflightDelivery host pid webhook attempt ctx)
    (yields_preflightDelivery host pid webhook attempt ctx)
  intro result hresult
  split
  . exact Task.visits_pure _
  . exact Task.visits_pure _
  . split
    . exact visits_enqueueWithFallback host pid webhook hresult attempt ctx
    . exact visits_deliverDirect host pid webhook hresult

/-- A replay uses the key that its row was stored with. -/
theorem visits_reconcileRow (opts : WebhookReconcilerOptions) (row : ReplayableDelivery) :
    (reconcileRow host pid opts row).Visits (UsesKey row.key.idempotencyKey) := by
  unfold reconcileRow
  split
  . exact visits_write pid rfl _
  apply Task.Visits.bind (visits_read pid rfl _)
  intro webhook
  split
  . split
    . unfold replayRow
      apply Task.Visits.bind (visits_write pid rfl _)
      intro attempt
      split
      . exact Task.visits_pure _
      . apply Task.Visits.catch'
        . apply Task.Visits.bind (visits_deliverOne host pid _ _ _)
          intro outcome
          split
          . exact Task.visits_pure _
          . exact visits_write pid rfl _
        . intro e
          exact Task.visits_pure _
    . exact visits_write pid rfl _
  . exact visits_write pid rfl _

/-- A dispatch stores its row with the key that it uses. -/
theorem visits_dispatchWithLimit (webhook : Webhook) (deliveryId : Nat) (baseIdempotencyKey : Text)
    (ctx : DispatchEventContext) :
    (dispatchWithLimit host pid webhook deliveryId baseIdempotencyKey ctx).Visits
      (UsesKey (baseIdempotencyKey ++ '_' :: webhook.id)) := by
  unfold dispatchWithLimit
  apply Task.Visits.bind (Task.visits_await (usesKey_of_some rfl))
  intro _
  apply Task.Visits.andFinally
  . unfold runLimited
    apply Task.Visits.bind (Task.visits_await (usesKey_of_none rfl))
    intro admitted
    split
    . apply Task.Visits.bind (visits_deliverOne host pid _ _ _)
      intro outcome
      exact visits_write pid rfl _
    . exact visits_recordUndelivered host pid _ _ _ _ _
    . exact visits_recordUndelivered host pid _ _ _ _ _
  . exact visits_write pid rfl _

end Replay

section Separation

variable (sha256 : Text → Text)

/--
Keys tell two messages of different rows apart exactly if their identifiers are not confused, and two
payloads of an event without a key of its own exactly if they differ once they are cut down to their
top-level keys. A replay uses the stored key, which is the one of the dispatch.
-/
theorem idempotencyKeys_separate_iff (host : Host) (pid : Nat) :
    (∀ (sessionId event event' : String) (data data' : Fields) (occurredAt occurredAt' : Text),
      event ∈ messageEvents → event' ∈ messageEvents → DifferentRows data data' →
      (baseIdempotencyKey sha256 sessionId event data occurredAt ≠
          baseIdempotencyKey sha256 sessionId event' data' occurredAt' ↔
        ¬Confused data data')) ∧
    (∀ (sessionId sessionId' event : String) (data data' : EventPayload) (occurredAt occurredAt' : Text),
      event ∉ keyedEvents →
      NoCollision sha256 (stringify (cutPayload sessionId data))
        (stringify (cutPayload sessionId' data')) →
      (baseIdempotencyKey sha256 sessionId event data.fields occurredAt ≠
          baseIdempotencyKey sha256 sessionId' event data'.fields occurredAt' ↔
        cutPayload sessionId data ≠ cutPayload sessionId' data')) ∧
    (∀ (webhook : Webhook) (deliveryId : Nat) (base : Text) (ctx : DispatchEventContext),
      (dispatchWithLimit host pid webhook deliveryId base ctx).Visits
        (UsesKey (base ++ '_' :: webhook.id))) ∧
    ∀ (opts : WebhookReconcilerOptions) (row : ReplayableDelivery),
      (reconcileRow host pid opts row).Visits (UsesKey row.key.idempotencyKey) := by
  refine ⟨?_, ?_, visits_dispatchWithLimit host pid, visits_reconcileRow host pid⟩
  . intro sessionId event event' data data' occurredAt occurredAt' hevent hevent' _
    exact baseIdempotencyKey_message_ne_iff sha256 hevent hevent' sessionId data data' _ _
  . intro sessionId sessionId' event data data' occurredAt occurredAt' hevent hsha256
    exact baseIdempotencyKey_default_ne_iff sha256 hevent sessionId sessionId' data data' _ _ hsha256

/-- The SHA-256 of two texts. -/
def sha256Of (t : Text) : Text :=
  if t = "\x7b\"a\":\"1\",\"sessionId\":\"s1\"\x7d".toList then
    "5d2b4a1bf696fce0721fede4e8be2ee85843f7166e52eee7693c23637dbccefc".toList
  else if t = "\x7b\"a\":\"2\",\"sessionId\":\"s1\"\x7d".toList then
    "c9baa648fa012b7b5e1b3c1a5f573d11101584729b1fc67d5670e579231a00b2".toList
  else []

def numbered (s : String) : EventPayload where
  fields := .cons "a" (.string s) .nil
  proper := ⟨List.pairwise_singleton _ _, trivial, trivial⟩

def messageOf (id body : String) : Fields := .cons "id" (.string id) (.cons "body" (.string body) .nil)

def idleHost : Host where
  webhooks := []
  queueEnabled := false
  maxPayloadBytes := 0
  stringify _ := .ok []
  byteLength := List.length
  shedInlineMedia t := t
  hmac _ _ := []
  redactSsrfError t := t

theorem idempotencyKeys_separate :
    baseIdempotencyKey sha256Of "s1" "message.received" (messageOf "A1" "hello") [] ≠
      baseIdempotencyKey sha256Of "s1" "message.sent" (messageOf "B2" "hello") [] ∧
    baseIdempotencyKey sha256Of "s1" "status.received" (numbered "1").fields [] ≠
      baseIdempotencyKey sha256Of "s1" "status.received" (numbered "2").fields [] := by
  have hspec := idempotencyKeys_separate_iff sha256Of idleHost 0
  constructor
  . apply (hspec.1 "s1" _ _ _ _ _ _ (by decide +kernel) (by decide +kernel)
      (.inr (.inr (by decide +kernel)))).mpr
    rw [confused_iff]
    decide +kernel
  . apply (hspec.2.1 "s1" "s1" _ _ _ _ _ (by decide +kernel) (fun h => by revert h; decide +kernel)).mpr
    decide +kernel

def statusFrom (contact : String) : Fields :=
  .cons "statusId" (.string "st1") (.cons "contact" (.object (.cons "id" (.string contact) .nil)) .nil)

/-- Messages whose id could not be read, and payloads that differ below the top level, share a key. -/
theorem idempotencyKeys_collide :
    DifferentRows (messageOf "" "one") (messageOf "" "two") ∧
    baseIdempotencyKey (fun t => t) "s1" "message.received" (messageOf "" "one") [] =
      baseIdempotencyKey (fun t => t) "s1" "message.received" (messageOf "" "two") [] ∧
    statusFrom "a" ≠ statusFrom "b" ∧
    baseIdempotencyKey (fun t => t) "s1" "status.received" (statusFrom "a") [] =
      baseIdempotencyKey (fun t => t) "s1" "status.received" (statusFrom "b") [] :=
  ⟨.inl (by decide +kernel), by decide +kernel, by decide +kernel, by decide +kernel⟩

end Separation

end OpenWA.Webhooks
