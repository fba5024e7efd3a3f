import OpenWA.Js.JsonParse
import OpenWA.Webhooks.Delivery

/-!
This module contains the envelope of a webhook delivery over JSON values: the payload that leaves the
hooks, its size gate, the headers and the requests that reach the receiver on each path.
-/

namespace OpenWA.Webhooks.Envelope

open Js

section Objects

/-- The properties are those of an object that the source can hold. -/
structure Sound (fields : Fields) : Prop where
  listed : fields.Listed
  proper : fields.Proper

theorem Sound.set {fields : Fields} (h : Sound fields) {key : String} (hkey : arrayIndex key = none)
    {value : Json} (hvalue : value.Proper) : Sound (fields.set key value) :=
  ⟨h.listed.set hkey value, Fields.Proper.set fields h.proper key hvalue⟩

theorem sound_nil : Sound .nil := ⟨List.Pairwise.nil, trivial⟩

theorem sound_foldl_set (entries : List (String × Json)) {fields : Fields} (h : Sound fields)
    (hentries : ∀ entry ∈ entries, arrayIndex entry.1 = none ∧ entry.2.Proper) :
    Sound (entries.foldl (fun fields entry => fields.set entry.1 entry.2) fields) := by
  induction entries generalizing fields with
  | nil => exact h
  | cons entry entries ih =>
    rw [List.forall_mem_cons] at hentries
    rw [List.foldl_cons]
    apply ih
    . exact h.set hentries.1.1 hentries.1.2
    . exact hentries.2

theorem Sound.spread {base : Fields} (h : Sound base) (patch : Fields)
    (hpatch : ∀ entry ∈ patch.entries, arrayIndex entry.1 = none ∧ entry.2.Proper) :
    Sound (base.spread patch) := by
  match patch with
  | .nil => exact h
  | .cons key value rest =>
    rw [Fields.entries, List.forall_mem_cons] at hpatch
    unfold Fields.spread
    apply Sound.spread
    . exact h.set hpatch.1.1 hpatch.1.2
    . exact hpatch.2
termination_by structural patch

abbrev JsonValue := {value : Json // value.Proper}

abbrev JsonObject := {fields : Fields // Sound fields}

end Objects

section Payload

/-- What the server says of a delivery. -/
structure Identity where
  event : String
  sessionId : String
  timestamp : String
  idempotencyKey : String
  deliveryId : String

def Identity.entries (id : Identity) : List (String × Json) :=
  [("event", .string id.event),
    ("sessionId", .string id.sessionId),
    ("timestamp", .string id.timestamp),
    ("idempotencyKey", .string id.idempotencyKey),
    ("deliveryId", .string id.deliveryId)]

def payloadFields (id : Identity) (data : Fields) : Fields :=
  .ofList
    [("event", .string id.event),
      ("timestamp", .string id.timestamp),
      ("sessionId", .string id.sessionId),
      ("idempotencyKey", .string id.idempotencyKey),
      ("deliveryId", .string id.deliveryId),
      ("data", .object data)]

theorem sound_payloadFields (id : Identity) {data : Fields} (h : Sound data) :
    Sound (payloadFields id data) := by
  apply sound_foldl_set _ sound_nil
  simp only [List.forall_mem_cons, Json.Proper, and_true]
  refine ⟨?_, ?_, ?_, ?_, ?_, ⟨?_, h.listed, h.proper⟩, List.forall_mem_nil _⟩ <;> decide

/-- The payload that the hooks are given, over a copy of the event data. -/
def buildPayload (id : Identity) (data : JsonObject) : JsonObject :=
  ⟨payloadFields id data.val, sound_payloadFields id data.property⟩

structure ChainOutcome where
  shouldContinue : Bool
  data : Option JsonValue
  /-- the payload the chain was given, as the hooks leave it -/
  payload : JsonObject

/-- `hookResult?.payload` -/
def ChainOutcome.returnedPayload (outcome : ChainOutcome) : Option Json :=
  outcome.data.bind fun data => data.val.get? "payload"

def ChainOutcome.chosenPayload (outcome : ChainOutcome) : Json :=
  match outcome.returnedPayload with
  | none | some .null => .object outcome.payload.val
  | some payload => payload

inductive PreflightError where
  | thrown (error : Text)
  /-- a property cannot be assigned to a primitive value -/
  | typeError
  | oversize (message : Text)

/-- The identity fields are assigned one after the other. -/
def assertIdentity (id : Identity) (payload : Json) : Except PreflightError Json :=
  match payload with
  | .object fields =>
    .ok (.object (id.entries.foldl (fun fields entry => fields.set entry.1 entry.2) fields))
  -- an array takes the properties, but its text is that of its items
  | .array items => .ok (.array items)
  | _ => .error .typeError

end Payload

section Size

/-- `Buffer.byteLength(s, 'base64')` -/
def base64ByteLength (s : JsString) : Nat :=
  let bytes := if s.getLast? = some 0x3d then s.length - 1 else s.length
  let bytes := if bytes > 1 && s[s.length - 2]? = some 0x3d then bytes - 1 else bytes
  (bytes * 3) % 2 ^ 32 / 4

def omittedMedia (media : Fields) (sizeBytes : Nat) : Fields :=
  let mimetype := (media.get? "mimetype").map fun value => ("mimetype", value)
  let filename :=
    match media.get? "filename" with
    | some (.string s) => some ("filename", Json.string s)
    | _ => none
  .ofList (mimetype.toList ++ filename.toList ++ [("omitted", .bool true), ("sizeBytes", .number sizeBytes)])

/-- The data without their inline media, or none if there is nothing to shed. -/
def shedInlineMedia (data : Option Json) (maxBytes : Nat) : Option Fields :=
  match data with
  | some (.object fields) =>
    match fields.get? "media" with
    | some (.object media) =>
      match media.get? "data" with
      | some (.string blob) =>
        let sizeBytes := base64ByteLength (toUtf16 blob.toList)
        if blob = "" || sizeBytes ≤ maxBytes then none
        else some (fields.set "media" (.object (omittedMedia media sizeBytes)))
      | _ => none
    | _ => none
  | _ => none

def byteLength (t : Text) : Nat := (utf8 t).length

def gateSize (maxPayloadBytes : Nat) (finalPayload : Json) : Except PreflightError (Json × Text) :=
  let oversize := fun body => .error (.oversize (oversizeError (byteLength body) maxPayloadBytes))
  let body := stringify finalPayload
  if byteLength body ≤ maxPayloadBytes then
    .ok (finalPayload, body)
  else
    match finalPayload, shedInlineMedia (finalPayload.get? "data") 0 with
    | .object fields, some shedData =>
      let finalPayload := .object (fields.set "data" (.object shedData))
      let body := stringify finalPayload
      if byteLength body ≤ maxPayloadBytes then .ok (finalPayload, body) else oversize body
    | _, _ => oversize body

end Size

section Headers

def headersObject (headers : List (Text × Text)) : Fields :=
  .ofList (headers.map fun header => (String.ofList header.1, .string (String.ofList header.2)))

/-- Assigning `__proto__` to the object of the safe headers adds no property. -/
def safeHeaders (custom : List (Text × Text)) : Fields :=
  headersObject ((sanitizeCustomHeaders custom).filter fun header => header.1 ≠ "__proto__".toList)

def systemHeaders (id : Identity) : Fields :=
  .ofList
    [("Content-Type", .string "application/json"),
      ("User-Agent", .string "OpenWA-Webhook/1.0.0"),
      ("X-OpenWA-Event", .string id.event),
      ("X-OpenWA-Idempotency-Key", .string id.idempotencyKey),
      ("X-OpenWA-Delivery-Id", .string id.deliveryId),
      ("X-OpenWA-Retry-Count", .string "0")]

/-- `headers['X-OpenWA-Retry-Count'] = String(retries)` -/
def setRetryCount (headers : Fields) (retries : Nat) : Fields :=
  headers.set "X-OpenWA-Retry-Count" (.string (String.ofList (Nat.toDigits 10 retries)))

end Headers

/-- A webhook as the source can hold it: the headers are listed as those of an object. -/
structure Subscription extends Webhook where
  headers_listed : (headers.map fun header => String.ofList header.1).Pairwise fun a b =>
    a ≠ b ∧ keyBefore a b = true
  retryCount_lt : retryCount < 2 ^ 53

/-- One delivery: the event data or what copying them throws, and what the hooks make of a payload. -/
structure Delivery where
  webhook : Subscription
  identity : Identity
  baseData : Except Text JsonObject
  before : JsonObject → ChainOutcome
  maxPayloadBytes : Nat

structure Preflight where
  finalPayload : Json
  body : Text
  headers : Fields

inductive PreflightResult where
  | go (p : Preflight)
  | cancelled
  /-- what is recorded as undelivered -/
  | undelivered (error : PreflightError)

/-- The outcome of `webhook:before`. -/
def Delivery.chain (d : Delivery) : Except Text ChainOutcome :=
  d.baseData.map fun data => d.before (buildPayload d.identity data)

def preflightDelivery (d : Delivery) : PreflightResult :=
  match d.chain with
  | .error error => .undelivered (.thrown error)
  | .ok outcome =>
    if outcome.shouldContinue then
      match assertIdentity d.identity outcome.chosenPayload >>= gateSize d.maxPayloadBytes with
      | .error error => .undelivered error
      | .ok (finalPayload, body) =>
        .go ⟨finalPayload, body, (safeHeaders d.webhook.headers).spread (systemHeaders d.identity)⟩
    else .cancelled

/-- A request to the receiver, and how many the delivery made before it. -/
structure Request where
  body : Text
  headers : Fields
  retries : Nat

section Paths

variable (hmac : Text → Text → Text)

def signature (body secret : Text) : Json :=
  .string (String.ofList ("sha256=".toList ++ hmac body secret))

/-- `!value`, of a header -/
def isMissing (value : Option Json) : Bool :=
  match value with
  | some (.string s) => s = ""
  | _ => true

def attemptHeaders (webhook : Webhook) (headers : Fields) (body : Text) (attempt : Nat) : Fields :=
  let headers := setRetryCount headers (attempt - 1)
  match webhook.signingSecret with
  | some secret =>
    if isMissing (headers.get? "X-OpenWA-Signature") then
      headers.set "X-OpenWA-Signature" (signature hmac body secret)
    else headers
  | none => headers

/-- The requests from an attempt on, if this many of them fail. -/
def deliverWebhook (webhook : Webhook) (headers : Fields) (body : Text) (attempt failures : Nat) :
    List Request :=
  let headers := attemptHeaders hmac webhook headers body attempt
  ⟨body, headers, attempt - 1⟩ ::
    match failures with
    | 0 => []
    | failures + 1 =>
      if attempt < webhook.retryCount then deliverWebhook webhook headers body (attempt + 1) failures
      else []

def signedHeaders (webhook : Webhook) (p : Preflight) : Fields :=
  match webhook.signingSecret with
  | some secret => p.headers.set "X-OpenWA-Signature" (signature hmac p.body secret)
  | none => p.headers

def jobData (d : Delivery) (p : Preflight) (headers : Fields) : Fields :=
  .ofList
    [("webhookId", .string (String.ofList d.webhook.id)),
      ("url", .string (String.ofList d.webhook.url)),
      ("event", .string d.identity.event),
      ("payload", p.finalPayload),
      ("headers", .object headers),
      ("attempt", .number 1),
      ("maxRetries", .number d.webhook.retryCount)]

/-- The request of the worker for a job in the form in which the queue keeps it. -/
def process (job : Text) (attemptsMade : Nat) : Option Request :=
  match parse job with
  | some data =>
    match data.get? "payload", data.get? "headers" with
    | some payload, some (.object headers) =>
      some ⟨stringify payload, setRetryCount headers attemptsMade, attemptsMade⟩
    | _, _ => none
  | none => none

/-- How a delivery travels, and what becomes of its requests. -/
inductive Path where
  /-- the queue is disabled -/
  | direct (failures : Nat)
  | queued (attemptsMade : Nat)
  /-- adding the job threw -/
  | fallback (failures : Nat)

def requests (d : Delivery) (p : Preflight) (path : Path) : List Request :=
  match path with
  | .direct failures => deliverWebhook hmac d.webhook.toWebhook p.headers p.body 1 failures
  | .queued attemptsMade =>
    let headers := signedHeaders hmac d.webhook.toWebhook p
    (process (stringify (.object (jobData d p headers))) attemptsMade).toList
  | .fallback failures =>
    deliverWebhook hmac d.webhook.toWebhook (signedHeaders hmac d.webhook.toWebhook p) p.body 1 failures

end Paths

end OpenWA.Webhooks.Envelope
