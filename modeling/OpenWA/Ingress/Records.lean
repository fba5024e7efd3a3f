import OpenWA.Js.Text

/-!
This module contains the records of the inbound webhook pipeline and the pure functions on them: how
a delivery is keyed, what is stored and queued for it, and the job id it gets.
-/

namespace OpenWA.Ingress

open Js

/-- `SAFE_ID` of the plugin manifest, which also refuses `..`. -/
def isSafeId (t : Text) : Bool :=
  match t with
  | [] => false
  | c :: cs =>
    c.isAlphanum && cs.all (fun c => c.isAlphanum || c ∈ ['.', '_', '-']) &&
      ((c :: cs).zip cs).all (· ≠ ('.', '.'))

/-- `INSTANCE_ID_PATTERN` -/
def isInstanceId (t : Text) : Bool :=
  t.all (fun c => c.isAlphanum || c ∈ ['_', '-']) && 1 ≤ t.length && t.length ≤ 64

structure PluginId where
  val : Text
  safe : isSafeId val = true
deriving DecidableEq

structure InstanceId where
  val : Text
  valid : isInstanceId val = true
deriving DecidableEq

/-- What `ingress_events` and a queued job carry of the provider's request. -/
structure IngressPayload where
  headers : List (Text × Text)
  query : List (Text × Text)
  body : Text
  rawBody : Text
deriving DecidableEq

/--
A request that passed the checks at the door, with what the manifest route and the instance decide
about it. `headerId` is the header the route dedups on; `payload` carries the redacted headers.
-/
structure IngressRequest where
  pluginId : PluginId
  instanceId : InstanceId
  route : Text
  method : Text
  dedupOnBody : Bool
  headerId : Option Text
  sessionScope : Option Text
  providerConversationId : Option Text
  payload : IngressPayload
deriving DecidableEq

structure IngressJobData where
  pluginId : PluginId
  instanceId : InstanceId
  route : Text
  method : Option Text
  deliveryId : Text
  sessionId : Option Text
  providerConversationId : Option Text
  payload : Option IngressPayload
deriving DecidableEq

inductive DispatchState where
  | pending
  | dispatched
  | failed
deriving DecidableEq

/-- A row of `ingress_events`. -/
structure IngressEvent where
  id : Nat
  pluginId : PluginId
  instanceId : InstanceId
  providerDeliveryId : Text
  route : Text
  payload : Option IngressPayload
  sessionId : Option Text
  dispatchState : Option DispatchState
  dispatchAttempts : Nat
  lastDispatchAt : Option Nat
  createdAt : Nat
deriving DecidableEq

inductive Direction where
  | inbound
  | outbound
deriving DecidableEq

/-- The self-contained payload of a dead-letter row. -/
structure StoredDlqPayload where
  route : Option Text
  method : Option Text
  providerConversationId : Option Text
  ingress : Option IngressPayload
deriving DecidableEq

/-- A row of `integration_delivery_failures`. -/
structure IntegrationDeliveryFailure where
  id : Nat
  direction : Direction
  pluginId : PluginId
  instanceId : InstanceId
  sessionId : Option Text
  deliveryId : Option Text
  attempts : Int
  lastError : Text
  payload : Option StoredDlqPayload
  redriven : Bool
  createdAt : Nat
deriving DecidableEq

/-- The dedup identity of a delivery, unique in `ingress_events`. -/
structure IngressEventKey where
  pluginId : PluginId
  instanceId : InstanceId
  providerDeliveryId : Text
deriving DecidableEq

def IngressEvent.key (row : IngressEvent) : IngressEventKey :=
  ⟨row.pluginId, row.instanceId, row.providerDeliveryId⟩

def IngressJobData.key (data : IngressJobData) : IngressEventKey :=
  ⟨data.pluginId, data.instanceId, data.deliveryId⟩

section Functions

variable (sha256 : Text → Text)

def nul : Char := '\x00'

def deriveDeliveryId (req : IngressRequest) : Text :=
  sha256 (req.pluginId.val ++ nul :: req.instanceId.val ++ nul :: req.route ++
    nul :: req.payload.rawBody)

/-- A blank header is no id, and a route may dedup on the body alone. -/
def deliveryId (req : IngressRequest) : Text :=
  let headerId := (req.headerId.map trim).getD []
  if req.dedupOnBody || headerId.isEmpty then deriveDeliveryId sha256 req else headerId

/-- The job of the live path. -/
def jobData (req : IngressRequest) : IngressJobData where
  pluginId := req.pluginId
  instanceId := req.instanceId
  route := req.route
  method := some req.method
  deliveryId := deliveryId sha256 req
  sessionId := req.sessionScope
  providerConversationId := req.providerConversationId
  payload := some req.payload

/-- The job of a replay; the conversation id is derived again from the current manifest. -/
def jobDataFor (row : IngressEvent) (payload : IngressPayload)
    (providerConversationId : Option Text) : IngressJobData where
  pluginId := row.pluginId
  instanceId := row.instanceId
  route := row.route
  method := none
  deliveryId := row.providerDeliveryId
  sessionId := row.sessionId
  providerConversationId := providerConversationId
  payload := some payload

/-- The job of a redrive, from a dead-letter row. -/
def redriveData (row : IntegrationDeliveryFailure) (rowId : Text) : IngressJobData :=
  let stored := row.payload.getD ⟨none, none, none, none⟩
  { pluginId := row.pluginId
    instanceId := row.instanceId
    route := stored.route.getD []
    method := some (stored.method.getD "POST".toList)
    deliveryId := row.deliveryId.getD rowId
    sessionId := row.sessionId
    providerConversationId := stored.providerConversationId
    payload := stored.ingress }

/-- `data` and `error` as a row that is still to be inserted. -/
def buildIngressDeadLetterRow (data : IngressJobData) (error : Option Text) (id createdAt : Nat) :
    IntegrationDeliveryFailure where
  id := id
  direction := .inbound
  pluginId := data.pluginId
  instanceId := data.instanceId
  sessionId := data.sessionId
  deliveryId := some data.deliveryId
  attempts := 1
  lastError := error.getD "inline ingress dispatch failed".toList
  payload := some ⟨some data.route, data.method, data.providerConversationId, data.payload⟩
  redriven := false
  createdAt := createdAt

/-- BullMQ refuses an id that reads as an integer. -/
def looksInteger (raw : Text) : Bool := (parseInt raw).toText = raw

/-- BullMQ refuses an id with colons unless it has exactly three parts. -/
def badColon (raw : Text) : Bool := ':' ∈ raw && splitLength ':' raw ≠ 3

/-- BullMQ refuses `0` and every id that starts with `0:`. -/
def zeroPrefixed (raw : Text) : Bool := raw = ['0'] || ['0', ':'].isPrefixOf raw

def refusedJobId (raw : Text) : Bool := looksInteger raw || badColon raw || zeroPrefixed raw

def ingPrefix : Text := "ing-".toList

/-- The id under which BullMQ dedups a job across the whole ingress queue. -/
def sanitizeIngressJobId (raw : Text) (ns : Text) : Text :=
  if !looksInteger raw && !badColon raw && !zeroPrefixed raw then raw
  else ingPrefix ++ (sha256 (ns ++ nul :: raw)).take 40

/-- The job id `enqueue` passes to `queue.add`. -/
def queueJobId (data : IngressJobData) (jobId : Text) : Text :=
  sanitizeIngressJobId sha256 jobId (data.pluginId.val ++ nul :: data.instanceId.val)

end Functions
end OpenWA.Ingress
