import Mathlib.Data.List.Sort
import OpenWA.Async.System
import OpenWA.Js.Text

/-!
This module contains the delivery of webhook events from their outbox row on, in any number of
processes over one database and one queue: the dispatch, the direct delivery with its retries, the
dead letters and the reconciler.
-/

namespace OpenWA.Webhooks

open Async Js

/-- The pair under which the outbox and the failure table know a delivery. -/
structure DeliveryKey where
  webhookId : Text
  idempotencyKey : Text
deriving DecidableEq

structure Webhook where
  id : Text
  url : Text
  secret : Option Text
  headers : List (Text × Text)
  retryCount : Nat
  active : Bool

structure WebhookPayload where
  event : Text
  timestamp : Nat
  sessionId : Text
  idempotencyKey : Text
  deliveryId : Nat
  data : Text
deriving DecidableEq

structure WebhookJobData where
  webhookId : Text
  url : Text
  event : Text
  payload : WebhookPayload
  headers : List (Text × Text)
  attempt : Nat
  maxRetries : Nat
deriving DecidableEq

/-- A job BullMQ accepted; its job id is the delivery id. -/
structure QueuedJob where
  jobId : Nat
  data : WebhookJobData
deriving DecidableEq

def QueuedJob.key (job : QueuedJob) : DeliveryKey := ⟨job.data.webhookId, job.data.payload.idempotencyKey⟩

inductive WebhookOutboxState where
  | pending | dispatched | failed
deriving DecidableEq

/-- A row of `webhook_outbox_events`; a state of none predates the column. -/
structure WebhookOutboxEvent where
  id : Nat
  key : DeliveryKey
  sessionId : Text
  event : Text
  deliveryId : Nat
  payload : Option Text
  state : Option WebhookOutboxState
  attempts : Nat
  lastAttemptAt : Option Nat
  createdAt : Nat
deriving DecidableEq

/-- A row of `webhook_delivery_failures`. -/
structure WebhookDeliveryFailure where
  key : DeliveryKey
  sessionId : Text
  event : Text
  url : Text
  deliveryId : Nat
  attempts : Nat
  lastStatusCode : Option Nat
  lastError : Text
deriving DecidableEq

/--
The tables, the jobs BullMQ has accepted, and of each process the keys it still dispatches, whether it
sweeps and whether it has crashed. Row ids and delivery ids are numbered.
-/
structure Store where
  outbox : List WebhookOutboxEvent
  failures : List WebhookDeliveryFailure
  queue : List QueuedJob
  nextId : Nat
  clock : Nat
  locallyPending : List (Nat × Text)
  sweeping : Nat → Bool
  crashed : List Nat

/-- What the deployment and the runtime provide. The registered webhooks stay as they are. -/
structure Host where
  webhooks : List Webhook
  queueEnabled : Bool
  maxPayloadBytes : Nat
  /-- `JSON.stringify`, or what it throws -/
  stringify : WebhookPayload → Except Text Text
  byteLength : Text → Nat
  /-- `shedInlineMedia` of all inline media -/
  shedInlineMedia : Text → Text
  hmac : Text → Text → Text
  redactSsrfError : Text → Text

def Host.findWebhook (host : Host) (id : Text) : Option Webhook := host.webhooks.find? (·.id = id)

/-- What the limiter does with a task. -/
inductive Admission where
  | slot
  | queueFull
  | closed
deriving DecidableEq

/-- What an await settles with. -/
inductive Answer where
  | ok
  /-- the repository call rejected -/
  | fault
  | admitted (a : Admission)
  /-- the chain of `webhook:before`: whether to go on, and the payload it returned if any -/
  | chain (shouldContinue : Bool) (payload : Option WebhookPayload)
  /-- copying the event data threw -/
  | threw (error : Text)
  /-- BullMQ took the job -/
  | accepted
  /-- BullMQ took the job, and `add` threw -/
  | lostReply
  /-- `add` threw -/
  | rejected
  /-- the receiver answered 2xx -/
  | answered
  /-- the POST failed -/
  | postFailed (error : Text)
deriving DecidableEq

/-- Why an outbox row is closed. -/
inductive Retirement where
  /-- the dispatch is over, and whether the delivery failed -/
  | dispatched (failed : Bool)
  | replayed
  /-- the replay budget is spent -/
  | spent
  /-- the webhook is gone or switched off -/
  | unsubscribed
deriving DecidableEq

/-- A POST to a receiver. -/
structure PostRequest where
  key : DeliveryKey
  url : Text
  body : Text
  headers : List (Text × Text)
deriving DecidableEq

inductive Place where
  | openRow (key : DeliveryKey) (payload : Text)
  | limiter
  | before (key : DeliveryKey)
  | hook
  | add (job : QueuedJob)
  | post (req : PostRequest)
  | lastTriggered
  | backoff
  | countFailures
  | insertFailure
  | close (key : DeliveryKey) (why : Retirement)
  | settle
  | findStale
  | isLocallyPending
  | findWebhook
  | countAttempt
  | sweepEnd
deriving DecidableEq

structure Loc where
  pid : Nat
  place : Place
deriving DecidableEq

/-- What delivery code throws: a repository rejected, or a POST failed. -/
inductive DeliveryError where
  | repository
  | post (message : Text)

abbrev DeliveryTask (α : Type) := Task Store Answer Loc DeliveryError α

def Store.alive (s : Store) (pid : Nat) : Bool := !s.crashed.contains pid

section Turns

variable {α : Type} (pid : Nat) (place : Place)

/-- A write that succeeds, or code that only touches the memory of its process. -/
def write (f : Store → Store × α) : DeliveryTask α :=
  .await ⟨pid, place⟩ (fun x s => s.alive pid && x = .ok) fun _ s => ((f s).1, .ok (f s).2)

/-- A read, which may reject. -/
def read (f : Store → α) : DeliveryTask α :=
  .await ⟨pid, place⟩ (fun x s => s.alive pid && (x = .ok || x = .fault)) fun x s =>
    (s, if x = .fault then .error .repository else .ok (f s))

/-- `hookManager.execute` of an event whose result nobody reads; it does not throw. -/
def executeHook : DeliveryTask Unit := write pid .hook fun s => (s, ())

end Turns

section Outbox

variable (pid : Nat)

def Store.updateOutbox (s : Store) (p : WebhookOutboxEvent → Bool)
    (f : WebhookOutboxEvent → WebhookOutboxEvent) : Store :=
  { s with outbox := s.outbox.map fun row => if p row then f row else row }

def Store.knows (s : Store) (key : DeliveryKey) : Bool := s.outbox.any (·.key = key)

structure OpenRequest where
  key : DeliveryKey
  sessionId : Text
  event : Text
  deliveryId : Nat
  payload : Text

/-- The row is saved unless one of its key exists; then this node owns the key. -/
def openRow (row : OpenRequest) : DeliveryTask Unit :=
  .await ⟨pid, .openRow row.key row.payload⟩ (fun x s => s.alive pid && (x = .ok || x = .fault))
    fun x s =>
      let saved : WebhookOutboxEvent :=
        { id := s.nextId
          key := row.key
          sessionId := row.sessionId
          event := row.event
          deliveryId := row.deliveryId
          payload := some row.payload
          state := some .pending
          attempts := 0
          lastAttemptAt := none
          createdAt := s.clock }
      -- a failed save is swallowed, and the unique key refuses a second row
      let s :=
        if x = .fault || s.knows row.key then s
        else { s with outbox := s.outbox ++ [saved], nextId := s.nextId + 1 }
      ({ s with locallyPending := s.locallyPending ++ [(pid, row.key.idempotencyKey)] }, .ok ())

def close (key : DeliveryKey) (state : WebhookOutboxState) (why : Retirement) : DeliveryTask Unit :=
  write pid (.close key why) fun s =>
    (s.updateOutbox (·.key = key) fun row =>
      { row with state := some state, payload := none, lastAttemptAt := some s.clock }, ())

/-- What a replay needs. -/
structure ReplayableDelivery where
  id : Nat
  key : DeliveryKey
  sessionId : Text
  event : Text
  payload : Text
  attempts : Nat

def replayable (row : WebhookOutboxEvent) : Option ReplayableDelivery :=
  row.payload.map fun payload =>
    { id := row.id
      key := row.key
      sessionId := row.sessionId
      event := row.event
      payload := payload
      attempts := row.attempts }

/-- Pending rows created before the window, oldest first. -/
def findStale (olderThan limit : Nat) (s : Store) : List ReplayableDelivery :=
  let rows := s.outbox.filter fun row => row.state = some .pending && row.createdAt < olderThan
  ((rows.insertionSort fun a b => a.createdAt ≤ b.createdAt).take limit).filterMap replayable

/-- What identifies one attempt: a fresh delivery id, and its time. -/
structure Attempt where
  deliveryId : Nat
  timestamp : Nat

/-- The attempt is counted if the row is still pending, and begins at once. -/
def countAttempt (row : ReplayableDelivery) : DeliveryTask (Option Attempt) :=
  write pid .countAttempt fun s =>
    let affected := s.outbox.any fun r => r.id = row.id && r.state = some .pending
    let s := s.updateOutbox (fun r => r.id = row.id && r.state = some .pending) fun r =>
      { r with attempts := row.attempts + 1, lastAttemptAt := some s.clock }
    if affected then ({ s with nextId := s.nextId + 1 }, some ⟨s.nextId, s.clock⟩) else (s, none)

end Outbox

section Failures

variable (host : Host) (pid : Nat)

/-- The status of an `HTTP <code>` message. -/
def statusCodeFromError (message : Text) : Option Nat :=
  match message with
  | 'H' :: 'T' :: 'T' :: 'P' :: ' ' :: a :: b :: c :: rest =>
    let wordBoundary := rest.head?.all fun d => !(d.isAlphanum || d = '_')
    if a.isDigit && b.isDigit && c.isDigit && wordBoundary then some (digitsValue [a, b, c]) else none
  | _ => none

/-- One row per lost delivery; a repository error is swallowed. -/
def recordWebhookDeliveryFailure (row : WebhookDeliveryFailure) : DeliveryTask Unit :=
  let insert : DeliveryTask Unit := write pid .insertFailure fun s =>
    ({ s with failures := s.failures ++ [row] }, ())
  let body : DeliveryTask Unit := do
    if row.key.idempotencyKey = [] then
      insert
    else
      let existing ← read pid .countFailures fun s => s.failures.countP (·.key = row.key)
      if existing > 0 then return () else insert
  body.catch' fun _ => pure ()

structure DispatchEventContext where
  sessionId : Text
  event : Text
  baseData : Text
deriving DecidableEq

def recordUndelivered (webhook : Webhook) (deliveryId : Nat) (idempotencyKey error : Text)
    (ctx : DispatchEventContext) : DeliveryTask Unit := do
  recordWebhookDeliveryFailure pid
    { key := ⟨webhook.id, idempotencyKey⟩
      sessionId := ctx.sessionId
      event := ctx.event
      url := webhook.url
      deliveryId := deliveryId
      attempts := 0
      lastStatusCode := none
      lastError := host.redactSsrfError error }
  executeHook pid

end Failures

section Preflight

variable (host : Host) (pid : Nat)

/-- Custom headers with a reserved name are dropped. -/
def sanitizeCustomHeaders (custom : List (Text × Text)) : List (Text × Text) :=
  custom.filter fun (key, _) =>
    let name := key.map Char.toLower
    !("content-type".toList.isPrefixOf name || "x-openwa-".toList.isPrefixOf name)

/-- `headers[key] = value` -/
def setHeader (headers : List (Text × Text)) (key value : Text) : List (Text × Text) :=
  headers.filter (fun entry => entry.1 ≠ key) ++ [(key, value)]

def systemHeaders (event idempotencyKey : Text) (deliveryId : Nat) : List (Text × Text) :=
  [("Content-Type".toList, "application/json".toList),
    ("User-Agent".toList, "OpenWA-Webhook/1.0.0".toList),
    ("X-OpenWA-Event".toList, event),
    ("X-OpenWA-Idempotency-Key".toList, idempotencyKey),
    ("X-OpenWA-Delivery-Id".toList, Nat.toDigits 10 deliveryId),
    ("X-OpenWA-Retry-Count".toList, ['0'])]

structure Preflight where
  finalPayload : WebhookPayload
  body : Text
  headers : List (Text × Text)

/-- A delivery may go on, was cancelled by a plugin, or was recorded as undelivered. -/
inductive PreflightResult where
  | go (p : Preflight)
  | cancelled
  | bailed

def oversizeError (bytes cap : Nat) : Text :=
  "Webhook payload is ".toList ++ Nat.toDigits 10 bytes ++
  " bytes after webhook:before hooks, exceeding the ".toList ++ Nat.toDigits 10 cap ++
  "-byte cap".toList

/-- The payload and its body within the size cap, or why the delivery must not proceed. -/
def checkSize (finalPayload : WebhookPayload) : Except Text (WebhookPayload × Text) := do
  let body ← host.stringify finalPayload
  let shedData := host.shedInlineMedia finalPayload.data
  if host.byteLength body ≤ host.maxPayloadBytes then
    .ok (finalPayload, body)
  else if shedData = finalPayload.data then
    .error (oversizeError (host.byteLength body) host.maxPayloadBytes)
  else
    let finalPayload := { finalPayload with data := shedData }
    let body ← host.stringify finalPayload
    if host.byteLength body ≤ host.maxPayloadBytes then .ok (finalPayload, body)
    else .error (oversizeError (host.byteLength body) host.maxPayloadBytes)

def Answer.before? (x : Answer) : Bool :=
  match x with
  | .chain .. | .threw _ => true
  | _ => false

/-- The chain of `webhook:before`: a cancellation, or the payload to send; or copying the data threw. -/
def beforeHook (key : DeliveryKey) (payload : WebhookPayload) :
    DeliveryTask (Except Text (Option WebhookPayload)) :=
  .await ⟨pid, .before key⟩ (fun x s => s.alive pid && x.before?) fun x s =>
    match x with
    | .chain true result => (s, .ok (.ok (some (result.getD payload))))
    | .threw error => (s, .ok (.error error))
    | _ => (s, .ok (.ok none))

/-- Payload, hooks, identity, size gate and headers of one delivery. -/
def preflightDelivery (webhook : Webhook) (attempt : Attempt) (idempotencyKey : Text)
    (ctx : DispatchEventContext) : DeliveryTask PreflightResult := do
  let payload : WebhookPayload :=
    ⟨ctx.event, attempt.timestamp, ctx.sessionId, idempotencyKey, attempt.deliveryId, ctx.baseData⟩
  match ← beforeHook pid ⟨webhook.id, idempotencyKey⟩ payload with
  | .error error =>
    recordUndelivered host pid webhook attempt.deliveryId idempotencyKey error ctx
    return .bailed
  | .ok none => return .cancelled
  | .ok (some result) =>
    -- a hook may rewrite the data, but every identity field stays the server's
    match checkSize host { payload with data := result.data } with
    | .error error =>
      recordUndelivered host pid webhook attempt.deliveryId idempotencyKey error ctx
      return .bailed
    | .ok (finalPayload, body) =>
      return .go ⟨finalPayload, body, sanitizeCustomHeaders webhook.headers ++
        systemHeaders ctx.event idempotencyKey attempt.deliveryId⟩

end Preflight

theorem checkSize_identity {host : Host} {payload finalPayload : WebhookPayload} {body : Text}
    (h : checkSize host payload = .ok (finalPayload, body)) :
    finalPayload.idempotencyKey = payload.idempotencyKey := by
  unfold checkSize at h
  cases hbody : host.stringify payload with
  | error e => simp [hbody, bind, Except.bind] at h
  | ok body₁ =>
    simp only [hbody, bind, Except.bind] at h
    split at h
    . simp only [Except.ok.injEq, Prod.mk.injEq] at h
      rw [h.1]
    . split at h
      . contradiction
      . split at h
        . contradiction
        . split at h
          . simp only [Except.ok.injEq, Prod.mk.injEq] at h
            rw [← h.1]
          . contradiction

section Direct

variable (host : Host) (pid : Nat)

def generateSignature (body secret : Text) : Text := "sha256=".toList ++ host.hmac secret body

/-- A secret that is neither null nor empty. -/
def Webhook.signingSecret (webhook : Webhook) : Option Text := webhook.secret.filter fun t => !t.isEmpty

def signatureHeader : Text := "X-OpenWA-Signature".toList

/-- The headers of an attempt; a signature that is present stays. -/
def attemptHeaders (webhook : Webhook) (body : Text) (headers : List (Text × Text)) (attempt : Nat) :
    List (Text × Text) :=
  let headers := setHeader headers "X-OpenWA-Retry-Count".toList (Nat.toDigits 10 (attempt - 1))
  match webhook.signingSecret with
  | some secret =>
    if ((headers.lookup signatureHeader).filter fun t => !t.isEmpty).isSome then headers
    else setHeader headers signatureHeader (generateSignature host body secret)
  | none => headers

def Answer.post? (x : Answer) : Bool :=
  match x with
  | .answered | .postFailed _ => true
  | _ => false

/-- One POST; the result is what made it fail. -/
def postWebhookPayload (req : PostRequest) : DeliveryTask (Option Text) :=
  .await ⟨pid, .post req⟩ (fun x s => s.alive pid && x.post?) fun x s =>
    match x with
    | .postFailed error => (s, .ok (some error))
    | _ => (s, .ok none)

/-- Direct delivery with `left` retries after this attempt; the last one records the failure. -/
def deliverWebhook (webhook : Webhook) (payload : WebhookPayload) (headers : List (Text × Text))
    (body : Text) (left attempt : Nat) : DeliveryTask Unit := do
  let key : DeliveryKey := ⟨webhook.id, payload.idempotencyKey⟩
  let headers := attemptHeaders host webhook body headers attempt
  match ← postWebhookPayload pid ⟨key, webhook.url, body, headers⟩ with
  | none =>
    -- a failure of this bookkeeping is logged and does not undo the success
    let bookkeeping : DeliveryTask Unit := read pid .lastTriggered fun _ => ()
    bookkeeping.catch' fun _ => pure ()
  | some error =>
    match left with
    | left + 1 =>
      write pid .backoff fun s => (s, ())
      deliverWebhook webhook payload headers body left (attempt + 1)
    | 0 =>
      recordWebhookDeliveryFailure pid
        { key := key
          sessionId := payload.sessionId
          event := payload.event
          url := webhook.url
          deliveryId := payload.deliveryId
          attempts := attempt
          lastStatusCode := statusCodeFromError (host.redactSsrfError error)
          lastError := host.redactSsrfError error }
      throw (.post error)

/-- The attempts of a direct delivery: at least one, and up to the retry count. -/
def deliverDirectly (webhook : Webhook) (p : Preflight) (headers : List (Text × Text)) :
    DeliveryTask Unit :=
  deliverWebhook host pid webhook p.finalPayload headers p.body (webhook.retryCount - 1) 1

end Direct

section Dispatch

variable (host : Host) (pid : Nat)

inductive WebhookDeliveryOutcome where
  | delivered | enqueued | cancelled | failed
deriving DecidableEq

def deliverDirect (webhook : Webhook) (p : Preflight) : DeliveryTask WebhookDeliveryOutcome :=
  let body : DeliveryTask WebhookDeliveryOutcome := do
    deliverDirectly host pid webhook p p.headers
    executeHook pid
    executeHook pid
    return .delivered
  body.catch' fun _ => do
    executeHook pid
    return .failed

/-- `webhookQueue.add`; the result says whether it resolved. -/
def queueAdd (job : QueuedJob) : DeliveryTask Bool :=
  .await ⟨pid, .add job⟩
    (fun x s => s.alive pid && (x = .accepted || x = .lostReply || x = .rejected))
    fun x s =>
      match x with
      | .accepted => ({ s with queue := s.queue ++ [job] }, .ok true)
      | .lostReply => ({ s with queue := s.queue ++ [job] }, .ok false)
      | _ => (s, .ok false)

def enqueueWithFallback (webhook : Webhook) (p : Preflight) (attempt : Attempt)
    (ctx : DispatchEventContext) : DeliveryTask WebhookDeliveryOutcome := do
  let headers :=
    match webhook.signingSecret with
    | some secret => setHeader p.headers signatureHeader (generateSignature host p.body secret)
    | none => p.headers
  let jobData : WebhookJobData :=
    { webhookId := webhook.id
      url := webhook.url
      event := ctx.event
      payload := p.finalPayload
      headers := headers
      attempt := 1
      maxRetries := webhook.retryCount }
  if ← queueAdd pid ⟨attempt.deliveryId, jobData⟩ then
    executeHook pid
    return .enqueued
  else
    executeHook pid
    let fallback : DeliveryTask WebhookDeliveryOutcome := do
      deliverDirectly host pid webhook p headers
      executeHook pid
      executeHook pid
      return .delivered
    fallback.catch' fun _ => do
      executeHook pid
      return .failed

def deliverOne (webhook : Webhook) (attempt : Attempt) (idempotencyKey : Text)
    (ctx : DispatchEventContext) : DeliveryTask WebhookDeliveryOutcome := do
  match ← preflightDelivery host pid webhook attempt idempotencyKey ctx with
  | .cancelled => return .cancelled
  | .bailed => return .failed
  | .go p =>
    if host.queueEnabled then enqueueWithFallback host pid webhook p attempt ctx
    else deliverDirect host pid webhook p

def Answer.admission? (x : Answer) : Option Admission :=
  match x with
  | .admitted a => some a
  | _ => none

/-- `dispatchLimiter.run` up to the start of its task. How it admits tasks is left open. -/
def admission : DeliveryTask (Admission × Nat) :=
  .await ⟨pid, .limiter⟩ (fun x s => s.alive pid && x.admission?.isSome) fun x s =>
    (s, .ok (x.admission?.getD .closed, s.clock))

def runLimited (webhook : Webhook) (deliveryId : Nat) (idempotencyKey : Text)
    (ctx : DispatchEventContext) : DeliveryTask Unit := do
  match ← admission pid with
  | (.slot, now) =>
    let outcome ← deliverOne host pid webhook ⟨deliveryId, now⟩ idempotencyKey ctx
    close pid ⟨webhook.id, idempotencyKey⟩ .dispatched (.dispatched (outcome = .failed))
  | (.queueFull, _) =>
    recordUndelivered host pid webhook deliveryId idempotencyKey
      "ConcurrencyLimiter queue full".toList ctx
  | (.closed, _) =>
    recordUndelivered host pid webhook deliveryId idempotencyKey
      "ConcurrencyLimiter closed".toList ctx

/-- The row is opened before anything is attempted. -/
def dispatchWithLimit (webhook : Webhook) (deliveryId : Nat) (baseIdempotencyKey : Text)
    (ctx : DispatchEventContext) : DeliveryTask Unit := do
  let idempotencyKey := baseIdempotencyKey ++ '_' :: webhook.id
  openRow pid ⟨⟨webhook.id, idempotencyKey⟩, ctx.sessionId, ctx.event, deliveryId, ctx.baseData⟩
  (runLimited host pid webhook deliveryId idempotencyKey ctx).andFinally (write pid .settle fun s =>
    ({ s with locallyPending := s.locallyPending.erase (pid, idempotencyKey) }, ()))

end Dispatch

section Reconciler

structure WebhookReconcilerOptions where
  graceMs : Nat
  batchSize : Nat
  maxAttempts : Nat
deriving DecidableEq

variable (host : Host) (pid : Nat) (opts : WebhookReconcilerOptions)

/-- `delivery.isLocallyPending` -/
def Store.isLocallyPending (s : Store) (pid : Nat) (idempotencyKey : Text) : Bool :=
  s.locallyPending.contains (pid, idempotencyKey)

/-- Replays the row once its attempt is counted. -/
def replayRow (webhook : Webhook) (row : ReplayableDelivery) : DeliveryTask Unit := do
  match ← countAttempt pid row with
  | none => return ()
  | some attempt =>
    let body : DeliveryTask Unit := do
      let outcome ← deliverOne host pid webhook attempt row.key.idempotencyKey
        ⟨row.sessionId, row.event, row.payload⟩
      -- left pending on purpose: the next sweep retries it until the budget is spent
      if outcome = .failed then return () else close pid row.key .dispatched .replayed
    body.catch' fun _ => pure ()

def reconcileRow (row : ReplayableDelivery) : DeliveryTask Unit := do
  if row.attempts ≥ opts.maxAttempts then
    close pid row.key .failed .spent
  else
    match ← read pid .findWebhook fun _ => host.findWebhook row.key.webhookId with
    | some webhook =>
      if webhook.active then replayRow host pid webhook row
      else close pid row.key .failed .unsubscribed
    | none => close pid row.key .failed .unsubscribed

def sweepRows (rows : List ReplayableDelivery) : DeliveryTask Unit :=
  match rows with
  | [] => pure ()
  | row :: rows => do
    -- a row that a dispatch on this node still owns is slow rather than stranded
    if ← write pid .isLocallyPending fun s => (s, s.isLocallyPending pid row.key.idempotencyKey) then
      sweepRows rows
    else
      reconcileRow host pid opts row
      sweepRows rows

def Store.setSweeping (s : Store) (pid : Nat) (b : Bool) : Store :=
  { s with sweeping := fun p => if p = pid then b else s.sweeping p }

/-- A sweep after its overlap guard. -/
def sweep (now : Nat) : DeliveryTask Unit :=
  let body : DeliveryTask Unit := do
    let rows ← read pid .findStale (findStale (now - opts.graceMs) opts.batchSize)
    sweepRows host pid opts rows
  body.andFinally (write pid .sweepEnd fun s => (s.setSweeping pid false, ()))

end Reconciler

/-- The events; a matched webhook of a dispatch is one that is registered and active. -/
inductive Event where
  | dispatch (pid : Nat) (webhookId baseIdempotencyKey : Text) (ctx : DispatchEventContext)
  | sweep (pid : Nat) (opts : WebhookReconcilerOptions)
  | crash (pid : Nat)
  | tick (ms : Nat)
deriving DecidableEq

/-- What runs at once when the event happens, and the activation it starts. -/
def Event.run (host : Host) (v : Event) (s : Store) : Option (Store × DeliveryTask Unit) :=
  match v with
  | .dispatch pid webhookId baseIdempotencyKey ctx =>
    match (host.findWebhook webhookId).filter (·.active) with
    | some webhook =>
      if s.alive pid then
        some ({ s with nextId := s.nextId + 1 },
          dispatchWithLimit host pid webhook s.nextId baseIdempotencyKey ctx)
      else none
    | none => none
  | .sweep pid opts =>
    if s.alive pid then
      -- a slow pass never stacks a second one on top of itself
      if s.sweeping pid then some (s, pure ())
      else some (s.setSweeping pid true, Webhooks.sweep host pid opts s.clock)
    else none
  | .crash pid => some ({ s with crashed := pid :: s.crashed }, pure ())
  | .tick ms => some ({ s with clock := s.clock + ms }, pure ())

end OpenWA.Webhooks
