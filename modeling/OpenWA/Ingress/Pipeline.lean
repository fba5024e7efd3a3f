import Mathlib.Data.List.Sort
import OpenWA.Async.System
import OpenWA.Ingress.Records

/-!
This module contains what happens to recorded webhook deliveries in any number of processes over one
database and one queue: the live path after the checks at the door, the reconciler and the redrive of
dead letters.
-/

namespace OpenWA.Ingress

open Async Js

/-- A job as it was handed to BullMQ. -/
structure QueuedJob where
  jobId : Text
  data : IngressJobData
deriving DecidableEq

/--
The tables, the jobs BullMQ has accepted, the handler dispatches that completed, and of each process
whether it sweeps, which instances it redrives and whether it has crashed. Row ids are numbered.
-/
structure Store where
  events : List IngressEvent
  failures : List IntegrationDeliveryFailure
  nextId : Nat
  queue : List QueuedJob
  dispatched : List IngressJobData
  clock : Nat
  sweeping : Nat → Bool
  redriving : List (Nat × PluginId × InstanceId)
  crashed : List Nat

/-- What an await settles with. -/
inductive Answer where
  | ok
  /-- a read rejected -/
  | fault
  /-- BullMQ took the job -/
  | accepted
  /-- BullMQ resolved `add` as a job it already held under the id -/
  | duplicate
  /-- `add` threw -/
  | rejected
  /-- the handler dispatch completed -/
  | delivered
  /-- the handler dispatch threw -/
  | threw (error : Text)
  /-- `instances.resolve`, and the conversation id the current manifest derives -/
  | instance (enabled : Bool) (providerConversationId : Option Text)
deriving DecidableEq

inductive Place where
  | record (key : IngressEventKey) (payload : IngressPayload)
  | add (job : QueuedJob)
  | dispatch
  | markDispatched
  | incrementAttempts
  | touch
  | saveDeadLetter
  | sweepFind
  | resolve
  | replayed
  | retireDeadLetters
  | countDeadLetters
  | ensureDeadLetter
  | markFailed
  | countAttempt
  | sweepEnd
  | acquire
  | redriveFind
  | redriveRetire
  | markRedriven
  | redriveFailed
  | countRemaining
  | release
deriving DecidableEq

structure Loc where
  pid : Nat
  place : Place
deriving DecidableEq

/-- A repository read rejected. -/
inductive IngressError where
  | repository

abbrev IngressTask (α : Type) := Task Store Answer Loc IngressError α

/-- What the deployment and the runtime provide. -/
structure Host where
  sha256 : Text → Text
  useQueue : Bool

def Store.alive (s : Store) (pid : Nat) : Bool := !s.crashed.contains pid

section Turns

variable {α : Type} (pid : Nat) (place : Place)

/-- A write, or code that only touches the memory of its process. -/
def write (f : Store → Store × α) : IngressTask α :=
  .await ⟨pid, place⟩ (fun x s => s.alive pid && x = .ok) fun _ s => ((f s).1, .ok (f s).2)

/-- A read, which may reject. -/
def read (f : Store → α) : IngressTask α :=
  .await ⟨pid, place⟩ (fun x s => s.alive pid && (x = .ok || x = .fault)) fun x s =>
    (s, if x = .fault then .error .repository else .ok (f s))

end Turns

def Store.updateEvents (s : Store) (p : IngressEvent → Bool) (f : IngressEvent → IngressEvent) :
    Store :=
  { s with events := s.events.map fun row => if p row then f row else row }

def Store.updateFailures (s : Store) (p : IntegrationDeliveryFailure → Bool)
    (f : IntegrationDeliveryFailure → IntegrationDeliveryFailure) : Store :=
  { s with failures := s.failures.map fun row => if p row then f row else row }

def Store.known (s : Store) (key : IngressEventKey) : Bool := s.events.any (·.key = key)

def Store.insertEvent (s : Store) (row : IngressEvent) : Store :=
  { s with events := s.events ++ [row], nextId := s.nextId + 1 }

/-- `failures.save` of a row built by `build` from its id and its creation time. -/
def Store.saveFailure (s : Store) (build : Nat → Nat → IntegrationDeliveryFailure) : Store :=
  { s with failures := s.failures ++ [build s.nextId s.clock], nextId := s.nextId + 1 }

section Enqueue

variable (host : Host) (pid : Nat)

/-- 'queued', 'dispatched' inline, or 'failed' with what the inline dispatch threw. -/
inductive EnqueueOutcome where
  | queued
  | dispatched
  | failed (error : Text)
deriving DecidableEq

/-- `ingressQueue.add`; the result says whether it resolved. -/
def queueAdd (job : QueuedJob) : IngressTask Bool :=
  .await ⟨pid, .add job⟩
    (fun x s => s.alive pid && (x = .accepted || x = .rejected ||
      x = .duplicate && s.queue.any fun held => held.jobId = job.jobId))
    fun x s =>
      match x with
      | .accepted => ({ s with queue := s.queue ++ [job] }, .ok true)
      | .duplicate => (s, .ok true)
      | _ => (s, .ok false)

def Answer.dispatch? (x : Answer) : Bool :=
  match x with
  | .delivered | .threw _ => true
  | _ => false

/-- The inline dispatch; the result is the error it threw. -/
def dispatchWebhookForInstance (data : IngressJobData) : IngressTask (Option Text) :=
  .await ⟨pid, .dispatch⟩ (fun x s => s.alive pid && x.dispatch?) fun x s =>
    match x with
    | .threw error => (s, .ok (some error))
    | _ => ({ s with dispatched := s.dispatched ++ [data] }, .ok none)

def dispatchInline (data : IngressJobData) : IngressTask EnqueueOutcome := do
  match ← dispatchWebhookForInstance pid data with
  | none => return .dispatched
  | some error => return .failed error

/-- `IngressEnqueueService.enqueue`, which never throws. -/
def enqueue (data : IngressJobData) (jobId : Text) : IngressTask EnqueueOutcome := do
  if host.useQueue then
    if ← queueAdd pid ⟨queueJobId host.sha256 data jobId, data⟩ then
      return .queued
    else
      dispatchInline pid data
  else
    dispatchInline pid data

end Enqueue

section Live

variable (host : Host) (pid : Nat)

def requestKey (req : IngressRequest) : IngressEventKey :=
  ⟨req.pluginId, req.instanceId, deliveryId host.sha256 req⟩

/-- The row of a new delivery, stamped `pending` explicitly. -/
def newEvent (req : IngressRequest) (id createdAt : Nat) : IngressEvent where
  id := id
  pluginId := req.pluginId
  instanceId := req.instanceId
  providerDeliveryId := deliveryId host.sha256 req
  route := req.route
  payload := some req.payload
  sessionId := req.sessionScope
  dispatchState := some .pending
  dispatchAttempts := 0
  lastDispatchAt := none
  createdAt := createdAt

/-- The unique key of `ingress_events` refuses a second row of a delivery. -/
def recordOrSkip (req : IngressRequest) : IngressTask Bool :=
  write pid (.record (requestKey host req) req.payload) fun s =>
    if s.known (requestKey host req) then (s, false)
    else (s.insertEvent (newEvent host req s.nextId s.clock), true)

def retire (now : Nat) (row : IngressEvent) : IngressEvent :=
  { row with dispatchState := some .dispatched, lastDispatchAt := some now, payload := none }

def markDispatchOutcome (key : IngressEventKey) (outcome : EnqueueOutcome) : IngressTask Unit :=
  match outcome with
  | .failed _ => do
    write pid .incrementAttempts fun s =>
      (s.updateEvents (·.key = key) fun row =>
        { row with dispatchAttempts := row.dispatchAttempts + 1 }, ())
    write pid .touch fun s =>
      (s.updateEvents (·.key = key) fun row => { row with lastDispatchAt := some s.clock }, ())
  | _ => write pid .markDispatched fun s =>
    (s.updateEvents (·.key = key) (retire s.clock), ())

/-- The `enqueue` the live path is wired with: it also records the outcome. -/
def enqueueLive (data : IngressJobData) (jobId : Text) : IngressTask Unit := do
  let outcome ← enqueue host pid data jobId
  markDispatchOutcome pid data.key outcome
  match outcome with
  | .failed error =>
    write pid .saveDeadLetter fun s =>
      (s.saveFailure (buildIngressDeadLetterRow data (some error)), ())
  | _ => return ()

/--
`handle` from `recordOrSkip` on. The 2xx ack of a new delivery follows the insert: at once on a route
with a `response`, else after the outcome is recorded.
-/
def handle (req : IngressRequest) : IngressTask Unit := do
  if ← recordOrSkip host pid req then
    enqueueLive host pid (jobData host.sha256 req) (deliveryId host.sha256 req)

end Live

section Reconciler

structure IngressReconcilerOptions where
  graceMs : Nat
  batchSize : Nat
  maxAttempts : Nat
deriving DecidableEq

variable (host : Host) (pid : Nat) (opts : IngressReconcilerOptions) (now : Nat)

/-- Rows of the `pending` backlog created before the grace window, oldest first. -/
def stalePending (s : Store) : List IngressEvent :=
  let rows := s.events.filter fun row =>
    row.dispatchState = some .pending && row.createdAt + opts.graceMs < now
  (rows.insertionSort fun a b => a.createdAt ≤ b.createdAt).take opts.batchSize

/-- The row's latest attempt is still inside the grace window. -/
def cooling (row : IngressEvent) : Bool :=
  match row.lastDispatchAt with
  | some last => now < last + opts.graceMs
  | none => false

def sameDelivery (data : IngressJobData) (row : IntegrationDeliveryFailure) : Bool :=
  row.direction = .inbound && row.pluginId = data.pluginId && row.instanceId = data.instanceId &&
    row.deliveryId = some data.deliveryId

/-- A dead letter only if none is found for the delivery. -/
def ensureDeadLetterRow (data : IngressJobData) (attempts : Nat) (error : Text) :
    IngressTask Unit := do
  let existing ← read pid .countDeadLetters fun s => s.failures.countP (sameDelivery data)
  if existing > 0 then
    return ()
  else
    write pid .ensureDeadLetter fun s =>
      (s.saveFailure fun id createdAt =>
        { buildIngressDeadLetterRow data (some error) id createdAt with attempts := attempts }, ())

def reconcileRow (row : IngressEvent) (data : IngressJobData) : IngressTask Unit := do
  match ← enqueue host pid data row.providerDeliveryId with
  | .failed error =>
    let attempts := row.dispatchAttempts + 1
    if attempts ≥ opts.maxAttempts then
      ensureDeadLetterRow pid data attempts error
      write pid .markFailed fun s =>
        (s.updateEvents (·.id = row.id) fun r =>
          { r with
            dispatchAttempts := attempts
            lastDispatchAt := some now
            dispatchState := some .failed
            payload := none }, ())
    else
      write pid .countAttempt fun s =>
        (s.updateEvents (·.id = row.id) fun r =>
          { r with dispatchAttempts := attempts, lastDispatchAt := some now }, ())
  | _ =>
    write pid .replayed fun s => (s.updateEvents (·.id = row.id) (retire now), ())
    write pid .retireDeadLetters fun s =>
      (s.updateFailures (fun r => sameDelivery data r && !r.redriven) fun r =>
        { r with redriven := true }, ())

def Answer.instance? (x : Answer) : Option (Bool × Option Text) :=
  match x with
  | .instance enabled conversationId => some (enabled, conversationId)
  | _ => none

/-- `instances.resolve`, with the conversation id of the manifest at that time. -/
def resolveInstance : IngressTask (Bool × Option Text) :=
  .await ⟨pid, .resolve⟩ (fun x s => s.alive pid && (x.instance?.isSome || x = .fault)) fun x s =>
    (s, x.instance?.elim (.error .repository) .ok)

/-- One row of the batch. A failure of its bookkeeping does not abort the batch. -/
def sweepRow (row : IngressEvent) : IngressTask Unit :=
  match row.payload with
  | some payload =>
    if cooling opts now row then
      pure ()
    else
      let body : IngressTask Unit := do
        let (enabled, conversationId) ← resolveInstance pid
        if enabled then
          reconcileRow host pid opts now row (jobDataFor row payload conversationId)
      body.catch' fun _ => pure ()
  | none => pure ()

def sweepRows (rows : List IngressEvent) : IngressTask Unit :=
  match rows with
  | [] => pure ()
  | row :: rows => do
    sweepRow host pid opts now row
    sweepRows rows

def Store.setSweeping (s : Store) (pid : Nat) (b : Bool) : Store :=
  { s with sweeping := fun p => if p = pid then b else s.sweeping p }

/-- A sweep after its overlap guard. -/
def sweep : IngressTask Unit :=
  let body : IngressTask Unit := do
    let rows ← read pid .sweepFind (stalePending opts now)
    sweepRows host pid opts now rows
  body.andFinally (write pid .sweepEnd fun s => (s.setSweeping pid false, ()))

end Reconciler

section Redrive

def redriveBatchSize : Nat := 100

variable (host : Host) (pid : Nat) (plugin : PluginId) (inst : InstanceId)
  (sessionIdFilter : Option Text)

/-- The dead letters of the instance that were not redriven yet. -/
def redrivable (row : IntegrationDeliveryFailure) : Bool :=
  row.pluginId = plugin && row.instanceId = inst && row.direction = .inbound && !row.redriven &&
    (sessionIdFilter.isNone || row.sessionId = sessionIdFilter)

/-- The first window of them, the least retried first. -/
def redriveRows (s : Store) : List IntegrationDeliveryFailure :=
  let rows := s.failures.filter (redrivable plugin inst sessionIdFilter)
  (rows.insertionSort fun a b =>
    a.attempts < b.attempts ∨ a.attempts = b.attempts ∧ a.createdAt ≤ b.createdAt).take
      redriveBatchSize

def rowIdText (id : Nat) : Text := Nat.toDigits 10 id

def redriveJobId (row : IntegrationDeliveryFailure) : Text :=
  "redrive:".toList ++ rowIdText row.id

/-- The `pending` event of a delivery whose dead letter was replayed. -/
def retireReplayed (row : IntegrationDeliveryFailure) : IngressTask Unit :=
  match row.deliveryId with
  | some deliveryId => write pid .redriveRetire fun s =>
    (s.updateEvents (fun r => r.key = ⟨plugin, inst, deliveryId⟩ &&
      r.dispatchState = some .pending) (retire s.clock), ())
  | none => pure ()

def redriveRow (row : IntegrationDeliveryFailure) : IngressTask Unit := do
  match ← enqueue host pid (redriveData row (rowIdText row.id)) (redriveJobId row) with
  | .failed error =>
    write pid .redriveFailed fun s =>
      (s.updateFailures (·.id = row.id) fun r =>
        { r with attempts := max 0 row.attempts + 1, lastError := error }, ())
  | _ =>
    retireReplayed pid plugin inst row
    write pid .markRedriven fun s =>
      (s.updateFailures (·.id = row.id) fun r => { r with redriven := true }, ())

def redriveAll (rows : List IntegrationDeliveryFailure) : IngressTask Unit :=
  match rows with
  | [] => pure ()
  | row :: rows => do
    redriveRow host pid plugin inst row
    redriveAll rows

def redriveBatch : IngressTask Unit := do
  let rows ← read pid .redriveFind (redriveRows plugin inst sessionIdFilter)
  redriveAll host pid plugin inst rows
  let _ ← read pid .countRemaining fun s =>
    s.failures.countP (redrivable plugin inst sessionIdFilter)
  return ()

/-- `lock.run` of the key of the instance: one batch at a time in a process. -/
def redriveInstance : IngressTask Unit := do
  .await ⟨pid, .acquire⟩
    (fun x s => s.alive pid && x = .ok && !s.redriving.contains (pid, plugin, inst))
    fun _ s => ({ s with redriving := (pid, plugin, inst) :: s.redriving }, .ok ())
  (redriveBatch host pid plugin inst sessionIdFilter).andFinally (write pid .release fun s =>
    ({ s with redriving := s.redriving.erase (pid, plugin, inst) }, ()))

end Redrive

inductive Event where
  | handle (pid : Nat) (req : IngressRequest)
  | sweep (pid : Nat) (opts : IngressReconcilerOptions)
  | redrive (pid : Nat) (plugin : PluginId) (inst : InstanceId) (sessionIdFilter : Option Text)
  | crash (pid : Nat)
  | tick (ms : Nat)
deriving DecidableEq

/-- What runs at once when the event happens, and the activation it starts. -/
def Event.run (host : Host) (v : Event) (s : Store) : Option (Store × IngressTask Unit) :=
  match v with
  | .handle pid req => if s.alive pid then some (s, Ingress.handle host pid req) else none
  | .sweep pid opts =>
    if s.alive pid then
      -- a slow sweep never stacks a second pass on top of itself
      if s.sweeping pid then some (s, pure ())
      else some (s.setSweeping pid true, Ingress.sweep host pid opts s.clock)
    else none
  | .redrive pid plugin inst sessionIdFilter =>
    if s.alive pid then some (s, redriveInstance host pid plugin inst sessionIdFilter) else none
  | .crash pid => some ({ s with crashed := pid :: s.crashed }, pure ())
  | .tick ms => some ({ s with clock := s.clock + ms }, pure ())

end OpenWA.Ingress
