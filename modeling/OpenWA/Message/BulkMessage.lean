import OpenWA.Async.System

/-!
This module contains the processing of one stored bulk-message batch by any number of processes: the
run that sends it, its cancellation, and the reapers of batches left behind by another process.
-/

namespace OpenWA.Message

open Async

inductive BatchStatus where
  | pending
  | processing
  | completed
  | cancelled
  | failed
deriving DecidableEq

/-- COMPLETED, FAILED and CANCELLED are never left again. -/
def BatchStatus.terminal (status : BatchStatus) : Bool :=
  match status with
  | .completed | .cancelled | .failed => true
  | .pending | .processing => false

/-- What became of one message: the id the engine gave it, or the sanitized error. -/
inductive Outcome where
  | sent (messageId : String)
  | failed (code message : String)
deriving DecidableEq

structure BatchMessageResult where
  chatId : String
  outcome : Outcome
deriving DecidableEq

structure BatchProgress where
  total : Int
  sent : Int
  failed : Int
  pending : Int
  cancelled : Int
deriving DecidableEq

/-- A message of the batch; `payload` says whether it still carries inline base64 media. -/
structure BatchMessage where
  chatId : String
  payload : Bool
deriving DecidableEq

/-- A row of `message_batches`. -/
structure MessageBatch where
  status : BatchStatus
  messages : List BatchMessage
  stopOnError : Bool
  progress : BatchProgress
  results : List BatchMessageResult
  currentIndex : Nat
deriving DecidableEq

def stripBatchMediaPayloads (batch : MessageBatch) : MessageBatch :=
  { batch with messages := batch.messages.map fun m => { m with payload := false } }

def resolveFinalBatchStatus (cancelled stoppedOnError : Bool) (progress : BatchProgress) :
    BatchStatus :=
  if cancelled then .cancelled
  else if stoppedOnError then .failed
  else if progress.failed > 0 ∧ progress.sent = 0 then .failed
  else .completed

/--
The stored row, and for each process its entry for the batch in `processingBatches` and whether it
has crashed.
-/
structure Store where
  row : MessageBatch
  processingBatches : Nat → Option Bool
  crashed : List Nat

/-- What an await settles with. -/
inductive Answer where
  | ok
  /-- the repository call rejected and had no effect -/
  | fault
  /-- `engines.get(sessionId)` found an engine -/
  | engine (registered : Bool)
  /-- `ownership.claimable` names the session of the batch -/
  | claimable (yes : Bool)
  /-- the gates, the engine call and its bookkeeping for one message are done -/
  | message (outcome : Outcome)
deriving DecidableEq

inductive Place where
  | find
  | begin
  | markProcessing
  | engine
  | failWithoutEngine
  | checkCancelled
  | send (index : Nat)
  | saveProgress
  | reread
  | resolveFinal
  | saveCancelled
  | saveFinal
  | release
  | cancelFind
  | signal
  | cancelUpdate
  | cancelReread
  | reapFind
  | reapOwned
  | reapSave
deriving DecidableEq

/-- A place in the code of one process. -/
structure Loc where
  pid : Nat
  place : Place
deriving DecidableEq

inductive BatchError where
  | repository
  | badRequest (status : BatchStatus)
deriving DecidableEq

abbrev Job (α : Type) := Task Store Answer Loc BatchError α

def Store.alive (s : Store) (pid : Nat) : Bool := !s.crashed.contains pid

/-- `this.processingBatches.get(batch.id)` is truthy. -/
def Store.flagged (s : Store) (pid : Nat) : Bool := s.processingBatches pid = some true

section Turns

variable {α : Type} (pid : Nat) (place : Place)

/-- A repository call, which takes effect atomically or rejects. -/
def query (f : Store → Store × α) : Job α :=
  .await ⟨pid, place⟩ (fun x s => s.alive pid && (x = .ok || x = .fault)) fun x s =>
    if x = .fault then (s, .error .repository) else ((f s).1, .ok (f s).2)

/-- Code that runs in one turn and only touches the memory of its process. -/
def turn (f : Store → Store × Except BatchError α) : Job α :=
  .await ⟨pid, place⟩ (fun x s => s.alive pid && x = .ok) fun _ s => f s

/-- An await outside the modelled state. -/
def ask (read : Answer → Option α) : Job α :=
  .await ⟨pid, place⟩ (fun x s => s.alive pid && (read x).isSome) fun x s =>
    match read x with
    | some a => (s, .ok a)
    | none => (s, .error .repository)

end Turns

def Answer.engine? (x : Answer) : Option Bool :=
  match x with
  | .engine registered => some registered
  | _ => none

def Answer.claimable? (x : Answer) : Option Bool :=
  match x with
  | .claimable yes => some yes
  | _ => none

def Answer.message? (x : Answer) : Option Outcome :=
  match x with
  | .message outcome => some outcome
  | _ => none

/-- `update({ id, status: <allowed> }, <patch>)`; the result says whether a row was affected. -/
def updateWhere (allowed : BatchStatus → Bool) (patch : MessageBatch → MessageBatch) (s : Store) :
    Store × Bool :=
  if allowed s.row.status then ({ s with row := patch s.row }, true) else (s, false)

/-- `Not(BatchStatus.CANCELLED)` -/
def notCancelled (status : BatchStatus) : Bool := status ≠ .cancelled

/-- `In([BatchStatus.PENDING, BatchStatus.PROCESSING])` -/
def pendingOrProcessing (status : BatchStatus) : Bool := status = .pending ∨ status = .processing

def Store.setFlag (s : Store) (pid : Nat) (flag : Option Bool) : Store :=
  { s with processingBatches := fun p => if p = pid then flag else s.processingBatches p }

section Process

/-- `BatchExecutionState` together with the in-memory batch of the run. -/
structure BatchRun where
  batch : MessageBatch
  results : List BatchMessageResult
  stoppedOnError : Bool
  cancelledByDb : Bool

/-- Returns false when a committed cancel won the guarded start UPDATE. -/
def markBatchProcessing (pid : Nat) : Job Bool :=
  query pid .markProcessing (updateWhere notCancelled fun row => { row with status := .processing })

def failBatchWithoutEngine (pid : Nat) (batch : MessageBatch) : Job Unit := do
  let batch := stripBatchMediaPayloads batch
  let _ ← query pid .failWithoutEngine (updateWhere notCancelled fun row =>
    { row with status := .failed, messages := batch.messages })
  return ()

/-- The counters and the result list after one message. -/
def BatchRun.record (run : BatchRun) (msg : BatchMessage) (outcome : Outcome) : BatchRun :=
  let p := run.batch.progress
  let progress :=
    match outcome with
    | .sent _ => { p with sent := p.sent + 1, pending := p.pending - 1 }
    | .failed _ _ => { p with failed := p.failed + 1, pending := p.pending - 1 }
  { run with
    batch := { run.batch with progress := progress }
    results := run.results ++ [⟨msg.chatId, outcome⟩] }

def Outcome.isFailed (outcome : Outcome) : Bool :=
  match outcome with
  | .sent _ => false
  | .failed _ _ => true

/-- Returns false when the loop must stop. -/
def processBatchMessage (pid : Nat) (msg : BatchMessage) (i : Nat) (run : BatchRun) :
    Job (BatchRun × Bool) := do
  let running ← turn pid .checkCancelled fun s => (s, .ok (s.flagged pid))
  if !running then
    return (run, false)
  let outcome ← ask pid (.send i) Answer.message?
  let run := run.record msg outcome
  if outcome.isFailed && run.batch.stopOnError then
    return ({ run with batch := { run.batch with status := .failed }, stoppedOnError := true }, false)
  let run := { run with batch := { run.batch with currentIndex := i + 1, results := run.results } }
  if i % 10 = 0 || i = run.batch.messages.length - 1 then
    let saved ← query pid .saveProgress (updateWhere notCancelled fun row =>
      { row with
        progress := run.batch.progress
        results := run.results
        currentIndex := run.batch.currentIndex })
    if !saved then
      return ({ run with cancelledByDb := true }, false)
  return (run, true)

/-- The loop from index `i` on, over the messages that are left. -/
def processBatchMessages (pid : Nat) (messages : List BatchMessage) (i : Nat) (run : BatchRun) :
    Job BatchRun :=
  match messages with
  | [] => pure run
  | msg :: messages => do
    let (run, continues) ← processBatchMessage pid msg i run
    if continues then
      processBatchMessages pid messages (i + 1) run
    else
      return run

/-- The in-memory batch `finalizeBatch` writes. -/
def BatchRun.final (run : BatchRun) (cancelled : Bool) : MessageBatch :=
  let batch := run.batch
  let status := resolveFinalBatchStatus cancelled run.stoppedOnError batch.progress
  let progress :=
    if cancelled then
      { batch.progress with cancelled := batch.progress.pending, pending := 0 }
    else
      batch.progress
  stripBatchMediaPayloads { batch with status := status, progress := progress, results := run.results }

/-- `state.cancelledByDb` after the re-read of the stored status. -/
def rereadCancelled (pid : Nat) (run : BatchRun) : Job Bool :=
  if run.cancelledByDb then
    pure true
  else
    query pid .reread fun s => (s, decide (s.row.status = .cancelled))

/-- A cancelled batch is saved whole; any other end is guarded against a cancel that came first. -/
def writeFinal (pid : Nat) (batch : MessageBatch) : Job Unit :=
  if batch.status = .cancelled then
    query pid .saveCancelled fun s => ({ s with row := batch }, ())
  else do
    let _ ← query pid .saveFinal (updateWhere notCancelled fun row =>
      { row with
        status := batch.status
        progress := batch.progress
        results := batch.results
        currentIndex := batch.currentIndex
        messages := batch.messages })
    return ()

def finalizeBatch (pid : Nat) (run : BatchRun) : Job Unit := do
  let cancelledByDb ← rereadCancelled pid run
  let flag ← turn pid .resolveFinal fun s => (s, .ok (s.flagged pid))
  writeFinal pid (run.final (cancelledByDb || !flag))

def executeBatch (pid : Nat) (batch : MessageBatch) : Job Unit := do
  if !(← markBatchProcessing pid) then
    return ()
  let batch := { batch with status := .processing }
  if !(← ask pid .engine Answer.engine?) then
    failBatchWithoutEngine pid batch
  else
    let run ← processBatchMessages pid (batch.messages.drop batch.currentIndex) batch.currentIndex
      ⟨batch, batch.results, false, false⟩
    finalizeBatch pid run

def processBatch (pid : Nat) : Job Unit := do
  let batch ← query pid .find fun s => (s, s.row)
  let body : Job Unit := do
    let started ← turn pid .begin fun s =>
      if s.processingBatches pid = some false ∨ batch.status = .cancelled then
        (s, .ok false)
      else
        (s.setFlag pid (some true), .ok true)
    if started then
      executeBatch pid batch
  body.andFinally (turn pid .release fun s => (s.setFlag pid none, .ok ()))

end Process

section Cancel

/-- The batch `cancelBatch` writes, from the row it read. -/
def MessageBatch.asCancelled (batch : MessageBatch) : MessageBatch :=
  stripBatchMediaPayloads {
    batch with
    status := .cancelled
    progress := { batch.progress with cancelled := batch.progress.pending, pending := 0 }
  }

def cancelBatch (pid : Nat) : Job Unit := do
  let batch ← query pid .cancelFind fun s => (s, s.row)
  turn pid .signal fun s =>
    if batch.status.terminal then
      (s, .error (.badRequest batch.status))
    else
      (s.setFlag pid (some false), .ok ())
  let batch := batch.asCancelled
  let affected ← query pid .cancelUpdate (updateWhere pendingOrProcessing fun row =>
    { row with status := batch.status, progress := batch.progress, messages := batch.messages })
  if !affected then
    let status ← query pid .cancelReread fun s => (s, s.row.status)
    throw (.badRequest status)

end Cancel

section Reap

/-- `save` of the row as it was found, marked FAILED. -/
def failOrphanedBatch (pid : Nat) (batch : MessageBatch) : Job Unit :=
  query pid .reapSave fun s =>
    ({ s with row := stripBatchMediaPayloads { batch with status := .failed } }, ())

def onApplicationBootstrap (pid : Nat) : Job Unit := do
  let batch ← query pid .reapFind fun s => (s, s.row)
  if batch.status = .processing then
    if ← ask pid .reapOwned Answer.claimable? then
      failOrphanedBatch pid batch

def reapProcessingBatches (pid : Nat) : Job Unit := do
  let batch ← query pid .reapFind fun s => (s, s.row)
  if batch.status = .processing then
    failOrphanedBatch pid batch

end Reap

inductive BatchEvent where
  | processBatch (pid : Nat)
  | cancelBatch (pid : Nat)
  | bootstrap (pid : Nat)
  | reap (pid : Nat)
  | crash (pid : Nat)
deriving DecidableEq

def BatchEvent.pid (v : BatchEvent) : Nat :=
  match v with
  | .processBatch pid | .cancelBatch pid | .bootstrap pid | .reap pid | .crash pid => pid

/-- The call an event makes; a crash only ends the process. -/
def BatchEvent.task (v : BatchEvent) : Job Unit :=
  match v with
  | .processBatch pid => Message.processBatch pid
  | .cancelBatch pid => Message.cancelBatch pid
  | .bootstrap pid => onApplicationBootstrap pid
  | .reap pid => reapProcessingBatches pid
  | .crash _ => pure ()

def batchEvent (v : BatchEvent) (s : Store) : Option (Store × Job Unit) :=
  if s.alive v.pid then
    match v with
    | .crash pid => some ({ s with crashed := pid :: s.crashed }, v.task)
    | _ => some (s, v.task)
  else
    none

end OpenWA.Message
