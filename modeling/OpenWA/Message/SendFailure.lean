import OpenWA.Js.Text
import OpenWA.Stored.Rows

/-!
This module contains the handling of a send that an engine refused: the row that is kept of it, the hook
that reports it, and the error that the caller sees.
-/

namespace OpenWA.Message

open Js Stored

/-- What a call of an engine or of a repository can throw. -/
inductive Thrown where
  | ssrfBlocked (message : Text)
  | engineRefused (message : Text)
  | http (status : Nat) (message : Text)
  | error (message : Text)
  /-- A value that is no error, and its text. -/
  | value (text : Text)
  /-- A value that is no error, and what its conversion to a text throws. -/
  | unprintable (thrown : Thrown)
deriving DecidableEq

def SSRF_BLOCKED_CLIENT_MESSAGE : Text := "Destination address is not allowed".toList

/-- The failure says something about the standing of the account. -/
def countsTowardSendBreaker (error : Thrown) : Bool :=
  match error with
  | .engineRefused _ => true
  | .ssrfBlocked _ => false
  | .http status _ => !((400 ≤ status && status < 500) || status = 501 || status = 503)
  | _ => true

def toClientFacingError (error : Thrown) : Thrown :=
  match error with
  | .ssrfBlocked _ => .http 400 SSRF_BLOCKED_CLIENT_MESSAGE
  | error => error

/-- The text that plugins get to see, or what reading it throws. -/
def hookError (error : Thrown) : Except Thrown Text :=
  match error with
  | .ssrfBlocked _ => .ok SSRF_BLOCKED_CLIENT_MESSAGE
  | .engineRefused message | .http _ message | .error message => .ok message
  | .value text => .ok text
  | .unprintable thrown => .error thrown

/-- The payload of `message:failed`; `input` is what the sender was called with. -/
structure FailedPayload (ι : Type) where
  sessionId : Text
  error : Text
  input : ι
  type : Text
deriving DecidableEq

/-- What a send that failed does to the rest of the gateway, in order. -/
inductive Effect (ι : Type) where
  | recordSendFailure (sessionId : Text)
  | save (row : Message)
  /-- `message:persisted` is not waited for. -/
  | emitPersisted (row : Message)
  | failed (payload : FailedPayload ι)
deriving DecidableEq

/-- The effects so far, and how the promise settles. -/
structure Settled (ι α : Type) where
  effects : List (Effect ι)
  result : Except Thrown α

/-- The row without the payload of its media. -/
def dropPayload (row : Message) : Message :=
  { row with metadata := row.metadata.map fun metadata =>
      { metadata with media := metadata.media.map fun media => { media with data := none } } }

def failedRow (message : Message) : Message := { dropPayload message with status := .failed }

variable {ι : Type}

/-- `stored` is how the repository settles the save. -/
def saveFailedMessage (stored : Except Thrown Unit) (message : Message) : Settled ι Unit :=
  match stored with
  | .ok _ => ⟨[.save (failedRow message), .emitPersisted (failedRow message)], .ok ()⟩
  | .error fault => ⟨[.save (failedRow message)], .error fault⟩

/-- The hook manager catches what a handler throws, so that reporting does not fail. -/
def failSend (stored : Except Thrown Unit) (sessionId type : Text) (message : Message) (input : ι)
    (error : Thrown) : Settled ι Empty :=
  let breaker := if countsTowardSendBreaker error then [.recordSendFailure sessionId] else []
  let saved := saveFailedMessage stored message
  match saved.result with
  | .error fault => ⟨breaker ++ saved.effects, .error fault⟩
  | .ok _ =>
    match hookError error with
    | .error thrown => ⟨breaker ++ saved.effects, .error thrown⟩
    | .ok text =>
      ⟨breaker ++ saved.effects ++ [.failed ⟨sessionId, text, input, type⟩],
        .error (toClientFacingError error)⟩

/-- The reports of `message:failed` among the effects. -/
def reports (effects : List (Effect ι)) : List (FailedPayload ι) :=
  effects.filterMap fun effect =>
    match effect with
    | .failed payload => some payload
    | _ => none

/-- The failure is reported once, in the words that clients may read, and the caller gets its own error. -/
structure Reported (s : Settled ι Empty) (sessionId type : Text) (input : ι) (error : Thrown) : Prop where
  once : ∃ text, (∀ t, hookError error = .ok t → text = t) ∧
    reports s.effects = [⟨sessionId, text, input, type⟩]
  rejects : s.result = .error (toClientFacingError error)

/-- The thrown value has a text. -/
def Thrown.Printable (error : Thrown) : Prop :=
  match error with
  | .unprintable _ => False
  | _ => True

variable {stored : Except Thrown Unit} {sessionId type : Text} {message : Message} {input : ι}
  {error : Thrown}

theorem printable_iff : error.Printable ↔ ∃ text, hookError error = .ok text := by
  cases error <;> simp [Thrown.Printable, hookError]

theorem reports_append (a b : List (Effect ι)) : reports (a ++ b) = reports a ++ reports b :=
  List.filterMap_append

/-- Neither the breaker nor the row is a report. -/
theorem reports_before (fault : Bool) :
    reports ((if countsTowardSendBreaker error then [.recordSendFailure sessionId] else []) ++
      ((if fault then [.save (failedRow message)]
        else [.save (failedRow message), .emitPersisted (failedRow message)]) : List (Effect ι))) = [] := by
  cases fault <;> cases countsTowardSendBreaker error <;> rfl

/-- A send that fails is reported exactly when its row is saved and the error has a text. -/
theorem failSend_reported_iff :
    Reported (failSend stored sessionId type message input error) sessionId type input error ↔
      stored = .ok () ∧ error.Printable := by
  rw [printable_iff]
  cases stored with
  | error fault =>
    have hnone : reports (failSend (.error fault) sessionId type message input error).effects = [] :=
      reports_before true
    constructor
    . intro h
      rcases h.once with ⟨text, -, honce⟩
      rw [hnone] at honce
      contradiction
    . intro h
      cases h.1
  | ok _ =>
    cases htext : hookError error with
    | error thrown =>
      have hnone : reports (failSend (.ok ()) sessionId type message input error).effects = [] := by
        simp only [failSend, saveFailedMessage, htext]
        exact reports_before false
      constructor
      . intro h
        rcases h.once with ⟨text, -, honce⟩
        rw [hnone] at honce
        contradiction
      . rintro ⟨-, text, h⟩
        contradiction
    | ok text =>
      refine ⟨fun _ => ⟨rfl, text, rfl⟩, fun _ => ⟨⟨text, ?_, ?_⟩, ?_⟩⟩
      . intro t ht
        rw [htext] at ht
        exact Except.ok.inj ht
      . have hbefore : reports ((if countsTowardSendBreaker error then [.recordSendFailure sessionId] else []) ++
            [.save (failedRow message), .emitPersisted (failedRow message)] : List (Effect ι)) = [] :=
          reports_before false
        simp only [failSend, saveFailedMessage, htext]
        rw [reports_append, hbefore]
        rfl
      . simp [failSend, saveFailedMessage, htext]

def refusedRow : Message where
  id := 0
  sessionId := "s".toList
  waMessageId := none
  chatId := "628@c.us".toList
  chatName := none
  author := none
  «from» := "me".toList
  «to» := "628@c.us".toList
  body := some "hi".toList
  type := "text".toList
  direction := .outgoing
  timestamp := none
  status := .pending
  metadata := none
  createdAt := none

/-- WhatsApp refuses a send, and the database is locked when the row is saved as failed. -/
theorem failSend_storage_fault :
    ¬ ∀ (stored : Except Thrown Unit) (error : Thrown),
      Reported (failSend stored "s".toList "text".toList refusedRow "hi".toList error)
        "s".toList "text".toList "hi".toList error := by
  intro h
  have h := (h (.error (.error "database is locked".toList)) (.engineRefused "refused".toList)).rejects
  revert h
  decide

end OpenWA.Message
