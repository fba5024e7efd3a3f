import Mathlib.Data.List.Sort
import OpenWA.Async.System
import OpenWA.Concurrency.QuietPeriods
import OpenWA.Webhooks.Filters

/-!
This module contains the autoreply rules: the evaluation of an inbound message against the rules of its
session, and the cooldowns that keep a rule from answering a chat too often.
-/

namespace OpenWA.Automation

open Async Js Concurrency Webhooks

structure AutomationRule where
  id : String
  sessionId : String
  replyText : String
  conditions : Option (List WebhookFilterCondition)
  cooldownSeconds : Nat
  enabled : Bool
  createdAt : Nat

/-- A call of `sendText`. -/
structure Reply where
  sessionId : String
  chatId : String
  text : String
deriving DecidableEq

/-- The rows, the memory of the service and of the lid store, and what was handed to the message port. -/
structure Automations where
  rules : List AutomationRule
  cooldowns : Map String Nat
  phones : Text → Option Text
  sent : List Reply

def COOLDOWN_SWEEP_THRESHOLD : Nat := 10000

def MAX_MESSAGE_AGE_SECONDS : Nat := 300

/-! ### Messages -/

def isFromMe (message : Fields) : Bool := message.get? "fromMe" = some (.bool true)

def chatIdOf (message : Fields) : Option String :=
  match message.get? "chatId" with
  | some (.string chatId) => if chatId = "" then none else some chatId
  | _ => none

/-- `now` is in milliseconds; a message without a timestamp is fresh. -/
def isFresh (now : Nat) (message : Fields) : Bool :=
  match message.get? "timestamp" with
  | some (.number timestamp) => ¬(MAX_MESSAGE_AGE_SECONDS : Rat) < now / 1000 - timestamp
  | _ => true

/-! ### Cooldowns -/

/-- The key of the rule in the chat. -/
def cooldownKey (rule : AutomationRule) (chatId : String) : String := rule.id ++ ":" ++ chatId

def inCooldown (cooldowns : Map String Nat) (rule : AutomationRule) (chatId : String) (now : Nat) :
    Bool :=
  if rule.cooldownSeconds = 0 then false
  else QuietPeriods.quiet cooldowns (cooldownKey rule chatId) now

/-- The two readings of the clock: for the sweep, and for the end of the cooldown. -/
def enterCooldown (cooldowns : Map String Nat) (rule : AutomationRule) (chatId : String)
    (swept entered : Nat) : Map String Nat :=
  if rule.cooldownSeconds = 0 then cooldowns
  else
    QuietPeriods.enter COOLDOWN_SWEEP_THRESHOLD cooldowns swept
      ⟨cooldownKey rule chatId, entered + rule.cooldownSeconds * 1000⟩

/-! ### The evaluation -/

/-- What an await settles with. -/
inductive Answer where
  /-- the clock -/
  | clock (now : Nat)
  /-- the rows were read, or not -/
  | rows (ok : Bool)
  /-- three readings of the clock, and whether the message port can be resolved -/
  | decision (checked swept entered : Nat) (port : Bool)
  | sent (ok : Bool)

/-- What the decision about a message is made of. -/
structure Question where
  sessionId : String
  message : Fields
  chatId : String
  received : Nat
  rules : List AutomationRule

inductive Place where
  | receive
  | find
  | decide (q : Question)
  | send

abbrev Job (α : Type) := Task Automations Answer Place Unit α

/-- The order of the rules. -/
def AutomationRule.le (a b : AutomationRule) : Bool :=
  a.createdAt < b.createdAt || a.createdAt = b.createdAt && a.id ≤ b.id

variable (toLowerCase : Text → Text)

def candidates (s : Automations) (sessionId : String) : List AutomationRule :=
  (s.rules.filter fun rule => rule.sessionId = sessionId && rule.enabled).insertionSort
    (AutomationRule.le · ·)

/-- The first rule whose conditions the message meets. -/
def Question.choose (q : Question) (s : Automations) : Option AutomationRule :=
  q.rules.find? fun rule =>
    evaluateFilters toLowerCase rule.conditions "message.received" q.message s.phones

/-- The turn after the rules were read: the cooldown is entered before the reply is sent. -/
def decideReply (q : Question) (x : Answer) (s : Automations) : Automations × Option Reply :=
  match x, q.choose toLowerCase s with
  | .decision checked swept entered port, some rule =>
    if inCooldown s.cooldowns rule q.chatId checked then (s, none)
    else
      let reply : Reply := ⟨q.sessionId, q.chatId, rule.replyText⟩
      let cooldowns := enterCooldown s.cooldowns rule q.chatId swept entered
      if port then ({ s with cooldowns, sent := s.sent ++ [reply] }, some reply)
      else ({ s with cooldowns }, none)
  | _, _ => (s, none)

def Answer.isDecision (x : Answer) : Bool :=
  match x with
  | .decision .. => true
  | _ => false

def Answer.now? (x : Answer) : Option Nat :=
  match x with
  | .clock now => some now
  | _ => none

def Answer.rows? (x : Answer) : Option Bool :=
  match x with
  | .rows ok => some ok
  | _ => none

def evaluateInbound (sessionId : String) (message : Fields) : Job Unit :=
  if isFromMe message then pure ()
  else
    match chatIdOf message with
    | none => pure ()
    | some chatId => do
      let received ← Task.await .receive (fun x _ => x.now?.isSome) fun x s =>
        (s, .ok (x.now?.getD 0))
      if !isFresh received message then pure ()
      else do
        let rules ← Task.await .find (fun x _ => x.rows?.isSome) fun x s =>
          (s, .ok (if x.rows? = some true then candidates s sessionId else []))
        if rules.isEmpty then pure ()
        else do
          let q : Question := ⟨sessionId, message, chatId, received, rules⟩
          let reply ← Task.await (.decide q) (fun x _ => x.isDecision) fun x s =>
            ((decideReply toLowerCase q x s).1, .ok (decideReply toLowerCase q x s).2)
          match reply with
          | none => pure ()
          -- a send that fails is logged
          | some _ => Task.atomic .send fun _ s => (s, .ok ())

end OpenWA.Automation
