import Mathlib.Data.List.Sort
import OpenWA.Js.Text

/-!
This module contains the hook manager: the registrations of each event, kept in arrays that are
changed in place, and the loop that runs the handlers of an event over such an array.
-/

namespace OpenWA.Hooks

open Js

inductive HookEvent where
  | sessionCreated
  | sessionStarting
  | sessionReady
  | sessionQr
  | sessionDisconnected
  | sessionError
  | sessionDeleted
  | messageReceived
  | messageSending
  | messageSent
  | messageFailed
  | messageAck
  | messagePersisted
  | messageDeleted
  | webhookBefore
  | webhookQueued
  | webhookDelivered
  | webhookAfter
  | webhookError
  | ingressError
deriving DecidableEq

def HookEvent.toText (event : HookEvent) : Text :=
  match event with
  | .sessionCreated => "session:created".toList
  | .sessionStarting => "session:starting".toList
  | .sessionReady => "session:ready".toList
  | .sessionQr => "session:qr".toList
  | .sessionDisconnected => "session:disconnected".toList
  | .sessionError => "session:error".toList
  | .sessionDeleted => "session:deleted".toList
  | .messageReceived => "message:received".toList
  | .messageSending => "message:sending".toList
  | .messageSent => "message:sent".toList
  | .messageFailed => "message:failed".toList
  | .messageAck => "message:ack".toList
  | .messagePersisted => "message:persisted".toList
  | .messageDeleted => "message:deleted".toList
  | .webhookBefore => "webhook:before".toList
  | .webhookQueued => "webhook:queued".toList
  | .webhookDelivered => "webhook:delivered".toList
  | .webhookAfter => "webhook:after".toList
  | .webhookError => "webhook:error".toList
  | .ingressError => "ingress:error".toList

/-- A registration; its handler is numbered in the order of registration. -/
structure HookRegistration (π : Type) where
  id : Text
  pluginId : Text
  event : HookEvent
  handler : Nat
  priority : π
deriving DecidableEq

/--
`hooks` maps an event to its array, in the order of a `Map`. Arrays are objects: a loop keeps the one
it started on, so they are numbered, and `fresh` is the first number not in use.
-/
structure HookManager (π : Type) where
  arrays : Nat → List (HookRegistration π)
  fresh : Nat
  hooks : List (HookEvent × Nat)
  pluginHooks : List (Text × List Text)
  registered : Nat

variable {π δ : Type}

def HookManager.empty : HookManager π where
  arrays _ := []
  fresh := 0
  hooks := []
  pluginHooks := []
  registered := 0

/-- The array of an event. -/
def HookManager.arrayOf (m : HookManager π) (event : HookEvent) : Option Nat := m.hooks.lookup event

def HookManager.setArray (m : HookManager π) (ref : Nat) (array : List (HookRegistration π)) :
    HookManager π :=
  { m with arrays := fun r => if r = ref then array else m.arrays r }

/-- The array of an event, which is created if there is none. -/
def HookManager.ensureArray (m : HookManager π) (event : HookEvent) : HookManager π × Nat :=
  match m.arrayOf event with
  | some ref => (m, ref)
  | none =>
    ({ m.setArray m.fresh [] with hooks := m.hooks ++ [(event, m.fresh)], fresh := m.fresh + 1 },
      m.fresh)

/-- `this.pluginHooks.get(pluginId).add(id)`, with the set created if there is none. -/
def trackHook (pluginHooks : List (Text × List Text)) (pluginId id : Text) :
    List (Text × List Text) :=
  match pluginHooks.lookup pluginId with
  | some ids =>
    let ids := if id ∈ ids then ids else ids ++ [id]
    pluginHooks.map fun entry => if entry.1 = pluginId then (pluginId, ids) else entry
  | none => pluginHooks ++ [(pluginId, [id])]

/-- `this.pluginHooks.get(pluginId)?.delete(id)` -/
def untrackHook (pluginHooks : List (Text × List Text)) (pluginId id : Text) :
    List (Text × List Text) :=
  pluginHooks.map fun entry =>
    if entry.1 = pluginId then (pluginId, entry.2.filter (· ≠ id)) else entry

section Operations

variable [LinearOrder π] (m : HookManager π)

/-- `registrations.sort((a, b) => a.priority - b.priority)`, which is stable. -/
def sortByPriority (array : List (HookRegistration π)) : List (HookRegistration π) :=
  array.insertionSort fun a b => a.priority ≤ b.priority

def hookId (pluginId : Text) (event : HookEvent) (now : Nat) : Text :=
  pluginId ++ ':' :: event.toText ++ ':' :: Nat.toDigits 10 now

/-- The registration that `register` adds at the time `now`. -/
def HookManager.registration (pluginId : Text) (event : HookEvent) (priority : π) (now : Nat) :
    HookRegistration π where
  id := hookId pluginId event now
  pluginId := pluginId
  event := event
  handler := m.registered
  priority := priority

def HookManager.register (pluginId : Text) (event : HookEvent) (priority : π) (now : Nat) :
    HookManager π :=
  let registration := m.registration pluginId event priority now
  let (m', ref) := m.ensureArray event
  let m' := m'.setArray ref (sortByPriority (m'.arrays ref ++ [registration]))
  { m' with
    pluginHooks := trackHook m'.pluginHooks pluginId registration.id
    registered := m'.registered + 1 }

/-- The first array that holds a registration of the id, and its index there. -/
def HookManager.findHook (hookId : Text) : Option (Nat × Nat) :=
  m.hooks.findSome? fun entry =>
    ((m.arrays entry.2).findIdx? (·.id = hookId)).map fun index => (entry.2, index)

def HookManager.unregister (hookId : Text) : HookManager π :=
  match m.findHook hookId with
  | some (ref, index) =>
    let m' := m.setArray ref ((m.arrays ref).eraseIdx index)
    match (m.arrays ref)[index]? with
    | some registration =>
      { m' with pluginHooks := untrackHook m.pluginHooks registration.pluginId hookId }
    | none => m'
  | none => m

/-- Every event gets a new array without the plugin's registrations. -/
def HookManager.unregisterPlugin (pluginId : Text) : HookManager π :=
  if (m.pluginHooks.lookup pluginId).isSome then
    { m with
      arrays := fun r =>
        if r < m.fresh then m.arrays r
        else
          match m.hooks[r - m.fresh]? with
          | some (_, ref) => (m.arrays ref).filter fun registration => registration.pluginId ≠ pluginId
          | none => m.arrays r
      fresh := m.fresh + m.hooks.length
      hooks := m.hooks.mapIdx fun k entry => (entry.1, m.fresh + k)
      pluginHooks := m.pluginHooks.filter fun entry => entry.1 ≠ pluginId }
  else
    m

end Operations

section Run

structure HookResult (δ : Type) where
  continues : Bool
  data : Option δ
  error : Option Text

inductive HandlerOutcome (δ : Type) where
  | returned (result : HookResult δ)
  | threw (error : Text)

/--
A run of `runHandlers` over the array `ref`: `next` is the index its iterator reads next, `awaited`
the registration whose handler it awaits, none once the run is over.
-/
structure Run (π δ : Type) where
  event : HookEvent
  ref : Nat
  next : Nat
  currentData : δ
  awaited : Option (HookRegistration π)
  stopped : Bool
  invoked : List (HookRegistration π)

/-- The next iteration: the iterator reads the array as it is now. -/
def Run.advance (run : Run π δ) (array : List (HookRegistration π)) : Run π δ :=
  match array[run.next]? with
  | some registration =>
    { run with
      next := run.next + 1
      awaited := some registration
      invoked := run.invoked ++ [registration] }
  | none => { run with awaited := none }

def runHandlers (m : HookManager π) (event : HookEvent) (ref : Nat) (data : δ) : Run π δ :=
  Run.advance
    { event := event
      ref := ref
      next := 0
      currentData := data
      awaited := none
      stopped := false
      invoked := [] }
    (m.arrays ref)

/--
The run an `execute` starts: none when the event is in flight on the calling context, or has no array
yet.
-/
def HookManager.execute (m : HookManager π) (inFlight : List HookEvent) (event : HookEvent)
    (data : δ) : Option (Run π δ) :=
  if event ∈ inFlight then none
  else (m.arrayOf event).map fun ref => runHandlers m event ref data

/-- The awaited handler settles, and the loop goes on to the next one. -/
def Run.settle (run : Run π δ) (array : List (HookRegistration π)) (outcome : HandlerOutcome δ) :
    Run π δ :=
  match outcome with
  | .returned result =>
    let run :=
      match result.error, result.data with
      | none, some data => { run with currentData := data }
      | _, _ => run
    if result.continues then run.advance array
    else { run with awaited := none, stopped := true }
  | .threw _ => run.advance array

end Run
end OpenWA.Hooks
