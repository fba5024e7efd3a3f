import OpenWA.Hooks.HookManager
import OpenWA.Sandbox.WorkerHost

/-!
This module contains the worker's side of a hook, which runs the handlers of a plugin over the data of
an event, and the handler with which the host relays the event to it.
-/

namespace OpenWA.Sandbox

open Js Hooks

variable {π δ : Type}

/-- A handler as a function of the data it is given. -/
abbrev Handler (δ : Type) := δ → HandlerOutcome δ

structure WorkerHook (π δ : Type) where
  handler : Handler δ
  priority : π

structure WorkerHookRegistry (π δ : Type) where
  handlers : Map Text (List (WorkerHook π δ))
  /-- The `hook-subscribe` messages. -/
  posted : List (Text × π)

/-- The result that the worker posts, and with which the promise of `dispatchHook` resolves. -/
structure HookReply (δ : Type) where
  continues : Bool
  data : Option δ
  error : Option Text

namespace WorkerHookRegistry

def empty : WorkerHookRegistry π δ := ⟨.empty, []⟩

/-- `list.sort((a, b) => a.priority - b.priority)`, which is stable. -/
def sortByPriority [LinearOrder π] (list : List (WorkerHook π δ)) : List (WorkerHook π δ) :=
  list.insertionSort fun a b => a.priority ≤ b.priority

def register [LinearOrder π] (registry : WorkerHookRegistry π δ) (event : Text)
    (hook : WorkerHook π δ) : WorkerHookRegistry π δ :=
  match registry.handlers.get? event with
  | some list =>
    { registry with handlers := registry.handlers.set event (sortByPriority (list ++ [hook])) }
  | none =>
    { handlers := registry.handlers.set event [hook]
      posted := registry.posted ++ [(event, hook.priority)] }

end WorkerHookRegistry

/-- The loop of `dispatch`. An error is kept if it is the first one. -/
def runWorker (handlers : List (Handler δ)) (data : δ) (firstError : Option Text) : HookReply δ :=
  match handlers with
  | [] => { continues := true, data := some data, error := firstError }
  | handler :: handlers =>
    match handler data with
    | .returned result =>
      let data := result.data.getD data
      if result.continues then runWorker handlers data firstError
      else { continues := false, data := some data, error := firstError }
    | .threw error => runWorker handlers data (firstError.or (some error))

def WorkerHookRegistry.dispatch (registry : WorkerHookRegistry π δ) (event : Text) (data : δ) :
    HookReply δ :=
  runWorker (((registry.handlers.get? event).getD []).map (·.handler)) data none

/-- What the relay checks before it dispatches an event to the worker. -/
structure Gates where
  liveHost : Bool
  activeForSession : Bool
  /-- The conversation is not in the hands of a human; always so but for `message:received`. -/
  botHandled : Bool

def Gates.open : Gates := ⟨true, true, true⟩

/-- The handler that the host registers for a sandboxed plugin. An error is recorded, not relayed. -/
def hookRelay (gates : Gates) (dispatchHook : δ → HookReply δ) : Handler δ := fun data =>
  if gates.liveHost && gates.activeForSession && gates.botHandled then
    let result := dispatchHook data
    .returned { continues := result.continues, data := result.data, error := none }
  else .returned { continues := true, data := none, error := none }

/-- What `execute` returns. -/
structure ChainResult (δ : Type) where
  continues : Bool
  data : δ
deriving DecidableEq

/-- `runHandlers` over an array that does not change while it runs. -/
def runHost (handlers : List (Handler δ)) (currentData : δ) : ChainResult δ :=
  match handlers with
  | [] => { continues := true, data := currentData }
  | handler :: handlers =>
    match handler currentData with
    | .returned result =>
      let currentData := if result.error = none then result.data.getD currentData else currentData
      if result.continues then runHost handlers currentData
      else { continues := false, data := currentData }
    | .threw _ => runHost handlers currentData

/-- The handlers run in the worker, and the host's chain holds the relay of the plugin. -/
def runSandboxed (handlers : List (Handler δ)) (data : δ) : ChainResult δ :=
  runHost [hookRelay .open fun data => runWorker handlers data none] data

end OpenWA.Sandbox
