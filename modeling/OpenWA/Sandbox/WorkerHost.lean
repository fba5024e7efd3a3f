import OpenWA.Async.Machine
import OpenWA.Js.Map
import OpenWA.Js.Text

/-!
This module contains the host-side driver of one sandboxed plugin: the calls it has outstanding in the
worker, the answers, timeouts and exits that settle them, and the capability calls of the worker.
-/

namespace OpenWA.Sandbox

open Js Async

/-- A value that crosses the channel is only passed on; `δ` is the type of such values. -/
structure WebhookRequest (δ : Type) where
  instanceId : Text
  route : Text
  method : Text
  headers : δ
  query : δ
  body : Text
  rawBody : Text
  verified : Bool
  deliveryId : Text
  sessionId : Option Text
  config : Option δ

inductive LifecycleMethod where
  | onLoad
  | onEnable
  | onDisable
  | onUnload
deriving DecidableEq

def LifecycleMethod.toText (method : LifecycleMethod) : Text :=
  match method with
  | .onLoad => "onLoad".toList
  | .onEnable => "onEnable".toList
  | .onDisable => "onDisable".toList
  | .onUnload => "onUnload".toList

inductive HostToWorkerMessage (δ : Type) where
  | load (mainPath : Text) (context : Option δ)
  | lifecycle (id : Nat) (method : LifecycleMethod)
  | hook (id : Nat) (event : Text) (data : δ) (sessionId : Option Text) (source : Text)
      (config : Option δ)
  | webhook (id : Nat) (request : WebhookRequest δ)
  | healthCheck (id : Nat)
  | search (id : Nat) (query : δ)
  | configChange (config : δ)
  | capResult (id : Nat) (result : Except Text δ)

inductive WorkerToHostMessage (δ : Type) where
  | ready
  | error (error : Text)
  | lifecycleResult (id : Nat) (result : Except Text Unit)
  | hookResult (id : Nat) (continue' : Bool) (data : Option δ) (error : Option Text)
  | webhookResult (id : Nat) (status : Nat) (headers : Option δ) (body : Option Text)
      (error : Option Text)
  | healthResult (id : Nat) (healthy : Bool) (message : Option Text)
  | searchResult (id : Nat) (result : Except Text δ)
  | cap (id : Nat) (verb : Text) (args : δ)
  | hookSubscribe (event : Text) (priority : Option Nat)
  | webhookSubscribe (route : Text)
  | searchProviderRegister
  | log (message : Text)

/-- What the promise of a call settles with. -/
inductive Outcome (δ : Type) where
  | fulfilled
  | rejected (error : Text)
  | hook (continue' : Bool) (data : Option δ) (error : Option Text)
  | webhook (ok : Bool) (status : Nat) (headers : Option δ) (body : Option Text)
      (error : Option Text)
  | health (healthy : Bool) (message : Option Text)
  | search (result : Except Text δ)

/-- The kinds of calls into the worker, with what their closures keep. -/
inductive Kind where
  | load
  | lifecycle (method : LifecycleMethod)
  | hook (event : Text)
  | webhook
  | health
  | search
deriving DecidableEq

/-- `readyWaiters`, `pending`, `hookPending`, `webhookPending`, `healthPending`, `searchPending` -/
inductive Field where
  | readyWaiters
  | pending
  | hookPending
  | webhookPending
  | healthPending
  | searchPending
deriving DecidableEq

def Kind.field (kind : Kind) : Field :=
  match kind with
  | .load => .readyWaiters
  | .lifecycle _ => .pending
  | .hook _ => .hookPending
  | .webhook => .webhookPending
  | .health => .healthPending
  | .search => .searchPending

/-- An entry of a pending map: its key, the call whose promise it settles, and its timer. -/
structure Waiter where
  id : Nat
  call : Nat
  kind : Kind
  timeoutMs : Option Nat
deriving DecidableEq

/-- A call into the worker, with the settlements of its promise in their order. -/
structure Call (δ : Type) where
  id : Nat
  kind : Kind
  settlements : List (Outcome δ)

/-- A capability call that is running on the host, and the hook events it runs under. -/
structure CapCall (δ : Type) where
  seq : Nat
  id : Nat
  verb : Text
  args : δ
  inFlight : List Text

/-- The optional collaborators of the constructor that the modelled code depends on. -/
structure Options where
  capDispatcher : Bool
  maxInFlightCaps : Option Nat
  capTimeoutMs : Option Nat

structure PluginWorkerHost (δ : Type) where
  nextId : Nat
  ready : Bool
  dead : Bool
  terminated : Bool
  waiters : Field → List Waiter
  inFlightHookEvents : Map Text Nat
  inFlightCaps : Nat
  calls : List (Call δ)
  caps : List (CapCall δ)
  capsStarted : Nat
  posted : List (HostToWorkerMessage δ)

variable {δ : Type}

def PluginWorkerHost.initial : PluginWorkerHost δ where
  nextId := 1
  ready := false
  dead := false
  terminated := false
  waiters _ := []
  inFlightHookEvents := .empty
  inFlightCaps := 0
  calls := []
  caps := []
  capsStarted := 0
  posted := []

def notRunning : Text := "plugin worker is no longer running".toList

/-- What a call answers at once when the worker is dead. -/
def Kind.failFast (kind : Kind) : Outcome δ :=
  match kind with
  | .load | .lifecycle _ => .rejected notRunning
  | .hook _ => .hook true none none
  | .webhook => .webhook false 502 none none none
  | .health => .health false (some notRunning)
  | .search => .search (.error notRunning)

def millis (n : Nat) : Text := Nat.toDigits 10 n ++ "ms".toList

/-- What a timer settles its promise with. -/
def Waiter.expired (w : Waiter) (timeoutMs : Nat) : Outcome δ :=
  match w.kind with
  | .load => .rejected ("plugin worker load timed out after ".toList ++ millis timeoutMs)
  | .lifecycle method =>
    .rejected ("plugin worker lifecycle '".toList ++ method.toText ++ "' timed out after ".toList ++
      millis timeoutMs)
  | .hook _ => .hook true none none
  | .webhook => .webhook false 504 none none none
  | .health => .health false (some "health check timed out".toList)
  | .search => .search (.error "search timed out".toList)

namespace PluginWorkerHost

variable (h : PluginWorkerHost δ)

def setWaiters (field : Field) (waiters : List Waiter) : PluginWorkerHost δ :=
  { h with waiters := fun f => if f = field then waiters else h.waiters f }

def inFlight (event : Text) : Nat := (h.inFlightHookEvents.get? event).getD 0

def incInFlightHook (event : Text) : PluginWorkerHost δ :=
  { h with inFlightHookEvents := h.inFlightHookEvents.set event (h.inFlight event + 1) }

def decInFlightHook (event : Text) : PluginWorkerHost δ :=
  match h.inFlightHookEvents.get? event with
  | none => h
  | some count =>
    if count ≤ 1 then { h with inFlightHookEvents := h.inFlightHookEvents.delete event }
    else { h with inFlightHookEvents := h.inFlightHookEvents.set event (count - 1) }

/-- One more settlement of a promise. Only the first one is seen by who waits for it. -/
def resolve (call : Nat) (outcome : Outcome δ) : PluginWorkerHost δ :=
  { h with calls := h.calls.modify call fun c =>
      { c with settlements := c.settlements ++ [outcome] } }

/-- The `resolve` or `reject` of an entry; the one of a hook also counts it out. -/
def settle (w : Waiter) (outcome : Outcome δ) : PluginWorkerHost δ :=
  match w.kind with
  | .hook event => (h.decInFlightHook event).resolve w.call outcome
  | .load | .lifecycle _ | .webhook | .health | .search => h.resolve w.call outcome

/-- The promise of a call that a dead worker, or a ready one, settles at once. -/
def settled (kind : Kind) (outcome : Outcome δ) : PluginWorkerHost δ :=
  { h with calls := h.calls ++ [⟨0, kind, [outcome]⟩] }

def countIn (kind : Kind) : PluginWorkerHost δ :=
  match kind with
  | .hook event => h.incInFlightHook event
  | .load | .lifecycle _ | .webhook | .health | .search => h

/-- The key of a new entry. A waiter for `ready` is known by its object, so by its call. -/
def freshId (kind : Kind) : Nat := if kind = .load then h.calls.length else h.nextId

def setEntry (kind : Kind) (timeoutMs : Option Nat) : PluginWorkerHost δ :=
  let w : Waiter := { id := h.freshId kind, call := h.calls.length, kind, timeoutMs }
  { h with
    nextId := if kind = .load then h.nextId else h.nextId + 1
    calls := h.calls ++ [⟨h.freshId kind, kind, []⟩]
    waiters := fun f => if f = kind.field then h.waiters f ++ [w] else h.waiters f }

/--
A new entry with its promise and its timer, and the post to the worker. A message that cannot be
cloned makes the post throw with `refused`, which rejects the promise whose executor it is in.
-/
def register (kind : Kind) (timeoutMs : Option Nat) (refused : Option Text)
    (message : Nat → HostToWorkerMessage δ) : PluginWorkerHost δ :=
  let id := h.freshId kind
  let call := h.calls.length
  let h := (h.countIn kind).setEntry kind timeoutMs
  match refused with
  | none => { h with posted := h.posted ++ [message id] }
  | some error => h.resolve call (.rejected error)

/-- `map.get(id)`, deleted if it is there. -/
def take (field : Field) (id : Nat) : Option (Waiter × PluginWorkerHost δ) :=
  match (h.waiters field).find? (fun w => w.id = id) with
  | none => none
  | some w => some (w, h.setWaiters field ((h.waiters field).filter fun w => w.id ≠ id))

/-- A result: an id that nothing waits for is ignored. -/
def answer (field : Field) (id : Nat) (outcome : Outcome δ) : PluginWorkerHost δ :=
  match h.take field id with
  | none => h
  | some (w, h) => h.settle w outcome

/-- Every entry of a map is settled, and the map is emptied. -/
def drain (field : Field) (outcome : Outcome δ) : PluginWorkerHost δ :=
  ((h.waiters field).foldl (fun h w => h.settle w outcome) h).setWaiters field []

def load (mainPath : Text) (context : Option δ) (timeoutMs : Option Nat) (refused : Option Text) :
    PluginWorkerHost δ :=
  if h.dead then h.settled .load (Kind.failFast .load)
  else if h.ready then h.settled .load .fulfilled
  else h.register .load timeoutMs refused fun _ => .load mainPath context

def runLifecycle (method : LifecycleMethod) (timeoutMs : Option Nat) (refused : Option Text) :
    PluginWorkerHost δ :=
  if h.dead then h.settled (.lifecycle method) (Kind.failFast (.lifecycle method))
  else h.register (.lifecycle method) timeoutMs refused fun id => .lifecycle id method

def dispatchHook (event : Text) (data : δ) (source : Text) (sessionId : Option Text)
    (config : Option δ) (timeoutMs : Nat) (refused : Option Text) : PluginWorkerHost δ :=
  if h.dead then h.settled (.hook event) (Kind.failFast (.hook event))
  else
    h.register (.hook event) (some timeoutMs) refused fun id =>
      .hook id event data sessionId source config

def dispatchWebhook (request : WebhookRequest δ) (timeoutMs : Nat) (refused : Option Text) :
    PluginWorkerHost δ :=
  if h.dead then h.settled .webhook (Kind.failFast .webhook)
  else h.register .webhook (some timeoutMs) refused fun id => .webhook id request

def dispatchSearch (query : δ) (timeoutMs : Nat) (refused : Option Text) : PluginWorkerHost δ :=
  if h.dead then h.settled .search (Kind.failFast .search)
  else h.register .search (some timeoutMs) refused fun id => .search id query

def healthCheck (timeoutMs : Nat) (refused : Option Text) : PluginWorkerHost δ :=
  if h.dead then h.settled .health (Kind.failFast .health)
  else h.register .health (some timeoutMs) refused fun id => .healthCheck id

def sendConfigChange (config : δ) : PluginWorkerHost δ :=
  if h.dead then h else { h with posted := h.posted ++ [.configChange config] }

/--
The timer of an entry, if it is armed. It settles the promise after the caller's `onTimeout`, which
may throw.
-/
def expire (field : Field) (id : Nat) (onTimeoutThrows : Bool) : Option (PluginWorkerHost δ) :=
  match h.take field id with
  | none => none
  | some (w, h) =>
    match w.timeoutMs with
    | none => none
    | some timeoutMs => some (if onTimeoutThrows then h else h.settle w (w.expired timeoutMs))

def handleCapRequest (options : Options) (id : Nat) (verb : Text) (args : δ) : PluginWorkerHost δ :=
  let full := options.maxInFlightCaps.any fun limit => limit ≤ h.inFlightCaps
  if full then
    { h with posted := h.posted ++ [.capResult id (.error
        ("capability call rejected: too many concurrent capability calls (limit ".toList ++
          Nat.toDigits 10 (options.maxInFlightCaps.getD 0) ++ ")".toList))] }
  else if !options.capDispatcher then
    { h with posted := h.posted ++ [.capResult id (.error "no capability dispatcher".toList)] }
  else
    let inFlight := h.inFlightHookEvents.keys
    { h with
      inFlightCaps := h.inFlightCaps + 1
      caps := h.caps ++ [⟨h.capsStarted, id, verb, args, inFlight⟩]
      capsStarted := h.capsStarted + 1 }

/-- The end of a capability call: its answer to the worker, then `finally`. -/
def finishCap (cap : CapCall δ) (answer : Option (Except Text δ)) : PluginWorkerHost δ :=
  { h with
    posted := h.posted ++ (answer.toList.map fun result => .capResult cap.id result)
    inFlightCaps := h.inFlightCaps - 1
    caps := h.caps.filter fun c => c.seq ≠ cap.seq }

def sendCapVerbs : List Text :=
  ["messages.sendText".toList, "messages.reply".toList, "conversation.send".toList]

def capTimeout (options : Options) (verb : Text) : Option Nat :=
  options.capTimeoutMs.map fun ms => if verb ∈ sendCapVerbs then ms * 4 else ms

def handleMessage (options : Options) (message : WorkerToHostMessage δ) : PluginWorkerHost δ :=
  match message with
  | .ready => { h with ready := true }.drain .readyWaiters .fulfilled
  | .error error => h.drain .readyWaiters (.rejected error)
  | .lifecycleResult id result =>
    h.answer .pending id (match result with | .ok _ => .fulfilled | .error error => .rejected error)
  | .hookResult id continue' data error => h.answer .hookPending id (.hook continue' data error)
  | .webhookResult id status headers body error =>
    h.answer .webhookPending id (.webhook error.isNone status headers body error)
  | .healthResult id healthy message => h.answer .healthPending id (.health healthy message)
  | .searchResult id result => h.answer .searchPending id (.search result)
  | .cap id verb args => h.handleCapRequest options id verb args
  -- the callbacks of the loader
  | .hookSubscribe _ _ | .webhookSubscribe _ | .searchProviderRegister | .log _ => h

def handleExit (code : Text) : PluginWorkerHost δ :=
  let error := "plugin worker exited unexpectedly (code ".toList ++ code ++ ")".toList
  let exited := "plugin worker exited".toList
  let h := { h with dead := true }
  let h := h.drain .readyWaiters (.rejected error)
  let h := h.drain .pending (.rejected error)
  let h := h.drain .healthPending (.health false (some exited))
  let h := h.drain .hookPending (.hook true none none)
  let h := h.drain .webhookPending (.webhook false 502 none none none)
  h.drain .searchPending (.search (.error exited))

end PluginWorkerHost

/--
What can happen to a host. A `refused` post throws. The work of a capability call ends with
`capSettled`, where the worker may fail to take the value and then the error as well.
-/
inductive Event (δ : Type) where
  | load (mainPath : Text) (context : Option δ) (timeoutMs : Option Nat) (refused : Option Text)
  | runLifecycle (method : LifecycleMethod) (timeoutMs : Option Nat) (refused : Option Text)
  | dispatchHook (event : Text) (data : δ) (source : Text) (sessionId : Option Text)
      (config : Option δ) (timeoutMs : Nat) (refused : Option Text)
  | dispatchWebhook (request : WebhookRequest δ) (timeoutMs : Nat) (refused : Option Text)
  | dispatchSearch (query : δ) (timeoutMs : Nat) (refused : Option Text)
  | healthCheck (timeoutMs : Nat) (refused : Option Text)
  | sendConfigChange (config : δ)
  | terminate
  | message (message : WorkerToHostMessage δ)
  | timeout (field : Field) (id : Nat) (onTimeoutThrows : Bool)
  | capSettled (seq : Nat) (answer : Option (Except Text δ))
  | capTimeout (seq : Nat)
  | exit (code : Text)

open PluginWorkerHost in
def step (options : Options) (h : PluginWorkerHost δ) (event : Event δ) :
    Option (PluginWorkerHost δ) :=
  match event with
  | .load mainPath context timeoutMs refused => some (h.load mainPath context timeoutMs refused)
  | .runLifecycle method timeoutMs refused => some (h.runLifecycle method timeoutMs refused)
  | .dispatchHook event data source sessionId config timeoutMs refused =>
    some (h.dispatchHook event data source sessionId config timeoutMs refused)
  | .dispatchWebhook request timeoutMs refused =>
    some (h.dispatchWebhook request timeoutMs refused)
  | .dispatchSearch query timeoutMs refused => some (h.dispatchSearch query timeoutMs refused)
  | .healthCheck timeoutMs refused => some (h.healthCheck timeoutMs refused)
  | .sendConfigChange config => some (h.sendConfigChange config)
  | .terminate => some { h with terminated := true }
  | .message message => some (h.handleMessage options message)
  | .timeout field id onTimeoutThrows => h.expire field id onTimeoutThrows
  | .capSettled seq answer =>
    (h.caps.find? fun c => c.seq = seq).map fun cap => h.finishCap cap answer
  | .capTimeout seq =>
    match h.caps.find? fun c => c.seq = seq with
    | none => none
    | some cap =>
      (capTimeout options cap.verb).map fun timeoutMs =>
        h.finishCap cap (some (.error ("capability '".toList ++ cap.verb ++ "' timed out after ".toList ++
          millis timeoutMs)))
  | .exit code => some (h.handleExit code)

def machine (options : Options) : Machine (PluginWorkerHost δ) (Event δ) where
  step := step options

end OpenWA.Sandbox
