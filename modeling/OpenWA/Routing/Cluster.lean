import Mathlib.Logic.Function.Basic
import OpenWA.Routing.Proxy
import OpenWA.Routing.Retry

/-!
This module contains clients that call a routed deployment: the HTTP exchanges on their way, the nodes
that receive, forward and answer them, and the clients that try again.
-/

namespace OpenWA.Routing

open Js

/-- An exchange: an attempt of a call of a client, and how many nodes forwarded it before. -/
structure Key where
  call : Nat
  attempt : Nat
  hop : Nat
deriving DecidableEq

def Key.next (k : Key) : Key := { k with hop := k.hop + 1 }

inductive Stage where
  -- no node has received the request yet, or none ever will
  | sent
  | lost
  -- the node that received it waits for the owner's answer
  | relaying (ownerNodeId : Text) (timeoutMs : Nat)
  -- the route's handler runs there, or ran and answered
  | running
  | ran (response : Response)
  -- answered without the handler
  | turned (response : Response)
deriving DecidableEq

def Stage.response (stage : Stage) : Option Response :=
  match stage with
  | .ran response | .turned response => some response
  | _ => none

structure Exchange where
  url : Url
  request : Request
  stage : Stage
deriving DecidableEq

/-- Where a call is in the loop of the retry middleware. -/
inductive Phase where
  | waiting (attempt : Nat)
  | pausing (attempt : Nat)
  | finished (attempt : Nat) (result : RoundTrip)
deriving DecidableEq

def Phase.attempt (phase : Phase) : Nat :=
  match phase with
  | .waiting attempt | .pausing attempt | .finished attempt _ => attempt

@[simp] theorem Phase.attempt_waiting (attempt : Nat) : (Phase.waiting attempt).attempt = attempt := rfl
@[simp] theorem Phase.attempt_pausing (attempt : Nat) : (Phase.pausing attempt).attempt = attempt := rfl
@[simp] theorem Phase.attempt_finished (attempt : Nat) (result : RoundTrip) :
    (Phase.finished attempt result).attempt = attempt := rfl

structure Call where
  url : Url
  request : Request
  retry : Option RetryPolicy
  phase : Phase

/-- What the loop does with the result of an attempt. -/
def Call.settle (call : Call) (attempt : Nat) (result : RoundTrip) : Call :=
  {
    call with
    phase :=
      if call.retry.any (·.again call.request.method attempt result) then .pausing attempt
      else .finished attempt result
  }

/--
The deployment and its clients. `tables` is the history of the `sessions` table, the present one
first; no function reads it.
-/
structure Cluster where
  sessions : Text → Option Owner
  tables : List (Text → Option Owner)
  now : Int
  calls : List Call
  exchanges : Key → Option Exchange

def Cluster.put (s : Cluster) (k : Key) (x : Exchange) : Cluster :=
  { s with exchanges := Function.update s.exchanges k (some x) }

inductive Event where
  -- any change of the stored rows, and the time
  | sessions (rows : Text → Option Owner)
  | clock (now : Int)
  | call (url : Url) (request : Request) (retry : Option RetryPolicy)
  | lose (k : Key)
  | arrive (k : Key) (arrival : Arrival)
  -- a guard, a parser or a failed lookup answers
  | refuse (k : Key) (response : Response)
  | finish (k : Key) (response : Response)
  | relay (k : Key)
  -- the `fetch` of a forwarding node rejects, before or after the request left
  | reject (k : Key) (name code : Option String) (dispatched : Bool)
  | answer (c : Nat)
  | fail (c : Nat) (cancelled : Bool)
  | resume (c : Nat)
  | cancel (c : Nat)

/-- A `fetch` only reports a connection-stage code when the request never left. -/
def Event.Reported (e : Event) : Prop :=
  match e with
  | .reject _ _ code dispatched => code.any (· ∈ NOT_DISPATCHED_CODES) → dispatched = false
  | _ => True

section Steps

variable (isUUID : Text → Bool) (api : UrlApi)

/-- The interceptor of the node that received the exchange. -/
def Cluster.receive (s : Cluster) (k : Key) (x : Exchange) (arrival : Arrival) : Cluster :=
  match intercept isUUID arrival x.request.headers s.sessions s.now with
  | .handle => s.put k { x with stage := .running }
  | .conflict message => s.put k { x with stage := .turned (conflicted message) }
  | .forward ownerNodeId ownerNodeUrl =>
    match forwardTarget api x.request.originalUrl ownerNodeUrl with
    | none => s.put k { x with stage := .turned (unreachable ownerNodeId) }
    | some target =>
      (s.put k { x with stage := .relaying ownerNodeId arrival.proxyTimeoutMs }).put k.next
        {
          url := target
          request := forwardRequest arrival x.request target
          stage := .sent
        }

/-- The rejection of the `fetch` that carries `k` on; a request that never left cannot arrive later. -/
def Cluster.reject (s : Cluster) (k : Key) (x child : Exchange) (response : Response)
    (dispatched : Bool) : Option Cluster :=
  let s' := s.put k { x with stage := .turned response }
  if dispatched then some s'
  else if child.stage = .sent then some (s'.put k.next { child with stage := .lost })
  else none

def Cluster.step (s : Cluster) (e : Event) : Option Cluster :=
  match e with
  | .sessions rows => some { s with sessions := rows, tables := rows :: s.tables }
  | .clock now => some { s with now := now }
  | .call url request retry =>
    let call : Call := ⟨url, request, retry, .waiting 0⟩
    let s' := { s with calls := s.calls ++ [call] }
    some (s'.put ⟨s.calls.length, 0, 0⟩ ⟨url, request, .sent⟩)
  | .lose k =>
    match s.exchanges k with
    | some x => if x.stage = .sent then some (s.put k { x with stage := .lost }) else none
    | none => none
  | .arrive k arrival =>
    match s.exchanges k with
    | some x => if x.stage = .sent then some (s.receive isUUID api k x arrival) else none
    | none => none
  | .refuse k response =>
    match s.exchanges k with
    | some x => if x.stage = .sent then some (s.put k { x with stage := .turned response }) else none
    | none => none
  | .finish k response =>
    match s.exchanges k with
    | some x => if x.stage = .running then some (s.put k { x with stage := .ran response }) else none
    | none => none
  | .relay k =>
    match s.exchanges k, s.exchanges k.next with
    | some x, some child =>
      match x.stage, child.stage.response with
      | .relaying ownerNodeId _, some upstream =>
        some (s.put k { x with stage := .turned (relayed ownerNodeId upstream) })
      | _, _ => none
    | _, _ => none
  | .reject k name code dispatched =>
    match s.exchanges k, s.exchanges k.next with
    | some x, some child =>
      match x.stage with
      | .relaying ownerNodeId timeoutMs =>
        s.reject k x child (rejected ownerNodeId timeoutMs name code) dispatched
      | _ => none
    | _, _ => none
  | .answer c =>
    match s.calls[c]? with
    | some call =>
      match call.phase, (s.exchanges ⟨c, call.phase.attempt, 0⟩).bind (·.stage.response) with
      | .waiting attempt, some response =>
        some { s with calls := s.calls.set c (call.settle attempt (.response response.status)) }
      | _, _ => none
    | none => none
  | .fail c cancelled =>
    match s.calls[c]? with
    | some call =>
      match call.phase with
      | .waiting attempt =>
        some { s with calls := s.calls.set c (call.settle attempt (.error cancelled)) }
      | _ => none
    | none => none
  | .resume c =>
    match s.calls[c]? with
    | some call =>
      match call.phase with
      | .pausing attempt =>
        let s' := { s with calls := s.calls.set c { call with phase := .waiting (attempt + 1) } }
        some (s'.put ⟨c, attempt + 1, 0⟩ ⟨call.url, call.request, .sent⟩)
      | _ => none
    | none => none
  | .cancel c =>
    match s.calls[c]? with
    | some call =>
      match call.phase with
      | .pausing attempt =>
        let call := { call with phase := .finished attempt (.error true) }
        some { s with calls := s.calls.set c call }
      | _ => none
    | none => none

/-- Execute a list of events as long as each can happen. -/
def Cluster.run (s : Cluster) (es : List Event) : Option Cluster :=
  match es with
  | [] => some s
  | e :: es =>
    match s.step isUUID api e with
    | some s' => Cluster.run s' es
    | none => none

inductive Cluster.Reach (init : Cluster) : Cluster → Prop where
  | init : Reach init init
  | step {s s' : Cluster} (e : Event) (h : Reach init s) (hok : e.Reported)
      (hstep : s.step isUUID api e = some s') : Reach init s'

variable {isUUID api}

theorem Cluster.reach_of_run {init s : Cluster} {es : List Event} (h : init.run isUUID api es = some s)
    (hok : ∀ e ∈ es, e.Reported) : Cluster.Reach isUUID api init s := by
  suffices hgen : ∀ s₀ : Cluster, Cluster.Reach isUUID api init s₀ →
      s₀.run isUUID api es = some s → Cluster.Reach isUUID api init s from hgen init .init h
  clear h
  induction es with
  | nil =>
    intro s₀ h₀ hrun
    simp only [run, Option.some.injEq] at hrun
    exact hrun ▸ h₀
  | cons e es ih =>
    intro s₀ h₀ hrun
    unfold run at hrun
    cases hstep : s₀.step isUUID api e with
    | none => simp [hstep] at hrun
    | some s₁ =>
      rw [hstep] at hrun
      refine ih (fun e' he' => hok e' (List.mem_cons_of_mem _ he')) s₁ ?_ hrun
      exact .step e h₀ (hok e List.mem_cons_self) hstep

end Steps

end OpenWA.Routing
