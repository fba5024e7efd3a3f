import OpenWA.Async.Machine
import OpenWA.Auth.ApiKey

/-!
This module contains the requests that change API keys, each a sequence of reads and statements on the
table that it takes one at a time, and the guard in the statements that could strip the last admin.
-/

namespace OpenWA.Auth

open Js Async

/-- A field of a body that may be left out, or be null. -/
inductive Field (α : Type) where
  | undefined
  | null
  | value (x : α)
deriving DecidableEq

structure CreateApiKeyDto where
  name : Text
  role : Field ApiKeyRole
  allowedIps : Field (List Text)
  allowedSessions : Field (List Text)
  expiresAt : Field Nat
deriving DecidableEq

/-- An instant stands for the text that denotes it. -/
structure UpdateApiKeyDto where
  name : Field Text
  role : Field ApiKeyRole
  allowedIps : Field (List Text)
  allowedSessions : Field (List Text)
  expiresAt : Field Nat
deriving DecidableEq

def Field.toOption {α : Type} (field : Field α) : Option α :=
  match field with
  | .undefined | .null => none
  | .value x => some x

/-- The columns that a `SET` list names. -/
structure Patch where
  name : Option Text
  role : Option ApiKeyRole
  allowedIps : Option (Option (List Text))
  allowedSessions : Option (Option (List Text))
  expiresAt : Option (Option Nat)
  isActive : Option Bool
deriving DecidableEq

def Patch.apply (patch : Patch) (key : ApiKey) : ApiKey where
  id := key.id
  name := patch.name.getD key.name
  role := patch.role.getD key.role
  allowedIps := patch.allowedIps.getD key.allowedIps
  allowedSessions := patch.allowedSessions.getD key.allowedSessions
  isActive := patch.isActive.getD key.isActive
  expiresAt := patch.expiresAt.getD key.expiresAt

def removesOrSchedulesLastAdmin (dto : UpdateApiKeyDto) : Bool :=
  (dto.role ≠ .undefined && dto.role ≠ .value .admin) ||
    (dto.expiresAt ≠ .undefined && dto.expiresAt ≠ .null) ||
    (normalizeScopeList dto.allowedSessions.toOption).isSome

def updatePatch (dto : UpdateApiKeyDto) : Patch where
  name :=
    match dto.name with
    | .value (c :: name) => some (c :: name)
    | .value [] | .undefined | .null => none
  role := dto.role.toOption
  allowedIps := if dto.allowedIps = .undefined then none else some dto.allowedIps.toOption
  allowedSessions :=
    if dto.allowedSessions = .undefined then none
    else some (normalizeScopeList dto.allowedSessions.toOption)
  expiresAt := if dto.expiresAt = .undefined then none else some dto.expiresAt.toOption
  isActive := none

def revokePatch : Patch := ⟨none, none, none, none, none, some false⟩

inductive Request where
  | update (id : Text) (dto : UpdateApiKeyDto)
  | delete (id : Text)
  | revoke (id : Text)
  /-- `newId` is the uuid that the insert generates. -/
  | createApiKey (newId : Text) (dto : CreateApiKeyDto)
deriving DecidableEq

inductive Outcome where
  | saved (key : ApiKey)
  | deleted
  | notFound (id : Text)
  | conflict
deriving DecidableEq

/-- What a request does next; `before` is the row that its first read has returned. -/
inductive Phase where
  | findOne
  | write (before : ApiKey)
  /-- The read of `assertMutationApplied` or `applyUnguardedUpdate` after no row was affected. -/
  | assertMutationApplied (before : ApiKey) (guarded : Bool)
  | reread (before : ApiKey)
  | done (outcome : Outcome)
deriving DecidableEq

structure Task where
  request : Request
  phase : Phase
deriving DecidableEq

/-- The table, the requests of all processes, and the evictions they have asked for. -/
structure State where
  apiKeys : List ApiKey
  tasks : List Task
  evicted : List (Text × ApiKeyEvictionReason)
deriving DecidableEq

def Request.keyId (request : Request) : Text :=
  match request with
  | .update id _ | .delete id | .revoke id => id
  | .createApiKey newId _ => newId

/-- The request takes the last usable admin from its row, if the row is one. -/
def Request.strips (request : Request) : Bool :=
  match request with
  | .update _ dto => removesOrSchedulesLastAdmin dto
  | .delete _ | .revoke _ => true
  | .createApiKey _ _ => false

/-- The request uses the guarded statement. -/
def Request.guarded (request : Request) (before : ApiKey) : Bool :=
  request.strips && before.role = .admin

def createdKey (newId : Text) (dto : CreateApiKeyDto) : ApiKey where
  id := newId
  name := dto.name
  role := dto.role.toOption.getD .operator
  allowedIps := dto.allowedIps.toOption
  allowedSessions := normalizeScopeList dto.allowedSessions.toOption
  isActive := true
  expiresAt := dto.expiresAt.toOption

/-- The `WHERE` of `withLastAdminGuard`. -/
def withLastAdminGuard (guardNow : Nat) (apiKeys : List ApiKey) (id : Text) (key : ApiKey) : Bool :=
  key.id = id && (!usableAdmin guardNow key ||
    apiKeys.any fun other => other.id ≠ id && usableAdmin guardNow other)

/-- The rows that the statement of a request touches. -/
def target (guardNow : Nat) (apiKeys : List ApiKey) (request : Request) (before : ApiKey)
    (key : ApiKey) : Bool :=
  if request.guarded before then withLastAdminGuard guardNow apiKeys request.keyId key
  else key.id = request.keyId

/-- `UPDATE api_keys SET patch WHERE touched` -/
def updateRows (apiKeys : List ApiKey) (touched : ApiKey → Bool) (patch : Patch) : List ApiKey :=
  apiKeys.map fun key => if touched key then patch.apply key else key

namespace State

variable (guardNow : Nat) (s : State)

def find? (id : Text) : Option ApiKey := s.apiKeys.find? (·.id = id)

def goTo (i : Nat) (task : Task) (phase : Phase) : State :=
  { s with tasks := s.tasks.set i { task with phase } }

def finish (i : Nat) (task : Task) (outcome : Outcome) : State := s.goTo i task (.done outcome)

def evict (id : Text) (reason : ApiKeyEvictionReason) : State :=
  { s with evicted := s.evicted ++ [(id, reason)] }

/-- What `update` and `revoke` do after their last read. -/
def complete (i : Nat) (task : Task) (before saved : ApiKey) : State :=
  match task.request with
  | .update id _ =>
    let s := s.finish i task (.saved saved)
    if apiKeyAuthorizationFingerprint saved = apiKeyAuthorizationFingerprint before then s
    else s.evict id .authorizationChanged
  | .revoke id => (s.finish i task (.saved saved)).evict id .revoked
  | .delete id => (s.finish i task .deleted).evict id .deleted
  | .createApiKey _ _ => s.finish i task (.saved saved)

/-- The statement of a request. -/
def write (i : Nat) (task : Task) (before : ApiKey) : State :=
  let touched := target guardNow s.apiKeys task.request before
  let guarded := task.request.guarded before
  match task.request with
  | .update _ dto =>
    let affected := s.apiKeys.any touched
    let s := { s with apiKeys := updateRows s.apiKeys touched (updatePatch dto) }
    s.goTo i task (if affected then .reread before else .assertMutationApplied before guarded)
  | .revoke _ =>
    let affected := s.apiKeys.any touched
    let s := { s with apiKeys := updateRows s.apiKeys touched revokePatch }
    s.goTo i task (if affected then .reread before else .assertMutationApplied before guarded)
  | .delete _ =>
    let affected := s.apiKeys.any touched
    let s := { s with apiKeys := s.apiKeys.filter fun key => !touched key }
    -- `remove` does not look at the number of rows
    if affected || !guarded then s.complete i task before before
    else s.goTo i task (.assertMutationApplied before guarded)
  | .createApiKey newId dto =>
    { s with apiKeys := s.apiKeys ++ [createdKey newId dto] }.finish i task
      (.saved (createdKey newId dto))

/-- One atomic step of the request `i`. An insert needs an id that no row has. -/
def step (i : Nat) : Option State :=
  match s.tasks[i]? with
  | none => none
  | some task =>
    match task.phase with
    | .findOne =>
      match task.request with
      | .createApiKey newId dto =>
        if (s.find? newId).isSome then none else some (s.write guardNow i task (createdKey newId dto))
      | .update id _ | .delete id | .revoke id =>
        match s.find? id with
        | none => some (s.finish i task (.notFound id))
        | some before => some (s.goTo i task (.write before))
    | .write before => some (s.write guardNow i task before)
    | .assertMutationApplied before guarded =>
      match s.find? task.request.keyId with
      | none => some (s.finish i task (.notFound task.request.keyId))
      | some _ =>
        if guarded then some (s.finish i task .conflict)
        else some (s.goTo i task (.reread before))
    | .reread before =>
      match s.find? task.request.keyId with
      | none => some (s.finish i task (.notFound task.request.keyId))
      | some saved => some (s.complete i task before saved)
    | .done _ => none

end State

/-- A process receives a request, or a request takes its next step. -/
inductive Event where
  | receive (request : Request)
  | step (i : Nat)
deriving DecidableEq

def machine (guardNow : Nat) : Machine State Event where
  step s event :=
    match event with
    | .receive request => some { s with tasks := s.tasks ++ [⟨request, .findOne⟩] }
    | .step i => s.step guardNow i

end OpenWA.Auth
