import OpenWA.Js.Text
import Mathlib.Data.Char
import Mathlib.Data.List.Sort
import Mathlib.Order.Lex
import Mathlib.Data.List.Lex

/-!
This module contains the rows of the API keys, and the columns of a row that decide what the key may
do.
-/

namespace OpenWA.Auth

open Js

inductive ApiKeyRole where
  | admin
  | operator
  | viewer
deriving DecidableEq

/-- Why the live sockets of a key are torn down. -/
inductive ApiKeyEvictionReason where
  | revoked
  | deleted
  | authorizationChanged
  | expired
deriving DecidableEq

/-- A row of `api_keys`. Its lists are `simple-array` columns, its times are in milliseconds. -/
structure ApiKey where
  id : Text
  name : Text
  role : ApiKeyRole
  allowedIps : Option (List Text)
  allowedSessions : Option (List Text)
  isActive : Bool
  expiresAt : Option Nat
deriving DecidableEq

def normalizeScopeList (list : Option (List Text)) : Option (List Text) :=
  match list with
  | none => none
  | some list =>
    match (list.map trim).filter (· ≠ []) with
    | [] => none
    | cleaned => some cleaned

/-- The text that a `simple-array` column stores. -/
def stored (list : List Text) : Text := [','].intercalate list

/-- What two rows that authorize the same share. Only its equality matters, so it is not a text. -/
structure Fingerprint where
  role : ApiKeyRole
  allowedIps : Option (List Text)
  allowedSessions : Option (List Text)
  expiresAt : Option Nat
deriving DecidableEq

/-- `[...normalized].sort()`, by some total order on texts. -/
def scope (list : Option (List Text)) : Option (List Text) :=
  (normalizeScopeList list).map fun normalized => normalized.insertionSort (· ≤ ·)

def apiKeyAuthorizationFingerprint (key : ApiKey) : Fingerprint where
  role := key.role
  allowedIps := scope key.allowedIps
  allowedSessions := scope key.allowedSessions
  expiresAt := key.expiresAt

/-- `usableAdminCondition` at the instant `guardNow`. -/
def usableAdmin (guardNow : Nat) (key : ApiKey) : Bool :=
  key.role = .admin && key.isActive && key.expiresAt.all (guardNow < ·) &&
    key.allowedSessions.all (stored · = [])

end OpenWA.Auth
