import OpenWA.Async.Machine
import OpenWA.Js.Map

/-!
This module contains the restrictions that the engines report of the accounts behind the sessions: what
is stored of them, what reads serve, and what is announced.
-/

namespace OpenWA.Restriction

open Js Async

inductive Kind where
  | reachoutTimelock
  | tosBlock
  | proxyBlock
deriving DecidableEq

structure AccountRestriction where
  kind : Kind
  code : String
  /-- Unix milliseconds. -/
  expiresAt : Option Int
deriving DecidableEq

/-- The payload of `session.restriction`. -/
structure Announcement where
  sessionId : String
  active : Bool
  kind : Kind
  code : String
  /-- An end of 0 reads as none. -/
  expiresAt : Option Int
deriving DecidableEq

structure State where
  now : Int
  restrictions : Map String AccountRestriction
  announcements : List Announcement

inductive Event where
  | elapse (ms : Nat)
  /-- `live` is what `isLiveEngine` says of the engine that reports. -/
  | onAccountRestriction (sessionId : String) (live : Bool) (restriction : Option AccountRestriction)
  | onReady (sessionId : String) (live : Bool)

section Store

variable (s : State) (sessionId : String)

def hasExpired (restriction : AccountRestriction) : Bool :=
  match restriction.expiresAt with
  | some expiresAt => expiresAt ≤ s.now
  | none => false

def inForce : Option AccountRestriction :=
  match s.restrictions.get? sessionId with
  | some restriction => if hasExpired s restriction then none else some restriction
  | none => none

/-- Whether the kind or the code is another one. -/
def differs (previous : Option AccountRestriction) (restriction : AccountRestriction) : Bool :=
  previous.map (·.kind) != some restriction.kind || previous.map (·.code) != some restriction.code

def set (restriction : AccountRestriction) : Bool × State :=
  (differs (s.restrictions.get? sessionId) restriction,
    { s with restrictions := s.restrictions.set sessionId restriction })

def clear : Option AccountRestriction × State :=
  (s.restrictions.get? sessionId, { s with restrictions := s.restrictions.delete sessionId })

def clearIfDisprovedByReady : Option AccountRestriction × State :=
  match s.restrictions.get? sessionId with
  | none => (none, s)
  | some previous => if previous.kind = .reachoutTimelock then (none, s) else clear s sessionId

end Store

def announce (s : State) (announcement : Announcement) : State :=
  { s with announcements := s.announcements ++ [announcement] }

def activation (sessionId : String) (r : AccountRestriction) : Announcement :=
  ⟨sessionId, true, r.kind, r.code, r.expiresAt.filter (· ≠ 0)⟩

def lift (sessionId : String) (r : AccountRestriction) : Announcement :=
  ⟨sessionId, false, r.kind, r.code, none⟩

def reportRestrictionLifted (sessionId : String) (cleared : Option AccountRestriction × State) :
    State :=
  match cleared with
  | (some lifted, s) => announce s (lift sessionId lifted)
  | (none, s) => s

def onAccountRestriction (s : State) (sessionId : String) (live : Bool)
    (restriction : Option AccountRestriction) : State :=
  if live then
    match restriction with
    | none => reportRestrictionLifted sessionId (clear s sessionId)
    | some restriction =>
      match set s sessionId restriction with
      | (true, s) => announce s (activation sessionId restriction)
      | (false, s) => s
  else s

def onReady (s : State) (sessionId : String) (live : Bool) : State :=
  if live then reportRestrictionLifted sessionId (clearIfDisprovedByReady s sessionId) else s

def machine : Machine State Event where
  step s v :=
    match v with
    | .elapse ms => some { s with now := s.now + ms }
    | .onAccountRestriction sessionId live restriction =>
      some (onAccountRestriction s sessionId live restriction)
    | .onReady sessionId live => some (onReady s sessionId live)

def init (now : Int) : State := ⟨now, .empty, []⟩

end OpenWA.Restriction
