import OpenWA.Async.History
import OpenWA.Async.Machine
import OpenWA.Js.Map
import OpenWA.Js.Text
import Mathlib.Data.List.Perm.Basic

/-!
This module contains the calls of an engine: the signals the socket reports, the map of the calls that
ring, the rejections, and what is published of them.
-/

namespace OpenWA.Baileys.Calls

open Js Async

inductive WACallUpdateType where
  | offer | ringing | timeout | reject | accept | preaccept | transport | relaylatency | terminate
deriving DecidableEq

/-- A missing `id` or `from` is empty; the date is in milliseconds, none if it cannot be read. -/
structure WACallEvent where
  id : Text
  «from» : Text
  chatId : Text
  callerPn : Option Text
  isVideo : Option Bool
  isGroup : Option Bool
  offline : Bool
  status : WACallUpdateType
  date : Option Int

inductive CallOutcome where
  | accepted | rejected | missed
deriving DecidableEq

/-- `CALL_OUTCOMES` -/
def callOutcomes (status : WACallUpdateType) : Option CallOutcome :=
  match status with
  | .accept => some .accepted
  | .reject => some .rejected
  | .timeout => some .missed
  | _ => none

structure IncomingCallEvent where
  callId : Text
  «from» : Text
  isVideo : Bool
  isGroup : Bool
  timestamp : Int
deriving DecidableEq

structure CallOutcomeEvent where
  callId : Text
  «from» : Text
  outcome : CallOutcome
  isVideo : Bool
  isGroup : Bool
  timestamp : Int
deriving DecidableEq

structure LiveCall where
  callFrom : Text
  expiresAt : Int
  «from» : Text
  isVideo : Bool
  isGroup : Bool

/-- How a call of `rejectCall` goes on when it is issued. -/
inductive Attempt where
  | callNotFound | engineNotReady | asked
deriving DecidableEq

/-- What is published, and what the calls that end or are rejected leave behind. -/
inductive Entry where
  | received (payload : IncomingCallEvent)
  | outcome (payload : CallOutcomeEvent)
  | terminated (callId : Text)
  | rejectCall (callId : Text) (attempt : Attempt)

structure State where
  liveCalls : Map Text LiveCall
  /-- the rejections the socket has not answered, as they were asked for -/
  pending : List (Text × LiveCall)
  log : List Entry

def init : State := ⟨.empty, [], []⟩

/-- What the handlers read of the host: the clock, the own number and the neutral form of a jid. -/
structure View where
  now : Int
  selfJid : Text
  toNeutralJid : Text → Text

/-- `LIVE_CALL_TTL_MS` -/
def liveCallTtlMs : Int := 2 * 60000

/-- The map after an offer, and whether the id was not ringing. -/
def cacheLiveCall (now : Int) (liveCalls : Map Text LiveCall) (callId callFrom : Text)
    (publishedFrom : Text) (isVideo isGroup : Bool) : Bool × Map Text LiveCall :=
  let liveCalls := liveCalls.keep fun entry => now < entry.expiresAt
  (!liveCalls.has callId,
    liveCalls.set callId ⟨callFrom, now + liveCallTtlMs, publishedFrom, isVideo, isGroup⟩)

def callTimestamp (now : Int) (date : Option Int) : Int := (date.getD now) / 1000

def reportCallOutcome (v : View) (s : State) (call : WACallEvent) : State :=
  if call.status = .terminate then
    { s with
      liveCalls := s.liveCalls.delete call.id
      log := s.log ++ [.terminated call.id] }
  else
    match callOutcomes call.status with
    | none => s
    | some outcome =>
      let live := s.liveCalls.get? call.id
      let s := { s with liveCalls := s.liveCalls.delete call.id }
      if call.offline || live.isNone then s
      else
        { s with
          log := s.log ++ [.outcome {
            callId := call.id
            «from» := v.toNeutralJid (call.callerPn.getD call.from)
            outcome
            isVideo := call.isVideo = some true
            isGroup := call.isGroup = some true
            timestamp := callTimestamp v.now call.date }] }

/-- The signal comes from the account itself. -/
def isOwnCall (v : View) (call : WACallEvent) : Bool :=
  !v.selfJid.isEmpty &&
    (v.toNeutralJid call.from = v.toNeutralJid v.selfJid ||
      v.toNeutralJid call.chatId = v.toNeutralJid v.selfJid)

/-- One iteration of the loop of `handleCallEvents`. -/
def handleCallEvent (v : View) (s : State) (call : WACallEvent) : State :=
  if call.id.isEmpty || call.from.isEmpty then s
  else if call.status ≠ .offer then reportCallOutcome v s call
  else if call.offline then s
  else if isOwnCall v call then s
  else
    let caller := v.toNeutralJid (call.callerPn.getD call.from)
    let isVideo := call.isVideo = some true
    let isGroup := call.isGroup = some true
    let (isNewCall, liveCalls) :=
      cacheLiveCall v.now s.liveCalls call.id call.from caller isVideo isGroup
    if !isNewCall then { s with liveCalls }
    else
      { s with
        liveCalls
        log := s.log ++ [.received {
          callId := call.id
          «from» := caller
          isVideo
          isGroup
          timestamp := callTimestamp v.now call.date }] }

/-- The host is read again for each of the calls. -/
def handleCallEvents (s : State) (calls : List (View × WACallEvent)) : State :=
  calls.foldl (fun s call => handleCallEvent call.1 s call.2) s

/-- The part of `rejectCall` before the socket is waited for. -/
def rejectCall (v : View) (hasSocket : Bool) (s : State) (callId : Text) : State :=
  let entry := s.liveCalls.get? callId
  let s := { s with liveCalls := s.liveCalls.delete callId }
  match entry with
  | none => { s with log := s.log ++ [.rejectCall callId .callNotFound] }
  | some entry =>
    if entry.expiresAt ≤ v.now then { s with log := s.log ++ [.rejectCall callId .callNotFound] }
    else if !hasSocket then { s with log := s.log ++ [.rejectCall callId .engineNotReady] }
    else
      { s with
        pending := s.pending ++ [(callId, entry)]
        log := s.log ++ [.rejectCall callId .asked] }

inductive Reply where
  | confirmed | refused | timedOut
deriving DecidableEq

/-- The rest of `rejectCall`, when the socket answers or the deadline passes. -/
def settleRejection (v : View) (reply : Reply) (s : State) (callId : Text) (entry : LiveCall) : State :=
  match reply with
  | .confirmed =>
    { s with
      log := s.log ++ [.outcome {
        callId
        «from» := entry.from
        outcome := .rejected
        isVideo := entry.isVideo
        isGroup := entry.isGroup
        timestamp := v.now / 1000 }] }
  | .refused | .timedOut => s

inductive Event where
  | calls (calls : List (View × WACallEvent))
  | rejectCall (v : View) (hasSocket : Bool) (callId : Text)
  | settle (v : View) (i : Nat) (reply : Reply)
  | teardown

def step (s : State) (e : Event) : Option State :=
  match e with
  | .calls calls => some (handleCallEvents s calls)
  | .rejectCall v hasSocket callId => some (rejectCall v hasSocket s callId)
  | .settle v i reply => s.pending[i]?.map fun rejection =>
    settleRejection v reply { s with pending := s.pending.eraseIdx i } rejection.1 rejection.2
  -- `liveCalls.clear()` of a close, a disconnect or a logout
  | .teardown => some { s with liveCalls := .empty }

def machine : Machine State Event := ⟨step⟩

section Property

def receivedIds (log : List Entry) : List Text :=
  log.filterMap fun
    | .received payload => some payload.callId
    | _ => none

def outcomeIds (log : List Entry) : List Text :=
  log.filterMap fun
    | .outcome payload => some payload.callId
    | _ => none

def terminatedIds (log : List Entry) : List Text :=
  log.filterMap fun
    | .terminated callId => some callId
    | _ => none

/-- A call is received once, has one outcome after that, and cannot be rejected once it is over. -/
def Single (before : List Entry) (e : Entry) : Prop :=
  match e with
  | .received payload => payload.callId ∉ receivedIds before
  | .outcome payload => payload.callId ∈ receivedIds before ∧ payload.callId ∉ outcomeIds before
  | .rejectCall callId attempt =>
    callId ∈ outcomeIds before ∨ callId ∈ terminatedIds before → attempt = .callNotFound
  | .terminated _ => True

def OneEventPerCall (s : State) : Prop := EachAfter Single s.log

theorem OneEventPerCall.nodup_receivedIds {s : State} (h : OneEventPerCall s) :
    (receivedIds s.log).Nodup := by
  apply EachAfter.nodup_filterMap h
  intro before e callId hsingle hkey
  cases e with
  | received payload =>
    rw [← Option.some.inj hkey]
    exact hsingle
  | outcome _ | terminated _ | rejectCall _ _ => contradiction

theorem OneEventPerCall.nodup_outcomeIds {s : State} (h : OneEventPerCall s) :
    (outcomeIds s.log).Nodup := by
  apply EachAfter.nodup_filterMap h
  intro before e callId hsingle hkey
  cases e with
  | outcome payload =>
    rw [← Option.some.inj hkey]
    exact hsingle.2
  | received _ | terminated _ | rejectCall _ _ => contradiction

/-- The signals of a batch satisfy `ok`, each one in the state it is handled in. -/
def AlongCalls (ok : State → View → WACallEvent → Prop) (s : State) (calls : List (View × WACallEvent)) :
    Prop :=
  match calls with
  | [] => True
  | call :: calls => ok s call.1 call.2 ∧ AlongCalls ok (handleCallEvent call.1 s call.2) calls

/-- The handler takes the signal for a call that rings. -/
def Offers (v : View) (call : WACallEvent) : Prop :=
  call.id ≠ [] ∧ call.from ≠ [] ∧ call.status = .offer ∧ call.offline = false ∧
    isOwnCall v call = false

/-- An offer is of a call that rings still, or of one that was neither received nor terminated. -/
def FreshOffer (s : State) (v : View) (call : WACallEvent) : Prop :=
  Offers v call →
    (s.liveCalls.get? call.id).any (v.now < ·.expiresAt) = true ∨
      call.id ∉ receivedIds s.log ∧ call.id ∉ terminatedIds s.log

def freshOffers (s : State) (e : Event) : Prop :=
  match e with
  | .calls calls => AlongCalls FreshOffer s calls
  | _ => True

def Unexpired (s : State) (now : Int) : Prop := ∀ entry ∈ s.liveCalls.entries, now < entry.2.expiresAt

/-- No call rings longer than its entry is kept. -/
def withinTtl (s : State) (e : Event) : Prop :=
  match e with
  | .calls calls => AlongCalls (fun s v _ => Unexpired s v.now) s calls
  | .rejectCall v _ _ | .settle v _ _ => Unexpired s v.now
  | .teardown => True

instance [∀ s v call, Decidable (ok s v call)] (s : State) (calls : List (View × WACallEvent)) :
    Decidable (AlongCalls ok s calls) :=
  match calls with
  | [] => inferInstanceAs (Decidable True)
  | call :: calls =>
    have : Decidable (AlongCalls ok (handleCallEvent call.1 s call.2) calls) :=
      instDecidableAlongCalls (handleCallEvent call.1 s call.2) calls
    inferInstanceAs (Decidable (_ ∧ _))

instance (s : State) (v : View) (call : WACallEvent) : Decidable (FreshOffer s v call) :=
  inferInstanceAs (Decidable (_ ∧ _ ∧ _ ∧ _ ∧ _ → _))

instance (s : State) (now : Int) : Decidable (Unexpired s now) :=
  inferInstanceAs (Decidable (∀ entry ∈ s.liveCalls.entries, now < entry.2.expiresAt))

instance (s : State) (e : Event) : Decidable (freshOffers s e) :=
  match e with
  | .calls calls => inferInstanceAs (Decidable (AlongCalls FreshOffer s calls))
  | .rejectCall _ _ _ | .settle _ _ _ | .teardown => inferInstanceAs (Decidable True)

instance (s : State) (e : Event) : Decidable (withinTtl s e) :=
  match e with
  | .calls calls => inferInstanceAs (Decidable (AlongCalls (fun s v _ => Unexpired s v.now) s calls))
  | .rejectCall v _ _ | .settle v _ _ => inferInstanceAs (Decidable (Unexpired s v.now))
  | .teardown => inferInstanceAs (Decidable True)

end Property

section Steps

variable {s : State}

/-- What rings was received and is not over; what is being rejected was received and has no outcome. -/
structure Accounted (s : State) : Prop where
  logged : OneEventPerCall s
  live : ∀ callId, s.liveCalls.has callId = true →
    callId ∈ receivedIds s.log ∧ callId ∉ outcomeIds s.log ∧ callId ∉ terminatedIds s.log ∧
      callId ∉ s.pending.map (·.1)
  pending : ∀ callId ∈ s.pending.map (·.1), callId ∈ receivedIds s.log ∧ callId ∉ outcomeIds s.log
  ended : ∀ callId ∈ outcomeIds s.log, callId ∈ receivedIds s.log
  nodup : (s.pending.map (·.1)).Nodup

theorem accounted_init : Accounted init where
  logged := eachAfter_nil
  live _ h := nomatch h
  pending _ h := nomatch h
  ended _ h := nomatch h
  nodup := List.nodup_nil

/-- No call starts to ring. -/
theorem Accounted.shrink (h : Accounted s) {liveCalls : Map Text LiveCall}
    (hlive : ∀ callId, liveCalls.has callId = true → s.liveCalls.has callId = true) :
    Accounted { s with liveCalls } where
  logged := h.logged
  live callId hcall := h.live callId (hlive callId hcall)
  pending := h.pending
  ended := h.ended
  nodup := h.nodup

theorem has_delete {liveCalls : Map Text LiveCall} {callId callId' : Text}
    (h : (liveCalls.delete callId).has callId' = true) :
    callId' ≠ callId ∧ liveCalls.has callId' = true := by
  rw [Map.has_eq, Map.get?_delete] at h
  split at h
  . contradiction
  . next hne => exact ⟨hne, h⟩

theorem Accounted.delete (h : Accounted s) (callId : Text) :
    Accounted { s with liveCalls := s.liveCalls.delete callId } :=
  h.shrink fun _ hcall => (has_delete hcall).2

/-- An entry that is neither a receipt nor an outcome, and ends no call that rings. -/
theorem Accounted.note (h : Accounted s) {e : Entry} (hsingle : Single s.log e)
    (hreceived : receivedIds [e] = []) (houtcome : outcomeIds [e] = [])
    (hterminated : ∀ callId ∈ terminatedIds [e], s.liveCalls.has callId = false) :
    Accounted { s with log := s.log ++ [e] } := by
  have hreceivedIds : receivedIds (s.log ++ [e]) = receivedIds s.log := by
    rw [receivedIds, List.filterMap_append]
    exact (congrArg (_ ++ ·) hreceived).trans (List.append_nil _)
  have houtcomeIds : outcomeIds (s.log ++ [e]) = outcomeIds s.log := by
    rw [outcomeIds, List.filterMap_append]
    exact (congrArg (_ ++ ·) houtcome).trans (List.append_nil _)
  constructor
  . exact h.logged.concat hsingle
  . intro callId hcall
    have hlive := h.live callId hcall
    refine ⟨hreceivedIds ▸ hlive.1, houtcomeIds ▸ hlive.2.1, ?_, hlive.2.2.2⟩
    intro hmem
    rw [terminatedIds, List.filterMap_append, List.mem_append] at hmem
    rcases hmem with hmem | hmem
    . exact hlive.2.2.1 hmem
    . exact Bool.noConfusion ((hterminated callId hmem).symm.trans hcall)
  . intro callId hmem
    have hpending := h.pending callId hmem
    exact ⟨hreceivedIds ▸ hpending.1, houtcomeIds ▸ hpending.2⟩
  . intro callId hmem
    exact hreceivedIds ▸ h.ended callId (houtcomeIds ▸ hmem)
  . exact h.nodup

/-- The outcome of a call that neither rings nor is being rejected any more. -/
theorem Accounted.outcome (h : Accounted s) {payload : CallOutcomeEvent}
    (hreceived : payload.callId ∈ receivedIds s.log) (hfirst : payload.callId ∉ outcomeIds s.log)
    (hlive : s.liveCalls.has payload.callId = false)
    (hpending : payload.callId ∉ s.pending.map (·.1)) :
    Accounted { s with log := s.log ++ [.outcome payload] } := by
  have hreceivedIds : receivedIds (s.log ++ [.outcome payload]) = receivedIds s.log := by
    simp [receivedIds]
  have hterminatedIds : terminatedIds (s.log ++ [.outcome payload]) = terminatedIds s.log := by
    simp [terminatedIds]
  have houtcomeIds {callId : Text} (hne : callId ≠ payload.callId) (hnone : callId ∉ outcomeIds s.log) :
      callId ∉ outcomeIds (s.log ++ [.outcome payload]) := by
    simp only [outcomeIds, List.filterMap_append, List.mem_append, not_or]
    exact ⟨hnone, by simpa using hne⟩
  constructor
  . exact h.logged.concat ⟨hreceived, hfirst⟩
  . intro callId hcall
    have hcallLive := h.live callId hcall
    have hne : callId ≠ payload.callId := by
      rintro rfl
      exact Bool.noConfusion (hlive.symm.trans hcall)
    exact ⟨hreceivedIds ▸ hcallLive.1, houtcomeIds hne hcallLive.2.1,
      hterminatedIds ▸ hcallLive.2.2.1, hcallLive.2.2.2⟩
  . intro callId hmem
    have hcallPending := h.pending callId hmem
    have hne : callId ≠ payload.callId := by
      rintro rfl
      exact hpending hmem
    exact ⟨hreceivedIds ▸ hcallPending.1, houtcomeIds hne hcallPending.2⟩
  . intro callId hmem
    rw [hreceivedIds]
    rw [outcomeIds, List.filterMap_append, List.mem_append] at hmem
    rcases hmem with hmem | hmem
    . exact h.ended callId hmem
    . have heq : callId = payload.callId := by simpa using hmem
      exact heq ▸ hreceived
  . exact h.nodup

theorem Accounted.reportCallOutcome (h : Accounted s) (v : View) (call : WACallEvent) :
    Accounted (reportCallOutcome v s call) := by
  have hgone : (s.liveCalls.delete call.id).has call.id = false := by
    simp [Map.has_eq]
  unfold Calls.reportCallOutcome
  split
  . refine (h.delete call.id).note trivial rfl rfl fun callId hmem => ?_
    have heq : callId = call.id := by simpa [terminatedIds] using hmem
    exact heq ▸ hgone
  . split
    . exact h
    . dsimp only
      split
      . exact h.delete call.id
      . next hcall =>
        simp only [Bool.or_eq_true, Option.isNone_iff_eq_none, not_or] at hcall
        have hlive := h.live call.id (Option.isSome_iff_ne_none.mpr hcall.2)
        exact (h.delete call.id).outcome hlive.1 hlive.2.1 hgone hlive.2.2.2

/-- A call that rings gets a new entry. -/
theorem Accounted.refresh (h : Accounted s) {now : Int} {callId : Text} {entry : LiveCall}
    (hcall : s.liveCalls.has callId = true) :
    Accounted { s with
      liveCalls := (s.liveCalls.keep fun entry => now < entry.expiresAt).set callId entry } := by
  apply h.shrink
  intro callId' hcall'
  rw [Map.has_eq, Map.get?_set] at hcall'
  split at hcall'
  . next heq => exact heq ▸ hcall
  . rw [Map.get?_keep] at hcall'
    exact Option.isSome_of_isSome_filter _ _ hcall'

/-- A call starts to ring. -/
theorem Accounted.receive (h : Accounted s) {now : Int} {entry : LiveCall} (payload : IncomingCallEvent)
    (hfirst : payload.callId ∉ receivedIds s.log) (hterminated : payload.callId ∉ terminatedIds s.log) :
    Accounted { s with
      liveCalls := (s.liveCalls.keep fun entry => now < entry.expiresAt).set payload.callId entry
      log := s.log ++ [.received payload] } := by
  have houtcomeIds : outcomeIds (s.log ++ [.received payload]) = outcomeIds s.log := by
    simp [outcomeIds]
  have hterminatedIds : terminatedIds (s.log ++ [.received payload]) = terminatedIds s.log := by
    simp [terminatedIds]
  have hreceivedIds : receivedIds (s.log ++ [.received payload]) =
      receivedIds s.log ++ [payload.callId] := by
    simp [receivedIds]
  have hgrow {callId : Text} (hmem : callId ∈ receivedIds s.log) :
      callId ∈ receivedIds (s.log ++ [.received payload]) := by
    rw [hreceivedIds]
    exact List.mem_append_left _ hmem
  constructor
  . exact h.logged.concat hfirst
  . intro callId hcall
    rw [Map.has_eq, Map.get?_set] at hcall
    split at hcall
    . next heq =>
      subst heq
      refine ⟨by simp [hreceivedIds], ?_, hterminatedIds ▸ hterminated, ?_⟩
      . rw [houtcomeIds]
        exact fun hmem => hfirst (h.ended _ hmem)
      . exact fun hmem => hfirst (h.pending _ hmem).1
    . rw [Map.get?_keep] at hcall
      have hlive := h.live callId (Option.isSome_of_isSome_filter _ _ hcall)
      exact ⟨hgrow hlive.1, houtcomeIds ▸ hlive.2.1, hterminatedIds ▸ hlive.2.2.1, hlive.2.2.2⟩
  . intro callId hmem
    have hpending := h.pending callId hmem
    exact ⟨hgrow hpending.1, houtcomeIds ▸ hpending.2⟩
  . intro callId hmem
    exact hgrow (h.ended callId (houtcomeIds ▸ hmem))
  . exact h.nodup

theorem Accounted.handleCallEvent (h : Accounted s) {v : View} {call : WACallEvent}
    (hfresh : FreshOffer s v call) : Accounted (handleCallEvent v s call) := by
  unfold Calls.handleCallEvent
  split
  . exact h
  . next hpresent =>
    simp only [Bool.or_eq_true, List.isEmpty_iff, not_or] at hpresent
    split
    . exact h.reportCallOutcome v call
    . next hoffer =>
      split
      . exact h
      . next honline =>
        split
        . exact h
        . next hother =>
          have hcase := hfresh ⟨hpresent.1, hpresent.2, by simpa using hoffer, by simpa using honline,
            by simpa using hother⟩
          simp only [cacheLiveCall, Map.has_eq, Map.get?_keep]
          split
          . next hringing =>
            apply h.refresh
            rw [Bool.not_not] at hringing
            exact Option.isSome_of_isSome_filter _ _ (by simpa using hringing)
          . next hquiet =>
            have hfirst : call.id ∉ receivedIds s.log ∧ call.id ∉ terminatedIds s.log := by
              apply hcase.resolve_left
              intro hringing
              apply hquiet
              cases hget : s.liveCalls.get? call.id with
              | none => simp [hget] at hringing
              | some entry => simpa [hget, Option.filter] using hringing
            exact h.receive ⟨call.id, _, _, _, _⟩ hfirst.1 hfirst.2

theorem Accounted.handleCallEvents {calls : List (View × WACallEvent)} (h : Accounted s)
    (hfresh : AlongCalls FreshOffer s calls) : Accounted (handleCallEvents s calls) := by
  induction calls generalizing s with
  | nil => exact h
  | cons call calls ih => exact ih (h.handleCallEvent hfresh.1) hfresh.2

theorem Accounted.rejectCall (h : Accounted s) (v : View) (hasSocket : Bool) (callId : Text) :
    Accounted (rejectCall v hasSocket s callId) := by
  have hdeleted := h.delete callId
  have hgone (s : State) (attempt : Attempt) : ∀ callId' ∈ terminatedIds [.rejectCall callId attempt],
      s.liveCalls.has callId' = false := by
    simp [terminatedIds]
  unfold Calls.rejectCall
  dsimp only
  split
  . exact hdeleted.note (fun _ => rfl) rfl rfl (hgone _ _)
  . next entry hentry =>
    have hlive := h.live callId (by rw [Map.has_eq, hentry]; rfl)
    have hrings : ¬(callId ∈ outcomeIds s.log ∨ callId ∈ terminatedIds s.log) :=
      not_or.mpr ⟨hlive.2.1, hlive.2.2.1⟩
    split
    . exact hdeleted.note (fun _ => rfl) rfl rfl (hgone _ _)
    . split
      . exact hdeleted.note (fun hover => absurd hover hrings) rfl rfl (hgone _ _)
      . have hpending : Accounted { s with
            liveCalls := s.liveCalls.delete callId
            pending := s.pending ++ [(callId, entry)] } := by
          constructor
          . exact h.logged
          . intro callId' hcall
            rcases has_delete hcall with ⟨hne, hcall⟩
            have hcallLive := h.live callId' hcall
            refine ⟨hcallLive.1, hcallLive.2.1, hcallLive.2.2.1, ?_⟩
            rw [List.map_append, List.mem_append, not_or]
            exact ⟨hcallLive.2.2.2, by simpa using hne⟩
          . intro callId' hmem
            rw [List.map_append, List.mem_append] at hmem
            rcases hmem with hmem | hmem
            . exact h.pending callId' hmem
            . have heq : callId' = callId := by simpa using hmem
              subst heq
              exact ⟨hlive.1, hlive.2.1⟩
          . exact h.ended
          . rw [List.map_append, List.map_singleton, ← List.concat_eq_append, List.nodup_concat]
            exact ⟨hlive.2.2.2, h.nodup⟩
        exact hpending.note (fun hover => absurd hover hrings) rfl rfl (hgone _ _)

theorem Accounted.settleRejection (h : Accounted s) (v : View) (reply : Reply) {i : Nat}
    {rejection : Text × LiveCall} (hi : s.pending[i]? = some rejection) :
    Accounted (settleRejection v reply { s with pending := s.pending.eraseIdx i } rejection.1
      rejection.2) := by
  rcases List.getElem?_eq_some_iff.mp hi with ⟨hlt, rfl⟩
  have hperm : (s.pending[i].1 :: (s.pending.eraseIdx i).map (·.1)).Perm (s.pending.map (·.1)) :=
    (List.getElem_cons_eraseIdx_perm hlt).map Prod.fst
  have hsplit := List.nodup_cons.mp (hperm.nodup_iff.mpr h.nodup)
  have hasked := h.pending s.pending[i].1 (List.mem_map_of_mem (List.getElem_mem hlt))
  have hrest : Accounted { s with pending := s.pending.eraseIdx i } := by
    constructor
    . exact h.logged
    . intro callId hcall
      have hlive := h.live callId hcall
      exact ⟨hlive.1, hlive.2.1, hlive.2.2.1, fun hmem => hlive.2.2.2 (hperm.subset (.tail _ hmem))⟩
    . intro callId hmem
      exact h.pending callId (hperm.subset (.tail _ hmem))
    . exact h.ended
    . exact hsplit.2
  cases reply with
  | confirmed =>
    refine hrest.outcome hasked.1 hasked.2 ?_ hsplit.1
    rw [← Bool.not_eq_true]
    intro hcall
    exact (h.live _ hcall).2.2.2 (List.mem_map_of_mem (List.getElem_mem hlt))
  | refused => exact hrest
  | timedOut => exact hrest

theorem Accounted.step {s' : State} {e : Event} (h : Accounted s) (hfresh : freshOffers s e)
    (hstep : step s e = some s') : Accounted s' := by
  cases e with
  | calls calls =>
    simp only [Calls.step, Option.some.injEq] at hstep
    exact hstep ▸ h.handleCallEvents hfresh
  | rejectCall v hasSocket callId =>
    simp only [Calls.step, Option.some.injEq] at hstep
    exact hstep ▸ h.rejectCall v hasSocket callId
  | settle v i reply =>
    simp only [Calls.step, Option.map_eq_some_iff] at hstep
    rcases hstep with ⟨rejection, hi, rfl⟩
    exact h.settleRejection v reply hi
  | teardown =>
    simp only [Calls.step, Option.some.injEq] at hstep
    exact hstep ▸ h.shrink fun _ hcall => nomatch hcall

end Steps

section Claim

/--
As long as no offer is of a call that was received or terminated and rings no more, a call has one
receipt and one outcome, and cannot be rejected once it is over.
-/
theorem oneEventPerCall_of_freshOffers {s : State} (h : machine.Reach freshOffers init s) :
    OneEventPerCall s :=
  (h.invariant accounted_init fun _ _ _ hs hok hstep => hs.step hok hstep).logged

def viewAt (now : Int) : View := ⟨now, [], id⟩

def signal (status : WACallUpdateType) : WACallEvent where
  id := ['A']
  «from» := ['b']
  chatId := ['b']
  callerPn := none
  isVideo := none
  isGroup := none
  offline := false
  status
  date := none

/-- A call that is offered under both tags, rejected, and reported as rejected by the server too. -/
def rejectedCall : List Event :=
  [.calls [(viewAt 0, signal .offer), (viewAt 1, signal .offer)], .rejectCall (viewAt 2) true ['A'],
    .settle (viewAt 3) 0 .confirmed, .calls [(viewAt 4, signal .reject)], .rejectCall (viewAt 5) true ['A']]

theorem oneEventPerCall_rejectedCall : ∃ s, machine.Reach freshOffers init s ∧
    (receivedIds s.log = [['A']] ∧ outcomeIds s.log = [['A']]) ∧ OneEventPerCall s := by
  have hexec : (machine.exec freshOffers init rejectedCall).map
      (fun s => (receivedIds s.log, outcomeIds s.log)) = some ([['A']], [['A']]) := by decide +kernel
  rcases Machine.reach_of_exec_map hexec with ⟨s, hreach, hlog⟩
  rw [Prod.mk.injEq] at hlog
  exact ⟨s, hreach, hlog, oneEventPerCall_of_freshOffers hreach⟩

/-- The second tag of the offer arrives after the call was rejected: it is received and rejected again. -/
theorem late_offer_received : ¬∀ s, machine.Reach withinTtl init s → OneEventPerCall s := by
  intro h
  have hexec : (machine.exec withinTtl init [.calls [(viewAt 0, signal .offer)],
      .rejectCall (viewAt 1) true ['A'], .settle (viewAt 2) 0 .confirmed,
      .calls [(viewAt 3, signal .offer)]]).map (fun s => receivedIds s.log) =
        some [['A'], ['A']] := by decide +kernel
  rcases Machine.reach_of_exec_map hexec with ⟨s, hreach, hlog⟩
  have hnodup := (h s hreach).nodup_receivedIds
  rw [hlog] at hnodup
  contradiction

end Claim

end OpenWA.Baileys.Calls
