import OpenWA.Async.Machine
import OpenWA.Js.Map
import OpenWA.Js.Text
import Mathlib.Data.List.Basic

/-!
This module contains the breaker that refuses the sends of a session after a run of failures, and the law
that says from the times of the failures alone when it does.
-/

namespace OpenWA.Message

open Js Async

/-- What the breaker reads of the configuration. -/
structure BreakerConfig where
  enabled : Bool
  breakerThreshold : Nat
  breakerCooldownMs : Nat

structure BreakerState where
  consecutiveFailures : Nat
  openedAt : Option Nat
deriving DecidableEq

abbrev Breakers := Map Text BreakerState

inductive SendVerdict where
  | allowed
  | breakerOpen (retryAfterSeconds : Nat)
  /-- One of the daily caps refuses. -/
  | capped
deriving DecidableEq

def breakerFor (breakers : Breakers) (sessionId : Text) : BreakerState :=
  (breakers.get? sessionId).getD ⟨0, none⟩

variable (config : BreakerConfig)

/-- The breakers afterwards, and the length of the streak that is reported when it trips. -/
def recordSendFailure (breakers : Breakers) (now : Nat) (sessionId : Text) : Breakers × Option Nat :=
  if !config.enabled then (breakers, none)
  else
    let breaker := breakerFor breakers sessionId
    let consecutiveFailures := breaker.consecutiveFailures + 1
    if breaker.openedAt.isNone && config.breakerThreshold ≤ consecutiveFailures then
      (breakers.set sessionId ⟨consecutiveFailures, some now⟩, some consecutiveFailures)
    else (breakers.set sessionId ⟨consecutiveFailures, breaker.openedAt⟩, none)

def recordSendSuccess (breakers : Breakers) (sessionId : Text) : Breakers :=
  if !config.enabled then breakers
  else if breakers.has sessionId then breakers.delete sessionId
  else breakers

/-- The breakers afterwards, and the seconds to wait if the session is refused. -/
def assertBreakerClosed (breakers : Breakers) (now : Nat) (sessionId : Text) : Breakers × Option Nat :=
  match (breakers.get? sessionId).bind (·.openedAt) with
  | none => (breakers, none)
  | some openedAt =>
    let elapsed : Int := now - openedAt
    -- The epoch itself is falsy, like a breaker that is not open.
    if openedAt = 0 then (breakers, none)
    else if config.breakerCooldownMs ≤ elapsed then (breakers.delete sessionId, none)
    else (breakers, some ((config.breakerCooldownMs - elapsed + 999) / 1000).toNat)

/-- `overCap` is what the caps, which are read from the database, say about the send. -/
def assertSendAllowed (breakers : Breakers) (now : Nat) (sessionId : Text) (overCap : Bool) :
    Breakers × SendVerdict :=
  if !config.enabled then (breakers, .allowed)
  else
    match assertBreakerClosed config breakers now sessionId with
    | (breakers, some retryAfterSeconds) => (breakers, .breakerOpen retryAfterSeconds)
    | (breakers, none) => (breakers, if overCap then .capped else .allowed)

inductive SendOp where
  | failure
  | success
  | assert (overCap : Bool)
deriving DecidableEq

structure SendEvent where
  sessionId : Text
  time : Nat
  op : SendOp
deriving DecidableEq

/-- The service, the last reading of the clock, and what happened so far. -/
structure BreakerRun where
  breakers : Breakers
  now : Nat
  events : List SendEvent

def applySendOp (breakers : Breakers) (e : SendEvent) : Breakers :=
  match e.op with
  | .failure => (recordSendFailure config breakers e.time e.sessionId).1
  | .success => recordSendSuccess config breakers e.sessionId
  | .assert overCap => (assertSendAllowed config breakers e.time e.sessionId overCap).1

/-- The clock does not go back. -/
def breakerMachine : Machine BreakerRun SendEvent where
  step s e :=
    if s.now ≤ e.time then
      some ⟨applySendOp config s.breakers e, e.time, s.events ++ [e]⟩
    else none

/-- The clock is past the epoch when the service starts. -/
def BreakerRun.init : BreakerRun := ⟨Map.empty, 1, []⟩

/-- The failures in a row of a session, and when they tripped the breaker. -/
structure Streak where
  failures : Nat
  trippedAt : Option Nat
deriving DecidableEq

/-- The time lies in the cooldown that the streak opened. -/
def Streak.Cooling (l : Streak) (time : Nat) : Prop :=
  ∃ t ∈ l.trippedAt, time < t + config.breakerCooldownMs

instance (l : Streak) (time : Nat) : Decidable (l.Cooling config time) :=
  inferInstanceAs (Decidable (∃ t ∈ l.trippedAt, time < t + config.breakerCooldownMs))

/-- A failure that is not in a cooldown trips the breaker if the streak reached the threshold. -/
def Streak.fail (l : Streak) (time : Nat) : Streak :=
  if l.Cooling config time then ⟨l.failures + 1, l.trippedAt⟩
  else
    -- After a cooldown the failures count from one again.
    let failures := if l.trippedAt.isSome then 1 else l.failures + 1
    ⟨failures, if config.breakerThreshold ≤ failures then some time else none⟩

def Streak.next (l : Streak) (e : SendEvent) : Streak :=
  match e.op with
  | .failure => l.fail config e.time
  | .success => ⟨0, none⟩
  | .assert _ => l

def streak (events : List SendEvent) : Streak :=
  events.foldl (Streak.next config) ⟨0, none⟩

/-- The law: the failures of the session reached the threshold, and it is still in the cooldown. -/
def Refuses (events : List SendEvent) (sessionId : Text) (time : Nat) : Prop :=
  let l := streak config (events.filter (·.sessionId = sessionId))
  config.breakerThreshold ≤ l.failures ∧ l.Cooling config time

instance (events : List SendEvent) (sessionId : Text) (time : Nat) :
    Decidable (Refuses config events sessionId time) :=
  inferInstanceAs (Decidable (_ ∧ _))

/-- No failure of the session comes after a cooldown ran out and before an assert has seen that it did. -/
def NoneInServed (sessionId : Text) (s : BreakerRun) (e : SendEvent) : Prop :=
  e.op = .failure ∧ e.sessionId = sessionId →
    ∀ openedAt ∈ (s.breakers.get? sessionId).bind (·.openedAt),
      e.time < openedAt + config.breakerCooldownMs

instance (sessionId : Text) (s : BreakerRun) (e : SendEvent) :
    Decidable (NoneInServed config sessionId s e) :=
  inferInstanceAs (Decidable (_ ∧ _ → ∀ openedAt ∈ _, _))

/-- What the entry of a session says of its streak. -/
def Agrees (now : Nat) (breaker : Option BreakerState) (l : Streak) : Prop :=
  match breaker with
  | none => l = ⟨0, none⟩ ∨ ∃ t, l.trippedAt = some t ∧ t + config.breakerCooldownMs ≤ now
  | some ⟨n, none⟩ => l = ⟨n, none⟩
  | some ⟨_, some openedAt⟩ =>
    l.trippedAt = some openedAt ∧ 0 < openedAt ∧ config.breakerThreshold ≤ l.failures

variable {config} {now time : Nat} {breaker : Option BreakerState} {l : Streak}

theorem Agrees.mono (h : Agrees config now breaker l) (hle : now ≤ time) :
    Agrees config time breaker l := by
  unfold Agrees at *
  split
  . rcases h with h | ⟨t, ht, hserved⟩
    . exact .inl h
    . exact .inr ⟨t, ht, by omega⟩
  . exact h
  . exact h

theorem Agrees.success : Agrees config now none ⟨0, none⟩ := .inl rfl

/-- The failures that are counted in an entry are the ones of the streak as long as nothing tripped. -/
theorem Streak.fail_of_none {n : Nat} (h : l = ⟨n, none⟩) :
    l.fail config time = ⟨n + 1, if config.breakerThreshold ≤ n + 1 then some time else none⟩ := by
  subst h
  simp [Streak.fail, Streak.Cooling]

theorem Streak.fail_of_served {t : Nat} (h : l.trippedAt = some t)
    (hserved : t + config.breakerCooldownMs ≤ time) :
    l.fail config time = ⟨1, if config.breakerThreshold ≤ 1 then some time else none⟩ := by
  have hcooling : ¬l.Cooling config time := by
    simp only [Streak.Cooling, h, Option.mem_def, Option.some.injEq, exists_eq_left']
    omega
  simp [Streak.fail, hcooling, h]

theorem Streak.fail_of_cooling {t : Nat} (h : l.trippedAt = some t)
    (hcooling : time < t + config.breakerCooldownMs) :
    l.fail config time = ⟨l.failures + 1, some t⟩ := by
  have : l.Cooling config time := ⟨t, h, hcooling⟩
  simp [Streak.fail, this, h]

/-- What a failure makes of the entry of its session. -/
def failedBreaker (config : BreakerConfig) (now : Nat) (breaker : BreakerState) : BreakerState :=
  ⟨breaker.consecutiveFailures + 1,
    if breaker.openedAt.isNone && config.breakerThreshold ≤ breaker.consecutiveFailures + 1 then some now
    else breaker.openedAt⟩

theorem recordSendFailure_eq (henabled : config.enabled = true) (breakers : Breakers) (sessionId : Text) :
    (recordSendFailure config breakers now sessionId).1 =
      breakers.set sessionId (failedBreaker config now (breakerFor breakers sessionId)) := by
  unfold recordSendFailure failedBreaker
  rw [if_neg (by simp [henabled])]
  change Prod.fst (if _ then _ else _) = _
  cases (breakerFor breakers sessionId).openedAt.isNone &&
    decide (config.breakerThreshold ≤ (breakerFor breakers sessionId).consecutiveFailures + 1) <;> rfl

theorem Agrees.tripped {n : Nat} (hpos : 0 < time) :
    Agrees config time
      (some ⟨n, if config.breakerThreshold ≤ n then some time else none⟩)
      ⟨n, if config.breakerThreshold ≤ n then some time else none⟩ := by
  split
  . next hreached => exact ⟨rfl, hpos, hreached⟩
  . rfl

theorem Agrees.failure (h : Agrees config now breaker l) (hle : now ≤ time) (hpos : 0 < time)
    (hok : ∀ openedAt ∈ breaker.bind (·.openedAt), time < openedAt + config.breakerCooldownMs) :
    Agrees config time (some (failedBreaker config time (breaker.getD ⟨0, none⟩))) (l.fail config time) := by
  match breaker, h with
  | none, .inl h =>
    rw [Streak.fail_of_none h]
    simpa [failedBreaker] using Agrees.tripped hpos
  | none, .inr ⟨t, ht, hserved⟩ =>
    rw [Streak.fail_of_served ht (by omega)]
    simpa [failedBreaker] using Agrees.tripped hpos
  | some ⟨n, none⟩, h =>
    rw [Streak.fail_of_none h]
    simpa [failedBreaker] using Agrees.tripped hpos
  | some ⟨n, some openedAt⟩, ⟨htripped, hopened, hreached⟩ =>
    rw [Streak.fail_of_cooling htripped (hok openedAt rfl)]
    exact ⟨rfl, hopened, Nat.le_succ_of_le hreached⟩

/-- What an assert leaves of the entry of its session. -/
theorem Agrees.assert {breakers : Breakers} {sessionId : Text} {overCap : Bool}
    (henabled : config.enabled = true) (hle : now ≤ time)
    (h : Agrees config now (breakers.get? sessionId) l) :
    Agrees config time
      ((assertSendAllowed config breakers time sessionId overCap).1.get? sessionId) l := by
  have hlater := h.mono hle
  simp only [assertSendAllowed, henabled, assertBreakerClosed, Bool.not_true, Bool.false_eq_true,
    if_false]
  cases hopened : (breakers.get? sessionId).bind (·.openedAt) with
  | none => exact hlater
  | some openedAt =>
    rcases Option.bind_eq_some_iff.mp hopened with ⟨⟨n, o⟩, hget, ho⟩
    subst ho
    rw [hget] at h
    rcases h with ⟨htripped, hpos, -⟩
    simp only [if_neg (by omega : openedAt ≠ 0)]
    by_cases hserved : (config.breakerCooldownMs : Int) ≤ (time : Int) - openedAt
    . simp only [hserved, if_true, Map.get?_delete]
      exact .inr ⟨_, htripped, by omega⟩
    . simp only [hserved, if_false]
      exact hlater

section Runs

/-- In the entry of the session is what the law makes of the events of the session. -/
structure BreakersAgree (config : BreakerConfig) (sessionId : Text) (s : BreakerRun) : Prop where
  started : 0 < s.now
  agrees : Agrees config s.now (s.breakers.get? sessionId)
    (streak config (s.events.filter (·.sessionId = sessionId)))

variable {s s' : BreakerRun} {e : SendEvent} {sessionId : Text}

theorem streak_append_self :
    streak config ((s.events ++ [e]).filter (·.sessionId = e.sessionId)) =
      (streak config (s.events.filter (·.sessionId = e.sessionId))).next config e := by
  simp [streak, List.filter_append]

theorem streak_append_other (h : e.sessionId ≠ sessionId) :
    streak config ((s.events ++ [e]).filter (·.sessionId = sessionId)) =
      streak config (s.events.filter (·.sessionId = sessionId)) := by
  simp [streak, List.filter_append, h]

theorem get?_assertBreakerClosed_other {breakers : Breakers} {sessionId' : Text} (h : sessionId' ≠ sessionId) :
    (assertBreakerClosed config breakers time sessionId).1.get? sessionId' = breakers.get? sessionId' := by
  simp only [assertBreakerClosed]
  split
  . rfl
  . split
    . rfl
    . split
      . simp [h]
      . rfl

/-- An event of a session leaves the entries of the others. -/
theorem get?_applySendOp_other {breakers : Breakers} (h : e.sessionId ≠ sessionId) :
    (applySendOp config breakers e).get? sessionId = breakers.get? sessionId := by
  have h' : sessionId ≠ e.sessionId := h.symm
  unfold applySendOp
  cases e.op with
  | failure =>
    simp only [recordSendFailure]
    split
    . rfl
    . split <;> simp [h']
  | success =>
    simp only [recordSendSuccess]
    split
    . rfl
    . split <;> simp [h']
  | assert overCap =>
    simp only [assertSendAllowed]
    split
    . rfl
    . have hother : (assertBreakerClosed config breakers e.time e.sessionId).1.get? sessionId =
          breakers.get? sessionId := get?_assertBreakerClosed_other h'
      split <;> simp_all

theorem agrees_applySendOp (henabled : config.enabled = true) (hnow : 0 < s.now)
    (hle : s.now ≤ e.time) (hok : NoneInServed config e.sessionId s e)
    (h : Agrees config s.now (s.breakers.get? e.sessionId) l) :
    Agrees config e.time ((applySendOp config s.breakers e).get? e.sessionId) (l.next config e) := by
  unfold applySendOp Streak.next
  cases hop : e.op with
  | failure =>
    simp only [recordSendFailure_eq henabled, Map.get?_set, if_true]
    exact h.failure hle (by omega) (hok ⟨hop, rfl⟩)
  | success =>
    have hget : (recordSendSuccess config s.breakers e.sessionId).get? e.sessionId = none := by
      simp only [recordSendSuccess, henabled, Bool.not_true, Bool.false_eq_true, if_false]
      cases hhas : s.breakers.has e.sessionId with
      | true => simp
      | false => simpa [Map.has_eq] using hhas
    rw [hget]
    exact .success
  | assert overCap => exact h.assert henabled hle

theorem BreakersAgree.step (henabled : config.enabled = true) (h : BreakersAgree config sessionId s)
    (hok : NoneInServed config sessionId s e) (hstep : (breakerMachine config).step s e = some s') :
    BreakersAgree config sessionId s' := by
  simp only [breakerMachine, Option.ite_none_right_eq_some, Option.some.injEq] at hstep
  rcases hstep with ⟨hle, rfl⟩
  have hnow := h.started
  refine ⟨by simp only; omega, ?_⟩
  by_cases hsession : e.sessionId = sessionId
  . subst hsession
    rw [streak_append_self]
    exact agrees_applySendOp henabled hnow hle hok h.agrees
  . rw [streak_append_other hsession, get?_applySendOp_other hsession]
    exact h.agrees.mono hle

theorem BreakersAgree.init : BreakersAgree config sessionId .init where
  started := Nat.one_pos
  agrees := .inl rfl

/-- The entry of a session is open and its cooldown runs exactly if the law refuses. -/
theorem Agrees.refuses_iff {breakers : Breakers} (h : Agrees config time (breakers.get? sessionId) l) :
    (∃ retry, (assertBreakerClosed config breakers time sessionId).2 = some retry) ↔
      config.breakerThreshold ≤ l.failures ∧ l.Cooling config time := by
  unfold assertBreakerClosed
  generalize breakers.get? sessionId = breaker at h ⊢
  match breaker, h with
  | none, .inl h => simp [Streak.Cooling, h]
  | none, .inr ⟨t, ht, hserved⟩ =>
    simp only [Option.bind_none, reduceCtorEq, exists_false, Streak.Cooling, ht, Option.mem_def,
      Option.some.injEq, exists_eq_left', false_iff, not_and]
    omega
  | some ⟨n, none⟩, h =>
    have h : l = ⟨n, none⟩ := h
    simp [Streak.Cooling, h]
  | some ⟨n, some openedAt⟩, ⟨htripped, hpos, hreached⟩ =>
    have hcooling : l.Cooling config time ↔ time < openedAt + config.breakerCooldownMs := by
      simp [Streak.Cooling, htripped]
    rw [hcooling]
    simp only [Option.bind_some, if_neg (by omega : openedAt ≠ 0)]
    by_cases hserved : (config.breakerCooldownMs : Int) ≤ (time : Int) - openedAt
    . simp only [hserved, if_true, reduceCtorEq, exists_false, false_iff, not_and]
      omega
    . simp only [hserved, if_false, Option.some.injEq, exists_eq', true_iff]
      omega

/--
If no failure of the session came between the end of a cooldown and the assert that sees it, the session is
refused exactly when its own events say so.
-/
theorem assertSendAllowed_refuses_iff
    (h : (breakerMachine config).Reach (NoneInServed config sessionId) .init s) (htime : s.now ≤ time)
    (overCap : Bool) :
    (∃ retry, (assertSendAllowed config s.breakers time sessionId overCap).2 = .breakerOpen retry) ↔
      config.enabled = true ∧ Refuses config s.events sessionId time := by
  cases henabled : config.enabled with
  | false => simp [assertSendAllowed, henabled]
  | true =>
    have hinv : BreakersAgree config sessionId s :=
      h.invariant .init fun _ _ _ hs hok hstep => hs.step henabled hok hstep
    have hiff := (hinv.agrees.mono htime).refuses_iff
    rw [Refuses, ← hiff]
    simp only [assertSendAllowed, henabled, Bool.not_true, Bool.false_eq_true, if_false, true_and]
    split
    . next heq => simp [heq]
    . next heq => cases overCap <;> simp [heq]

/-- Two failures trip the breaker, and two more come after the cooldown. -/
def lateFailures : List SendEvent :=
  [1, 2, 2000, 2001].map fun time => ⟨"s".toList, time, .failure⟩

def twoFailures : BreakerConfig := ⟨true, 2, 1000⟩

/-- Whether the clock can show the time, and what the code and the law make of an assert then. -/
def assertAt (time : Nat) (s : BreakerRun) : Bool × SendVerdict × Bool :=
  (s.now ≤ time, (assertSendAllowed twoFailures s.breakers time "s".toList false).2,
    Refuses twoFailures s.events "s".toList time)

theorem assertSendAllowed_refuses_iff_tripped :
    ∃ s, (breakerMachine twoFailures).Reach (NoneInServed twoFailures "s".toList) .init s ∧
      ((∃ retry, (assertSendAllowed twoFailures s.breakers 3 "s".toList false).2 = .breakerOpen retry) ↔
        twoFailures.enabled = true ∧ Refuses twoFailures s.events "s".toList 3) ∧
      Refuses twoFailures s.events "s".toList 3 := by
  have hrun : ((breakerMachine twoFailures).exec (NoneInServed twoFailures "s".toList) .init
      (lateFailures.take 2)).map (assertAt 3) = some (true, .breakerOpen 1, true) := by decide +kernel
  rcases Machine.reach_of_exec_map hrun with ⟨s, hreach, hs⟩
  simp only [assertAt, Prod.mk.injEq, decide_eq_true_eq] at hs
  exact ⟨s, hreach, assertSendAllowed_refuses_iff hreach hs.1 false, hs.2.2⟩

/-- The late failures are forgotten: the assert takes them for a part of the streak whose cooldown is over. -/
theorem assertSendAllowed_late_failures :
    ¬ ∀ s, (breakerMachine twoFailures).Reach Machine.anyStep .init s → ∀ time, s.now ≤ time →
      ((∃ retry, (assertSendAllowed twoFailures s.breakers time "s".toList false).2 = .breakerOpen retry) ↔
        twoFailures.enabled = true ∧ Refuses twoFailures s.events "s".toList time) := by
  intro h
  have hrun : ((breakerMachine twoFailures).exec Machine.anyStep .init lateFailures).map (assertAt 2002) =
      some (true, .allowed, true) := by decide +kernel
  rcases Machine.reach_of_exec_map hrun with ⟨s, hreach, hs⟩
  simp only [assertAt, Prod.mk.injEq, decide_eq_true_eq] at hs
  rcases (h s hreach 2002 hs.1).mpr ⟨rfl, hs.2.2⟩ with ⟨retry, hretry⟩
  rw [hs.2.1] at hretry
  contradiction

end Runs

end OpenWA.Message
