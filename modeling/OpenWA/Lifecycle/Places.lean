import OpenWA.Lifecycle.Service

/-!
This module contains the places that the functions an event starts may come to.
-/

namespace OpenWA.Lifecycle

open Async

namespace Event

/-- The event claims the session before it starts it. -/
def claims (v : Event) : Bool :=
  match v with
  | .serviceStart _ | .sweep .. => true
  | _ => false

/-- The event may run `start`. -/
def starts (v : Event) : Bool :=
  match v with
  | .start _ => true
  | v => v.claims

/-- The event may run `initializeEngine`. -/
def launches (v : Event) : Bool :=
  match v with
  | .timer .. => true
  | v => v.starts

/-- The event runs the retiring verb `u`. -/
def retires (v : Event) (u : Verb) : Bool :=
  match v with
  | .verb u' _ => u' = u
  | .serviceStop _ => u = .stop
  | .serviceLogout _ => u = .logout
  | .serviceForceKill _ => u = .forceKill
  | _ => false

/-- The event hands a claim back. -/
def releases (v : Event) : Bool :=
  match v with
  | .serviceStop _ | .serviceLogout _ | .serviceForceKill _ => true
  | v => v.claims

/-- The event is a loss of the connection of `e`. -/
def dropsOut (v : Event) (e : Nat) : Bool :=
  match v with
  | .disconnected _ e' _ | .watchdog _ e' => e' = e
  | _ => false

def attempts (v : Event) (k : Nat) : Bool :=
  match v with
  | .timer _ k' => k' = k
  | _ => false

/-- The functions that the event starts may come to the place. -/
def covers (v : Event) (pt : Place) : Bool :=
  match pt with
  | .initialStatus _ | .initialised _ | .timeoutTeardown _ | .timeoutStatus _ | .retiredFind | .resurrected
  | .resurrectedTeardown _ | .purgeFind => v.launches
  | .startReserve | .startFind | .startChecks | .startPrepare | .startCreate _ | .startLaunched | .startFailed
  | .startFailedTeardown _ | .startFailedStatus _ | .startRelease | .requireSession => v.starts
  | .retireFind u | .retireMark u | .retireInitial u .. | .retireTeardown u _ | .retireStatus u .. | .retireDone u =>
    v.retires u
  | .retireEscalated _ => v.retires .stop
  | .retirePhone _ => v.retires .logout
  | .dropStopMark => v.retires .stop || v.retires .delete
  | .deleteFence | .deleteFenceAgain _ | .deleteFenceStatus _ | .deleteRow | .deleteDone => v.retires .delete
  | .orphanMark | .orphanTeardown _ => (v matches .stopOrphanEngines _ | .heartbeat _)
  | .rebindTeardown _ | .rebindStatus _ => (v matches .ready ..)
  | .disconnectFind e | .disconnected e .. => v.dropsOut e
  | .oldTeardown k _ | .oldForceDestroy k _ | .reconnectFence k | .reconnectCreate k _ | .reconnectLaunched k _
  | .reconnectFailed k .. => v.attempts k
  | .claimCall => v.claims || (v matches .serviceStop _)
  | .claim _ | .claimed _ | .claimFind | .retryBegin | .retryWait _ => v.claims
  | .releaseCheck | .release _ => v.releases
  | .renewCall | .renewUpdate _ | .renewFind | .renewVerdict _ => (v matches .heartbeat _)
  | .stopCount | .stopHeld _ | .stopHeldFault | .stopHeldElsewhere | .discardStopMark => (v matches .serviceStop _)
  | .sweepCall | .sweepFind _ | .sweepCorrect .. => (v matches .sweep ..)

end Event

variable {v : Event} {p : Nat} {α : Type}

/-- A task comes to no other places than those of `v`. -/
def Within (v : Event) (t : Job α) : Prop := t.Visits fun l => v.covers l.place = true

theorem within_run {pt : Place} {result : Answer → State → Except LifecycleError α} (h : v.covers pt = true) :
    Within v (run p pt result) :=
  ⟨h, fun _ _ => Task.visits_ofExcept _⟩

theorem within_bind {β : Type} {t : Job α} {k : α → Job β} (h : Within v t) (hk : ∀ a, Within v (k a)) :
    Within v (t >>= k) := Task.Visits.bind h hk

theorem within_turn {β : Type} {pt : Place} {result : Answer → State → Except LifecycleError α}
    {k : α → Job β} (h : v.covers pt = true) (hk : ∀ a, Within v (k a)) : Within v (run p pt result >>= k) :=
  within_bind (within_run h) hk

theorem within_ite {c : Prop} [Decidable c] {t t' : Job α} (h : Within v t) (h' : Within v t') :
    Within v (if c then t else t') := by
  split
  . exact h
  . exact h'

section Launch

variable (h : v.launches = true)
include h

theorem within_initializeEngine (e : Nat) : Within v (initializeEngine p e) := by
  have htimeout : Within v (initTimeout p e) := by
    refine within_turn h fun w => ?_
    exact within_turn h fun _ => trivial
  refine within_turn h fun launched => ?_
  apply within_ite
  . refine within_turn h fun timedOut => ?_
    exact within_ite htimeout trivial
  . trivial

theorem within_isSessionRetired (stopping : Bool) : Within v (isSessionRetired p stopping) := by
  apply within_ite
  . trivial
  . exact within_turn h fun _ => trivial

theorem within_unwindRetired : Within v (unwindRetired p) := by
  apply within_bind
  . refine within_turn h fun resurrected => ?_
    cases resurrected with
    | some e => exact within_run h
    | none => trivial
  . intro _
    exact within_run h

end Launch

theorem within_executeReconnect {k : Nat} (h : v.attempts k = true) (session : Session) (old : Option Nat) :
    Within v (executeReconnect p k session old) := by
  have hlaunches : v.launches = true := by
    cases v <;> first | rfl | contradiction
  have hold : Within v (cleanUpOld p k old) := by
    cases old with
    | some e =>
      refine within_turn h fun destroyed => ?_
      exact within_ite trivial (within_run h)
    | none => trivial
  have hprepare : Within v (reconnectPrepare p k session old) := by
    apply within_bind hold
    intro _
    refine within_turn h fun _ => ?_
    exact within_run h
  have hretired (stopping : Bool) : Within v (reconnectRetired p stopping) := by
    apply within_bind
    . exact Task.Visits.catch' (within_isSessionRetired hlaunches stopping) fun _ => trivial
    . intro retired
      exact within_ite (within_unwindRetired hlaunches) trivial
  have hlaunch (e : Nat) : Within v (reconnectLaunch p k session e) := by
    apply within_bind
    . apply Task.Visits.catch'
      . exact within_bind (within_initializeEngine hlaunches e) fun _ => trivial
      . exact fun _ => trivial
    . intro failed
      cases failed with
      | some err => exact within_run h
      | none => exact within_bind (within_run h) hretired
  apply within_bind
  . apply Task.Visits.catch'
    . exact within_bind hprepare fun _ => trivial
    . exact fun _ => trivial
  . intro created
    cases created with
    | ok e => exact hlaunch e
    | error err => exact within_run h

theorem within_start (h : v.starts = true) : Within v (start p) := by
  have hlaunches : v.launches = true := by
    cases v <;> first | rfl | contradiction
  have hfailed (err : LifecycleError) : Within v (startFailed p err) := by
    refine within_turn h fun orphan => ?_
    cases orphan with
    | none => trivial
    | some e =>
      refine within_turn h fun w => ?_
      cases w with
      | none => trivial
      | some w => exact within_turn h fun _ => trivial
  have hlaunched : Within v (startLaunched p) := by
    refine within_turn h fun stopping => ?_
    apply within_bind (within_isSessionRetired hlaunches stopping)
    intro retired
    exact within_ite (within_unwindRetired hlaunches) trivial
  have hprepare : Within v (startPrepare p) := by
    refine within_turn h fun session => ?_
    refine within_turn h fun _ => ?_
    refine within_turn h fun _ => ?_
    exact within_run h
  have hreserved : Within v (startReserved p) := by
    apply within_bind hprepare
    intro e
    exact within_bind (Task.Visits.catch' (within_initializeEngine hlaunches e) hfailed) fun _ => hlaunched
  refine within_turn h fun _ => ?_
  apply within_bind
  . exact Task.Visits.andFinally hreserved (within_run h)
  . intro _
    exact within_turn h fun _ => trivial

section Retire

theorem within_retireEngine {u : Verb} (h : v.retires u = true) (e : Nat) (pending : Bool) :
    Within v (retireEngine p u e pending) := by
  refine within_turn h fun _ => ?_
  exact within_run h

theorem within_stop (h : v.retires .stop = true) : Within v (stop p) := by
  have hfind : Within v (requireSessionOrDropStopMark p .stop) := by
    apply Task.Visits.catch'
    . exact within_turn h fun _ => trivial
    . intro err
      exact within_turn (by simp [Event.covers, h]) fun _ => trivial
  have hengine (e : Nat) (pending : Bool) : Within v (stopEngine p e pending) := by
    apply within_bind (within_retireEngine h e pending)
    intro a
    apply within_ite
    . exact within_run h
    . refine within_turn h fun a => ?_
      refine within_turn h fun _ => ?_
      exact within_ite trivial trivial
  apply within_bind hfind
  intro _
  refine within_turn h fun ⟨captured, w⟩ => ?_
  apply within_bind
  . cases captured with
    | some engine => exact hengine engine.1 engine.2
    | none => exact within_run h
  . intro _
    exact within_turn h fun _ => trivial

theorem within_logout (h : v.retires .logout = true) : Within v (logout p) := by
  have hphone (e : Nat) (unlinked : Bool) (w : Nat) : Within v (logoutPhone p e unlinked w) := by
    refine within_turn h fun phone => ?_
    refine within_turn h fun _ => ?_
    apply within_ite
    . exact within_turn h fun _ => trivial
    . trivial
  refine within_turn h fun _ => ?_
  refine within_turn h fun ⟨captured, w⟩ => ?_
  cases captured with
  | some engine => exact within_bind (within_retireEngine h _ _) fun _ => hphone _ _ _
  | none => trivial

theorem within_forceKill (h : v.retires .forceKill = true) : Within v (forceKill p) := by
  refine within_turn h fun _ => ?_
  refine within_turn h fun ⟨captured, w⟩ => ?_
  cases captured with
  | some engine =>
    apply within_bind (within_retireEngine h _ _)
    intro a
    refine within_turn h fun _ => ?_
    exact within_turn h fun _ => trivial
  | none => trivial

theorem within_delete (h : v.retires .delete = true) : Within v (delete p) := by
  have hfind : Within v (requireSessionOrDropStopMark p .delete) := by
    apply Task.Visits.catch'
    . exact within_turn h fun _ => trivial
    . intro err
      exact within_turn (by simp [Event.covers, h]) fun _ => trivial
  have hfence (e : Option Nat) : Within v (deleteFenceAgain p e) := by
    refine within_turn h fun refused => ?_
    rcases refused with _ | _ | w
    . trivial
    . trivial
    . exact within_turn h fun _ => trivial
  apply within_bind hfind
  intro _
  refine within_turn h fun _ => ?_
  refine within_turn h fun ⟨captured, w⟩ => ?_
  apply Task.Visits.andFinally
  . apply within_bind
    . cases captured with
      | some engine => exact within_bind (within_retireEngine h _ _) fun _ => trivial
      | none => trivial
    . intro _
      apply within_bind (hfence _)
      intro _
      exact within_run h
  . exact within_run h

theorem within_verb {u : Verb} (h : v.retires u = true) : Within v (u.task p) := by
  cases u with
  | stop => exact within_stop h
  | logout => exact within_logout h
  | forceKill => exact within_forceKill h
  | delete => exact within_delete h

theorem within_stopOrphanEngines (h : v.covers .orphanMark = true) : Within v (stopOrphanEngines p) := by
  refine within_turn h fun engine => ?_
  cases engine with
  | some e => exact within_run h
  | none => trivial

end Retire

section Service

theorem within_releaseUnlessEngineActive (h : v.releases = true) : Within v (releaseUnlessEngineActive p) := by
  refine within_turn h fun now => ?_
  cases now with
  | some now => exact within_run h
  | none => trivial

theorem within_releaseAndThrow (h : v.releases = true) (err : LifecycleError) : Within v (releaseAndThrow p err) :=
  within_bind (within_releaseUnlessEngineActive h) fun _ => trivial

theorem within_serviceStart (h : v.claims = true) : Within v (serviceStart p) := by
  have hstarts : v.starts = true := by
    cases v <;> first | rfl | contradiction
  have hreleases : v.releases = true := by
    cases v <;> first | rfl | contradiction
  have hclaim : Within v (claim p) := by
    refine within_turn (by simp [Event.covers, h]) fun now => ?_
    refine within_turn h fun affected => ?_
    exact within_run h
  have hrefuse : Within v (refuseClaim p) := within_turn h fun _ => trivial
  have hretry (before : Nat) (err : LifecycleError) : Within v (retryStart p before err) := by
    refine within_turn h fun _ => ?_
    apply within_bind hclaim
    intro ok
    exact within_ite (within_start hstarts) hrefuse
  have hlaunch : Within v (startWithTransientRetry p) := by
    refine within_turn h fun before => ?_
    apply Task.Visits.catch' (within_start hstarts)
    intro err
    exact within_ite (hretry before err) trivial
  apply within_bind hclaim
  intro ok
  apply within_ite
  . apply within_bind
    . exact Task.Visits.catch' hlaunch (within_releaseAndThrow hreleases)
    . intro _
      exact within_releaseUnlessEngineActive hreleases
  . exact hrefuse

theorem within_releaseUnlessRefused {verb : Job Unit} (h : v.releases = true) (hverb : Within v verb) :
    Within v (releaseUnlessRefused p verb) := by
  apply Task.Visits.catch'
  . exact within_bind hverb fun _ => within_releaseUnlessEngineActive h
  . intro err
    exact within_ite trivial (within_releaseAndThrow h err)

theorem within_serviceStop : Within (.serviceStop p) (serviceStop p) := by
  have hheld : Within (.serviceStop p) (assertNotHeldElsewhere p) := by
    refine within_turn rfl fun now => ?_
    refine within_turn rfl fun held => ?_
    rcases held with _ | _ | _
    . exact within_turn rfl fun _ => trivial
    . trivial
    . exact within_turn rfl fun _ => trivial
  refine within_turn rfl fun _ => ?_
  apply within_bind
  . apply Task.Visits.catch'
    . exact within_bind hheld fun _ => within_stop rfl
    . intro err
      exact within_ite (within_turn rfl fun _ => trivial) trivial
  . intro _
    exact within_releaseUnlessEngineActive rfl

theorem within_renew : Within (.heartbeat p) (renew p) := by
  have hqueries (live : Option Nat) : Within (.heartbeat p) (renewQueries p live) := by
    apply within_bind
    . cases live with
      | some now => exact within_run rfl
      | none => trivial
    . intro failed
      exact within_ite trivial (within_run rfl)
  refine within_turn rfl fun ⟨held, live⟩ => ?_
  apply within_ite
  . apply within_bind (hqueries live)
    intro kept
    cases kept with
    | some kept =>
      refine within_turn rfl fun _ => ?_
      exact within_ite trivial (within_stopOrphanEngines rfl)
    | none => trivial
  . trivial

theorem within_sweep {strandedAfter : Nat} : Within (.sweep p strandedAfter) (sweep p strandedAfter) := by
  refine within_turn rfl fun now => ?_
  refine within_turn rfl fun lapsed => ?_
  cases lapsed with
  | none => trivial
  | some session =>
    apply within_bind
    . exact within_ite (within_run rfl) trivial
    . intro _
      exact within_ite (Task.Visits.catch' (within_serviceStart rfl) fun _ => trivial) trivial

end Service

theorem within_task (v : Event) (s : State) : Within v (v.task s) := by
  cases v with
  | start p => exact within_start rfl
  | verb u p => exact within_verb (by simp [Event.retires])
  | stopOrphanEngines p => exact within_stopOrphanEngines rfl
  | serviceStart p => exact within_serviceStart rfl
  | serviceStop p => exact within_serviceStop
  | serviceLogout p => exact within_releaseUnlessRefused rfl (within_logout rfl)
  | serviceForceKill p => exact within_releaseUnlessRefused rfl (within_forceKill rfl)
  | ready p e phone =>
    apply within_ite
    . refine within_turn rfl fun w => ?_
      cases w with
      | some w => exact within_run rfl
      | none => trivial
    . trivial
  | disconnected p e unlink =>
    apply within_ite
    . have hdrops : (Event.disconnected p e unlink).dropsOut e = true := by simp [Event.dropsOut]
      refine within_turn hdrops fun session => ?_
      cases session with
      | some session => exact within_run hdrops
      | none => trivial
    . trivial
  | watchdog p e =>
    apply within_ite
    . have hdrops : (Event.watchdog p e).dropsOut e = true := by simp [Event.dropsOut]
      refine within_turn hdrops fun session => ?_
      cases session with
      | some session => exact within_run hdrops
      | none => trivial
    . trivial
  | timer p k =>
    unfold Event.task
    dsimp only
    split
    . exact within_ite trivial (within_executeReconnect (by simp [Event.attempts]) _ _)
    . trivial
  | heartbeat p => exact within_renew
  | sweep p strandedAfter => exact within_sweep
  | qrCode | stateChanged | error | database | tick | boot | crash => trivial

end OpenWA.Lifecycle
