import OpenWA.Lifecycle.Control

/-!
This module contains the uniqueness of the running engine of a process: which turns may displace a
registered engine, and that otherwise an engine that was initialised stays registered until a teardown
is started on it.
-/

namespace OpenWA.Lifecycle

open Async

/-- Replacing or evicting the registered engine displaces no running engine other than `e`. -/
def Node.spares (n : Node) (e : Option Nat) : Bool :=
  match n.engine with
  | some r => e = some r || !n.runs r
  | none => true

/-- A parked failure displaces no running engine other than the one that reported it. -/
def Node.sparesParked (n : Node) (parked : Option ParkedFailure) : Bool :=
  match parked with
  | some ⟨.error e, _⟩ => n.spares (some e)
  | _ => true

/--
The turn displaces no running engine: an engine is registered only where no other engine runs, and
the evictions by session id, those of an expired initialisation and of a parked failure, find their
own engine or none that runs.
-/
def Place.spares (pt : Place) (x : Answer) (n : Node) : Bool :=
  match pt with
  | .startCreate _ | .reconnectCreate .. => n.spares none
  | .initialised e => x ≠ .deadline || n.spares (some e)
  | .reconnectLaunched k _ => n.sparesParked (n.parked k)
  | .reconnectFailed k _ _ err => n.sparesParked (n.parkedTerminal k err)
  | _ => true

/-- The condition on the steps of a run; processes neither boot nor crash in it. -/
def Sparing {δ : Type} (w : SessionWorld δ) (a : Act Event Answer Loc) : Prop :=
  match a with
  | .event _ v => ∀ p, v ≠ .boot p ∧ v ≠ .crash p
  | .turn _ l x => l.place.spares x (w.st.node l.pid) = true

instance {δ : Type} (w : SessionWorld δ) (a : Act Event Answer Loc) : Decidable (Sparing w a) :=
  match a with
  | .turn .. => inferInstanceAs (Decidable (_ = true))
  | .event _ (.boot p) => isFalse fun h => (h p).1 rfl
  | .event _ (.crash p) => isFalse fun h => (h p).2 rfl
  | .event _ (.start _) | .event _ (.verb ..) | .event _ (.stopOrphanEngines _) | .event _ (.serviceStart _)
  | .event _ (.serviceStop _) | .event _ (.serviceLogout _) | .event _ (.serviceForceKill _)
  | .event _ (.ready ..) | .event _ (.qrCode ..) | .event _ (.stateChanged ..) | .event _ (.disconnected ..)
  | .event _ (.error ..) | .event _ (.watchdog ..) | .event _ (.timer ..) | .event _ (.heartbeat _)
  | .event _ (.sweep ..) | .event _ (.database ..) | .event _ (.tick _) => isTrue (by simp [Sparing])

/-- A running engine is the registered one. -/
structure LiveEngine (n : Node) : Prop where
  fresh : ∀ e, n.created ≤ e → (n.engines e).initialised = false
  bounded : ∀ e, n.engine = some e → e < n.created
  registered : ∀ e, n.runs e = true → n.engine = some e

/-- A teardown was started on an engine object. -/
def Node.Torn (n : Node) (e : Nat) : Prop := e < n.created ∧ (n.engines e).torn = true

/-- Engine objects are not dropped, and a teardown that was started stays started. -/
structure Node.Grows (n n' : Node) : Prop where
  created : n.created ≤ n'.created
  torn : ∀ e, n.Torn e → n'.Torn e

namespace LiveEngine

variable {n n' : Node}

theorem congr (h : LiveEngine n) (hengine : n'.engine = n.engine) (hcreated : n'.created = n.created)
    (hengines : n'.engines = n.engines) : LiveEngine n' where
  fresh := by
    rw [hcreated, hengines]
    exact h.fresh
  bounded := by
    rw [hcreated, hengine]
    exact h.bounded
  registered := by
    unfold Node.runs
    rw [hengines, hengine]
    exact h.registered

theorem evict (h : LiveEngine n) (hspares : n.spares none = true) : LiveEngine { n with engine := none } where
  fresh := h.fresh
  bounded := by simp
  registered := by
    intro e he
    have hengine := h.registered e he
    simp only [Node.spares, hengine] at hspares
    simp [Node.runs] at hspares he
    simp [he] at hspares

theorem tear (h : LiveEngine n) (e : Nat) : LiveEngine (n.tear e) where
  fresh := by
    intro i hi
    have := h.fresh i hi
    by_cases hie : i = e <;> simp [Node.tear, Node.setEngine, hie] at * <;> assumption
  bounded := h.bounded
  registered := by
    intro i hi
    apply h.registered
    by_cases hie : i = e <;> simp [Node.runs, Node.tear, Node.setEngine, hie] at *
    exact hi

theorem deleteIfLive (h : LiveEngine n) {e : Nat} (htorn : n.Torn e) : LiveEngine (n.deleteIfLive e) := by
  unfold Node.deleteIfLive
  split
  . next hlive =>
    apply h.evict
    simp [Node.isLive] at hlive
    simp [Node.spares, hlive, Node.runs, htorn.2]
  . exact h

theorem evictAndForceDestroy (h : LiveEngine n) {e : Nat} (hspares : n.spares (some e) = true) :
    LiveEngine (n.evictAndForceDestroy e) where
  fresh := (h.tear e).fresh
  bounded := by simp [Node.evictAndForceDestroy, Node.tear, Node.setEngine]
  registered := by
    intro i hi
    have htear : (n.tear e).runs i = true := hi
    have hengine : n.engine = some i := (h.tear e).registered i htear
    simp only [Node.spares, hengine] at hspares
    by_cases hie : i = e
    . simp [hie, Node.runs, Node.tear, Node.setEngine] at htear
    . simp [Node.runs, Node.tear, Node.setEngine, hie] at htear
      simp [Ne.symm hie, Node.runs, htear] at hspares

theorem cancelReconnect (h : LiveEngine n) : LiveEngine n.cancelReconnect := by
  apply h.congr <;> simp

theorem spares_self {e : Nat} (h : n.engine = some e) : n.spares (some e) = true := by
  simp [Node.spares, h]

theorem evictRegistered (h : LiveEngine n) : LiveEngine n.evictRegistered := by
  unfold Node.evictRegistered
  split
  . next e he => exact h.evictAndForceDestroy (spares_self he)
  . exact h

theorem evictOrphan (h : LiveEngine n) : LiveEngine n.evictOrphan := by
  unfold Node.evictOrphan
  split
  . next e he => exact h.evictAndForceDestroy (spares_self he)
  . exact h.cancelReconnect

theorem tearRegistered (h : LiveEngine n) : LiveEngine n.tearRegistered := by
  unfold Node.tearRegistered
  split
  . exact h.tear _
  . exact h

theorem retire (h : LiveEngine n) : LiveEngine n.retire :=
  cancelReconnect (h.congr rfl rfl rfl)

theorem createEngine (h : LiveEngine n) (hspares : n.spares none = true) (session : Session) (w : Nat) :
    LiveEngine (n.createEngine session w) where
  fresh := by
    intro e he
    simp [Node.createEngine, Node.setEngine] at he ⊢
    rw [if_neg (by omega)]
    exact h.fresh e (by omega)
  bounded := by
    intro e he
    simp [Node.createEngine, Node.setEngine] at he ⊢
    omega
  registered := by
    intro e he
    by_cases hnew : e = n.created
    . simp [hnew, Node.runs, Node.createEngine, Node.setEngine] at he
    . have hruns : n.runs e = true := by simpa [Node.runs, Node.createEngine, Node.setEngine, hnew] using he
      simp [Node.spares, h.registered e hruns, hruns] at hspares

theorem dropInitialStatus (h : LiveEngine n) (e : Nat) : LiveEngine (n.dropInitialStatus e) := by
  unfold Node.dropInitialStatus
  split
  . exact h.congr rfl rfl rfl
  . exact h

theorem initialise (h : LiveEngine n) {e : Nat} (hengine : n.engine = some e) :
    LiveEngine (n.setEngine e fun g => { g with initialised := true }) where
  fresh := by
    intro i hi
    have hlt := h.bounded e hengine
    have hne : i ≠ e := by
      rintro rfl
      exact absurd hi (Nat.not_le.mpr hlt)
    simp only [Node.setEngine, if_neg hne]
    exact h.fresh i hi
  bounded := h.bounded
  registered := by
    intro i hi
    by_cases hie : i = e
    . exact hie ▸ hengine
    . apply h.registered
      simpa [Node.runs, Node.setEngine, hie] using hi

theorem resumeLaunch (h : LiveEngine n) (e : Nat) (rejected : Bool) : LiveEngine (n.resumeLaunch e rejected) := by
  unfold Node.resumeLaunch
  split
  . next hlaunch =>
    apply (h.dropInitialStatus e).initialise
    simp [Node.isLive] at hlaunch
    unfold Node.dropInitialStatus
    split
    . exact hlaunch.1.2
    . exact hlaunch.1.2
  . exact h.dropInitialStatus e

theorem runFailure (h : LiveEngine n) {f : Failure} (hspares : ∀ e, f = .error e → n.spares (some e) = true) :
    LiveEngine (n.runFailure f) := by
  unfold Node.runFailure
  split
  . exact h
  . next e =>
    apply h.cancelReconnect.evictAndForceDestroy
    simpa [Node.spares, Node.runs] using hspares e rfl

theorem scheduleReconnect (h : LiveEngine n) (session : Session) : LiveEngine (n.scheduleReconnect session) := by
  unfold Node.scheduleReconnect
  split
  . exact h
  . split
    . exact h.evictRegistered.cancelReconnect
    . exact h.congr rfl rfl rfl

theorem settleLaunch (h : LiveEngine n) (k : Nat) (launched : Bool) : LiveEngine (n.settleLaunch k launched) :=
  h.congr rfl rfl rfl

theorem runParked (h : LiveEngine n) {parked : ParkedFailure} (k : Nat) (launched : Bool)
    (hspares : n.sparesParked (some parked) = true) :
    LiveEngine ((n.settleLaunch k launched).runFailure parked.run) := by
  apply (h.settleLaunch k launched).runFailure
  intro e he
  rcases parked with ⟨run, terminal⟩
  subst he
  exact hspares

theorem reconnectLaunched (h : LiveEngine n) (k : Nat) (hspares : n.sparesParked (n.parked k) = true) :
    LiveEngine (n.reconnectLaunched k) := by
  unfold Node.reconnectLaunched
  split
  . next parked hparked => exact h.runParked k true (hparked ▸ hspares)
  . exact h.settleLaunch k true

theorem reconnectFailed (h : LiveEngine n) (k : Nat) (session : Session) (launched : Bool) (err : LifecycleError)
    (hspares : n.sparesParked (n.parkedTerminal k err) = true) :
    LiveEngine (n.reconnectFailed k session launched err) := by
  unfold Node.reconnectFailed
  split
  . split
    . next parked hparked => exact h.runParked k launched (hparked ▸ hspares)
    . split
      . exact (h.settleLaunch k launched).evictRegistered.cancelReconnect
      . exact (h.settleLaunch k launched).evictRegistered.scheduleReconnect session
  . exact h.settleLaunch k launched

end LiveEngine

namespace Node.Grows

variable {n n' : Node}

theorem refl (n : Node) : n.Grows n := ⟨Nat.le_refl _, fun _ h => h⟩

theorem trans {m : Node} (h : n.Grows m) (h' : m.Grows n') : n.Grows n' :=
  ⟨Nat.le_trans h.created h'.created, fun e he => h'.torn e (h.torn e he)⟩

theorem of_same (hcreated : n'.created = n.created) (hengines : n'.engines = n.engines) : n.Grows n' := by
  constructor
  . exact Nat.le_of_eq hcreated.symm
  . intro e he
    unfold Node.Torn
    rw [hcreated, hengines]
    exact he

theorem setEngine (e : Nat) {f : Engine → Engine} (hf : ∀ g, g.torn = true → (f g).torn = true) :
    n.Grows (n.setEngine e f) := by
  refine ⟨Nat.le_refl _, fun i hi => ⟨hi.1, ?_⟩⟩
  simp only [Node.setEngine]
  split
  . exact hf _ hi.2
  . exact hi.2

theorem tear (e : Nat) : n.Grows (n.tear e) := setEngine e fun _ _ => rfl

theorem evictAndForceDestroy (e : Nat) : n.Grows (n.evictAndForceDestroy e) :=
  trans (m := { n with engine := none }) (of_same rfl rfl) (tear e)

theorem cancelReconnect : n.Grows n.cancelReconnect := of_same (by simp) (by simp)

theorem deleteIfLive (e : Nat) : n.Grows (n.deleteIfLive e) := of_same (by simp) (by simp)

theorem clearOperatorTeardown (e : Nat) : n.Grows (n.clearOperatorTeardown e) := of_same (by simp) (by simp)

theorem evictRegistered : n.Grows n.evictRegistered := by
  unfold Node.evictRegistered
  split
  . exact evictAndForceDestroy _
  . exact refl n

theorem tearRegistered : n.Grows n.tearRegistered := by
  unfold Node.tearRegistered
  split
  . exact tear _
  . exact refl n

theorem retire : n.Grows n.retire :=
  trans (m := { n with stopping := true }) (of_same rfl rfl) cancelReconnect

theorem createEngine (session : Session) (w : Nat) : n.Grows (n.createEngine session w) := by
  refine ⟨Nat.le_succ _, fun e he => ⟨Nat.lt_succ_of_lt he.1, ?_⟩⟩
  simp only [Node.createEngine, Node.setEngine, if_neg (Nat.ne_of_lt he.1)]
  exact he.2

theorem resumeLaunch (e : Nat) (rejected : Bool) : n.Grows (n.resumeLaunch e rejected) := by
  have hdrop : n.Grows (n.dropInitialStatus e) := by
    unfold Node.dropInitialStatus
    split
    . exact of_same rfl rfl
    . exact refl n
  unfold Node.resumeLaunch
  split
  . exact hdrop.trans (setEngine e fun _ h => h)
  . exact hdrop

theorem runFailure (f : Failure) : n.Grows (n.runFailure f) := by
  unfold Node.runFailure
  split
  . exact refl n
  . exact cancelReconnect.trans (evictAndForceDestroy _)

theorem scheduleReconnect (session : Session) : n.Grows (n.scheduleReconnect session) := by
  unfold Node.scheduleReconnect
  split
  . exact refl n
  . split
    . exact evictRegistered.trans cancelReconnect
    . exact of_same rfl rfl

theorem settleLaunch (k : Nat) (launched : Bool) : n.Grows (n.settleLaunch k launched) := of_same rfl rfl

theorem retireMark (v : Verb) : n.Grows (n.retireMark v) := by
  unfold Node.retireMark
  split
  . exact retire
  . exact retire
  . exact retire
  . exact retire.trans (of_same rfl rfl)
  . exact refl n

theorem memory (pt : Place) (x : Answer) (s : State) : n.Grows (pt.memory x s n) := by
  cases pt with
  | initialStatus e => exact resumeLaunch e _
  | initialised e =>
    unfold Place.memory
    dsimp only
    split
    . exact evictAndForceDestroy e
    . exact refl n
  | startPrepare =>
    unfold Place.memory
    dsimp only
    split
    . exact refl n
    . exact trans (m := { n with stopping := false }) (of_same rfl rfl) cancelReconnect
  | startCreate session =>
    exact trans (m := n.setReconnect session) (of_same rfl rfl) (createEngine session _)
  | startFailed =>
    unfold Place.memory Node.evictOrphan
    dsimp only
    split
    . exact evictAndForceDestroy _
    . exact cancelReconnect
  | startFailedTeardown e =>
    unfold Place.memory
    dsimp only
    split
    . exact refl n
    . exact cancelReconnect
  | startFailedStatus w => exact cancelReconnect
  | resurrected => exact tearRegistered
  | resurrectedTeardown e | orphanTeardown e | rebindTeardown e | oldForceDestroy k e => exact deleteIfLive e
  | retireMark v => exact retireMark v
  | retireInitial v e pending =>
    unfold Place.memory Node.retireInitial
    dsimp only
    split
    . exact tear e
    . split
      . exact refl n
      . exact clearOperatorTeardown e
  | retireTeardown v e =>
    unfold Place.memory Node.retireEvict
    dsimp only
    split
    . exact refl n
    . split
      . exact (deleteIfLive e).trans (clearOperatorTeardown e)
      . exact deleteIfLive e
  | retireEscalated e =>
    unfold Place.memory Node.retireEvict
    dsimp only
    split
    . exact (deleteIfLive e).trans (clearOperatorTeardown e)
    . exact deleteIfLive e
  | retireStatus v e w =>
    cases e with
    | some e => exact clearOperatorTeardown e
    | none => exact refl n
  | orphanMark => exact retire.trans tearRegistered
  | disconnected e unlink session =>
    unfold Place.memory Node.disconnected
    dsimp only
    split
    . exact scheduleReconnect session
    . exact refl n
  | oldTeardown k e =>
    unfold Place.memory
    dsimp only
    split
    . exact deleteIfLive e
    . exact refl n
  | reconnectCreate k session =>
    exact trans (m := n.setState k fun st => { st with initInFlight := true }) (of_same rfl rfl)
      (createEngine session _)
  | reconnectLaunched k e =>
    unfold Place.memory Node.reconnectLaunched
    dsimp only
    split
    . exact (settleLaunch k true).trans (runFailure _)
    . exact settleLaunch k true
  | reconnectFailed k session launched err =>
    unfold Place.memory Node.reconnectFailed
    dsimp only
    split
    . split
      . exact (settleLaunch k _).trans (runFailure _)
      . split
        . exact ((settleLaunch k _).trans evictRegistered).trans cancelReconnect
        . exact ((settleLaunch k _).trans evictRegistered).trans (scheduleReconnect session)
    . exact settleLaunch k _
  | releaseCheck =>
    unfold Place.memory Node.giveUp
    dsimp only
    split
    . exact refl n
    . exact of_same rfl rfl
  | claimed ok => cases ok <;> exact of_same rfl rfl
  | renewVerdict kept => cases kept <;> exact of_same rfl rfl
  | _ => exact of_same rfl rfl

theorem event (v : Event) (hboot : ∀ p, v ≠ .boot p) (hcrash : ∀ p, v ≠ .crash p) : n.Grows (v.memory n) := by
  cases v with
  | ready p e phone =>
    unfold Event.memory Node.onReady
    dsimp only
    split
    . exact retire.trans (tear e)
    . split
      . unfold Node.accept
        split
        . exact of_same rfl rfl
        . exact refl n
      . exact refl n
  | stateChanged p e status =>
    rcases n.parksOnly_onStateChanged e status with ⟨parked, h⟩
    apply of_same <;> rw [Event.memory, h]
  | error p e terminal =>
    rcases n.onError_cases e terminal with ⟨parked, h⟩ | ⟨_, h⟩
    . apply of_same <;> rw [Event.memory, h]
    . exact (runFailure (.error e)).trans (h ▸ refl _)
  | timer p k =>
    have hspend : n.Grows (n.spendTimer k) := of_same rfl rfl
    unfold Event.memory Node.beginReconnect
    dsimp only
    split
    . split
      . exact hspend.trans cancelReconnect
      . exact hspend
    . exact hspend.trans tearRegistered
  | boot p => exact absurd rfl (hboot p)
  | crash p => exact absurd rfl (hcrash p)
  | _ => exact refl n

end Node.Grows

/--
What the last turn of an activation did to the engine that its next turn takes out of the registry:
a teardown was started on it, or it was captured to be torn down.
-/
def Local.Tore (loc : Local) (p : Nat) (n : Node) : Prop :=
  match loc.last with
  | some ⟨.retireMark _, _, s⟩ => ∀ e, (s.node p).engine = some e → e < n.created
  | some ⟨.resurrected, _, s⟩ | some ⟨.orphanMark, _, s⟩ => ∀ e, (s.node p).engine = some e → n.Torn e
  | some ⟨.retireInitial _ e pending, x, s⟩ =>
    (x = .ok && pending && s.launchRejected (s.node p) e) = false → n.Torn e
  | some ⟨.retireTeardown _ e, _, _⟩ | some ⟨.oldTeardown _ e, _, _⟩ => n.Torn e
  | some _ => True
  | none =>
    (∀ e phone, loc.began = .ready p e phone → (loc.origin.node p).refuses e phone = true → n.Torn e) ∧
      ∀ k e, loc.began = .timer p k → (loc.origin.node p).stopping = false →
        (loc.origin.node p).engine = some e → n.Torn e

theorem Local.Tore.grows {loc : Local} {p : Nat} {n n' : Node} (h : loc.Tore p n) (hgrows : n.Grows n') :
    loc.Tore p n' := by
  unfold Local.Tore at h ⊢
  split at h
  . exact fun e he => Nat.lt_of_lt_of_le (h e he) hgrows.created
  . exact fun e he => hgrows.torn e (h e he)
  . exact fun e he => hgrows.torn e (h e he)
  . exact fun hrejected => hgrows.torn _ (h hrejected)
  . exact hgrows.torn _ h
  . exact hgrows.torn _ h
  . trivial
  . exact ⟨fun e phone hbegan hrefuses => hgrows.torn e (h.1 e phone hbegan hrefuses),
      fun k e hbegan hstopping hengine => hgrows.torn e (h.2 k e hbegan hstopping hengine)⟩

theorem torn_tear {n : Node} {e : Nat} (h : e < n.created) : (n.tear e).Torn e := by
  refine ⟨h, ?_⟩
  simp [Node.tear, Node.setEngine]

theorem torn_tearRegistered {n : Node} (h : LiveEngine n) {e : Nat} (hengine : n.engine = some e) :
    n.tearRegistered.Torn e := by
  unfold Node.tearRegistered
  simp only [hengine]
  exact torn_tear (h.bounded e hengine)

theorem retire_engine (n : Node) : n.retire.engine = n.engine := by
  unfold Node.retire
  rw [Node.cancelReconnect_engine]

theorem Local.Tore.turn {loc : Local} {l : Loc} {x : Answer} {s : State} (hlive : LiveEngine (s.node l.pid))
    (h : loc.Tore l.pid (s.node l.pid)) (hprecedes : loc.precedes l) :
    (loc.turn l x s).Tore l.pid (l.place.memory x s (s.node l.pid)) := by
  have hgrows : (s.node l.pid).Grows (l.place.memory x s (s.node l.pid)) := Node.Grows.memory _ _ _
  rcases l with ⟨p, pt⟩
  cases pt with
  | retireMark v => exact fun e he => Nat.lt_of_lt_of_le (hlive.bounded e he) hgrows.created
  | resurrected => exact fun e he => torn_tearRegistered hlive he
  | orphanMark => exact fun e he => torn_tearRegistered hlive.retire ((retire_engine _).trans he)
  | retireInitial v e pending =>
    rcases hprecedes with ⟨_, pt, x', s', hlast, rfl, hengine⟩
    unfold Local.Tore at h
    rw [hlast] at h
    intro hrejected
    dsimp only at hrejected
    simp only [Place.memory, Node.retireInitial, hrejected]
    exact torn_tear (h e hengine)
  | retireTeardown v e =>
    rcases hprecedes with ⟨_, pt, x', s', hlast, pending, rfl, hrejected⟩
    unfold Local.Tore at h
    rw [hlast] at h
    exact hgrows.torn e (h hrejected)
  | oldTeardown k e =>
    rcases hprecedes with ⟨_, hlast, hbegan, _, hstopping, hengine⟩
    unfold Local.Tore at h
    rw [hlast] at h
    exact hgrows.torn e (h.2 k e hbegan hstopping hengine)
  | _ => trivial

theorem LiveEngine.memory {δ : Type} {w : SessionWorld δ} {tid : Nat} {l : Loc} {x : Answer} {loc : Local}
    (hlive : LiveEngine (w.st.node l.pid)) (htore : loc.Tore l.pid (w.st.node l.pid))
    (hprecedes : loc.precedes l) (hok : Sparing w (.turn tid l x)) :
    LiveEngine (l.place.memory x w.st (w.st.node l.pid)) := by
  rcases l with ⟨p, pt⟩
  have hsame (n' : Node) (hengine : n'.engine = (w.st.node p).engine)
      (hcreated : n'.created = (w.st.node p).created) (hengines : n'.engines = (w.st.node p).engines) :
      LiveEngine n' := hlive.congr hengine hcreated hengines
  cases pt with
  | initialStatus e => exact hlive.resumeLaunch e _
  | initialised e =>
    unfold Place.memory
    dsimp only
    split
    . next hx => exact hlive.evictAndForceDestroy (by simpa [Sparing, Place.spares, hx] using hok)
    . exact hlive
  | startPrepare =>
    unfold Place.memory
    dsimp only
    split
    . exact hlive
    . apply LiveEngine.cancelReconnect
      exact hsame _ rfl rfl rfl
  | startCreate session =>
    apply LiveEngine.createEngine
    . exact hsame _ rfl rfl rfl
    . exact hok
  | startFailed => exact hlive.evictOrphan
  | startFailedTeardown e =>
    unfold Place.memory
    dsimp only
    split
    . exact hlive
    . exact hlive.cancelReconnect
  | startFailedStatus _ => exact hlive.cancelReconnect
  | resurrected => exact hlive.tearRegistered
  | resurrectedTeardown e =>
    rcases hprecedes with ⟨_, pt, x', s', hlast, rfl, hengine⟩
    unfold Local.Tore at htore
    rw [hlast] at htore
    exact hlive.deleteIfLive (htore e hengine)
  | orphanTeardown e =>
    rcases hprecedes with ⟨_, pt, x', s', hlast, rfl, hengine⟩
    unfold Local.Tore at htore
    rw [hlast] at htore
    exact hlive.deleteIfLive (htore e hengine)
  | rebindTeardown e =>
    rcases hprecedes with ⟨_, hlast, phone, hbegan, hrefuses⟩
    unfold Local.Tore at htore
    rw [hlast] at htore
    exact hlive.deleteIfLive (htore.1 e phone hbegan hrefuses)
  | oldForceDestroy k e =>
    rcases hprecedes with ⟨_, _, pt, x', s', hlast, rfl⟩
    unfold Local.Tore at htore
    rw [hlast] at htore
    exact hlive.deleteIfLive htore
  | retireMark v =>
    unfold Place.memory Node.retireMark
    dsimp only
    split
    . exact hlive.retire
    . exact hlive.retire
    . exact hlive.retire
    . exact hlive.retire.congr rfl rfl rfl
    . exact hlive
  | retireInitial v e pending =>
    unfold Place.memory Node.retireInitial
    dsimp only
    split
    . exact hlive.tear e
    . split
      . exact hlive
      . apply hsame <;> simp
  | retireTeardown v e =>
    rcases hprecedes with ⟨_, pt, x', s', hlast, pending, rfl, hrejected⟩
    unfold Local.Tore at htore
    rw [hlast] at htore
    have hdelete := hlive.deleteIfLive (htore hrejected)
    unfold Place.memory Node.retireEvict
    dsimp only
    split
    . exact hlive
    . split
      . apply hdelete.congr <;> simp
      . exact hdelete
  | retireEscalated e =>
    rcases hprecedes with ⟨_, pt, x', s', hlast, rfl⟩
    unfold Local.Tore at htore
    rw [hlast] at htore
    have hdelete := hlive.deleteIfLive htore
    unfold Place.memory Node.retireEvict
    dsimp only
    split
    . apply hdelete.congr <;> simp
    . exact hdelete
  | retireStatus v e wr =>
    cases e with
    | some e => apply hsame <;> simp [Place.memory]
    | none => exact hlive
  | orphanMark => exact hlive.retire.tearRegistered
  | disconnected e unlink session =>
    unfold Place.memory Node.disconnected
    dsimp only
    split
    . exact hlive.scheduleReconnect session
    . exact hlive
  | oldTeardown k e =>
    rcases hprecedes with ⟨_, hlast, hbegan, _, hstopping, hengine⟩
    unfold Local.Tore at htore
    rw [hlast] at htore
    unfold Place.memory
    dsimp only
    split
    . exact hlive.deleteIfLive (htore.2 k e hbegan hstopping hengine)
    . exact hlive
  | reconnectCreate k session =>
    apply LiveEngine.createEngine
    . exact hsame _ rfl rfl rfl
    . exact hok
  | reconnectLaunched k e => exact hlive.reconnectLaunched k hok
  | reconnectFailed k session launched err => exact hlive.reconnectFailed k session launched.isSome err hok
  | releaseCheck =>
    unfold Place.memory Node.giveUp
    dsimp only
    split
    . exact hlive
    . exact hsame _ rfl rfl rfl
  | claimed ok => cases ok <;> exact hsame _ rfl rfl rfl
  | renewVerdict kept => cases kept <;> exact hsame _ rfl rfl rfl
  | _ => exact hsame _ rfl rfl rfl

theorem LiveEngine.event {n : Node} (h : LiveEngine n) (v : Event) (hboot : ∀ p, v ≠ .boot p)
    (hcrash : ∀ p, v ≠ .crash p) : LiveEngine (v.memory n) := by
  cases v with
  | ready p e phone =>
    unfold Event.memory Node.onReady
    dsimp only
    split
    . exact h.retire.tear e
    . split
      . unfold Node.accept
        split
        . exact h.congr rfl rfl rfl
        . exact h
      . exact h
  | stateChanged p e status =>
    rcases n.parksOnly_onStateChanged e status with ⟨parked, heq⟩
    apply h.congr <;> rw [Event.memory, heq]
  | error p e terminal =>
    rcases n.onError_cases e terminal with ⟨parked, heq⟩ | ⟨hlive, heq⟩
    . apply h.congr <;> rw [Event.memory, heq]
    . rw [Event.memory, heq]
      apply h.runFailure
      rintro e' hfailure
      simp only [Failure.error.injEq] at hfailure
      subst hfailure
      exact spares_self (by simpa [Node.isLive] using hlive)
  | timer p k =>
    have hspend : LiveEngine (n.spendTimer k) := h.congr rfl rfl rfl
    unfold Event.memory Node.beginReconnect
    dsimp only
    split
    . split
      . exact hspend.cancelReconnect
      . exact hspend
    . exact hspend.tearRegistered
  | boot p => exact absurd rfl (hboot p)
  | crash p => exact absurd rfl (hcrash p)
  | _ => exact h

section Runs

variable {δ : Type} {noteExt : Act Event Answer Loc → State → State → δ → δ}

/-- The invariant of the runs: in every process a running engine is the registered one. -/
structure LiveInv (w : SessionWorld δ) : Prop where
  live : ∀ p, LiveEngine (w.st.node p)
  tore : ∀ tid loc p, w.hist.locals tid = some loc → loc.began.pid? = some p → loc.Tore p (w.st.node p)

theorem liveInv_turn {w : SessionWorld δ} {tid : Nat} {l : Loc} {x : Answer} {loc : Local} (h : LiveInv w)
    (hok : Sparing w (.turn tid l x)) (hlocal : w.hist.locals tid = some loc) (hprecedes : loc.precedes l)
    (hguard : guard l x w.st = true) :
    LiveInv ((sessionSystem noteExt).after w (.turn tid l x) (effect l x w.st)) := by
  have htore := h.tore tid loc l.pid hlocal hprecedes.1
  constructor
  . intro q
    show LiveEngine ((effect l x w.st).node q)
    rw [effect_node hguard]
    split
    . next hq => exact hq ▸ (h.live l.pid).memory htore hprecedes hok
    . exact h.live q
  . intro tid' loc' q hlocal' hpid
    show loc'.Tore q ((effect l x w.st).node q)
    rw [effect_node hguard]
    by_cases htid : tid' = tid
    . subst htid
      simp [System.after, sessionSystem, Trace.note, Act.tid, hlocal] at hlocal'
      subst hlocal'
      have hq : q = l.pid := by
        have := hprecedes.1.symm.trans hpid
        simpa using this.symm
      subst hq
      rw [if_pos rfl]
      exact htore.turn (h.live l.pid) hprecedes
    . have hlocal' : w.hist.locals tid' = some loc' := by
        simpa [System.after, sessionSystem, Trace.note, Act.tid, htid] using hlocal'
      split
      . exact (h.tore tid' loc' q hlocal' hpid).grows (Node.Grows.memory _ _ _)
      . exact h.tore tid' loc' q hlocal' hpid

theorem tore_first {n : Node} {s : State} {p : Nat} {v : Event} (hlive : LiveEngine n) (hn : n = s.node p)
    (hpid : v.pid? = some p) : (Local.first v s).Tore p (v.memory n) := by
  constructor
  . intro e phone hbegan hrefuses
    simp only [Local.first] at hbegan hrefuses
    subst hbegan
    rw [← hn] at hrefuses
    simp only [Event.memory, Node.onReady, hrefuses]
    apply torn_tear
    apply hlive.retire.bounded
    rw [retire_engine]
    simp only [Node.refuses, Node.isLive, Bool.and_eq_true, decide_eq_true_eq] at hrefuses
    exact hrefuses.1
  . intro k e hbegan hstopping hengine
    simp only [Local.first] at hbegan hstopping hengine
    subst hbegan
    rw [← hn] at hstopping hengine
    simp only [Event.memory, Node.beginReconnect, hstopping]
    apply torn_tearRegistered
    . exact hlive.congr rfl rfl rfl
    . exact hengine

theorem liveInv_event {w : SessionWorld δ} {v : Event} (h : LiveInv w)
    (hok : Sparing w (.event w.started v)) :
    LiveInv ((sessionSystem noteExt).after w (.event w.started v) (v.effect w.st)) := by
  have hboot : ∀ p, v ≠ .boot p := fun p => (hok p).1
  have hcrash : ∀ p, v ≠ .crash p := fun p => (hok p).2
  constructor
  . intro q
    show LiveEngine ((v.effect w.st).node q)
    rw [Event.effect_node]
    split
    . exact (h.live q).event v hboot hcrash
    . exact h.live q
  . intro tid loc q hlocal hpid
    show loc.Tore q ((v.effect w.st).node q)
    rw [Event.effect_node]
    by_cases htid : tid = w.started
    . simp [System.after, sessionSystem, Trace.note, Act.tid, htid] at hlocal
      subst hlocal
      have hv : v.pid? = some q := hpid
      rw [if_pos hv]
      exact tore_first (h.live q) rfl hv
    . have hlocal : w.hist.locals tid = some loc := by
        simpa [System.after, sessionSystem, Trace.note, Act.tid, htid] using hlocal
      split
      . exact (h.tore tid loc q hlocal hpid).grows (Node.Grows.event v hboot hcrash)
      . exact h.tore tid loc q hlocal hpid

/--
In a run that only displaces engines where none runs, an engine that was initialised is registered
until a teardown is started on it, and so no two engines run at the same time.
-/
theorem live_engine_unique {init c : SessionConfig δ} (hpool : init.pool = [])
    (hlocals : ∀ tid, init.hist.locals tid = none) (hinit : ∀ p, LiveEngine (init.st.node p))
    (h : (sessionSystem noteExt).Reach Sparing init c) (p : Nat) :
    (∀ e, (c.st.node p).runs e = true → (c.st.node p).engine = some e) ∧
      ∀ e e', (c.st.node p).runs e = true → (c.st.node p).runs e' = true → e = e' := by
  have hinv : LiveInv c.world := by
    apply inv_of_reach hpool ?_ ?_ ?_ h
    . exact ⟨hinit, fun tid loc q hlocal => by simp [Config.world, hlocals] at hlocal⟩
    . exact fun w v hw hok _ => liveInv_event hw hok
    . exact fun w tid l x loc hw hok hlocal hprecedes _ hguard => liveInv_turn hw hok hlocal hprecedes hguard
  have hregistered := (hinv.live p).registered
  refine ⟨hregistered, fun e e' he he' => ?_⟩
  have heq := (hregistered e he).symm.trans (hregistered e' he')
  simpa using heq

theorem live_engine_unique_launch :
    ∃ c, plainSystem.Reach Sparing idle c ∧ (c.st.node 0).runs 0 = true ∧ (c.st.node 0).engine = some 0 := by
  have hrun : (plainSystem.exec Sparing idle (launch 0 0)).map (fun c => (c.st.node 0).runs 0) = some true := by
    decide +kernel
  rcases System.reach_of_exec_map hrun with ⟨c, hreach, hruns⟩
  have hbooted : LiveEngine Node.booted := ⟨fun _ _ => rfl, by simp [Node.booted], by simp [Node.runs, Node.booted]⟩
  exact ⟨c, hreach, hruns, (live_engine_unique rfl (fun _ => rfl) (fun _ => hbooted) hreach 0).1 0 hruns⟩

/--
The engine of a first start disconnects, and a reconnect attempt takes it down. A second start passes
its registry check then, the attempt launches its engine, and the start registers and launches another.
-/
theorem start_overtakes_reconnect :
    ∃ c, plainSystem.Reach System.anyStep idle c ∧ (c.st.node 0).runs 1 = true ∧
      (c.st.node 0).runs 2 = true := by
  have hrun : (plainSystem.exec System.anyStep idle
      (launch 0 0 ++ settleStart 0 ++
        [.event (.disconnected 0 0 false), .turn 2 .ok, .turn 2 .ok, .event (.timer 0 0), .turn 3 .ok,
          .event (.start 0), .turn 4 .ok, .turn 4 .ok, .turn 4 .ok,
          .turn 3 .ok, .turn 3 .ok, .event (.database 2 false), .turn 3 .ok,
          .turn 4 .ok, .turn 4 .ok, .event (.database 3 false), .turn 4 .ok])).map
        (fun c => ((c.st.node 0).runs 1, (c.st.node 0).runs 2)) = some (true, true) := by
    decide +kernel
  rcases System.reach_of_exec_map hrun with ⟨c, hreach, hruns⟩
  simp only [Prod.mk.injEq] at hruns
  exact ⟨c, hreach, hruns⟩

end Runs
end OpenWA.Lifecycle
