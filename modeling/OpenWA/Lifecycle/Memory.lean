import OpenWA.Lifecycle.Service

/-!
This module contains what the turns and events do to the registries of a process: only `start` and a
reconnect attempt register an engine, only `start` registers a reconnect state, and everything else
can only take an entry out or leave it alone.
-/

namespace OpenWA.Lifecycle

/--
The two registries of a process only lose entries, a registered state keeps its timer handle, and an
engine the phone it was built with.
-/
structure Node.Shrinks (n n' : Node) : Prop where
  engine : n'.engine = n.engine ∨ n'.engine = none
  created : n'.created = n.created
  initializing : n'.initializing = n.initializing
  reconnect : n'.reconnect = n.reconnect ∨ n'.reconnect = none
  statesCreated : n'.statesCreated = n.statesCreated
  timer : ∀ k, n'.reconnect = some k → (n.states k).timer.isSome = true → (n'.states k).timer.isSome = true
  armed : ∀ k, (n'.states k).timer.isSome = true → (n.states k).timer.isSome = true ∨ n.reconnect = some k
  phone : ∀ e, (n'.engines e).previousPhone = (n.engines e).previousPhone

/-- The turns that register something, and those of the reservation. -/
def Place.registers (pt : Place) : Bool :=
  match pt with
  | .startReserve | .startRelease | .startCreate _ | .reconnectCreate .. => true
  | _ => false

namespace Node.Shrinks

variable {n m n' : Node}

theorem refl (n : Node) : n.Shrinks n :=
  ⟨.inl rfl, rfl, rfl, .inl rfl, rfl, fun _ _ h => h, fun _ h => .inl h, fun _ => rfl⟩

theorem trans (h : n.Shrinks m) (h' : m.Shrinks n') : n.Shrinks n' where
  engine := by
    rcases h'.engine with heq | heq
    . rw [heq]
      exact h.engine
    . exact .inr heq
  created := h'.created.trans h.created
  initializing := h'.initializing.trans h.initializing
  reconnect := by
    rcases h'.reconnect with heq | heq
    . rw [heq]
      exact h.reconnect
    . exact .inr heq
  statesCreated := h'.statesCreated.trans h.statesCreated
  timer := by
    intro k hk htimer
    rcases h'.reconnect with heq | heq
    . exact h'.timer k hk (h.timer k (heq ▸ hk) htimer)
    . simp [heq] at hk
  armed := by
    intro k htimer
    rcases h'.armed k htimer with htimer | hk
    . exact h.armed k htimer
    . rcases h.reconnect with heq | heq
      . exact .inr (heq ▸ hk)
      . simp [heq] at hk
  phone e := (h'.phone e).trans (h.phone e)

theorem of_states (hengine : n'.engine = n.engine ∨ n'.engine = none) (hcreated : n'.created = n.created)
    (hinit : n'.initializing = n.initializing) (hreconnect : n'.reconnect = n.reconnect)
    (hstates : n'.states = n.states) (hcount : n'.statesCreated = n.statesCreated)
    (hphone : ∀ e, (n'.engines e).previousPhone = (n.engines e).previousPhone) : n.Shrinks n' where
  engine := hengine
  created := hcreated
  initializing := hinit
  reconnect := .inl hreconnect
  statesCreated := hcount
  timer := by
    intro k _ h
    rw [hstates]
    exact h
  armed := by
    intro k h
    rw [hstates] at h
    exact .inl h
  phone := hphone

theorem setState (k : Nat) {f : ReconnectState → ReconnectState}
    (hf : ∀ st, (f st).timer.isSome = st.timer.isSome) : n.Shrinks (n.setState k f) where
  engine := .inl rfl
  created := rfl
  initializing := rfl
  reconnect := .inl rfl
  statesCreated := rfl
  timer := by
    intro i _ h
    simp only [Node.setState]
    split
    . rw [hf]
      exact h
    . exact h
  armed := by
    intro i h
    simp only [Node.setState] at h
    split at h
    . rw [hf] at h
      exact .inl h
    . exact .inl h
  phone _ := rfl

theorem cancelReconnect : n.Shrinks n.cancelReconnect := by
  unfold Node.cancelReconnect
  split
  . next k hk =>
    refine ⟨.inl rfl, rfl, rfl, .inr rfl, rfl, fun i hi => by simp at hi, fun i hi => ?_, fun _ => rfl⟩
    simp only [Node.setState] at hi
    split at hi
    . simp at hi
    . exact .inl hi
  . exact refl n

theorem deleteIfLive (e : Nat) : n.Shrinks (n.deleteIfLive e) := by
  unfold Node.deleteIfLive
  split
  . exact of_states (.inr rfl) rfl rfl rfl rfl rfl fun _ => rfl
  . exact refl n

theorem clearOperatorTeardown (e : Nat) : n.Shrinks (n.clearOperatorTeardown e) := by
  unfold Node.clearOperatorTeardown
  split
  . exact of_states (.inl rfl) rfl rfl rfl rfl rfl fun _ => rfl
  . exact refl n

theorem setEngine (e : Nat) {f : Engine → Engine} (hf : ∀ g, (f g).previousPhone = g.previousPhone) :
    n.Shrinks (n.setEngine e f) := by
  refine of_states (.inl rfl) rfl rfl rfl rfl rfl fun i => ?_
  simp only [Node.setEngine]
  split
  . exact hf _
  . rfl

theorem tear (e : Nat) : n.Shrinks (n.tear e) := setEngine e fun _ => rfl

theorem evictAndForceDestroy (e : Nat) : n.Shrinks (n.evictAndForceDestroy e) :=
  trans (m := { n with engine := none }) (of_states (.inr rfl) rfl rfl rfl rfl rfl fun _ => rfl) (tear e)

theorem evictRegistered : n.Shrinks n.evictRegistered := by
  unfold Node.evictRegistered
  split
  . exact evictAndForceDestroy _
  . exact refl n

theorem tearRegistered : n.Shrinks n.tearRegistered := by
  unfold Node.tearRegistered
  split
  . exact tear _
  . exact refl n

theorem retire : n.Shrinks n.retire :=
  trans (m := { n with stopping := true }) (of_states (.inl rfl) rfl rfl rfl rfl rfl fun _ => rfl) cancelReconnect

theorem retireMark (v : Verb) : n.Shrinks (n.retireMark v) := by
  unfold Node.retireMark
  split
  . exact retire
  . exact retire
  . exact retire
  . exact retire.trans (of_states (.inl rfl) rfl rfl rfl rfl rfl fun _ => rfl)
  . exact refl n

theorem retireEvict (v : Verb) (e : Nat) (tornDown : Bool) : n.Shrinks (n.retireEvict v e tornDown) := by
  unfold Node.retireEvict
  split
  . exact (deleteIfLive e).trans (clearOperatorTeardown e)
  . exact deleteIfLive e

theorem resumeLaunch (e : Nat) (rejected : Bool) : n.Shrinks (n.resumeLaunch e rejected) := by
  have hdrop : n.Shrinks (n.dropInitialStatus e) := by
    unfold Node.dropInitialStatus
    split
    . exact of_states (.inl rfl) rfl rfl rfl rfl rfl fun _ => rfl
    . exact refl n
  unfold Node.resumeLaunch
  split
  . exact hdrop.trans (setEngine e fun _ => rfl)
  . exact hdrop

theorem runFailure (f : Failure) : n.Shrinks (n.runFailure f) := by
  unfold Node.runFailure
  split
  . exact refl n
  . exact cancelReconnect.trans (evictAndForceDestroy _)

theorem scheduleReconnect (session : Session) : n.Shrinks (n.scheduleReconnect session) := by
  unfold Node.scheduleReconnect
  split
  . exact refl n
  . next k hk =>
    split
    . exact evictRegistered.trans cancelReconnect
    . refine ⟨.inl rfl, rfl, rfl, .inl rfl, rfl, fun i _ h => ?_, fun i h => ?_, fun _ => rfl⟩
      . simp only [Node.setState]
        split
        . rfl
        . exact h
      . simp only [Node.setState] at h
        split at h
        . next hi => exact .inr (hi ▸ hk)
        . exact .inl h

theorem settleLaunch (k : Nat) (launched : Bool) : n.Shrinks (n.settleLaunch k launched) :=
  setState k fun _ => rfl

theorem reconnectFailed (k : Nat) (session : Session) (launched : Bool) (err : LifecycleError) :
    n.Shrinks (n.reconnectFailed k session launched err) := by
  have hsettle : n.Shrinks (n.settleLaunch k launched) := settleLaunch k launched
  unfold Node.reconnectFailed
  split
  . split
    . exact hsettle.trans (runFailure _)
    . split
      . exact (hsettle.trans evictRegistered).trans cancelReconnect
      . exact (hsettle.trans evictRegistered).trans (scheduleReconnect session)
  . exact hsettle

theorem parksOnly (h : n.ParksOnly n') : n.Shrinks n' := by
  rcases h with ⟨parked, rfl⟩
  exact ⟨.inl rfl, rfl, rfl, .inl rfl, rfl, fun _ _ h => h, fun _ h => .inl h, fun _ => rfl⟩

theorem memory {pt : Place} (hpt : pt.registers = false) (x : Answer) (s : State) : n.Shrinks (pt.memory x s n) := by
  cases pt with
  | startReserve | startRelease | startCreate | reconnectCreate => contradiction
  | initialStatus e => exact resumeLaunch e _
  | initialised e =>
    unfold Place.memory
    dsimp only
    split
    . exact evictAndForceDestroy e
    . exact refl n
  | startPrepare =>
    unfold Place.memory
    dsimp only
    split
    . exact refl n
    . exact trans (m := { n with stopping := false }) (of_states (.inl rfl) rfl rfl rfl rfl rfl fun _ => rfl) cancelReconnect
  | startFailed =>
    unfold Place.memory Node.evictOrphan
    dsimp only
    split
    . exact evictAndForceDestroy _
    . exact cancelReconnect
  | startFailedTeardown e =>
    unfold Place.memory
    dsimp only
    split
    . exact refl n
    . exact cancelReconnect
  | startFailedStatus w => exact cancelReconnect
  | resurrected => exact tearRegistered
  | resurrectedTeardown e | orphanTeardown e | rebindTeardown e | oldForceDestroy k e => exact deleteIfLive e
  | retireMark v => exact retireMark v
  | retireInitial v e pending =>
    unfold Place.memory Node.retireInitial
    dsimp only
    split
    . exact tear e
    . split
      . exact refl n
      . exact clearOperatorTeardown e
  | retireTeardown v e =>
    unfold Place.memory
    dsimp only
    split
    . exact refl n
    . exact retireEvict v e true
  | retireEscalated e => exact retireEvict .stop e _
  | retireStatus v e w =>
    cases e with
    | some e => exact clearOperatorTeardown e
    | none => exact refl n
  | orphanMark => exact retire.trans tearRegistered
  | disconnected e unlink session =>
    unfold Place.memory Node.disconnected
    dsimp only
    split
    . exact scheduleReconnect session
    . exact refl n
  | oldTeardown k e =>
    unfold Place.memory
    dsimp only
    split
    . exact deleteIfLive e
    . exact refl n
  | reconnectLaunched k e =>
    unfold Place.memory Node.reconnectLaunched
    dsimp only
    split
    . exact (settleLaunch k true).trans (runFailure _)
    . exact settleLaunch k true
  | reconnectFailed k session launched err => exact reconnectFailed k session launched.isSome err
  | releaseCheck =>
    unfold Place.memory Node.giveUp
    dsimp only
    split
    . exact refl n
    . exact of_states (.inl rfl) rfl rfl rfl rfl rfl fun _ => rfl
  | claimed ok => cases ok <;> exact of_states (.inl rfl) rfl rfl rfl rfl rfl fun _ => rfl
  | renewVerdict kept => cases kept <;> exact of_states (.inl rfl) rfl rfl rfl rfl rfl fun _ => rfl
  | _ => exact of_states (.inl rfl) rfl rfl rfl rfl rfl fun _ => rfl

theorem event (v : Event) (hboot : ∀ p, v ≠ .boot p) (hcrash : ∀ p, v ≠ .crash p) : n.Shrinks (v.memory n) := by
  cases v with
  | ready p e phone =>
    unfold Event.memory Node.onReady
    dsimp only
    split
    . exact retire.trans (tear e)
    . split
      . unfold Node.accept
        split
        . exact setState _ fun _ => rfl
        . exact refl n
      . exact refl n
  | stateChanged p e status => exact parksOnly (n.parksOnly_onStateChanged e status)
  | error p e terminal =>
    rcases n.onError_cases e terminal with h | ⟨_, h⟩
    . exact parksOnly h
    . show n.Shrinks (n.onError e terminal)
      rw [h]
      exact runFailure (.error e)
  | timer p k =>
    have hspend : n.Shrinks (n.spendTimer k) := setState k fun st => by simp
    unfold Event.memory Node.beginReconnect
    dsimp only
    split
    . split
      . exact hspend.trans cancelReconnect
      . exact hspend
    . exact hspend.trans tearRegistered
  | boot p => exact absurd rfl (hboot p)
  | crash p => exact absurd rfl (hcrash p)
  | _ => exact refl n

end Node.Shrinks

/-- Nothing becomes alive for the session that was not. -/
def Node.Rests (n n' : Node) : Prop := n'.isEngineActive = true → n.isEngineActive = true

namespace Node.Rests

variable {n m n' : Node}

theorem refl (n : Node) : n.Rests n := id

theorem trans (h : n.Rests m) (h' : m.Rests n') : n.Rests n' := fun hactive => h (h' hactive)

theorem of_active (h : n.isEngineActive = true) : n.Rests n' := fun _ => h

theorem of_isLive {e : Nat} (h : n.isLive e = true) : n.Rests n' := by
  apply of_active
  simp only [Node.isLive, decide_eq_true_eq] at h
  simp [Node.isEngineActive, h]

theorem of_states (hengine : n'.engine = n.engine ∨ n'.engine = none) (hinit : n'.initializing = n.initializing)
    (hreconnect : n'.reconnect = n.reconnect ∨ n'.reconnect = none)
    (hstates : ∀ k, (n'.states k).timer.isSome = (n.states k).timer.isSome ∧
      (n'.states k).attempts ≤ (n.states k).attempts) : n.Rests n' := by
  intro hactive
  simp only [Node.isEngineActive, Bool.or_eq_true] at hactive ⊢
  rcases hactive with (hactive | hactive) | hactive
  . rcases hengine with heq | heq
    . exact .inl (.inl (heq ▸ hactive))
    . simp [heq] at hactive
  . exact .inl (.inr (hinit ▸ hactive))
  . rcases hreconnect with heq | heq
    . rw [heq] at hactive
      cases hk : n.reconnect with
      | none => simp [hk] at hactive
      | some k =>
        simp only [hk, Bool.or_eq_true, decide_eq_true_eq] at hactive ⊢
        have := hstates k
        rcases hactive with hactive | hactive
        . exact .inr (.inl (this.1 ▸ hactive))
        . exact .inr (.inr (by omega))
    . simp [heq] at hactive

theorem of_engine (hengine : n'.engine = n.engine ∨ n'.engine = none) (hinit : n'.initializing = n.initializing)
    (hreconnect : n'.reconnect = n.reconnect) (hstates : n'.states = n.states) : n.Rests n' := by
  apply of_states hengine hinit (.inl hreconnect)
  intro k
  rw [hstates]
  exact ⟨rfl, Nat.le_refl _⟩

theorem cancelReconnect : n.Rests n.cancelReconnect := by
  intro hactive
  simp only [Node.isEngineActive, Node.cancelReconnect_engine, Node.cancelReconnect_initializing,
    Node.cancelReconnect_reconnect, Bool.or_false] at hactive
  simp [Node.isEngineActive, hactive]

theorem deleteIfLive (e : Nat) : n.Rests (n.deleteIfLive e) := by
  unfold Node.deleteIfLive
  split
  . exact of_engine (.inr rfl) rfl rfl rfl
  . exact refl n

theorem clearOperatorTeardown (e : Nat) : n.Rests (n.clearOperatorTeardown e) := by
  unfold Node.clearOperatorTeardown
  split
  . exact of_engine (.inl rfl) rfl rfl rfl
  . exact refl n

theorem evictAndForceDestroy (e : Nat) : n.Rests (n.evictAndForceDestroy e) := of_engine (.inr rfl) rfl rfl rfl

theorem tear (e : Nat) : n.Rests (n.tear e) := of_engine (.inl rfl) rfl rfl rfl

theorem tearRegistered : n.Rests n.tearRegistered := by
  unfold Node.tearRegistered
  split
  . exact tear _
  . exact refl n

theorem retire : n.Rests n.retire :=
  trans (m := { n with stopping := true }) (of_engine (.inl rfl) rfl rfl rfl) cancelReconnect

theorem retireMark (v : Verb) : n.Rests (n.retireMark v) := by
  unfold Node.retireMark
  split
  . exact retire
  . exact retire
  . exact retire
  . exact retire.trans (of_engine (.inl rfl) rfl rfl rfl)
  . exact refl n

theorem retireEvict (v : Verb) (e : Nat) (tornDown : Bool) : n.Rests (n.retireEvict v e tornDown) := by
  unfold Node.retireEvict
  split
  . exact (deleteIfLive e).trans (clearOperatorTeardown e)
  . exact deleteIfLive e

theorem resumeLaunch (e : Nat) (rejected : Bool) : n.Rests (n.resumeLaunch e rejected) := by
  have hdrop : n.Rests (n.dropInitialStatus e) := by
    unfold Node.dropInitialStatus
    split
    . exact of_engine (.inl rfl) rfl rfl rfl
    . exact refl n
  unfold Node.resumeLaunch
  split
  . exact hdrop.trans (of_engine (.inl rfl) rfl rfl rfl)
  . exact hdrop

theorem runFailure (f : Failure) : n.Rests (n.runFailure f) := by
  unfold Node.runFailure
  split
  . exact refl n
  . exact cancelReconnect.trans (evictAndForceDestroy _)

theorem settleLaunch (k : Nat) (launched : Bool) : n.Rests (n.settleLaunch k launched) := by
  refine of_states (.inl rfl) rfl (.inl rfl) fun i => ?_
  simp only [Node.settleLaunch, Node.setState]
  split
  . exact ⟨rfl, Nat.le_refl _⟩
  . exact ⟨rfl, Nat.le_refl _⟩

/-- An attempt that fails only schedules the next one on a state whose timer handle is still there. -/
theorem reconnectFailed {k : Nat} (session : Session) (launched : Bool) (err : LifecycleError)
    (htimer : n.reconnect = some k → (n.states k).timer.isSome = true) :
    n.Rests (n.reconnectFailed k session launched err) := by
  unfold Node.reconnectFailed
  split
  . next hk =>
    apply of_active
    simp [Node.isEngineActive, hk, htimer hk]
  . exact settleLaunch k launched

theorem memory {pt : Place} (hpt : pt.registers = false) (x : Answer) (s : State)
    (htimer : ∀ k session launched err, pt = .reconnectFailed k session launched err → n.reconnect = some k →
      (n.states k).timer.isSome = true) : n.Rests (pt.memory x s n) := by
  cases pt with
  | startReserve | startRelease | startCreate | reconnectCreate => contradiction
  | initialStatus e => exact resumeLaunch e _
  | initialised e =>
    unfold Place.memory
    dsimp only
    split
    . exact evictAndForceDestroy e
    . exact refl n
  | startPrepare =>
    unfold Place.memory
    dsimp only
    split
    . exact refl n
    . exact trans (m := { n with stopping := false }) (of_engine (.inl rfl) rfl rfl rfl) cancelReconnect
  | startFailed =>
    unfold Place.memory Node.evictOrphan
    dsimp only
    split
    . exact evictAndForceDestroy _
    . exact cancelReconnect
  | startFailedTeardown e =>
    unfold Place.memory
    dsimp only
    split
    . exact refl n
    . exact cancelReconnect
  | startFailedStatus w => exact cancelReconnect
  | resurrected => exact tearRegistered
  | resurrectedTeardown e | orphanTeardown e | rebindTeardown e | oldForceDestroy k e => exact deleteIfLive e
  | retireMark v => exact retireMark v
  | retireInitial v e pending =>
    unfold Place.memory Node.retireInitial
    dsimp only
    split
    . exact tear e
    . split
      . exact refl n
      . exact clearOperatorTeardown e
  | retireTeardown v e =>
    unfold Place.memory
    dsimp only
    split
    . exact refl n
    . exact retireEvict v e true
  | retireEscalated e => exact retireEvict .stop e _
  | retireStatus v e w =>
    cases e with
    | some e => exact clearOperatorTeardown e
    | none => exact refl n
  | orphanMark => exact retire.trans tearRegistered
  | disconnected e unlink session =>
    unfold Place.memory Node.disconnected
    dsimp only
    split
    . next hlive => exact of_isLive hlive
    . exact refl n
  | oldTeardown k e =>
    unfold Place.memory
    dsimp only
    split
    . exact deleteIfLive e
    . exact refl n
  | reconnectLaunched k e =>
    unfold Place.memory Node.reconnectLaunched
    dsimp only
    split
    . exact (settleLaunch k true).trans (runFailure _)
    . exact settleLaunch k true
  | reconnectFailed k session launched err =>
    exact reconnectFailed session launched.isSome err (htimer k session launched err rfl)
  | releaseCheck =>
    unfold Place.memory Node.giveUp
    dsimp only
    split
    . exact refl n
    . exact of_engine (.inl rfl) rfl rfl rfl
  | claimed ok => cases ok <;> exact of_engine (.inl rfl) rfl rfl rfl
  | renewVerdict kept => cases kept <;> exact of_engine (.inl rfl) rfl rfl rfl
  | _ => exact of_engine (.inl rfl) rfl rfl rfl

theorem event (v : Event) : n.Rests (v.memory n) := by
  cases v with
  | ready p e phone =>
    unfold Event.memory Node.onReady
    dsimp only
    split
    . exact retire.trans (tear e)
    . split
      . next hlive => exact of_isLive hlive
      . exact refl n
  | stateChanged p e status =>
    rcases n.parksOnly_onStateChanged e status with ⟨parked, h⟩
    unfold Event.memory
    dsimp only
    rw [h]
    exact of_states (.inl rfl) rfl (.inl rfl) fun _ => ⟨rfl, Nat.le_refl _⟩
  | error p e terminal =>
    rcases n.onError_cases e terminal with ⟨parked, h⟩ | ⟨hlive, _⟩
    . unfold Event.memory
      dsimp only
      rw [h]
      exact of_states (.inl rfl) rfl (.inl rfl) fun _ => ⟨rfl, Nat.le_refl _⟩
    . exact of_isLive hlive
  | timer p k =>
    have hspend : n.Rests (n.spendTimer k) := by
      refine of_states (.inl rfl) rfl (.inl rfl) fun i => ?_
      simp only [Node.spendTimer, Node.setState]
      split
      . simp
      . exact ⟨rfl, Nat.le_refl _⟩
    unfold Event.memory Node.beginReconnect
    dsimp only
    split
    . split
      . exact hspend.trans cancelReconnect
      . exact hspend
    . exact hspend.trans tearRegistered
  | boot p | crash p =>
    intro h
    simp [Event.memory, Node.booted, Node.isEngineActive] at h
  | _ => exact refl n

end Node.Rests
end OpenWA.Lifecycle
