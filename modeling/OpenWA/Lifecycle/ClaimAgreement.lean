import OpenWA.Lifecycle.OneNode

/-!
This module contains the agreement of the row, the set of owned sessions and the engine of a process:
where no heartbeat reads the row of a session that is claimed before it hands in its verdict, a process
with an engine owns the session and the row names it.
-/

namespace OpenWA.Lifecycle

open Async

/-- The activation recorded its claim, and it has not tried to reserve the session yet. -/
def Local.claimed (p : Nat) (loc : Local) : Bool :=
  loc.began.pid? = some p &&
    match loc.last with
    | some ⟨.claimed true, _, _⟩ | some ⟨.retryBegin, _, _⟩ => true
    | _ => false

/-- The heartbeat read a row that does not name its node, and has not handed in its verdict yet. -/
def Local.losing (p : Nat) (loc : Local) : Bool :=
  loc.began.pid? = some p &&
    match loc.last with
    | some ⟨.renewFind, x, s⟩ => x ≠ .fault && !s.names p
    | _ => false

/-- Moreover no claim statement runs between the read of a heartbeat that finds the row lost and its verdict. -/
def Agreeing {δ : Type} (w : SessionWorld δ) (a : Act Event Answer Loc) : Prop :=
  Exclusive w a ∧
    match a with
    | .event .. => True
    | .turn _ l _ =>
      match l.place with
      | .claim _ => anyLocal w (Local.losing l.pid) = false
      | _ => True

/-- What `Agreeing` says at a place, as a test. -/
def agreesAt {δ : Type} (w : SessionWorld δ) (p : Nat) (pt : Place) : Bool :=
  match pt with
  | .claim _ => !anyLocal w (Local.losing p)
  | _ => true

theorem agreesAt_iff {δ : Type} (w : SessionWorld δ) (p : Nat) (pt : Place) :
    agreesAt w p pt = true ↔
      match pt with
      | .claim _ => anyLocal w (Local.losing p) = false
      | _ => True := by
  cases pt <;> simp [agreesAt]

instance {δ : Type} (w : SessionWorld δ) (a : Act Event Answer Loc) : Decidable (Agreeing w a) :=
  match a with
  | .event _ _ => inferInstanceAs (Decidable (_ ∧ True))
  | .turn k l x =>
    decidable_of_iff (Exclusive w (.turn k l x) ∧ agreesAt w l.pid l.place = true)
      (and_congr_right' (agreesAt_iff w l.pid l.place))

/-- The turns that change the set of owned sessions. -/
def Place.owns (pt : Place) : Bool :=
  match pt with
  | .claimed true | .releaseCheck | .renewVerdict false => true
  | _ => false

namespace Node

variable (n : Node)

@[simp] theorem deleteIfLive_owned (e : Nat) : (n.deleteIfLive e).owned = n.owned := by
  unfold deleteIfLive; split <;> rfl

@[simp] theorem clearOperatorTeardown_owned (e : Nat) : (n.clearOperatorTeardown e).owned = n.owned := by
  unfold clearOperatorTeardown; split <;> rfl

@[simp] theorem tear_owned (e : Nat) : (n.tear e).owned = n.owned := rfl

@[simp] theorem evictAndForceDestroy_owned (e : Nat) : (n.evictAndForceDestroy e).owned = n.owned := rfl

@[simp] theorem setState_owned (k : Nat) (f : ReconnectState → ReconnectState) : (n.setState k f).owned = n.owned := rfl

@[simp] theorem evictRegistered_owned : n.evictRegistered.owned = n.owned := by
  unfold evictRegistered; split <;> rfl

@[simp] theorem tearRegistered_owned : n.tearRegistered.owned = n.owned := by
  unfold tearRegistered; split <;> rfl

@[simp] theorem retire_owned : n.retire.owned = n.owned := by simp [retire]

@[simp] theorem retireMark_owned (v : Verb) : (n.retireMark v).owned = n.owned := by
  unfold retireMark; split <;> simp

@[simp] theorem retireEvict_owned (v : Verb) (e : Nat) (b : Bool) : (n.retireEvict v e b).owned = n.owned := by
  unfold retireEvict; split <;> simp

@[simp] theorem resumeLaunch_owned (e : Nat) (b : Bool) : (n.resumeLaunch e b).owned = n.owned := by
  unfold resumeLaunch dropInitialStatus; split <;> split <;> rfl

@[simp] theorem runFailure_owned (f : Failure) : (n.runFailure f).owned = n.owned := by
  unfold runFailure; split <;> simp

@[simp] theorem scheduleReconnect_owned (session : Session) : (n.scheduleReconnect session).owned = n.owned := by
  unfold scheduleReconnect; split <;> (try split) <;> simp

@[simp] theorem settleLaunch_owned (k : Nat) (b : Bool) : (n.settleLaunch k b).owned = n.owned := rfl

@[simp] theorem reconnectFailed_owned (k : Nat) (session : Session) (b : Bool) (err : LifecycleError) :
    (n.reconnectFailed k session b err).owned = n.owned := by
  unfold reconnectFailed; split <;> (try split) <;> (try split) <;> simp

theorem memory_owned {pt : Place} (hpt : pt.owns = false) (x : Answer) (s : State) :
    (pt.memory x s n).owned = n.owned := by
  cases pt with
  | initialised e => unfold Place.memory; dsimp only; split <;> simp
  | startPrepare => unfold Place.memory; dsimp only; split <;> simp
  | startFailed => unfold Place.memory evictOrphan; dsimp only; split <;> simp
  | startFailedTeardown e => unfold Place.memory; dsimp only; split <;> simp
  | retireInitial v e pending => unfold Place.memory retireInitial; dsimp only; split <;> (try split) <;> simp
  | retireTeardown v e => unfold Place.memory; dsimp only; split <;> simp
  | retireStatus v e w => cases e <;> simp [Place.memory]
  | disconnected e unlink session => unfold Place.memory disconnected; dsimp only; split <;> simp
  | oldTeardown k e => unfold Place.memory; dsimp only; split <;> simp
  | reconnectLaunched k e => unfold Place.memory reconnectLaunched; dsimp only; split <;> simp
  | claimed ok => cases ok <;> first | rfl | contradiction
  | renewVerdict kept => cases kept <;> first | rfl | contradiction
  | releaseCheck => contradiction
  | _ => simp [Place.memory, createEngine, setEngine, setReconnect]

theorem event_owned {v : Event} (hboot : ∀ p, v ≠ .boot p) (hcrash : ∀ p, v ≠ .crash p) :
    (v.memory n).owned = n.owned := by
  cases v with
  | ready p e phone =>
    unfold Event.memory onReady accept
    dsimp only
    split <;> (try split) <;> (try split) <;> simp
  | stateChanged p e status =>
    rcases n.parksOnly_onStateChanged e status with ⟨parked, h⟩
    rw [Event.memory, h]
  | error p e terminal =>
    rcases n.onError_cases e terminal with ⟨parked, h⟩ | ⟨_, h⟩
    . rw [Event.memory, h]
    . rw [Event.memory, h, runFailure_owned]
  | timer p k => unfold Event.memory beginReconnect spendTimer; dsimp only; split <;> (try split) <;> simp
  | boot p => exact absurd rfl (hboot p)
  | crash p => exact absurd rfl (hcrash p)
  | _ => rfl

end Node

section Turns

variable {δ : Type} {noteExt : Act Event Answer Loc → State → State → δ → δ}
variable {w : SessionWorld δ} {tid p : Nat} {l : Loc} {x : Answer} {loc : Local} {s : State} {v : Event}

theorem claimed_claiming (h : loc.claimed p = true) : loc.claiming p = true := by
  simp only [Local.claimed, Bool.and_eq_true] at h
  simp only [Local.claiming, Bool.and_eq_true]
  refine ⟨h.1, ?_⟩
  rcases hlast : loc.last with _ | ⟨pt, x, s⟩
  . simp [hlast] at h
  . cases pt with
    | claimed ok => cases ok <;> simp_all
    | _ => simp_all

theorem losing_turn (hprecedes : loc.precedes l) (h : (loc.turn l x s).losing p = true) :
    l.place = .renewFind ∧ p = l.pid ∧ s.names p = false := by
  rcases l with ⟨q, pt⟩
  simp only [Local.losing, Local.turn, Bool.and_eq_true] at h
  rcases h with ⟨hpid, h⟩
  have hq : q = p := by
    have := hprecedes.1.symm.trans (of_decide_eq_true hpid)
    simpa using this
  subst hq
  cases pt with
  | renewFind =>
    simp only [Bool.and_eq_true, Bool.not_eq_true'] at h
    exact ⟨rfl, rfl, h.2⟩
  | _ => simp at h

theorem claimed_turn (hprecedes : loc.precedes l) (h : (loc.turn l x s).claimed p = true) :
    p = l.pid ∧ (l.place = .claimed true ∨ loc.claimed p = true) := by
  rcases l with ⟨q, pt⟩
  simp only [Local.claimed, Local.turn, Bool.and_eq_true] at h
  rcases h with ⟨hpid, h⟩
  replace hpid := of_decide_eq_true hpid
  have hq : q = p := by
    have := hprecedes.1.symm.trans hpid
    simpa using this
  subst hq
  cases pt with
  | claimed ok =>
    cases ok with
    | false => simp at h
    | true => exact ⟨rfl, .inl rfl⟩
  | retryBegin =>
    rcases hprecedes.2 with ⟨pt, x', s', hlast, rfl⟩
    refine ⟨rfl, .inr ?_⟩
    have hbegan : loc.began.pid? = some q := hprecedes.1
    simp [Local.claimed, hbegan, hlast]
  | _ => simp at h

/-- The process `p` counts on the set of owned sessions. -/
def counts (w : SessionWorld δ) (p : Nat) : Bool :=
  (w.st.node p).isEngineActive || anyLocal w (Local.claimed p)

theorem busy_of_counts (hfresh : Fresh w) (h : counts w p = true) : busy w p = true := by
  simp only [counts, Bool.or_eq_true] at h
  rcases h with h | h
  . simp [busy, h]
  . rcases (anyLocal_iff hfresh).mp h with ⟨tid, loc, hlocal, hclaimed⟩
    have := (anyLocal_iff hfresh).mpr ⟨tid, loc, hlocal, claimed_claiming hclaimed⟩
    simp [busy, this]

/-- Row, set of owned sessions and engines agree, and no heartbeat is about to give up a session that runs. -/
structure ClaimAgreement (w : SessionWorld δ) : Prop where
  oneNode : OneNode w
  lost : ∀ p, p ∈ w.st.alive → anyLocal w (Local.losing p) = true → busy w p = false
  owned : ∀ p, p ∈ w.st.alive → counts w p = true → (w.st.node p).owned = true

namespace ClaimAgreement

variable (hw : ClaimAgreement w) (hlocal : w.hist.locals tid = some loc) (hprecedes : loc.precedes l)
  (hguard : guard l x w.st = true) (hok : Agreeing w (.turn tid l x))
include hw hlocal hprecedes hguard hok

theorem lost_turn (halive : p ∈ w.st.alive)
    (h : anyLocal ((sessionSystem noteExt).after w (.turn tid l x) (effect l x w.st)) (Local.losing p) = true) :
    busy ((sessionSystem noteExt).after w (.turn tid l x) (effect l x w.st)) p = false := by
  refine hw.oneNode.still_quiet hlocal hprecedes hguard hok.1 (hw.lost p halive) (fun h => ?_)
    (fun now hpt hp => ?_) h
  . rw [← Bool.not_eq_true]
    intro hbusy
    have := (losing_turn hprecedes h).2.2
    rw [hw.oneNode.names p halive hbusy] at this
    contradiction
  . have := hok.2
    simp only [hpt] at this
    subst hp
    refine ⟨this, ?_⟩
    rw [← Bool.not_eq_true]
    intro h
    have := (losing_turn hprecedes h).1
    rw [hpt] at this
    contradiction

theorem not_busy_of_verdict (hpt : l.place = .renewVerdict false) : busy w l.pid = false := by
  have halive := alive_of_guard hguard
  rcases l with ⟨q, pt⟩
  subst hpt
  rcases hprecedes.2 with ⟨pt, x', s', hlast, rfl, hx, hkept⟩
  apply hw.lost q halive
  refine (anyLocal_iff hw.oneNode.fresh).mpr ⟨tid, loc, hlocal, ?_⟩
  have hbegan : loc.began.pid? = some q := hprecedes.1
  simp [Local.losing, hbegan, hlast, hx, State.names, ← hkept]

theorem counts_turn (h : counts ((sessionSystem noteExt).after w (.turn tid l x) (effect l x w.st)) p = true) :
    counts w p = true ∨ p = l.pid ∧ l.place = .claimed true := by
  have hclaimed (h : loc.claimed p = true) : counts w p = true := by
    have := (anyLocal_iff hw.oneNode.fresh).mpr ⟨tid, loc, hlocal, h⟩
    simp [counts, this]
  simp only [counts, Bool.or_eq_true] at h
  rcases h with h | h
  . have h : ((effect l x w.st).node p).isEngineActive = true := h
    rw [effect_node hguard] at h
    split at h
    . next hp =>
      subst hp
      rcases hw.oneNode.active_turn hlocal hprecedes hguard hok.1 h with hactive | hpt
      . exact .inl (by simp [counts, hactive])
      . rcases l with ⟨p, pt⟩
        subst hpt
        refine .inl (hclaimed ?_)
        have hpid : loc.began.pid? = some p := hprecedes.1
        rcases hprecedes.2 with hbegan | ⟨pt, x', s', hlast, hpt⟩
        . have := (hw.oneNode.began tid loc hlocal).1
          rw [hbegan] at this
          contradiction
        . rcases hpt with rfl | rfl
          . simp [Local.claimed, hpid, hlast]
          . simp [Local.claimed, hpid, hlast]
    . exact .inl (by simp [counts, h])
  . rcases anyLocal_turn hw.oneNode.fresh hlocal h with h | h
    . exact .inl (by simp [counts, h])
    . rcases claimed_turn hprecedes h with ⟨hp, hpt | h⟩
      . exact .inr ⟨hp, hpt⟩
      . exact .inl (hclaimed h)

theorem owned_turn (halive : p ∈ w.st.alive)
    (h : counts ((sessionSystem noteExt).after w (.turn tid l x) (effect l x w.st)) p = true) :
    ((effect l x w.st).node p).owned = true := by
  rw [effect_node hguard]
  rcases hw.counts_turn hlocal hprecedes hguard hok h with hcounts | ⟨rfl, hpt⟩
  . have howned := hw.owned p halive hcounts
    have hbusy := busy_of_counts hw.oneNode.fresh hcounts
    split
    . next hp =>
      subst hp
      cases howns : l.place.owns with
      | false => rw [Node.memory_owned _ howns, howned]
      | true =>
        -- the turns that give a claim up find that the process is not busy
        rcases l with ⟨q, pt⟩
        cases pt with
        | claimed ok => cases ok <;> first | rfl | contradiction
        | releaseCheck =>
          have hcond := hok.1.2
          simp only [busy, Bool.or_eq_true] at hbusy
          by_cases hactive : (w.st.node q).isEngineActive = true
          . simpa [Place.memory, Node.giveUp, hactive] using howned
          . simp_all
        | renewVerdict kept =>
          cases kept with
          | true => contradiction
          | false =>
            have := hw.not_busy_of_verdict hlocal hprecedes hguard hok rfl
            simp only at this
            rw [this] at hbusy
            contradiction
        | _ => contradiction
    . exact howned
  . rw [if_pos rfl, hpt]
    rfl

theorem turn (hcovers : loc.began.covers l.place = true) :
    ClaimAgreement ((sessionSystem noteExt).after w (.turn tid l x) (effect l x w.st)) := by
  have hst : ((sessionSystem noteExt).after w (.turn tid l x) (effect l x w.st)).st = effect l x w.st := rfl
  constructor
  . exact hw.oneNode.turn hlocal hprecedes hguard hok.1 hcovers
  . intro q hq h
    rw [hst, effect_alive] at hq
    exact hw.lost_turn hlocal hprecedes hguard hok hq h
  . intro q hq h
    rw [hst, effect_alive] at hq
    exact hw.owned_turn hlocal hprecedes hguard hok hq h

omit hw hlocal hprecedes hguard hok in
theorem counts_event (hw : OneNode w)
    (h : counts ((sessionSystem noteExt).after w (.event w.started v) (v.effect w.st)) p = true) :
    counts w p = true := by
  simp only [counts, Bool.or_eq_true] at h ⊢
  rcases h with h | h
  . exact .inl (OneNode.rests_event h)
  . rcases anyLocal_event hw.fresh h with h | h
    . exact .inr h
    . simp [Local.claimed, Local.first] at h

omit hlocal hprecedes hguard hok in
theorem event (henabled : v.enabled w.st = true) (hok : Agreeing w (.event w.started v)) :
    ClaimAgreement ((sessionSystem noteExt).after w (.event w.started v) (v.effect w.st)) := by
  constructor
  . exact hw.oneNode.event henabled hok.1
  . intro q hq h
    rw [← Bool.not_eq_true]
    intro hbusy
    replace hbusy := hw.oneNode.busy_event hbusy
    rcases hw.oneNode.alive_event henabled hq with ⟨halive, _⟩ | ⟨_, hdead, hnone⟩
    . rcases anyLocal_event hw.oneNode.fresh h with h | h
      . rw [hw.lost q halive h] at hbusy
        contradiction
      . simp [Local.losing, Local.first] at h
    . rw [hw.oneNode.not_busy hdead hnone] at hbusy
      contradiction
  . intro q hq h
    have hcounts := counts_event hw.oneNode h
    rcases hw.oneNode.alive_event henabled hq with ⟨halive, hboot, hcrash⟩ | ⟨_, hdead, hnone⟩
    . have howned := hw.owned q halive hcounts
      show ((v.effect w.st).node q).owned = true
      rw [Event.effect_node]
      split
      . next hpid =>
        rw [Node.event_owned, howned]
        . rintro q' rfl
          simp only [Event.pid?, Option.some.injEq] at hpid
          exact hboot (hpid ▸ rfl)
        . rintro q' rfl
          simp only [Event.pid?, Option.some.injEq] at hpid
          exact hcrash (hpid ▸ rfl)
      . exact howned
    . have := hw.oneNode.not_busy hdead hnone
      rw [busy_of_counts hw.oneNode.fresh hcounts] at this
      contradiction

end ClaimAgreement
end Turns

section Runs

variable {δ : Type} {noteExt : Act Event Answer Loc → State → State → δ → δ}

theorem claimAgreement_of_reach {init c : SessionConfig δ} (hpool : init.pool = [])
    (hlocals : ∀ tid, init.hist.locals tid = none) (hbooted : Booted init.st)
    (h : (sessionSystem noteExt).Reach Agreeing init c) : ClaimAgreement c.world := by
  have hinit : ClaimAgreement init.world := by
    have hone := oneNode_init hlocals hbooted
    have hnone (f : Local → Bool) : anyLocal init.world f = false := by
      rw [← Bool.not_eq_true]
      intro h
      rcases (anyLocal_iff hone.fresh).mp h with ⟨tid, loc, hlocal, _⟩
      simp [Config.world, hlocals] at hlocal
    refine ⟨hone, fun p _ h => ?_, fun p _ h => ?_⟩
    . rw [hnone] at h
      contradiction
    . simp [counts, hnone, Config.st_world, hbooted.node, Node.booted, Node.isEngineActive] at h
  apply inv_of_reach hpool hinit ?_ ?_ h
  . exact fun w v hw hok henabled => hw.event henabled hok
  . exact fun w tid l x loc hw hok hlocal hprecedes hcovers hguard =>
      hw.turn hlocal hprecedes hguard hok hcovers

/--
In such a run the row names every process that has an engine registered, the process owns the session,
and no heartbeat reports the session as lost.
-/
theorem claim_agreement {init c : SessionConfig δ} (hpool : init.pool = [])
    (hlocals : ∀ tid, init.hist.locals tid = none) (hbooted : Booted init.st)
    (h : (sessionSystem noteExt).Reach Agreeing init c) {p e : Nat} (hengine : (c.st.node p).engine = some e) :
    c.st.names p = true ∧ (c.st.node p).owned = true ∧
      ∀ m tid x c', (sessionSystem noteExt).step c m ≠ some (.turn tid ⟨p, .renewVerdict false⟩ x, c') := by
  have hinv := claimAgreement_of_reach hpool hlocals hbooted h
  have hactive : (c.world.st.node p).isEngineActive = true := by
    simp [Config.st_world, Node.isEngineActive, hengine]
  have halive : p ∈ c.world.st.alive := by
    by_contra hdead
    rw [hinv.oneNode.asleep p hdead] at hactive
    contradiction
  have hcounts : counts c.world p = true := by simp [counts, hactive]
  have hbusy := busy_of_counts hinv.oneNode.fresh hcounts
  refine ⟨hinv.oneNode.names p halive hbusy, hinv.owned p halive hcounts, ?_⟩
  intro m tid x c' hstep
  rcases controlled_of_reach hpool h hstep with ⟨hguard, _, loc, hlocal, hprecedes⟩
  rcases hprecedes.2 with ⟨pt, x', s', hlast, rfl, hx, hkept⟩
  have hlosing : anyLocal c.world (Local.losing p) = true := by
    refine (anyLocal_iff hinv.oneNode.fresh).mpr ⟨tid, loc, hlocal, ?_⟩
    have hbegan : loc.began.pid? = some p := hprecedes.1
    simp [Local.losing, hbegan, hlast, hx, State.names, ← hkept]
  rw [hinv.lost p halive hlosing] at hbusy
  contradiction

theorem claim_agreement_launch :
    ∃ c, plainSystem.Reach Agreeing idle c ∧ (c.st.node 0).engine = some 0 ∧ c.st.names 0 = true ∧
      (c.st.node 0).owned = true := by
  have hrun : (plainSystem.exec Agreeing idle (serviceLaunch 0 0 0)).map (fun c => (c.st.node 0).engine) =
      some (some 0) := by
    decide +kernel
  rcases System.reach_of_exec_map hrun with ⟨c, hreach, hengine⟩
  have hbooted : Booted idle.st := ⟨fun _ => rfl, fun _ _ _ _ h => h, by simp [idle, idleState]⟩
  have hagree := claim_agreement rfl (fun _ => rfl) hbooted hreach hengine
  exact ⟨c, hreach, hengine, hagree.1, hagree.2.1⟩

/--
The release statement of a stop runs after a start claimed the session. Once both have settled, the
engine of the start is registered and the row names nobody.
-/
theorem release_unclaims_start :
    ∃ c, plainSystem.Reach Renewed idle c ∧ c.drained = true ∧ c.st.writes = [] ∧ (c.st.node 0).engine = some 0 ∧
      c.st.names 0 = false := by
  have hrun : (plainSystem.exec Renewed idle
      [.event (.serviceStop 0), .turn 0 .ok, .turn 0 .ok, .turn 0 .ok, .turn 0 .ok, .turn 0 .ok,
        .event (.database 0 false), .turn 0 .ok, .turn 0 .ok, .turn 0 .ok,
        .event (.serviceStart 0), .turn 2 .ok, .turn 2 .ok, .turn 2 .ok, .turn 0 .ok,
        .turn 2 .ok, .turn 2 .ok, .turn 2 .ok, .turn 2 .ok, .turn 2 .ok, .turn 2 .ok,
        .event (.database 1 false), .turn 2 .ok, .turn 2 .ok, .turn 2 .ok, .turn 2 .ok, .turn 2 .ok,
        .turn 2 .ok, .turn 2 .ok]).map
        (fun c => (c.drained, c.st.writes, (c.st.node 0).engine, c.st.names 0)) =
      some (true, [], some 0, false) := by
    decide +kernel
  rcases System.reach_of_exec_map hrun with ⟨c, hreach, hruns⟩
  simp only [Prod.mk.injEq] at hruns
  exact ⟨c, hreach, hruns⟩

end Runs

end OpenWA.Lifecycle
