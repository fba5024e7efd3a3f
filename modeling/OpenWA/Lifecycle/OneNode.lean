import OpenWA.Lifecycle.Control
import OpenWA.Lifecycle.Memory

/-!
This module contains the exclusion between the nodes that share a session: which overlaps of a claim
with a release lose the row of a session that runs, and that otherwise the row names every process
that runs it, so that no two do.
-/

namespace OpenWA.Lifecycle

open Async

namespace State

variable (s : State)

/-- The row names the node of the process `p`. -/
def names (p : Nat) : Bool := s.affects fun row => row.nodeId = some (s.host p)

/-- The lease of the row has run out. -/
def lapsed : Bool := s.affects fun row => row.leaseExpiresAt.any (· < s.now)

end State

/-- The claim statement of the activation took the session, and it has not tried to reserve it yet. -/
def Local.claiming (p : Nat) (loc : Local) : Bool :=
  loc.began.pid? = some p &&
    match loc.last with
    | some ⟨.claim now, x, s⟩ => x ≠ .fault && s.affects (s.claimable p now)
    | some ⟨.claimed true, _, _⟩ | some ⟨.retryBegin, _, _⟩ => true
    | _ => false

/-- The activation gave the session up, and its release statement has not been executed yet. -/
def Local.releasing (p : Nat) (loc : Local) : Bool :=
  loc.began.pid? = some p &&
    match loc.last with
    | some ⟨.releaseCheck, _, s⟩ => !(s.node p).isEngineActive
    | _ => false

/-- The event does not start the session without a claim, nor delete it. -/
def Event.fenced (v : Event) : Bool :=
  match v with
  | .start _ | .verb .delete _ => false
  | _ => true

section Condition

variable {δ : Type} (w : SessionWorld δ)

/-- The process `p` has something alive for the session, or has claimed it to start it. -/
def busy (p : Nat) : Bool := (w.st.node p).isEngineActive || anyLocal w (Local.claiming p)

/-- The lease of a process that runs the session, or has claimed it to start it, has not run out. -/
def Leased : Prop := ∀ p ∈ w.st.alive, busy w p = true → w.st.names p = true → w.st.lapsed = false

instance : Decidable (Leased w) := inferInstanceAs (Decidable (∀ p ∈ w.st.alive, _))

/--
The condition on the steps of a run: leases are renewed in time; a claim is not given up while a start
of the same process is between its claim statement and its reservation, nor taken between the liveness
check of a release and its statement; a reconnect attempt registers its engine only while the process
still counts as active.
-/
def Exclusive (a : Act Event Answer Loc) : Prop :=
  Leased w ∧
    match a with
    | .event _ v => v.fenced = true
    | .turn _ l _ =>
      match l.place with
      | .releaseCheck => (w.st.node l.pid).isEngineActive = true ∨ anyLocal w (Local.claiming l.pid) = false
      | .claim _ => anyLocal w (Local.releasing l.pid) = false
      | .reconnectCreate .. => (w.st.node l.pid).isEngineActive = true
      | _ => True

instance (a : Act Event Answer Loc) : Decidable (Exclusive w a) :=
  match a with
  | .event _ _ => inferInstanceAs (Decidable (_ ∧ _))
  | .turn _ l _ => by
    unfold Exclusive
    dsimp only
    split <;> infer_instance

end Condition

namespace Node

variable {n n' : Node}

/-- Registered reconnect states and armed timers are among the states that were created. -/
structure Tidy (n : Node) : Prop where
  reconnect : ∀ k, n.reconnect = some k → k < n.statesCreated
  timer : ∀ k, (n.states k).timer.isSome = true → k < n.statesCreated

/-- The state `k` of a running attempt keeps its timer handle while it is registered. -/
def Handled (n : Node) (k : Nat) : Prop :=
  k < n.statesCreated ∧ (n.reconnect = some k → (n.states k).timer.isSome = true)

theorem Shrinks.tidy (h : n.Shrinks n') (htidy : n.Tidy) : n'.Tidy where
  reconnect := by
    intro k hk
    rw [h.statesCreated]
    rcases h.reconnect with heq | heq
    . exact htidy.reconnect k (heq ▸ hk)
    . simp [heq] at hk
  timer := by
    intro k hk
    rw [h.statesCreated]
    rcases h.armed k hk with hk | hk
    . exact htidy.timer k hk
    . exact htidy.reconnect k hk

theorem Shrinks.handled (h : n.Shrinks n') {k : Nat} (hhandled : n.Handled k) : n'.Handled k := by
  refine ⟨h.statesCreated ▸ hhandled.1, fun hk => ?_⟩
  rcases h.reconnect with heq | heq
  . exact h.timer k hk (hhandled.2 (heq ▸ hk))
  . simp [heq] at hk

theorem Tidy.memory (h : n.Tidy) (pt : Place) (x : Answer) (s : State) : (pt.memory x s n).Tidy := by
  cases hpt : pt.registers with
  | false => exact (Shrinks.memory hpt x s).tidy h
  | true =>
    cases pt with
    | startCreate session =>
      constructor
      . intro k hk
        simp [Place.memory, createEngine, setEngine, setReconnect] at hk ⊢
        omega
      . intro k hk
        simp [Place.memory, createEngine, setEngine, setReconnect] at hk ⊢
        split at hk
        . simp at hk
        . have := h.timer k hk
          omega
    | reconnectCreate k session =>
      constructor
      . exact h.reconnect
      . intro i hi
        apply h.timer
        simp only [Place.memory, createEngine, setEngine, setState] at hi
        split at hi
        . exact hi
        . exact hi
    | startReserve | startRelease => exact ⟨h.reconnect, h.timer⟩
    | _ => contradiction

theorem Handled.memory {k : Nat} (h : n.Handled k) (pt : Place) (x : Answer) (s : State) :
    (pt.memory x s n).Handled k := by
  cases hpt : pt.registers with
  | false => exact (Shrinks.memory hpt x s).handled h
  | true =>
    cases pt with
    | startCreate session =>
      have hlt := h.1
      refine ⟨Nat.lt_succ_of_lt hlt, fun hk => ?_⟩
      simp [Place.memory, createEngine, setEngine, setReconnect] at hk
      omega
    | reconnectCreate i session =>
      refine ⟨h.1, fun hk => ?_⟩
      simp only [Place.memory, createEngine, setEngine, setState]
      split
      . exact h.2 hk
      . exact h.2 hk
    | startReserve | startRelease => exact h
    | _ => contradiction

end Node

section Row

variable {s : State} {p q : Nat}

/-- A statement takes the row from nobody whose lease runs, unless he releases it himself. -/
theorem names_statement {pt : Place} (hnames : s.names q = true) (hlapsed : s.lapsed = false)
    (hclaim : ∀ now, pt = .claim now → now ≤ s.now)
    (hrelease : ∀ now, pt = .release now → now ≤ s.now ∧ s.host p ≠ s.host q) (hdelete : pt ≠ .deleteRow) :
    ((pt.statement p s).any fun row => row.nodeId = some (s.host q)) = true := by
  simp only [State.names, State.affects, Option.any_eq_true, decide_eq_true_eq] at hnames
  rcases hnames with ⟨row, hrow, hnode⟩
  have hlive (now : Nat) (hle : now ≤ s.now) : (row.leaseExpiresAt.any (· < now)) = false := by
    simp only [State.lapsed, State.affects, hrow, Option.any_some] at hlapsed
    cases hlease : row.leaseExpiresAt with
    | none => rfl
    | some t =>
      simp only [hlease, Option.any_some, decide_eq_false_iff_not, Nat.not_lt] at hlapsed ⊢
      omega
  cases pt with
  | deleteRow => contradiction
  | claim now =>
    simp only [Place.statement, State.claim, State.updateRow, hrow, Option.map_some, Option.any_some]
    split
    . next hclaimable =>
      simp only [State.claimable, hnode, hlive now (hclaim now rfl)] at hclaimable
      simpa [eq_comm] using hclaimable
    . simpa using hnode
  | release now =>
    rcases hrelease now rfl with ⟨hle, hne⟩
    simp only [Place.statement, State.release, State.updateRow, hrow, Option.map_some, Option.any_some]
    rw [if_neg]
    . simpa using hnode
    . simp [hnode, hlive now hle, Ne.symm hne]
  | renewUpdate now =>
    simp only [Place.statement, State.renew, State.updateRow, hrow, Option.map_some, Option.any_some]
    split
    . simpa using hnode
    . simpa using hnode
  | sweepCorrect session goneBefore =>
    simp only [Place.statement, State.updateRow, hrow, Option.map_some, Option.any_some]
    split
    . simpa using hnode
    . simpa using hnode
  | _ => simpa [Place.statement, hrow] using hnode

theorem names_claim {now : Nat} (h : s.affects (s.claimable p now) = true) :
    ((s.claim p now).any fun row => row.nodeId = some (s.host p)) = true := by
  simp only [State.affects, Option.any_eq_true] at h
  rcases h with ⟨row, hrow, hclaimable⟩
  simp [State.claim, State.updateRow, hrow, hclaimable]

theorem apply_nodeId (w : Write) (row : Session) : (w.apply row).nodeId = row.nodeId := by
  cases w with
  | ready phone =>
    unfold Write.apply
    dsimp only
    split <;> rfl
  | _ => rfl

theorem names_settle (i : Nat) (fault : Bool) (h : s.names p = true) : (s.settle i fault).names p = true := by
  simp only [State.names, State.affects, State.settle] at h ⊢
  split
  . exact h
  . split
    . cases hrow : s.row with
      | none => simp [hrow] at h
      | some row => simpa [hrow, apply_nodeId] using h
    . exact h

end Row

/-- In every process that runs, what is alive for the session is covered by a claim that the row shows. -/
structure OneNode {δ : Type} (w : SessionWorld δ) : Prop where
  fresh : Fresh w
  began : ∀ tid loc, w.hist.locals tid = some loc → loc.began.fenced = true ∧
    ∀ p, loc.began.pid? = some p → p ∈ w.st.alive ∨ p ∈ w.st.crashed
  clock : ∀ tid loc, w.hist.locals tid = some loc → ∀ t, loc.last = some t → t.before.now ≤ w.st.now
  tidy : ∀ p, (w.st.node p).Tidy
  handled : ∀ tid loc, w.hist.locals tid = some loc → ∀ p k, loc.began = .timer p k → p ∈ w.st.alive →
    (w.st.node p).Handled k
  holding : ∀ tid loc, w.hist.locals tid = some loc → ∀ p, loc.began.pid? = some p → p ∈ w.st.alive →
    loc.holding = true → (w.st.node p).initializing = true
  alone : ∀ tid loc, w.hist.locals tid = some loc → ∀ tid' loc', w.hist.locals tid' = some loc' →
    ∀ p, loc.began.pid? = some p → loc'.began.pid? = some p → p ∈ w.st.alive → loc.holding = true →
    loc'.holding = true → tid = tid'
  hosts : ∀ p q, p ∈ w.st.alive → q ∈ w.st.alive → w.st.host p = w.st.host q → p = q
  ended : ∀ p, p ∈ w.st.crashed → p ∉ w.st.alive
  asleep : ∀ p, p ∉ w.st.alive → (w.st.node p).isEngineActive = false
  names : ∀ p, p ∈ w.st.alive → busy w p = true → w.st.names p = true
  quiet : ∀ p, p ∈ w.st.alive → anyLocal w (Local.releasing p) = true → busy w p = false

section Turns

variable {δ : Type} {noteExt : Act Event Answer Loc → State → State → δ → δ}
variable {w : SessionWorld δ} {tid p : Nat} {l : Loc} {x : Answer} {loc : Local} {s : State}

theorem claiming_turn (hprecedes : loc.precedes l) (h : (loc.turn l x s).claiming p = true) :
    loc.claiming p = true ∨
      p = l.pid ∧ ∃ now, l.place = .claim now ∧ x ≠ .fault ∧ s.affects (s.claimable p now) = true := by
  rcases l with ⟨q, pt⟩
  simp only [Local.claiming, Local.turn, Bool.and_eq_true] at h
  rcases h with ⟨hpid, h⟩
  replace hpid := of_decide_eq_true hpid
  have hq : q = p := by
    have := hprecedes.1.symm.trans hpid
    simpa using this
  subst hq
  cases pt with
  | claim now =>
    simp only [Bool.and_eq_true, decide_eq_true_eq] at h
    exact .inr ⟨rfl, now, rfl, h⟩
  | claimed ok =>
    cases ok with
    | false => simp at h
    | true =>
      rcases hprecedes.2 with ⟨pt, x', s', hlast, now, rfl, hx, hclaimed⟩
      refine .inl ?_
      simp [Local.claiming, hpid, hlast, hx, ← hclaimed]
  | retryBegin =>
    rcases hprecedes.2 with ⟨pt, x', s', hlast, rfl⟩
    refine .inl ?_
    simp [Local.claiming, hpid, hlast]
  | _ => simp at h

theorem releasing_turn (hprecedes : loc.precedes l) (h : (loc.turn l x s).releasing p = true) :
    l.place = .releaseCheck ∧ p = l.pid ∧ (s.node p).isEngineActive = false := by
  rcases l with ⟨q, pt⟩
  simp only [Local.releasing, Local.turn, Bool.and_eq_true] at h
  rcases h with ⟨hpid, h⟩
  replace hpid := of_decide_eq_true hpid
  have hq : q = p := by
    have := hprecedes.1.symm.trans hpid
    simpa using this
  subst hq
  cases pt with
  | releaseCheck => exact ⟨rfl, rfl, by simpa using h⟩
  | _ => simp at h

theorem holding_turn (h : (loc.turn l x s).holding = true) :
    loc.holding = true ∧ l.place ≠ .startRelease ∨
      l.place = .startReserve ∧ (s.node l.pid).initializing = false := by
  rcases l with ⟨q, pt⟩
  cases pt with
  | startReserve =>
    simp only [Local.turn, Bool.or_eq_true, Bool.not_eq_true'] at h
    rcases h with h | h
    . exact .inl ⟨h, by simp⟩
    . exact .inr ⟨rfl, h⟩
  | startRelease => simp [Local.turn] at h
  | _ => exact .inl ⟨h, by simp⟩

theorem initializing_memory {pt : Place} {n : Node} (hpt : pt ≠ .startRelease) (h : n.initializing = true) :
    (pt.memory x s n).initializing = true := by
  cases hregisters : pt.registers with
  | false => exact (Node.Shrinks.memory hregisters x s).initializing.trans h
  | true =>
    cases pt with
    | startReserve => rfl
    | startCreate session => exact h
    | reconnectCreate k session => exact h
    | startRelease => exact absurd rfl hpt
    | _ => contradiction

namespace OneNode

variable (hw : OneNode w) (hlocal : w.hist.locals tid = some loc) (hprecedes : loc.precedes l)
  (hguard : guard l x w.st = true) (hok : Exclusive w (.turn tid l x))
include hw hlocal hprecedes hguard hok

theorem active_turn (h : (l.place.memory x w.st (w.st.node l.pid)).isEngineActive = true) :
    (w.st.node l.pid).isEngineActive = true ∨ l.place = .startReserve := by
  have halive := alive_of_guard hguard
  rcases l with ⟨p, pt⟩
  cases hpt : pt.registers with
  | false =>
    refine .inl (Node.Rests.memory hpt x w.st ?_ h)
    rintro k session launched err rfl hk
    exact (hw.handled tid loc hlocal p k hprecedes.2.1 halive).2 hk
  | true =>
    cases pt with
    | startReserve => exact .inr rfl
    | startRelease =>
      refine .inl ?_
      simp only [Node.isEngineActive, Place.memory, Bool.or_eq_true] at h ⊢
      rcases h with (h | h) | h
      . exact .inl (.inl h)
      . contradiction
      . exact .inr h
    | startCreate session =>
      have hinit := hw.holding tid loc hlocal p hprecedes.1 halive hprecedes.2
      exact .inl (by simp [Node.isEngineActive, hinit])
    | reconnectCreate k session => exact .inl hok.2
    | _ => contradiction

theorem busy_turn (h : busy ((sessionSystem noteExt).after w (.turn tid l x) (effect l x w.st)) p = true) :
    busy w p = true ∨
      p = l.pid ∧ ∃ now, l.place = .claim now ∧ x ≠ .fault ∧ w.st.affects (w.st.claimable p now) = true := by
  have hclaiming (h : loc.claiming p = true) : busy w p = true := by
    have := (anyLocal_iff hw.fresh).mpr ⟨tid, loc, hlocal, h⟩
    simp [busy, this]
  simp only [busy, Bool.or_eq_true] at h
  rcases h with h | h
  . have h : ((effect l x w.st).node p).isEngineActive = true := h
    rw [effect_node hguard] at h
    split at h
    . next hp =>
      subst hp
      rcases hw.active_turn hlocal hprecedes hguard hok h with hactive | hpt
      . exact .inl (by simp [busy, hactive])
      . rcases l with ⟨p, pt⟩
        subst hpt
        refine .inl (hclaiming ?_)
        rcases hprecedes.2 with hbegan | ⟨pt, x', s', hlast, hpt⟩
        . have := (hw.began tid loc hlocal).1
          rw [hbegan] at this
          contradiction
        . rcases hpt with rfl | rfl
          . simp [Local.claiming, hprecedes.1, hlast]
          . simp [Local.claiming, hprecedes.1, hlast]
    . exact .inl (by simp [busy, h])
  . rcases anyLocal_turn hw.fresh hlocal h with h | h
    . exact .inl (by simp [busy, h])
    . rcases claiming_turn hprecedes h with h | h
      . exact .inl (hclaiming h)
      . exact .inr h

theorem names_turn (hcovers : loc.began.covers l.place = true) (halive : p ∈ w.st.alive)
    (h : busy ((sessionSystem noteExt).after w (.turn tid l x) (effect l x w.st)) p = true) :
    (effect l x w.st).names p = true := by
  have hpid := alive_of_guard hguard
  simp only [State.names, State.affects, effect_host, effect_row]
  rcases hw.busy_turn hlocal hprecedes hguard hok h with hbusy | ⟨rfl, now, hpt, hx, hclaimable⟩
  . have hnames := hw.names p halive hbusy
    split
    . exact hnames
    . apply names_statement hnames (hok.1 p halive hbusy hnames)
      . intro now hpt
        rcases l with ⟨q, pt⟩
        subst hpt
        rcases hprecedes.2 with ⟨pt, x', s', hlast, rfl, rfl⟩
        exact hw.clock tid loc hlocal _ hlast
      . intro now hpt
        rcases l with ⟨q, pt⟩
        subst hpt
        rcases hprecedes.2 with ⟨pt, x', s', hlast, rfl, hactive, rfl⟩
        refine ⟨hw.clock tid loc hlocal _ hlast, fun heq => ?_⟩
        have hqp := hw.hosts q p hpid halive heq
        subst hqp
        have hreleasing : anyLocal w (Local.releasing q) = true := by
          refine (anyLocal_iff hw.fresh).mpr ⟨tid, loc, hlocal, ?_⟩
          simp [Local.releasing, hprecedes.1, hlast, hactive]
        rw [hw.quiet q halive hreleasing] at hbusy
        contradiction
      . intro hpt
        rw [hpt] at hcovers
        have hfenced := (hw.began tid loc hlocal).1
        cases hbegan : loc.began with
        | verb u q =>
          rw [hbegan] at hcovers hfenced
          simp only [Event.covers, Event.retires, decide_eq_true_eq] at hcovers
          rw [hcovers] at hfenced
          contradiction
        | _ => simp [hbegan, Event.covers, Event.retires] at hcovers
  . rw [if_neg hx, hpt]
    exact names_claim hclaimable

/-- What excludes that a process is busy goes on to, while no claim statement runs beside it. -/
theorem still_quiet {f : Local → Bool} (hold : anyLocal w f = true → busy w p = false)
    (hnew : f (loc.turn l x w.st) = true → busy w p = false)
    (hclaim : ∀ now, l.place = .claim now → p = l.pid →
      anyLocal w f = false ∧ f (loc.turn l x w.st) = false)
    (h : anyLocal ((sessionSystem noteExt).after w (.turn tid l x) (effect l x w.st)) f = true) :
    busy ((sessionSystem noteExt).after w (.turn tid l x) (effect l x w.st)) p = false := by
  rw [← Bool.not_eq_true]
  intro hbusy
  rcases hw.busy_turn hlocal hprecedes hguard hok hbusy with hbusy | ⟨hp, now, hpt, _⟩
  . rcases anyLocal_turn hw.fresh hlocal h with h | h
    . rw [hold h] at hbusy
      contradiction
    . rw [hnew h] at hbusy
      contradiction
  . rcases hclaim now hpt hp with ⟨hold, hnew⟩
    rcases anyLocal_turn hw.fresh hlocal h with h | h
    . rw [hold] at h
      contradiction
    . rw [hnew] at h
      contradiction

theorem quiet_turn (halive : p ∈ w.st.alive)
    (h : anyLocal ((sessionSystem noteExt).after w (.turn tid l x) (effect l x w.st)) (Local.releasing p) = true) :
    busy ((sessionSystem noteExt).after w (.turn tid l x) (effect l x w.st)) p = false := by
  refine hw.still_quiet hlocal hprecedes hguard hok (hw.quiet p halive) (fun h => ?_) (fun now hpt hp => ?_) h
  . rcases releasing_turn hprecedes h with ⟨hpt, rfl, hactive⟩
    have := hok.2
    simp only [hpt, hactive] at this
    simpa [busy, hactive] using this
  . have := hok.2
    simp only [hpt] at this
    subst hp
    refine ⟨this, ?_⟩
    rw [← Bool.not_eq_true]
    intro h
    have := (releasing_turn hprecedes h).1
    rw [hpt] at this
    contradiction

theorem turn (hcovers : loc.began.covers l.place = true) :
    OneNode ((sessionSystem noteExt).after w (.turn tid l x) (effect l x w.st)) := by
  have halive := alive_of_guard hguard
  have hnode (q : Nat) : ((sessionSystem noteExt).after w (.turn tid l x) (effect l x w.st)).st.node q =
      if q = l.pid then l.place.memory x w.st (w.st.node q) else w.st.node q := effect_node hguard q
  have hst : ((sessionSystem noteExt).after w (.turn tid l x) (effect l x w.st)).st = effect l x w.st := rfl
  constructor
  . exact hw.fresh.turn hlocal
  . rw [hst, effect_alive, effect_crashed]
    exact forall_turn hlocal (hw.began tid loc hlocal) fun i loc' _ hi => hw.began i loc' hi
  . rw [hst, effect_now]
    refine forall_turn hlocal ?_ fun i loc' _ hi => hw.clock i loc' hi
    intro t ht
    simp only [Local.turn, Option.some.injEq] at ht
    exact Nat.le_of_eq (ht ▸ rfl)
  . intro q
    rw [hnode]
    split
    . exact (hw.tidy q).memory _ _ _
    . exact hw.tidy q
  . have hkeeps (i : Nat) (loc' : Local) (hi : w.hist.locals i = some loc') (q k : Nat)
        (hbegan : loc'.began = .timer q k) (hq : q ∈ w.st.alive) :
        (((sessionSystem noteExt).after w (.turn tid l x) (effect l x w.st)).st.node q).Handled k := by
      have hhandled := hw.handled i loc' hi q k hbegan hq
      rw [hnode]
      split
      . exact hhandled.memory _ _ _
      . exact hhandled
    rw [hst, effect_alive]
    exact forall_turn hlocal (hkeeps tid loc hlocal) fun i loc' _ hi => hkeeps i loc' hi
  . rw [hst, effect_alive]
    refine forall_turn hlocal ?_ ?_
    . intro q hpid _ hholding
      have hq : l.pid = q := by
        have := hprecedes.1.symm.trans hpid
        simpa using this
      subst hq
      rw [effect_node hguard, if_pos rfl]
      rcases holding_turn hholding with ⟨h, hpt⟩ | ⟨hpt, _⟩
      . exact initializing_memory hpt (hw.holding tid loc hlocal _ hpid halive h)
      . rw [hpt]
        rfl
    . intro i loc' hne hi q hpid hq hholding
      have hinit := hw.holding i loc' hi q hpid hq hholding
      rw [effect_node hguard]
      split
      . next hpidq =>
        apply initializing_memory ?_ hinit
        intro hpt
        rcases l with ⟨q', pt⟩
        subst hpt
        exact hne (hw.alone i loc' hi tid loc hlocal q hpid (hpidq ▸ hprecedes.1) hq hholding hprecedes.2)
      . exact hinit
  . have hself (i : Nat) (loc' : Local) (hi : w.hist.locals i = some loc') (q : Nat) (hpid : loc.began.pid? = some q)
        (hpid' : loc'.began.pid? = some q) (hq : q ∈ w.st.alive) (h : (loc.turn l x w.st).holding = true)
        (h' : loc'.holding = true) : tid = i := by
      rcases holding_turn h with ⟨h, _⟩ | ⟨_, hinit⟩
      . exact hw.alone tid loc hlocal i loc' hi q hpid hpid' hq h h'
      . have hlq : l.pid = q := by
          have := hprecedes.1.symm.trans hpid
          simpa using this
        rw [hlq, hw.holding i loc' hi q hpid' hq h'] at hinit
        contradiction
    rw [hst, effect_alive]
    refine forall_turn hlocal ?_ ?_
    . refine forall_turn hlocal ?_ ?_
      . intros
        rfl
      . exact fun i loc' _ hi q hpid hpid' hq h h' => hself i loc' hi q hpid hpid' hq h h'
    . intro i loc' _ hi
      refine forall_turn hlocal ?_ ?_
      . exact fun q hpid hpid' hq h h' => (hself i loc' hi q hpid' hpid hq h' h).symm
      . exact fun j loc'' _ hj q hpid hpid' hq h h' => hw.alone i loc' hi j loc'' hj q hpid hpid' hq h h'
  . rw [hst, effect_alive, effect_host]
    exact hw.hosts
  . rw [hst, effect_alive, effect_crashed]
    exact hw.ended
  . intro q hq
    rw [hst, effect_alive] at hq
    rw [hnode]
    split
    . next hpid => exact absurd (hpid ▸ halive) hq
    . exact hw.asleep q hq
  . intro q hq h
    rw [hst, effect_alive] at hq
    exact hw.names_turn hlocal hprecedes hguard hok hcovers hq h
  . intro q hq h
    rw [hst, effect_alive] at hq
    exact hw.quiet_turn hlocal hprecedes hguard hok hq h

end OneNode
end Turns

section Events

variable {δ : Type} {noteExt : Act Event Answer Loc → State → State → δ → δ}
variable {w : SessionWorld δ} {v : Event} {p : Nat}

namespace OneNode

theorem alive_event (hw : OneNode w) (henabled : v.enabled w.st = true) (h : p ∈ (v.effect w.st).alive) :
    (p ∈ w.st.alive ∧ v ≠ .boot p ∧ v ≠ .crash p) ∨
      v = .boot p ∧ p ∉ w.st.alive ∧ ∀ tid loc, w.hist.locals tid = some loc → loc.began.pid? ≠ some p := by
  rw [Event.effect_alive] at h
  cases v with
  | boot q =>
    simp only [Event.enabled, Bool.and_eq_true, Bool.not_eq_true', List.contains_eq_mem,
      decide_eq_false_iff_not] at henabled
    by_cases hp : p = q
    . subst hp
      refine .inr ⟨rfl, henabled.1.1, fun tid loc hlocal hpid => ?_⟩
      rcases (hw.began tid loc hlocal).2 p hpid with h | h
      . exact henabled.1.1 h
      . exact henabled.1.2 h
    . simp only [List.mem_cons, hp, false_or] at h
      refine .inl ⟨h, ?_, by simp⟩
      rintro ⟨⟩
      exact hp rfl
  | crash q =>
    simp only [List.mem_filter, bne_iff_ne] at h
    refine .inl ⟨h.1, by simp, ?_⟩
    rintro ⟨⟩
    exact h.2 rfl
  | _ => exact .inl ⟨h, by simp, by simp⟩

theorem shrinks_event (hboot : v ≠ .boot p) (hcrash : v ≠ .crash p) :
    (w.st.node p).Shrinks ((v.effect w.st).node p) := by
  rw [Event.effect_node]
  split
  . next hpid =>
    apply Node.Shrinks.event
    . rintro q rfl
      simp only [Event.pid?, Option.some.injEq] at hpid
      exact hboot (hpid ▸ rfl)
    . rintro q rfl
      simp only [Event.pid?, Option.some.injEq] at hpid
      exact hcrash (hpid ▸ rfl)
  . exact Node.Shrinks.refl _

theorem rests_event : (w.st.node p).Rests ((v.effect w.st).node p) := by
  rw [Event.effect_node]
  split
  . exact Node.Rests.event v
  . exact Node.Rests.refl _

theorem busy_event (hw : OneNode w)
    (h : busy ((sessionSystem noteExt).after w (.event w.started v) (v.effect w.st)) p = true) : busy w p = true := by
  simp only [busy, Bool.or_eq_true] at h ⊢
  rcases h with h | h
  . exact .inl (rests_event h)
  . rcases anyLocal_event hw.fresh h with h | h
    . exact .inr h
    . simp [Local.claiming, Local.first] at h

theorem not_busy (hw : OneNode w) (hp : p ∉ w.st.alive)
    (hborn : ∀ tid loc, w.hist.locals tid = some loc → loc.began.pid? ≠ some p) : busy w p = false := by
  rw [← Bool.not_eq_true]
  intro h
  simp only [busy, hw.asleep p hp, Bool.false_or] at h
  rcases (anyLocal_iff hw.fresh).mp h with ⟨tid, loc, hlocal, hclaiming⟩
  simp only [Local.claiming, Bool.and_eq_true] at hclaiming
  exact hborn tid loc hlocal (of_decide_eq_true hclaiming.1)

theorem names_event (h : w.st.names p = true) : (v.effect w.st).names p = true := by
  cases v with
  | database i fault => exact names_settle i fault h
  | _ => exact h

theorem handled_first (hw : OneNode w) (henabled : v.enabled w.st = true) {k : Nat} (hv : v = .timer p k) :
    ((v.effect w.st).node p).Handled k := by
  subst hv
  simp only [Event.enabled, Bool.and_eq_true] at henabled
  have htimer : ((w.st.node p).states k).timer.isSome = true := by
    rcases Option.any_eq_true _ _ |>.mp henabled.2 with ⟨t, ht, _⟩
    simp [ht]
  apply (shrinks_event (by simp) (by simp)).handled
  exact ⟨(hw.tidy p).timer k htimer, fun _ => htimer⟩

theorem event (hw : OneNode w) (henabled : v.enabled w.st = true) (hok : Exclusive w (.event w.started v)) :
    OneNode ((sessionSystem noteExt).after w (.event w.started v) (v.effect w.st)) := by
  have hst : ((sessionSystem noteExt).after w (.event w.started v) (v.effect w.st)).st = v.effect w.st := rfl
  have hborn {tid : Nat} {loc : Local} (hlocal : w.hist.locals tid = some loc) {q : Nat}
      (hpid : loc.began.pid? = some q) (hq : q ∈ (v.effect w.st).alive) :
      q ∈ w.st.alive ∧ v ≠ .boot q ∧ v ≠ .crash q := by
    rcases hw.alive_event henabled hq with h | ⟨_, _, hnone⟩
    . exact h
    . exact absurd hpid (hnone tid loc hlocal)
  constructor
  . exact hw.fresh.event
  . refine forall_event ⟨hok.2, fun q hpid => Event.alive_of_enabled henabled hpid⟩ fun i loc' hi => ?_
    refine ⟨(hw.began i loc' hi).1, fun q hpid => ?_⟩
    have := (hw.began i loc' hi).2 q hpid
    rw [hst, Event.effect_alive, Event.effect_crashed]
    cases v with
    | boot q' =>
      rcases this with h | h
      . exact .inl (List.mem_cons_of_mem _ h)
      . exact .inr h
    | crash q' =>
      by_cases hq : q = q'
      . simp [hq]
      . rcases this with h | h
        . simp [h, hq]
        . exact .inr (List.mem_cons_of_mem _ h)
    | _ => exact this
  . refine forall_event (by simp [Local.first]) fun i loc' hi t ht => ?_
    exact Nat.le_trans (hw.clock i loc' hi t ht) (v.now_le_effect w.st)
  . intro q
    by_cases hgone : v = .boot q ∨ v = .crash q
    . rw [hst, Event.effect_booted hgone]
      exact ⟨by simp [Node.booted], by simp [Node.booted]⟩
    . rw [not_or] at hgone
      exact (shrinks_event hgone.1 hgone.2).tidy (hw.tidy q)
  . refine forall_event ?_ fun i loc' hi q k hbegan hq => ?_
    . exact fun q k hbegan _ => hw.handled_first henabled hbegan
    . rcases hborn hi (q := q) (by simp [hbegan, Event.pid?]) hq with ⟨halive, hboot, hcrash⟩
      exact (shrinks_event hboot hcrash).handled (hw.handled i loc' hi q k hbegan halive)
  . refine forall_event (by simp [Local.first]) fun i loc' hi q hpid hq hholding => ?_
    rcases hborn hi hpid hq with ⟨halive, hboot, hcrash⟩
    exact (shrinks_event hboot hcrash).initializing.trans (hw.holding i loc' hi q hpid halive hholding)
  . refine forall_event (by simp [Local.first]) fun i loc' hi => ?_
    refine forall_event (by simp [Local.first]) fun j loc'' hj q hpid hpid' hq h h' => ?_
    exact hw.alone i loc' hi j loc'' hj q hpid hpid' (hborn hi hpid hq).1 h h'
  . intro q q' hq hq' hhost
    rw [hst, Event.effect_host] at hhost
    rcases hw.alive_event henabled hq with h | ⟨hv, h, _⟩
    . rcases hw.alive_event henabled hq' with h' | ⟨hv', h', _⟩
      . exact hw.hosts q q' h.1 h'.1 hhost
      . subst hv'
        simp only [Event.enabled, Bool.and_eq_true, List.all_eq_true, bne_iff_ne] at henabled
        exact absurd hhost (henabled.2 q h.1)
    . rcases hw.alive_event henabled hq' with h' | ⟨hv', h', _⟩
      . subst hv
        simp only [Event.enabled, Bool.and_eq_true, List.all_eq_true, bne_iff_ne] at henabled
        exact absurd hhost.symm (henabled.2 q' h'.1)
      . simpa using hv.symm.trans hv'
  . intro q hq halive
    rcases hw.alive_event henabled halive with ⟨h, hboot, hcrash⟩ | ⟨rfl, h, _⟩
    . apply hw.ended q ?_ h
      rw [hst, Event.effect_crashed] at hq
      cases v with
      | crash q' =>
        simp only [List.mem_cons] at hq
        rcases hq with rfl | hq
        . exact absurd rfl hcrash
        . exact hq
      | _ => exact hq
    . simp only [Event.enabled, Bool.and_eq_true, Bool.not_eq_true', List.contains_eq_mem,
        decide_eq_false_iff_not] at henabled
      exact henabled.1.2 hq
  . intro q hq
    rw [← Bool.not_eq_true]
    intro hactive
    by_cases halive : q ∈ w.st.alive
    . cases v with
      | crash q' =>
        by_cases hqq : q = q'
        . subst hqq
          rw [hst, Event.effect_booted (.inr rfl)] at hactive
          simp [Node.booted, Node.isEngineActive] at hactive
        . exact hq (by simp [hst, Event.effect_alive, halive, hqq])
      | boot q' => exact hq (List.mem_cons_of_mem _ halive)
      | _ => exact hq halive
    . have := hw.asleep q halive
      rw [rests_event hactive] at this
      contradiction
  . intro q hq h
    have hbusy := hw.busy_event h
    rcases hw.alive_event henabled hq with ⟨halive, _⟩ | ⟨_, hdead, hnone⟩
    . exact names_event (hw.names q halive hbusy)
    . rw [hw.not_busy hdead hnone] at hbusy
      contradiction
  . intro q hq h
    rw [← Bool.not_eq_true]
    intro hbusy
    rcases hw.alive_event henabled hq with ⟨halive, _⟩ | ⟨_, hdead, hnone⟩
    . rcases anyLocal_event hw.fresh h with h | h
      . have := hw.quiet q halive h
        rw [hw.busy_event hbusy] at this
        contradiction
      . simp [Local.releasing, Local.first] at h
    . have := hw.not_busy hdead hnone
      rw [hw.busy_event hbusy] at this
      contradiction

end OneNode
end Events

section Runs

variable {δ : Type} {noteExt : Act Event Answer Loc → State → State → δ → δ}

/-- The processes that run at first are on different nodes, and all have just booted. -/
structure Booted (s : State) : Prop where
  node : ∀ p, s.node p = Node.booted
  hosts : ∀ p q, p ∈ s.alive → q ∈ s.alive → s.host p = s.host q → p = q
  ended : ∀ p, p ∈ s.crashed → p ∉ s.alive

theorem oneNode_init {init : SessionConfig δ} (hlocals : ∀ tid, init.hist.locals tid = none)
    (hbooted : Booted init.st) : OneNode init.world := by
  have hnone {tid : Nat} {loc : Local} : init.world.hist.locals tid = some loc → False := by
    simp [Config.world, hlocals]
  have hfresh : Fresh init.world := fun tid _ => hlocals tid
  have hany (f : Local → Bool) : anyLocal init.world f = false := by
    rw [← Bool.not_eq_true]
    intro h
    rcases (anyLocal_iff hfresh).mp h with ⟨tid, loc, hlocal, _⟩
    exact hnone hlocal
  have hbusy (p : Nat) : busy init.world p = false := by
    simp [busy, hany, Config.st_world, hbooted.node, Node.isEngineActive, Node.booted]
  constructor
  . exact hfresh
  . exact fun _ _ h => (hnone h).elim
  . exact fun _ _ h => (hnone h).elim
  . intro p
    rw [Config.st_world, hbooted.node]
    exact ⟨by simp [Node.booted], by simp [Node.booted]⟩
  . exact fun _ _ h => (hnone h).elim
  . exact fun _ _ h => (hnone h).elim
  . exact fun _ _ h => (hnone h).elim
  . exact hbooted.hosts
  . exact hbooted.ended
  . intro p _
    rw [Config.st_world, hbooted.node]
    rfl
  . intro p _ h
    rw [hbusy] at h
    contradiction
  . exact fun p _ _ => hbusy p

theorem oneNode_of_reach {init c : SessionConfig δ} (hpool : init.pool = [])
    (hlocals : ∀ tid, init.hist.locals tid = none) (hbooted : Booted init.st)
    (h : (sessionSystem noteExt).Reach Exclusive init c) : OneNode c.world := by
  apply inv_of_reach hpool (oneNode_init hlocals hbooted) ?_ ?_ h
  . exact fun w v hw hok henabled => hw.event henabled hok
  . exact fun w tid l x loc hw hok hlocal hprecedes hcovers hguard =>
      hw.turn hlocal hprecedes hguard hok hcovers

/-- In such a run no two processes have an engine registered at the same time. -/
theorem one_node {init c : SessionConfig δ} (hpool : init.pool = [])
    (hlocals : ∀ tid, init.hist.locals tid = none) (hbooted : Booted init.st)
    (h : (sessionSystem noteExt).Reach Exclusive init c) {p q e e' : Nat} (hp : (c.st.node p).engine = some e)
    (hq : (c.st.node q).engine = some e') : p = q := by
  have hinv := oneNode_of_reach hpool hlocals hbooted h
  have hcovered {p e : Nat} (hengine : (c.st.node p).engine = some e) :
      p ∈ c.st.alive ∧ c.st.names p = true := by
    have hactive : (c.st.node p).isEngineActive = true := by simp [Node.isEngineActive, hengine]
    have halive : p ∈ c.st.alive := by
      by_contra hdead
      rw [← Config.st_world, hinv.asleep p hdead] at hactive
      contradiction
    exact ⟨halive, hinv.names p halive (by simp [busy, Config.st_world, hactive])⟩
  rcases hcovered hp with ⟨hpa, hpn⟩
  rcases hcovered hq with ⟨hqa, hqn⟩
  apply hinv.hosts p q hpa hqa
  simp only [State.names, State.affects, Option.any_eq_true, decide_eq_true_eq] at hpn hqn
  rcases hpn with ⟨row, hrow, hpn⟩
  rcases hqn with ⟨row', hrow', hqn⟩
  rw [hrow] at hrow'
  simp only [Option.some.injEq] at hrow'
  subst hrow'
  simpa [hpn, Config.st_world] using hqn

/-- Two processes on different nodes that have just booted. -/
def twoNodes : SessionConfig Unit := { idle with st := { idleState with alive := [0, 1] } }

theorem booted_twoNodes : Booted twoNodes.st :=
  ⟨fun _ => rfl, fun _ _ _ _ h => h, by simp [twoNodes, idleState]⟩

/-- A claimed start of the process `p` up to the call of `initialize()`, as `tid` with the write `w`. -/
def serviceLaunch (p tid w : Nat) : List (Move Event Answer) :=
  [.event (.serviceStart p), .turn tid .ok, .turn tid .ok, .turn tid .ok, .turn tid .ok, .turn tid .ok,
    .turn tid .ok, .turn tid .ok, .turn tid .ok, .turn tid .ok, .event (.database w false), .turn tid .ok]

theorem one_node_launch :
    ∃ c, plainSystem.Reach Exclusive twoNodes c ∧ (c.st.node 0).runs 0 = true ∧
      ∀ q e, (c.st.node q).engine = some e → q = 0 := by
  have hrun : (plainSystem.exec Exclusive twoNodes (serviceLaunch 0 0 0)).map
      (fun c => ((c.st.node 0).runs 0, (c.st.node 0).engine)) = some (true, some 0) := by
    decide +kernel
  rcases System.reach_of_exec_map hrun with ⟨c, hreach, hruns⟩
  simp only [Prod.mk.injEq] at hruns
  refine ⟨c, hreach, hruns.1, fun q e hq => ?_⟩
  exact one_node rfl (fun _ => rfl) booted_twoNodes hreach hq hruns.2

/-- The assumption about leases alone. -/
def Renewed (w : SessionWorld δ) (_a : Act Event Answer Loc) : Prop := Leased w

instance (w : SessionWorld δ) (a : Act Event Answer Loc) : Decidable (Renewed w a) :=
  inferInstanceAs (Decidable (Leased w))

/--
A stop of an idle session passes its liveness check, and the release statement that follows runs
after a start of the same process claimed the session. The start launches its engine on a row that
names nobody, and the other node starts the session as well.
-/
theorem release_overtakes_claim :
    ∃ c, plainSystem.Reach Renewed twoNodes c ∧ (c.st.node 0).runs 0 = true ∧ (c.st.node 1).runs 0 = true := by
  have hrun : (plainSystem.exec Renewed twoNodes
      ([.event (.serviceStop 0), .turn 0 .ok, .turn 0 .ok, .turn 0 .ok, .turn 0 .ok, .turn 0 .ok,
        .event (.database 0 false), .turn 0 .ok, .turn 0 .ok, .turn 0 .ok,
        .event (.serviceStart 0), .turn 2 .ok, .turn 2 .ok, .turn 2 .ok, .turn 0 .ok,
        .turn 2 .ok, .turn 2 .ok, .turn 2 .ok, .turn 2 .ok, .turn 2 .ok, .turn 2 .ok,
        .event (.database 1 false), .turn 2 .ok] ++ serviceLaunch 1 4 2)).map
        (fun c => ((c.st.node 0).runs 0, (c.st.node 1).runs 0)) = some (true, true) := by
    decide +kernel
  rcases System.reach_of_exec_map hrun with ⟨c, hreach, hruns⟩
  simp only [Prod.mk.injEq] at hruns
  exact ⟨c, hreach, hruns⟩

end Runs

end OpenWA.Lifecycle
