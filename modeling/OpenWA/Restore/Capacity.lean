import OpenWA.Async.Restrict
import OpenWA.Restore.Orphans

/-!
This module contains the cap on the concurrent sessions of a node: `start` compares it with the sessions
that are active, and a reconnect attempt registers its engine without a comparison.
-/

namespace OpenWA.Restore

open Async Lifecycle

variable {κ : Type} [DecidableEq κ]

def resolveMaxConcurrentSessions (configured : Nat) : Option Nat := if configured = 0 then none else some configured

/-- The active sessions without the one that `start` is called for. -/
def Gateway.otherActiveIds (ids : List κ) (p : Nat) (g : Gateway κ) (id : κ) : List κ :=
  (g.getActiveSessionIds ids p).filter fun i => i ≠ id

/-- The cap check of `start` has the outcome that the active sessions give it. -/
def decidesCapacity (ids : List κ) (p : Nat) (configured : Nat) (l : κ × Loc) (x : Answer) (g : Gateway κ) : Bool :=
  l.2.place ≠ .startChecks ||
    decide (x = .capacity) == (resolveMaxConcurrentSessions configured).any fun maxConcurrentSessions =>
      maxConcurrentSessions ≤ (g.otherActiveIds ids p l.1).length

/-- The start that reserved a session, and whether it has passed the cap check. -/
abbrev Slots (κ : Type) := κ → Option (Nat × Bool)

def noteSlots (p : Nat) (a : Act (GatewayEvent κ) Answer (κ × Loc)) (g _g' : Gateway κ) (slots : Slots κ) : Slots κ :=
  match a with
  | .turn tid (id, l) x =>
    match l.place with
    | .startReserve =>
      if ((g.sessions id).node p).initializing then slots else Function.update slots id (some (tid, false))
    | .startChecks =>
      if (g.engine p id).isSome || x = .capacity then slots
      else Function.update slots id ((slots id).map fun slot => (slot.1, true))
    | .startRelease => Function.update slots id none
    | _ => slots
  | .event .. => slots

/-- One node whose starts are capped. -/
def cappedGateway (ids : List κ) (p : Nat) (shares : Bool) (configured : Nat) :
    System (Gateway κ) Answer (κ × Loc) LifecycleError (GatewayEvent κ) (Slots κ) where
  event v g := (gatewayEvent ids p shares v g).map fun r => (r.1, r.2.restrict (decidesCapacity ids p configured))
  note := noteSlots p

abbrev CappedWorld (κ : Type) := World (Gateway κ) (Slots κ)

/-- An engine of the session is registered, or a start of it has passed the cap check and is not over. -/
def holdsSlot (p : Nat) (w : CappedWorld κ) (id : κ) : Bool :=
  (w.st.engine p id).isSome || (w.hist id).any (·.2)

/-- A reconnect attempt only registers its engine where the other sessions leave a slot. -/
def hasRoom (ids : List κ) (p : Nat) (configured : Nat) (w : CappedWorld κ)
    (a : Act (GatewayEvent κ) Answer (κ × Loc)) : Bool :=
  match a with
  | .turn _ (id, ⟨_, .reconnectCreate ..⟩) _ => (ids.filter fun i => i ≠ id).countP (holdsSlot p w) < configured
  | _ => true

section Outline

variable {ids : List κ} {p : Nat} {shares : Bool} {configured : Nat}

structure WithinCap (ids : List κ) (p : Nat) (configured : Nat) (w : CappedWorld κ) : Prop where
  known : ∀ id e, w.st.engine p id = some e → id ∈ ids
  reserved : ∀ id, (w.hist id).isSome = ((w.st.sessions id).node p).initializing
  started : ∀ id tid passed, w.hist id = some (tid, passed) → tid < w.started
  cap : ids.countP (holdsSlot p w) ≤ configured

/-- What is known of the runs: a slot that an activation reserved stays its own. -/
def capacity (ids : List κ) (p : Nat) (shares : Bool) (configured : Nat) :
    Outline (cappedGateway ids p shares configured) where
  ok w a := hasRoom ids p configured w a = true
  inv := WithinCap ids p configured
  rely i w w' := ∀ id passed, w.hist id = some (i, passed) → w'.hist id = some (i, passed)
  chk _ _ _ := True
  post _ _ _ := True

variable {i : Nat} {w : CappedWorld κ} {g g' : Gateway κ} {id : κ} {l : Loc} {x : Answer}

/-- No engine is registered and no session reserved or let go by the step. -/
structure Quiet (p : Nat) (g g' : Gateway κ) : Prop where
  engine : ∀ id e, g'.engine p id = some e → g.engine p id = some e
  initializing : ∀ id, ((g'.sessions id).node p).initializing = ((g.sessions id).node p).initializing

theorem Quiet.inv {a : Act (GatewayEvent κ) Answer (κ × Loc)} (h : Quiet p w.st g')
    (hhist : noteSlots p a w.st g' w.hist = w.hist) (hinv : WithinCap ids p configured w) :
    WithinCap ids p configured ((cappedGateway ids p shares configured).after w a g') := by
  have heq : ((cappedGateway ids p shares configured).after w a g').hist = w.hist := hhist
  refine ⟨fun id e he => hinv.known id e (h.engine id e he), fun id => ?_, fun id tid passed hslot => ?_, ?_⟩
  . rw [heq, hinv.reserved]
    exact (h.initializing id).symm
  . have hlt := hinv.started id tid passed (heq ▸ hslot)
    cases a with
    | event => exact Nat.lt_succ_of_lt hlt
    | turn => exact hlt
  . refine Nat.le_trans (List.countP_mono_left fun id _ hslot => ?_) hinv.cap
    simp only [holdsSlot, heq, Bool.or_eq_true] at hslot ⊢
    refine hslot.imp_left fun hengine => ?_
    rw [Option.isSome_iff_exists] at hengine ⊢
    obtain ⟨e, he⟩ := hengine
    exact ⟨e, h.engine id e he⟩

theorem Quiet.keeps {a : Act (GatewayEvent κ) Answer (κ × Loc)} (h : Quiet p w.st g')
    (hhist : noteSlots p a w.st g' w.hist = w.hist) (hinv : WithinCap ids p configured w) :
    (capacity ids p shares configured).Keeps i w a g' where
  chk := trivial
  inv := h.inv hhist hinv
  rely _ _ _ id _ hslot := (congrFun hhist id).trans hslot

theorem node_turn (hguard : guard l x (g.sessions id) = true) (i : κ) :
    ((g.setSession id (effect l x (g.sessions id))).sessions i).node p =
      if i = id ∧ p = l.pid then l.place.memory x (g.sessions id) ((g.sessions id).node p)
      else (g.sessions i).node p := by
  simp only [Gateway.setSession]
  by_cases hid : i = id
  . subst hid
    simp [effect_node hguard]
  . simp [hid]

theorem quiet_turn (hpt : l.place.registers = false) (hguard : guard l x (g.sessions id) = true) :
    Quiet p g (g.setSession id (effect l x (g.sessions id))) := by
  have hshrinks := Node.Shrinks.memory hpt x (g.sessions id) (n := (g.sessions id).node p)
  constructor
  . intro i e he
    unfold Gateway.engine at he ⊢
    rw [node_turn hguard] at he
    split at he
    . next hi =>
      rw [hi.1]
      rcases hshrinks.engine with hsame | hnone
      . exact hsame.symm.trans he
      . rw [hnone] at he
        contradiction
    . exact he
  . intro i
    rw [node_turn hguard]
    split
    . next hi =>
      rw [hi.1]
      exact hshrinks.initializing
    . rfl

omit [DecidableEq κ] in
theorem initializing_showRows (shown : Bool) (rows : κ → Option Session) (i : κ) :
    (((g.showRows shown rows).sessions i).node p).initializing = ((g.sessions i).node p).initializing := by
  cases shown <;> rfl

theorem initializing_reconcile (others : List κ) (i : κ) :
    (((g.reconcile p others).sessions i).node p).initializing = ((g.sessions i).node p).initializing := by
  unfold Gateway.reconcile
  dsimp only
  split
  . simp only [Gateway.stopOrphanEngines]
    split
    . rw [State.act_node_self]
      exact (Node.Shrinks.retire.trans Node.Shrinks.tearRegistered).initializing
    . rfl
  . split
    . rfl
    . split <;> rfl

theorem initializing_orphanTorn (pending : List (κ × Nat)) (id : κ) (e : Nat) (tornDown : Bool) (i : κ) :
    (((g.orphanTorn p pending id e tornDown).sessions i).node p).initializing =
      ((g.sessions i).node p).initializing := by
  simp only [Gateway.orphanTorn, Gateway.setSession]
  split
  . next hi =>
    rw [State.act_node_self, hi]
    exact (Node.Shrinks.deleteIfLive e).initializing
  . rfl

omit [DecidableEq κ] in
theorem initializing_refuse (i : κ) :
    (((g.refuse shares).sessions i).node p).initializing = ((g.sessions i).node p).initializing := by
  unfold Gateway.refuse
  split <;> first | exact initializing_showRows _ _ i | rfl

theorem initializing_event {v : GatewayEvent κ} {t : Task (Gateway κ) Answer (κ × Loc) LifecycleError Unit}
    (h : gatewayEvent ids p shares v g = some (g', t)) (i : κ) :
    ((g'.sessions i).node p).initializing = ((g.sessions i).node p).initializing := by
  unfold gatewayEvent at h
  split at h
  . split at h
    . next id v henabled =>
      simp only [Bool.and_eq_true] at henabled
      simp only [Option.some.injEq, Prod.mk.injEq] at h
      obtain ⟨rfl, -⟩ := h
      simp only [Gateway.setSession]
      split
      . next hi =>
        subst hi
        rw [Event.effect_node]
        split
        . refine (Node.Shrinks.event v ?_ ?_).initializing
          . rintro q rfl
            exact absurd henabled.1.2 (by simp [onNode])
          . rintro q rfl
            exact absurd henabled.1.2 (by simp [onNode])
        . rfl
      . rfl
    . contradiction
  all_goals try simp only [Option.some.injEq, Prod.mk.injEq] at h
  -- the cases follow the equations of `gatewayEvent`
  . exact h.1 ▸ rfl
  . exact h.1 ▸ initializing_reconcile _ i
  . split at h
    . simp only [Option.some.injEq, Prod.mk.injEq] at h
      exact h.1 ▸ initializing_orphanTorn _ _ _ _ i
    . contradiction
  . exact h.1 ▸ rfl
  . exact h.1 ▸ rfl
  . exact h.1 ▸ initializing_showRows _ _ i
  . exact h.1 ▸ initializing_showRows _ _ i
  . exact h.1 ▸ initializing_showRows _ _ i
  all_goals try exact h.1 ▸ initializing_refuse i
  . exact h.1 ▸ rfl
  . contradiction

theorem quiet_event {v : GatewayEvent κ} {t : Task (Gateway κ) Answer (κ × Loc) LifecycleError Unit}
    (hknown : ∀ id e, g.engine p id = some e → id ∈ ids) (h : gatewayEvent ids p shares v g = some (g', t)) :
    Quiet p g g' :=
  ⟨(tightens_event hknown h).engine, initializing_event h⟩

section Turns

/-- The world after a turn of a function of the session. -/
def afterCapped (ids : List κ) (p : Nat) (shares : Bool) (configured : Nat) (i : Nat) (id : κ) (l : Loc) (x : Answer)
    (w : CappedWorld κ) : CappedWorld κ :=
  (cappedGateway ids p shares configured).after w (.turn i (id, l) x)
    (w.st.setSession id (effect l x (w.st.sessions id)))

theorem countP_le_of_others {q q' : κ → Bool} {m : Nat} (hnodup : ids.Nodup)
    (hroom : (ids.filter fun i => i ≠ id).countP q < m) (h : ∀ i, i ≠ id → q' i = true → q i = true) :
    ids.countP q' ≤ m := by
  have hothers : (ids.filter fun i => i ≠ id).countP q' ≤ (ids.filter fun i => i ≠ id).countP q := by
    refine List.countP_mono_left fun i hi => h i ?_
    simpa using (List.mem_filter.mp hi).2
  have hself : (ids.filter fun i => !(decide (i ≠ id))).countP q' ≤ 1 := by
    calc (ids.filter fun i => !(decide (i ≠ id))).countP q'
        ≤ (ids.filter fun i => !(decide (i ≠ id))).length := List.countP_le_length
      _ = ids.count id := by
        simp only [List.count, List.countP_eq_length_filter, ne_eq, decide_not, Bool.not_not]
        rfl
      _ ≤ 1 := List.nodup_iff_count.mp hnodup id
  rw [List.countP_eq_countP_filter_add ids q' fun i => i ≠ id]
  omega

theorem engine_turn (hguard : guard l x (g.sessions id) = true) {i : κ} {e : Nat}
    (he : (g.setSession id (effect l x (g.sessions id))).engine p i = some e) :
    g.engine p i = some e ∨ i = id := by
  unfold Gateway.engine at he ⊢
  rw [node_turn hguard] at he
  split at he
  . next hi => exact .inr hi.1
  . exact .inl he

theorem holdsSlot_turn (hguard : guard l x (w.st.sessions id) = true)
    (hhist : (afterCapped ids p shares configured i id l x w).hist = w.hist) {i' : κ} (hne : i' ≠ id)
    (h : holdsSlot p (afterCapped ids p shares configured i id l x w) i' = true) : holdsSlot p w i' = true := by
  simp only [holdsSlot, hhist, Bool.or_eq_true] at h ⊢
  refine h.imp_left fun hengine => ?_
  rw [Option.isSome_iff_exists] at hengine ⊢
  obtain ⟨e, he⟩ := hengine
  exact ⟨e, (engine_turn hguard he).resolve_right hne⟩

theorem keeps_create (hid : id ∈ ids) (hguard : guard l x (w.st.sessions id) = true)
    (hcreates : creates l.place = true) (hinv : WithinCap ids p configured w)
    (hcap : ids.countP (holdsSlot p (afterCapped ids p shares configured i id l x w)) ≤ configured) :
    (capacity ids p shares configured).Keeps i w (.turn i (id, l) x)
      (w.st.setSession id (effect l x (w.st.sessions id))) := by
  have hhist : (afterCapped ids p shares configured i id l x w).hist = w.hist := by
    cases l with
    | mk q pt => cases pt <;> first | rfl | contradiction
  refine ⟨trivial, ⟨?_, fun id' => ?_, ?_, hcap⟩, ?_⟩
  . intro id' e he
    rcases engine_turn hguard he with he | rfl
    . exact hinv.known id' e he
    . exact hid
  . refine (congrArg Option.isSome (congrFun hhist id')).trans ((hinv.reserved id').trans ?_)
    refine Eq.symm ?_
    refine (congrArg Node.initializing (node_turn hguard id')).trans ?_
    split
    . next hi =>
      rw [hi.1]
      cases l with
      | mk q pt => cases pt <;> first | rfl | contradiction
    . rfl
  . exact fun id' tid passed hslot => hinv.started id' tid passed ((congrFun hhist id').symm.trans hslot)
  . exact fun _ _ _ id' _ hslot => (congrFun hhist id').trans hslot

/-- The turns of `start` that reserve the session, take a slot, fill it and let the session go. -/
def inStart (pt : Place) : Bool :=
  match pt with
  | .startReserve | .startChecks | .startCreate _ | .startRelease => true
  | _ => false

theorem noteSlots_turn (hpt : inStart l.place = false) (g g' : Gateway κ) (slots : Slots κ) :
    noteSlots p (.turn i (id, l) x) g g' slots = slots := by
  cases l with
  | mk q pt => cases pt <;> first | rfl | contradiction

theorem keeps_outside (hnodup : ids.Nodup) (hid : id ∈ ids) (hpt : inStart l.place = false)
    (hguard : guard l x (w.st.sessions id) = true) (hinv : WithinCap ids p configured w)
    (hok : hasRoom ids p configured w (.turn i (id, l) x) = true) :
    (capacity ids p shares configured).Keeps i w (.turn i (id, l) x)
      (w.st.setSession id (effect l x (w.st.sessions id))) := by
  cases hregisters : l.place.registers with
  | false => exact (quiet_turn hregisters hguard).keeps (noteSlots_turn hpt _ _ _) hinv
  | true =>
    rcases l with ⟨q, pt⟩
    cases pt with
    | reconnectCreate k session =>
      refine keeps_create hid hguard rfl hinv ?_
      simp only [hasRoom, decide_eq_true_eq] at hok
      exact countP_le_of_others hnodup hok fun i' hne hslot => holdsSlot_turn hguard rfl hne hslot
    | _ => contradiction

/-- The activation `i` has reserved the session; `passed` says whether it passed the cap check. -/
def Reserved (i : Nat) (id : κ) (passed : Bool) (w : CappedWorld κ) : Prop := w.hist id = some (i, passed)

theorem countP_update_le {slot : Option (Nat × Bool)} (hinv : WithinCap ids p configured w) (hslot : slot.any (·.2) = false) :
    ids.countP (fun i' => (w.st.engine p i').isSome || (Function.update w.hist id slot i').any (·.2)) ≤ configured := by
  refine Nat.le_trans (List.countP_mono_left fun i' _ h => ?_) hinv.cap
  by_cases hi : i' = id
  . subst hi
    rw [Function.update_self, hslot, Bool.or_false] at h
    simp [holdsSlot, h]
  . rwa [Function.update_of_ne hi] at h

/-- Only `start` changes what is noted of the session, and there only for the session itself. -/
theorem keeps_start {slot : Option (Nat × Bool)} (hguard : guard l x (w.st.sessions id) = true)
    (hinv : WithinCap ids p configured w) (hengine : ∀ n, (l.place.memory x (w.st.sessions id) n).engine = n.engine)
    (hhist : noteSlots p (.turn i (id, l) x) w.st (w.st.setSession id (effect l x (w.st.sessions id))) w.hist =
      Function.update w.hist id slot)
    (hreserved : slot.isSome = (((w.st.setSession id (effect l x (w.st.sessions id))).sessions id).node p).initializing)
    (hstarted : ∀ tid passed, slot = some (tid, passed) → tid < w.started)
    (hown : ∀ j passed, j ≠ i → w.hist id ≠ some (j, passed))
    (hcap : ids.countP (fun i' => (w.st.engine p i').isSome || (Function.update w.hist id slot i').any (·.2)) ≤ configured) :
    (capacity ids p shares configured).Keeps i w (.turn i (id, l) x)
      (w.st.setSession id (effect l x (w.st.sessions id))) := by
  have hslots : (afterCapped ids p shares configured i id l x w).hist = Function.update w.hist id slot := hhist
  have hengine (id' : κ) : (afterCapped ids p shares configured i id l x w).st.engine p id' = w.st.engine p id' := by
    refine (congrArg Node.engine (node_turn hguard id')).trans ?_
    split
    . next hi => rw [hengine, hi.1]; rfl
    . rfl
  have hheld : holdsSlot p (afterCapped ids p shares configured i id l x w) = fun i' =>
      (w.st.engine p i').isSome || (Function.update w.hist id slot i').any (·.2) := by
    funext i'
    rw [holdsSlot, hslots, hengine]
  have hslots (id' : κ) : (afterCapped ids p shares configured i id l x w).hist id' =
      if id' = id then slot else w.hist id' := by
    rw [hslots, Function.update_apply]
  refine ⟨trivial, ⟨?_, fun id' => ?_, ?_, hheld ▸ hcap⟩, ?_⟩
  . exact fun id' e he => hinv.known id' e ((hengine id').symm.trans he)
  . refine (congrArg Option.isSome (hslots id')).trans ?_
    split
    . next heq => exact heq ▸ hreserved
    . next hne =>
      refine (hinv.reserved id').trans (congrArg Node.initializing ?_)
      refine ((node_turn hguard id').trans ?_).symm
      rw [if_neg fun h => hne h.1]
  . intro id' tid passed hslot
    have hslot := (hslots id').symm.trans hslot
    split at hslot
    . exact hstarted tid passed hslot
    . exact hinv.started id' tid passed hslot
  . intro j _ hji id' passed hslot
    refine (hslots id').trans ?_
    split
    . next heq => exact absurd (heq ▸ hslot) (hown j passed hji)
    . exact hslot

end Turns

section Functions

/-- The runs whose cap checks have the outcome that the node gives them. -/
def capped (ids : List κ) (p : Nat) (shares : Bool) (configured : Nat) : Outline (cappedGateway ids p shares configured) :=
  (capacity ids p shares configured).restrict (decidesCapacity ids p configured)

theorem capped_refl (i : Nat) (w : CappedWorld κ) : (capped ids p shares configured).rely i w w := fun _ _ h => h

theorem capped_trans (i : Nat) (w₁ w₂ w₃ : CappedWorld κ) (h : (capped ids p shares configured).rely i w₁ w₂)
    (h' : (capped ids p shares configured).rely i w₂ w₃) : (capped ids p shares configured).rely i w₁ w₃ :=
  fun id passed hslot => h' id passed (h id passed hslot)

theorem steady_outside {α : Type} {t : Job α} (hnodup : ids.Nodup) (hid : id ∈ ids)
    (hturns : Turns (fun pt => !inStart pt) t) :
    (capped ids p shares configured).Steady i (inSession id t) := by
  induction t with
  | pure a => exact fun w => capped_refl i w
  | throw e => exact fun w => capped_refl i w
  | turn l ready upd next ih =>
    intro w w' x hrely hinv _ hready hok
    rcases hturns.2 x (w'.st.sessions id) hready with ⟨hguard, heffect, hnext⟩
    have hpt : inStart l.place = false := by simpa using hturns.1
    have hkeeps : (capped ids p shares configured).Keeps i w' (.turn i (id, l) x)
        (w'.st.setSession id (effect l x (w'.st.sessions id))) :=
      (keeps_outside hnodup hid hpt hguard hinv hok.1).restrict
    have hhist : (afterCapped ids p shares configured i id l x w').hist = w'.hist :=
      noteSlots_turn hpt _ (w'.st.setSession id (effect l x (w'.st.sessions id))) _
    have hown : (capped ids p shares configured).rely i w' (afterCapped ids p shares configured i id l x w') :=
      fun id' _ hslot => (congrFun hhist id').trans hslot
    have hsafe := (ih x (w'.st.sessions id) hnext).later capped_trans (capped_trans i _ _ _ hrely hown)
    unfold afterCapped at hsafe
    rw [← heffect] at hkeeps hsafe
    exact ⟨hkeeps, hsafe⟩

theorem safe_atPlace {α : Type} {pt : Place} {result : Answer → State → Except LifecycleError α}
    {P : CappedWorld κ → Prop} {Q : α → CappedWorld κ → Prop} {E : LifecycleError → CappedWorld κ → Prop}
    (hstable : ∀ w w', (capped ids p shares configured).rely i w w' → P w → P w') (hP : P w)
    (h : ∀ w' x, P w' → WithinCap ids p configured w' → i < w'.started → Lifecycle.guard ⟨p, pt⟩ x (w'.st.sessions id) = true →
      decidesCapacity ids p configured (id, ⟨p, pt⟩) x w'.st = true →
      (capacity ids p shares configured).Keeps i w' (.turn i (id, ⟨p, pt⟩) x)
          (w'.st.setSession id (effect ⟨p, pt⟩ x (w'.st.sessions id))) ∧
        (∀ a, result x (w'.st.sessions id) = .ok a → Q a (afterCapped ids p shares configured i id ⟨p, pt⟩ x w')) ∧
        ∀ e, result x (w'.st.sessions id) = .error e → E e (afterCapped ids p shares configured i id ⟨p, pt⟩ x w')) :
    (capped ids p shares configured).Safe i (inSession id (run p pt result)) w Q E := by
  intro w' x hrely hinv hlt hready hok
  rcases h w' x (hstable w w' hrely hP) hinv hlt hready hok.2 with ⟨hkeeps, hvalue, herror⟩
  exact ⟨hkeeps.restrict, Outline.safe_zoom_ofExcept hvalue herror⟩

theorem stable_reserved (passed : Bool) (w w' : CappedWorld κ) (hrely : (capped ids p shares configured).rely i w w')
    (h : Reserved i id passed w) : Reserved i id passed w' := hrely id passed h

theorem slots_update {slot : Option (Nat × Bool)} {w' : CappedWorld κ} (h : w'.hist = Function.update w.hist id slot) :
    w'.hist id = slot := by
  rw [h, Function.update_self]

theorem safe_startReserve :
    (capped ids p shares configured).Safe i (inSession id (run p .startReserve fun _ s =>
      if (s.node p).initializing then .error (.http 400) else .ok ())) w (fun _ => Reserved i id false)
      (fun _ _ => True) := by
  refine safe_atPlace (P := fun _ => True) (fun _ _ _ _ => trivial) trivial ?_
  intro w' x _ hinv hlt hguard _
  cases hinit : ((w'.st.sessions id).node p).initializing with
  | true =>
    have hquiet : Quiet p w'.st (w'.st.setSession id (effect ⟨p, .startReserve⟩ x (w'.st.sessions id))) := by
      constructor
      . intro i' e he
        unfold Gateway.engine at he ⊢
        rw [node_turn hguard] at he
        split at he
        . next hi => exact hi.1 ▸ he
        . exact he
      . intro i'
        rw [node_turn hguard]
        split
        . next hi => exact (hi.1 ▸ hinit).symm
        . rfl
    refine ⟨hquiet.keeps (by simp [noteSlots, hinit]) hinv, fun _ h => ?_, fun _ _ => trivial⟩
    simp at h
  | false =>
    have hfree : w'.hist id = none := by
      have := hinv.reserved id
      rw [hinit] at this
      simpa using this
    have hhist : noteSlots p (.turn i (id, ⟨p, .startReserve⟩) x) w'.st
        (w'.st.setSession id (effect ⟨p, .startReserve⟩ x (w'.st.sessions id))) w'.hist =
          Function.update w'.hist id (some (i, false)) := by
      simp [noteSlots, hinit]
    refine ⟨keeps_start hguard hinv (fun _ => rfl) hhist ?_ ?_ ?_ ?_, fun _ _ => slots_update hhist, fun _ _ => trivial⟩
    . rw [node_turn hguard, if_pos ⟨rfl, rfl⟩]
      rfl
    . rintro tid passed heq
      simp only [Option.some.injEq, Prod.mk.injEq] at heq
      exact heq.1 ▸ hlt
    . intro j passed _ h
      rw [hfree] at h
      contradiction
    . exact countP_update_le hinv rfl

theorem countP_holdsSlot_le (hinv : WithinCap ids p configured w) (id : κ) :
    (ids.filter fun i => i ≠ id).countP (holdsSlot p w) ≤ (w.st.otherActiveIds ids p id).length := by
  have hactive : w.st.otherActiveIds ids p id = (ids.filter fun i => i ≠ id).filter fun i =>
      (w.st.engine p i).isSome || ((w.st.sessions i).node p).initializing := by
    rw [Gateway.otherActiveIds, Gateway.getActiveSessionIds, List.filter_filter, List.filter_filter]
    congr 1
    funext i
    exact Bool.and_comm _ _
  rw [hactive, ← List.countP_eq_length_filter]
  refine List.countP_mono_left fun i _ hslot => ?_
  simp only [holdsSlot, Bool.or_eq_true] at hslot ⊢
  refine hslot.imp_right fun hpassed => ?_
  rw [← hinv.reserved i]
  cases hhist : w.hist i with
  | none => simp [hhist] at hpassed
  | some slot => rfl

theorem safe_startChecks (hnodup : ids.Nodup) (hpositive : 0 < configured) (h : Reserved i id false w) :
    (capped ids p shares configured).Safe i (inSession id (run p .startChecks fun x s =>
      if (s.node p).engine.isSome || x = .capacity then .error (.http 400) else .ok ())) w
      (fun _ => Reserved i id true) (fun _ => Reserved i id false) := by
  refine safe_atPlace (stable_reserved false) h ?_
  intro w' x hreserved hinv hlt hguard hdecides
  have hquiet : Quiet p w'.st (w'.st.setSession id (effect ⟨p, .startChecks⟩ x (w'.st.sessions id))) :=
    quiet_turn rfl hguard
  cases hrefused : ((w'.st.engine p id).isSome || decide (x = .capacity)) with
  | true =>
    have hhist : noteSlots p (.turn i (id, ⟨p, .startChecks⟩) x) w'.st
        (w'.st.setSession id (effect ⟨p, .startChecks⟩ x (w'.st.sessions id))) w'.hist = w'.hist := by
      simp only [noteSlots]
      rw [if_pos (by simpa using hrefused)]
    refine ⟨hquiet.keeps hhist hinv, fun _ hok => ?_, fun _ _ => (congrFun hhist id).trans hreserved⟩
    rw [if_pos (by simpa [Gateway.engine] using hrefused)] at hok
    contradiction
  | false =>
    have hhist : noteSlots p (.turn i (id, ⟨p, .startChecks⟩) x) w'.st
        (w'.st.setSession id (effect ⟨p, .startChecks⟩ x (w'.st.sessions id))) w'.hist =
          Function.update w'.hist id (some (i, true)) := by
      simp only [noteSlots]
      rw [if_neg (by simpa using hrefused), hreserved]
      rfl
    have hroom : (ids.filter fun i => i ≠ id).countP (holdsSlot p w') < configured := by
      refine Nat.lt_of_le_of_lt (countP_holdsSlot_le hinv id) ?_
      simp only [Bool.or_eq_false_iff] at hrefused
      simp [decidesCapacity, resolveMaxConcurrentSessions, hrefused.2, Nat.ne_of_gt hpositive] at hdecides
      exact hdecides
    refine ⟨keeps_start hguard hinv (fun _ => rfl) hhist ?_ ?_ ?_ ?_, fun _ _ => slots_update hhist, fun _ herr => ?_⟩
    . have hreserves := hinv.reserved id
      rw [hreserved] at hreserves
      exact hreserves.trans (hquiet.initializing id).symm
    . rintro tid passed heq
      simp only [Option.some.injEq, Prod.mk.injEq] at heq
      exact heq.1 ▸ hlt
    . intro j passed hji hslot
      rw [hreserved] at hslot
      simp only [Option.some.injEq, Prod.mk.injEq] at hslot
      exact hji hslot.1.symm
    . refine countP_le_of_others hnodup hroom fun i' hne hslot => ?_
      simpa [holdsSlot, hne] using hslot
    . rw [if_neg (by simpa [Gateway.engine] using hrefused)] at herr
      contradiction

theorem safe_startCreate {session : Session} (hid : id ∈ ids) (h : Reserved i id true w) :
    (capped ids p shares configured).Safe i (inSession id (run p (.startCreate session) fun _ s => .ok (s.node p).created))
      w (fun _ => Reserved i id true) (fun _ => Reserved i id true) := by
  refine safe_atPlace (stable_reserved true) h ?_
  intro w' x hreserved hinv _ hguard _
  refine ⟨keeps_create hid hguard rfl hinv ?_, fun _ _ => hreserved, fun _ _ => hreserved⟩
  refine Nat.le_trans (List.countP_mono_left fun i' _ hslot => ?_) hinv.cap
  by_cases hi : i' = id
  . subst hi
    have hpassed : w'.hist i' = some (i, true) := hreserved
    simp [holdsSlot, hpassed]
  . exact holdsSlot_turn hguard rfl hi hslot

theorem safe_startRelease {passed : Bool} (h : Reserved i id passed w) :
    (capped ids p shares configured).Safe i (inSession id (pass p .startRelease)) w (fun _ _ => True) (fun _ _ => True) := by
  refine safe_atPlace (stable_reserved passed) h ?_
  intro w' x hreserved hinv _ hguard _
  refine ⟨keeps_start hguard hinv (fun _ => rfl) rfl ?_ ?_ ?_ ?_, fun _ _ => trivial, fun _ _ => trivial⟩
  . rw [node_turn hguard, if_pos ⟨rfl, rfl⟩]
    rfl
  . rintro tid passed heq
    contradiction
  . intro j passed' hji hslot
    rw [hreserved] at hslot
    simp only [Option.some.injEq, Prod.mk.injEq] at hslot
    exact hji hslot.1.symm
  . exact countP_update_le hinv rfl

theorem inStart_of_isLaunch (pt : Place) (h : pt.isLaunch = true) : (!inStart pt) = true := by
  cases pt <;> first | rfl | contradiction

theorem safe_outside {α : Type} {t : Job α} {passed : Bool} (hnodup : ids.Nodup) (hid : id ∈ ids)
    (h : Reserved i id passed w) (hturns : Turns (fun pt => !inStart pt) t) :
    (capped ids p shares configured).Safe i (inSession id t) w (fun _ => Reserved i id passed)
      (fun _ => Reserved i id passed) :=
  (steady_outside hnodup hid hturns w).mono (fun _ w' hrely => stable_reserved passed w w' hrely h) fun _ w' hrely =>
    stable_reserved passed w w' hrely h

theorem turns_startFailed (err : LifecycleError) : Turns (fun pt => !inStart pt) (startFailed p err) := by
  refine turns_seq (turns_run rfl) fun orphan => ?_
  cases orphan with
  | none => trivial
  | some e =>
    refine turns_seq (turns_run rfl) fun written => ?_
    cases written with
    | none => trivial
    | some w => exact turns_seq (turns_run rfl) fun _ => trivial

theorem safe_startPrepare (hnodup : ids.Nodup) (hid : id ∈ ids) (hpositive : 0 < configured) (h : Reserved i id false w) :
    (capped ids p shares configured).Safe i (inSession id (startPrepare p)) w (fun _ => Reserved i id true)
      (fun _ w => ∃ passed, Reserved i id passed w) := by
  apply Outline.safe_zoom_seq (safe_outside hnodup hid h (turns_run rfl))
  . intro session w hw
    apply Outline.safe_zoom_seq (safe_startChecks hnodup hpositive hw)
    . intro _ w hw
      apply Outline.safe_zoom_seq (safe_outside hnodup hid hw (turns_run rfl))
      . intro _ w hw
        exact (safe_startCreate hid hw).mono (fun _ _ h => h) fun _ _ h => ⟨true, h⟩
      . exact fun _ _ hw => ⟨true, hw⟩
    . exact fun _ _ hw => ⟨false, hw⟩
  . exact fun _ _ hw => ⟨false, hw⟩

theorem safe_cappedStart (hnodup : ids.Nodup) (hid : id ∈ ids) (hpositive : 0 < configured) :
    (capped ids p shares configured).Safe i (inSession id (start p)) w (fun _ _ => True) (fun _ _ => True) := by
  have hreserved : ∀ w, Reserved i id false w → (capped ids p shares configured).Safe i (inSession id (startReserved p)) w
      (fun _ w => ∃ passed, Reserved i id passed w) (fun _ w => ∃ passed, Reserved i id passed w) := by
    intro w hw
    apply Outline.safe_zoom_seq (safe_startPrepare hnodup hid hpositive hw)
    . intro e w hw
      have hbuilt : Turns (fun pt => !inStart pt) ((initializeEngine p e).catch' (startFailed p) >>= fun _ => startLaunched p) := by
        refine turns_seq (turns_catch (turns_initializeEngine inStart_of_isLaunch p e) turns_startFailed) fun _ => ?_
        exact turns_seq (turns_run rfl) fun stopping => turns_unlessRetired inStart_of_isLaunch p stopping
      exact (safe_outside hnodup hid hw hbuilt).mono (fun _ _ h => ⟨true, h⟩) fun _ _ h => ⟨true, h⟩
    . exact fun _ _ hw => hw
  apply Outline.safe_zoom_seq safe_startReserve
  . intro _ w hw
    apply Outline.safe_zoom_seq (Q := fun _ _ => True) (E := fun _ _ => True)
    . apply Outline.safe_zoom_finally (hreserved w hw)
      . rintro _ w ⟨passed, hpassed⟩
        exact safe_startRelease hpassed
      . rintro _ w ⟨passed, hpassed⟩
        exact safe_startRelease hpassed
    . intro _ w _
      have hlast : Turns (fun pt => !inStart pt) (requireSession p .requireSession >>= fun _ => (pure () : Job Unit)) :=
        turns_seq (turns_run rfl) fun _ => trivial
      exact (steady_outside hnodup hid hlast w).mono (fun _ _ _ => trivial) fun _ _ _ => trivial
    . exact fun _ _ _ => trivial
  . exact fun _ _ _ => trivial

theorem safe_cappedEvent {v : Event} {s : State} (hnodup : ids.Nodup) (hid : id ∈ ids) (hpositive : 0 < configured)
    (hv : onNode p v = true) :
    (capped ids p shares configured).Safe i (inSession id (v.task s)) w (fun _ _ => True) (fun _ _ => True) := by
  cases hstart : v.starts with
  | true =>
    cases v with
    | start q =>
      have heq : q = p := by simpa [onNode] using hv
      subst heq
      exact safe_cappedStart hnodup hid hpositive
    | _ => contradiction
  | false =>
    have hturns : Turns (fun pt => !inStart pt) (v.task s) := by
      refine turns_task ((within_task v s).mono fun l hcovers => ?_)
      rcases l with ⟨q, pt⟩
      cases pt with
      | startReserve | startChecks | startCreate | startRelease =>
        have hstart' : v.starts = true := hcovers
        rw [hstart] at hstart'
        contradiction
      | _ => rfl
    exact (steady_outside hnodup hid hturns w).mono (fun _ _ _ => trivial) fun _ _ _ => trivial

theorem capacity_valid (hnodup : ids.Nodup) (hpositive : 0 < configured) :
    (capacity ids p shares configured).Valid where
  refl _ _ := fun _ _ h => h
  trans _ _ _ _ h h' := fun id passed hslot => h' id passed (h id passed hslot)
  event w v s t hinv _ hevent := by
    simp only [cappedGateway, Option.map_eq_some_iff, Prod.mk.injEq] at hevent
    obtain ⟨⟨s', t'⟩, hevent, rfl, rfl⟩ := hevent
    refine ⟨(quiet_event hinv.known hevent).keeps rfl hinv, Outline.Safe.restrict ?_⟩
    rcases task_of_event hevent with rfl | ⟨id, v', hid, hv, rfl⟩
    . trivial
    . exact safe_cappedEvent hnodup hid hpositive hv

end Functions

/--
The registered engines of a node never exceed the cap: in every run in which each reconnect attempt
registers its engine while the other sessions leave a slot.
-/
theorem registered_le_cap {init c : Config (Gateway κ) Answer (κ × Loc) LifecycleError (Slots κ)} (hnodup : ids.Nodup)
    (hpositive : 0 < configured) (hpool : init.pool = []) (hslots : ∀ id, init.hist id = none)
    (hbooted : ∀ id, (init.st.sessions id).node p = Node.booted)
    (h : (cappedGateway ids p shares configured).Reach (fun w a => hasRoom ids p configured w a = true) init c) :
    (ids.filter fun id => (c.st.engine p id).isSome).length ≤ configured := by
  have hinit : WithinCap ids p configured init.world := by
    have hnone : ∀ id, init.st.engine p id = none := fun id => by simp [Gateway.engine, hbooted, Node.booted]
    refine ⟨fun id e he => ?_, fun id => ?_, fun id tid passed hslot => ?_, ?_⟩
    . have he : init.st.engine p id = some e := he
      rw [hnone] at he
      contradiction
    . simp [Config.world, hslots, hbooted, Node.booted]
    . have hslot : init.hist id = some (tid, passed) := hslot
      rw [hslots] at hslot
      contradiction
    . have hfree : ∀ id, holdsSlot p init.world id = false := fun id => by simp [holdsSlot, Config.world, hnone, hslots]
      rw [show holdsSlot p init.world = fun _ => false from funext hfree]
      simp
  have hinv := (capacity_valid hnodup hpositive).inv_of_reach hinit hpool h
  rw [← List.countP_eq_length_filter]
  refine Nat.le_trans (List.countP_mono_left fun id _ hengine => ?_) hinv.cap
  simp only [holdsSlot, Bool.or_eq_true]
  exact .inl hengine

end Outline

section Runs

/-- Two sessions that are down, on a node that may run one engine. -/
def cappedNode : Config (Gateway Nat) Answer (Nat × Loc) LifecycleError (Slots Nat) where
  st := { sessions := fun _ => downSession, data := Import.none }
  hist := fun _ => none
  pool := []

/-- Session 0 is started and disconnects; its attempt `3` has torn the engine down. -/
def backoffRun : List (Move (GatewayEvent Nat) Answer) :=
  reserve 0 0 ++ restOfStart 0 0 ++
    [.event (.session 0 (.disconnected 0 0 false)), .turn 2 .ok, .turn 2 .ok, .event (.session 0 (.timer 0 0)),
      .turn 3 .ok]

/-- The attempt registers its engine before session 1 is started, which is refused. -/
def refusedRun : List (Move (GatewayEvent Nat) Answer) :=
  backoffRun ++ [.turn 3 .ok, .turn 3 .ok] ++ reserve 1 4 ++ [.turn 4 .ok, .turn 4 .capacity, .turn 4 .ok]

theorem registered_le_cap_refused :
    ∃ c, (cappedGateway [0, 1] 0 true 1).Reach (fun w a => hasRoom [0, 1] 0 1 w a = true) cappedNode c ∧
      c.st.engine 0 0 = some 1 ∧ ([0, 1].filter fun id => (c.st.engine 0 id).isSome).length ≤ 1 := by
  have hrun : ((cappedGateway [0, 1] 0 true 1).exec (fun w a => hasRoom [0, 1] 0 1 w a = true) cappedNode
      refusedRun).map (fun c => c.st.engine 0 0) = some (some 1) := by
    decide +kernel
  obtain ⟨c, hreach, hengine⟩ := System.reach_of_exec_map hrun
  exact ⟨c, hreach, hengine,
    registered_le_cap (by decide) Nat.one_pos rfl (fun _ => rfl) (fun _ => rfl) hreach⟩

/-- Session 1 is started while session 0 waits for its attempt, which then registers a second engine. -/
def overfullRun : List (Move (GatewayEvent Nat) Answer) :=
  backoffRun ++ reserve 1 4 ++ List.replicate 4 (.turn 4 .ok) ++ [.turn 3 .ok, .turn 3 .ok]

theorem reconnect_exceeds_cap :
    ∃ c, (cappedGateway [0, 1] 0 true 1).Reach System.anyStep cappedNode c ∧
      ([0, 1].filter fun id => (c.st.engine 0 id).isSome).length = 2 := by
  have hrun : ((cappedGateway [0, 1] 0 true 1).exec System.anyStep cappedNode overfullRun).map
      (fun c => ([0, 1].filter fun id => (c.st.engine 0 id).isSome).length) = some 2 := by
    decide +kernel
  exact System.reach_of_exec_map hrun

end Runs
end OpenWA.Restore
