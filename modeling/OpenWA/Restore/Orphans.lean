import OpenWA.Lifecycle.Functions
import OpenWA.Lifecycle.Memory
import OpenWA.Restore.Gateway

/-!
This module contains what an import leaves behind in the engine registry of its node: every engine of
a session that the backup lacks is named in the response, unless a launch lets its engine stand while
the import does not count on it.
-/

namespace OpenWA.Lifecycle

open Async

theorem Node.not_live_of_delete (n : Node) (e : Nat) : (n.deleteIfLive e).engine ≠ some e := by
  unfold deleteIfLive
  split
  . simp
  . next hlive => simpa [isLive] using hlive

theorem Node.evictRegistered_engine (n : Node) : n.evictRegistered.engine = none := by
  unfold evictRegistered
  split
  . rfl
  . next hnone => exact hnone

theorem Node.reconnectFailed_engine {n : Node} {k : Nat} {session : Session} {launched : Bool}
    {err : LifecycleError} (hcurrent : n.reconnect = some k)
    (hparked : (n.parkedTerminal k err).any (·.run = .status) = false) :
    (n.reconnectFailed k session launched err).engine = none := by
  unfold reconnectFailed
  rw [if_pos hcurrent]
  cases hterminal : n.parkedTerminal k err with
  | some parked =>
    cases hrun : parked.run with
    | status => simp [hterminal, hrun] at hparked
    | error e => simp only [hrun]; rfl
  | none =>
    have hnone := (n.settleLaunch k launched).evictRegistered_engine
    dsimp only
    split
    . rw [cancelReconnect_engine, hnone]
    . unfold scheduleReconnect
      split
      . exact hnone
      . split
        . rw [cancelReconnect_engine, evictRegistered_engine]
        . exact hnone

end OpenWA.Lifecycle

namespace OpenWA.Restore

open Async Lifecycle

variable {κ : Type} [DecidableEq κ]

/--
The import has passed the point up to which it would name or stop the engine `e` of the session: the
backup lacks the session, the response does not name it together with a required restart, and no
teardown of `stopOrphanEngines` is in flight for the engine.
-/
def Import.abandons (d : Import κ) (id : κ) (e : Nat) : Bool :=
  !d.restores id &&
    match d.phase with
    | .idle | .refused => false
    | .reconciling => !(id ∈ d.orphanedEngines : Bool)
    | .stopping pending => !((id, e) ∈ pending : Bool) && !((id ∈ d.orphanedEngines : Bool) && d.restartRequired)
    | _ => !((id ∈ d.orphanedEngines : Bool) && d.restartRequired)

/--
The turn ends a launch and lets its engine stand: the retirement check reads the row of the session or
fails, or the `catch` of an attempt neither finds its state nor evicts what is registered.
-/
def lets (pt : Place) (x : Answer) (s : State) (n : Node) : Bool :=
  match pt with
  | .retiredFind => x = .fault || s.row.isSome
  | .reconnectFailed k _ _ err => n.reconnect ≠ some k || (n.parkedTerminal k err).any (·.run = .status)
  | _ => false

/-- A turn lets no registered engine of its own stand that the import has abandoned. -/
def covered (p : Nat) (w : GatewayWorld κ) (a : Act (GatewayEvent κ) Answer (κ × Loc)) : Bool :=
  match a with
  | .turn tid (id, l) x =>
    (w.st.engine p id).all fun e =>
      !(w.hist id e = some tid && w.st.data.abandons id e &&
        lets l.place x (w.st.sessions id) ((w.st.sessions id).node p))
  | .event .. => true

/-- An abandoned engine is registered. -/
def Gateway.Loose (g : Gateway κ) (p : Nat) (id : κ) (e : Nat) : Prop :=
  g.engine p id = some e ∧ g.data.abandons id e = true

section Outline

variable {ids : List κ} {p : Nat} {shares : Bool}

/-- An abandoned engine was created by an activation of the run. -/
structure Answered (ids : List κ) (p : Nat) (w : GatewayWorld κ) : Prop where
  known : ∀ id e, w.st.engine p id = some e → id ∈ ids
  started : ∀ id e tid, w.hist id e = some tid → tid < w.started
  loose : ∀ id e, w.st.Loose p id e → ∃ tid, w.hist id e = some tid

/-- What is known of the runs: each activation answers for the engines it created. -/
def orphans (ids : List κ) (p : Nat) (shares : Bool) : Outline (gateway ids p shares) where
  ok w a := covered p w a = true
  inv := Answered ids p
  rely i w w' := ∀ id e, w'.hist id e = some i → w.hist id e = some i ∧ (w'.st.Loose p id e → w.st.Loose p id e)
  chk _ _ _ := True
  post i _ w := ∀ id e, w.hist id e = some i → ¬ w.st.Loose p id e

/-- No engine is registered and no registered engine abandoned by the step. -/
structure Tightens (p : Nat) (g g' : Gateway κ) : Prop where
  engine : ∀ id e, g'.engine p id = some e → g.engine p id = some e
  loose : ∀ id e, g'.Loose p id e → g.Loose p id e

variable {i : Nat} {w : GatewayWorld κ} {g g' : Gateway κ} {id : κ}

theorem Tightens.trans {g₁ : Gateway κ} (h : Tightens p g g₁) (h' : Tightens p g₁ g') : Tightens p g g' :=
  ⟨fun id e he => h.engine id e (h'.engine id e he), fun id e hl => h.loose id e (h'.loose id e hl)⟩

theorem tightens_of_engine (hdata : g'.data = g.data)
    (hengine : ∀ id e, g'.engine p id = some e → g.engine p id = some e) : Tightens p g g' where
  engine := hengine
  loose := by
    rintro id e ⟨hreg, habandons⟩
    exact ⟨hengine id e hreg, hdata ▸ habandons⟩

theorem tightens_setSession {s : State} (h : ∀ e, (s.node p).engine = some e → g.engine p id = some e) :
    Tightens p g (g.setSession id s) := by
  have hdata : (g.setSession id s).data = g.data := rfl
  refine tightens_of_engine hdata fun id' e he => ?_
  simp only [Gateway.engine, Gateway.setSession] at he
  split at he
  . next heq => exact heq ▸ h e he
  . exact he

theorem Tightens.inv {a : Act (GatewayEvent κ) Answer (κ × Loc)} (h : Tightens p w.st g')
    (hhist : noteCreator p a w.st g' w.hist = w.hist) (hinv : (orphans ids p shares).inv w) :
    (orphans ids p shares).inv ((gateway ids p shares).after w a g') := by
  have heq : ((gateway ids p shares).after w a g').hist = w.hist := hhist
  constructor
  . exact fun id e he => hinv.known id e (h.engine id e he)
  . intro id e tid hcreator
    have hlt := hinv.started id e tid (heq ▸ hcreator)
    cases a with
    | event => exact Nat.lt_succ_of_lt hlt
    | turn => exact hlt
  . intro id e hloose
    rcases hinv.loose id e (h.loose id e hloose) with ⟨tid, hcreator⟩
    exact ⟨tid, heq ▸ hcreator⟩

theorem Tightens.rely {a : Act (GatewayEvent κ) Answer (κ × Loc)} (h : Tightens p w.st g')
    (hhist : noteCreator p a w.st g' w.hist = w.hist) (j : Nat) :
    (orphans ids p shares).rely j w ((gateway ids p shares).after w a g') := by
  intro id e hcreator
  have heq : ((gateway ids p shares).after w a g').hist = w.hist := hhist
  exact ⟨heq ▸ hcreator, h.loose id e⟩

theorem Tightens.keeps {a : Act (GatewayEvent κ) Answer (κ × Loc)} (h : Tightens p w.st g')
    (hhist : noteCreator p a w.st g' w.hist = w.hist) (hinv : (orphans ids p shares).inv w) :
    (orphans ids p shares).Keeps i w a g' where
  chk := trivial
  inv := h.inv hhist hinv
  rely j _ _ := h.rely hhist j

theorem rely_refl (i : Nat) (w : GatewayWorld κ) : (orphans ids p shares).rely i w w :=
  fun _ _ h => ⟨h, fun h => h⟩

theorem rely_trans (i : Nat) (w₁ w₂ w₃ : GatewayWorld κ) (h : (orphans ids p shares).rely i w₁ w₂)
    (h' : (orphans ids p shares).rely i w₂ w₃) : (orphans ids p shares).rely i w₁ w₃ := by
  intro id e hcreator
  rcases h' id e hcreator with ⟨hcreator', hloose'⟩
  rcases h id e hcreator' with ⟨hcreator'', hloose⟩
  exact ⟨hcreator'', fun hl => hloose (hloose' hl)⟩

theorem turn_engine {pt : Place} (hpt : creates pt = false) (x : Answer) (s : State) (n : Node) :
    (pt.memory x s n).engine = n.engine ∨ (pt.memory x s n).engine = none := by
  by_cases hregisters : pt.registers = false
  . exact (Node.Shrinks.memory hregisters x s).engine
  . cases pt <;> first | exact .inl rfl | contradiction

theorem tightens_effect {l : Loc} {x : Answer} (hpt : creates l.place = false) (hguard : guard l x (g.sessions id) = true) :
    Tightens p g (g.setSession id (effect l x (g.sessions id))) := by
  apply tightens_setSession
  intro e he
  rw [effect_node hguard] at he
  split at he
  . rcases turn_engine hpt x (g.sessions id) ((g.sessions id).node p) with heq | heq
    . exact heq.symm.trans he
    . rw [heq] at he
      contradiction
  . exact he

/-- The world after a turn of a function of the session. -/
def afterTurn (ids : List κ) (p : Nat) (shares : Bool) (i : Nat) (id : κ) (l : Loc) (x : Answer)
    (w : GatewayWorld κ) : GatewayWorld κ :=
  (gateway ids p shares).after w (.turn i (id, l) x) (w.st.setSession id (effect l x (w.st.sessions id)))

theorem keeps_turn {l : Loc} {x : Answer} (hpt : creates l.place = false)
    (hguard : guard l x (w.st.sessions id) = true) (hinv : (orphans ids p shares).inv w) :
    (orphans ids p shares).Keeps i w (.turn i (id, l) x) (w.st.setSession id (effect l x (w.st.sessions id))) ∧
      (orphans ids p shares).rely i w (afterTurn ids p shares i id l x w) := by
  have htight : Tightens p w.st (w.st.setSession id (effect l x (w.st.sessions id))) := tightens_effect hpt hguard
  have hhist : noteCreator p (.turn i (id, l) x) w.st (w.st.setSession id (effect l x (w.st.sessions id))) w.hist =
      w.hist := by
    simp [noteCreator, hpt]
  exact ⟨htight.keeps hhist hinv, htight.rely hhist i⟩

theorem steady_inSession {α : Type} {t : Job α} (hturns : Turns (fun pt => !creates pt) t) :
    (orphans ids p shares).Steady i (inSession id t) := by
  induction t with
  | pure a => exact fun w => rely_refl i w
  | throw e => exact fun w => rely_refl i w
  | turn l ready upd next ih =>
    intro w w' x hrely hinv _ hready _
    rcases hturns.2 x (w'.st.sessions id) hready with ⟨hguard, heffect, hnext⟩
    have hpt : creates l.place = false := by simpa using hturns.1
    rcases keeps_turn hpt hguard hinv with ⟨hkeeps, hown⟩
    have hsafe := (ih x (w'.st.sessions id) hnext).later rely_trans (rely_trans i _ _ _ hrely hown)
    unfold afterTurn at hsafe
    rw [← heffect] at hkeeps hsafe
    exact ⟨hkeeps, hsafe⟩

theorem creates_of_isLaunch (pt : Place) (h : pt.isLaunch = true) : (!creates pt) = true := by
  cases pt <;> first | rfl | contradiction

/-- The abandoned engines that `i` created and that are registered are all the engine `e` of `id`. -/
def OnlyLoose (p i : Nat) (id : κ) (e : Nat) (w : GatewayWorld κ) : Prop :=
  ∀ id' e', w.hist id' e' = some i → w.st.Loose p id' e' → id' = id ∧ e' = e

def NoneLoose (p i : Nat) (w : GatewayWorld κ) : Prop :=
  ∀ id e, w.hist id e = some i → ¬ w.st.Loose p id e

theorem NoneLoose.only {e : Nat} (h : NoneLoose p i w) : OnlyLoose p i id e w :=
  fun id' e' hcreator hloose => absurd hloose (h id' e' hcreator)

theorem OnlyLoose.none {e : Nat} (h : OnlyLoose p i id e w) (hnot : w.hist id e = some i → ¬ w.st.Loose p id e) :
    NoneLoose p i w := by
  intro id' e' hcreator hloose
  rcases h id' e' hcreator hloose with ⟨rfl, rfl⟩
  exact hnot hcreator hloose

theorem OnlyLoose.none_of_engine {e : Nat} (h : OnlyLoose p i id e w) (hengine : w.st.engine p id ≠ some e) :
    NoneLoose p i w :=
  h.none fun _ hloose => hengine hloose.1

/-- What the activation `i` knows and interference does not undo. -/
def Stable (ids : List κ) (p : Nat) (shares : Bool) (i : Nat) (P : GatewayWorld κ → Prop) : Prop :=
  ∀ w w', (orphans ids p shares).rely i w w' → P w → P w'

theorem stable_noneLoose : Stable ids p shares i (NoneLoose p i) := by
  intro w w' hrely h id e hcreator hloose
  rcases hrely id e hcreator with ⟨hcreator', hloose'⟩
  exact h id e hcreator' (hloose' hloose)

theorem stable_onlyLoose {e : Nat} : Stable ids p shares i (OnlyLoose p i id e) := by
  intro w w' hrely h id' e' hcreator hloose
  rcases hrely id' e' hcreator with ⟨hcreator', hloose'⟩
  exact h id' e' hcreator' (hloose' hloose)

theorem safe_of_turns {α : Type} {t : Job α} {P : GatewayWorld κ → Prop} (h : Turns (fun pt => !creates pt) t)
    (hstable : Stable ids p shares i P) (hP : P w) :
    (orphans ids p shares).Safe i (inSession id t) w (fun _ => P) (fun _ => P) :=
  (steady_inSession h w).mono (fun _ w' hrely => hstable w w' hrely hP) fun _ w' hrely => hstable w w' hrely hP

theorem safe_turn {α : Type} {q : Nat} {pt : Place} {result : Answer → State → Except LifecycleError α}
    {P : GatewayWorld κ → Prop} {Q : α → GatewayWorld κ → Prop} {E : LifecycleError → GatewayWorld κ → Prop}
    (hpt : creates pt = false) (hstable : Stable ids p shares i P) (hP : P w)
    (h : ∀ w' x, P w' → covered p w' (.turn i (id, ⟨q, pt⟩) x) = true →
      Lifecycle.guard ⟨q, pt⟩ x (w'.st.sessions id) = true →
      (orphans ids p shares).rely i w' (afterTurn ids p shares i id ⟨q, pt⟩ x w') →
      (∀ a, result x (w'.st.sessions id) = .ok a → Q a (afterTurn ids p shares i id ⟨q, pt⟩ x w')) ∧
        ∀ e, result x (w'.st.sessions id) = .error e → E e (afterTurn ids p shares i id ⟨q, pt⟩ x w')) :
    (orphans ids p shares).Safe i (inSession id (run q pt result)) w Q E := by
  intro w' x hrely hinv _ hready hok
  rcases keeps_turn hpt hready hinv with ⟨hkeeps, hown⟩
  rcases h w' x (hstable w w' hrely hP) hok hready hown with ⟨hvalue, herror⟩
  refine ⟨hkeeps, ?_⟩
  exact Outline.safe_zoom_ofExcept hvalue herror

/-- The condition on a turn that lets an engine stand: what its activation created is not abandoned. -/
theorem OnlyLoose.none_of_lets {e : Nat} {l : Loc} {x : Answer} (h : OnlyLoose p i id e w)
    (hcovered : covered p w (.turn i (id, l) x) = true)
    (hlets : lets l.place x (w.st.sessions id) ((w.st.sessions id).node p) = true) : NoneLoose p i w := by
  apply h.none
  rintro hcreator ⟨hengine, habandons⟩
  simp [covered, hengine, hcreator, habandons, hlets] at hcovered

theorem safe_isSessionRetired {q e : Nat} {stopping : Bool} (h : OnlyLoose p i id e w) :
    (orphans ids p shares).Safe i (inSession id (isSessionRetired q stopping)) w
      (fun retired => if retired then OnlyLoose p i id e else NoneLoose p i) (fun _ => NoneLoose p i) := by
  unfold isSessionRetired
  cases stopping with
  | true => exact h
  | false =>
    apply Outline.safe_zoom_seq (Q := fun row : Option Session =>
      if row.isNone then OnlyLoose p i id e else NoneLoose p i) (E := fun _ => NoneLoose p i)
    . apply safe_turn rfl stable_onlyLoose h
      intro w' x hloose hcovered _ hrely
      constructor
      . intro row hrow
        cases row with
        | none => exact stable_onlyLoose _ _ hrely hloose
        | some row =>
          apply stable_noneLoose _ _ hrely
          apply hloose.none_of_lets hcovered
          split at hrow
          . contradiction
          . simp only [Except.ok.injEq] at hrow
            simp [lets, hrow]
      . intro err herr
        apply stable_noneLoose _ _ hrely
        apply hloose.none_of_lets hcovered
        split at herr
        . next hx => simp [lets, hx]
        . contradiction
    . exact fun row w h => h
    . exact fun _ _ h => h

theorem engine_afterTurn {pt : Place} {x : Answer} (hguard : guard ⟨p, pt⟩ x (w.st.sessions id) = true) :
    (afterTurn ids p shares i id ⟨p, pt⟩ x w).st.engine p id =
      (pt.memory x (w.st.sessions id) ((w.st.sessions id).node p)).engine := by
  simp [afterTurn, System.after, Gateway.engine, Gateway.setSession, effect_node hguard]

theorem safe_unwindRetired {e : Nat} (h : OnlyLoose p i id e w) :
    (orphans ids p shares).Safe i (inSession id (unwindRetired p)) w (fun _ => NoneLoose p i)
      (fun _ => NoneLoose p i) := by
  have hresurrected : (orphans ids p shares).Safe i (inSession id (retireResurrected p)) w
      (fun _ => NoneLoose p i) (fun _ => NoneLoose p i) := by
    apply Outline.safe_zoom_seq (Q := fun r : Option Nat =>
      if r = some e then OnlyLoose p i id e else NoneLoose p i) (E := fun _ => NoneLoose p i)
    . apply safe_turn rfl stable_onlyLoose h
      intro w' x hloose _ _ hrely
      refine ⟨fun r hr => ?_, fun _ herr => by contradiction⟩
      simp only [Except.ok.injEq] at hr
      split
      . exact stable_onlyLoose _ _ hrely hloose
      . next hne =>
        apply stable_noneLoose _ _ hrely
        apply hloose.none_of_engine
        unfold Gateway.engine
        rw [hr]
        exact hne
    . intro r w' hr
      cases r with
      | none => exact hr
      | some e' =>
        by_cases he : e' = e
        . subst he
          rw [if_pos rfl] at hr
          apply safe_turn rfl stable_onlyLoose hr
          intro w'' x hloose _ hguard hrely
          refine ⟨fun _ _ => ?_, fun _ herr => by contradiction⟩
          apply (stable_onlyLoose _ _ hrely hloose).none_of_engine
          rw [engine_afterTurn hguard]
          exact Node.not_live_of_delete _ e'
        . rw [if_neg (by simpa using he)] at hr
          exact safe_of_turns (turns_run rfl) stable_noneLoose hr
    . exact fun _ _ h => h
  apply Outline.safe_zoom_seq hresurrected
  . exact fun _ w' hw => safe_of_turns (turns_run rfl) stable_noneLoose hw
  . exact fun _ _ hw => hw

theorem safe_unlessRetired {e : Nat} {stopping : Bool} (h : OnlyLoose p i id e w) :
    (orphans ids p shares).Safe i
      (inSession id (isSessionRetired p stopping >>= fun retired => if retired then unwindRetired p else pure ())) w
      (fun _ => NoneLoose p i) (fun _ => NoneLoose p i) := by
  apply Outline.safe_zoom_seq (safe_isSessionRetired h)
  . intro retired w' hretired
    cases retired with
    | true => exact safe_unwindRetired hretired
    | false => exact hretired
  . exact fun _ _ hw => hw

/-- The registration of an engine: it is the only abandoned one that its activation has. -/
theorem safe_create {pt : Place} {result : Answer → State → Except LifecycleError Nat} (hid : id ∈ ids)
    (hpt : creates pt = true)
    (hengine : ∀ x s n, (pt.memory x s n).engine = some n.created)
    (hresult : ∀ x s, result x s = .ok (s.node p).created) (h : NoneLoose p i w) :
    (orphans ids p shares).Safe i (inSession id (run p pt result)) w (OnlyLoose p i id) (fun _ => NoneLoose p i) := by
  intro w' x hrely hinv hlt hready _
  have hnone := stable_noneLoose _ _ hrely h
  have hreg : (afterTurn ids p shares i id ⟨p, pt⟩ x w').st.engine p id =
      some ((w'.st.sessions id).node p).created := (engine_afterTurn hready).trans (hengine _ _ _)
  have hother : ∀ id' e, ¬(id' = id ∧ e = ((w'.st.sessions id).node p).created) →
      (afterTurn ids p shares i id ⟨p, pt⟩ x w').st.Loose p id' e → w'.st.Loose p id' e := by
    rintro id' e hne ⟨hreg', habandons⟩
    by_cases hsame : id' = id
    . subst hsame
      rw [hreg] at hreg'
      exact absurd ⟨rfl, (Option.some.inj hreg').symm⟩ hne
    . refine ⟨?_, habandons⟩
      simpa [afterTurn, System.after, Gateway.engine, Gateway.setSession, hsame] using hreg'
  have hcreator : ∀ id' e, (afterTurn ids p shares i id ⟨p, pt⟩ x w').hist id' e =
      if id' = id ∧ e = ((w'.st.sessions id).node p).created then some i else w'.hist id' e := by
    intro id' e
    simp [afterTurn, System.after, gateway, noteCreator, hpt]
  refine ⟨⟨trivial, ⟨?_, ?_, ?_⟩, ?_⟩, ?_⟩
  . intro id' e he
    by_cases hsame : id' = id
    . exact hsame ▸ hid
    . apply hinv.known id' e
      simpa [System.after, Gateway.engine, Gateway.setSession, hsame] using he
  . intro id' e tid htid
    have htid : (afterTurn ids p shares i id ⟨p, pt⟩ x w').hist id' e = some tid := htid
    rw [hcreator] at htid
    split at htid
    . exact Option.some.inj htid ▸ hlt
    . exact hinv.started id' e tid htid
  . intro id' e hloose
    by_cases hnew : id' = id ∧ e = ((w'.st.sessions id).node p).created
    . exact ⟨i, (hcreator id' e).trans (if_pos hnew)⟩
    . rcases hinv.loose id' e (hother id' e hnew hloose) with ⟨tid, hold⟩
      exact ⟨tid, (hcreator id' e).trans ((if_neg hnew).trans hold)⟩
  . intro j _ hji id' e hj
    have hj : (afterTurn ids p shares i id ⟨p, pt⟩ x w').hist id' e = some j := hj
    rw [hcreator] at hj
    split at hj
    . exact absurd (Option.some.inj hj).symm hji
    . next hnew => exact ⟨hj, hother id' e hnew⟩
  . apply Outline.safe_zoom_ofExcept
    . intro e he id' e' hown hloose
      have hown : (afterTurn ids p shares i id ⟨p, pt⟩ x w').hist id' e' = some i := hown
      have he : result x (w'.st.sessions id) = .ok e := he
      rw [hresult] at he
      by_cases hnew : id' = id ∧ e' = ((w'.st.sessions id).node p).created
      . exact ⟨hnew.1, hnew.2.trans (Except.ok.inj he)⟩
      . rw [hcreator, if_neg hnew] at hown
        exact absurd (hother id' e' hnew hloose) (hnone id' e' hown)
    . intro err herr
      have herr : result x (w'.st.sessions id) = .error err := herr
      rw [hresult] at herr
      contradiction

theorem safe_told {α : Type} {q : Nat} {pt : Place} {result : Answer → State → Except LifecycleError α}
    {P : GatewayWorld κ → Prop} (hpt : creates pt = false) (hstable : Stable ids p shares i P) (hP : P w)
    (hresult : ∀ x s e, result x s ≠ .error e) :
    (orphans ids p shares).Safe i (inSession id (run q pt result)) w (fun _ => P) (fun _ _ => False) := by
  apply safe_turn hpt hstable hP
  intro w' x hw _ _ hrely
  exact ⟨fun _ _ => hstable _ _ hrely hw, fun e he => hresult _ _ e he⟩

theorem safe_startFailed {e : Nat} {err : LifecycleError} (h : OnlyLoose p i id e w) :
    (orphans ids p shares).Safe i (inSession id (startFailed p err)) w (fun _ => NoneLoose p i)
      (fun _ => NoneLoose p i) := by
  apply Outline.safe_zoom_seq (Q := fun _ : Option Nat => NoneLoose p i) (E := fun _ => NoneLoose p i)
  . apply safe_turn rfl stable_onlyLoose h
    intro w' x hloose _ hguard hrely
    refine ⟨fun _ _ => ?_, fun _ herr => by contradiction⟩
    apply (stable_onlyLoose _ _ hrely hloose).none_of_engine
    rw [engine_afterTurn hguard]
    simp only [Place.memory, Node.evictOrphan]
    split
    . simp [Node.evictAndForceDestroy, Node.tear, Node.setEngine]
    . next hnone => simp [hnone]
  . intro orphan w' hw
    refine safe_of_turns ?_ stable_noneLoose hw
    cases orphan with
    | none => trivial
    | some e =>
      refine turns_seq (turns_run rfl) fun written => ?_
      cases written with
      | none => trivial
      | some w => exact turns_seq (turns_run rfl) fun _ => trivial
  . exact fun _ _ hw => hw

theorem safe_start (hid : id ∈ ids) (h : NoneLoose p i w) :
    (orphans ids p shares).Safe i (inSession id (start p)) w (fun _ => NoneLoose p i) (fun _ => NoneLoose p i) := by
  have hprepare : ∀ w, NoneLoose p i w → (orphans ids p shares).Safe i (inSession id (startPrepare p)) w
      (OnlyLoose p i id) (fun _ => NoneLoose p i) := by
    intro w hw
    apply Outline.safe_zoom_seq (safe_of_turns (turns_run rfl) stable_noneLoose hw)
    . intro session w hw
      apply Outline.safe_zoom_seq (safe_of_turns (turns_run rfl) stable_noneLoose hw)
      . intro _ w hw
        apply Outline.safe_zoom_seq (safe_of_turns (turns_run rfl) stable_noneLoose hw)
        . exact fun _ w hw => safe_create hid rfl (fun _ _ _ => rfl) (fun _ _ => rfl) hw
        . exact fun _ _ hw => hw
      . exact fun _ _ hw => hw
    . exact fun _ _ hw => hw
  have hreserved : ∀ w, NoneLoose p i w → (orphans ids p shares).Safe i (inSession id (startReserved p)) w
      (fun _ => NoneLoose p i) (fun _ => NoneLoose p i) := by
    intro w hw
    apply Outline.safe_zoom_seq (hprepare w hw)
    . intro e w hw
      apply Outline.safe_zoom_seq (Q := fun _ : Unit => OnlyLoose p i id e) (E := fun _ => NoneLoose p i)
      . apply Outline.safe_zoom_catch (safe_of_turns (turns_initializeEngine creates_of_isLaunch p e) stable_onlyLoose hw)
        . exact fun _ _ hw => hw
        . exact fun err w hw => (safe_startFailed hw).mono (fun _ _ h => h.only) fun _ _ h => h
      . intro _ w hw
        apply Outline.safe_zoom_seq (safe_told rfl stable_onlyLoose hw (by simp))
        . exact fun stopping w hw => safe_unlessRetired hw
        . exact fun _ _ hw => hw.elim
      . exact fun _ _ hw => hw
    . exact fun _ _ hw => hw
  apply Outline.safe_zoom_seq (safe_of_turns (turns_run rfl) stable_noneLoose h)
  . intro _ w hw
    apply Outline.safe_zoom_seq (Q := fun _ => NoneLoose p i) (E := fun _ => NoneLoose p i)
    . apply Outline.safe_zoom_finally (hreserved w hw)
      . exact fun _ w hw => safe_of_turns (turns_run rfl) stable_noneLoose hw
      . exact fun _ w hw => safe_of_turns (turns_run rfl) stable_noneLoose hw
    . intro _ w hw
      apply Outline.safe_zoom_seq (safe_of_turns (turns_run rfl) stable_noneLoose hw)
      . exact fun _ _ hw => hw
      . exact fun _ _ hw => hw
    . exact fun _ _ hw => hw
  . exact fun _ _ hw => hw

theorem safe_reconnectFailed {k e : Nat} {session : Session} {launched : Option Nat} {err : LifecycleError}
    (h : OnlyLoose p i id e w) :
    (orphans ids p shares).Safe i (inSession id (pass p (.reconnectFailed k session launched err))) w
      (fun _ => NoneLoose p i) (fun _ => NoneLoose p i) := by
  apply safe_turn rfl stable_onlyLoose h
  intro w' x hloose hcovered hguard hrely
  refine ⟨fun _ _ => ?_, fun _ herr => by contradiction⟩
  cases hlets : lets (.reconnectFailed k session launched err) x (w'.st.sessions id) ((w'.st.sessions id).node p) with
  | true => exact stable_noneLoose _ _ hrely (hloose.none_of_lets hcovered hlets)
  | false =>
    simp only [lets, ne_eq, Bool.or_eq_false_iff, decide_eq_false_iff_not, not_not] at hlets
    apply (stable_onlyLoose _ _ hrely hloose).none_of_engine
    rw [engine_afterTurn hguard]
    simp only [Place.memory]
    rw [Node.reconnectFailed_engine hlets.1 hlets.2]
    simp

/-- What a caught launch leaves: an engine that only the attempt can name, or none. -/
def Launched (p i : Nat) (id : κ) (created : Except LifecycleError Nat) (w : GatewayWorld κ) : Prop :=
  match created with
  | .ok e => OnlyLoose p i id e w
  | .error _ => NoneLoose p i w

theorem safe_executeReconnect {k : Nat} {session : Session} {old : Option Nat} (hid : id ∈ ids)
    (h : NoneLoose p i w) :
    (orphans ids p shares).Safe i (inSession id (executeReconnect p k session old)) w (fun _ => NoneLoose p i)
      (fun _ => NoneLoose p i) := by
  have hclean : Turns (fun pt => !creates pt) (cleanUpOld p k old) := by
    cases old with
    | none => trivial
    | some e => exact turns_seq (turns_run rfl) fun destroyed => turns_ite trivial (turns_run rfl)
  have hprepare : (orphans ids p shares).Safe i (inSession id (reconnectPrepare p k session old)) w
      (OnlyLoose p i id) (fun _ => NoneLoose p i) := by
    apply Outline.safe_zoom_seq (safe_of_turns hclean stable_noneLoose h)
    . intro _ w hw
      apply Outline.safe_zoom_seq (safe_of_turns (turns_run rfl) stable_noneLoose hw)
      . exact fun _ w hw => safe_create hid rfl (fun _ _ _ => rfl) (fun _ _ => rfl) hw
      . exact fun _ _ hw => hw
    . exact fun _ _ hw => hw
  have hlaunch : ∀ e w, OnlyLoose p i id e w → (orphans ids p shares).Safe i
      (inSession id (reconnectLaunch p k session e)) w (fun _ => NoneLoose p i) (fun _ => NoneLoose p i) := by
    intro e w hw
    apply Outline.safe_zoom_seq (Q := fun _ : Option LifecycleError => OnlyLoose p i id e)
      (E := fun _ => NoneLoose p i)
    . apply Outline.safe_zoom_catch (Q := fun _ => OnlyLoose p i id e) (E := fun _ => OnlyLoose p i id e)
      . apply Outline.safe_zoom_seq (safe_of_turns (turns_initializeEngine creates_of_isLaunch p e) stable_onlyLoose hw)
        . exact fun _ _ hw => hw
        . exact fun _ _ hw => hw
      . exact fun _ _ hw => hw
      . exact fun _ _ hw => hw
    . intro failed w hw
      cases failed with
      | some err => exact safe_reconnectFailed hw
      | none =>
        apply Outline.safe_zoom_seq (safe_told rfl stable_onlyLoose hw (by simp))
        . intro stopping w hw
          apply Outline.safe_zoom_seq (Q := fun retired : Bool =>
            if retired then OnlyLoose p i id e else NoneLoose p i) (E := fun _ => NoneLoose p i)
          . apply Outline.safe_zoom_catch (safe_isSessionRetired hw)
            . exact fun _ _ hw => hw
            . exact fun _ _ hw => hw
          . intro retired w hw
            cases retired with
            | true => exact safe_unwindRetired hw
            | false => exact hw
          . exact fun _ _ hw => hw
        . exact fun _ _ hw => hw.elim
    . exact fun _ _ hw => hw
  apply Outline.safe_zoom_seq (Q := Launched p i id) (E := fun _ => NoneLoose p i)
  . apply Outline.safe_zoom_catch (Q := Launched p i id) (E := fun _ => NoneLoose p i)
    . exact Outline.safe_zoom_seq hprepare (fun _ _ hw => hw) fun _ _ hw => hw
    . exact fun _ _ hw => hw
    . exact fun _ _ hw => hw
  . intro created w hw
    cases created with
    | ok e => exact hlaunch e w hw
    | error err => exact safe_of_turns (turns_run rfl) stable_noneLoose hw
  . exact fun _ _ hw => hw

theorem safe_event {v : Event} {s : State} (hid : id ∈ ids) (hv : onNode p v = true) (h : NoneLoose p i w) :
    (orphans ids p shares).Safe i (inSession id (v.task s)) w (fun _ => NoneLoose p i) (fun _ => NoneLoose p i) := by
  by_cases hlaunches : v.launches = true
  . cases v with
    | start q =>
      have heq : q = p := by simpa [onNode] using hv
      subst heq
      exact safe_start hid h
    | timer q k =>
      have heq : q = p := by simpa [onNode] using hv
      subst heq
      unfold Event.task
      dsimp only
      split
      . split
        . exact h
        . exact safe_executeReconnect hid h
      . exact h
    | _ => contradiction
  . refine safe_of_turns (turns_task ?_) stable_noneLoose h
    apply (within_task v s).mono
    intro l hcovers
    rcases l with ⟨q, pt⟩
    cases pt with
    | startCreate session =>
      exfalso
      apply hlaunches
      cases v <;> contradiction
    | reconnectCreate k session =>
      exfalso
      apply hlaunches
      cases v <;> contradiction
    | _ => rfl

section Import

/-- The response names the session together with a required restart. -/
def Import.reports (d : Import κ) (id : κ) : Bool := (id ∈ d.orphanedEngines : Bool) && d.restartRequired

/-- The pre-flight is over. -/
def Phase.late (phase : Phase κ) : Bool :=
  match phase with
  | .connecting | .clearing _ | .inserting .. | .committing .. | .committed => true
  | .idle | .reconciling | .stopping _ | .refused => false

theorem abandons_of_late {d : Import κ} (h : d.phase.late = true) (id : κ) (e : Nat) :
    d.abandons id e = (!d.restores id && !d.reports id) := by
  unfold Import.abandons Import.reports
  cases hphase : d.phase <;> first | rfl | simp [hphase, Phase.late] at h

theorem not_abandons_of_refused {d : Import κ} (h : d.phase = .refused) (id : κ) (e : Nat) :
    d.abandons id e = false := by
  simp [Import.abandons, h]

theorem tightens_of_abandons (hengine : ∀ id, g'.engine p id = g.engine p id)
    (habandons : ∀ id e, g'.engine p id = some e → g'.data.abandons id e = true → g.data.abandons id e = true) :
    Tightens p g g' where
  engine := fun id _ he => hengine id ▸ he
  loose := fun id e h => ⟨hengine id ▸ h.1, habandons id e h.1 h.2⟩

/-- The pre-flight abandons no registered engine: it sees the session as active. -/
theorem tightens_importData {sessions : List (κ × Session)} {stopOrphans force : Bool}
    (hknown : ∀ id e, g.engine p id = some e → id ∈ ids) :
    Tightens p g (g.importData ids p sessions stopOrphans force) := by
  apply tightens_of_abandons
  . exact fun _ => rfl
  . intro id e he habandons
    have he : g.engine p id = some e := he
    have hactive : id ∈ g.getActiveSessionIds ids p := by
      simp [Gateway.getActiveSessionIds, hknown id e he, he]
    unfold Import.abandons at habandons
    rw [Bool.and_eq_true] at habandons
    rcases habandons with ⟨hlacks, hnot⟩
    simp only [Gateway.importData, Bool.not_eq_true'] at hnot
    have hlacks : (!sessions.any fun row => decide (row.1 = id)) = true := hlacks
    exact absurd (List.mem_filter.mpr ⟨hactive, hlacks⟩) (of_decide_eq_false hnot)

theorem tightens_of_late (hengine : ∀ id, g'.engine p id = g.engine p id)
    (hrestores : ∀ id, g'.data.restores id = g.data.restores id) (hreports : ∀ id, g'.data.reports id = g.data.reports id)
    (hlate : g.data.phase.late = true) (hlate' : g'.data.phase.late = true) : Tightens p g g' := by
  apply tightens_of_abandons hengine
  intro id e _ habandons
  rw [abandons_of_late hlate', hrestores, hreports] at habandons
  rw [abandons_of_late hlate]
  exact habandons

theorem tightens_of_refused (hengine : ∀ id, g'.engine p id = g.engine p id) (hphase : g'.data.phase = .refused) :
    Tightens p g g' := by
  apply tightens_of_abandons hengine
  intro id e _ habandons
  rw [not_abandons_of_refused hphase] at habandons
  contradiction

theorem tightens_stopOrphanEngines (hphase : g.data.phase = .reconciling) :
    Tightens p g (g.stopOrphanEngines p) := by
  have hengine : ∀ id, (g.stopOrphanEngines p).engine p id = g.engine p id := by
    intro id
    simp only [Gateway.engine, Gateway.stopOrphanEngines]
    split
    . simp only [State.act_node_self, Node.tearRegistered, Node.retire]
      split <;> simp [Node.tear, Node.setEngine]
    . rfl
  apply tightens_of_abandons hengine
  intro id e he habandons
  rw [hengine] at he
  unfold Import.abandons at habandons ⊢
  rw [hphase]
  rw [Bool.and_eq_true] at habandons ⊢
  rcases habandons with ⟨hlacks, hnot⟩
  refine ⟨hlacks, ?_⟩
  simp only [Gateway.stopOrphanEngines, Bool.and_eq_true, Bool.not_eq_true'] at hnot
  simp only [Bool.not_eq_true']
  apply decide_eq_false
  intro horphan
  apply of_decide_eq_false hnot.1
  exact List.mem_filterMap.mpr ⟨id, horphan, by simp [he]⟩

theorem tightens_reconcile {others : List κ} (hphase : g.data.phase = .reconciling) :
    Tightens p g (g.reconcile p others) := by
  have hlate {g' : Gateway κ} (hengine : ∀ id, g'.engine p id = g.engine p id)
      (hrestores : ∀ id, g'.data.restores id = g.data.restores id) (hphase' : g'.data.phase = .connecting)
      (hreports : ∀ id ∈ g.data.orphanedEngines, g'.data.reports id = true) : Tightens p g g' := by
    apply tightens_of_abandons hengine
    intro id e _ habandons
    rw [abandons_of_late (by rw [hphase']; rfl), hrestores, Bool.and_eq_true] at habandons
    unfold Import.abandons
    rw [hphase, Bool.and_eq_true]
    refine ⟨habandons.1, ?_⟩
    simp only [Bool.not_eq_true']
    apply decide_eq_false
    intro horphan
    rw [hreports id horphan] at habandons
    exact Bool.noConfusion habandons.2
  unfold Gateway.reconcile
  dsimp only
  split
  . have hknown : Tightens p g { g with data := { g.data with restartRequired := !others.isEmpty } } := by
      refine tightens_of_abandons (fun _ => rfl) fun id e _ habandons => ?_
      unfold Import.abandons at habandons ⊢
      rw [hphase] at habandons ⊢
      exact habandons
    exact hknown.trans (tightens_stopOrphanEngines hphase)
  . split
    . exact tightens_of_refused (fun _ => rfl) rfl
    . split
      . refine hlate (fun _ => rfl) (fun _ => rfl) rfl fun id horphan => ?_
        simp [Import.reports, horphan]
      . next hnone =>
        refine hlate (fun _ => rfl) (fun _ => rfl) rfl fun id horphan => ?_
        simp only [Bool.not_eq_true, Bool.not_eq_false', List.isEmpty_iff] at hnone
        simp [hnone] at horphan

theorem tightens_orphanTorn {pending : List (κ × Nat)} {e : Nat} {tornDown : Bool}
    (hphase : g.data.phase = .stopping pending) : Tightens p g (g.orphanTorn p pending id e tornDown) := by
  have hengine : ∀ id' e', (g.orphanTorn p pending id e tornDown).engine p id' = some e' →
      g.engine p id' = some e' ∧ (id', e') ≠ (id, e) := by
    intro id' e' he
    simp only [Gateway.orphanTorn, Gateway.engine, Gateway.setSession] at he
    split at he
    . next heq =>
      subst heq
      rw [State.act_node_self] at he
      refine ⟨?_, ?_⟩
      . rcases (Node.Shrinks.deleteIfLive e).engine with hsame | hnone
        . exact hsame.symm.trans he
        . rw [hnone] at he
          contradiction
      . rintro heq
        simp only [Prod.mk.injEq, true_and] at heq
        exact Node.not_live_of_delete _ e (heq ▸ he)
    . next hne => exact ⟨he, fun heq => hne (congrArg Prod.fst heq)⟩
  refine ⟨fun id' e' he => (hengine id' e' he).1, ?_⟩
  rintro id' e' ⟨he, habandons⟩
  rcases hengine id' e' he with ⟨he, hne⟩
  refine ⟨he, ?_⟩
  unfold Import.abandons at habandons ⊢
  rw [hphase]
  simp only [Gateway.orphanTorn, Bool.and_eq_true] at habandons ⊢
  refine ⟨habandons.1, ?_, habandons.2.2⟩
  simp only [Bool.not_eq_true'] at habandons ⊢
  apply decide_eq_false
  intro hpending
  apply of_decide_eq_false habandons.2.1
  exact (List.mem_erase_of_ne hne).mpr hpending

theorem tightens_orphansStopped (hphase : g.data.phase = .stopping []) : Tightens p g g.orphansStopped := by
  refine tightens_of_abandons (fun _ => rfl) fun id e _ habandons => ?_
  rw [abandons_of_late rfl, Bool.and_eq_true] at habandons
  unfold Import.abandons
  rw [hphase, Bool.and_eq_true]
  refine ⟨habandons.1, ?_⟩
  have hreports := habandons.2
  simp only [Import.reports, Gateway.orphansStopped, Bool.not_eq_true', Bool.and_eq_false_iff, Bool.or_eq_false_iff]
    at hreports
  simp only [List.not_mem_nil, decide_false, Bool.not_false, Bool.true_and, Bool.not_eq_true', Bool.and_eq_false_iff]
  exact hreports.imp (fun h => h) And.left

theorem tightens_showRows {rows : κ → Option Session} {phase : Phase κ} (shares : Bool)
    (hlate : g.data.phase.late = true) (hlate' : phase.late = true) :
    Tightens p g ((g.showRows shares rows).setPhase phase) := by
  cases shares with
  | true => exact tightens_of_late (fun _ => rfl) (fun _ => rfl) (fun _ => rfl) hlate hlate'
  | false => exact tightens_of_late (fun _ => rfl) (fun _ => rfl) (fun _ => rfl) hlate hlate'

theorem tightens_refuse (g : Gateway κ) : Tightens p g (g.refuse shares) := by
  apply tightens_of_refused
  . intro id
    unfold Gateway.refuse Gateway.showRows
    split <;> first | rfl | (split <;> rfl)
  . unfold Gateway.refuse
    split <;> rfl

theorem tightens_tick (g : Gateway κ) (ms : Nat) : Tightens p g (g.tick ms) :=
  tightens_of_engine rfl fun _ _ he => he

theorem tightens_session {v : Event} (hv : onNode p v = true) :
    Tightens p g (g.setSession id (v.effect (g.sessions id))) := by
  apply tightens_setSession
  intro e he
  rw [Event.effect_node] at he
  split at he
  . have hshrinks : ((g.sessions id).node p).Shrinks (v.memory ((g.sessions id).node p)) := by
      apply Node.Shrinks.event
      . rintro q rfl
        contradiction
      . rintro q rfl
        contradiction
    rcases hshrinks.engine with hsame | hnone
    . exact hsame.symm.trans he
    . rw [hnone] at he
      contradiction
  . exact he

theorem tightens_event {v : GatewayEvent κ} {t : Task (Gateway κ) Answer (κ × Loc) LifecycleError Unit}
    (hknown : ∀ id e, g.engine p id = some e → id ∈ ids) (h : gatewayEvent ids p shares v g = some (g', t)) :
    Tightens p g g' := by
  unfold gatewayEvent at h
  split at h
  . split at h
    . next henabled =>
      simp only [Bool.and_eq_true] at henabled
      simp only [Option.some.injEq, Prod.mk.injEq] at h
      exact h.1 ▸ tightens_session henabled.1.2
    . contradiction
  all_goals try simp only [Option.some.injEq, Prod.mk.injEq] at h
  -- the cases follow the equations of `gatewayEvent`
  . exact h.1 ▸ tightens_importData hknown
  . next hphase => exact h.1 ▸ tightens_reconcile hphase
  . next hphase =>
    split at h
    . simp only [Option.some.injEq, Prod.mk.injEq] at h
      exact h.1 ▸ tightens_orphanTorn hphase
    . contradiction
  . next hphase => exact h.1 ▸ tightens_orphansStopped hphase
  . next hphase => exact h.1 ▸ tightens_of_late (fun _ => rfl) (fun _ => rfl) (fun _ => rfl) (hphase ▸ rfl) rfl
  . next hphase => exact h.1 ▸ tightens_showRows shares (hphase ▸ rfl) rfl
  . next hphase => exact h.1 ▸ tightens_showRows shares (hphase ▸ rfl) rfl
  . next hphase => exact h.1 ▸ tightens_showRows (!shares) (hphase ▸ rfl) rfl
  all_goals try exact h.1 ▸ tightens_refuse g
  . exact h.1 ▸ tightens_tick g _
  . contradiction

theorem task_of_event {v : GatewayEvent κ} {t : Task (Gateway κ) Answer (κ × Loc) LifecycleError Unit}
    (h : gatewayEvent ids p shares v g = some (g', t)) :
    t = .pure () ∨ ∃ id v', id ∈ ids ∧ onNode p v' = true ∧ t = inSession id (v'.task (g.sessions id)) := by
  unfold gatewayEvent at h
  split at h
  . next id v' =>
    split at h
    . next henabled =>
      simp only [Bool.and_eq_true, decide_eq_true_eq] at henabled
      simp only [Option.some.injEq, Prod.mk.injEq] at h
      exact .inr ⟨id, v', henabled.1.1, henabled.1.2, h.2.symm⟩
    . contradiction
  all_goals
    first
    | contradiction
    | exact .inl (congrArg Prod.snd (Option.some.inj h)).symm
    | (split at h; exact .inl (congrArg Prod.snd (Option.some.inj h)).symm; contradiction)

theorem orphans_valid : (orphans ids p shares).Valid where
  refl := rely_refl
  trans := rely_trans
  event w v s t hinv _ hevent := by
    have htight : Tightens p w.st s := tightens_event hinv.known hevent
    refine ⟨htight.keeps rfl hinv, ?_⟩
    have hfresh : NoneLoose p w.started ((gateway ids p shares).after w (.event w.started v) s) := by
      intro id e hcreator _
      exact absurd (hinv.started id e _ hcreator) (Nat.lt_irrefl _)
    rcases task_of_event hevent with rfl | ⟨id, v', hid, hv, rfl⟩
    . exact hfresh
    . exact safe_event hid hv hfresh

end Import

/--
Once the import has committed and all work has drained, every engine that is registered on the node
belongs to a session of the backup, or is named in a response that requires a restart: in every run in
which no launch lets an engine stand that the import has abandoned.
-/
theorem no_engine_unreported {init c : GatewayConfig κ} (hpool : init.pool = []) (hcreators : ∀ id e, init.hist id e = none)
    (hknown : ∀ id e, init.st.engine p id = some e → id ∈ ids) (hidle : init.st.data.phase = .idle)
    (h : (gateway ids p shares).Reach (fun w a => covered p w a = true) init c) (hdrained : c.drained = true)
    (hcommitted : c.st.data.phase = .committed) {id : κ} {e : Nat} (hengine : c.st.engine p id = some e) :
    c.st.data.restores id = true ∨ id ∈ c.st.data.orphanedEngines ∧ c.st.data.restartRequired = true := by
  have hinit : (orphans ids p shares).inv init.world := by
    constructor
    . exact hknown
    . intro id e tid hcreator
      have hcreator : init.hist id e = some tid := hcreator
      rw [hcreators] at hcreator
      contradiction
    . rintro id e ⟨_, habandons⟩
      have habandons : init.st.data.abandons id e = true := habandons
      simp [Import.abandons, hidle] at habandons
  have hholds := orphans_valid.holds hinit hpool h
  by_contra hunreported
  have hloose : c.st.Loose p id e := by
    refine ⟨hengine, ?_⟩
    rw [abandons_of_late (by rw [hcommitted]; rfl)]
    simp only [not_or, not_and, Bool.not_eq_true] at hunreported
    simp only [Import.reports, hunreported.1, Bool.not_false, Bool.true_and, Bool.not_eq_true']
    by_cases hlisted : id ∈ c.st.data.orphanedEngines
    . simp [hunreported.2 hlisted]
    . simp [hlisted]
  rcases hholds.inv.loose id e hloose with ⟨tid, hcreator⟩
  have hlt := hholds.inv.started id e tid hcreator
  have hget : c.pool[tid]? = some (c.pool.get ⟨tid, hlt⟩) := List.getElem?_eq_getElem hlt
  have hfinished : (c.pool.get ⟨tid, hlt⟩).finished = true := List.all_eq_true.mp hdrained _ (List.get_mem _ _)
  rcases hholds.finished hget hfinished with ⟨r, w, hrely, hpost⟩
  rcases hrely id e hcreator with ⟨hcreator', hloose'⟩
  exact hpost id e hcreator' (hloose' hloose)

end Outline

section Runs

/-- A linked session that is down, in a process that has just booted. -/
def downSession : State where
  row := some ⟨.disconnected, some ['6', '2'], none, none, none⟩
  writes := []
  rejected := []
  issued := 0
  now := 0
  leaseTtl := 60000
  host := id
  alive := [0]
  crashed := []
  node := fun _ => Node.booted

def downNode : GatewayConfig Nat where
  st := { sessions := fun _ => downSession, data := Import.none }
  hist := fun _ _ => none
  pool := []

/-- The turns of a start after its reservation, as the activation `tid`. -/
def restOfStart (id tid : Nat) : List (Move (GatewayEvent Nat) Answer) :=
  List.replicate 4 (.turn tid .ok) ++ .event (.session id (.database 0 false)) :: List.replicate 6 (.turn tid .ok)

/-- A start of a session and the turn that reserves its slot. -/
def reserve (id tid : Nat) : List (Move (GatewayEvent Nat) Answer) :=
  [.event (.session id (.start 0)), .turn tid .ok]

/-- A backup that holds the session 2 alone. -/
def backup : List (Nat × Session) := [(2, ⟨.ready, some ['6', '3'], none, none, none⟩)]

def replaceRows : List (Move (GatewayEvent Nat) Answer) :=
  [.event .startTransaction, .event .deleteSessions, .event .insertSessions, .event .commitTransaction]

/-- A forced import over a running session. -/
def forcedRun : List (Move (GatewayEvent Nat) Answer) :=
  reserve 0 0 ++ restOfStart 0 0 ++
    [.event (.importData backup false true), .event (.heldByOtherNodes [])] ++ replaceRows

theorem no_engine_unreported_forced :
    ∃ c, (gateway [0, 1, 2] 0 true).Reach (fun w a => covered 0 w a = true) downNode c ∧ c.st.engine 0 0 = some 0 ∧
      (c.st.data.restores 0 = true ∨ 0 ∈ c.st.data.orphanedEngines ∧ c.st.data.restartRequired = true) := by
  have hrun : ((gateway [0, 1, 2] 0 true).exec (fun w a => covered 0 w a = true) downNode forcedRun).map
      (fun c => (c.drained, c.st.data.phase matches .committed, c.st.engine 0 0)) = some (true, true, some 0) := by
    decide +kernel
  rcases System.reach_of_exec_map hrun with ⟨c, hreach, hobserved⟩
  simp only [Prod.mk.injEq] at hobserved
  rcases hobserved with ⟨hdrained, hphase, hengine⟩
  have hcommitted : c.st.data.phase = .committed := by
    split at hphase
    . assumption
    . exact absurd hphase Bool.false_ne_true
  refine ⟨c, hreach, hengine, ?_⟩
  refine no_engine_unreported rfl (fun _ _ => rfl) ?_ rfl hreach hdrained hcommitted hengine
  intro id e he
  cases he

/--
An import with `stopOrphans` finds session 0 starting and session 1 running. While session 1 is torn
down, the start of session 0 clears the stop mark, launches its engine and finds its row.
-/
def overtakenRun : List (Move (GatewayEvent Nat) Answer) :=
  reserve 1 0 ++ restOfStart 1 0 ++ reserve 0 2 ++
    [.event (.importData backup true false), .event (.heldByOtherNodes [])] ++ restOfStart 0 2 ++
    [.event (.orphanTorn 1 0 true), .event .orphansStopped] ++ replaceRows

theorem engine_survives_stopOrphans :
    ∃ c, (gateway [0, 1, 2] 0 true).Reach System.anyStep downNode c ∧ c.drained = true ∧
      (c.st.data.phase matches .committed) = true ∧ c.st.engine 0 0 = some 0 ∧ c.st.data.restores 0 = false ∧
      c.st.data.restartRequired = false := by
  have hrun : ((gateway [0, 1, 2] 0 true).exec System.anyStep downNode overtakenRun).map
      (fun c => (c.drained, c.st.data.phase matches .committed, c.st.engine 0 0, c.st.data.restores 0,
        c.st.data.restartRequired)) = some (true, true, some 0, false, false) := by
    decide +kernel
  rcases System.reach_of_exec_map hrun with ⟨c, hreach, hobserved⟩
  simp only [Prod.mk.injEq] at hobserved
  exact ⟨c, hreach, hobserved⟩

end Runs
end OpenWA.Restore
