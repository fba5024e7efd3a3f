import OpenWA.Async.History
import OpenWA.Async.Outline
import OpenWA.Automation.Rules

/-!
This module contains what the rules come to over a run: a rule answers in a chat exactly when none of its
earlier answers there keeps it quiet, and a message is answered at most once.
-/

namespace OpenWA.Automation

open Async Js Concurrency

inductive Event where
  | inbound (sessionId : String) (message : Fields)
  /-- the rules are created, updated or removed -/
  | edit (rules : List AutomationRule)
  | learn (phones : Text → Option Text)

/-- A rule was chosen for a message; it replied unless it was in its cooldown. -/
structure Decision where
  tid : Nat
  question : Question
  rule : AutomationRule
  checked : Nat
  entered : Nat
  port : Bool
  replied : Bool

namespace Decision

def key (d : Decision) : String := cooldownKey d.rule d.question.chatId

/-- The time the rule stays quiet in the chat for, if it has a cooldown. -/
def period? (d : Decision) : Option (Period String) :=
  if d.replied && d.rule.cooldownSeconds ≠ 0 then
    some ⟨d.key, d.entered + d.rule.cooldownSeconds * 1000⟩
  else none

def reply? (d : Decision) : Option Reply :=
  if d.replied && d.port then
    some ⟨d.question.sessionId, d.question.chatId, d.rule.replyText⟩
  else none

end Decision

/-- The decisions of a run, and the last reading of the clock among them. -/
structure History where
  decisions : List Decision
  last : Nat

section System

variable (toLowerCase : Text → Text)

def decision? (tid : Nat) (q : Question) (x : Answer) (s : Automations) : Option Decision :=
  match x, q.choose toLowerCase s with
  | .decision checked _ entered port, some rule =>
    some ⟨tid, q, rule, checked, entered, port, !inCooldown s.cooldowns rule q.chatId checked⟩
  | _, _ => none

/-- The last of the readings. -/
def Answer.last? (x : Answer) : Option Nat :=
  match x with
  | .decision _ _ entered _ => some entered
  | _ => none

def noteDecision (a : Act Event Answer Place) (s _s' : Automations) (h : History) : History :=
  match a with
  | .turn tid (.decide q) x =>
    { decisions := h.decisions ++ (decision? toLowerCase tid q x s).toList
      last := x.last?.getD h.last }
  | _ => h

def Event.run (event : Event) (s : Automations) : Automations × Job Unit :=
  match event with
  | .inbound sessionId message => (s, evaluateInbound toLowerCase sessionId message)
  | .edit rules => ({ s with rules }, pure ())
  | .learn phones => ({ s with phones }, pure ())

def automationSystem : System Automations Answer Place Unit Event History where
  event v s := some (v.run toLowerCase s)
  note := noteDecision toLowerCase

end System

abbrev AutomationWorld := World Automations History

/-- The clock does not run backwards. -/
def Forward (w : AutomationWorld) (a : Act Event Answer Place) : Prop :=
  match a with
  | .turn _ (.decide _) (.decision checked swept entered _) =>
    w.hist.last ≤ checked ∧ checked ≤ swept ∧ swept ≤ entered
  | _ => True

instance (w : AutomationWorld) (a : Act Event Answer Place) : Decidable (Forward w a) :=
  match a with
  | .turn _ (.decide _) (.decision ..) => inferInstanceAs (Decidable (_ ∧ _ ∧ _))
  | .turn _ (.decide _) (.clock _) | .turn _ (.decide _) (.rows _) | .turn _ (.decide _) (.sent _)
  | .turn _ .receive _ | .turn _ .find _ | .turn _ .send _ | .event .. =>
    inferInstanceAs (Decidable True)

/-! ### The decisions of a run -/

/-- A rule replies unless one of its earlier replies in the chat still keeps it quiet. -/
def Paced (before : List Decision) (d : Decision) : Prop :=
  d.replied = true ↔ d.rule.cooldownSeconds = 0 ∨
    ∀ p ∈ before.filterMap Decision.period?, p.key = d.key → p.expiry ≤ d.checked

/-- The message may be answered, and by this rule. -/
structure Answerable (d : Decision) : Prop where
  fromMe : isFromMe d.question.message = false
  chat : chatIdOf d.question.message = some d.question.chatId
  fresh : isFresh d.question.received d.question.message = true
  rule : d.rule ∈ d.question.rules
  rules : ∀ rule ∈ d.question.rules, rule.enabled = true ∧ rule.sessionId = d.question.sessionId

/-- What holds between any two steps. -/
structure Sound (w : AutomationWorld) : Prop where
  mirrors : QuietPeriods.Mirrors w.st.cooldowns (w.hist.decisions.filterMap Decision.period?)
    w.hist.last
  paced : EachAfter Paced w.hist.decisions
  nodup : (w.hist.decisions.map (·.tid)).Nodup
  started : ∀ d ∈ w.hist.decisions, d.tid < w.started
  answerable : ∀ d ∈ w.hist.decisions, Answerable d
  sent : w.st.sent = w.hist.decisions.filterMap Decision.reply?

/-- The activation has decided about its message. -/
def Decided (i : Nat) (w : AutomationWorld) : Prop := i ∈ w.hist.decisions.map (·.tid)

section Outline

variable (toLowerCase : Text → Text)

def outline : Outline (automationSystem toLowerCase) where
  ok := Forward
  inv := Sound
  rely i w w' := Decided i w' ↔ Decided i w
  chk _ _ _ := True
  post _ _ _ := True

end Outline

variable {toLowerCase : Text → Text} {i : Nat} {w w' : AutomationWorld}

theorem Sound.same (h : Sound w) (hhist : w'.hist = w.hist)
    (hcooldowns : w'.st.cooldowns = w.st.cooldowns) (hsent : w'.st.sent = w.st.sent)
    (hstarted : w.started ≤ w'.started) : Sound w' where
  mirrors := by
    rw [hhist, hcooldowns]
    exact h.mirrors
  paced := hhist ▸ h.paced
  nodup := hhist ▸ h.nodup
  started := by
    rw [hhist]
    exact fun d hd => Nat.lt_of_lt_of_le (h.started d hd) hstarted
  answerable := hhist ▸ h.answerable
  sent := by
    rw [hhist, hsent]
    exact h.sent

/-- The clock was read, and nothing was decided. -/
theorem Sound.wait (h : Sound w) (hdecisions : w'.hist.decisions = w.hist.decisions)
    (hst : w'.st = w.st) (hlast : w.hist.last ≤ w'.hist.last) (hstarted : w'.started = w.started) :
    Sound w' where
  mirrors := by
    rw [hdecisions, hst]
    exact h.mirrors.later hlast
  paced := hdecisions ▸ h.paced
  nodup := hdecisions ▸ h.nodup
  started := by
    rw [hdecisions, hstarted]
    exact h.started
  answerable := hdecisions ▸ h.answerable
  sent := by
    rw [hdecisions, hst]
    exact h.sent

/-- The map decides as the history does. -/
theorem Sound.paced_decision (h : Sound w) {d : Decision} (hlast : w.hist.last ≤ d.checked)
    (hreplied : d.replied = !inCooldown w.st.cooldowns d.rule d.question.chatId d.checked) :
    Paced w.hist.decisions d := by
  unfold Paced
  rw [hreplied, Bool.not_eq_true']
  unfold inCooldown
  split
  . next hzero => simp [hzero]
  . next hnonzero =>
    rw [(h.mirrors.later hlast).not_quiet_iff]
    simp [hnonzero, Decision.key]

/-- What a question is made of before the rules are looked at. -/
structure Asked (q : Question) : Prop where
  fromMe : isFromMe q.message = false
  chat : chatIdOf q.message = some q.chatId
  fresh : isFresh q.received q.message = true
  rules : ∀ rule ∈ q.rules, rule.enabled = true ∧ rule.sessionId = q.sessionId

/-- A decision joins the history; the cooldowns and the replies follow it. -/
theorem Sound.concat (h : Sound w) {d : Decision} (hdecisions : w'.hist.decisions =
      w.hist.decisions ++ [d])
    (hmirrors : QuietPeriods.Mirrors w'.st.cooldowns
      (w.hist.decisions.filterMap Decision.period? ++ d.period?.toList) w'.hist.last)
    (hpaced : Paced w.hist.decisions d) (hnew : ¬Decided d.tid w) (hlt : d.tid < w.started)
    (hanswerable : Answerable d) (hsent : w'.st.sent = w.st.sent ++ d.reply?.toList)
    (hstarted : w'.started = w.started) : Sound w' where
  mirrors := by
    rw [hdecisions, List.filterMap_append]
    cases hperiod : d.period? <;> simpa [hperiod] using hmirrors
  paced := hdecisions ▸ h.paced.concat hpaced
  nodup := by
    rw [hdecisions, List.map_append, List.map_singleton, ← List.concat_eq_append]
    exact h.nodup.concat hnew
  started := by
    rw [hdecisions, hstarted]
    intro e he
    rcases List.mem_append.mp he with hold | hlast
    . exact h.started e hold
    . rw [List.mem_singleton.mp hlast]
      exact hlt
  answerable := by
    rw [hdecisions]
    intro e he
    rcases List.mem_append.mp he with hold | hlast
    . exact h.answerable e hold
    . rw [List.mem_singleton.mp hlast]
      exact hanswerable
  sent := by
    rw [hdecisions, List.filterMap_append, hsent, h.sent]
    cases hreply : d.reply? <;> simp [hreply]

theorem Sound.decide (h : Sound w) {q : Question} {x : Answer} (hasked : Asked q)
    (hok : Forward w (.turn i (.decide q) x)) (hx : x.isDecision = true) (hnew : ¬Decided i w)
    (hlt : i < w.started) :
    Sound ((automationSystem toLowerCase).after w (.turn i (.decide q) x)
      (decideReply toLowerCase q x w.st).1) := by
  cases x with
  | clock | rows | sent => contradiction
  | decision checked swept entered port =>
    rcases hok with ⟨hchecked, hswept, hentered⟩
    cases hchoose : q.choose toLowerCase w.st with
    | none =>
      apply h.wait
      . simp [automationSystem, System.after, noteDecision, decision?, hchoose]
      . simp [System.after, decideReply, hchoose]
      . exact Nat.le_trans hchecked (Nat.le_trans hswept hentered)
      . rfl
    | some rule =>
      let d : Decision := ⟨i, q, rule, checked, entered, port,
        !inCooldown w.st.cooldowns rule q.chatId checked⟩
      have hpaced : Paced w.hist.decisions d := h.paced_decision hchecked rfl
      have hdecisions : w.hist.decisions ++
          (decision? toLowerCase i q (.decision checked swept entered port) w.st).toList =
          w.hist.decisions ++ [d] := by
        simp [decision?, hchoose, d]
      have hanswerable : Answerable d :=
        ⟨hasked.fromMe, hasked.chat, hasked.fresh, List.mem_of_find?_eq_some hchoose, hasked.rules⟩
      refine h.concat hdecisions ?_ hpaced hnew hlt hanswerable ?_ rfl
      . change QuietPeriods.Mirrors (decideReply toLowerCase q _ w.st).1.cooldowns _ entered
        cases hcooldown : inCooldown w.st.cooldowns rule q.chatId checked with
        | true =>
          have hlater := h.mirrors.later (Nat.le_trans hchecked (Nat.le_trans hswept hentered))
          simpa [decideReply, hchoose, hcooldown, Decision.period?, d] using hlater
        | false =>
          have hcooldowns : (decideReply toLowerCase q (.decision checked swept entered port)
              w.st).1.cooldowns = enterCooldown w.st.cooldowns rule q.chatId swept entered := by
            simp only [decideReply, hchoose, hcooldown, Bool.false_eq_true, if_false]
            split <;> rfl
          rw [hcooldowns]
          unfold enterCooldown
          split
          . next hzero =>
            have hlater := h.mirrors.later (Nat.le_trans hchecked (Nat.le_trans hswept hentered))
            simpa [Decision.period?, d, hzero] using hlater
          . next hnonzero =>
            have hover : ∀ p ∈ w.hist.decisions.filterMap Decision.period?,
                p.key = d.key → p.expiry ≤ swept := by
              have hreplied : d.replied = true := by simp [d, hcooldown]
              rcases hpaced.mp hreplied with hzero | hquiet
              . exact absurd hzero hnonzero
              . exact fun p hp hkey => Nat.le_trans (hquiet p hp hkey) hswept
            have hentry : QuietPeriods.Mirrors (QuietPeriods.enter COOLDOWN_SWEEP_THRESHOLD
                w.st.cooldowns swept ⟨d.key, entered + rule.cooldownSeconds * 1000⟩)
                (w.hist.decisions.filterMap Decision.period? ++
                  [⟨d.key, entered + rule.cooldownSeconds * 1000⟩]) swept :=
              (h.mirrors.later (Nat.le_trans hchecked hswept)).enter hover
            have hperiod : d.period? = some ⟨d.key, entered + rule.cooldownSeconds * 1000⟩ := by
              simp [Decision.period?, d, hcooldown, hnonzero]
            rw [hperiod]
            exact hentry.later hentered
      . change (decideReply toLowerCase q _ w.st).1.sent = _
        cases hcooldown : inCooldown w.st.cooldowns rule q.chatId checked with
        | true => simp [decideReply, hchoose, hcooldown, Decision.reply?, d]
        | false => cases port <;> simp [decideReply, hchoose, hcooldown, Decision.reply?, d]

/-! ### Runs -/

theorem candidates_spec {s : Automations} {sessionId : String} {rule : AutomationRule}
    (h : rule ∈ candidates s sessionId) : rule.enabled = true ∧ rule.sessionId = sessionId := by
  have hmem := (List.perm_insertionSort _ _).mem_iff.mp h
  simp only [List.mem_filter, Bool.and_eq_true, decide_eq_true_eq] at hmem
  exact ⟨hmem.2.2, hmem.2.1⟩

/-- A turn that decides nothing and leaves the state as it is. -/
theorem safe_quiet {α : Type} {pt : Place} {ready : Answer → Automations → Bool}
    {f : Answer → Automations → Except Unit α} {Q : α → Prop} (hpt : ∀ q, pt ≠ .decide q)
    (hi : ¬Decided i w) (hQ : ∀ x s a, f x s = .ok a → Q a) :
    (outline toLowerCase).Safe i (.await pt ready fun x s => (s, f x s)) w
      (fun a w' => Q a ∧ ¬Decided i w') (fun _ _ => True) := by
  apply Outline.safe_await
  intro w' x hrely hinv _ _ _
  have hhist : ((automationSystem toLowerCase).after w' (.turn i pt x) w'.st).hist = w'.hist := by
    cases pt with
    | decide q => exact absurd rfl (hpt q)
    | receive | find | send => rfl
  refine ⟨⟨trivial, hinv.same hhist rfl rfl (Nat.le_refl _), fun j _ _ => ?_⟩, ?_⟩
  . change j ∈ _ ↔ j ∈ _
    rw [hhist]
  . have hi' : ¬Decided i ((automationSystem toLowerCase).after w' (.turn i pt x) w'.st) := by
      unfold Decided
      rw [hhist]
      exact fun hmem => hi (hrely.mp hmem)
    exact Outline.safe_ofExcept (fun a ha => ⟨hQ x w'.st a ha, hi'⟩) fun _ _ => trivial

theorem safe_evaluateInbound (sessionId : String) (message : Fields) (hi : ¬Decided i w) :
    (outline toLowerCase).Safe i (evaluateInbound toLowerCase sessionId message) w
      (fun _ _ => True) (fun _ _ => True) := by
  unfold evaluateInbound
  split
  . trivial
  next hfromMe =>
  split
  . trivial
  next chatId hchat =>
  have hreceive : (outline toLowerCase).Safe i (.await .receive (fun x _ => x.now?.isSome)
      fun x s => (s, .ok (x.now?.getD 0))) w (fun _ w' => True ∧ ¬Decided i w')
      (fun _ _ => True) :=
    safe_quiet (by simp) hi fun _ _ _ _ => trivial
  apply hreceive.seq _ fun _ _ _ => trivial
  rintro received w₁ ⟨-, hi₁⟩
  dsimp only
  split
  . trivial
  next hfresh =>
  have hfind : (outline toLowerCase).Safe i (.await .find (fun x _ => x.rows?.isSome) fun x s =>
      (s, .ok (if x.rows? = some true then candidates s sessionId else []))) w₁
      (fun rules w' => (∀ rule ∈ rules, rule.enabled = true ∧ rule.sessionId = sessionId) ∧
        ¬Decided i w') (fun _ _ => True) := by
    apply safe_quiet (by simp) hi₁
    intro x s rules hrules rule hrule
    rw [Except.ok.injEq] at hrules
    rw [← hrules] at hrule
    split at hrule
    . exact candidates_spec hrule
    . contradiction
  apply hfind.seq _ fun _ _ _ => trivial
  rintro rules w₂ ⟨hrules, hi₂⟩
  split
  . trivial
  have hasked : Asked ⟨sessionId, message, chatId, received, rules⟩ :=
    ⟨by simpa using hfromMe, hchat, by simpa using hfresh, hrules⟩
  apply Outline.Safe.bind
  apply Outline.safe_await
  intro w₃ x hrely hinv hlt hready hok
  have hi₃ : ¬Decided i w₃ := fun h => hi₂ (hrely.mp h)
  refine ⟨⟨trivial, hinv.decide hasked hok hready hi₃ hlt, fun j _ hne => ?_⟩, ?_⟩
  . change j ∈ (w₃.hist.decisions ++ Option.toList _).map _ ↔ j ∈ w₃.hist.decisions.map _
    have hnot : j ∉ (decision? toLowerCase i ⟨sessionId, message, chatId, received, rules⟩ x
        w₃.st).toList.map (·.tid) := by
      unfold decision?
      split
      . simp [hne]
      . simp
    rw [List.map_append, List.mem_append]
    simp [hnot]
  . simp only [Task.ofExcept_ok, Outline.safe_pure]
    split
    . trivial
    . apply Outline.safe_atomic
      intro w₄ x _ hinv _ _
      exact ⟨⟨trivial, hinv.same rfl rfl rfl (Nat.le_refl _), fun _ _ _ => Iff.rfl⟩, trivial⟩

theorem valid_outline : (outline toLowerCase).Valid where
  refl _ _ := Iff.rfl
  trans _ _ _ _ h h' := h'.trans h
  event w event s t hinv hok hevent := by
    simp only [automationSystem, Option.some.injEq] at hevent
    have hnot : ¬Decided w.started w := by
      intro hmem
      rcases List.mem_map.mp hmem with ⟨d, hd, heq⟩
      exact Nat.lt_irrefl _ (heq ▸ hinv.started d hd)
    have hkeeps (hcooldowns : s.cooldowns = w.st.cooldowns) (hsent : s.sent = w.st.sent) :
        (outline toLowerCase).Keeps w.started w (.event w.started event) s :=
      ⟨trivial, hinv.same rfl hcooldowns hsent (Nat.le_succ _), fun _ _ _ => Iff.rfl⟩
    cases event with
    | inbound sessionId message =>
      cases hevent
      exact ⟨hkeeps rfl rfl, safe_evaluateInbound sessionId message hnot⟩
    | edit | learn =>
      cases hevent
      exact ⟨hkeeps rfl rfl, trivial⟩

/-- The service after its start. -/
structure Started (c : Config Automations Answer Place Unit History) : Prop where
  cooldowns : c.st.cooldowns = .empty
  sent : c.st.sent = []
  decisions : c.hist.decisions = []
  pool : c.pool = []

variable {init c : Config Automations Answer Place Unit History}

theorem sound_of_reach (hinit : Started init)
    (h : (automationSystem toLowerCase).Reach Forward init c) : Sound c.world := by
  apply valid_outline.inv_of_reach _ hinit.pool h
  constructor
  . simp only [Config.world, hinit.cooldowns, hinit.decisions]
    exact QuietPeriods.mirrors_empty _
  . simp only [Config.world, hinit.decisions]
    exact eachAfter_nil
  . simp [Config.world, hinit.decisions]
  . simp [Config.world, hinit.decisions]
  . simp [Config.world, hinit.decisions]
  . simp [Config.world, hinit.decisions, hinit.sent]

/--
Whatever messages arrive, however their evaluations interleave with each other and with edits of the
rules, and whatever the map of cooldowns forgets: a chosen rule replies exactly when none of its earlier
replies in the chat keeps it quiet, so that two of them lie at least its cooldown apart.
-/
theorem paced_of_reach (hinit : Started init)
    (h : (automationSystem toLowerCase).Reach Forward init c) : EachAfter Paced c.hist.decisions :=
  (sound_of_reach hinit h).paced

section Sample

/-- A rule that answers everything, at most once a minute in a chat. -/
def sampleRule : AutomationRule := ⟨"r1", "s1", "We are away.", none, 60, true, 0⟩

def sampleConfig : Config Automations Answer Place Unit History where
  st := ⟨[sampleRule], .empty, fun _ => none, []⟩
  hist := ⟨[], 0⟩
  pool := []

theorem started_sampleConfig : Started sampleConfig := ⟨rfl, rfl, rfl, rfl⟩

/-- A message of the chat, decided about at the given time. -/
def sampleAnswer (tid now : Nat) : List (Move Event Answer) :=
  [.event (.inbound "s1" (.cons "chatId" (.string "c1") .nil)), .turn tid (.clock now),
    .turn tid (.rows true), .turn tid (.decision now now now true)]

/-- The second message comes within the minute. -/
def sampleMoves : List (Move Event Answer) :=
  sampleAnswer 0 1000 ++ sampleAnswer 1 2000 ++ sampleAnswer 2 61000

theorem paced_of_reach_sample : ∃ c, (automationSystem id).Reach Forward sampleConfig c ∧
    c.hist.decisions.map (·.replied) = [true, false, true] ∧ EachAfter Paced c.hist.decisions := by
  have hrun : ((automationSystem id).exec Forward sampleConfig sampleMoves).map
      (·.hist.decisions.map (·.replied)) = some [true, false, true] := by decide +kernel
  rcases System.reach_of_exec_map hrun with ⟨c, hreach, hreplied⟩
  exact ⟨c, hreach, hreplied, paced_of_reach started_sampleConfig hreach⟩

end Sample

end OpenWA.Automation
