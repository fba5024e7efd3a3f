import OpenWA.Js.Json
import OpenWA.Js.ExactNumber

/-!
This module contains the decision about the next reconnect of a session, and the law that the delays
of consecutive decisions follow.
-/

namespace OpenWA.Reconnect

open Js

structure ReconnectAttemptState where
  attempts : Nat
  maxAttempts : ExactNumber
  baseDelay : ExactNumber
deriving DecidableEq

inductive ReconnectDecision where
  | exhausted (reason : String)
  | schedule (delayMs : ExactNumber) (attempt : Nat) (loopAlert : Bool)
deriving DecidableEq

def RECONNECT_LOOP_ALERT_INTERVAL_ATTEMPTS : Nat := 5

def RECONNECT_DELAY_CAP_MS : Rat := 300000

def clampNumber (value min max : ExactNumber) : ExactNumber := ExactNumber.min (ExactNumber.max value min) max

def clampReconnectDelay (rawDelay baseDelay : ExactNumber) : ExactNumber :=
  clampNumber (if rawDelay.isFinite then rawDelay else baseDelay) (.finite 0)
    (.finite RECONNECT_DELAY_CAP_MS)

def decideReconnect (state : ReconnectAttemptState) (jitter : ExactNumber) :
    ReconnectDecision × ReconnectAttemptState :=
  if (ExactNumber.finite state.attempts).ge state.maxAttempts then
    (.exhausted
      (if state.maxAttempts = .finite 0 then
        "Auto-reconnect is disabled (max attempts set to 0); the session was left disconnected — " ++
          "restart it manually."
      else
        "Reconnection failed after " ++ toString state.attempts ++ " attempts — restart the session."),
      state)
  else
    let delayMs := clampReconnectDelay
      (((state.baseDelay).mul (.powTwo state.attempts)).add jitter) state.baseDelay
    let attempts := state.attempts + 1
    (.schedule delayMs attempts (attempts % RECONNECT_LOOP_ALERT_INTERVAL_ATTEMPTS == 0),
      { state with attempts := attempts })

section Config

def RECONNECT_BASE_DELAY_MIN_MS : Rat := 1000

def RECONNECT_BASE_DELAY_MAX_MS : Rat := 300000

def RECONNECT_MAX_ATTEMPTS_CAP : Rat := 20

/-- The untyped knobs of `session.config`. -/
structure ReconnectKnobs where
  maxReconnectAttempts : Option Json
  reconnectBaseDelay : Option Json

/-- The state a session starts its streak with; `number` is `Number(value)`, whatever the value. -/
def resolveReconnectConfig (number : Option Json → ExactNumber) (config : Option ReconnectKnobs) :
    ReconnectAttemptState :=
  let baseRaw := number (config.bind (·.reconnectBaseDelay))
  let attemptsRaw := number (config.bind (·.maxReconnectAttempts))
  { attempts := 0
    baseDelay := clampNumber (if baseRaw.isFinite then baseRaw else .finite 5000)
      (.finite RECONNECT_BASE_DELAY_MIN_MS) (.finite RECONNECT_BASE_DELAY_MAX_MS)
    maxAttempts :=
      if attemptsRaw.isFinite then
        (clampNumber attemptsRaw (.finite 0) (.finite RECONNECT_MAX_ATTEMPTS_CAP)).floor
      else .infinity }

end Config

theorem clampNumber_finite (a b c : Rat) :
    clampNumber (.finite a) (.finite b) (.finite c) = .finite (min (max a b) c) := by
  rw [clampNumber, ExactNumber.max_finite, ExactNumber.min_finite]

/-- What `resolveReconnectConfig` guarantees of its result. -/
structure Resolved (state : ReconnectAttemptState) (base : Rat) : Prop where
  attempts : state.attempts = 0
  budget : state.maxAttempts = .infinity ∨ ∃ m : Nat, state.maxAttempts = .finite m
  baseDelay : state.baseDelay = .finite base
  le_base : 1000 ≤ base
  base_le : base ≤ 300000

theorem resolved_config (number : Option Json → ExactNumber) (config : Option ReconnectKnobs) :
    ∃ base, Resolved (resolveReconnectConfig number config) base := by
  have hfinite : ∃ raw : Rat,
      (if (number (config.bind (·.reconnectBaseDelay))).isFinite then
        number (config.bind (·.reconnectBaseDelay)) else .finite 5000) = .finite raw := by
    cases number (config.bind (·.reconnectBaseDelay)) with
    | finite r => exact ⟨r, rfl⟩
    | _ => exact ⟨5000, rfl⟩
  rcases hfinite with ⟨raw, hraw⟩
  refine ⟨min (max raw 1000) 300000, rfl, ?_, ?_, ?_, min_le_right _ _⟩
  . cases h : number (config.bind (·.maxReconnectAttempts)) with
    | finite r =>
      have hfloor : 0 ≤ ⌊min (max r 0) 20⌋ := by
        rw [Int.floor_nonneg]
        exact le_min (le_max_right _ _) (by norm_num)
      refine .inr ⟨⌊min (max r 0) 20⌋.toNat, ?_⟩
      have hcast : ((⌊min (max r 0) 20⌋.toNat : Nat) : Rat) = (⌊min (max r 0) 20⌋ : Int) := by
        rw [← Int.cast_natCast, Int.toNat_of_nonneg hfloor]
      rw [hcast]
      simp only [resolveReconnectConfig, h, ExactNumber.isFinite, if_true, clampNumber_finite,
        RECONNECT_MAX_ATTEMPTS_CAP, ExactNumber.floor]
    | _ =>
      left
      simp [resolveReconnectConfig, h, ExactNumber.isFinite]
  . simp only [resolveReconnectConfig, hraw, clampNumber_finite, RECONNECT_BASE_DELAY_MIN_MS,
      RECONNECT_BASE_DELAY_MAX_MS]
  . exact le_min (le_max_right _ _) (by norm_num)

/-! ### Consecutive calls -/

/-- The state after `n` calls; call `n` draws the jitter `jitter n`. -/
def afterCalls (state : ReconnectAttemptState) (jitter : Nat → Rat) (n : Nat) :
    ReconnectAttemptState :=
  match n with
  | 0 => state
  | n + 1 => (decideReconnect (afterCalls state jitter n) (.finite (jitter (n + 1)))).2

/-- What call `n` decides; the first call is call 1. -/
def decision (state : ReconnectAttemptState) (jitter : Nat → Rat) (n : Nat) : ReconnectDecision :=
  (decideReconnect (afterCalls state jitter (n - 1)) (.finite (jitter n))).1

/-- `n <= maxAttempts` -/
def withinBudget (state : ReconnectAttemptState) (n : Nat) : Bool :=
  state.maxAttempts.ge (.finite n)

def lawfulDelay (base : Rat) (jitter : Nat → Rat) (n : Nat) : Rat :=
  min 300000 (base * 2 ^ (n - 1) + jitter n)

/-- What call `n` should decide. -/
def Lawful (state : ReconnectAttemptState) (base : Rat) (jitter : Nat → Rat) (n : Nat) : Prop :=
  if withinBudget state n then
    ∃ loopAlert, decision state jitter n = .schedule (.finite (lawfulDelay base jitter n)) n loopAlert
  else ∃ reason, decision state jitter n = .exhausted reason

def AtCap (state : ReconnectAttemptState) (jitter : Nat → Rat) (n : Nat) : Prop :=
  ∃ attempt loopAlert,
    decision state jitter n = .schedule (.finite RECONNECT_DELAY_CAP_MS) attempt loopAlert

/-- Call `n` decides what it should, and without a budget its delay is at the cap once an earlier one
was. -/
structure Obeys (state : ReconnectAttemptState) (base : Rat) (jitter : Nat → Rat) (n : Nat) : Prop where
  lawful : Lawful state base jitter n
  parks : state.maxAttempts = .infinity → ∀ m, 1 ≤ m → m ≤ n → AtCap state jitter m →
    AtCap state jitter n

/-- The calls beyond the budget, those whose product does not overflow, and those for which the delay
that is used instead of it is the cap. -/
def Computable (state : ReconnectAttemptState) (base : Rat) (n : Nat) : Prop :=
  withinBudget state n = false ∨ base * 2 ^ (n - 1) < 2 ^ 1024 ∨ base = RECONNECT_DELAY_CAP_MS

section Calls

variable {s : ReconnectAttemptState} {base : Rat} {j : Nat → Rat} {n : Nat}

theorem decideReconnect_config (x : ExactNumber) :
    (decideReconnect s x).2.maxAttempts = s.maxAttempts ∧
      (decideReconnect s x).2.baseDelay = s.baseDelay := by
  unfold decideReconnect
  split <;> exact ⟨rfl, rfl⟩

theorem afterCalls_config (s : ReconnectAttemptState) (j : Nat → Rat) (n : Nat) :
    (afterCalls s j n).maxAttempts = s.maxAttempts ∧
      (afterCalls s j n).baseDelay = s.baseDelay := by
  induction n with
  | zero => exact ⟨rfl, rfl⟩
  | succ n ih =>
    have h := decideReconnect_config (s := afterCalls s j n) (.finite (j (n + 1)))
    exact ⟨h.1.trans ih.1, h.2.trans ih.2⟩

/-- The budget is spent before the next call. -/
def spent (s : ReconnectAttemptState) : Bool :=
  (ExactNumber.finite s.attempts).ge s.maxAttempts

theorem attempts_decideReconnect (x : ExactNumber) :
    (decideReconnect s x).2.attempts =
      if spent s then s.attempts else s.attempts + 1 := by
  unfold decideReconnect spent
  split <;> rfl

theorem spent_eq (h : s.maxAttempts = .infinity ∨ ∃ m : Nat, s.maxAttempts = .finite m) :
    spent s = !withinBudget s (s.attempts + 1) := by
  rcases h with h | ⟨m, h⟩
  . simp [spent, withinBudget, h, ExactNumber.ge, ExactNumber.lt]
  . simp only [spent, withinBudget, h, ExactNumber.ge_finite]
    rw [Bool.eq_iff_iff]
    simp only [decide_eq_true_eq, Bool.not_eq_true', decide_eq_false_iff_not]
    rw [Nat.cast_le, Nat.cast_le]
    omega

theorem withinBudget_of_le {k : Nat}
    (h : s.maxAttempts = .infinity ∨ ∃ m : Nat, s.maxAttempts = .finite m)
    (hn : withinBudget s n = true) (hk : k ≤ n) : withinBudget s k = true := by
  rcases h with h | ⟨m, h⟩
  . simp [withinBudget, h, ExactNumber.ge, ExactNumber.lt]
  . simp only [withinBudget, h, ExactNumber.ge_finite, decide_eq_true_eq, Nat.cast_le] at hn ⊢
    omega

theorem withinBudget_afterCalls (k : Nat) :
    withinBudget (afterCalls s j n) k = withinBudget s k := by
  rw [withinBudget, withinBudget, (afterCalls_config s j n).1]

theorem attempts_afterCalls (h : Resolved s base) :
    (withinBudget s n = true → (afterCalls s j n).attempts = n) ∧
      (withinBudget s (n + 1) = false → spent (afterCalls s j n) = true) := by
  have hbudget (k : Nat) : spent (afterCalls s j k) =
      !withinBudget s ((afterCalls s j k).attempts + 1) := by
    rw [spent_eq, withinBudget_afterCalls]
    rw [(afterCalls_config s j k).1]
    exact h.budget
  induction n with
  | zero =>
    constructor
    . intro _
      exact h.attempts
    . intro hnext
      rw [hbudget, afterCalls, h.attempts, hnext]
      rfl
  | succ n ih =>
    have hcounted : withinBudget s (n + 1) = true →
        (afterCalls s j (n + 1)).attempts = n + 1 := by
      intro hwithin
      have hattempts := ih.1 (withinBudget_of_le h.budget hwithin (Nat.le_succ n))
      have hspent : spent (afterCalls s j n) = false := by
        rw [hbudget, hattempts, hwithin]
        rfl
      rw [afterCalls, attempts_decideReconnect, hspent, hattempts]
      rfl
    refine ⟨hcounted, fun hnext => ?_⟩
    cases hwithin : withinBudget s (n + 1) with
    | true => rw [hbudget, hcounted hwithin, hnext]; rfl
    | false =>
      have hspent := ih.2 hwithin
      rw [hbudget] at hspent ⊢
      rw [afterCalls, attempts_decideReconnect, hbudget, hspent]
      exact hspent

theorem decision_exhausted (h : Resolved s base) (hn : withinBudget s (n + 1) = false) :
    ∃ reason, decision s j (n + 1) = .exhausted reason := by
  have hspent := (attempts_afterCalls (j := j) h).2 hn
  unfold spent at hspent
  rw [decision, Nat.add_sub_cancel, decideReconnect, if_pos hspent]
  exact ⟨_, rfl⟩

theorem decision_schedule (h : Resolved s base) (hn : withinBudget s (n + 1) = true) :
    decision s j (n + 1) =
      .schedule
        (clampReconnectDelay ((ExactNumber.ofProduct (base * 2 ^ n)).add (.finite (j (n + 1))))
          (.finite base)) (n + 1) ((n + 1) % RECONNECT_LOOP_ALERT_INTERVAL_ATTEMPTS == 0) := by
  have hattempts := (attempts_afterCalls (j := j) h).1
    (withinBudget_of_le h.budget hn (Nat.le_succ n))
  have hconfig := afterCalls_config s j n
  have hspent : ¬ spent (afterCalls s j n) = true := by
    rw [spent_eq (hconfig.1 ▸ h.budget), withinBudget_afterCalls, hattempts, hn]
    decide
  unfold spent at hspent
  rw [decision, Nat.add_sub_cancel, decideReconnect, if_neg hspent, hattempts, hconfig.2, h.baseDelay,
    ExactNumber.mul_powTwo (by linarith [h.le_base])]

theorem delay_of_lt (h : Resolved s base) (hjitter : 0 ≤ j (n + 1))
    (hprod : base * 2 ^ n < 2 ^ 1024) :
    clampReconnectDelay ((ExactNumber.ofProduct (base * 2 ^ n)).add (.finite (j (n + 1))))
      (.finite base) = .finite (lawfulDelay base j (n + 1)) := by
  have hbase : 0 ≤ base := by linarith [h.le_base]
  have hpos : 0 ≤ base * 2 ^ n := by positivity
  rw [ExactNumber.ofProduct_of_lt hpos hprod]
  simp only [ExactNumber.add, clampReconnectDelay, ExactNumber.isFinite, if_true,
    RECONNECT_DELAY_CAP_MS, clampNumber_finite, lawfulDelay, Nat.add_sub_cancel]
  rw [max_eq_left (add_nonneg hpos hjitter), min_comm]

theorem delay_of_le (h : Resolved s base) (hprod : 2 ^ 1024 ≤ base * 2 ^ n) (r : Rat) :
    clampReconnectDelay ((ExactNumber.ofProduct (base * 2 ^ n)).add (.finite r)) (.finite base) =
      .finite base := by
  have hbase : 0 ≤ base := by linarith [h.le_base]
  rw [ExactNumber.ofProduct_of_le hprod]
  simp only [ExactNumber.add, clampReconnectDelay, ExactNumber.isFinite, Bool.false_eq_true, if_false,
    RECONNECT_DELAY_CAP_MS, clampNumber_finite]
  rw [max_eq_left hbase, min_eq_left h.base_le]

theorem lawfulDelay_of_le (hprod : 2 ^ 1024 ≤ base * 2 ^ n) (hjitter : 0 ≤ j (n + 1)) :
    lawfulDelay base j (n + 1) = 300000 := by
  have hcap : (300000 : Rat) ≤ 2 ^ 20 := by norm_num
  have hpow : (2 : Rat) ^ 20 ≤ 2 ^ 1024 := pow_le_pow_right₀ (by norm_num) (by norm_num)
  rw [lawfulDelay, Nat.add_sub_cancel, min_eq_left]
  exact (hcap.trans (hpow.trans hprod)).trans (le_add_of_nonneg_right hjitter)

theorem lawful_iff (h : Resolved s base) (hjitter : 0 ≤ j (n + 1)) :
    Lawful s base j (n + 1) ↔ Computable s base (n + 1) := by
  unfold Lawful Computable
  rw [Nat.add_sub_cancel]
  split
  . next hn =>
    rw [decision_schedule (j := j) h hn, hn]
    by_cases hprod : base * 2 ^ n < 2 ^ 1024
    . rw [delay_of_lt h hjitter hprod]
      exact iff_of_true ⟨_, rfl⟩ (.inr (.inl hprod))
    . have hle := not_lt.mp hprod
      rw [delay_of_le h hle, lawfulDelay_of_le hle hjitter]
      constructor
      . rintro ⟨_, heq⟩
        simp only [ReconnectDecision.schedule.injEq, ExactNumber.finite.injEq] at heq
        exact .inr (.inr heq.1)
      . rintro (hfalse | hlt | heq)
        . exact absurd hfalse (by decide)
        . exact absurd hlt hprod
        . rw [heq]
          exact ⟨_, rfl⟩
  . next hn =>
    have hfalse : withinBudget s (n + 1) = false := by simpa using hn
    exact iff_of_true (decision_exhausted h hfalse) (.inl hfalse)

theorem withinBudget_of_infinity (h : s.maxAttempts = .infinity) (k : Nat) :
    withinBudget s k = true := by
  simp [withinBudget, h, ExactNumber.ge, ExactNumber.lt]

theorem computable_of_le {m : Nat} (h : Resolved s base)
    (hmax : s.maxAttempts = .infinity) (hmn : m ≤ n) (hn : Computable s base (n + 1)) :
    Computable s base (m + 1) := by
  have hbase : 0 ≤ base := by linarith [h.le_base]
  rcases hn with hn | hn | hn
  . rw [withinBudget_of_infinity hmax] at hn
    exact absurd hn (by decide)
  . rw [Nat.add_sub_cancel] at hn
    right; left
    rw [Nat.add_sub_cancel]
    exact lt_of_le_of_lt (mul_le_mul_of_nonneg_left (pow_le_pow_right₀ (by norm_num) hmn) hbase) hn
  . exact .inr (.inr hn)

theorem atCap_iff (h : Resolved s base) (hmax : s.maxAttempts = .infinity)
    (hjitter : 0 ≤ j (n + 1)) (hn : Computable s base (n + 1)) :
    AtCap s j (n + 1) ↔ 300000 ≤ base * 2 ^ n + j (n + 1) := by
  have hlawful := (lawful_iff h hjitter).mpr hn
  rw [Lawful, if_pos (withinBudget_of_infinity hmax _)] at hlawful
  rcases hlawful with ⟨loopAlert, hdecision⟩
  unfold AtCap
  rw [hdecision, lawfulDelay, Nat.add_sub_cancel, RECONNECT_DELAY_CAP_MS]
  simp only [ReconnectDecision.schedule.injEq, ExactNumber.finite.injEq, min_eq_left_iff]
  constructor
  . rintro ⟨_, _, hle, _⟩
    exact hle
  . exact fun hle => ⟨n + 1, loopAlert, hle, rfl, rfl⟩

theorem obeys_iff (h : Resolved s base) (hjitter : ∀ n, 0 ≤ j n ∧ j n < 1000) :
    Obeys s base j (n + 1) ↔ Computable s base (n + 1) := by
  constructor
  . exact fun hobeys => (lawful_iff h (hjitter _).1).mp hobeys.lawful
  . intro hn
    refine ⟨(lawful_iff h (hjitter _).1).mpr hn, fun hmax m hm hmn hcap => ?_⟩
    rcases Nat.lt_or_ge m (n + 1) with hlt | hge
    . obtain ⟨m, rfl⟩ : ∃ k, m = k + 1 := ⟨m - 1, by omega⟩
      have hm' := computable_of_le h hmax (by omega : m ≤ n) hn
      rw [atCap_iff h hmax (hjitter _).1 hm'] at hcap
      rw [atCap_iff h hmax (hjitter _).1 hn]
      have hbase := h.le_base
      -- one more doubling makes up for the j that the earlier delay needed
      have hpow : (2 : Rat) ^ (m + 1) ≤ 2 ^ n := pow_le_pow_right₀ (by norm_num) (by omega)
      have hdouble : 2 * (base * 2 ^ m) ≤ base * 2 ^ n := by
        calc 2 * (base * 2 ^ m) = base * 2 ^ (m + 1) := by ring
          _ ≤ base * 2 ^ n := mul_le_mul_of_nonneg_left hpow (by linarith)
      linarith [(hjitter (m + 1)).2, (hjitter (n + 1)).1]
    . obtain rfl : m = n + 1 := by omega
      exact hcap

end Calls

/-- What call `n + 1` decides with the configuration of a session. -/
def ObeysConfig (number : Option Json → ExactNumber) (config : Option ReconnectKnobs)
    (jitter : Nat → Rat) (n : Nat) : Prop :=
  ∃ base, (resolveReconnectConfig number config).baseDelay = .finite base ∧
    Obeys (resolveReconnectConfig number config) base jitter (n + 1)

def ComputableConfig (number : Option Json → ExactNumber) (config : Option ReconnectKnobs)
    (n : Nat) : Prop :=
  ∃ base, (resolveReconnectConfig number config).baseDelay = .finite base ∧
    Computable (resolveReconnectConfig number config) base (n + 1)

/-- `Number(value)` of the values that a configuration holds here. -/
def numberOf (value : Option Json) : ExactNumber :=
  match value with
  | some (.number r) => .finite r
  | some .null => .finite 0
  | _ => .nan

theorem resolved_default : Resolved (resolveReconnectConfig numberOf none) 5000 where
  attempts := rfl
  budget := .inl rfl
  baseDelay := by
    simp only [resolveReconnectConfig, numberOf, Option.bind_none, ExactNumber.isFinite,
      Bool.false_eq_true, if_false, clampNumber_finite, RECONNECT_BASE_DELAY_MIN_MS,
      RECONNECT_BASE_DELAY_MAX_MS]
    norm_num
  le_base := by norm_num
  base_le := by norm_num

/-- **Main result**: every call decides what it should if and only if it is beyond the budget, the
product its delay is computed from is less than `2 ^ 1024`, or the base delay is the cap. -/
theorem obeys_iff_computable (number : Option Json → ExactNumber) (config : Option ReconnectKnobs)
    (jitter : Nat → Rat) (hjitter : ∀ n, 0 ≤ jitter n ∧ jitter n < 1000) (n : Nat) :
    ObeysConfig number config jitter n ↔ ComputableConfig number config n := by
  rcases resolved_config number config with ⟨base, h⟩
  constructor
  . rintro ⟨base', hbase', hobeys⟩
    obtain rfl : base = base' := ExactNumber.finite.inj (h.baseDelay.symm.trans hbase')
    exact ⟨base, hbase', (obeys_iff h hjitter).mp hobeys⟩
  . rintro ⟨base', hbase', hcomputable⟩
    obtain rfl : base = base' := ExactNumber.finite.inj (h.baseDelay.symm.trans hbase')
    exact ⟨base, hbase', (obeys_iff h hjitter).mpr hcomputable⟩

theorem obeys_iff_computable_default :
    ObeysConfig numberOf none (fun _ => 0) 6 ↔ ComputableConfig numberOf none 6 :=
  obeys_iff_computable numberOf none (fun _ => 0) (fun _ => ⟨le_rfl, by norm_num⟩) 6

/-- With the defaults, call 1012 waits five minutes and call 1013 five seconds. -/
theorem not_obeys_default :
    decision (resolveReconnectConfig numberOf none) (fun _ => 0) 1012 =
        .schedule (.finite 300000) 1012 false ∧
      decision (resolveReconnectConfig numberOf none) (fun _ => 0) 1013 =
        .schedule (.finite 5000) 1013 false ∧
      ¬ ObeysConfig numberOf none (fun _ => 0) 1012 := by
  have h := resolved_default
  have hbudget (n : Nat) : withinBudget (resolveReconnectConfig numberOf none) n = true :=
    withinBudget_of_infinity rfl n
  have hpow : (2 : Rat) ^ 1024 = 4096 * 2 ^ 1012 := by
    rw [show (4096 : Rat) = 2 ^ 12 by norm_num, ← pow_add]
  have hpos : (0 : Rat) < 2 ^ 1012 := by positivity
  have hprev : (5000 : Rat) * 2 ^ 1011 < 2 ^ 1024 := by
    have hdouble : (2 : Rat) ^ 1012 = 2 ^ 1011 * 2 := pow_succ 2 1011
    have hpos' : (0 : Rat) < 2 ^ 1011 := by positivity
    rw [hpow, hdouble]
    generalize (2 : Rat) ^ 1011 = x at *
    linarith only [hpos']
  have hover : (2 : Rat) ^ 1024 ≤ 5000 * 2 ^ 1012 := by
    rw [hpow]
    exact mul_le_mul_of_nonneg_right (by norm_num) hpos.le
  have hcap : lawfulDelay 5000 (fun _ => 0) 1012 = 300000 := by
    have hle : (2 : Rat) ^ 10 ≤ 2 ^ 1011 := pow_le_pow_right₀ (by norm_num) (by norm_num)
    rw [lawfulDelay, min_eq_left]
    rw [show 1012 - 1 = 1011 from rfl]
    generalize (2 : Rat) ^ 1011 = x at *
    norm_num at hle
    linarith
  refine ⟨?_, ?_, ?_⟩
  . rw [decision_schedule h (hbudget _),
      delay_of_lt (j := fun _ => 0) (n := 1011) h le_rfl hprev, hcap]
    rfl
  . rw [decision_schedule h (hbudget _), delay_of_le h hover]
    rfl
  . rintro ⟨base, hbase, hobeys⟩
    obtain rfl : 5000 = base := ExactNumber.finite.inj (h.baseDelay.symm.trans hbase)
    rcases (lawful_iff (j := fun _ => 0) h le_rfl).mp hobeys.lawful with hfalse | hlt | heq
    . rw [hbudget] at hfalse
      exact absurd hfalse (by decide)
    . exact absurd hlt (not_lt.mpr hover)
    . norm_num [RECONNECT_DELAY_CAP_MS] at heq

end OpenWA.Reconnect
