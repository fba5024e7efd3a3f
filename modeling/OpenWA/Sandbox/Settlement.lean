import OpenWA.Sandbox.WorkerHost
import Mathlib.Data.List.Nodup

/-!
This module contains the accounting of the calls into a worker: each promise settles once, the
counters follow the outstanding calls, and nothing is outstanding in a dead worker.
-/

namespace OpenWA.Sandbox

open Js Async PluginWorkerHost

variable {δ : Type}

/-- The calls of a hook event whose promise is not settled. -/
def outstanding (h : PluginWorkerHost δ) (event : Text) : Nat :=
  h.calls.countP fun c => c.kind = .hook event && c.settlements.isEmpty

/-- Neither the post of a message nor the caller's `onTimeout` throws. -/
def Regular (_h : PluginWorkerHost δ) (event : Event δ) : Prop :=
  match event with
  | .load _ _ _ refused | .runLifecycle _ _ refused | .dispatchHook _ _ _ _ _ _ refused
  | .dispatchWebhook _ _ refused | .dispatchSearch _ _ refused | .healthCheck _ refused =>
    refused = none
  | .timeout _ _ onTimeoutThrows => onTimeoutThrows = false
  | .sendConfigChange _ | .terminate | .message _ | .capSettled _ _ | .capTimeout _ | .exit _ => True

instance (h : PluginWorkerHost δ) (event : Event δ) : Decidable (Regular h event) := by
  cases event <;> unfold Regular <;> infer_instance

/-- The map a result is looked up in, and its id. -/
def resultOf (message : WorkerToHostMessage δ) : Option (Field × Nat) :=
  match message with
  | .lifecycleResult id _ => some (.pending, id)
  | .hookResult id _ _ _ => some (.hookPending, id)
  | .webhookResult id _ _ _ _ => some (.webhookPending, id)
  | .healthResult id _ _ => some (.healthPending, id)
  | .searchResult id _ => some (.searchPending, id)
  | .ready | .error _ | .cap _ _ _ | .hookSubscribe _ _ | .webhookSubscribe _
  | .searchProviderRegister | .log _ => none

/-- The kinds of calls that always have a timeout. -/
def Kind.timed (kind : Kind) : Bool :=
  match kind with
  | .hook _ | .webhook | .health | .search => true
  | .load | .lifecycle _ => false

structure Settles (options : Options) (h : PluginWorkerHost δ) : Prop where
  /-- No promise settles twice. -/
  once : ∀ c ∈ h.calls, c.settlements.length ≤ 1
  /-- The promise of a dispatch that is not settled will be: its timeout is still to come. -/
  awaited : ∀ c ∈ h.calls, c.settlements = [] → c.kind.timed = true →
    (step options h (.timeout c.kind.field c.id false)).isSome
  /-- A result for an id that is unknown or settled changes nothing. -/
  ignored : ∀ message field id, resultOf message = some (field, id) →
    (∀ c ∈ h.calls, c.kind.field = field → c.id = id → c.settlements ≠ []) →
    step options h (.message message) = some h
  /-- The counters are the numbers of outstanding requests. -/
  inFlight : ∀ event, h.inFlight event = outstanding h event
  caps : h.inFlightCaps = h.caps.length
  /-- Nothing is left of a dead worker's calls. -/
  dead : h.dead = true → (∀ field, h.waiters field = []) ∧ ∀ c ∈ h.calls, c.settlements.length = 1

section Counters

variable (h : PluginWorkerHost δ)

theorem inFlight_inc (event e : Text) :
    (h.incInFlightHook event).inFlight e = if e = event then h.inFlight e + 1 else h.inFlight e := by
  unfold incInFlightHook inFlight
  rw [Map.get?_set]
  split
  . next he =>
    subst he
    rfl
  . rfl

theorem inFlight_dec (event e : Text) :
    (h.decInFlightHook event).inFlight e = if e = event then h.inFlight e - 1 else h.inFlight e := by
  unfold decInFlightHook
  cases hcount : h.inFlightHookEvents.get? event with
  | none =>
    dsimp only
    split
    . next he =>
      subst he
      simp [inFlight, hcount]
    . rfl
  | some count =>
    dsimp only
    split
    . next hle =>
      unfold inFlight
      rw [Map.get?_delete]
      split
      . next he =>
        subst he
        simp [hcount]
        omega
      . rfl
    . unfold inFlight
      rw [Map.get?_set]
      split
      . next he =>
        subst he
        simp [hcount]
      . rfl

theorem countP_modify {α : Type} (p : α → Bool) (f : α → α) {l : List α} {i : Nat} {x : α}
    (hget : l[i]? = some x) :
    (l.modify i f).countP p + (p x).toNat = l.countP p + (p (f x)).toNat := by
  induction l generalizing i with
  | nil => simp at hget
  | cons y l ih =>
    cases i with
    | zero =>
      simp only [List.getElem?_cons_zero, Option.some.injEq] at hget
      subst hget
      simp only [List.modify_zero_cons, List.countP_cons]
      cases p y <;> cases p (f y) <;> simp
    | succ i =>
      simp only [List.getElem?_cons_succ] at hget
      have := ih hget
      simp only [List.modify_succ_cons, List.countP_cons]
      omega

end Counters

section Accounting

@[simp]
theorem waiters_setWaiters (h : PluginWorkerHost δ) (field f : Field) (ws : List Waiter) :
    (h.setWaiters field ws).waiters f = if f = field then ws else h.waiters f := rfl

variable (h : PluginWorkerHost δ) (w : Waiter) (outcome : Outcome δ)

theorem dec_eq (event : Text) : ∃ counts,
    h.decInFlightHook event = { h with inFlightHookEvents := counts } := by
  unfold decInFlightHook
  split
  . exact ⟨h.inFlightHookEvents, rfl⟩
  . split <;> exact ⟨_, rfl⟩

theorem settle_eq : ∃ counts, h.settle w outcome =
    { h with
      inFlightHookEvents := counts
      calls := h.calls.modify w.call fun c =>
        { c with settlements := c.settlements ++ [outcome] } } := by
  unfold settle
  split
  . next event _ =>
    rcases dec_eq h event with ⟨counts, heq⟩
    exact ⟨counts, by rw [heq]; rfl⟩
  all_goals exact ⟨h.inFlightHookEvents, rfl⟩

theorem inFlight_settle (e : Text) :
    (h.settle w outcome).inFlight e =
      if w.kind = .hook e then h.inFlight e - 1 else h.inFlight e := by
  unfold settle
  cases w.kind with
  | hook event =>
    have hdec : ((h.decInFlightHook event).resolve w.call outcome).inFlight e =
        (h.decInFlightHook event).inFlight e := rfl
    dsimp only
    rw [hdec, inFlight_dec]
    by_cases heq : e = event
    . simp [heq]
    . simp [heq, Ne.symm heq]
  | load => rfl
  | lifecycle method => rfl
  | webhook => rfl
  | health => rfl
  | search => rfl

theorem settle_setWaiters (field : Field) (ws : List Waiter) :
    (h.setWaiters field ws).settle w outcome = (h.settle w outcome).setWaiters field ws := by
  unfold settle
  split
  . next event =>
    unfold decInFlightHook
    dsimp only [setWaiters]
    split
    . rfl
    . split <;> rfl
  all_goals rfl

theorem foldl_settle_setWaiters (field : Field) (ws l : List Waiter) :
    l.foldl (fun h w => h.settle w outcome) (h.setWaiters field ws) =
      (l.foldl (fun h w => h.settle w outcome) h).setWaiters field ws := by
  induction l generalizing h with
  | nil => rfl
  | cons w l ih =>
    rw [List.foldl_cons, settle_setWaiters, ih, List.foldl_cons]

/-- The entries of the maps and the unsettled calls are the same, and the counters count them. -/
structure Accounted (h : PluginWorkerHost δ) : Prop where
  entry : ∀ field, ∀ w ∈ h.waiters field,
    w.kind.field = field ∧ h.calls[w.call]? = some ⟨w.id, w.kind, []⟩
  timed : ∀ field, ∀ w ∈ h.waiters field, w.kind.timed = true → w.timeoutMs.isSome
  keys : ∀ field, ((h.waiters field).map (·.id)).Nodup
  fresh : ∀ field, ∀ w ∈ h.waiters field, w.id < h.freshId w.kind
  waits : ∀ i c, h.calls[i]? = some c → c.settlements = [] →
    ∃ w ∈ h.waiters c.kind.field, w.call = i
  once : ∀ c ∈ h.calls, c.settlements.length ≤ 1
  inFlight : ∀ event, h.inFlight event = outstanding h event

variable {h w}

theorem Accounted.eq_of_id (ha : Accounted h) {field : Field} {w w' : Waiter}
    (hw : w ∈ h.waiters field) (hw' : w' ∈ h.waiters field) (hid : w.id = w'.id) : w = w' :=
  List.inj_on_of_nodup_map (ha.keys field) hw hw' hid

theorem Accounted.eq_of_call (ha : Accounted h) {field field' : Field} {w w' : Waiter}
    (hw : w ∈ h.waiters field) (hw' : w' ∈ h.waiters field') (hcall : w.call = w'.call) :
    field = field' ∧ w = w' := by
  rcases ha.entry field w hw with ⟨hfield, hget⟩
  rcases ha.entry field' w' hw' with ⟨hfield', hget'⟩
  rw [hcall, hget', Option.some.injEq, Call.mk.injEq] at hget
  have heq : field = field' := by rw [← hfield, ← hfield', hget.2.1]
  subst heq
  exact ⟨rfl, ha.eq_of_id hw hw' hget.1.symm⟩

/-- The entries that are left when the one of a map with the id of `w` is deleted. -/
def rest (h : PluginWorkerHost δ) (field : Field) (w : Waiter) : List Waiter :=
  (h.waiters field).filter fun w' => w'.id ≠ w.id

theorem Accounted.mem_rest (ha : Accounted h) {field f : Field} (hw : w ∈ h.waiters field)
    {w' : Waiter} (hw' : w' ∈ (h.setWaiters field (rest h field w)).waiters f) :
    w' ∈ h.waiters f ∧ w'.call ≠ w.call := by
  rw [waiters_setWaiters] at hw'
  split at hw'
  . next hf =>
    subst hf
    simp only [rest, List.mem_filter, decide_eq_true_eq] at hw'
    exact ⟨hw'.1, fun hcall => hw'.2 (congrArg Waiter.id (ha.eq_of_call hw'.1 hw hcall).2)⟩
  . next hf =>
    exact ⟨hw', fun hcall => hf (ha.eq_of_call hw' hw hcall).1⟩

theorem Accounted.finish (ha : Accounted h) {field : Field} (hw : w ∈ h.waiters field) :
    Accounted ((h.setWaiters field (rest h field w)).settle w outcome) := by
  rcases ha.entry field w hw with ⟨hfield, hget⟩
  rcases settle_eq (h.setWaiters field (rest h field w)) w outcome with ⟨counts, heq⟩
  refine ⟨?_, ?_, ?_, ?_, ?_, ?_, ?_⟩
  . intro f w' hw'
    rw [heq] at hw' ⊢
    rcases ha.mem_rest hw hw' with ⟨hmem, hne⟩
    refine ⟨(ha.entry f w' hmem).1, ?_⟩
    dsimp only [setWaiters]
    rw [List.getElem?_modify_ne _ _ hne.symm]
    exact (ha.entry f w' hmem).2
  . intro f w' hw'
    rw [heq] at hw'
    exact ha.timed f w' (ha.mem_rest hw hw').1
  . intro f
    rw [heq]
    dsimp only
    rw [waiters_setWaiters]
    split
    . exact (ha.keys field).sublist (List.filter_sublist.map _)
    . exact ha.keys f
  . intro f w' hw'
    rw [heq] at hw' ⊢
    have := ha.fresh f w' (ha.mem_rest hw hw').1
    unfold freshId at this ⊢
    dsimp only [setWaiters]
    rwa [List.length_modify]
  . intro i c hc hsettlements
    rw [heq] at hc ⊢
    dsimp only [setWaiters] at hc
    by_cases hi : i = w.call
    . subst hi
      rw [List.getElem?_modify_eq, hget] at hc
      simp only [Option.map_eq_map, Option.map_some, Option.some.injEq] at hc
      subst hc
      simp at hsettlements
    . rw [List.getElem?_modify_ne _ _ (Ne.symm hi)] at hc
      rcases ha.waits i c hc hsettlements with ⟨w', hw', hcall⟩
      refine ⟨w', ?_, hcall⟩
      dsimp only
      rw [waiters_setWaiters]
      split
      . next hf =>
        rw [hf] at hw'
        have hid : w'.id ≠ w.id := by
          intro hid
          exact hi (hcall ▸ congrArg Waiter.call (ha.eq_of_id hw' hw hid))
        simpa [rest] using ⟨hw', hid⟩
      . exact hw'
  . intro c hc
    rw [heq] at hc
    rcases List.getElem?_of_mem hc with ⟨i, hi⟩
    dsimp only [setWaiters] at hi
    by_cases hcall : i = w.call
    . subst hcall
      rw [List.getElem?_modify_eq, hget] at hi
      simp only [Option.map_eq_map, Option.map_some, Option.some.injEq] at hi
      subst hi
      simp
    . rw [List.getElem?_modify_ne _ _ (Ne.symm hcall)] at hi
      exact ha.once c (List.mem_of_getElem? hi)
  . intro event
    have hcount := countP_modify (fun c : Call δ => c.kind = .hook event && c.settlements.isEmpty)
      (fun c => { c with settlements := c.settlements ++ [outcome] }) hget
    have hin := ha.inFlight event
    have hsame : (h.setWaiters field (rest h field w)).inFlight event = h.inFlight event := rfl
    rw [inFlight_settle, hsame, hin]
    rw [heq]
    unfold outstanding
    dsimp only [setWaiters]
    simp only [List.nil_append, List.isEmpty_cons, Bool.and_false, Bool.toNat_false,
      Nat.add_zero, List.isEmpty_nil, Bool.and_true] at hcount
    rw [← hcount]
    by_cases hkind : w.kind = .hook event
    . simp [hkind]
    . simp [hkind]

theorem take_eq_none {field : Field} {id : Nat} (ht : h.take field id = none) :
    ∀ w ∈ h.waiters field, w.id ≠ id := by
  unfold take at ht
  split at ht
  . next hfind => simpa using hfind
  . contradiction

theorem take_eq_some {field : Field} {id : Nat} {h' : PluginWorkerHost δ}
    (ht : h.take field id = some (w, h')) :
    w ∈ h.waiters field ∧ w.id = id ∧ h' = h.setWaiters field (rest h field w) := by
  unfold take at ht
  split at ht
  . contradiction
  . next w' hfind =>
    simp only [Option.some.injEq, Prod.mk.injEq] at ht
    rcases ht with ⟨rfl, rfl⟩
    have hid : w'.id = id := by simpa using List.find?_some hfind
    exact ⟨List.mem_of_find?_eq_some hfind, hid, by rw [rest, hid]⟩

theorem Accounted.answer (ha : Accounted h) (field : Field) (id : Nat) :
    Accounted (h.answer field id outcome) := by
  unfold PluginWorkerHost.answer
  split
  . exact ha
  . next w h' ht =>
    rcases take_eq_some ht with ⟨hw, -, rfl⟩
    exact ha.finish outcome hw

theorem Accounted.expire (ha : Accounted h) {field : Field} {id : Nat} {h' : PluginWorkerHost δ}
    (he : h.expire field id false = some h') : Accounted h' := by
  unfold PluginWorkerHost.expire at he
  split at he
  . contradiction
  . next w h₁ ht =>
    rcases take_eq_some ht with ⟨hw, -, rfl⟩
    split at he
    . contradiction
    . simp only [Bool.false_eq_true, if_false, Option.some.injEq] at he
      subst he
      exact ha.finish _ hw

theorem setWaiters_setWaiters (field : Field) (ws ws' : List Waiter) :
    (h.setWaiters field ws).setWaiters field ws' = h.setWaiters field ws' := by
  unfold setWaiters
  congr
  funext f
  split
  . rfl
  . next hf => exact if_neg hf

theorem Accounted.drain (ha : Accounted h) (field : Field) :
    Accounted (h.drain field outcome) := by
  unfold PluginWorkerHost.drain
  generalize hl : h.waiters field = l
  induction l generalizing h with
  | nil =>
    have hsame : h.setWaiters field [] = h := by
      unfold setWaiters
      congr
      funext f
      split
      . next hf => rw [hf, hl]
      . rfl
    rw [List.foldl_nil, hsame]
    exact ha
  | cons w l ih =>
    have hw : w ∈ h.waiters field := by simp [hl]
    have hrest : rest h field w = l := by
      have hkeys := ha.keys field
      rw [hl, List.map_cons, List.nodup_cons] at hkeys
      unfold rest
      rw [hl, List.filter_cons_of_neg (by simp), List.filter_eq_self]
      intro w' hw'
      have hne : w'.id ≠ w.id := fun hid => hkeys.1 (hid ▸ List.mem_map_of_mem hw')
      simpa using hne
    have hfinish := ha.finish outcome hw
    rw [hrest] at hfinish
    have hleft : ((h.setWaiters field l).settle w outcome).waiters field = l := by
      rcases settle_eq (h.setWaiters field l) w outcome with ⟨counts, heq⟩
      simp [heq]
    have := ih hfinish hleft
    rw [settle_setWaiters, foldl_settle_setWaiters, setWaiters_setWaiters] at this
    exact this

theorem countIn_eq (h : PluginWorkerHost δ) (kind : Kind) : ∃ counts,
    h.countIn kind = { h with inFlightHookEvents := counts } := by
  unfold countIn
  split
  . exact ⟨_, rfl⟩
  all_goals exact ⟨h.inFlightHookEvents, rfl⟩

theorem inFlight_countIn (h : PluginWorkerHost δ) (kind : Kind) (e : Text) :
    (h.countIn kind).inFlight e = if kind = .hook e then h.inFlight e + 1 else h.inFlight e := by
  unfold countIn
  cases kind with
  | hook event =>
    dsimp only
    rw [inFlight_inc]
    by_cases heq : e = event
    . simp [heq]
    . simp [heq, Ne.symm heq]
  | load => rfl
  | lifecycle method => rfl
  | webhook => rfl
  | health => rfl
  | search => rfl

/-- Two kinds that share a map share their ids. -/
theorem freshId_of_field (h : PluginWorkerHost δ) {kind kind' : Kind}
    (hf : kind.field = kind'.field) : h.freshId kind = h.freshId kind' := by
  unfold freshId
  cases kind <;> cases kind' <;> simp_all [Kind.field]

theorem Accounted.register (ha : Accounted h) {kind : Kind} {timeoutMs : Option Nat}
    (htimed : kind.timed = true → timeoutMs.isSome) (message : Nat → HostToWorkerMessage δ) :
    Accounted (h.register kind timeoutMs none message) := by
  rcases countIn_eq h kind with ⟨counts, heq⟩
  have hwaiters : ∀ f, ∀ w ∈ (h.register kind timeoutMs none message).waiters f,
      w ∈ h.waiters f ∨ f = kind.field ∧
        w = { id := h.freshId kind, call := h.calls.length, kind, timeoutMs } := by
    intro f w hw
    unfold PluginWorkerHost.register setEntry at hw
    rw [heq] at hw
    dsimp only at hw
    split at hw
    . next hf =>
      rw [List.mem_append, List.mem_singleton] at hw
      exact hw.imp_right fun hw => ⟨hf, hw⟩
    . exact .inl hw
  have hcalls : (h.register kind timeoutMs none message).calls =
      h.calls ++ [⟨h.freshId kind, kind, []⟩] := by
    unfold PluginWorkerHost.register setEntry
    rw [heq]
    rfl
  have hnext : ∀ k, h.freshId k ≤ (h.register kind timeoutMs none message).freshId k ∧
      (k.field = kind.field → h.freshId k < (h.register kind timeoutMs none message).freshId k) := by
    intro k
    unfold freshId
    rw [hcalls]
    unfold PluginWorkerHost.register setEntry
    rw [heq]
    cases k <;> cases kind <;> simp [Kind.field]
  refine ⟨?_, ?_, ?_, ?_, ?_, ?_, ?_⟩
  . intro f w hw
    rw [hcalls]
    rcases hwaiters f w hw with hw | ⟨rfl, rfl⟩
    . rcases ha.entry f w hw with ⟨hf, hget⟩
      have hlt := (List.getElem?_eq_some_iff.mp hget).1
      exact ⟨hf, by rw [List.getElem?_append_left hlt, hget]⟩
    . simp
  . intro f w hw
    rcases hwaiters f w hw with hw | ⟨rfl, rfl⟩
    . exact ha.timed f w hw
    . exact htimed
  . intro f
    unfold PluginWorkerHost.register setEntry
    rw [heq]
    dsimp only
    split
    . next hf =>
      have hold := ha.keys f
      simp only [List.map_append, List.map_cons, List.map_nil, List.nodup_append, hold, true_and,
        List.nodup_cons, List.not_mem_nil, not_false_eq_true, List.nodup_nil, List.mem_map,
        List.mem_singleton]
      rintro _ ⟨w, hw, rfl⟩ _ rfl hid
      have hkind := freshId_of_field h ((ha.entry f w hw).1.trans hf)
      have := ha.fresh f w hw
      unfold freshId at *
      dsimp only at *
      omega
    . exact ha.keys f
  . intro f w hw
    rcases hwaiters f w hw with hw | ⟨rfl, rfl⟩
    . exact Nat.lt_of_lt_of_le (ha.fresh f w hw) (hnext w.kind).1
    . exact (hnext kind).2 rfl
  . intro i c hc hsettlements
    rw [hcalls] at hc
    unfold PluginWorkerHost.register setEntry
    rw [heq]
    dsimp only
    rcases Nat.lt_or_ge i h.calls.length with hi | hi
    . rw [List.getElem?_append_left hi] at hc
      rcases ha.waits i c hc hsettlements with ⟨w, hw, hcall⟩
      refine ⟨w, ?_, hcall⟩
      split
      . exact List.mem_append_left _ hw
      . exact hw
    . rw [List.getElem?_append_right hi, List.getElem?_singleton] at hc
      split at hc
      . next hlast =>
        simp only [Option.some.injEq] at hc
        subst hc
        exact ⟨_, by rw [if_pos rfl]; exact List.mem_append_right _ List.mem_cons_self, by
          dsimp only
          omega⟩
      . contradiction
  . intro c hc
    rw [hcalls, List.mem_append, List.mem_singleton] at hc
    rcases hc with hc | rfl
    . exact ha.once c hc
    . simp
  . intro event
    have hin : (h.register kind timeoutMs none message).inFlight event =
        (h.countIn kind).inFlight event := rfl
    unfold outstanding
    rw [hin, inFlight_countIn, hcalls, List.countP_append, ha.inFlight event, outstanding]
    by_cases hkind : kind = .hook event
    . simp [hkind]
    . simp [hkind]

theorem Accounted.settled (ha : Accounted h) (kind : Kind) : Accounted (h.settled kind outcome) := by
  refine ⟨?_, ha.timed, ha.keys, ?_, ?_, ?_, ?_⟩
  . intro f w hw
    rcases ha.entry f w hw with ⟨hf, hget⟩
    have hlt := (List.getElem?_eq_some_iff.mp hget).1
    exact ⟨hf, (List.getElem?_append_left hlt).trans hget⟩
  . intro f w hw
    have := ha.fresh f w hw
    unfold freshId PluginWorkerHost.settled at *
    dsimp only
    rw [List.length_append]
    split <;> simp_all
    omega
  . intro i c hc hsettlements
    unfold PluginWorkerHost.settled at hc
    dsimp only at hc
    rcases Nat.lt_or_ge i h.calls.length with hi | hi
    . rw [List.getElem?_append_left hi] at hc
      exact ha.waits i c hc hsettlements
    . rw [List.getElem?_append_right hi, List.getElem?_singleton] at hc
      split at hc
      . simp only [Option.some.injEq] at hc
        subst hc
        simp at hsettlements
      . contradiction
  . intro c hc
    unfold PluginWorkerHost.settled at hc
    rw [List.mem_append, List.mem_singleton] at hc
    rcases hc with hc | rfl
    . exact ha.once c hc
    . simp
  . intro event
    have hin : (h.settled kind outcome).inFlight event = h.inFlight event := rfl
    rw [hin, ha.inFlight event]
    unfold outstanding PluginWorkerHost.settled
    simp [List.countP_append]

end Accounting

section Frame

variable {h h' h'' : PluginWorkerHost δ} {w : Waiter} {outcome : Outcome δ}

/-- The parts of a host that the settlement of calls leaves alone. -/
structure Untouched (h h' : PluginWorkerHost δ) : Prop where
  dead : h'.dead = h.dead
  inFlightCaps : h'.inFlightCaps = h.inFlightCaps
  caps : h'.caps = h.caps
  capsStarted : h'.capsStarted = h.capsStarted

theorem Untouched.refl : Untouched h h := ⟨rfl, rfl, rfl, rfl⟩

theorem Untouched.trans (hu : Untouched h h') (hu' : Untouched h' h'') : Untouched h h'' where
  dead := hu'.dead.trans hu.dead
  inFlightCaps := hu'.inFlightCaps.trans hu.inFlightCaps
  caps := hu'.caps.trans hu.caps
  capsStarted := hu'.capsStarted.trans hu.capsStarted

theorem untouched_settle : Untouched h (h.settle w outcome) := by
  rcases settle_eq h w outcome with ⟨counts, heq⟩
  rw [heq]
  exact ⟨rfl, rfl, rfl, rfl⟩

theorem untouched_drain (field : Field) : Untouched h (h.drain field outcome) := by
  have hfold : ∀ l : List Waiter, ∀ g : PluginWorkerHost δ,
      Untouched g (l.foldl (fun h w => h.settle w outcome) g) := by
    intro l
    induction l with
    | nil => exact fun g => .refl
    | cons w l ih => exact fun g => untouched_settle.trans (ih _)
  have := hfold (h.waiters field) h
  exact ⟨this.dead, this.inFlightCaps, this.caps, this.capsStarted⟩

theorem untouched_take {field : Field} {id : Nat} (ht : h.take field id = some (w, h')) :
    Untouched h h' := by
  rcases take_eq_some ht with ⟨-, -, rfl⟩
  exact ⟨rfl, rfl, rfl, rfl⟩

theorem untouched_answer (field : Field) (id : Nat) : Untouched h (h.answer field id outcome) := by
  unfold PluginWorkerHost.answer
  split
  . exact .refl
  . next ht => exact (untouched_take ht).trans untouched_settle

theorem untouched_expire {field : Field} {id : Nat} {throws : Bool}
    (he : h.expire field id throws = some h') : Untouched h h' := by
  unfold PluginWorkerHost.expire at he
  split at he
  . contradiction
  . next ht =>
    split at he
    . contradiction
    . simp only [Option.some.injEq] at he
      subst he
      split
      . exact untouched_take ht
      . exact (untouched_take ht).trans untouched_settle

theorem untouched_register (kind : Kind) (timeoutMs : Option Nat)
    (message : Nat → HostToWorkerMessage δ) :
    Untouched h (h.register kind timeoutMs none message) := by
  unfold register setEntry
  rcases countIn_eq h kind with ⟨counts, heq⟩
  rw [heq]
  exact ⟨rfl, rfl, rfl, rfl⟩

theorem waiters_drain (field f : Field) :
    (h.drain field outcome).waiters f = if f = field then [] else h.waiters f := by
  have hfold : ∀ l : List Waiter, ∀ g : PluginWorkerHost δ,
      (l.foldl (fun h w => h.settle w outcome) g).waiters = g.waiters := by
    intro l
    induction l with
    | nil => exact fun g => rfl
    | cons w l ih =>
      intro g
      rcases settle_eq g w outcome with ⟨counts, heq⟩
      rw [List.foldl_cons, ih, heq]
  unfold drain
  rw [waiters_setWaiters, hfold]

/-- Nothing waits for a dead worker. -/
def Stopped (h : PluginWorkerHost δ) : Prop := h.dead = true → ∀ field, h.waiters field = []

theorem Stopped.take (hs : Stopped h) {field : Field} {id : Nat}
    (ht : h.take field id = some (w, h')) : h.dead = false := by
  by_contra hdead
  have hempty := hs (by simpa using hdead) field
  rcases take_eq_some ht with ⟨hw, -, -⟩
  simp [hempty] at hw

theorem Stopped.answer (hs : Stopped h) (field : Field) (id : Nat) :
    Stopped (h.answer field id outcome) := by
  intro hdead
  rw [(untouched_answer field id).dead] at hdead
  unfold PluginWorkerHost.answer
  split
  . exact hs hdead
  . next ht =>
    rw [hs.take ht] at hdead
    contradiction

theorem Stopped.expire (hs : Stopped h) {field : Field} {id : Nat} {throws : Bool}
    (he : h.expire field id throws = some h') : Stopped h' := by
  intro hdead
  rw [(untouched_expire he).dead] at hdead
  unfold PluginWorkerHost.expire at he
  split at he
  . contradiction
  . next ht =>
    rw [hs.take ht] at hdead
    contradiction

theorem Stopped.drain (hs : Stopped h) (field : Field) : Stopped (h.drain field outcome) := by
  intro hdead f
  rw [(untouched_drain field).dead] at hdead
  rw [waiters_drain, hs hdead, ite_self]

/-- The counter of the running capability calls is their number. -/
structure CapsAccounted (h : PluginWorkerHost δ) : Prop where
  count : h.inFlightCaps = h.caps.length
  distinct : (h.caps.map (·.seq)).Nodup
  started : ∀ cap ∈ h.caps, cap.seq < h.capsStarted

theorem CapsAccounted.untouched (hc : CapsAccounted h) (hu : Untouched h h') : CapsAccounted h' where
  count := by rw [hu.inFlightCaps, hu.caps, hc.count]
  distinct := by rw [hu.caps]; exact hc.distinct
  started := by rw [hu.caps, hu.capsStarted]; exact hc.started

theorem CapsAccounted.finishCap (hc : CapsAccounted h) {cap : CapCall δ} (hcap : cap ∈ h.caps)
    (answer : Option (Except Text δ)) : CapsAccounted (h.finishCap cap answer) where
  count := by
    have hone : (h.caps.map (·.seq)).count cap.seq = 1 :=
      List.count_eq_one_of_mem hc.distinct (List.mem_map_of_mem hcap)
    have hlen := h.caps.length_eq_length_filter_add fun c => decide (c.seq = cap.seq)
    have hcount : (h.caps.filter fun c => decide (c.seq = cap.seq)).length = 1 := by
      rw [← List.countP_eq_length_filter, ← hone, List.count, List.countP_map]
      exact List.countP_congr fun c _ => by simp
    have hpred := hc.count
    unfold PluginWorkerHost.finishCap
    simp only [ne_eq, decide_not]
    omega
  distinct := hc.distinct.sublist (List.filter_sublist.map _)
  started := fun c hmem => hc.started c (List.mem_of_mem_filter hmem)

theorem CapsAccounted.handleCapRequest (hc : CapsAccounted h) (options : Options) (id : Nat)
    (verb : Text) (args : δ) : CapsAccounted (h.handleCapRequest options id verb args) := by
  unfold PluginWorkerHost.handleCapRequest
  dsimp only
  split
  . exact ⟨hc.count, hc.distinct, hc.started⟩
  . split
    . exact ⟨hc.count, hc.distinct, hc.started⟩
    . refine ⟨?_, ?_, ?_⟩
      . simpa using hc.count
      . simp only [List.map_append, List.map_cons, List.map_nil, List.nodup_append, hc.distinct,
          true_and, List.nodup_cons, List.not_mem_nil, not_false_eq_true, List.nodup_nil,
          List.mem_map, List.mem_singleton]
        rintro _ ⟨cap, hcap, rfl⟩ _ rfl heq
        have := hc.started cap hcap
        omega
      . intro cap hcap
        rw [List.mem_append, List.mem_singleton] at hcap
        rcases hcap with hcap | rfl
        . exact Nat.lt_succ_of_lt (hc.started cap hcap)
        . exact Nat.lt_succ_self _

end Frame

/-- What every run of a host keeps. -/
structure Inv (h : PluginWorkerHost δ) : Prop where
  calls : Accounted h
  caps : CapsAccounted h
  stopped : Stopped h

section Step

variable {h h' : PluginWorkerHost δ} {options : Options} {outcome : Outcome δ}

theorem inv_initial : Inv (.initial : PluginWorkerHost δ) where
  calls := by constructor <;> simp [PluginWorkerHost.initial, outstanding, inFlight]
  caps := by constructor <;> simp [PluginWorkerHost.initial]
  stopped _ _ := rfl

theorem Inv.answer (hi : Inv h) (field : Field) (id : Nat) : Inv (h.answer field id outcome) where
  calls := hi.calls.answer outcome field id
  caps := hi.caps.untouched (untouched_answer field id)
  stopped := hi.stopped.answer field id

theorem Inv.drain (hi : Inv h) (field : Field) : Inv (h.drain field outcome) where
  calls := hi.calls.drain outcome field
  caps := hi.caps.untouched (untouched_drain field)
  stopped := hi.stopped.drain field

theorem Inv.settled (hi : Inv h) (kind : Kind) : Inv (h.settled kind outcome) where
  calls := hi.calls.settled outcome kind
  caps := ⟨hi.caps.count, hi.caps.distinct, hi.caps.started⟩
  stopped := hi.stopped

theorem Inv.register (hi : Inv h) (hdead : ¬ h.dead = true) {kind : Kind} {timeoutMs : Option Nat}
    (htimed : kind.timed = true → timeoutMs.isSome) (message : Nat → HostToWorkerMessage δ) :
    Inv (h.register kind timeoutMs none message) where
  calls := hi.calls.register htimed message
  caps := hi.caps.untouched (untouched_register kind timeoutMs message)
  stopped hdead' := absurd ((untouched_register kind timeoutMs message).dead ▸ hdead') hdead

theorem Inv.finishCap (hi : Inv h) {cap : CapCall δ} (hcap : cap ∈ h.caps)
    (answer : Option (Except Text δ)) : Inv (h.finishCap cap answer) where
  calls := ⟨hi.calls.entry, hi.calls.timed, hi.calls.keys, hi.calls.fresh, hi.calls.waits,
    hi.calls.once, hi.calls.inFlight⟩
  caps := hi.caps.finishCap hcap answer
  stopped := hi.stopped

theorem Inv.handleCapRequest (hi : Inv h) (id : Nat) (verb : Text) (args : δ) :
    Inv (h.handleCapRequest options id verb args) where
  calls := by
    unfold PluginWorkerHost.handleCapRequest
    dsimp only
    split
    . exact ⟨hi.calls.entry, hi.calls.timed, hi.calls.keys, hi.calls.fresh, hi.calls.waits,
        hi.calls.once, hi.calls.inFlight⟩
    . split <;> exact ⟨hi.calls.entry, hi.calls.timed, hi.calls.keys, hi.calls.fresh,
        hi.calls.waits, hi.calls.once, hi.calls.inFlight⟩
  caps := hi.caps.handleCapRequest options id verb args
  stopped := by
    unfold PluginWorkerHost.handleCapRequest
    dsimp only
    split
    . exact hi.stopped
    . split <;> exact hi.stopped

theorem Inv.handleMessage (hi : Inv h) (message : WorkerToHostMessage δ) :
    Inv (h.handleMessage options message) := by
  cases message with
  | ready =>
    have hready : Inv { h with ready := true } := ⟨⟨hi.calls.entry, hi.calls.timed, hi.calls.keys,
      hi.calls.fresh, hi.calls.waits, hi.calls.once, hi.calls.inFlight⟩, ⟨hi.caps.count,
      hi.caps.distinct, hi.caps.started⟩, hi.stopped⟩
    exact hready.drain .readyWaiters
  | error error => exact hi.drain .readyWaiters
  | lifecycleResult id result => exact hi.answer .pending id
  | hookResult id continue' data error => exact hi.answer .hookPending id
  | webhookResult id status headers body error => exact hi.answer .webhookPending id
  | healthResult id healthy message => exact hi.answer .healthPending id
  | searchResult id result => exact hi.answer .searchPending id
  | cap id verb args => exact hi.handleCapRequest id verb args
  | hookSubscribe event priority => exact hi
  | webhookSubscribe route => exact hi
  | searchProviderRegister => exact hi
  | log message => exact hi

theorem Inv.handleExit (hi : Inv h) (code : Text) : Inv (h.handleExit code) where
  calls := by
    have hdead : Accounted { h with dead := true } := ⟨hi.calls.entry, hi.calls.timed, hi.calls.keys,
      hi.calls.fresh, hi.calls.waits, hi.calls.once, hi.calls.inFlight⟩
    unfold PluginWorkerHost.handleExit
    exact (((((hdead.drain _ _).drain _ _).drain _ _).drain _ _).drain _ _).drain _ _
  caps := by
    have hdead : CapsAccounted { h with dead := true } := ⟨hi.caps.count, hi.caps.distinct,
      hi.caps.started⟩
    unfold PluginWorkerHost.handleExit
    exact hdead.untouched (((((untouched_drain _).trans (untouched_drain _)).trans
      (untouched_drain _)).trans (untouched_drain _)).trans (untouched_drain _) |>.trans
      (untouched_drain _))
  stopped _ field := by
    unfold PluginWorkerHost.handleExit
    simp only [waiters_drain]
    cases field <;> rfl

theorem Inv.step (hi : Inv h) {event : Event δ} (hregular : Regular h event)
    (hstep : step options h event = some h') : Inv h' := by
  cases event with
  | load mainPath context timeoutMs refused =>
    obtain rfl : refused = none := hregular
    simp only [Sandbox.step, PluginWorkerHost.load, Option.some.injEq] at hstep
    subst hstep
    split
    . exact hi.settled _
    . next hdead =>
      split
      . exact hi.settled _
      . exact hi.register hdead (by simp [Kind.timed]) _
  | runLifecycle method timeoutMs refused =>
    obtain rfl : refused = none := hregular
    simp only [Sandbox.step, PluginWorkerHost.runLifecycle, Option.some.injEq] at hstep
    subst hstep
    split
    . exact hi.settled _
    . next hdead => exact hi.register hdead (by simp [Kind.timed]) _
  | dispatchHook event data source sessionId config timeoutMs refused =>
    obtain rfl : refused = none := hregular
    simp only [Sandbox.step, PluginWorkerHost.dispatchHook, Option.some.injEq] at hstep
    subst hstep
    split
    . exact hi.settled _
    . next hdead => exact hi.register hdead (fun _ => rfl) _
  | dispatchWebhook request timeoutMs refused =>
    obtain rfl : refused = none := hregular
    simp only [Sandbox.step, PluginWorkerHost.dispatchWebhook, Option.some.injEq] at hstep
    subst hstep
    split
    . exact hi.settled _
    . next hdead => exact hi.register hdead (fun _ => rfl) _
  | dispatchSearch query timeoutMs refused =>
    obtain rfl : refused = none := hregular
    simp only [Sandbox.step, PluginWorkerHost.dispatchSearch, Option.some.injEq] at hstep
    subst hstep
    split
    . exact hi.settled _
    . next hdead => exact hi.register hdead (fun _ => rfl) _
  | healthCheck timeoutMs refused =>
    obtain rfl : refused = none := hregular
    simp only [Sandbox.step, PluginWorkerHost.healthCheck, Option.some.injEq] at hstep
    subst hstep
    split
    . exact hi.settled _
    . next hdead => exact hi.register hdead (fun _ => rfl) _
  | sendConfigChange config =>
    simp only [Sandbox.step, PluginWorkerHost.sendConfigChange, Option.some.injEq] at hstep
    subst hstep
    split
    . exact hi
    . exact ⟨⟨hi.calls.entry, hi.calls.timed, hi.calls.keys, hi.calls.fresh, hi.calls.waits,
        hi.calls.once, hi.calls.inFlight⟩, ⟨hi.caps.count, hi.caps.distinct, hi.caps.started⟩,
        hi.stopped⟩
  | terminate =>
    simp only [Sandbox.step, Option.some.injEq] at hstep
    subst hstep
    exact ⟨⟨hi.calls.entry, hi.calls.timed, hi.calls.keys, hi.calls.fresh, hi.calls.waits,
      hi.calls.once, hi.calls.inFlight⟩, ⟨hi.caps.count, hi.caps.distinct, hi.caps.started⟩,
      hi.stopped⟩
  | message message =>
    simp only [Sandbox.step, Option.some.injEq] at hstep
    subst hstep
    exact hi.handleMessage message
  | timeout field id onTimeoutThrows =>
    obtain rfl : onTimeoutThrows = false := hregular
    exact ⟨hi.calls.expire hstep, hi.caps.untouched (untouched_expire hstep), hi.stopped.expire hstep⟩
  | capSettled seq answer =>
    simp only [Sandbox.step, Option.map_eq_some_iff] at hstep
    rcases hstep with ⟨cap, hfind, rfl⟩
    exact hi.finishCap (List.mem_of_find?_eq_some hfind) answer
  | capTimeout seq =>
    simp only [Sandbox.step] at hstep
    split at hstep
    . contradiction
    . next cap hfind =>
      rw [Option.map_eq_some_iff] at hstep
      rcases hstep with ⟨timeoutMs, -, rfl⟩
      exact hi.finishCap (List.mem_of_find?_eq_some hfind) _
  | exit code =>
    simp only [Sandbox.step, Option.some.injEq] at hstep
    subst hstep
    exact hi.handleExit code

theorem Inv.settles (hi : Inv h) : Settles options h where
  once := hi.calls.once
  awaited := by
    intro c hc hsettlements htimed
    rcases List.getElem?_of_mem hc with ⟨i, hget⟩
    rcases hi.calls.waits i c hget hsettlements with ⟨w, hw, rfl⟩
    rcases hi.calls.entry _ w hw with ⟨-, hentry⟩
    rw [hget, Option.some.injEq] at hentry
    simp only [Sandbox.step, expire]
    split
    . next ht => exact absurd (congrArg Call.id hentry).symm (take_eq_none ht w hw)
    . next w' h₁ ht =>
      rcases take_eq_some ht with ⟨hw', hid, -⟩
      have heq := hi.calls.eq_of_id hw' hw (hid.trans (congrArg Call.id hentry))
      subst heq
      have hkind : c.kind = w'.kind := congrArg Call.kind hentry
      have hsome := hi.calls.timed _ w' hw' (hkind ▸ htimed)
      rcases Option.isSome_iff_exists.mp hsome with ⟨timeoutMs, heq⟩
      rw [heq]
      rfl
  ignored := by
    intro message field id hresult hsettled
    have hnone : ∀ outcome, h.answer field id outcome = h := by
      intro outcome
      unfold PluginWorkerHost.answer
      split
      . rfl
      . next w h₁ ht =>
        rcases take_eq_some ht with ⟨hw, hid, -⟩
        rcases hi.calls.entry field w hw with ⟨hfield, hentry⟩
        exact absurd rfl (hsettled _ (List.mem_of_getElem? hentry) hfield hid)
    cases message <;> simp only [resultOf, Option.some.injEq, Prod.mk.injEq, reduceCtorEq] at hresult
    all_goals
      rcases hresult with ⟨rfl, rfl⟩
      exact congrArg some (hnone _)
  inFlight := hi.calls.inFlight
  caps := hi.caps.count
  dead := by
    intro hdead
    have hempty := hi.stopped hdead
    refine ⟨hempty, fun c hc => ?_⟩
    have hone := hi.calls.once c hc
    by_contra hne
    rcases List.getElem?_of_mem hc with ⟨i, hget⟩
    have hnil : c.settlements = [] := List.eq_nil_of_length_eq_zero (by omega)
    rcases hi.calls.waits i c hget hnil with ⟨w, hw, -⟩
    simp [hempty] at hw

end Step

/--
In every run in which no post and no `onTimeout` throws, the promises of the calls into the worker
settle as they should.
-/
theorem settles_of_reach (options : Options) (h : PluginWorkerHost δ)
    (hreach : (machine options).Reach Regular .initial h) : Settles options h := by
  have hinv : Inv h := hreach.invariant inv_initial fun _ _ _ hi hok hstep => hi.step hok hstep
  exact hinv.settles

section Sample

def received : Text := "message:received".toList

def sampleOptions : Options where
  capDispatcher := true
  maxInFlightCaps := some 8
  capTimeoutMs := none

def sampleHook (refused : Option Text) : Event Unit :=
  .dispatchHook received () "engine".toList none none 5000 refused

def sampleResult (id : Nat) : Event Unit := .message (.hookResult id true none none)

/-- Two hooks, a capability call under them, a result that comes twice, and the worker exits. -/
def sampleRun : List (Event Unit) :=
  [.message .ready, sampleHook none, sampleHook none,
    .message (.cap 1 "messages.sendText".toList ()), sampleResult 2, sampleResult 2,
    .exit "1".toList]

theorem settles_of_reach_sample :
    ∃ h : PluginWorkerHost Unit, (machine sampleOptions).Reach Regular .initial h ∧
      (h.dead, h.inFlightCaps, h.calls.map fun c => c.settlements.length) = (true, 1, [1, 1]) ∧
      Settles sampleOptions h := by
  have hrun : ((machine sampleOptions).exec Regular .initial sampleRun).map (fun h =>
      (h.dead, h.inFlightCaps, h.calls.map fun c => c.settlements.length)) =
      some (true, 1, [1, 1]) := by decide +kernel
  rcases Machine.reach_of_exec_map hrun with ⟨h, hreach, hvalues⟩
  exact ⟨h, hreach, hvalues, settles_of_reach sampleOptions h hreach⟩

/--
The hook data of a dispatch cannot be cloned: its promise is rejected, and the event stays counted
with no call outstanding.
-/
theorem refused_hook_counted :
    ∃ h : PluginWorkerHost Unit, (machine sampleOptions).Reach Machine.anyStep .initial h ∧
      h.inFlight received = 1 ∧ outstanding h received = 0 ∧ ¬ Settles sampleOptions h := by
  have hrun : ((machine sampleOptions).exec Machine.anyStep .initial
      [sampleHook (some "DataCloneError".toList)]).map (fun h =>
        (h.inFlight received, outstanding h received)) = some (1, 0) := by decide +kernel
  rcases Machine.reach_of_exec_map hrun with ⟨h, hreach, hvalues⟩
  rw [Prod.mk.injEq] at hvalues
  refine ⟨h, hreach, hvalues.1, hvalues.2, fun hsettles => ?_⟩
  have := hsettles.inFlight received
  omega

end Sample

end OpenWA.Sandbox
