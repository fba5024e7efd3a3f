import OpenWA.Async.Machine
import OpenWA.Async.Promise
import OpenWA.Js.Map

/-!
This module contains the fence that a start or delete waits at while credentials are being removed: the
teardowns tracked under a session name, the calls that wait for them, and what both may rely on.
-/

namespace OpenWA.Fence

open Js Async

inductive CallOutcome where
  | resolved
  /-- `SESSION_NAME_TEARDOWN_PENDING` -/
  | conflict
deriving DecidableEq

/-- One call of `awaitPendingTeardown`. -/
structure Call where
  sessionName : String
  pending : Option Promise
  outcome : Option CallOutcome
  /-- The teardowns tracked for the name before the call. -/
  before : List Nat

structure State where
  heap : Heap
  pendingTeardowns : Map String Promise
  /-- The reactions of `entry.finally` that have not run. -/
  finallies : List (Promise × String)
  calls : List Call
  /-- The calls of `trackPendingCredentialTeardown`. -/
  tracked : List (String × Nat)

inductive Event where
  | track (sessionName : String) (raw : Nat)
  | settle (raw : Nat) (fulfilled : Bool)
  | await (sessionName : String)
  /-- The reactions, in any order. -/
  | react (p : Promise)
  | cleanup (p : Promise) (sessionName : String)
  | deliver (i : Nat)
  /-- The timer of the call. -/
  | deadline (i : Nat)

section Steps

variable (s : State)

def trackPendingCredentialTeardown (sessionName : String) (raw : Nat) : State :=
  let tracked := Promise.caught s.heap.next raw
  let heap := s.heap.create tracked
  let entry :=
    match s.pendingTeardowns.get? sessionName with
    | some previous => Promise.allSettled heap.next previous tracked
    | none => tracked
  { s with
    heap :=
      match s.pendingTeardowns.get? sessionName with
      | some _ => heap.create entry
      | none => heap
    pendingTeardowns := s.pendingTeardowns.set sessionName entry
    finallies := s.finallies ++ [(entry, sessionName)]
    tracked := s.tracked ++ [(sessionName, raw)] }

def cleanup (p : Promise) (sessionName : String) : State :=
  { s with
    finallies := s.finallies.erase (p, sessionName)
    pendingTeardowns :=
      if s.pendingTeardowns.get? sessionName = some p then s.pendingTeardowns.delete sessionName
      else s.pendingTeardowns }

def trackedFor (sessionName : String) : List Nat :=
  (s.tracked.filter fun entry => entry.1 = sessionName).map (·.2)

def awaitPendingTeardown (sessionName : String) : State :=
  let pending := s.pendingTeardowns.get? sessionName
  { s with
    calls := s.calls ++
      [⟨sessionName, pending, if pending.isSome then none else some .resolved,
        trackedFor s sessionName⟩] }

def finish (i : Nat) (outcome : CallOutcome) : State :=
  { s with calls := s.calls.modify i fun call => { call with outcome := some outcome } }

/-- The call waits, and what it waits for is settled. -/
def deliverable (call : Call) : Bool :=
  call.outcome.isNone && call.pending.any s.heap.settled

/-- No reaction is due, so that a timer can fire. -/
def quiet : Bool :=
  s.heap.quiet && s.finallies.all (fun reaction => !s.heap.settled reaction.1) &&
    s.calls.all fun call => !deliverable s call

end Steps

def machine : Machine State Event where
  step s v :=
    match v with
    | .track sessionName raw => some (trackPendingCredentialTeardown s sessionName raw)
    | .settle raw fulfilled =>
      if (s.heap.outcome raw).isSome then none
      else some { s with heap := s.heap.settleRaw raw fulfilled }
    | .await sessionName => some (awaitPendingTeardown s sessionName)
    | .react p =>
      if p ∈ s.heap.created ∧ s.heap.due p then some { s with heap := s.heap.settle p } else none
    | .cleanup p sessionName =>
      if (p, sessionName) ∈ s.finallies ∧ s.heap.settled p then some (cleanup s p sessionName)
      else none
    | .deliver i =>
      match s.calls[i]? with
      | some call => if deliverable s call then some (finish s i .resolved) else none
      | none => none
    | .deadline i =>
      match s.calls[i]? with
      | some call =>
        if call.outcome.isNone ∧ quiet s then some (finish s i .conflict) else none
      | none => none

def init : State := ⟨⟨fun _ => none, [], fun _ => false, 0⟩, .empty, [], [], []⟩

/-! ### What holds of every run -/

/-- What holds of the entry of a name. -/
structure EntrySound (s : State) (sessionName : String) (entry : Promise) : Prop where
  created : entry ∈ s.heap.created
  reaction : (entry, sessionName) ∈ s.finallies
  tracked : ∀ raw ∈ entry.raws, (sessionName, raw) ∈ s.tracked

structure CallSound (s : State) (call : Call) : Prop where
  pending : call.outcome = none → call.pending.isSome = true
  created : ∀ p, call.pending = some p → p ∈ s.heap.created
  raws : ∀ p, call.pending = some p → ∀ raw ∈ p.raws, raw ∈ call.before
  waits : ∀ raw ∈ call.before, (s.heap.outcome raw).isSome = true ∨
    ∃ p, call.pending = some p ∧ raw ∈ p.raws
  resolved : call.outcome = some .resolved → ∀ raw ∈ call.before, (s.heap.outcome raw).isSome = true

structure Inv (s : State) : Prop where
  heap : s.heap.Sound
  entries : ∀ sessionName entry, s.pendingTeardowns.get? sessionName = some entry →
    EntrySound s sessionName entry
  covered : ∀ sessionName raw, (sessionName, raw) ∈ s.tracked → (s.heap.outcome raw).isSome = true ∨
    ∃ entry, s.pendingTeardowns.get? sessionName = some entry ∧ raw ∈ entry.raws
  calls : ∀ call ∈ s.calls, CallSound s call

section Invariant

variable {s s' : State} {v : Event} {sessionName : String} {raw : Nat}

theorem mem_trackedFor : raw ∈ trackedFor s sessionName ↔ (sessionName, raw) ∈ s.tracked := by
  simp [trackedFor]

theorem inv_init : Inv init where
  heap := ⟨by simp [init], by simp [init], by simp [init]⟩
  entries _ _ h := by simp [init] at h
  covered _ _ h := by simp [init] at h
  calls _ h := by simp [init] at h

theorem EntrySound.mono {entry : Promise} (h : EntrySound s sessionName entry)
    (hcreated : entry ∈ s.heap.created → entry ∈ s'.heap.created)
    (hreaction : (entry, sessionName) ∈ s.finallies → (entry, sessionName) ∈ s'.finallies)
    (htracked : ∀ raw, (sessionName, raw) ∈ s.tracked → (sessionName, raw) ∈ s'.tracked) :
    EntrySound s' sessionName entry where
  created := hcreated h.created
  reaction := hreaction h.reaction
  tracked raw hraw := htracked raw (h.tracked raw hraw)

/-- A call stays sound while promises are only created and operations only settle. -/
theorem CallSound.mono {call : Call} (h : CallSound s call)
    (hcreated : ∀ p ∈ s.heap.created, p ∈ s'.heap.created)
    (houtcome : ∀ raw, (s.heap.outcome raw).isSome = true → (s'.heap.outcome raw).isSome = true) :
    CallSound s' call where
  pending := h.pending
  created p hp := hcreated p (h.created p hp)
  raws := h.raws
  waits raw hraw := (h.waits raw hraw).imp_left (houtcome raw)
  resolved hresolved raw hraw := houtcome raw (h.resolved hresolved raw hraw)

theorem Inv.of_heap (h : Inv s) {heap : Heap} (hs : heap.Sound)
    (hcreated : ∀ p ∈ s.heap.created, p ∈ heap.created)
    (houtcome : ∀ raw, (s.heap.outcome raw).isSome = true → (heap.outcome raw).isSome = true) :
    Inv { s with heap := heap } where
  heap := hs
  entries sessionName entry hentry :=
    (h.entries sessionName entry hentry).mono (hcreated entry) id fun _ => id
  covered sessionName raw hraw := (h.covered sessionName raw hraw).imp_left (houtcome raw)
  calls call hcall := (h.calls call hcall).mono hcreated houtcome

theorem inv_settle (h : Inv s) (raw : Nat) (fulfilled : Bool) :
    Inv { s with heap := s.heap.settleRaw raw fulfilled } := by
  refine h.of_heap (h.heap.settleRaw raw fulfilled) (fun _ hp => hp) fun r hr => ?_
  simp only [Heap.settleRaw, Function.update_apply]
  split
  . rfl
  . exact hr

theorem inv_react (h : Inv s) {p : Promise} (hp : p ∈ s.heap.created) (hdue : s.heap.due p = true) :
    Inv { s with heap := s.heap.settle p } := by
  simp only [Heap.due, Bool.and_eq_true] at hdue
  exact h.of_heap (h.heap.settle hp hdue.2) (fun _ hq => hq) fun _ hr => hr

theorem Inv.track (h : Inv s) {entry : Promise} (hcreated : entry ∈ s.heap.created)
    (hraws : ∀ r, r ∈ entry.raws ↔ r = raw ∨
      ∃ previous, s.pendingTeardowns.get? sessionName = some previous ∧ r ∈ previous.raws) :
    Inv { s with
      pendingTeardowns := s.pendingTeardowns.set sessionName entry
      finallies := s.finallies ++ [(entry, sessionName)]
      tracked := s.tracked ++ [(sessionName, raw)] } where
  heap := h.heap
  entries name e he := by
    rw [Map.get?_set] at he
    split at he
    . next heq =>
      obtain rfl := Option.some.inj he
      subst heq
      refine ⟨hcreated, by simp, fun r hr => ?_⟩
      rcases (hraws r).mp hr with rfl | ⟨previous, hprevious, hr⟩
      . simp
      . exact List.mem_append_left _ ((h.entries name previous hprevious).tracked r hr)
    . have hold := h.entries name e he
      apply hold.mono
      . exact id
      . apply List.mem_append_left
      . intro r hr
        exact List.mem_append_left _ hr
  covered name r hr := by
    simp only [Map.get?_set]
    rcases List.mem_append.mp hr with hr | hr
    . rcases h.covered name r hr with hsettled | ⟨e, he, hre⟩
      . exact .inl hsettled
      . right
        split
        . next heq => exact ⟨entry, rfl, (hraws r).mpr (.inr ⟨e, heq ▸ he, hre⟩)⟩
        . exact ⟨e, he, hre⟩
    . simp only [List.mem_singleton, Prod.mk.injEq] at hr
      rw [if_pos hr.1]
      exact .inr ⟨entry, rfl, (hraws r).mpr (.inl hr.2)⟩
  calls call hcall := (h.calls call hcall).mono (fun _ => id) fun _ => id

theorem inv_track (h : Inv s) (sessionName : String) (raw : Nat) :
    Inv (trackPendingCredentialTeardown s sessionName raw) := by
  have hcaught : (s.heap.create (.caught s.heap.next raw)).Sound :=
    h.heap.create rfl fun _ _ _ heq => nomatch heq
  have hold : ∀ p ∈ s.heap.created, p ∈ (s.heap.create (.caught s.heap.next raw)).created :=
    fun p hp => List.mem_append_left _ hp
  have hnew : .caught s.heap.next raw ∈ (s.heap.create (.caught s.heap.next raw)).created := by
    simp [Heap.create]
  unfold trackPendingCredentialTeardown
  cases hget : s.pendingTeardowns.get? sessionName with
  | none =>
    have h₁ := h.of_heap hcaught hold fun _ hr => hr
    exact h₁.track hnew fun r => by simp [Promise.raws, hget]
  | some previous =>
    have hprevious := hold _ (h.entries sessionName previous hget).created
    have hall := hcaught.create
      (p := .allSettled (s.heap.next + 1) previous (.caught s.heap.next raw)) rfl
      fun _ _ _ heq => by
        obtain ⟨_, rfl, rfl⟩ := Promise.allSettled.inj heq
        exact ⟨hprevious, hnew⟩
    have h₁ := h.of_heap hall (fun p hp => List.mem_append_left _ (hold p hp)) fun _ hr => hr
    refine h₁.track (by simp [Heap.create]) fun r => ?_
    simp [Promise.raws, hget, or_comm]

theorem inv_cleanup (h : Inv s) {p : Promise} (hsettled : s.heap.settled p = true) :
    Inv (cleanup s p sessionName) := by
  have hraws := (h.heap.settled p hsettled).2
  have hget : ∀ name entry, (cleanup s p sessionName).pendingTeardowns.get? name = some entry →
      s.pendingTeardowns.get? name = some entry ∧ (entry, name) ≠ (p, sessionName) := by
    intro name entry hentry
    simp only [cleanup] at hentry
    split at hentry
    . rw [Map.get?_delete] at hentry
      split at hentry
      . contradiction
      . next hne => exact ⟨hentry, fun heq => hne (Prod.mk.inj heq).2⟩
    . next hne =>
      refine ⟨hentry, fun heq => hne ?_⟩
      obtain ⟨rfl, rfl⟩ := Prod.mk.inj heq
      exact hentry
  constructor
  . exact h.heap
  . intro name entry hentry
    have hold := h.entries name entry (hget name entry hentry).1
    exact hold.mono id (List.mem_erase_of_ne (hget name entry hentry).2).mpr fun _ => id
  . intro name raw hraw
    rcases h.covered name raw hraw with hdone | ⟨entry, hentry, hre⟩
    . exact .inl hdone
    . simp only [cleanup]
      split
      . next heq =>
        rw [Map.get?_delete]
        split
        . next hname =>
          obtain rfl := Option.some.inj (heq.symm.trans (hname ▸ hentry))
          exact .inl (hraws raw hre)
        . exact .inr ⟨entry, hentry, hre⟩
      . exact .inr ⟨entry, hentry, hre⟩
  . intro call hcall
    exact (h.calls call hcall).mono (fun _ => id) fun _ => id

theorem inv_await (h : Inv s) (sessionName : String) : Inv (awaitPendingTeardown s sessionName) where
  heap := h.heap
  entries name entry hentry := (h.entries name entry hentry).mono id id fun _ => id
  covered := h.covered
  calls call hcall := by
    rcases List.mem_append.mp hcall with hcall | hcall
    . exact (h.calls call hcall).mono (fun _ => id) fun _ => id
    . obtain rfl := List.mem_singleton.mp hcall
      refine ⟨fun hwaiting => ?_, fun p hp => (h.entries sessionName p hp).created,
        fun p hp raw hraw => ?_,
        fun raw hraw => h.covered sessionName raw (mem_trackedFor.mp hraw), fun hresolved raw hraw => ?_⟩
      . by_contra hnone
        simp [hnone] at hwaiting
      . exact mem_trackedFor.mpr ((h.entries sessionName p hp).tracked raw hraw)
      . rcases h.covered sessionName raw (mem_trackedFor.mp hraw) with hdone | ⟨entry, hentry, _⟩
        . exact hdone
        . simp [hentry] at hresolved

theorem inv_finish (h : Inv s) {i : Nat} {outcome : CallOutcome} {call : Call}
    (hcall : s.calls[i]? = some call)
    (hresolved : outcome = .resolved → deliverable s call = true) : Inv (finish s i outcome) where
  heap := h.heap
  entries name entry hentry := (h.entries name entry hentry).mono id id fun _ => id
  covered := h.covered
  calls c hc := by
    have hmem := List.mem_of_getElem? hcall
    simp only [finish, List.mem_iff_getElem?, List.getElem?_modify] at hc
    obtain ⟨j, hj⟩ := hc
    by_cases hij : i = j
    . subst hij
      simp only [if_true, hcall, Option.map_eq_map, Option.map_some, Option.some.injEq] at hj
      subst hj
      have hc := h.calls call hmem
      refine ⟨nofun, hc.created, hc.raws, hc.waits, fun heq raw hraw => ?_⟩
      have hdeliverable := hresolved (Option.some.inj heq)
      rcases hc.waits raw hraw with hdone | ⟨p, hp, hrp⟩
      . exact hdone
      . simp only [deliverable, Bool.and_eq_true, hp, Option.any_some] at hdeliverable
        exact (h.heap.settled p hdeliverable.2).2 raw hrp
    . simp only [if_neg hij, Option.map_eq_map, Option.map_id_fun', id_eq] at hj
      exact (h.calls c (List.mem_of_getElem? hj)).mono (fun _ => id) fun _ => id

theorem inv_step (h : Inv s) (hstep : machine.step s v = some s') : Inv s' := by
  simp only [machine] at hstep
  cases v with
  | track sessionName raw => exact Option.some.inj hstep ▸ inv_track h sessionName raw
  | settle raw fulfilled =>
    dsimp only at hstep
    split at hstep
    . contradiction
    . exact Option.some.inj hstep ▸ inv_settle h raw fulfilled
  | await sessionName => exact Option.some.inj hstep ▸ inv_await h sessionName
  | react p =>
    dsimp only at hstep
    split at hstep
    . next hp => exact Option.some.inj hstep ▸ inv_react h hp.1 hp.2
    . contradiction
  | cleanup p sessionName =>
    dsimp only at hstep
    split at hstep
    . next hp => exact Option.some.inj hstep ▸ inv_cleanup h hp.2
    . contradiction
  | deliver i =>
    dsimp only at hstep
    split at hstep
    . next call hcall =>
      split at hstep
      . next hdeliverable =>
        exact Option.some.inj hstep ▸ inv_finish h hcall fun _ => hdeliverable
      . contradiction
    . contradiction
  | deadline i =>
    dsimp only at hstep
    split at hstep
    . next call hcall =>
      split at hstep
      . exact Option.some.inj hstep ▸ inv_finish h hcall nofun
      . contradiction
    . contradiction

/-- The name whose entry an event may replace or remove. -/
def Event.name (v : Event) : Option String :=
  match v with
  | .track sessionName _ | .cleanup _ sessionName => some sessionName
  | _ => none

theorem entries_eq (hstep : machine.step s v = some s') (hname : v.name ≠ some sessionName) :
    s'.pendingTeardowns.get? sessionName = s.pendingTeardowns.get? sessionName := by
  simp only [machine] at hstep
  cases v with
  | track name raw =>
    obtain rfl := Option.some.inj hstep
    have hne : sessionName ≠ name := fun heq => hname (by rw [heq]; rfl)
    simp only [trackPendingCredentialTeardown, Map.get?_set, if_neg hne]
  | cleanup p name =>
    have hne : sessionName ≠ name := fun heq => hname (by rw [heq]; rfl)
    dsimp only at hstep
    split at hstep
    . obtain rfl := Option.some.inj hstep
      simp only [cleanup]
      split
      . rw [Map.get?_delete, if_neg hne]
      . rfl
    . contradiction
  | await name =>
    obtain rfl := Option.some.inj hstep
    rfl
  | settle raw fulfilled =>
    dsimp only at hstep
    split at hstep
    . contradiction
    . obtain rfl := Option.some.inj hstep
      rfl
  | react p =>
    dsimp only at hstep
    split at hstep
    . obtain rfl := Option.some.inj hstep
      rfl
    . contradiction
  | deliver i | deadline i =>
    dsimp only at hstep
    split at hstep
    . split at hstep
      . obtain rfl := Option.some.inj hstep
        rfl
      . contradiction
    . contradiction

theorem Inv.unsettled (h : Inv s) (hquiet : quiet s = true) {entry : Promise}
    (hentry : s.pendingTeardowns.get? sessionName = some entry) :
    ∃ raw, (sessionName, raw) ∈ s.tracked ∧ s.heap.outcome raw = none := by
  have he := h.entries sessionName entry hentry
  simp only [quiet, Bool.and_eq_true] at hquiet
  have hpending : s.heap.settled entry = false := by
    simpa using List.all_eq_true.mp hquiet.1.2 _ he.reaction
  by_contra hnone
  have hsettled := h.heap.settled_of_quiet hquiet.1.1 he.created fun raw hraw => by
    rw [Option.isSome_iff_ne_none]
    exact fun heq => hnone ⟨raw, he.tracked raw hraw, heq⟩
  rw [hpending] at hsettled
  contradiction

theorem Inv.deadline (h : Inv s) {i : Nat} (hstep : machine.step s (.deadline i) = some s') :
    ∃ call, s.calls[i]? = some call ∧ call.outcome = none ∧
      (∃ raw ∈ call.before, s.heap.outcome raw = none) ∧
      s'.calls[i]? = some { call with outcome := some .conflict } ∧
      s'.pendingTeardowns = s.pendingTeardowns := by
  simp only [machine] at hstep
  split at hstep
  . next call hcall =>
    split at hstep
    . next hwaiting =>
      obtain rfl := Option.some.inj hstep
      have hc := h.calls call (List.mem_of_getElem? hcall)
      refine ⟨call, hcall, by simpa using hwaiting.1, ?_, by simp [finish, hcall], rfl⟩
      have hquiet := hwaiting.2
      simp only [quiet, Bool.and_eq_true] at hquiet
      have hnot := List.all_eq_true.mp hquiet.2 call (List.mem_of_getElem? hcall)
      obtain ⟨p, hp⟩ := Option.isSome_iff_exists.mp (hc.pending (by simpa using hwaiting.1))
      by_contra hnone
      have hsettled := h.heap.settled_of_quiet hquiet.1.1 (hc.created p hp) fun raw hraw => by
        rw [Option.isSome_iff_ne_none]
        exact fun heq => hnone ⟨raw, hc.raws p hp raw hraw, heq⟩
      simp [deliverable, hwaiting.1, hp, hsettled] at hnot
    . contradiction
  . contradiction

end Invariant

/-- What the fence promises of a state. -/
structure Fenced (s : State) : Prop where
  /-- An unsettled teardown has an entry. -/
  entry : ∀ sessionName raw, (sessionName, raw) ∈ s.tracked → s.heap.outcome raw = none →
    (s.pendingTeardowns.get? sessionName).isSome = true
  /-- Past the turn that settled the last of them, there is none. -/
  pending : quiet s = true → ∀ sessionName, (s.pendingTeardowns.get? sessionName).isSome = true →
    ∃ raw, (sessionName, raw) ∈ s.tracked ∧ s.heap.outcome raw = none
  resolved : ∀ call ∈ s.calls, call.outcome = some .resolved →
    ∀ raw ∈ call.before, (s.heap.outcome raw).isSome = true
  deadline : ∀ i s', machine.step s (.deadline i) = some s' →
    ∃ call, s.calls[i]? = some call ∧ call.outcome = none ∧
      (∃ raw ∈ call.before, s.heap.outcome raw = none) ∧
      s'.calls[i]? = some { call with outcome := some .conflict } ∧
      s'.pendingTeardowns = s.pendingTeardowns
  others : ∀ v s' sessionName, machine.step s v = some s' → v.name ≠ some sessionName →
    s'.pendingTeardowns.get? sessionName = s.pendingTeardowns.get? sessionName

theorem Inv.fenced {s : State} (h : Inv s) : Fenced s where
  entry sessionName raw hraw hnone := by
    rcases h.covered sessionName raw hraw with hsome | ⟨entry, hentry, _⟩
    . rw [hnone] at hsome
      contradiction
    . rw [hentry]
      rfl
  pending hquiet sessionName hsome := by
    obtain ⟨entry, hentry⟩ := Option.isSome_iff_exists.mp hsome
    exact h.unsettled hquiet hentry
  resolved call hcall := (h.calls call hcall).resolved
  deadline _ _ hstep := h.deadline hstep
  others _ _ _ hstep hname := entries_eq hstep hname

/-- **Main result**: the fence keeps its promises in every state of every run. -/
theorem fenced_of_reach {s : State} (h : machine.Reach Machine.anyStep init s) : Fenced s :=
  (h.invariant inv_init fun _ _ _ hinv _ hstep => inv_step hinv hstep).fenced

/-- Two teardowns of one name overlap; the first is settled when a call times out. -/
theorem fenced_of_reach_overlap :
    ∃ s, machine.Reach Machine.anyStep init s ∧
      (s.calls.map (·.outcome), (s.pendingTeardowns.get? "s").isSome) = ([some .conflict], true) ∧
      Fenced s := by
  have hrun : (machine.exec Machine.anyStep init
      [.track "s" 0, .track "s" 1, .await "s", .settle 0 true, .react (.caught 0 0),
        .cleanup (.caught 0 0) "s", .deadline 0]).map
      (fun s => (s.calls.map (·.outcome), (s.pendingTeardowns.get? "s").isSome)) =
      some ([some .conflict], true) := by
    decide +kernel
  rcases Machine.reach_of_exec_map hrun with ⟨s, hreach, hseen⟩
  exact ⟨s, hreach, hseen, fenced_of_reach hreach⟩

end OpenWA.Fence
