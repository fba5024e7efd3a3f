import OpenWA.Async.Machine
import OpenWA.Concurrency.Replay

/-!
This module contains the cache of one thread: the writes to it while a page is in flight, their replay, and what the
cache holds when the query is idle.
-/

namespace OpenWA.Dashboard

open Async Concurrency

/-- A value of the query with its identity. -/
structure Cell (V : Type) where
  ref : Nat
  value : V

inductive FetchStatus where
  | idle
  | fetching
  | paused
deriving DecidableEq

structure PendingWrite (V : Type) where
  apply : V → V
  wrote : Option Nat

/--
The query of one key, with the snapshot of the fetch in flight, and the entries of the key in the two maps of the
module. `next` is the identity of the next new value.
-/
structure MessagesCache (V : Type) where
  data : Option (Cell V)
  fetchStatus : FetchStatus
  snapshot : Option (Cell V)
  next : Nat
  writesLostToFetch : Option (List (PendingWrite V))
  settleSubscription : Bool

namespace MessagesCache

variable {V : Type} [DecidableEq V] (keeps : Nat → Bool)

def value (c : MessagesCache V) : Option V := c.data.map (·.value)

def wrote (c : MessagesCache V) : Option Nat := c.data.map (·.ref)

/-- `keeps` says when a value that equals the one in its place keeps its identity. -/
def identity (c : MessagesCache V) (v : V) : Nat :=
  match c.data with
  | none => c.next
  | some old => if keeps c.next && old.value = v then old.ref else c.next

def put (c : MessagesCache V) (v : V) : MessagesCache V :=
  { c with data := some ⟨c.identity keeps v, v⟩, next := c.next + 1 }

/-- It runs with the subscription gone, so that its own write notifies nobody. -/
def replayWritesLostToFetch (c : MessagesCache V) : MessagesCache V :=
  match c.writesLostToFetch with
  | none => c
  | some queue =>
    match queue.getLast? with
    | none => c
    | some last =>
      let c := { c with writesLostToFetch := none }
      if last.wrote = c.wrote then c
      else
        match c.data with
        | none => c
        | some old => c.put keeps (queue.foldl (fun data write => write.apply data) old.value)

/-- The subscriber of `scheduleReplayOnSettle`, called at every change of the query -/
def notify (c : MessagesCache V) : MessagesCache V :=
  if c.settleSubscription && c.fetchStatus = .idle then
    replayWritesLostToFetch keeps { c with settleSubscription := false }
  else c

def scheduleReplayOnSettle (c : MessagesCache V) : MessagesCache V :=
  if c.settleSubscription then c else { c with settleSubscription := true }

def writeMessagesCache (c : MessagesCache V) (apply : V → V) : MessagesCache V :=
  match c.data with
  | none => c
  | some old =>
    let status := c.fetchStatus
    let c := (c.put keeps (apply old.value)).notify keeps
    if status = .idle then c
    else
      let queued := c.writesLostToFetch.getD []
      let c := { c with writesLostToFetch := some (queued ++ [⟨apply, c.wrote⟩]) }
      if queued.isEmpty then c.scheduleReplayOnSettle else c

/-- A fetch takes its snapshot. -/
def begin (c : MessagesCache V) (paused : Bool) : MessagesCache V :=
  { c with snapshot := c.data, fetchStatus := if paused then .paused else .fetching }

/-- The fetch in flight has come to its end. -/
def settle (c : MessagesCache V) (data : Option (Cell V)) : MessagesCache V :=
  { c with fetchStatus := .idle, data := data }

end MessagesCache

inductive CacheEvent (V : Type) where
  | write (apply : V → V)
  | start (paused : Bool)
  | pause
  | resume
  | land (load : Option V → V)
  | fail
  | cancel (revert : Bool)
  | restart (paused : Bool)
  | effect

/-- A write, and whether the query had data when it was issued. -/
structure Issued (V : Type) where
  apply : V → V
  hadData : Bool

/-- The last landed value or the original one, the writes since its snapshot, and those since that of the fetch. -/
structure History (V : Type) where
  base : Option V
  since : List (Issued V)
  flight : List (Issued V)

def History.write {V : Type} (h : History V) (i : Issued V) : History V :=
  { h with since := h.since ++ [i], flight := h.flight ++ [i] }

def History.begin {V : Type} (h : History V) : History V := { h with flight := [] }

def History.land {V : Type} (h : History V) (landed : V) : History V := ⟨some landed, h.flight, []⟩

/-- A cache with the history of its runs. -/
structure Observed (V : Type) where
  cache : MessagesCache V
  history : History V

section Machine

variable {V : Type} [DecidableEq V] (keeps : Nat → Bool)

def cacheMachine : Machine (Observed V) (CacheEvent V) where
  step o e :=
    let c := o.cache
    let h := o.history
    let idle := c.fetchStatus = .idle
    match e with
    | .write apply =>
      some ⟨c.writeMessagesCache keeps apply, h.write ⟨apply, c.data.isSome⟩⟩
    | .start paused => if idle then some ⟨(c.begin paused).notify keeps, h.begin⟩ else none
    | .pause =>
      if c.fetchStatus = .fetching then some ⟨MessagesCache.notify keeps { c with fetchStatus := .paused }, h⟩ else none
    | .resume =>
      if c.fetchStatus = .paused then some ⟨MessagesCache.notify keeps { c with fetchStatus := .fetching }, h⟩ else none
    | .land load =>
      let landed := load (c.snapshot.map (·.value))
      if c.fetchStatus = .fetching then
        some ⟨((c.settle c.data).put keeps landed).notify keeps, h.land landed⟩
      else none
    | .fail => if idle then none else some ⟨(c.settle c.data).notify keeps, h⟩
    | .cancel revert =>
      if idle then none else some ⟨(c.settle (if revert then c.snapshot else c.data)).notify keeps, h⟩
    | .restart paused => if idle then none else some ⟨(c.begin paused).notify keeps, h.begin⟩
    -- the effect of the hook
    | .effect => some ⟨if idle then c.replayWritesLostToFetch keeps else c, h⟩

end Machine

section Settling

variable {V : Type} {c : MessagesCache V}

namespace MessagesCache

/-- The writes of the queue. -/
def queued (c : MessagesCache V) : List (V → V) := (c.writesLostToFetch.getD []).map (·.apply)

/-- A value in the cache is older than the next one. -/
def Bounded (c : MessagesCache V) : Prop := ∀ cell, c.data = some cell → cell.ref < c.next

/-- The queue has entries, and a subscription as long as there is a queue. -/
structure Queued (c : MessagesCache V) : Prop where
  subscription : c.settleSubscription = c.writesLostToFetch.isSome
  entries : c.writesLostToFetch ≠ some []

theorem Queued.settle (h : c.Queued) (data : Option (Cell V)) : (c.settle data).Queued := ⟨h.1, h.2⟩

/-- There is neither a queue nor a subscription. -/
def Drained (c : MessagesCache V) : Prop := c.writesLostToFetch = none ∧ c.settleSubscription = false

variable [DecidableEq V] {keeps : Nat → Bool}

theorem value_put (v : V) : (c.put keeps v).value = some v := rfl

theorem identity_cases (keeps : Nat → Bool) (c : MessagesCache V) (v : V) : c.identity keeps v = c.next ∨
    ∃ old, c.data = some old ∧ old.value = v ∧ c.identity keeps v = old.ref := by
  unfold identity
  split
  . exact .inl rfl
  . next old hold =>
    split
    . next hkeeps =>
      simp only [Bool.and_eq_true, decide_eq_true_eq] at hkeeps
      exact .inr ⟨old, hold, hkeeps.2, rfl⟩
    . exact .inl rfl

theorem Bounded.put (h : c.Bounded) (v : V) : (c.put keeps v).Bounded := by
  rintro cell ⟨⟩
  change c.identity keeps v < c.next + 1
  rcases identity_cases keeps c v with hnew | ⟨old, hold, _, hsame⟩
  . omega
  . have := h old hold
    omega

theorem notify_busy (h : c.fetchStatus ≠ .idle) : c.notify keeps = c := by
  unfold notify
  rw [if_neg (by simp [h])]

theorem notify_unsubscribed (h : c.settleSubscription = false) : c.notify keeps = c := by
  unfold notify
  rw [h, Bool.false_and, if_neg Bool.false_ne_true]

/-- Once the query is idle it holds `x`, whether the queue is replayed or not. -/
theorem notify_idle {x : Option V} (hidle : c.fetchStatus = .idle) (hqueued : c.Queued) (hbounded : c.Bounded)
    (hnone : c.writesLostToFetch = none → c.value = x)
    (hkept : ∀ queue last, c.writesLostToFetch = some queue → queue.getLast? = some last → last.wrote = c.wrote →
      c.value = x)
    (hlost : ∀ queue, c.writesLostToFetch = some queue → c.value.map (runAll c.queued) = x) :
    (c.notify keeps).fetchStatus = .idle ∧ (c.notify keeps).value = x ∧ (c.notify keeps).Drained ∧
      (c.notify keeps).Bounded := by
  unfold notify
  rw [hqueued.subscription]
  cases hqueue : c.writesLostToFetch with
  | none =>
    rw [if_neg (by simp)]
    exact ⟨hidle, hnone hqueue, ⟨hqueue, by rw [hqueued.subscription, hqueue]; rfl⟩, hbounded⟩
  | some queue =>
    rw [if_pos (by simp [hidle])]
    unfold replayWritesLostToFetch
    simp only
    cases hlast : queue.getLast? with
    | none =>
      rw [List.getLast?_eq_none_iff] at hlast
      exact absurd (hlast ▸ hqueue) hqueued.entries
    | some last =>
      dsimp only
      split
      . next hwrote => exact ⟨hidle, hkept queue last hqueue hlast hwrote, ⟨rfl, rfl⟩, hbounded⟩
      . have hvalue := hlost queue hqueue
        split
        . next hdata =>
          rw [value, hdata] at hvalue
          refine ⟨hidle, ?_, ⟨rfl, rfl⟩, hbounded⟩
          rw [← hvalue, value, hdata]
          rfl
        . next old hdata =>
          refine ⟨hidle, ?_, ⟨rfl, rfl⟩, ?_⟩
          . rw [value_put, ← hvalue, value, hdata, queued, hqueue, Option.getD_some, Option.map_some, Option.map_some,
              runAll, List.foldl_map]
          . exact Bounded.put (c := { c with writesLostToFetch := none, settleSubscription := false }) hbounded _

end MessagesCache

end Settling

section History

variable {V : Type}

/-- All the writes. -/
def issued (ws : List (Issued V)) : List (V → V) := ws.map (·.apply)

/-- The writes that were issued while the query had data. -/
def held (ws : List (Issued V)) : List (V → V) := issued (ws.filter (·.hadData))

theorem held_concat (ws : List (Issued V)) (apply : V → V) (hadData : Bool) :
    held (ws ++ [⟨apply, hadData⟩]) = if hadData then held ws ++ [apply] else held ws := by
  cases hadData <;> simp [held, issued]

/-- An idle query holds its base with the writes since that one's snapshot, and nothing is left to replay. -/
def IdleUpToDate (writesOf : List (Issued V) → List (V → V)) (o : Observed V) : Prop :=
  o.cache.fetchStatus = .idle →
    o.cache.value = o.history.base.map (runAll (writesOf o.history.since)) ∧ o.cache.Drained

/-- A key with the given data, no fetch in flight and nothing written. -/
def Observed.start (data : Option V) : Observed V where
  cache := ⟨data.map fun v => ⟨0, v⟩, .idle, none, 1, none, false⟩
  history := ⟨data, [], []⟩

end History

section Invariant

variable {V : Type} {writes : (V → V) → Prop} {loads : (Option V → V) → Prop} {o o' : Observed V}

/-- The transforms and the landings are among these. -/
def Among (writes : (V → V) → Prop) (loads : (Option V → V) → Prop) (_o : Observed V) (e : CacheEvent V) : Prop :=
  match e with
  | .write apply => writes apply
  | .land load => loads load
  | _ => True

/--
What holds while a fetch is in flight: the writes since the base are those before the queue, those of the queue before
the snapshot and those since the snapshot.
-/
structure InFlight (o : Observed V) (before parked : List (V → V)) : Prop where
  since : held o.history.since = before ++ parked ++ held o.history.flight
  queue : o.cache.queued = parked ++ held o.history.flight
  snapshot : o.cache.snapshot.map (·.value) = o.history.base.map (runAll (before ++ parked))
  queued : o.cache.Queued
  last : ∀ queue last, o.cache.writesLostToFetch = some queue → queue.getLast? = some last → last.wrote = o.cache.wrote
  same : ∀ old cell, o.cache.snapshot = some old → o.cache.data = some cell →
    old.ref < o.cache.next ∧ (old.ref = cell.ref → old.value = cell.value)

structure Synced (writes : (V → V) → Prop) (o : Observed V) : Prop where
  among : ∀ w ∈ held o.history.since, writes w
  data : o.cache.value = o.history.base.map (runAll (held o.history.since))
  empty : o.history.base = none → held o.history.since = []
  bounded : o.cache.Bounded
  idle : o.cache.fetchStatus = .idle → o.cache.Drained
  busy : o.cache.fetchStatus ≠ .idle → ∃ before parked, InFlight o before parked

theorem synced_start (data : Option V) : Synced writes (Observed.start data) where
  among := nofun
  data := by cases data <;> rfl
  empty := fun _ => rfl
  bounded := by
    cases data with
    | none => nofun
    | some v =>
      rintro cell ⟨⟩
      exact Nat.zero_lt_one
  idle := fun _ => ⟨rfl, rfl⟩
  busy := fun h => absurd rfl h

theorem Synced.idleUpToDate (h : Synced writes o) : IdleUpToDate held o := fun hidle => ⟨h.data, h.idle hidle⟩

theorem InFlight.queue_nil {before parked : List (V → V)} (h : InFlight o before parked)
    (hnone : o.cache.writesLostToFetch = none) : parked = [] ∧ held o.history.flight = [] := by
  have hqueue := h.queue
  rw [MessagesCache.queued, hnone] at hqueue
  exact List.append_eq_nil_iff.mp hqueue.symm

/-- An idle query with nothing to replay. -/
theorem synced_of_idle {c : MessagesCache V} {history : History V} (hamong : ∀ w ∈ held history.since, writes w)
    (hempty : history.base = none → held history.since = [])
    (hidle : c.fetchStatus = .idle ∧ c.value = history.base.map (runAll (held history.since)) ∧ c.Drained ∧ c.Bounded) :
    Synced writes ⟨c, history⟩ :=
  ⟨hamong, hidle.2.1, hempty, hidle.2.2.2, fun _ => hidle.2.2.1, fun hbusy => absurd hidle.1 hbusy⟩

theorem Synced.among_flight (h : Synced writes o) {before parked : List (V → V)} (hflight : InFlight o before parked) :
    ∀ w ∈ parked ++ held o.history.flight, writes w := by
  intro w hw
  apply h.among
  rw [hflight.since, List.append_assoc]
  exact List.mem_append_right before hw

theorem InFlight.base_none {before parked : List (V → V)} (hflight : InFlight o before parked)
    (hnone : o.cache.snapshot = none) : o.history.base = none := by
  have hsnapshot := hflight.snapshot
  rw [hnone, Option.map_none, eq_comm, Option.map_eq_none_iff] at hsnapshot
  exact hsnapshot

/-- A snapshot with a value has it from the base, and the cache has one as well. -/
theorem Synced.of_snapshot (h : Synced writes o) {before parked : List (V → V)} (hflight : InFlight o before parked)
    {old : Cell V} (hold : o.cache.snapshot = some old) :
    ∃ base cell, o.history.base = some base ∧ o.cache.data = some cell ∧
      old.value = runAll (before ++ parked) base ∧ cell.value = runAll (held o.history.flight) old.value := by
  have hsnapshot := hflight.snapshot
  rw [hold, Option.map_some] at hsnapshot
  rcases Option.map_eq_some_iff.mp hsnapshot.symm with ⟨base, hbase, hvalue⟩
  have hdata := h.data
  rw [hbase, Option.map_some] at hdata
  rcases Option.map_eq_some_iff.mp hdata with ⟨cell, hcell, hcellValue⟩
  refine ⟨base, cell, hbase, hcell, hvalue.symm, ?_⟩
  rw [hcellValue, hflight.since, runAll_append, hvalue]

variable [DecidableEq V] {keeps : Nat → Bool}

/-- The cache of a write, once it has notified: the new value, and in flight one more entry of the queue. -/
theorem write_cases {c : MessagesCache V} {old : Cell V} (hdata : c.data = some old) (apply : V → V) :
    (c.fetchStatus = .idle → c.settleSubscription = false →
      c.writeMessagesCache keeps apply = c.put keeps (apply old.value)) ∧
    (c.fetchStatus ≠ .idle → c.Queued →
      c.writeMessagesCache keeps apply =
        { c.put keeps (apply old.value) with
          writesLostToFetch := some (c.writesLostToFetch.getD [] ++ [⟨apply, (c.put keeps (apply old.value)).wrote⟩])
          settleSubscription := true }) := by
  unfold MessagesCache.writeMessagesCache
  rw [hdata]
  refine ⟨?_, ?_⟩
  . intro hidle hsub
    have hput : (c.put keeps (apply old.value)).settleSubscription = false := hsub
    dsimp only
    rw [if_pos hidle, MessagesCache.notify_unsubscribed hput]
  . intro hbusy hqueued
    have hput : (c.put keeps (apply old.value)).fetchStatus ≠ .idle := hbusy
    dsimp only
    rw [if_neg hbusy, MessagesCache.notify_busy hput]
    have hsubscription := hqueued.subscription
    cases hqueue : c.writesLostToFetch with
    | none =>
      unfold MessagesCache.scheduleReplayOnSettle
      simp only [MessagesCache.put, hqueue, Option.getD_none, List.isEmpty_nil, if_true]
      split
      . next hsub => rw [← hsub]
      . rfl
    | some queue =>
      have hentries : queue.isEmpty = false := by
        rw [Bool.eq_false_iff, ne_eq, List.isEmpty_iff]
        rintro rfl
        exact hqueued.entries hqueue
      rw [hqueue, Option.isSome_some] at hsubscription
      simp only [MessagesCache.put, hqueue, Option.getD_some, hentries, Bool.false_eq_true, if_false, hsubscription]

/-- A write without data does nothing. -/
theorem Synced.write_none (h : Synced writes o) (apply : V → V) (hdata : o.cache.data = none) :
    Synced writes ⟨o.cache.writeMessagesCache keeps apply, o.history.write ⟨apply, false⟩⟩ := by
  have hcache : o.cache.writeMessagesCache keeps apply = o.cache := by
    unfold MessagesCache.writeMessagesCache
    rw [hdata]
  have hheld : ∀ ws, held (ws ++ [⟨apply, false⟩]) = held ws := fun ws => held_concat ws apply false
  rw [hcache]
  refine ⟨?_, ?_, ?_, h.bounded, h.idle, ?_⟩
  . rw [History.write, hheld]
    exact h.among
  . rw [History.write, hheld]
    exact h.data
  . rw [History.write, hheld]
    exact h.empty
  . intro hbusy
    rcases h.busy hbusy with ⟨before, parked, hflight⟩
    refine ⟨before, parked, ?_, ?_, hflight.snapshot, hflight.queued, hflight.last, hflight.same⟩
    . rw [History.write, hheld, hheld]
      exact hflight.since
    . rw [History.write, hheld]
      exact hflight.queue

/-- In flight a write joins the queue and those since the snapshot. -/
theorem InFlight.write {before parked : List (V → V)} (hflight : InFlight o before parked) {old : Cell V}
    (hdata : o.cache.data = some old) (apply : V → V) :
    InFlight ⟨{ o.cache.put keeps (apply old.value) with
      writesLostToFetch :=
        some (o.cache.writesLostToFetch.getD [] ++ [⟨apply, (o.cache.put keeps (apply old.value)).wrote⟩])
      settleSubscription := true }, o.history.write ⟨apply, true⟩⟩ before parked := by
  have hheld : ∀ ws, held (ws ++ [⟨apply, true⟩]) = held ws ++ [apply] := fun ws => held_concat ws apply true
  refine ⟨?_, ?_, hflight.snapshot, ⟨rfl, by simp⟩, ?_, ?_⟩
  . rw [History.write, hheld, hheld, hflight.since, List.append_assoc _ _ [apply]]
  . have hqueue := hflight.queue
    rw [MessagesCache.queued] at hqueue ⊢
    rw [Option.getD_some, List.map_append, hqueue, History.write, hheld, List.append_assoc]
    rfl
  . rintro queue last ⟨⟩ hlast
    rw [List.getLast?_concat, Option.some.injEq] at hlast
    rw [← hlast]
    rfl
  . rintro old' cell hsnapshot ⟨⟩
    rcases hflight.same old' old hsnapshot hdata with ⟨hlt, hsame⟩
    refine ⟨Nat.lt_succ_of_lt hlt, ?_⟩
    dsimp only
    intro href
    rcases MessagesCache.identity_cases keeps o.cache (apply old.value) with hnew | ⟨cell, hcell, hequal, hkept⟩
    . omega
    . rw [hdata, Option.some.injEq] at hcell
      rw [← hequal, ← hcell]
      apply hsame
      rw [href, hkept, hcell]

theorem Synced.write (h : Synced writes o) {apply : V → V} (hwrite : writes apply) :
    Synced writes ⟨o.cache.writeMessagesCache keeps apply, o.history.write ⟨apply, o.cache.data.isSome⟩⟩ := by
  cases hdata : o.cache.data with
  | none => exact h.write_none apply hdata
  | some old =>
    rw [Option.isSome_some]
    have hheld : held (o.history.write ⟨apply, true⟩).since = held o.history.since ++ [apply] :=
      held_concat _ apply true
    have hbase : ∃ base, o.history.base = some base ∧ old.value = runAll (held o.history.since) base := by
      have hvalue := h.data
      rw [MessagesCache.value, hdata, Option.map_some] at hvalue
      rcases Option.map_eq_some_iff.mp hvalue.symm with ⟨base, hbase, heq⟩
      exact ⟨base, hbase, heq.symm⟩
    rcases hbase with ⟨base, hbase, hold⟩
    have hamong : ∀ w ∈ held (o.history.write ⟨apply, true⟩).since, writes w := by
      intro w hw
      rw [hheld] at hw
      rcases List.mem_append.mp hw with hw | hw
      . exact h.among w hw
      . exact List.mem_singleton.mp hw ▸ hwrite
    have hvalue : some (apply old.value) =
        o.history.base.map (runAll (held (o.history.write ⟨apply, true⟩).since)) := by
      rw [hheld, hbase, Option.map_some, runAll_concat, hold]
    have hempty : o.history.base = none → held (o.history.write ⟨apply, true⟩).since = [] := by
      intro hnone
      rw [hbase] at hnone
      contradiction
    by_cases hidle : o.cache.fetchStatus = .idle
    . rw [(write_cases hdata apply).1 hidle (h.idle hidle).2]
      exact ⟨hamong, hvalue, hempty, h.bounded.put _, fun _ => h.idle hidle, fun hbusy => absurd hidle hbusy⟩
    . rcases h.busy hidle with ⟨before, parked, hflight⟩
      rw [(write_cases hdata apply).2 hidle hflight.queued]
      exact ⟨hamong, hvalue, hempty, h.bounded.put _, fun hidle' => absurd hidle' hidle,
        fun _ => ⟨before, parked, hflight.write hdata apply⟩⟩

theorem Synced.begin (h : Synced writes o) (paused : Bool) :
    Synced writes ⟨(o.cache.begin paused).notify keeps, o.history.begin⟩ := by
  have hbusy : (o.cache.begin paused).fetchStatus ≠ .idle := by cases paused <;> nofun
  rw [MessagesCache.notify_busy hbusy]
  refine ⟨h.among, h.data, h.empty, h.bounded, fun hidle => absurd hidle hbusy, fun _ => ?_⟩
  have hsame : ∀ old cell, o.cache.data = some old → o.cache.data = some cell →
      old.ref < o.cache.next ∧ (old.ref = cell.ref → old.value = cell.value) := by
    intro old cell hold hcell
    rw [hold, Option.some.injEq] at hcell
    exact ⟨h.bounded old hold, fun _ => hcell ▸ rfl⟩
  by_cases hidle : o.cache.fetchStatus = .idle
  . rcases h.idle hidle with ⟨hqueue, hsub⟩
    have hnil : o.cache.queued = [] := by rw [MessagesCache.queued, hqueue]; rfl
    refine ⟨held o.history.since, [], ?_, hnil, ?_, ⟨?_, ?_⟩, ?_, hsame⟩
    . rw [List.append_nil]
      exact (List.append_nil _).symm
    . rw [List.append_nil]
      exact h.data
    . change o.cache.settleSubscription = o.cache.writesLostToFetch.isSome
      rw [hqueue, hsub]
      rfl
    . change o.cache.writesLostToFetch ≠ some []
      rw [hqueue]
      nofun
    . intro queue last hsome
      change o.cache.writesLostToFetch = some queue at hsome
      rw [hqueue] at hsome
      contradiction
  . rcases h.busy hidle with ⟨before, parked, hflight⟩
    refine ⟨before, parked ++ held o.history.flight, ?_, ?_, ?_, ⟨hflight.queued.1, hflight.queued.2⟩, hflight.last,
      hsame⟩
    . change held o.history.since = before ++ (parked ++ held o.history.flight) ++ []
      rw [hflight.since, List.append_nil, List.append_assoc]
    . change o.cache.queued = parked ++ held o.history.flight ++ []
      rw [hflight.queue, List.append_nil]
    . change o.cache.value = o.history.base.map (runAll (before ++ (parked ++ held o.history.flight)))
      rw [h.data, hflight.since, List.append_assoc]

/-- Only the status changes, and it does not become idle. -/
theorem Synced.status (h : Synced writes o) (hold : o.cache.fetchStatus ≠ .idle) {status : FetchStatus}
    (hnew : status ≠ .idle) :
    Synced writes ⟨MessagesCache.notify keeps { o.cache with fetchStatus := status }, o.history⟩ := by
  have hbusy : ({ o.cache with fetchStatus := status } : MessagesCache V).fetchStatus ≠ .idle := hnew
  rw [MessagesCache.notify_busy hbusy]
  refine ⟨h.among, h.data, h.empty, h.bounded, fun hidle => absurd hidle hnew, fun _ => ?_⟩
  rcases h.busy hold with ⟨before, parked, hflight⟩
  exact ⟨before, parked, hflight.since, hflight.queue, hflight.snapshot, ⟨hflight.queued.1, hflight.queued.2⟩,
    hflight.last, hflight.same⟩

/-- The fetch fails, or it is cancelled and the data stays. -/
theorem Synced.fail (h : Synced writes o) (hreplay : Replayable writes loads) (hold : o.cache.fetchStatus ≠ .idle) :
    Synced writes ⟨(o.cache.settle o.cache.data).notify keeps, o.history⟩ := by
  rcases h.busy hold with ⟨before, parked, hflight⟩
  apply synced_of_idle h.among h.empty
  have hbounded : (o.cache.settle o.cache.data).Bounded := h.bounded
  apply MessagesCache.notify_idle rfl (hflight.queued.settle _) hbounded
  . exact fun _ => h.data
  . exact fun _ _ _ _ _ => h.data
  . intro queue _
    change o.cache.value.map (runAll o.cache.queued) = _
    rw [h.data, hflight.since, hflight.queue, Option.map_map, List.append_assoc]
    congr 1
    funext base
    rw [Function.comp_apply, runAll_append before]
    exact hreplay.twice (h.among_flight hflight) _

/-- The fetch is cancelled, and the cache gets the snapshot back. -/
theorem Synced.revert (h : Synced writes o) (hreplay : Replayable writes loads) (hold : o.cache.fetchStatus ≠ .idle) :
    Synced writes ⟨(o.cache.settle o.cache.snapshot).notify keeps, o.history⟩ := by
  rcases h.busy hold with ⟨before, parked, hflight⟩
  have hvalue : (o.cache.settle o.cache.snapshot).value = o.history.base.map (runAll (before ++ parked)) :=
    hflight.snapshot
  apply synced_of_idle h.among h.empty
  apply MessagesCache.notify_idle rfl (hflight.queued.settle _)
  . intro old hsnapshot
    rcases h.of_snapshot hflight hsnapshot with ⟨_, cell, _, hcell, _⟩
    exact (hflight.same old cell hsnapshot hcell).1
  . intro hnone
    rw [hvalue, hflight.since, (hflight.queue_nil hnone).2, List.append_nil]
  . -- the writes have left the value that the fetch had found
    intro queue last hqueue hlast hwrote
    rw [hflight.last queue last hqueue hlast] at hwrote
    cases hsnapshot : o.cache.snapshot with
    | none =>
      rw [hflight.base_none hsnapshot]
      rfl
    | some old =>
      rcases h.of_snapshot hflight hsnapshot with ⟨_, cell, _, hcell, _⟩
      rw [MessagesCache.wrote, MessagesCache.wrote, MessagesCache.settle, hsnapshot, hcell, Option.map_some,
        Option.map_some, Option.some.injEq] at hwrote
      rw [← h.data, MessagesCache.value, MessagesCache.value, hcell]
      exact congrArg some ((hflight.same old cell hsnapshot hcell).2 hwrote.symm)
  . intro queue _
    rw [hvalue, hflight.since, Option.map_map, show (o.cache.settle o.cache.snapshot).queued = _ from hflight.queue]
    congr 1
    funext base
    rw [Function.comp_apply, runAll_append (before ++ parked), runAll_append before]
    exact hreplay.over_run (h.among_flight hflight) _

theorem Synced.land (h : Synced writes o) (hreplay : Replayable writes loads) (hold : o.cache.fetchStatus ≠ .idle)
    {load : Option V → V} (hload : loads load) :
    Synced writes ⟨((o.cache.settle o.cache.data).put keeps (load (o.cache.snapshot.map (·.value)))).notify keeps,
      o.history.land (load (o.cache.snapshot.map (·.value)))⟩ := by
  rcases h.busy hold with ⟨before, parked, hflight⟩
  have hflights : ∀ w ∈ held o.history.flight, writes w := fun w hw =>
    h.among_flight hflight w (List.mem_append_right parked hw)
  apply synced_of_idle hflights fun hnone => absurd hnone (Option.some_ne_none _)
  have hbounded : (o.cache.settle o.cache.data).Bounded := h.bounded
  have hqueued : ((o.cache.settle o.cache.data).put keeps (load (o.cache.snapshot.map (·.value)))).Queued :=
    ⟨hflight.queued.1, hflight.queued.2⟩
  apply MessagesCache.notify_idle rfl hqueued (hbounded.put _)
  . intro hnone
    rw [MessagesCache.value_put]
    change _ = some (runAll (held o.history.flight) _)
    rw [(hflight.queue_nil hnone).2]
    rfl
  . -- the page that landed equals what the writes had left
    intro queue last hqueue hlast hwrote
    rw [hflight.last queue last hqueue hlast] at hwrote
    change o.cache.wrote = some _ at hwrote
    rcases Option.map_eq_some_iff.mp hwrote with ⟨cell, hcell, href⟩
    dsimp only at href
    rcases MessagesCache.identity_cases keeps (o.cache.settle o.cache.data) (load (o.cache.snapshot.map (·.value))) with
      hnew | ⟨cell', hcell', hequal, _⟩
    . have hlt : cell.ref < o.cache.next := h.bounded cell hcell
      have hnext : (o.cache.settle o.cache.data).next = o.cache.next := rfl
      omega
    . have hsome : ∃ old, o.cache.snapshot = some old := by
        cases hsnapshot : o.cache.snapshot with
        | none =>
          have hdata := h.data
          rw [hflight.base_none hsnapshot, MessagesCache.value, hcell] at hdata
          contradiction
        | some old => exact ⟨old, rfl⟩
      rcases hsome with ⟨old, hsnapshot⟩
      rcases h.of_snapshot hflight hsnapshot with ⟨_, cell'', _, hcell'', _, hvalue⟩
      change o.cache.data = some cell' at hcell'
      rw [hcell', Option.some.injEq] at hcell''
      change some _ = some (runAll (held o.history.flight) _)
      rw [← hequal, hcell'', hvalue, hreplay.twice hflights]
  . intro queue hqueue
    rw [MessagesCache.value_put]
    change some (runAll o.cache.queued _) = some (runAll (held o.history.flight) _)
    rw [hflight.queue]
    cases hsnapshot : o.cache.snapshot with
    | none =>
      have hnil := h.empty (hflight.base_none hsnapshot)
      rw [hflight.since, List.append_eq_nil_iff, List.append_eq_nil_iff] at hnil
      rw [hnil.1.2, hnil.2]
      rfl
    | some old =>
      rcases h.of_snapshot hflight hsnapshot with ⟨base, _, _, _, hvalue, _⟩
      rw [Option.map_some, hvalue, runAll_append before, hreplay.over_load (h.among_flight hflight) hload]

theorem Synced.run (h : Synced writes o) (hreplay : Replayable writes loads) {e : CacheEvent V}
    (hok : Among writes loads o e) (hstep : (cacheMachine keeps).step o e = some o') : Synced writes o' := by
  cases e with
  | write apply =>
    rw [← Option.some.inj hstep]
    exact h.write hok
  | start paused =>
    simp only [cacheMachine, Option.ite_none_right_eq_some, Option.some.injEq] at hstep
    rw [← hstep.2]
    exact h.begin paused
  | pause =>
    simp only [cacheMachine, Option.ite_none_right_eq_some, Option.some.injEq] at hstep
    rcases hstep with ⟨hfetching, rfl⟩
    exact h.status (by rw [hfetching]; nofun) nofun
  | resume =>
    simp only [cacheMachine, Option.ite_none_right_eq_some, Option.some.injEq] at hstep
    rcases hstep with ⟨hpaused, rfl⟩
    exact h.status (by rw [hpaused]; nofun) nofun
  | land load =>
    simp only [cacheMachine, Option.ite_none_right_eq_some, Option.some.injEq] at hstep
    rcases hstep with ⟨hfetching, rfl⟩
    exact h.land hreplay (by rw [hfetching]; nofun) hok
  | fail =>
    simp only [cacheMachine, Option.ite_none_left_eq_some, Option.some.injEq] at hstep
    rcases hstep with ⟨hbusy, rfl⟩
    exact h.fail hreplay hbusy
  | cancel revert =>
    simp only [cacheMachine, Option.ite_none_left_eq_some, Option.some.injEq] at hstep
    rcases hstep with ⟨hbusy, rfl⟩
    cases revert with
    | false => exact h.fail hreplay hbusy
    | true => exact h.revert hreplay hbusy
  | restart paused =>
    simp only [cacheMachine, Option.ite_none_left_eq_some, Option.some.injEq] at hstep
    rw [← hstep.2]
    exact h.begin paused
  | effect =>
    rw [← Option.some.inj hstep]
    by_cases hidle : o.cache.fetchStatus = .idle
    . have hcache : o.cache.replayWritesLostToFetch keeps = o.cache := by
        unfold MessagesCache.replayWritesLostToFetch
        rw [(h.idle hidle).1]
      rw [if_pos hidle, hcache]
      exact h
    . rw [if_neg hidle]
      exact h

end Invariant

section Runs

variable {V : Type} [DecidableEq V]

/-- An idle query has lost none of the writes that were issued while it had data. -/
theorem idleUpToDate_of_reach {keeps : Nat → Bool} {writes : (V → V) → Prop} {loads : (Option V → V) → Prop}
    (hreplay : Replayable writes loads) {data : Option V} {o : Observed V}
    (h : (cacheMachine keeps).Reach (Among writes loads) (Observed.start data) o) : IdleUpToDate held o :=
  (h.invariant (synced_start data) fun _ _ _ hsynced hok hstep => hsynced.run hreplay hok hstep).idleUpToDate

/-- A thread of one message is written to, and a page keeps what its snapshot has. -/
def arrive (_ : Bool) : Bool := true

def keepsMessage (snapshot : Option Bool) : Bool := snapshot.getD false

theorem replayable_arrive : Replayable (· = arrive) (· = keepsMessage) := by
  have hrun : ∀ ws : List (Bool → Bool), (∀ w ∈ ws, w = arrive) → runAll ws true = true := by
    intro ws
    induction ws with
    | nil => exact fun _ => rfl
    | cons w ws ih =>
      intro hws
      rw [runAll, List.foldl_cons, hws w List.mem_cons_self]
      exact ih fun w' hw' => hws w' (List.mem_cons_of_mem _ hw')
  intro ws ws' x hws hreflects
  cases ws with
  | nil => rfl
  | cons w ws =>
    have hx : x = true := by
      have hys : ∀ y, runAll (w :: ws) y = true := by
        intro y
        rw [runAll, List.foldl_cons, hws w (List.mem_append_left _ List.mem_cons_self)]
        exact hrun ws fun w' hw' => hws w' (List.mem_append_left _ (List.mem_cons_of_mem _ hw'))
      rcases hreflects with ⟨y, hrun' | ⟨load, rfl, hload⟩⟩
      . rw [hrun', hys]
      . rw [hload, hys]
        rfl
    rw [hx, hrun _ hws, hrun ws' fun w' hw' => hws w' (List.mem_append_right _ hw')]

/-- A message arrives while a page is in flight, and the page lands without it. -/
theorem idleUpToDate_of_reach_landed :
    ∃ o : Observed Bool, o.cache.fetchStatus = .idle ∧ o.cache.value = some true ∧ IdleUpToDate held o := by
  have hreach : (cacheMachine fun _ => false).Reach (Among (· = arrive) (· = keepsMessage)) (Observed.start (some false))
      ⟨⟨some ⟨3, true⟩, .idle, some ⟨0, false⟩, 4, none, false⟩, ⟨some false, [⟨arrive, true⟩], []⟩⟩ :=
    .step (.step (.step .init (v := .start false) trivial rfl) (v := .write arrive) rfl rfl) (v := .land keepsMessage)
      rfl rfl
  exact ⟨_, rfl, rfl, idleUpToDate_of_reach replayable_arrive hreach⟩

/-- A message arrives while the first page is in flight, and the write to the empty query is lost. -/
theorem write_without_data_lost :
    Replayable (· = arrive) (· = keepsMessage) ∧ ∃ o,
      (cacheMachine fun _ => false).Reach (Among (· = arrive) (· = keepsMessage)) (Observed.start none) o ∧
      ¬IdleUpToDate issued o := by
  refine ⟨replayable_arrive,
    ⟨⟨some ⟨1, false⟩, .idle, none, 2, none, false⟩, ⟨some false, [⟨arrive, false⟩], []⟩⟩, ?_, ?_⟩
  . exact .step (.step (.step .init (v := .start false) trivial rfl) (v := .write arrive) rfl rfl)
      (v := .land keepsMessage) rfl rfl
  . intro h
    have hvalue := (h rfl).1
    contradiction

end Runs

end OpenWA.Dashboard
