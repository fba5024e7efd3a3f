import Mathlib.Data.List.Nodup
import OpenWA.Async.Discipline
import OpenWA.Ingress.Pipeline

/-!
This module contains the durability of acknowledged deliveries: from its insert on, a delivery was
handed over or one of the two tables still holds its payload for a replay.
-/

namespace OpenWA.Ingress

open Async Js

/-- A delivery as the provider sent it. -/
structure Delivery where
  key : IngressEventKey
  payload : IngressPayload
deriving DecidableEq

def IngressJobData.delivery (data : IngressJobData) : Option Delivery :=
  data.payload.map fun payload => ⟨data.key, payload⟩

/-- The delivery key of an inbound dead letter. -/
def IntegrationDeliveryFailure.key (row : IntegrationDeliveryFailure) : Option IngressEventKey :=
  match row.direction with
  | .inbound => row.deliveryId.map fun deliveryId => ⟨row.pluginId, row.instanceId, deliveryId⟩
  | .outbound => none

/-- The delivery an inbound dead letter can replay. -/
def IntegrationDeliveryFailure.delivery (row : IntegrationDeliveryFailure) : Option Delivery :=
  row.key.bind fun key => (row.payload.bind (·.ingress)).map fun payload => ⟨key, payload⟩

section Owned

variable (d : Delivery) (s : Store)

/-- The handler dispatch of the delivery completed. -/
def Dispatched : Prop := ∃ data ∈ s.dispatched, data.delivery = some d

/-- BullMQ accepted a job that carries the delivery. -/
def Accepted : Prop := ∃ job ∈ s.queue, job.data.delivery = some d

/-- The event row is pending with its payload. -/
def Stored : Prop :=
  ∃ row ∈ s.events, row.key = d.key ∧ row.dispatchState = some .pending ∧
    row.payload = some d.payload

/-- A dead letter with the payload is not marked redriven. -/
def DeadLettered : Prop := ∃ row ∈ s.failures, row.redriven = false ∧ row.delivery = some d

def Owned : Prop := Dispatched d s ∨ Accepted d s ∨ Stored d s ∨ DeadLettered d s

def Settled : Prop := Dispatched d s ∨ Accepted d s ∨ DeadLettered d s

instance : Decidable (Dispatched d s) := inferInstanceAs (Decidable (∃ _ ∈ _, _))

instance : Decidable (Accepted d s) := inferInstanceAs (Decidable (∃ _ ∈ _, _))

instance : Decidable (Stored d s) := inferInstanceAs (Decidable (∃ _ ∈ _, _))

instance : Decidable (DeadLettered d s) := inferInstanceAs (Decidable (∃ _ ∈ _, _))

instance : Decidable (Owned d s) := inferInstanceAs (Decidable (_ ∨ _))

end Owned

def NoDeadLetter (key : IngressEventKey) (s : Store) : Prop :=
  ∀ row ∈ s.failures, row.key ≠ some key

instance (key : IngressEventKey) (s : Store) : Decidable (NoDeadLetter key s) :=
  inferInstanceAs (Decidable (∀ _ ∈ _, _))

/-- The delivery a turn inserts a row for. -/
def Place.recorded? (place : Place) : Option Delivery :=
  match place with
  | .record key payload => some ⟨key, payload⟩
  | _ => none

/-- The job a turn hands to BullMQ. -/
def Place.job? (place : Place) : Option QueuedJob :=
  match place with
  | .add job => some job
  | _ => none

/-- The history of a run: the deliveries that were recorded as new. -/
def noteRecorded (a : Act Event Answer Loc) (s _s' : Store) (recorded : List Delivery) :
    List Delivery :=
  match a with
  | .turn _ l _ =>
    recorded ++ (l.place.recorded?.filter fun d => !s.known d.key).toList
  | .event .. => recorded

def ingressSystem (host : Host) :
    System Store Answer Loc IngressError Event (List Delivery) where
  event v s := v.run host s
  note := noteRecorded

abbrev IngressWorld := World Store (List Delivery)

abbrev IngressConfig := Config Store Answer Loc IngressError (List Delivery)

/--
The condition on the steps of a run: a delivery is recorded when no earlier one left a dead letter
under its key, unless that one still carries its payload, and BullMQ resolves an `add` as a job it
holds only if that job carries the same delivery.
-/
def Fresh (w : IngressWorld) (a : Act Event Answer Loc) : Prop :=
  match a with
  | .turn _ l x =>
    (∀ d ∈ l.place.recorded?, w.st.known d.key = false → NoDeadLetter d.key w.st ∨ DeadLettered d w.st) ∧
    (∀ job ∈ l.place.job?, x = .duplicate →
      ∃ held ∈ w.st.queue, held.jobId = job.jobId ∧ held.data.delivery = job.data.delivery)
  | .event .. => True

instance (w : IngressWorld) (a : Act Event Answer Loc) : Decidable (Fresh w a) :=
  match a with
  | .turn .. => inferInstanceAs (Decidable (_ ∧ _))
  | .event .. => inferInstanceAs (Decidable True)

/-- Row ids are primary keys. -/
structure WellFormed (s : Store) : Prop where
  eventIds : ∀ row ∈ s.events, row.id < s.nextId
  failureIds : ∀ row ∈ s.failures, row.id < s.nextId
  eventsUnique : (s.events.map (·.id)).Nodup
  failuresUnique : (s.failures.map (·.id)).Nodup

section Discipline

/-- What holds of the tables and the recorded deliveries between any two steps. -/
structure Durable (w : IngressWorld) : Prop where
  eventIds : ∀ row ∈ w.st.events, row.id < w.st.nextId
  eventKeys : ∀ row ∈ w.st.events, ∀ row' ∈ w.st.events, row.id = row'.id → row.key = row'.key
  failureIds : ∀ row ∈ w.st.failures, row.id < w.st.nextId
  failureKeys : ∀ row ∈ w.st.failures, ∀ row' ∈ w.st.failures, row.id = row'.id →
    row.delivery = row'.delivery
  recorded : ∀ d ∈ w.hist, ∃ row ∈ w.st.events, row.key = d.key
  unique : ∀ d ∈ w.hist, ∀ d' ∈ w.hist, d.key = d'.key → d = d'
  payload : ∀ d ∈ w.hist, ∀ row ∈ w.st.events, row.key = d.key →
    row.payload = none ∨ row.payload = some d.payload
  kept : ∀ d ∈ w.hist, Settled d w.st ∨ Stored d w.st ∧ NoDeadLetter d.key w.st

/-- How the world moves: nothing recorded, handed over or keyed is taken back. -/
structure Grows (w w' : IngressWorld) : Prop where
  queue : ∀ job ∈ w.st.queue, job ∈ w'.st.queue
  dispatched : ∀ data ∈ w.st.dispatched, data ∈ w'.st.dispatched
  hist : ∀ d ∈ w.hist, d ∈ w'.hist
  newKeys : ∀ d ∈ w'.hist, d ∈ w.hist ∨ ∀ row ∈ w.st.events, row.key ≠ d.key
  events : ∀ row ∈ w.st.events, ∃ row' ∈ w'.st.events, row'.id = row.id ∧ row'.key = row.key
  failures : ∀ row ∈ w.st.failures, ∃ row' ∈ w'.st.failures,
    row'.id = row.id ∧ row'.key = row.key ∧ row'.delivery = row.delivery
  settled : ∀ d ∈ w.hist, Settled d w.st → Settled d w'.st

theorem Grows.refl (w : IngressWorld) : Grows w w where
  queue _ h := h
  dispatched _ h := h
  hist _ h := h
  newKeys _ h := .inl h
  events row h := ⟨row, h, rfl, rfl⟩
  failures row h := ⟨row, h, rfl, rfl, rfl⟩
  settled _ _ h := h

theorem Grows.trans {w₁ w₂ w₃ : IngressWorld} (h : Grows w₁ w₂) (h' : Grows w₂ w₃) :
    Grows w₁ w₃ where
  queue _ hmem := h'.queue _ (h.queue _ hmem)
  dispatched _ hmem := h'.dispatched _ (h.dispatched _ hmem)
  hist _ hmem := h'.hist _ (h.hist _ hmem)
  newKeys d hmem := by
    rcases h'.newKeys d hmem with hmem | hkeys
    . exact h.newKeys d hmem
    . right
      intro row hrow
      rcases h.events row hrow with ⟨row', hrow', -, hkey⟩
      rw [← hkey]
      exact hkeys row' hrow'
  events row hrow := by
    rcases h.events row hrow with ⟨row', hrow', hid, hkey⟩
    rcases h'.events row' hrow' with ⟨row'', hrow'', hid', hkey'⟩
    exact ⟨row'', hrow'', hid'.trans hid, hkey'.trans hkey⟩
  failures row hrow := by
    rcases h.failures row hrow with ⟨row', hrow', hid, hkey, hd⟩
    rcases h'.failures row' hrow' with ⟨row'', hrow'', hid', hkey', hd'⟩
    exact ⟨row'', hrow'', hid'.trans hid, hkey'.trans hkey, hd'.trans hd⟩
  settled d hmem hs := h'.settled d (h.hist d hmem) (h.settled d hmem hs)

def discipline (host : Host) : Discipline (ingressSystem host) where
  ok := Fresh
  inv := Durable
  grows := Grows
  refl := Grows.refl
  trans := Grows.trans

/-- What one step does to the tables, as far as the deliveries recorded before it are concerned. -/
structure Keeping (w : IngressWorld) (s : Store) : Prop where
  queue : ∀ job ∈ w.st.queue, job ∈ s.queue
  dispatched : ∀ data ∈ w.st.dispatched, data ∈ s.dispatched
  nextId : w.st.nextId ≤ s.nextId
  events : ∃ f : IngressEvent → IngressEvent, s.events = w.st.events.map f ∧
    ∀ row, (f row).id = row.id ∧ (f row).key = row.key ∧
      ((f row).payload = row.payload ∨ (f row).payload = none)
  settled : ∀ d ∈ w.hist, Settled d w.st → Settled d s
  kept : ∀ d ∈ w.hist, Stored d w.st → NoDeadLetter d.key w.st →
    Settled d s ∨ Stored d s ∧ NoDeadLetter d.key s
  failureIds : ∀ row ∈ s.failures, row.id < s.nextId
  failureKeys : ∀ row ∈ s.failures, ∀ row' ∈ s.failures, row.id = row'.id →
    row.delivery = row'.delivery
  failures : ∀ row ∈ w.st.failures, ∃ row' ∈ s.failures,
    row'.id = row.id ∧ row'.key = row.key ∧ row'.delivery = row.delivery

variable {host : Host} {w : IngressWorld} {s : Store}

theorem Keeping.keeps {a : Act Event Answer Loc} (hinv : Durable w) (h : Keeping w s)
    (hnote : noteRecorded a w.st s w.hist = w.hist) :
    (discipline host).Keeps w ((ingressSystem host).after w a s) := by
  have hhist : ((ingressSystem host).after w a s).hist = w.hist := hnote
  rcases h.events with ⟨f, hevents, hf⟩
  have hback (row : IngressEvent) (hrow : row ∈ s.events) :
      ∃ old ∈ w.st.events, row.id = old.id ∧ row.key = old.key ∧
        (row.payload = old.payload ∨ row.payload = none) := by
    rw [hevents, List.mem_map] at hrow
    rcases hrow with ⟨old, hold, rfl⟩
    exact ⟨old, hold, hf old⟩
  constructor
  . refine ⟨?_, ?_, h.failureIds, h.failureKeys, ?_, ?_, ?_, ?_⟩
    . intro row hrow
      rcases hback row hrow with ⟨old, hold, hid, -⟩
      have hlt := hinv.eventIds old hold
      have hle := h.nextId
      simp only [System.after]
      omega
    . intro row hrow row' hrow' heq
      rcases hback row hrow with ⟨old, hold, hid, hkey, -⟩
      rcases hback row' hrow' with ⟨old', hold', hid', hkey', -⟩
      rw [hkey, hkey']
      apply hinv.eventKeys old hold old' hold'
      rw [← hid, ← hid', heq]
    . intro d hd
      rw [hhist] at hd
      rcases hinv.recorded d hd with ⟨row, hrow, hkey⟩
      refine ⟨f row, ?_, (hf row).2.1.trans hkey⟩
      simp only [System.after, hevents]
      exact List.mem_map_of_mem hrow
    . rw [hhist]
      exact hinv.unique
    . intro d hd row hrow hkey
      rw [hhist] at hd
      rcases hback row hrow with ⟨old, hold, -, hkey', hpayload | hpayload⟩
      . rw [hpayload]
        exact hinv.payload d hd old hold (hkey' ▸ hkey)
      . exact .inl hpayload
    . intro d hd
      rw [hhist] at hd
      rcases hinv.kept d hd with hs | ⟨hstored, hno⟩
      . exact .inl (h.settled d hd hs)
      . exact h.kept d hd hstored hno
  . refine ⟨h.queue, h.dispatched, ?_, ?_, ?_, h.failures, h.settled⟩
    . intro d hd
      rw [hhist]
      exact hd
    . intro d hd
      rw [hhist] at hd
      exact .inl hd
    . intro row hrow
      refine ⟨f row, ?_, (hf row).1, (hf row).2.1⟩
      simp only [System.after, hevents]
      exact List.mem_map_of_mem hrow

theorem settled_congr {d : Delivery} {s s' : Store} (hdispatched : s'.dispatched = s.dispatched)
    (hqueue : s'.queue = s.queue) (hfailures : s'.failures = s.failures) :
    Settled d s' ↔ Settled d s := by
  simp only [Settled, Dispatched, Accepted, DeadLettered, hdispatched, hqueue, hfailures]

theorem Keeping.of_same (hinv : Durable w) (hqueue : s.queue = w.st.queue)
    (hdispatched : s.dispatched = w.st.dispatched) (hnext : s.nextId = w.st.nextId)
    (hevents : s.events = w.st.events) (hfailures : s.failures = w.st.failures) :
    Keeping w s where
  queue _ h := hqueue ▸ h
  dispatched _ h := hdispatched ▸ h
  nextId := Nat.le_of_eq hnext.symm
  events := ⟨id, by rw [hevents, List.map_id], fun _ => ⟨rfl, rfl, .inl rfl⟩⟩
  settled _ _ h := (settled_congr hdispatched hqueue hfailures).mpr h
  kept d _ hstored hno := by
    right
    simp only [Stored, NoDeadLetter, hevents, hfailures]
    exact ⟨hstored, hno⟩
  failureIds := by
    rw [hfailures, hnext]
    exact hinv.failureIds
  failureKeys := by
    rw [hfailures]
    exact hinv.failureKeys
  failures row hrow := ⟨row, hfailures ▸ hrow, rfl, rfl, rfl⟩

/--
An update of event rows. It may retire the payload of a recorded delivery only if that one is
settled.
-/
theorem Keeping.updateEvents {p : IngressEvent → Bool} {f : IngressEvent → IngressEvent}
    (hinv : Durable w) (hf : ∀ row, (f row).id = row.id ∧ (f row).key = row.key ∧
      ((f row).payload = row.payload ∨ (f row).payload = none))
    (hretire : ∀ d ∈ w.hist, Settled d w.st ∨ ∀ row ∈ w.st.events, p row = true → row.key = d.key →
      (f row).dispatchState = row.dispatchState ∧ (f row).payload = row.payload) :
    Keeping w (w.st.updateEvents p f) where
  queue _ h := h
  dispatched _ h := h
  nextId := Nat.le_refl _
  events := by
    refine ⟨fun row => if p row then f row else row, rfl, ?_⟩
    intro row
    dsimp only
    split
    . exact hf row
    . exact ⟨rfl, rfl, .inl rfl⟩
  settled _ _ h := h
  kept d hd hstored hno := by
    rcases hretire d hd with h | h
    . exact .inl h
    . right
      refine ⟨?_, hno⟩
      rcases hstored with ⟨row, hrow, hkey, hstate, hpayload⟩
      refine ⟨if p row then f row else row, ?_, ?_⟩
      . exact List.mem_map_of_mem (f := fun row => if p row then f row else row) hrow
      . split
        . next hp =>
          rcases h row hrow hp hkey with ⟨hstate', hpayload'⟩
          exact ⟨(hf row).2.1.trans hkey, hstate'.trans hstate, hpayload'.trans hpayload⟩
        . exact ⟨hkey, hstate, hpayload⟩
  failureIds := hinv.failureIds
  failureKeys := hinv.failureKeys
  failures row hrow := ⟨row, hrow, rfl, rfl, rfl⟩

/--
An update of dead letters. It may mark the dead letter of a recorded delivery redriven only if that
delivery was handed over.
-/
theorem Keeping.updateFailures {p : IntegrationDeliveryFailure → Bool}
    {f : IntegrationDeliveryFailure → IntegrationDeliveryFailure} (hinv : Durable w)
    (hf : ∀ row, (f row).id = row.id ∧ (f row).key = row.key ∧ (f row).delivery = row.delivery)
    (hmark : ∀ d ∈ w.hist, Dispatched d w.st ∨ Accepted d w.st ∨ ∀ row ∈ w.st.failures,
      p row = true → row.delivery = some d → (f row).redriven = row.redriven) :
    Keeping w (w.st.updateFailures p f) := by
  let g : IntegrationDeliveryFailure → IntegrationDeliveryFailure :=
    fun row => if p row then f row else row
  have hg (row) : (g row).id = row.id ∧ (g row).key = row.key ∧ (g row).delivery = row.delivery := by
    dsimp only [g]
    split
    . exact hf row
    . exact ⟨rfl, rfl, rfl⟩
  have hmem (row) (h : row ∈ (w.st.updateFailures p f).failures) :
      ∃ old ∈ w.st.failures, row = g old := by
    rcases List.mem_map.mp h with ⟨old, hold, rfl⟩
    exact ⟨old, hold, rfl⟩
  have hnew (old) (h : old ∈ w.st.failures) : g old ∈ (w.st.updateFailures p f).failures :=
    List.mem_map_of_mem (f := g) h
  refine ⟨fun _ h => h, fun _ h => h, Nat.le_refl _, ?_, ?_, ?_, ?_, ?_, ?_⟩
  . exact ⟨id, (List.map_id _).symm, fun _ => ⟨rfl, rfl, .inl rfl⟩⟩
  . intro d hd hs
    rcases hs with hs | hs | ⟨row, hrow, hredriven, hdelivery⟩
    . exact .inl hs
    . exact .inr (.inl hs)
    . rcases hmark d hd with h | h | h
      . exact .inl h
      . exact .inr (.inl h)
      . refine .inr (.inr ⟨g row, hnew row hrow, ?_, (hg row).2.2.trans hdelivery⟩)
        dsimp only [g]
        split
        . next hp => exact (h row hrow hp hdelivery).trans hredriven
        . exact hredriven
  . intro d _ hstored hno
    right
    refine ⟨hstored, ?_⟩
    intro row hrow
    rcases hmem row hrow with ⟨old, hold, rfl⟩
    rw [(hg old).2.1]
    exact hno old hold
  . intro row hrow
    rcases hmem row hrow with ⟨old, hold, rfl⟩
    rw [(hg old).1]
    exact hinv.failureIds old hold
  . intro row hrow row' hrow' heq
    rcases hmem row hrow with ⟨old, hold, rfl⟩
    rcases hmem row' hrow' with ⟨old', hold', rfl⟩
    rw [(hg old).1, (hg old').1] at heq
    rw [(hg old).2.2, (hg old').2.2]
    exact hinv.failureKeys old hold old' hold' heq
  . intro row hrow
    exact ⟨g row, hnew row hrow, hg row⟩

theorem Keeping.saveFailure {build : Nat → Nat → IntegrationDeliveryFailure} {data : IngressJobData}
    (hinv : Durable w) (hid : ∀ id createdAt, (build id createdAt).id = id)
    (hredriven : ∀ id createdAt, (build id createdAt).redriven = false)
    (hkey : ∀ id createdAt, (build id createdAt).key = some data.key)
    (hdelivery : ∀ id createdAt, (build id createdAt).delivery = data.delivery)
    (hown : ∀ d ∈ w.hist, d.key = data.key → data.delivery = some d) :
    Keeping w (w.st.saveFailure build) ∧
    ∀ d, data.delivery = some d → DeadLettered d (w.st.saveFailure build) := by
  let row := build w.st.nextId w.st.clock
  have hmem (r) (h : r ∈ (w.st.saveFailure build).failures) : r ∈ w.st.failures ∨ r = row := by
    simpa [Store.saveFailure] using h
  have hold (r) (h : r ∈ w.st.failures) : r ∈ (w.st.saveFailure build).failures :=
    List.mem_append_left _ h
  have hrow : row ∈ (w.st.saveFailure build).failures := List.mem_append_right _ (by simp [row])
  have hdead (d) (h : data.delivery = some d) : DeadLettered d (w.st.saveFailure build) :=
    ⟨row, hrow, hredriven _ _, (hdelivery _ _).trans h⟩
  refine ⟨⟨fun _ h => h, fun _ h => h, Nat.le_succ _, ?_, ?_, ?_, ?_, ?_, ?_⟩, hdead⟩
  . exact ⟨id, (List.map_id _).symm, fun _ => ⟨rfl, rfl, .inl rfl⟩⟩
  . intro d _ hs
    rcases hs with hs | hs | ⟨r, hr, hs⟩
    . exact .inl hs
    . exact .inr (.inl hs)
    . exact .inr (.inr ⟨r, hold r hr, hs⟩)
  . intro d hd hstored hno
    by_cases hsame : d.key = data.key
    . exact .inl (.inr (.inr (hdead d (hown d hd hsame))))
    . right
      refine ⟨hstored, ?_⟩
      intro r hr
      rcases hmem r hr with hr | rfl
      . exact hno r hr
      . rw [show row.key = some data.key from hkey _ _]
        simpa using Ne.symm hsame
  . intro r hr
    rcases hmem r hr with hr | rfl
    . exact Nat.lt_succ_of_lt (hinv.failureIds r hr)
    . rw [show row.id = w.st.nextId from hid _ _]
      exact Nat.lt_succ_self _
  . intro r hr r' hr' heq
    rcases hmem r hr with hr | rfl
    . rcases hmem r' hr' with hr' | rfl
      . exact hinv.failureKeys r hr r' hr' heq
      . have hlt := hinv.failureIds r hr
        rw [heq, show row.id = w.st.nextId from hid _ _] at hlt
        omega
    . rcases hmem r' hr' with hr' | rfl
      . have hlt := hinv.failureIds r' hr'
        rw [← heq, show row.id = w.st.nextId from hid _ _] at hlt
        omega
      . rfl
  . intro r hr
    exact ⟨r, hold r hr, rfl, rfl, rfl⟩

theorem Keeping.handOver {queue : List QueuedJob} {dispatched : List IngressJobData}
    (hinv : Durable w) (hqueue : ∀ job ∈ w.st.queue, job ∈ queue)
    (hdispatched : ∀ data ∈ w.st.dispatched, data ∈ dispatched) :
    Keeping w { w.st with queue := queue, dispatched := dispatched } where
  queue := hqueue
  dispatched := hdispatched
  nextId := Nat.le_refl _
  events := ⟨id, (List.map_id _).symm, fun _ => ⟨rfl, rfl, .inl rfl⟩⟩
  settled d _ hs := by
    rcases hs with ⟨data, hmem, hd⟩ | ⟨job, hmem, hd⟩ | hs
    . exact .inl ⟨data, hdispatched data hmem, hd⟩
    . exact .inr (.inl ⟨job, hqueue job hmem, hd⟩)
    . exact .inr (.inr hs)
  kept _ _ hstored hno := .inr ⟨hstored, hno⟩
  failureIds := hinv.failureIds
  failureKeys := hinv.failureKeys
  failures row hrow := ⟨row, hrow, rfl, rfl, rfl⟩

end Discipline

section Turns

variable {host : Host} {α : Type} {i pid : Nat} {place : Place} {w : IngressWorld}
  {Q : α → IngressWorld → Prop} {E : IngressError → IngressWorld → Prop}

theorem note_of_not_recorded {l : Loc} {x : Answer} {s s' : Store} {hist : List Delivery}
    (h : l.place.recorded? = none) : noteRecorded (.turn i l x) s s' hist = hist := by
  simp [noteRecorded, h]

theorem after_same {l : Loc} {x : Answer} (h : l.place.recorded? = none) :
    (ingressSystem host).after w (.turn i l x) w.st = w := by
  simp [System.after, ingressSystem, note_of_not_recorded h]

theorem safe_write {f : Store → Store × α} (hplace : place.recorded? = none)
    (h : ∀ w', Grows w w' → Durable w' → Keeping w' (f w'.st).1 ∧
      ∀ w'', Grows w' w'' → w''.st = (f w'.st).1 → w''.hist = w'.hist → Q (f w'.st).2 w'') :
    (discipline host).Safe i (write pid place f) w Q E := by
  unfold write
  apply Discipline.safe_await
  intro w' x hgrows hinv _ _
  rcases h w' hgrows hinv with ⟨hkeeping, hQ⟩
  have hnote : noteRecorded (.turn i ⟨pid, place⟩ x) w'.st (f w'.st).1 w'.hist = w'.hist :=
    note_of_not_recorded hplace
  have hkeeps : (discipline host).Keeps w'
      ((ingressSystem host).after w' (.turn i ⟨pid, place⟩ x) (f w'.st).1) :=
    hkeeping.keeps hinv hnote
  exact ⟨hkeeps, hQ _ hkeeps.grows rfl hnote⟩

theorem safe_read {f : Store → α} (hplace : place.recorded? = none)
    (h : ∀ w', Grows w w' → Durable w' → Q (f w'.st) w')
    (hfault : ∀ w', E .repository w') :
    (discipline host).Safe i (read pid place f) w Q E := by
  unfold read
  apply Discipline.safe_await
  intro w' x hgrows hinv _ _
  rw [after_same hplace]
  refine ⟨⟨hinv, Grows.refl _⟩, ?_⟩
  split
  . exact hfault w'
  . exact h w' hgrows hinv

end Turns

section Enqueue

variable {host : Host} {i pid : Nat} {w : IngressWorld} {E : IngressError → IngressWorld → Prop}

/-- The delivery the data carries was handed over. -/
def HandedOver (data : IngressJobData) (w : IngressWorld) : Prop :=
  ∀ d, data.delivery = some d → Dispatched d w.st ∨ Accepted d w.st

theorem HandedOver.grows {data : IngressJobData} {w w' : IngressWorld} (hgrows : Grows w w')
    (h : HandedOver data w) : HandedOver data w' := by
  intro d hd
  rcases h d hd with ⟨x, hx, hxd⟩ | ⟨job, hjob, hjobd⟩
  . exact .inl ⟨x, hgrows.dispatched x hx, hxd⟩
  . exact .inr ⟨job, hgrows.queue job hjob, hjobd⟩

theorem stable_handedOver (data : IngressJobData) :
    (discipline host).Stable (HandedOver data) :=
  fun _ _ hgrows h => h.grows hgrows

theorem safe_queueAdd (job : QueuedJob) :
    (discipline host).Safe i (queueAdd pid job) w
      (fun resolved w => resolved = true → HandedOver job.data w) E := by
  unfold queueAdd
  apply Discipline.safe_await
  intro w' x _ hinv hready hfresh
  have hnone : (Place.add job).recorded? = none := rfl
  cases x with
  | accepted =>
    refine ⟨Keeping.keeps hinv (Keeping.handOver hinv ?_ fun _ h => h)
      (note_of_not_recorded rfl), ?_⟩
    . intro held hheld
      exact List.mem_append_left _ hheld
    . intro _ d hd
      exact .inr ⟨job, List.mem_append_right _ (by simp), hd⟩
  | duplicate =>
    rw [after_same hnone]
    refine ⟨⟨hinv, Grows.refl _⟩, ?_⟩
    intro _ d hd
    rcases hfresh.2 job rfl rfl with ⟨held, hheld, -, hsame⟩
    exact .inr ⟨held, hheld, hsame.trans hd⟩
  | rejected =>
    rw [after_same hnone]
    exact ⟨⟨hinv, Grows.refl _⟩, fun h => absurd h (by decide)⟩
  | _ => simp at hready

theorem safe_dispatch (data : IngressJobData) :
    (discipline host).Safe i (dispatchWebhookForInstance pid data) w
      (fun error w => error = none → HandedOver data w) E := by
  unfold dispatchWebhookForInstance
  apply Discipline.safe_await
  intro w' x _ hinv hready _
  cases x with
  | delivered =>
    refine ⟨Keeping.keeps hinv (Keeping.handOver hinv (fun _ h => h) ?_) (note_of_not_recorded rfl), ?_⟩
    . intro held hheld
      exact List.mem_append_left _ hheld
    . intro _ d hd
      exact .inl ⟨data, List.mem_append_right _ (by simp), hd⟩
  | threw error =>
    dsimp only
    rw [after_same rfl]
    exact ⟨⟨hinv, Grows.refl _⟩, fun h => absurd h (by simp)⟩
  | _ => simp [Answer.dispatch?] at hready

theorem safe_dispatchInline (data : IngressJobData) :
    (discipline host).Safe i (dispatchInline pid data) w
      (fun outcome w => (∀ error, outcome ≠ .failed error) → HandedOver data w) E := by
  unfold dispatchInline
  apply Discipline.Safe.seq (safe_dispatch data)
  intro error w' h
  cases error with
  | none => exact fun _ => h rfl
  | some error => exact fun hne => absurd rfl (hne error)

theorem safe_enqueue (data : IngressJobData) (jobId : Text) :
    (discipline host).Safe i (enqueue host pid data jobId) w
      (fun outcome w => (∀ error, outcome ≠ .failed error) → HandedOver data w) E := by
  unfold enqueue
  split
  . apply Discipline.Safe.seq (safe_queueAdd _)
    intro resolved w' h
    cases resolved with
    | true => exact fun _ => h rfl
    | false => exact safe_dispatchInline data
  . exact safe_dispatchInline data

end Enqueue

section Live

variable {host : Host} {i pid : Nat} {w : IngressWorld} {E : IngressError → IngressWorld → Prop}

theorem stable_recorded (d : Delivery) : (discipline host).Stable fun w => d ∈ w.hist :=
  fun _ _ hgrows h => hgrows.hist d h

theorem record_keeps {row : IngressEvent} {d : Delivery} {a : Act Event Answer Loc} (hinv : Durable w)
    (hid : row.id = w.st.nextId) (hkey : row.key = d.key) (hstate : row.dispatchState = some .pending)
    (hpayload : row.payload = some d.payload) (hnew : w.st.known d.key = false)
    (hfresh : NoDeadLetter d.key w.st ∨ DeadLettered d w.st)
    (hnote : noteRecorded a w.st (w.st.insertEvent row) w.hist = w.hist ++ [d]) :
    (discipline host).Keeps w ((ingressSystem host).after w a (w.st.insertEvent row)) := by
  have hunknown (r) (hr : r ∈ w.st.events) : r.key ≠ d.key := by
    simp only [Store.known, List.any_eq_false, decide_eq_true_eq] at hnew
    exact hnew r hr
  have hother (d') (hd' : d' ∈ w.hist) : d'.key ≠ d.key := by
    rcases hinv.recorded d' hd' with ⟨r, hr, hrkey⟩
    rw [← hrkey]
    exact hunknown r hr
  have hevents (r) : r ∈ (w.st.insertEvent row).events ↔ r ∈ w.st.events ∨ r = row := by
    simp [Store.insertEvent]
  have hhist (d') : d' ∈ w.hist ++ [d] ↔ d' ∈ w.hist ∨ d' = d := by simp
  constructor
  . simp only [discipline, System.after, ingressSystem, hnote]
    refine ⟨?_, ?_, ?_, hinv.failureKeys, ?_, ?_, ?_, ?_⟩
    . intro r hr
      rcases (hevents r).mp hr with hr₁ | rfl
      . exact Nat.lt_succ_of_lt (hinv.eventIds r hr₁)
      . exact Nat.lt_succ_of_le (Nat.le_of_eq hid)
    . intro r hr r' hr' heq
      rcases (hevents r).mp hr with hr₁ | hr₁
      . rcases (hevents r').mp hr' with hr₂ | hr₂
        . exact hinv.eventKeys r hr₁ r' hr₂ heq
        . have hlt := hinv.eventIds r hr₁
          rw [heq, hr₂] at hlt
          omega
      . rcases (hevents r').mp hr' with hr₂ | hr₂
        . have hlt := hinv.eventIds r' hr₂
          rw [← heq, hr₁] at hlt
          omega
        . rw [hr₁, hr₂]
    . intro r hr
      exact Nat.lt_succ_of_lt (hinv.failureIds r hr)
    . intro d' hd'
      rcases (hhist d').mp hd' with hd₁ | rfl
      . rcases hinv.recorded d' hd₁ with ⟨r, hr, hrkey⟩
        exact ⟨r, (hevents r).mpr (.inl hr), hrkey⟩
      . exact ⟨row, (hevents row).mpr (.inr rfl), hkey⟩
    . intro d' hd' d'' hd'' heq
      rcases (hhist d').mp hd' with hd₁ | hd₁
      . rcases (hhist d'').mp hd'' with hd₂ | hd₂
        . exact hinv.unique d' hd₁ d'' hd₂ heq
        . exact absurd (hd₂ ▸ heq) (hother d' hd₁)
      . rcases (hhist d'').mp hd'' with hd₂ | hd₂
        . exact absurd (hd₁ ▸ heq.symm) (hother d'' hd₂)
        . rw [hd₁, hd₂]
    . intro d' hd' r hr hrkey
      rcases (hhist d').mp hd' with hd₁ | hd₁
      . rcases (hevents r).mp hr with hr₁ | hr₁
        . exact hinv.payload d' hd₁ r hr₁ hrkey
        . exact absurd (hrkey.symm.trans (hr₁ ▸ hkey)) (hother d' hd₁)
      . rw [hd₁] at hrkey ⊢
        rcases (hevents r).mp hr with hr₁ | hr₁
        . exact absurd hrkey (hunknown r hr₁)
        . exact .inr (hr₁ ▸ hpayload)
    . intro d' hd'
      rcases (hhist d').mp hd' with hd₁ | hd₁
      . rcases hinv.kept d' hd₁ with h | ⟨⟨r, hr, hstored⟩, hno⟩
        . exact .inl h
        . exact .inr ⟨⟨r, (hevents r).mpr (.inl hr), hstored⟩, hno⟩
      . rw [hd₁]
        rcases hfresh with hno | hdead
        . exact .inr ⟨⟨row, (hevents row).mpr (.inr rfl), hkey, hstate, hpayload⟩, hno⟩
        . exact .inl (.inr (.inr hdead))
  . simp only [discipline, System.after, ingressSystem, hnote]
    refine ⟨fun _ h => h, fun _ h => h, ?_, ?_, ?_, fun r hr => ⟨r, hr, rfl, rfl, rfl⟩, fun _ _ h => h⟩
    . intro d' hd'
      exact (hhist d').mpr (.inl hd')
    . intro d' hd'
      rcases (hhist d').mp hd' with hd₁ | hd₁
      . exact .inl hd₁
      . exact .inr (hd₁ ▸ hunknown)
    . intro r hr
      exact ⟨r, (hevents r).mpr (.inl hr), rfl, rfl⟩

/-- The delivery a request stands for. -/
def deliveryOf (host : Host) (req : IngressRequest) : Delivery :=
  ⟨requestKey host req, req.payload⟩

theorem safe_recordOrSkip (req : IngressRequest) :
    (discipline host).Safe i (recordOrSkip host pid req) w
      (fun isNew w => isNew = true → deliveryOf host req ∈ w.hist) E := by
  unfold recordOrSkip write
  apply Discipline.safe_await
  intro w' x _ hinv _ hfresh
  cases hknown : w'.st.known (requestKey host req) with
  | true =>
    simp only [hknown, if_true]
    refine ⟨?_, fun h => absurd h (by decide)⟩
    apply Keeping.keeps hinv (Keeping.of_same hinv rfl rfl rfl rfl rfl)
    simp [noteRecorded, Place.recorded?, Option.filter, hknown]
  | false =>
    have hnote (s' : Store) : noteRecorded
        (.turn i ⟨pid, .record (requestKey host req) req.payload⟩ x) w'.st s' w'.hist =
          w'.hist ++ [deliveryOf host req] := by
      simp [noteRecorded, Place.recorded?, Option.filter, hknown, deliveryOf]
    simp only [hknown, Bool.false_eq_true, if_false]
    refine ⟨record_keeps (d := deliveryOf host req) hinv rfl rfl rfl rfl hknown
      (hfresh.1 _ rfl hknown) (hnote _), ?_⟩
    intro _
    simp only [System.after, ingressSystem, hnote]
    exact List.mem_append_right _ (by simp)

theorem Keeping.bookkeeping {p : IngressEvent → Bool} {f : IngressEvent → IngressEvent}
    (hinv : Durable w) (hf : ∀ row, (f row).id = row.id ∧ (f row).key = row.key ∧
      (f row).payload = row.payload ∧ (f row).dispatchState = row.dispatchState) :
    Keeping w (w.st.updateEvents p f) := by
  apply Keeping.updateEvents hinv
  . intro row
    exact ⟨(hf row).1, (hf row).2.1, .inl (hf row).2.2.1⟩
  . intro d _
    right
    intro row _ _ _
    exact ⟨(hf row).2.2.2, (hf row).2.2.1⟩

theorem safe_markDispatchOutcome {d : Delivery} {outcome : EnqueueOutcome} (hd : d ∈ w.hist)
    (hover : (∀ error, outcome ≠ .failed error) → Dispatched d w.st ∨ Accepted d w.st) :
    (discipline host).Safe i (markDispatchOutcome pid d.key outcome) w (fun _ w => d ∈ w.hist) E := by
  have hretired (h : ∀ error, outcome ≠ .failed error) : (discipline host).Safe i
      (write pid .markDispatched fun s => (s.updateEvents (·.key = d.key) (retire s.clock), ())) w
      (fun _ w => d ∈ w.hist) E := by
    apply safe_write rfl
    intro w' hgrows hinv
    constructor
    . apply Keeping.updateEvents hinv
      . intro row
        exact ⟨rfl, rfl, .inr rfl⟩
      . intro d' hd'
        by_cases hkey : d'.key = d.key
        . left
          rw [hinv.unique d' hd' d (hgrows.hist d hd) hkey]
          apply hgrows.settled d hd
          rcases hover h with h | h
          . exact .inl h
          . exact .inr (.inl h)
        . right
          intro row _ hp hrow
          exact absurd (hrow.symm.trans (of_decide_eq_true hp)) hkey
    . intro w'' _ _ hhist
      exact hhist ▸ hgrows.hist d hd
  cases outcome with
  | queued => exact hretired fun _ => by simp
  | dispatched => exact hretired fun _ => by simp
  | failed error =>
    apply Discipline.Safe.bind
    apply safe_write rfl
    intro w₁ hgrows₁ hinv₁
    refine ⟨Keeping.bookkeeping hinv₁ fun _ => ⟨rfl, rfl, rfl, rfl⟩, ?_⟩
    intro w₂ hgrows₂ _ _
    apply safe_write rfl
    intro w₃ hgrows₃ hinv₃
    refine ⟨Keeping.bookkeeping hinv₃ fun _ => ⟨rfl, rfl, rfl, rfl⟩, ?_⟩
    intro w₄ hgrows₄ _ _
    exact hgrows₄.hist d (hgrows₃.hist d (hgrows₂.hist d (hgrows₁.hist d hd)))

theorem safe_enqueueLive {data : IngressJobData} (jobId : Text) {d : Delivery} (hd : d ∈ w.hist)
    (hdata : data.delivery = some d) (hkey : data.key = d.key) :
    (discipline host).Safe i (enqueueLive host pid data jobId) w (fun _ _ => True) E := by
  unfold enqueueLive
  apply Discipline.Safe.bind
  apply Discipline.Safe.mono
    (Discipline.Safe.frame (stable_recorded d) hd (safe_enqueue (E := E) data jobId))
  . intro outcome w₁ h
    rcases h with ⟨hover, hd₁⟩
    rw [hkey]
    apply Discipline.Safe.seq (safe_markDispatchOutcome hd₁ fun h => hover h d hdata)
    intro _ w₂ hd₂
    cases outcome with
    | failed error =>
      apply safe_write rfl
      intro w₃ hgrows hinv
      refine ⟨(Keeping.saveFailure hinv (fun _ _ => rfl) (fun _ _ => rfl) (fun _ _ => rfl)
        (fun _ _ => rfl) ?_).1, fun _ _ _ _ => trivial⟩
      intro d' hd' hkey'
      rw [hinv.unique d' hd' d (hgrows.hist d hd₂) (hkey'.trans hkey)]
      exact hdata
    | queued => trivial
    | dispatched => trivial
  . intro e w₁ h
    exact h.1

theorem safe_handle (req : IngressRequest) :
    (discipline host).Safe i (handle host pid req) w (fun _ _ => True) E := by
  unfold handle
  apply Discipline.Safe.seq (safe_recordOrSkip req)
  intro isNew w₁ h
  cases isNew with
  | false => trivial
  | true => exact safe_enqueueLive _ (h rfl) rfl rfl

end Live

section Reconciler

variable {host : Host} {i pid : Nat} {w : IngressWorld} {E : IngressError → IngressWorld → Prop}

/-- The row was read from the table; a row keeps its id and its key. -/
def Snapshot (row : IngressEvent) (w : IngressWorld) : Prop :=
  ∃ r ∈ w.st.events, r.id = row.id ∧ r.key = row.key

/-- The payload that was read is the one recorded under the row's key, if one was. -/
def OwnPayload (row : IngressEvent) (payload : IngressPayload) (w : IngressWorld) : Prop :=
  Snapshot row w ∧ ∀ d ∈ w.hist, d.key = row.key → d = ⟨row.key, payload⟩

/-- What was recorded under the row's key is settled. -/
def RowSettled (row : IngressEvent) (w : IngressWorld) : Prop :=
  Snapshot row w ∧ ∀ d ∈ w.hist, d.key = row.key → Settled d w.st

theorem Snapshot.grows {row : IngressEvent} {w w' : IngressWorld} (hgrows : Grows w w')
    (h : Snapshot row w) : Snapshot row w' := by
  rcases h with ⟨r, hr, hid, hkey⟩
  rcases hgrows.events r hr with ⟨r', hr', hid', hkey'⟩
  exact ⟨r', hr', hid'.trans hid, hkey'.trans hkey⟩

theorem Snapshot.recorded {row : IngressEvent} {w w' : IngressWorld} {d : Delivery}
    (hgrows : Grows w w') (h : Snapshot row w) (hd : d ∈ w'.hist) (hkey : d.key = row.key) :
    d ∈ w.hist := by
  rcases h with ⟨r, hr, -, hrkey⟩
  rcases hgrows.newKeys d hd with hd | hnew
  . exact hd
  . exact absurd (hrkey.trans hkey.symm) (hnew r hr)

theorem OwnPayload.grows {row : IngressEvent} {payload : IngressPayload} {w w' : IngressWorld}
    (hgrows : Grows w w') (h : OwnPayload row payload w) : OwnPayload row payload w' := by
  refine ⟨h.1.grows hgrows, ?_⟩
  intro d hd hkey
  exact h.2 d (h.1.recorded hgrows hd hkey) hkey

theorem stable_ownPayload (row : IngressEvent) (payload : IngressPayload) :
    (discipline host).Stable (OwnPayload row payload) :=
  fun _ _ hgrows h => h.grows hgrows

theorem RowSettled.grows {row : IngressEvent} {w w' : IngressWorld} (hgrows : Grows w w')
    (h : RowSettled row w) : RowSettled row w' := by
  refine ⟨h.1.grows hgrows, ?_⟩
  intro d hd hkey
  have hold := h.1.recorded hgrows hd hkey
  exact hgrows.settled d hold (h.2 d hold hkey)

theorem key_of_id {row r : IngressEvent} (hinv : Durable w) (h : Snapshot row w)
    (hr : r ∈ w.st.events) (hid : r.id = row.id) : r.key = row.key := by
  rcases h with ⟨r', hr', hid', hkey'⟩
  rw [← hkey']
  exact hinv.eventKeys r hr r' hr' (hid.trans hid'.symm)

theorem Keeping.retireRow {row : IngressEvent} {f : IngressEvent → IngressEvent} (hinv : Durable w)
    (h : RowSettled row w) (hf : ∀ r, (f r).id = r.id ∧ (f r).key = r.key ∧ (f r).payload = none) :
    Keeping w (w.st.updateEvents (·.id = row.id) f) := by
  apply Keeping.updateEvents hinv
  . intro r
    exact ⟨(hf r).1, (hf r).2.1, .inr (hf r).2.2⟩
  . intro d hd
    by_cases hkey : d.key = row.key
    . exact .inl (h.2 d hd hkey)
    . right
      intro r hr hp hrkey
      have hrow := key_of_id hinv h.1 hr (of_decide_eq_true hp)
      exact absurd (hrkey.symm.trans hrow) hkey

theorem sameDelivery_iff (data : IngressJobData) (row : IntegrationDeliveryFailure) :
    sameDelivery data row = true ↔ row.key = some data.key := by
  rcases row with ⟨_, direction, _, _, _, deliveryId, _, _, _, _, _⟩
  cases direction <;> cases deliveryId <;>
    simp [sameDelivery, IntegrationDeliveryFailure.key, IngressJobData.key, and_assoc]

theorem safe_ensureDeadLetterRow {row : IngressEvent} {payload : IngressPayload}
    (conversationId : Option Text) (attempts : Nat) (error : Text) (h : OwnPayload row payload w) :
    (discipline host).Safe i
      (ensureDeadLetterRow pid (jobDataFor row payload conversationId) attempts error) w
      (fun _ w => RowSettled row w) (fun _ _ => True) := by
  unfold ensureDeadLetterRow
  apply Discipline.Safe.bind
  apply safe_read rfl
  . intro w₁ hgrows hinv
    have h₁ := h.grows hgrows
    split
    . next hfound =>
      refine ⟨h₁.1, ?_⟩
      intro d hd hkey
      rcases hinv.kept d hd with hs | ⟨-, hno⟩
      . exact hs
      . rcases List.countP_pos_iff.mp hfound with ⟨r, hr, hsame⟩
        rw [sameDelivery_iff] at hsame
        exact absurd (hsame.trans (by rw [hkey]; rfl)) (hno r hr)
    . apply safe_write rfl
      intro w₂ hgrows₂ hinv₂
      have h₂ := h₁.grows hgrows₂
      have hown (d) (hd : d ∈ w₂.hist) (hkey : d.key = row.key) :
          (jobDataFor row payload conversationId).delivery = some d := by
        rw [h₂.2 d hd hkey]
        rfl
      let build (id createdAt : Nat) : IntegrationDeliveryFailure :=
        { buildIngressDeadLetterRow (jobDataFor row payload conversationId) (some error) id
            createdAt with attempts := attempts }
      have hkeeping : Keeping w₂ (w₂.st.saveFailure build) ∧
          ∀ d, (jobDataFor row payload conversationId).delivery = some d →
            DeadLettered d (w₂.st.saveFailure build) :=
        Keeping.saveFailure hinv₂ (fun _ _ => rfl) (fun _ _ => rfl) (fun _ _ => rfl)
          (fun _ _ => rfl) hown
      refine ⟨hkeeping.1, ?_⟩
      intro w₃ hgrows₃ hst hhist
      refine ⟨h₂.1.grows hgrows₃, ?_⟩
      intro d hd hkey
      rw [hhist] at hd
      rw [hst]
      exact .inr (.inr (hkeeping.2 d (hown d hd hkey)))
  . intro _
    trivial

theorem safe_reconcileRow (opts : IngressReconcilerOptions) (now : Nat) {row : IngressEvent}
    {payload : IngressPayload} (conversationId : Option Text) (h : OwnPayload row payload w) :
    (discipline host).Safe i
      (reconcileRow host pid opts now row (jobDataFor row payload conversationId)) w
      (fun _ _ => True) (fun _ _ => True) := by
  unfold reconcileRow
  apply Discipline.Safe.bind
  apply Discipline.Safe.mono (Discipline.Safe.frame (stable_ownPayload row payload) h
    (safe_enqueue (E := fun _ _ => True) (jobDataFor row payload conversationId) _))
  . intro outcome w₁ h₁
    rcases h₁ with ⟨hover, h₁⟩
    have hreplayed (hne : ∀ error, outcome ≠ .failed error) : (discipline host).Safe i
        ((write pid .replayed fun s =>
          (s.updateEvents (·.id = row.id) (retire now), ())).bind fun _ =>
        write pid .retireDeadLetters fun s =>
          (s.updateFailures
            (fun r => sameDelivery (jobDataFor row payload conversationId) r && !r.redriven)
            fun r => { r with redriven := true }, ())) w₁ (fun _ _ => True) (fun _ _ => True) := by
      have hhanded (w₂) (hgrows : Grows w₁ w₂) (d) (hd : d ∈ w₂.hist) (hkey : d.key = row.key) :
          Dispatched d w₂.st ∨ Accepted d w₂.st := by
        apply (hover hne).grows hgrows
        rw [(h₁.grows hgrows).2 d hd hkey]
        rfl
      apply Discipline.Safe.bind
      apply safe_write rfl
      intro w₂ hgrows₂ hinv₂
      constructor
      . refine Keeping.retireRow hinv₂ ⟨h₁.1.grows hgrows₂, ?_⟩ fun _ => ⟨rfl, rfl, rfl⟩
        intro d hd hkey
        rcases hhanded w₂ hgrows₂ d hd hkey with h | h
        . exact .inl h
        . exact .inr (.inl h)
      . intro w₃ hgrows₃ _ _
        apply safe_write rfl
        intro w₄ hgrows₄ hinv₄
        refine ⟨Keeping.updateFailures hinv₄ (fun _ => ⟨rfl, rfl, rfl⟩) ?_, fun _ _ _ _ => trivial⟩
        intro d hd
        by_cases hkey : d.key = row.key
        . rcases hhanded w₄ (hgrows₂.trans (hgrows₃.trans hgrows₄)) d hd hkey with h | h
          . exact .inl h
          . exact .inr (.inl h)
        . refine .inr (.inr ?_)
          intro r _ hp hdelivery
          simp only [Bool.and_eq_true, sameDelivery_iff] at hp
          simp only [IntegrationDeliveryFailure.delivery, hp.1, Option.bind_some,
            Option.map_eq_some_iff] at hdelivery
          rcases hdelivery with ⟨_, -, rfl⟩
          exact absurd rfl hkey
    cases outcome with
    | queued => exact hreplayed fun _ => by simp
    | dispatched => exact hreplayed fun _ => by simp
    | failed error =>
      dsimp only
      split
      . apply Discipline.Safe.seq (safe_ensureDeadLetterRow conversationId _ error h₁)
        intro _ w₂ h₂
        apply safe_write rfl
        intro w₃ hgrows hinv
        exact ⟨Keeping.retireRow hinv (h₂.grows hgrows)
          fun _ => ⟨rfl, rfl, rfl⟩, fun _ _ _ _ => trivial⟩
      . apply safe_write rfl
        intro w₂ _ hinv
        exact ⟨Keeping.bookkeeping hinv fun _ => ⟨rfl, rfl, rfl, rfl⟩, fun _ _ _ _ => trivial⟩
  . intro _ _ _
    trivial

theorem safe_sweepRow (opts : IngressReconcilerOptions) (now : Nat) {row : IngressEvent}
    (h : ∀ payload, row.payload = some payload → OwnPayload row payload w) :
    (discipline host).Safe i (sweepRow host pid opts now row) w (fun _ _ => True) E := by
  unfold sweepRow
  split
  . next payload hpayload =>
    split
    . trivial
    . apply Discipline.Safe.catch'
      apply Discipline.Safe.mono (Q := fun _ _ => True) (E := fun _ _ => True)
      . apply Discipline.Safe.bind
        unfold resolveInstance
        apply Discipline.safe_await
        intro w₁ x hgrows hinv _ _
        have h₁ := (h payload hpayload).grows hgrows
        rw [after_same rfl]
        refine ⟨⟨hinv, Grows.refl _⟩, ?_⟩
        cases x.instance? with
        | none => trivial
        | some answer =>
          simp only [Option.elim_some, Task.ofExcept_ok, Discipline.safe_pure]
          split
          . exact safe_reconcileRow opts now _ h₁
          . trivial
      . intro _ _ _
        trivial
      . intro _ _ _
        trivial
  . trivial

theorem safe_sweepRows (opts : IngressReconcilerOptions) (now : Nat) (rows : List IngressEvent)
    (h : ∀ row ∈ rows, ∀ payload, row.payload = some payload → OwnPayload row payload w) :
    (discipline host).Safe i (sweepRows host pid opts now rows) w (fun _ _ => True) E := by
  induction rows generalizing w with
  | nil => trivial
  | cons row rows ih =>
    unfold sweepRows
    have hrest : (discipline host).Stable fun w =>
        ∀ row ∈ rows, ∀ payload, row.payload = some payload → OwnPayload row payload w := by
      intro w w' hgrows h row hrow payload hpayload
      exact (h row hrow payload hpayload).grows hgrows
    apply Discipline.Safe.bind
    apply Discipline.Safe.mono (Discipline.Safe.frame hrest
      (fun row hrow => h row (List.mem_cons_of_mem _ hrow))
      (safe_sweepRow (E := E) opts now (h row List.mem_cons_self)))
    . intro _ w₁ h₁
      exact ih h₁.2
    . intro _ _ h₁
      exact h₁.1

theorem safe_sweep (opts : IngressReconcilerOptions) (now : Nat) :
    (discipline host).Safe i (sweep host pid opts now) w (fun _ _ => True) (fun _ _ => True) := by
  have hend (w : IngressWorld) : (discipline host).Safe i
      (write pid .sweepEnd fun s => (s.setSweeping pid false, ())) w (fun _ _ => True)
      (fun _ _ => True) := by
    apply safe_write rfl
    intro w' _ hinv
    exact ⟨Keeping.of_same hinv rfl rfl rfl rfl rfl, fun _ _ _ _ => trivial⟩
  unfold sweep
  apply Discipline.Safe.andFinally
  apply Discipline.Safe.mono (Q := fun _ _ => True) (E := fun _ _ => True)
  . apply Discipline.Safe.bind
    apply safe_read rfl
    . intro w₁ _ hinv
      apply safe_sweepRows
      intro row hrow payload hpayload
      have hmem : row ∈ w₁.st.events := by
        have h := List.mem_of_mem_take hrow
        rw [List.mem_insertionSort] at h
        exact (List.mem_filter.mp h).1
      refine ⟨⟨row, hmem, rfl, rfl⟩, ?_⟩
      intro d hd hkey
      rcases hinv.payload d hd row hmem hkey.symm with hp | hp
      . simp [hp] at hpayload
      . rw [hpayload, Option.some.injEq] at hp
        rw [hp, ← hkey]
    . intro _
      trivial
  . intro _ w₁ _
    exact hend w₁
  . intro _ w₁ _
    exact hend w₁

end Reconciler

section Redrive

variable {host : Host} {i pid : Nat} {w : IngressWorld} {E : IngressError → IngressWorld → Prop}

/-- The dead letter was read from the table; it keeps its id and its delivery. -/
def DeadSnapshot (row : IntegrationDeliveryFailure) (w : IngressWorld) : Prop :=
  ∃ r ∈ w.st.failures, r.id = row.id ∧ r.key = row.key ∧ r.delivery = row.delivery

theorem DeadSnapshot.grows {row : IntegrationDeliveryFailure} {w w' : IngressWorld}
    (hgrows : Grows w w') (h : DeadSnapshot row w) : DeadSnapshot row w' := by
  rcases h with ⟨r, hr, hid, hkey, hd⟩
  rcases hgrows.failures r hr with ⟨r', hr', hid', hkey', hd'⟩
  exact ⟨r', hr', hid'.trans hid, hkey'.trans hkey, hd'.trans hd⟩

theorem stable_deadSnapshot (row : IntegrationDeliveryFailure) :
    (discipline host).Stable (DeadSnapshot row) :=
  fun _ _ hgrows h => h.grows hgrows

theorem delivery_redriveData {row : IntegrationDeliveryFailure} {rowId : Text} {d : Delivery}
    (h : row.delivery = some d) : (redriveData row rowId).delivery = some d := by
  simp only [IntegrationDeliveryFailure.delivery, Option.bind_eq_some_iff,
    Option.map_eq_some_iff] at h
  rcases h with ⟨key, hkey, payload, ⟨stored, hstored, hingress⟩, rfl⟩
  unfold IntegrationDeliveryFailure.key at hkey
  split at hkey
  . simp only [Option.map_eq_some_iff] at hkey
    rcases hkey with ⟨deliveryId, hid, rfl⟩
    simp [redriveData, IngressJobData.delivery, IngressJobData.key, hstored, hingress, hid]
  . contradiction

theorem safe_retireReplayed {plugin : PluginId} {inst : InstanceId} {sessionIdFilter : Option Text}
    {row : IntegrationDeliveryFailure} (hrow : redrivable plugin inst sessionIdFilter row = true)
    (h : DeadSnapshot row w) :
    (discipline host).Safe i (retireReplayed pid plugin inst row) w
      (fun _ w => DeadSnapshot row w) E := by
  simp only [redrivable, Bool.and_eq_true, decide_eq_true_eq] at hrow
  rcases hrow with ⟨⟨⟨⟨rfl, rfl⟩, hdirection⟩, -⟩, -⟩
  unfold retireReplayed
  split
  . next deliveryId hid =>
    have hkey : row.key = some ⟨row.pluginId, row.instanceId, deliveryId⟩ := by
      simp [IntegrationDeliveryFailure.key, hdirection, hid]
    apply safe_write rfl
    intro w' hgrows hinv
    have h' := h.grows hgrows
    constructor
    . apply Keeping.updateEvents hinv
      . intro r
        exact ⟨rfl, rfl, .inr rfl⟩
      . intro d hd
        rcases hinv.kept d hd with hs | ⟨-, hno⟩
        . exact .inl hs
        . right
          intro r _ hp hrkey
          simp only [Bool.and_eq_true, decide_eq_true_eq] at hp
          rcases h' with ⟨dead, hdead, -, hdeadKey, -⟩
          exact absurd (by rw [hdeadKey, hkey, ← hrkey, hp.1]) (hno dead hdead)
    . intro w'' hgrows' _ _
      exact h'.grows hgrows'
  . exact h

theorem safe_redriveRow {plugin : PluginId} {inst : InstanceId} {sessionIdFilter : Option Text}
    {row : IntegrationDeliveryFailure} (hrow : redrivable plugin inst sessionIdFilter row = true)
    (h : DeadSnapshot row w) :
    (discipline host).Safe i (redriveRow host pid plugin inst row) w (fun _ _ => True) E := by
  unfold redriveRow
  apply Discipline.Safe.bind
  apply Discipline.Safe.mono (Discipline.Safe.frame (stable_deadSnapshot row) h
    (safe_enqueue (E := E) (redriveData row (rowIdText row.id)) _))
  . intro outcome w₁ h₁
    rcases h₁ with ⟨hover, h₁⟩
    have hredriven (hne : ∀ error, outcome ≠ .failed error) : (discipline host).Safe i
        ((retireReplayed pid plugin inst row).bind fun _ =>
          write pid .markRedriven fun s =>
            (s.updateFailures (·.id = row.id) fun r => { r with redriven := true }, ()))
        w₁ (fun _ _ => True) E := by
      apply Discipline.Safe.bind
      apply Discipline.Safe.mono (Discipline.Safe.frame
        (stable_handedOver (redriveData row (rowIdText row.id))) (hover hne)
        (safe_retireReplayed (E := E) hrow h₁))
      . intro _ w₂ h₂
        rcases h₂ with ⟨h₂, hover₂⟩
        apply safe_write rfl
        intro w₃ hgrows hinv
        have hover₃ := hover₂.grows hgrows
        rcases h₂.grows hgrows with ⟨dead, hdead, hid, -, hdelivery⟩
        refine ⟨Keeping.updateFailures hinv (fun _ => ⟨rfl, rfl, rfl⟩) ?_, fun _ _ _ _ => trivial⟩
        intro d _
        by_cases hd : row.delivery = some d
        . rcases hover₃ d (delivery_redriveData hd) with h | h
          . exact .inl h
          . exact .inr (.inl h)
        . refine .inr (.inr ?_)
          intro r hr hp hrd
          have hsame := hinv.failureKeys r hr dead hdead ((of_decide_eq_true hp).trans hid.symm)
          exact absurd (hdelivery.symm.trans (hsame.symm.trans hrd)) hd
      . intro _ _ h
        exact h.1
    cases outcome with
    | queued => exact hredriven fun _ => by simp
    | dispatched => exact hredriven fun _ => by simp
    | failed error =>
      apply safe_write rfl
      intro w₂ _ hinv
      refine ⟨Keeping.updateFailures hinv (fun _ => ⟨rfl, rfl, rfl⟩) ?_, fun _ _ _ _ => trivial⟩
      intro d _
      exact .inr (.inr fun _ _ _ _ => rfl)
  . intro _ _ h
    exact h.1

theorem safe_redriveAll {plugin : PluginId} {inst : InstanceId} {sessionIdFilter : Option Text}
    (rows : List IntegrationDeliveryFailure)
    (hrows : ∀ row ∈ rows, redrivable plugin inst sessionIdFilter row = true)
    (h : ∀ row ∈ rows, DeadSnapshot row w) :
    (discipline host).Safe i (redriveAll host pid plugin inst rows) w (fun _ _ => True) E := by
  induction rows generalizing w with
  | nil => trivial
  | cons row rows ih =>
    unfold redriveAll
    have hrest : (discipline host).Stable fun w => ∀ row ∈ rows, DeadSnapshot row w := by
      intro w w' hgrows h row hrow
      exact (h row hrow).grows hgrows
    apply Discipline.Safe.bind
    apply Discipline.Safe.mono (Discipline.Safe.frame hrest
      (fun row hrow => h row (List.mem_cons_of_mem _ hrow))
      (safe_redriveRow (E := E) (hrows row List.mem_cons_self) (h row List.mem_cons_self)))
    . intro _ w₁ h₁
      exact ih (fun row hrow => hrows row (List.mem_cons_of_mem _ hrow)) h₁.2
    . intro _ _ h₁
      exact h₁.1

theorem safe_redriveInstance (plugin : PluginId) (inst : InstanceId) (sessionIdFilter : Option Text) :
    (discipline host).Safe i (redriveInstance host pid plugin inst sessionIdFilter) w
      (fun _ _ => True) (fun _ _ => True) := by
  have hend (w : IngressWorld) : (discipline host).Safe i
      (write pid .release fun s =>
        ({ s with redriving := s.redriving.erase (pid, plugin, inst) }, ())) w (fun _ _ => True)
      (fun _ _ => True) := by
    apply safe_write rfl
    intro w' _ hinv
    exact ⟨Keeping.of_same hinv rfl rfl rfl rfl rfl, fun _ _ _ _ => trivial⟩
  unfold redriveInstance
  apply Discipline.Safe.bind
  apply Discipline.safe_await
  intro w₁ x _ hinv _ _
  refine ⟨Keeping.keeps hinv (Keeping.of_same hinv rfl rfl rfl rfl rfl) (note_of_not_recorded rfl), ?_⟩
  apply Discipline.Safe.andFinally
  apply Discipline.Safe.mono (Q := fun _ _ => True) (E := fun _ _ => True)
  . unfold redriveBatch
    apply Discipline.Safe.bind
    apply safe_read rfl
    . intro w₂ _ _
      have hmem (row) (hrow : row ∈ redriveRows plugin inst sessionIdFilter w₂.st) :
          row ∈ w₂.st.failures ∧ redrivable plugin inst sessionIdFilter row = true := by
        have h := List.mem_of_mem_take hrow
        rw [List.mem_insertionSort] at h
        exact List.mem_filter.mp h
      apply Discipline.Safe.seq (safe_redriveAll _ (fun row hrow => (hmem row hrow).2)
        fun row hrow => ⟨row, (hmem row hrow).1, rfl, rfl, rfl⟩)
      intro _ w₃ _
      apply Discipline.Safe.bind
      apply safe_read rfl
      . intro _ _ _
        trivial
      . intro _
        trivial
    . intro _
      trivial
  . intro _ w₂ _
    exact hend w₂
  . intro _ w₂ _
    exact hend w₂

end Redrive

section Runs

variable {host : Host}

theorem sound : (discipline host).Sound := by
  intro w v s t hinv _ hevent
  have hsame (s : Store) (hs : Keeping w s) :
      (discipline host).Keeps w ((ingressSystem host).after w (.event w.started v) s) :=
    hs.keeps hinv rfl
  have hw := Keeping.of_same hinv (s := w.st) rfl rfl rfl rfl rfl
  simp only [ingressSystem, Event.run] at hevent
  split at hevent
  . split at hevent
    . simp only [Option.some.injEq, Prod.mk.injEq] at hevent
      rcases hevent with ⟨rfl, rfl⟩
      exact ⟨hsame _ hw, safe_handle _⟩
    . contradiction
  . split at hevent
    . split at hevent
      . simp only [Option.some.injEq, Prod.mk.injEq] at hevent
        rcases hevent with ⟨rfl, rfl⟩
        exact ⟨hsame _ hw, trivial⟩
      . simp only [Option.some.injEq, Prod.mk.injEq] at hevent
        rcases hevent with ⟨rfl, rfl⟩
        exact ⟨hsame _ (Keeping.of_same hinv rfl rfl rfl rfl rfl), safe_sweep _ _⟩
    . contradiction
  . split at hevent
    . simp only [Option.some.injEq, Prod.mk.injEq] at hevent
      rcases hevent with ⟨rfl, rfl⟩
      exact ⟨hsame _ hw, safe_redriveInstance _ _ _⟩
    . contradiction
  . simp only [Option.some.injEq, Prod.mk.injEq] at hevent
    rcases hevent with ⟨rfl, rfl⟩
    exact ⟨hsame _ (Keeping.of_same hinv rfl rfl rfl rfl rfl), trivial⟩
  . simp only [Option.some.injEq, Prod.mk.injEq] at hevent
    rcases hevent with ⟨rfl, rfl⟩
    exact ⟨hsame _ (Keeping.of_same hinv rfl rfl rfl rfl rfl), trivial⟩

/-- Before a run: any tables, and no delivery recorded yet. -/
def booted (s : Store) : IngressConfig where
  st := s
  hist := []
  pool := []

theorem WellFormed.durable {s : Store} (h : WellFormed s) : Durable (booted s).world where
  eventIds := h.eventIds
  eventKeys row hrow row' hrow' heq := by
    rw [List.inj_on_of_nodup_map h.eventsUnique hrow hrow' heq]
  failureIds := h.failureIds
  failureKeys row hrow row' hrow' heq := by
    rw [List.inj_on_of_nodup_map h.failuresUnique hrow hrow' heq]
  recorded := by simp [booted, Config.world]
  unique := by simp [booted, Config.world]
  payload := by simp [booted, Config.world]
  kept := by simp [booted, Config.world]

/--
In a run whose steps are all fresh, every delivery that was recorded as new, hence every one that was
acknowledged, is owned at every point: dispatched, accepted by the queue, stored or dead-lettered.
-/
theorem acknowledged_owned {s : Store} (hs : WellFormed s) {c : IngressConfig}
    (h : (ingressSystem host).Reach Fresh (booted s) c) : ∀ d ∈ c.hist, Owned d c.st := by
  intro d hd
  have hinv := sound.inv_of_reach (d := discipline host) hs.durable rfl h
  rcases hinv.kept d hd with (h | h | h) | ⟨h, -⟩
  . exact .inl h
  . exact .inr (.inl h)
  . exact .inr (.inr (.inr h))
  . exact .inr (.inr (.inl h))

section Samples

def samplePlugin : PluginId := ⟨"shop".toList, by decide⟩

def sampleInstance (name : Char) (h : isInstanceId [name] = true) : InstanceId := ⟨[name], h⟩

/-- A delivery of the provider id `evt_1` with the given body. -/
def sampleRequest (inst : InstanceId) (body : Text) : IngressRequest where
  pluginId := samplePlugin
  instanceId := inst
  route := "orders".toList
  method := "POST".toList
  dedupOnBody := false
  headerId := some "evt_1".toList
  sessionScope := none
  providerConversationId := none
  payload := ⟨[], [], body, body⟩

def emptyStore : Store where
  events := []
  failures := []
  nextId := 0
  queue := []
  dispatched := []
  clock := 0
  sweeping := fun _ => false
  redriving := []
  crashed := []

def sampleHost (useQueue : Bool) : Host := ⟨fun _ => [], useQueue⟩

/-- How many deliveries a run recorded, and whether each of them is owned. -/
def recordedOwned (c : IngressConfig) : Nat × Bool := (c.hist.length, c.hist.all fun d => Owned d c.st)

theorem acknowledged_owned_deadLetter :
    ∃ c : IngressConfig, c.hist.length = 1 ∧ ∀ d ∈ c.hist, Owned d c.st := by
  have hrun : ((ingressSystem (sampleHost true)).exec Fresh (booted emptyStore)
      [.event (.handle 0 (sampleRequest (sampleInstance 'a' rfl) ['1'])), .turn 0 .ok,
        .turn 0 .rejected, .turn 0 (.threw ['e']), .turn 0 .ok, .turn 0 .ok, .turn 0 .ok]).map
      (fun c => (c.hist.length, c.st.failures.length)) = some (1, 1) := by
    decide +kernel
  rcases System.reach_of_exec_map hrun with ⟨c, hreach, hc⟩
  simp only [Prod.mk.injEq] at hc
  refine ⟨c, hc.1, acknowledged_owned ?_ hreach⟩
  constructor <;> simp [emptyStore]

/-- The dead letter an earlier delivery of `evt_1` left, which was redriven. -/
def redrivenStore : Store :=
  { emptyStore with
    failures := [{ buildIngressDeadLetterRow
      (jobData (sampleHost false).sha256 (sampleRequest (sampleInstance 'a' rfl) ['1'])) none 0 0 with
      redriven := true }]
    nextId := 1 }

/--
A delivery whose process crashes after the ack is given up without a dead letter, because the one
that an earlier delivery left under the key is found; and one whose job id another instance already
uses is retired although BullMQ dropped its job.
-/
theorem acknowledged_lost :
    WellFormed redrivenStore ∧
    (∃ c, (ingressSystem (sampleHost false)).Reach System.anyStep (booted redrivenStore) c ∧
      ∃ d ∈ c.hist, ¬Owned d c.st) ∧
    (∃ c, (ingressSystem (sampleHost true)).Reach System.anyStep (booted emptyStore) c ∧
      ∃ d ∈ c.hist, ¬Owned d c.st) := by
  have hlost {host : Host} {s : Store} (n : Nat) (ms : List (Move Event Answer))
      (hrun : ((ingressSystem host).exec System.anyStep (booted s) ms).map recordedOwned =
        some (n, false)) :
      ∃ c, (ingressSystem host).Reach System.anyStep (booted s) c ∧ ∃ d ∈ c.hist, ¬Owned d c.st := by
    rcases System.reach_of_exec_map hrun with ⟨c, hreach, hc⟩
    simp only [recordedOwned, Prod.mk.injEq, List.all_eq_false, decide_eq_true_eq] at hc
    exact ⟨c, hreach, hc.2⟩
  refine ⟨?_, ?_, ?_⟩
  . constructor <;> simp [redrivenStore, emptyStore, buildIngressDeadLetterRow]
  . apply hlost 1 [.event (.handle 0 (sampleRequest (sampleInstance 'a' rfl) ['2'])),
      .turn 0 .ok, .event (.crash 0), .event (.tick 1), .event (.sweep 1 ⟨0, 50, 1⟩), .turn 3 .ok,
      .turn 3 (.instance true none), .turn 3 (.threw ['e']), .turn 3 .ok, .turn 3 .ok]
    decide
  . apply hlost 2 [.event (.handle 0 (sampleRequest (sampleInstance 'a' rfl) ['1'])),
      .turn 0 .ok, .turn 0 .accepted, .turn 0 .ok,
      .event (.handle 0 (sampleRequest (sampleInstance 'b' rfl) ['2'])),
      .turn 1 .ok, .turn 1 .duplicate, .turn 1 .ok]
    decide

end Samples

end Runs

end OpenWA.Ingress
