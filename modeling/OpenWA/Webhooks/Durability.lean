import OpenWA.Async.Discipline
import OpenWA.Webhooks.Delivery

/-!
This module contains the durability of outbound deliveries: from the moment its outbox row is stored, a
delivery has reached its receiver or another owner, or the row still holds its payload for a replay.
-/

namespace OpenWA.Webhooks

open Async Js

/-- A delivery whose outbox row was stored. -/
structure Opened where
  key : DeliveryKey
  payload : Text
deriving DecidableEq

/--
The history of a run: the deliveries that were opened, the keys a receiver answered 2xx for and those
whose dispatch a plugin cancelled.
-/
structure History where
  opened : List Opened
  answered : List DeliveryKey
  cancelled : List DeliveryKey

def noteDeliveries (a : Act Event Answer Loc) (s _s' : Store) (h : History) : History :=
  match a with
  | .turn _ ⟨_, .openRow key payload⟩ .ok =>
    if s.knows key then h else { h with opened := h.opened ++ [⟨key, payload⟩] }
  | .turn _ ⟨_, .post req⟩ .answered => { h with answered := h.answered ++ [req.key] }
  | .turn _ ⟨_, .before key⟩ (.chain false _) => { h with cancelled := h.cancelled ++ [key] }
  | _ => h

def deliverySystem (host : Host) : System Store Answer Loc DeliveryError Event History where
  event v s := v.run host s
  note := noteDeliveries

abbrev DeliveryWorld := World Store History

abbrev DeliveryConfig := Config Store Answer Loc DeliveryError History

section Owned

variable (w : DeliveryWorld)

/-- The receiver answered, a plugin cancelled, BullMQ took the job, or a failure row reports the key. -/
def Settled (key : DeliveryKey) : Prop :=
  key ∈ w.hist.answered ∨ key ∈ w.hist.cancelled ∨ (∃ job ∈ w.st.queue, job.key = key) ∨
  ∃ row ∈ w.st.failures, row.key = key

/-- The outbox row is pending with its payload. -/
def Stored (o : Opened) (s : Store) : Prop :=
  ∃ row ∈ s.outbox, row.key = o.key ∧ row.state = some .pending ∧ row.payload = some o.payload

def Owned (o : Opened) : Prop := Settled w o.key ∨ Stored o w.st

instance (key : DeliveryKey) : Decidable (Settled w key) :=
  inferInstanceAs (Decidable (_ ∨ _ ∨ (∃ _ ∈ _, _) ∨ ∃ _ ∈ _, _))

instance (o : Opened) (s : Store) : Decidable (Stored o s) :=
  inferInstanceAs (Decidable (∃ _ ∈ _, _))

instance (o : Opened) : Decidable (Owned w o) := inferInstanceAs (Decidable (_ ∨ _))

end Owned

/-- The key of a row that a turn retires although nothing says that its delivery was handed over. -/
def Place.unbacked? (place : Place) : Option DeliveryKey :=
  match place with
  | .close key (.dispatched true) | .close key .spent => some key
  | _ => none

/--
The condition on the steps of a run: a row is retired after a failed delivery, or because its replay
budget is spent, only if its key is settled, as it is once a failure row reports it.
-/
def Backed (w : DeliveryWorld) (a : Act Event Answer Loc) : Prop :=
  match a with
  | .turn _ l _ => ∀ key ∈ l.place.unbacked?, Settled w key
  | .event .. => True

instance (w : DeliveryWorld) (a : Act Event Answer Loc) : Decidable (Backed w a) :=
  match a with
  | .turn .. => inferInstanceAs (Decidable (∀ _ ∈ Place.unbacked? _, _))
  | .event .. => inferInstanceAs (Decidable True)

section Discipline

variable (host : Host)

/-- The webhook of a key is registered and active. -/
def Active (key : DeliveryKey) : Prop := ((host.findWebhook key.webhookId).any (·.active)) = true

/-- What holds between any two steps. -/
structure Durable (w : DeliveryWorld) : Prop where
  owned : ∀ o ∈ w.hist.opened, Owned w o
  active : ∀ o ∈ w.hist.opened, Active host o.key

/-- What is settled stays settled. -/
def Grows (w w' : DeliveryWorld) : Prop := ∀ key, Settled w key → Settled w' key

def discipline : Discipline (deliverySystem host) where
  ok := Backed
  inv := Durable host
  grows := Grows
  refl _ _ h := h
  trans h h' key hkey := h' key (h key hkey)

/-- What a step does to the deliveries opened before it, and which ones it opens. -/
structure Keeping (w w' : DeliveryWorld) : Prop where
  settled : ∀ key, Settled w key → Settled w' key
  opened : ∀ o ∈ w'.hist.opened, o ∈ w.hist.opened ∨ Stored o w'.st ∧ Active host o.key
  stored : ∀ o ∈ w.hist.opened, Stored o w.st → Owned w' o

variable {host} {w w' : DeliveryWorld}

theorem Keeping.keeps (hinv : Durable host w) (h : Keeping host w w') : (discipline host).Keeps w w' where
  inv := by
    constructor
    . intro o ho
      rcases h.opened o ho with hold | ⟨hstored, -⟩
      . rcases hinv.owned o hold with hsettled | hstored
        . exact .inl (h.settled _ hsettled)
        . exact h.stored o hold hstored
      . exact .inr hstored
    . intro o ho
      rcases h.opened o ho with hold | ⟨-, hactive⟩
      . exact hinv.active o hold
      . exact hactive
  grows := h.settled

theorem stable_settled (key : DeliveryKey) : (discipline host).Stable (Settled · key) :=
  fun _ _ hgrows h => hgrows key h

theorem Keeping.of_outbox (hopened : w'.hist.opened = w.hist.opened)
    (hsettled : ∀ key, Settled w key → Settled w' key) (houtbox : w'.st.outbox = w.st.outbox) :
    Keeping host w w' where
  settled := hsettled
  opened o ho := .inl (hopened ▸ ho)
  stored o _ hstored := by
    right
    simp only [Stored, houtbox]
    exact hstored

theorem Keeping.of_same (hhist : w'.hist = w.hist) (hqueue : w'.st.queue = w.st.queue)
    (hfailures : w'.st.failures = w.st.failures) (houtbox : w'.st.outbox = w.st.outbox) :
    Keeping host w w' := by
  apply Keeping.of_outbox _ _ houtbox
  . rw [hhist]
  . intro key h
    simpa only [Settled, hhist, hqueue, hfailures] using h

theorem Keeping.updateOutbox {p : WebhookOutboxEvent → Bool}
    {f : WebhookOutboxEvent → WebhookOutboxEvent} (nextId : Nat) (hhist : w'.hist = w.hist)
    (hst : w'.st = { w.st.updateOutbox p f with nextId := nextId })
    (hf : ∀ row ∈ w.st.outbox, p row = true → (f row).key = row.key ∧
      ((f row).state = row.state ∧ (f row).payload = row.payload ∨ Settled w row.key ∨
        ¬Active host row.key))
    (hinv : Durable host w) : Keeping host w w' where
  settled key h := by
    simpa only [Settled, hhist, hst, Store.updateOutbox] using h
  opened o ho := .inl (hhist ▸ ho)
  stored o ho hstored := by
    rcases hstored with ⟨row, hrow, hkey, hstate, hpayload⟩
    have hmem : (if p row then f row else row) ∈ w'.st.outbox := by
      rw [hst]
      exact List.mem_map_of_mem (f := fun row => if p row then f row else row) hrow
    by_cases hp : p row = true
    . rw [if_pos hp] at hmem
      rcases hf row hrow hp with ⟨hfkey, ⟨hfstate, hfpayload⟩ | hsettled | hinactive⟩
      . exact .inr ⟨f row, hmem, hfkey.trans hkey, hfstate.trans hstate, hfpayload.trans hpayload⟩
      . left
        rw [hkey] at hsettled
        simpa only [Settled, hhist, hst, Store.updateOutbox] using hsettled
      . exact absurd (hkey ▸ hinv.active o ho) hinactive
    . rw [if_neg hp] at hmem
      exact .inr ⟨row, hmem, hkey, hstate, hpayload⟩

end Discipline

section Turns

variable {host : Host} {i pid : Nat} {w : DeliveryWorld}

/-- The places whose turns the history may note. -/
def Place.noted (place : Place) : Bool :=
  match place with
  | .openRow .. | .post _ | .before _ => true
  | _ => false

theorem note_of_not_noted {l : Loc} {x : Answer} {h : History} (hplace : l.place.noted = false)
    (s s' : Store) : noteDeliveries (.turn i l x) s s' h = h := by
  unfold noteDeliveries
  split
  . next heq => cases heq; contradiction
  . next heq => cases heq; contradiction
  . next heq => cases heq; contradiction
  . rfl

theorem hist_of_not_noted {l : Loc} {x : Answer} {s : Store} (hplace : l.place.noted = false) :
    ((deliverySystem host).after w (.turn i l x) s).hist = w.hist :=
  note_of_not_noted hplace w.st s

theorem safe_quiet {α : Type} {place : Place} {ready : Answer → Store → Bool}
    {f : Answer → Store → Store × Except DeliveryError α} {Q : α → Prop} {E : DeliveryError → Prop}
    (hplace : place.noted = false)
    (hf : ∀ x s, (f x s).1.outbox = s.outbox ∧ (f x s).1.queue = s.queue ∧
      (f x s).1.failures = s.failures)
    (hQ : ∀ x s a, (f x s).2 = .ok a → Q a) (hE : ∀ x s e, (f x s).2 = .error e → E e) :
    (discipline host).Safe i (.await ⟨pid, place⟩ ready f) w (fun a _ => Q a) (fun e _ => E e) := by
  apply Discipline.safe_await
  intro w' x _ hinv _ _
  rcases hf x w'.st with ⟨houtbox, hqueue, hfailures⟩
  refine ⟨Keeping.keeps hinv ?_, ?_⟩
  . exact Keeping.of_same (hist_of_not_noted hplace) hqueue hfailures houtbox
  cases hresult : (f x w'.st).2 with
  | ok a => exact hQ x w'.st a hresult
  | error e => exact hE x w'.st e hresult

theorem safe_write {α : Type} {place : Place} {f : Store → Store × α} (hplace : place.noted = false)
    (hf : ∀ s, (f s).1.outbox = s.outbox ∧ (f s).1.queue = s.queue ∧ (f s).1.failures = s.failures) :
    (discipline host).Safe i (write pid place f) w (fun _ _ => True) (fun _ _ => False) := by
  apply safe_quiet hplace (fun _ s => hf s)
  . intros
    trivial
  . intro _ _ _ h
    contradiction

theorem safe_executeHook :
    (discipline host).Safe i (executeHook pid) w (fun _ _ => True) (fun _ _ => False) :=
  safe_write rfl fun _ => ⟨rfl, rfl, rfl⟩

theorem safe_read {α : Type} {place : Place} {f : Store → α} (hplace : place.noted = false) :
    (discipline host).Safe i (read pid place f) w (fun _ _ => True) (fun _ _ => True) := by
  apply safe_quiet hplace (fun _ _ => ⟨rfl, rfl, rfl⟩) <;> intros <;> trivial

theorem safe_executeHook_frame {P : DeliveryWorld → Prop} (hP : (discipline host).Stable P) (h : P w) :
    (discipline host).Safe i (executeHook pid) w (fun _ => P) (fun _ _ => False) :=
  (Discipline.Safe.frame hP h safe_executeHook).mono (fun _ _ h => h.2) fun _ _ h => h.1

theorem safe_recordFailure (row : WebhookDeliveryFailure) :
    (discipline host).Safe i (recordWebhookDeliveryFailure pid row) w (fun _ _ => True)
      (fun _ _ => False) := by
  have hinsert (w : DeliveryWorld) : (discipline host).Safe i (write pid .insertFailure fun s =>
      ({ s with failures := s.failures ++ [row] }, ())) w (fun _ _ => True) (fun _ _ => True) := by
    apply Discipline.safe_await
    intro w' x _ hinv _ _
    refine ⟨Keeping.keeps hinv (Keeping.of_outbox rfl ?_ rfl), trivial⟩
    rintro key (h | h | h | ⟨failure, hmem, hkey⟩)
    . exact .inl h
    . exact .inr (.inl h)
    . exact .inr (.inr (.inl h))
    . exact .inr (.inr (.inr ⟨failure, List.mem_append_left _ hmem, hkey⟩))
  unfold recordWebhookDeliveryFailure
  apply Discipline.Safe.catch'
  split
  . exact (hinsert w).mono (fun _ _ h => h) fun _ _ _ => trivial
  . apply Discipline.Safe.seq ((safe_read rfl).mono (fun _ _ h => h) fun _ _ _ => trivial)
    intro existing w' _
    split
    . trivial
    . exact (hinsert w').mono (fun _ _ h => h) fun _ _ _ => trivial

theorem safe_recordUndelivered (webhook : Webhook) (deliveryId : Nat) (idempotencyKey error : Text)
    (ctx : DispatchEventContext) :
    (discipline host).Safe i (recordUndelivered host pid webhook deliveryId idempotencyKey error ctx) w
      (fun _ _ => True) (fun _ _ => False) :=
  Discipline.Safe.seq (safe_recordFailure _) fun _ _ _ => safe_executeHook

theorem safe_close {key : DeliveryKey} {state : WebhookOutboxState} {why : Retirement}
    (h : ∀ w' x, Grows w w' → Backed w' (.turn i ⟨pid, .close key why⟩ x) →
      Settled w' key ∨ ¬Active host key) :
    (discipline host).Safe i (close pid key state why) w (fun _ _ => True) (fun _ _ => False) := by
  apply Discipline.safe_await
  intro w' x hgrows hinv _ hok
  refine ⟨Keeping.keeps hinv (Keeping.updateOutbox w'.st.nextId rfl rfl ?_ hinv), trivial⟩
  intro row _ hkey
  simp only [decide_eq_true_eq] at hkey
  rw [hkey]
  exact ⟨rfl, .inr (h w' x hgrows hok)⟩

theorem safe_countAttempt (row : ReplayableDelivery) :
    (discipline host).Safe i (countAttempt pid row) w (fun _ _ => True) (fun _ _ => False) := by
  apply Discipline.safe_await
  intro w' x _ hinv _ _
  have hupdate (nextId : Nat) : Keeping host w' ((deliverySystem host).after w'
      (.turn i ⟨pid, .countAttempt⟩ x) { w'.st.updateOutbox
        (fun r => r.id = row.id && r.state = some .pending)
        (fun r => { r with attempts := row.attempts + 1, lastAttemptAt := some w'.st.clock }) with
        nextId := nextId }) :=
    Keeping.updateOutbox nextId rfl rfl (fun _ _ _ => ⟨rfl, .inl ⟨rfl, rfl⟩⟩) hinv
  dsimp only
  split
  . exact ⟨Keeping.keeps hinv (hupdate _), trivial⟩
  . exact ⟨Keeping.keeps hinv (hupdate w'.st.nextId), trivial⟩

theorem safe_openRow {row : OpenRequest} (hactive : Active host row.key) :
    (discipline host).Safe i (openRow pid row) w (fun _ _ => True) (fun _ _ => False) := by
  apply Discipline.safe_await
  intro w' x _ hinv hready _
  refine ⟨Keeping.keeps hinv ?_, trivial⟩
  dsimp only
  by_cases hsaved : x = .fault ∨ w'.st.knows row.key = true
  . have hif : (decide (x = .fault) || w'.st.knows row.key) = true := by simpa using hsaved
    rw [if_pos hif]
    refine Keeping.of_same ?_ rfl rfl rfl
    change noteDeliveries (.turn i ⟨pid, .openRow row.key row.payload⟩ x) _ w'.st _ = _
    rcases hsaved with rfl | hknown
    . rfl
    . cases x <;> simp [noteDeliveries, hknown]
  . rw [not_or, Bool.not_eq_true] at hsaved
    have hok : w'.st.alive pid = true ∧ x = .ok := by
      simpa [hsaved.1] using hready
    rcases hok with ⟨-, rfl⟩
    rw [if_neg (by simp [hsaved.2])]
    refine ⟨?_, ?_, ?_⟩
    . intro key h
      simpa [Settled, System.after, deliverySystem, noteDeliveries, hsaved.2] using h
    . intro o ho
      have hmem : o ∈ w'.hist.opened ++ [⟨row.key, row.payload⟩] := by
        simpa [System.after, deliverySystem, noteDeliveries, hsaved.2] using ho
      rcases List.mem_append.mp hmem with hold | hnew
      . exact .inl hold
      . rw [List.mem_singleton] at hnew
        subst hnew
        exact .inr ⟨⟨_, List.mem_append_right _ List.mem_cons_self, rfl, rfl, rfl⟩, hactive⟩
    . rintro o _ ⟨stored, hmem, hstored⟩
      exact .inr ⟨stored, List.mem_append_left _ hmem, hstored⟩

end Turns

section Programs

variable {host : Host} {i pid : Nat} {w : DeliveryWorld}

/-- Shedding inline media leaves the identity fields. -/
theorem safe_preflight (webhook : Webhook) (attempt : Attempt) (idempotencyKey : Text)
    (ctx : DispatchEventContext) :
    (discipline host).Safe i (preflightDelivery host pid webhook attempt idempotencyKey ctx) w
      (fun r w =>
        match r with
        | .cancelled => Settled w ⟨webhook.id, idempotencyKey⟩
        | .go p => p.finalPayload.idempotencyKey = idempotencyKey
        | .bailed => True)
      (fun _ _ => False) := by
  have hbail (error : Text) (w : DeliveryWorld) : (discipline host).Safe i (do
      recordUndelivered host pid webhook attempt.deliveryId idempotencyKey error ctx
      return PreflightResult.bailed) w
      (fun r w =>
        match r with
        | .cancelled => Settled w ⟨webhook.id, idempotencyKey⟩
        | .go p => p.finalPayload.idempotencyKey = idempotencyKey
        | .bailed => True)
      (fun _ _ => False) :=
    Discipline.Safe.seq (safe_recordUndelivered _ _ _ _ _) fun _ _ _ => trivial
  unfold preflightDelivery
  apply Discipline.Safe.bind
  apply Discipline.safe_await
  intro w' x _ hinv hready _
  have hbefore : x.before? = true := by
    rw [Bool.and_eq_true] at hready
    exact hready.2
  cases x with
  | chain shouldContinue result =>
    cases shouldContinue with
    | true =>
      refine ⟨Keeping.keeps hinv (Keeping.of_same rfl rfl rfl rfl), ?_⟩
      simp only [Task.ofExcept_ok, Discipline.safe_pure]
      split
      . exact hbail _ _
      . next finalPayload body hsize => exact checkSize_identity hsize
    | false =>
      refine ⟨Keeping.keeps hinv (Keeping.of_outbox rfl ?_ rfl), ?_⟩
      . rintro key (h | h | h)
        . exact .inl h
        . exact .inr (.inl (List.mem_append_left _ h))
        . exact .inr (.inr h)
      . exact .inr (.inl (List.mem_append_right _ List.mem_cons_self))
  | threw error =>
    exact ⟨Keeping.keeps hinv (Keeping.of_same rfl rfl rfl rfl), hbail _ _⟩
  | _ => contradiction

theorem safe_post {req : PostRequest} {α : Type} {k : Option Text → DeliveryTask α}
    {Q : α → DeliveryWorld → Prop} {E : DeliveryError → DeliveryWorld → Prop}
    (hanswered : ∀ w', Settled w' req.key → (discipline host).Safe i (k none) w' Q E)
    (hfailed : ∀ error w', (discipline host).Safe i (k (some error)) w' Q E) :
    (discipline host).Safe i (postWebhookPayload pid req) w
      (fun r w => (discipline host).Safe i (k r) w Q E) E := by
  apply Discipline.safe_await
  intro w' x _ hinv hready _
  have hpost : x.post? = true := by
    rw [Bool.and_eq_true] at hready
    exact hready.2
  cases x with
  | answered =>
    refine ⟨Keeping.keeps hinv (Keeping.of_outbox rfl ?_ rfl), ?_⟩
    . rintro key (h | h)
      . exact .inl (List.mem_append_left _ h)
      . exact .inr h
    . exact hanswered _ (.inl (List.mem_append_right _ List.mem_cons_self))
  | postFailed error =>
    exact ⟨Keeping.keeps hinv (Keeping.of_same rfl rfl rfl rfl), hfailed error _⟩
  | _ => contradiction

/-- The bookkeeping after an answer neither throws nor undoes it. -/
theorem safe_bookkeeping {key : DeliveryKey} (h : Settled w key) :
    (discipline host).Safe i (Task.catch' (read pid .lastTriggered fun _ => ()) fun _ => pure ()) w
      (fun _ w => Settled w key) (fun _ _ => True) := by
  apply Discipline.Safe.catch'
  exact (Discipline.Safe.frame (stable_settled key) h (safe_read rfl)).mono (fun _ _ h => h.2)
    fun _ _ h => h.2

theorem safe_deliverWebhook (webhook : Webhook) (payload : WebhookPayload)
    (headers : List (Text × Text)) (body : Text) (left attempt : Nat) :
    (discipline host).Safe i (deliverWebhook host pid webhook payload headers body left attempt) w
      (fun _ w => Settled w ⟨webhook.id, payload.idempotencyKey⟩) (fun _ _ => True) := by
  induction left generalizing headers attempt w with
  | zero =>
    unfold deliverWebhook
    apply Discipline.Safe.bind
    apply safe_post
    . intro w' hsettled
      exact safe_bookkeeping hsettled
    . intro error w'
      apply Discipline.Safe.seq ((safe_recordFailure _).mono (fun _ _ h => h) fun _ _ _ => trivial)
      intro _ _ _
      trivial
  | succ left ih =>
    unfold deliverWebhook
    apply Discipline.Safe.bind
    apply safe_post
    . intro w' hsettled
      exact safe_bookkeeping hsettled
    . intro error w'
      have hbackoff : (discipline host).Safe i (write pid .backoff fun s => (s, ())) w'
          (fun _ _ => True) (fun _ _ => False) := safe_write rfl fun _ => ⟨rfl, rfl, rfl⟩
      exact Discipline.Safe.seq (hbackoff.mono (fun _ _ h => h) fun _ _ _ => trivial)
        fun _ _ _ => ih _ _

/-- What a delivery outcome that is not a failure stands for. -/
def Handed (key : DeliveryKey) (outcome : WebhookDeliveryOutcome) (w : DeliveryWorld) : Prop :=
  outcome ≠ .failed → Settled w key

theorem handed_of_settled {key : DeliveryKey} {outcome : WebhookDeliveryOutcome} (h : Settled w key) :
    Handed key outcome w := fun _ => h

theorem handed_failed (key : DeliveryKey) : Handed key .failed w := fun h => absurd rfl h

theorem safe_direct {webhook : Webhook} {p : Preflight} {idempotencyKey : Text}
    (hkey : p.finalPayload.idempotencyKey = idempotencyKey) (headers : List (Text × Text)) :
    (discipline host).Safe i (Task.catch' (do
        deliverDirectly host pid webhook p headers
        executeHook pid
        executeHook pid
        return WebhookDeliveryOutcome.delivered) fun _ => do
      executeHook pid
      return WebhookDeliveryOutcome.failed) w
      (Handed ⟨webhook.id, idempotencyKey⟩) (fun _ _ => False) := by
  subst hkey
  have hhook (w : DeliveryWorld) (h : Settled w ⟨webhook.id, p.finalPayload.idempotencyKey⟩) :
      (discipline host).Safe i (executeHook pid) w
        (fun _ w => Settled w ⟨webhook.id, p.finalPayload.idempotencyKey⟩) (fun _ _ => True) :=
    (safe_executeHook_frame (stable_settled _) h).mono (fun _ _ h => h) fun _ _ _ => trivial
  have hbody : (discipline host).Safe i (do
      deliverDirectly host pid webhook p headers
      executeHook pid
      executeHook pid
      return WebhookDeliveryOutcome.delivered) w
      (Handed ⟨webhook.id, p.finalPayload.idempotencyKey⟩) (fun _ _ => True) := by
    apply Discipline.Safe.seq (safe_deliverWebhook webhook p.finalPayload headers p.body _ _)
    intro _ w₁ h₁
    apply Discipline.Safe.seq (hhook w₁ h₁)
    intro _ w₂ h₂
    apply Discipline.Safe.seq (hhook w₂ h₂)
    intro _ w₃ h₃
    exact handed_of_settled h₃
  apply Discipline.Safe.catch'
  apply hbody.mono (fun _ _ h => h)
  intro _ w₁ _
  exact Discipline.Safe.seq safe_executeHook fun _ _ _ => handed_failed _

theorem safe_queueAdd (job : QueuedJob) :
    (discipline host).Safe i (queueAdd pid job) w (fun added w => added = true → Settled w job.key)
      (fun _ _ => False) := by
  have hgrown {w' w'' : DeliveryWorld} (hhist : w''.hist = w'.hist)
      (hst : w''.st = { w'.st with queue := w'.st.queue ++ [job] }) : Keeping host w' w'' := by
    apply Keeping.of_outbox (by rw [hhist]) _ (by rw [hst])
    rintro key (h | h | ⟨job', hmem, hjob⟩ | h)
    . exact .inl (hhist ▸ h)
    . exact .inr (.inl (hhist ▸ h))
    . exact .inr (.inr (.inl ⟨job', by rw [hst]; exact List.mem_append_left _ hmem, hjob⟩))
    . exact .inr (.inr (.inr (by rwa [hst])))
  apply Discipline.safe_await
  intro w' x _ hinv _ _
  split
  . refine ⟨Keeping.keeps hinv (hgrown rfl rfl), fun _ => ?_⟩
    exact .inr (.inr (.inl ⟨job, List.mem_append_right _ List.mem_cons_self, rfl⟩))
  . exact ⟨Keeping.keeps hinv (hgrown rfl rfl), fun h => absurd h Bool.false_ne_true⟩
  . exact ⟨Keeping.keeps hinv (Keeping.of_same rfl rfl rfl rfl), fun h => absurd h Bool.false_ne_true⟩

theorem safe_enqueue {webhook : Webhook} {p : Preflight} {attempt : Attempt} {idempotencyKey : Text}
    {ctx : DispatchEventContext} (hkey : p.finalPayload.idempotencyKey = idempotencyKey) :
    (discipline host).Safe i (enqueueWithFallback host pid webhook p attempt ctx) w
      (Handed ⟨webhook.id, idempotencyKey⟩) (fun _ _ => False) := by
  unfold enqueueWithFallback
  apply Discipline.Safe.seq (safe_queueAdd _)
  intro added w₁ hadded
  cases added with
  | true =>
    have hsettled : Settled w₁ ⟨webhook.id, idempotencyKey⟩ := by
      have h := hadded rfl
      rwa [QueuedJob.key, hkey] at h
    apply Discipline.Safe.seq (safe_executeHook_frame (stable_settled _) hsettled)
    intro _ w₂ h₂
    exact handed_of_settled h₂
  | false =>
    apply Discipline.Safe.seq safe_executeHook
    intro _ w₂ _
    exact safe_direct hkey _

theorem safe_deliverOne (webhook : Webhook) (attempt : Attempt) (idempotencyKey : Text)
    (ctx : DispatchEventContext) :
    (discipline host).Safe i (deliverOne host pid webhook attempt idempotencyKey ctx) w
      (Handed ⟨webhook.id, idempotencyKey⟩) (fun _ _ => False) := by
  unfold deliverOne
  apply Discipline.Safe.seq (safe_preflight webhook attempt idempotencyKey ctx)
  intro r w₁ hr
  cases r with
  | cancelled => exact handed_of_settled hr
  | bailed => exact handed_failed _
  | go p =>
    dsimp only
    split
    . exact safe_enqueue hr
    . exact safe_direct hr _

theorem safe_runLimited (webhook : Webhook) (deliveryId : Nat) (idempotencyKey : Text)
    (ctx : DispatchEventContext) :
    (discipline host).Safe i (runLimited host pid webhook deliveryId idempotencyKey ctx) w
      (fun _ _ => True) (fun _ _ => False) := by
  have hadmission : (discipline host).Safe i (admission pid) w (fun _ _ => True) (fun _ _ => False) := by
    apply safe_quiet rfl (fun _ _ => ⟨rfl, rfl, rfl⟩)
    . intros
      trivial
    . intro _ _ _ h
      contradiction
  unfold runLimited
  apply Discipline.Safe.seq hadmission
  rintro ⟨admitted, now⟩ w₁ -
  cases admitted with
  | slot =>
    apply Discipline.Safe.seq (safe_deliverOne webhook ⟨deliveryId, now⟩ idempotencyKey ctx)
    intro outcome w₂ houtcome
    apply safe_close
    intro w' x hgrows hok
    left
    by_cases hfailed : outcome = .failed
    . -- the row of a failed delivery is retired as if it were settled
      subst hfailed
      exact hok _ rfl
    . exact hgrows _ (houtcome hfailed)
  | queueFull => exact safe_recordUndelivered _ _ _ _ _
  | closed => exact safe_recordUndelivered _ _ _ _ _

theorem safe_dispatch {webhook : Webhook} (deliveryId : Nat) (baseIdempotencyKey : Text)
    (ctx : DispatchEventContext) (hactive : ∀ key, Active host ⟨webhook.id, key⟩) :
    (discipline host).Safe i (dispatchWithLimit host pid webhook deliveryId baseIdempotencyKey ctx) w
      (fun _ _ => True) (fun _ _ => False) := by
  have hsettle (w : DeliveryWorld) (idempotencyKey : Text) :
      (discipline host).Safe i (write pid .settle fun s =>
        ({ s with locallyPending := s.locallyPending.erase (pid, idempotencyKey) }, ())) w
        (fun _ _ => True) (fun _ _ => False) := safe_write rfl fun _ => ⟨rfl, rfl, rfl⟩
  unfold dispatchWithLimit
  apply Discipline.Safe.seq (safe_openRow (hactive _))
  intro _ w₁ _
  apply Discipline.Safe.andFinally
  apply (safe_runLimited webhook deliveryId _ ctx).mono
  . intro _ w₂ _
    exact hsettle w₂ _
  . intro _ _ h
    contradiction

section Reconciler

variable (opts : WebhookReconcilerOptions)

theorem safe_replayRow (webhook : Webhook) (row : ReplayableDelivery)
    (hid : webhook.id = row.key.webhookId) :
    (discipline host).Safe i (replayRow host pid webhook row) w (fun _ _ => True) (fun _ _ => False) := by
  unfold replayRow
  apply Discipline.Safe.seq (safe_countAttempt row)
  intro counted w₁ _
  cases counted with
  | none => trivial
  | some attempt =>
    apply Discipline.Safe.catch'
    apply Discipline.Safe.seq ((safe_deliverOne webhook attempt row.key.idempotencyKey _).mono
      (fun _ _ h => h) fun _ _ h => h.elim)
    intro outcome w₂ houtcome
    split
    . trivial
    . next hfailed =>
      apply (safe_close _).mono (fun _ _ h => h) fun _ _ h => h.elim
      intro w' x hgrows _
      have hkey : (⟨webhook.id, row.key.idempotencyKey⟩ : DeliveryKey) = row.key := by rw [hid]
      exact .inl (hgrows _ (hkey ▸ houtcome hfailed))

theorem safe_reconcileRow (row : ReplayableDelivery) :
    (discipline host).Safe i (reconcileRow host pid opts row) w (fun _ _ => True) (fun _ _ => True) := by
  have hread (w : DeliveryWorld) : (discipline host).Safe i (read pid .findWebhook fun _ =>
      host.findWebhook row.key.webhookId) w (fun r _ => r = host.findWebhook row.key.webhookId)
      (fun _ _ => True) := by
    apply safe_quiet rfl (fun _ _ => ⟨rfl, rfl, rfl⟩)
    . intro x s r h
      split at h
      . contradiction
      . exact (Except.ok.inj h).symm
    . intros
      trivial
  have hunsubscribed (w : DeliveryWorld) (h : ¬Active host row.key) :
      (discipline host).Safe i (close pid row.key .failed .unsubscribed) w (fun _ _ => True)
        (fun _ _ => True) :=
    (safe_close fun _ _ _ _ => .inr h).mono (fun _ _ h => h) fun _ _ _ => trivial
  unfold reconcileRow
  split
  . -- the budget is spent
    apply (safe_close _).mono (fun _ _ h => h) fun _ _ _ => trivial
    intro w' x _ hok
    exact .inl (hok _ rfl)
  . apply Discipline.Safe.seq (hread w)
    intro found w₁ hfound
    cases found with
    | none =>
      apply hunsubscribed
      simp [Active, ← hfound]
    | some webhook =>
      dsimp only
      split
      . have hid : webhook.id = row.key.webhookId := by
          simpa using List.find?_some hfound.symm
        exact (safe_replayRow webhook row hid).mono (fun _ _ h => h) fun _ _ _ => trivial
      . next hinactive =>
        apply hunsubscribed
        simpa [Active, ← hfound] using hinactive

theorem safe_sweepRows (rows : List ReplayableDelivery) :
    (discipline host).Safe i (sweepRows host pid opts rows) w (fun _ _ => True) (fun _ _ => True) := by
  induction rows generalizing w with
  | nil => trivial
  | cons row rows ih =>
    have hlocal : (discipline host).Safe i (write pid .isLocallyPending fun s =>
        (s, s.isLocallyPending pid row.key.idempotencyKey)) w (fun _ _ => True) (fun _ _ => True) :=
      (safe_write rfl fun _ => ⟨rfl, rfl, rfl⟩).mono (fun _ _ h => h) fun _ _ _ => trivial
    unfold sweepRows
    apply Discipline.Safe.seq hlocal
    intro isLocal w₁ _
    split
    . exact ih
    . exact Discipline.Safe.seq (safe_reconcileRow opts row) fun _ _ _ => ih

theorem safe_sweep (now : Nat) :
    (discipline host).Safe i (sweep host pid opts now) w (fun _ _ => True) (fun _ _ => True) := by
  have hend (w : DeliveryWorld) : (discipline host).Safe i (write pid .sweepEnd fun s =>
      (s.setSweeping pid false, ())) w (fun _ _ => True) (fun _ _ => True) :=
    (safe_write rfl fun _ => ⟨rfl, rfl, rfl⟩).mono (fun _ _ h => h) fun _ _ _ => trivial
  have hbody : (discipline host).Safe i (do
      let rows ← read pid .findStale (findStale (now - opts.graceMs) opts.batchSize)
      sweepRows host pid opts rows) w (fun _ _ => True) (fun _ _ => True) :=
    Discipline.Safe.seq (safe_read rfl) fun rows _ _ => safe_sweepRows opts rows
  apply Discipline.Safe.andFinally
  exact hbody.mono (fun _ w _ => hend w) fun _ w _ => hend w

end Reconciler

end Programs

section Runs

variable {host : Host}

theorem sound : (discipline host).Sound := by
  intro w v s t hinv _ hevent
  have hquiet {s : Store} (hqueue : s.queue = w.st.queue) (hfailures : s.failures = w.st.failures)
      (houtbox : s.outbox = w.st.outbox) :
      (discipline host).Keeps w ((deliverySystem host).after w (.event w.started v) s) :=
    Keeping.keeps hinv (Keeping.of_same rfl hqueue hfailures houtbox)
  change v.run host w.st = some (s, t) at hevent
  cases v with
  | dispatch pid webhookId baseIdempotencyKey ctx =>
    simp only [Event.run] at hevent
    split at hevent
    . next webhook hfound =>
      split at hevent
      . simp only [Option.some.injEq, Prod.mk.injEq] at hevent
        rcases hevent with ⟨rfl, rfl⟩
        rw [Option.filter_eq_some_iff] at hfound
        have hid : webhook.id = webhookId := by
          simpa using List.find?_some hfound.1
        have hactive (key : Text) : Active host ⟨webhook.id, key⟩ := by
          simp [Active, hid, hfound.1, hfound.2]
        exact ⟨hquiet rfl rfl rfl, (safe_dispatch _ _ _ hactive).mono (fun _ _ h => h)
          fun _ _ _ => trivial⟩
      . contradiction
    . contradiction
  | sweep pid opts =>
    simp only [Event.run] at hevent
    split at hevent
    . split at hevent <;> simp only [Option.some.injEq, Prod.mk.injEq] at hevent <;>
        rcases hevent with ⟨rfl, rfl⟩
      . exact ⟨hquiet rfl rfl rfl, trivial⟩
      . exact ⟨hquiet rfl rfl rfl, safe_sweep opts _⟩
    . contradiction
  | crash pid =>
    simp only [Event.run, Option.some.injEq, Prod.mk.injEq] at hevent
    rcases hevent with ⟨rfl, rfl⟩
    exact ⟨hquiet rfl rfl rfl, trivial⟩
  | tick ms =>
    simp only [Event.run, Option.some.injEq, Prod.mk.injEq] at hevent
    rcases hevent with ⟨rfl, rfl⟩
    exact ⟨hquiet rfl rfl rfl, trivial⟩

/-- Before a run: any tables, and nothing opened yet. -/
def booted (s : Store) : DeliveryConfig where
  st := s
  hist := ⟨[], [], []⟩
  pool := []

section Samples

def sampleWebhook : Webhook where
  id := ['w']
  url := []
  secret := none
  headers := []
  retryCount := 1
  active := true

def sampleHost : Host where
  webhooks := [sampleWebhook]
  queueEnabled := false
  maxPayloadBytes := 100
  stringify payload := .ok payload.data
  byteLength := List.length
  shedInlineMedia data := data
  hmac _ _ := []
  redactSsrfError error := error

def emptyStore : Store where
  outbox := []
  failures := []
  queue := []
  nextId := 0
  clock := 0
  locallyPending := []
  sweeping := fun _ => false
  crashed := []

def sampleDispatch : Event := .dispatch 0 ['w'] ['k'] ⟨['s'], ['e'], ['d']⟩

/-- How many deliveries a run opened, and whether each of them is owned. -/
def openedOwned (c : DeliveryConfig) : Nat × Bool :=
  (c.hist.opened.length, c.hist.opened.all fun o => Owned c.world o)

end Samples

end Runs

end OpenWA.Webhooks
