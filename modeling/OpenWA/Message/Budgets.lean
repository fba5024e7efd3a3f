import OpenWA.Async.Machine
import OpenWA.Js.Split
import OpenWA.Message.SendPacing

/-!
This module contains the requests of a session that draw on its daily budgets, taken one call at a time, and
when the budgets hold.
-/

namespace OpenWA.Message.Budgets

open Js Async

/-- A session on one UTC day. -/
structure Day where
  sessionId : Text
  warmupSchedule : List Nat
  coldSchedule : List Nat
  ageDays : Int
  dayStart : Nat

def Day.warmAllowance (d : Day) : Nat := allowanceForAge d.warmupSchedule d.ageDays

def Day.coldAllowance (d : Day) : Nat := allowanceForAge d.coldSchedule d.ageDays

/-! ### Counting -/

def cUs : Text := "@c.us".toList

def sWhatsappNet : Text := "@s.whatsapp.net".toList

/-- `DIALECT_PAIR` -/
def dialectPair (chatId : Text) : List Text :=
  [replaceAll sWhatsappNet cUs chatId, replaceAll cUs sWhatsappNet chatId]

def sentToday (d : Day) (messages : List Stored.Message) : List Stored.Message :=
  messages.filter fun m =>
    m.sessionId = d.sessionId && m.direction = .outgoing && m.createdAt.any (d.dayStart ≤ ·)

/-- `NOT EXISTS` twice: no row of the chat is older than today, and none came in before today's first. -/
def startedToday (d : Day) (messages : List Stored.Message) (m : Stored.Message) : Bool :=
  let chat := messages.filter fun row => row.sessionId = d.sessionId && row.chatId ∈ dialectPair m.chatId
  let first := ((sentToday d chat).filterMap (·.createdAt)).min?
  !chat.any (fun p => p.createdAt.any (· < d.dayStart)) &&
    !chat.any fun i => i.direction = .incoming && first.any fun first => i.createdAt.any (· < first)

def countColdReachoutsToday (d : Day) (messages : List Stored.Message) : Nat :=
  (((sentToday d messages).filter (startedToday d messages)).map
    fun m => replaceAll sWhatsappNet cUs m.chatId).dedup.length

/-! ### The requests -/

/-- What a request waits for. -/
inductive Await where
  | dailySession (chatId : Text)
  | dailyCount (chatId : Text)
  | history (chatId : Text)
  | coldSession (chatId : Text)
  | coldCount (chatId : Text)
  | hook (chatId : Text)
  | save (chatId : Text)
  | engine
  | known (contactIds : List Text)
  | addSession (coldCount : Nat)
  | addCount (coldCount : Nat)
  | addEngine (coldCount : Nat)
  | ended
deriving DecidableEq

/-- `since` is how many records there were when the request came. -/
structure Request where
  awaits : Await
  since : Nat
deriving DecidableEq

structure Sends where
  messages : List Stored.Message
  groupReachoutsToday : Nat
  /-- How many rows and charges there have been. -/
  recorded : Nat
  requests : List Request

inductive Event where
  | sendText (chatId : Text)
  | addParticipants (contactIds : List Text)
  /-- A query of the request's gate is answered. -/
  | query (i : Nat)
  /-- The plugins answer with a chat id, or block the send. -/
  | hook (i : Nat) (answer : Option Text)
  | save (i now : Nat)
  | engine (i : Nat)
  /-- The call that the request waits for fails. -/
  | fail (i : Nat)

section Requests

variable (toLowerCase : Text → Text) (d : Day)

/-- The gate goes on as a query is answered. -/
def answered (s : Sends) (awaits : Await) : Option Await :=
  match awaits with
  | .dailySession chatId => some (.dailyCount chatId)
  | .dailyCount chatId =>
    if (sentToday d s.messages).length < d.warmAllowance then
      if chatId.isEmpty || d.coldSchedule.isEmpty then some (.hook chatId) else some (.history chatId)
    else some .ended
  | .history chatId =>
    if (dialectVariants toLowerCase chatId).any (· ∈ chatIdsOf s.messages d.sessionId) then
      some (.hook chatId)
    else some (.coldSession chatId)
  | .coldSession chatId => some (.coldCount chatId)
  | .coldCount chatId =>
    if countColdReachoutsToday d s.messages + s.groupReachoutsToday < d.coldAllowance then
      some (.hook chatId)
    else some .ended
  | .known contactIds =>
    let coldCount := (coldIds toLowerCase s.messages d.sessionId contactIds).length
    if coldCount = 0 then some (.addEngine 0) else some (.addSession coldCount)
  | .addSession coldCount => some (.addCount coldCount)
  | .addCount coldCount =>
    let usedToday := countColdReachoutsToday d s.messages + s.groupReachoutsToday
    if usedToday + coldCount ≤ d.coldAllowance then some (.addEngine coldCount) else some .ended
  | .hook _ | .save _ | .engine | .addEngine _ | .ended => none

def Sends.begin (s : Sends) (awaits : Await) : Sends :=
  { s with requests := s.requests ++ [⟨awaits, s.recorded⟩] }

def Sends.goOn (s : Sends) (i : Nat) (awaits : Await) : Sends :=
  { s with requests := s.requests.modify i fun r => { r with awaits := awaits } }

/-- The columns that the gates read. -/
def outgoing (id now : Nat) (chatId : Text) : Stored.Message where
  id := id
  sessionId := d.sessionId
  waMessageId := none
  chatId := chatId
  chatName := none
  author := none
  «from» := "me".toList
  «to» := chatId
  body := none
  type := "text".toList
  direction := .outgoing
  timestamp := none
  status := .pending
  metadata := none
  createdAt := some now

def saveOutgoingMessage (s : Sends) (now : Nat) (chatId : Text) : Sends :=
  { s with
    messages := s.messages ++ [outgoing d s.messages.length now chatId]
    recorded := s.recorded + 1 }

def chargeGroupReachouts (s : Sends) (coldCount : Nat) : Sends :=
  if coldCount = 0 then s
  else
    { s with
      groupReachoutsToday := s.groupReachoutsToday + coldCount
      recorded := s.recorded + 1 }

def Sends.awaits (s : Sends) (i : Nat) : Await :=
  match s.requests[i]? with
  | some r => r.awaits
  | none => .ended

def step (s : Sends) (e : Event) : Option Sends :=
  match e with
  | .sendText chatId => if chatId.isEmpty then none else some (s.begin (.dailySession chatId))
  | .addParticipants contactIds =>
    some (s.begin (if d.coldSchedule.isEmpty || contactIds.isEmpty then .addEngine 0 else .known contactIds))
  | .query i => (answered toLowerCase d s (s.awaits i)).map (s.goOn i)
  | .hook i answer =>
    match s.awaits i with
    | .hook _ =>
      match answer with
      | some chatId => some (s.goOn i (.save chatId))
      | none => some (s.goOn i .ended)
    | _ => none
  | .save i now =>
    match s.awaits i with
    | .save chatId =>
      if d.dayStart ≤ now then some ((saveOutgoingMessage d s now chatId).goOn i .engine) else none
    | _ => none
  | .engine i =>
    match s.awaits i with
    | .engine => some (s.goOn i .ended)
    | .addEngine coldCount => some ((chargeGroupReachouts s coldCount).goOn i .ended)
    | _ => none
  | .fail i => if s.awaits i = .ended then none else some (s.goOn i .ended)

def machine : Machine Sends Event where
  step := step toLowerCase d

def Sends.init : Sends := ⟨[], 0, 0, []⟩

/-! ### The budgets -/

/-- Two spellings that the gates take for one. -/
def SameContact (chatId chatId' : Text) : Prop :=
  replaceAll sWhatsappNet cUs chatId = replaceAll sWhatsappNet cUs chatId' ∨
    chatId' ∈ dialectVariants toLowerCase chatId

instance (chatId chatId' : Text) : Decidable (SameContact toLowerCase chatId chatId') :=
  inferInstanceAs (Decidable (_ ∨ _))

/-- No two spellings of a contact are taken for different ones. -/
def Contact : Type := Quot (SameContact toLowerCase)

def contactOf (chatId : Text) : Contact toLowerCase := Quot.mk _ chatId

open scoped Classical in
noncomputable def reached (messages : List Stored.Message) : Finset (Contact toLowerCase) :=
  (messages.map fun m => contactOf toLowerCase m.chatId).toFinset

/-- The rows of today and the contacts they reached or that were charged for keep to what is allowed. -/
structure WithinBudgets (s : Sends) : Prop where
  warm : (sentToday d s.messages).length ≤ d.warmAllowance
  cold : d.coldSchedule ≠ [] →
    (reached toLowerCase s.messages).card + s.groupReachoutsToday ≤ d.coldAllowance

/-- Nothing was recorded since the request came. -/
def Sends.Fresh (s : Sends) (i : Nat) : Prop := ∀ r ∈ s.requests[i]?, r.since = s.recorded

/-- What a request records it records before any other that came or went on meanwhile, and the plugins
leave the contact as it is. -/
def Undisturbed (s : Sends) (e : Event) : Prop :=
  match e with
  | .hook i (some chatId) =>
    match s.awaits i with
    | .hook chatId' => SameContact toLowerCase chatId' chatId
    | _ => True
  | .save i _ => s.Fresh i
  | .engine i =>
    match s.awaits i with
    | .addEngine coldCount => coldCount = 0 ∨ s.Fresh i
    | _ => True
  | _ => True

instance (s : Sends) (e : Event) : Decidable (Undisturbed toLowerCase s e) := by
  unfold Undisturbed Sends.Fresh
  split <;> (try split) <;> infer_instance

end Requests

section Budgets

variable {toLowerCase : Text → Text} {d : Day} {s s' : Sends} {messages : List Stored.Message}
  {chatId chatId' : Text} {awaits awaits' : Await} {i : Nat} {e : Event}

/-! ### What the gates count -/

/-- All rows are sends of the session of this day. -/
def AllToday (d : Day) (messages : List Stored.Message) : Prop :=
  ∀ m ∈ messages, m.sessionId = d.sessionId ∧ m.direction = .outgoing ∧
    ∃ now, m.createdAt = some now ∧ d.dayStart ≤ now

theorem AllToday.sentToday_eq (h : AllToday d messages) : sentToday d messages = messages := by
  rw [sentToday, List.filter_eq_self]
  intro m hm
  rcases h m hm with ⟨hsession, hdirection, now, hnow, hle⟩
  simp [hsession, hdirection, hnow, hle]

theorem AllToday.startedToday_eq (h : AllToday d messages) (m : Stored.Message) :
    startedToday d messages m = true := by
  simp only [startedToday, Bool.and_eq_true, Bool.not_eq_true', List.any_eq_false]
  constructor
  . intro row hrow
    rcases h row (List.mem_filter.mp hrow).1 with ⟨_, _, now, hnow, hle⟩
    simpa [hnow] using hle
  . intro row hrow
    rcases h row (List.mem_filter.mp hrow).1 with ⟨_, hdirection, _⟩
    simp [hdirection]

theorem AllToday.count_eq (h : AllToday d messages) : countColdReachoutsToday d messages =
    (messages.map fun m => replaceAll sWhatsappNet cUs m.chatId).toFinset.card := by
  rw [countColdReachoutsToday, h.sentToday_eq, List.filter_eq_self.mpr fun m _ => h.startedToday_eq m,
    List.card_toFinset]

theorem contactOf_eq (h : SameContact toLowerCase chatId chatId') :
    contactOf toLowerCase chatId = contactOf toLowerCase chatId' := Quot.sound h

theorem mem_reached {c : Contact toLowerCase} :
    c ∈ reached toLowerCase messages ↔ ∃ m ∈ messages, contactOf toLowerCase m.chatId = c := by
  classical simp [reached]

/-- The contacts are no more than the service counts. -/
theorem AllToday.reached_le (h : AllToday d messages) :
    (reached toLowerCase messages).card ≤ countColdReachoutsToday d messages := by
  classical
  rw [h.count_eq]
  -- a contact is sent to the normal form of one of its spellings
  have hspelled : ∀ c ∈ reached toLowerCase messages, ∃ chatId : Text,
      (∃ m ∈ messages, m.chatId = chatId) ∧ contactOf toLowerCase chatId = c := by
    intro c hc
    rcases mem_reached.mp hc with ⟨m, hm, heq⟩
    exact ⟨m.chatId, ⟨m, hm, rfl⟩, heq⟩
  choose! spelling hspelling using hspelled
  apply Finset.card_le_card_of_injOn fun c => replaceAll sWhatsappNet cUs (spelling c)
  . intro c hc
    rcases (hspelling c hc).1 with ⟨m, hm, heq⟩
    rw [Finset.mem_coe, List.mem_toFinset, List.mem_map]
    exact ⟨m, hm, by rw [heq]⟩
  . intro c hc c' hc' heq
    rw [← (hspelling c hc).2, ← (hspelling c' hc').2]
    exact contactOf_eq (.inl heq)

theorem reached_append (m : Stored.Message) : (reached toLowerCase (messages ++ [m])).card ≤
    (reached toLowerCase messages).card + 1 := by
  classical
  have hinsert : reached toLowerCase (messages ++ [m]) =
      insert (contactOf toLowerCase m.chatId) (reached toLowerCase messages) := by
    ext c
    simp [mem_reached, or_and_right, exists_or, eq_comm, or_comm]
  rw [hinsert]
  exact Finset.card_insert_le _ _

theorem reached_append_of_mem {m : Stored.Message}
    (h : contactOf toLowerCase m.chatId ∈ reached toLowerCase messages) :
    reached toLowerCase (messages ++ [m]) = reached toLowerCase messages := by
  ext c
  rw [mem_reached, mem_reached]
  constructor
  . rintro ⟨row, hrow, rfl⟩
    rcases List.mem_append.mp hrow with hrow | hrow
    . exact ⟨row, hrow, rfl⟩
    . rw [List.mem_singleton.mp hrow]
      exact mem_reached.mp h
  . rintro ⟨row, hrow, rfl⟩
    exact ⟨row, List.mem_append_left _ hrow, rfl⟩

/-! ### What a request knows -/

/-- What the gate has found so far holds as long as nothing else is recorded. -/
def Knows (toLowerCase : Text → Text) (d : Day) (s : Sends) (awaits : Await) : Prop :=
  match awaits with
  | .dailySession chatId | .dailyCount chatId => chatId ≠ []
  | .history _ | .coldSession _ | .coldCount _ => (sentToday d s.messages).length < d.warmAllowance
  | .hook chatId | .save chatId =>
    (sentToday d s.messages).length < d.warmAllowance ∧
      (d.coldSchedule ≠ [] → contactOf toLowerCase chatId ∈ reached toLowerCase s.messages ∨
        (reached toLowerCase s.messages).card + s.groupReachoutsToday < d.coldAllowance)
  | .addEngine coldCount => coldCount = 0 ∨
    (reached toLowerCase s.messages).card + s.groupReachoutsToday + coldCount ≤ d.coldAllowance
  | .engine | .known _ | .addSession _ | .addCount _ | .ended => True

structure Inv (toLowerCase : Text → Text) (d : Day) (s : Sends) : Prop where
  today : AllToday d s.messages
  within : WithinBudgets toLowerCase d s
  since : ∀ r ∈ s.requests, r.since ≤ s.recorded
  knows : ∀ r ∈ s.requests, r.since = s.recorded → Knows toLowerCase d s r.awaits

theorem Inv.answered (hs : Inv toLowerCase d s) (hknows : Knows toLowerCase d s awaits)
    (h : answered toLowerCase d s awaits = some awaits') : Knows toLowerCase d s awaits' := by
  have hle : (reached toLowerCase s.messages).card ≤ countColdReachoutsToday d s.messages := hs.today.reached_le
  cases awaits with
  | dailySession chatId =>
    obtain rfl := Option.some.inj h
    exact hknows
  | dailyCount chatId =>
    simp only [Budgets.answered] at h
    split at h
    . next hwarm =>
      split at h
      . next hno =>
        obtain rfl := Option.some.inj h
        -- a send is not asked about contacts only where they are not limited
        have hempty : d.coldSchedule = [] := by
          simpa [List.isEmpty_eq_false_iff.mpr hknows] using hno
        exact ⟨hwarm, fun hne => absurd hempty hne⟩
      . obtain rfl := Option.some.inj h
        exact hwarm
    . obtain rfl := Option.some.inj h
      trivial
  | history chatId =>
    simp only [Budgets.answered] at h
    split at h
    . next hhistory =>
      obtain rfl := Option.some.inj h
      rcases List.any_eq_true.mp hhistory with ⟨variant, hvariant, hrow⟩
      refine ⟨hknows, fun _ => .inl ?_⟩
      rcases List.mem_map.mp (of_decide_eq_true hrow) with ⟨m, hm, rfl⟩
      exact mem_reached.mpr ⟨m, (List.mem_filter.mp hm).1, (contactOf_eq (.inr hvariant)).symm⟩
    . obtain rfl := Option.some.inj h
      exact hknows
  | coldSession chatId =>
    obtain rfl := Option.some.inj h
    exact hknows
  | coldCount chatId =>
    simp only [Budgets.answered] at h
    split at h
    . next hcold =>
      obtain rfl := Option.some.inj h
      exact ⟨hknows, fun _ => .inr (by omega)⟩
    . obtain rfl := Option.some.inj h
      trivial
  | known contactIds =>
    simp only [Budgets.answered] at h
    split at h
    . obtain rfl := Option.some.inj h
      exact .inl rfl
    . obtain rfl := Option.some.inj h
      trivial
  | addSession coldCount =>
    obtain rfl := Option.some.inj h
    trivial
  | addCount coldCount =>
    simp only [Budgets.answered] at h
    split at h
    . obtain rfl := Option.some.inj h
      exact .inr (by omega)
    . obtain rfl := Option.some.inj h
      trivial
  | hook | save | engine | addEngine | ended => contradiction

theorem mem_modify {l : List Request} {f : Request → Request} {r : Request} (h : r ∈ l.modify i f) :
    r ∈ l ∨ ∃ r', l[i]? = some r' ∧ r = f r' := by
  rcases List.mem_iff_getElem?.mp h with ⟨j, hj⟩
  rw [List.getElem?_modify] at hj
  rcases Option.map_eq_some_iff.mp hj with ⟨r', hr', heq⟩
  split at heq
  . next hij => exact .inr ⟨r', hij ▸ hr', heq.symm⟩
  . exact .inl (heq ▸ List.mem_of_getElem? hr')

theorem Inv.goOn (hs : Inv toLowerCase d s)
    (hknows : ∀ r, s.requests[i]? = some r → r.since = s.recorded → Knows toLowerCase d s awaits) :
    Inv toLowerCase d (s.goOn i awaits) where
  today := hs.today
  within := ⟨hs.within.warm, hs.within.cold⟩
  since r hr := by
    rcases mem_modify hr with hr | ⟨r', hr', rfl⟩
    . exact hs.since r hr
    . exact hs.since r' (List.mem_of_getElem? hr')
  knows r hr hfresh := by
    rcases mem_modify hr with hr | ⟨r', hr', rfl⟩
    . exact hs.knows r hr hfresh
    . exact hknows r' hr' hfresh

theorem Inv.begin (hs : Inv toLowerCase d s) (hknows : Knows toLowerCase d s awaits) :
    Inv toLowerCase d (s.begin awaits) where
  today := hs.today
  within := ⟨hs.within.warm, hs.within.cold⟩
  since r hr := by
    rcases List.mem_append.mp hr with hr | hr
    . exact hs.since r hr
    . rw [List.mem_singleton.mp hr]
      exact Nat.le_refl _
  knows r hr hfresh := by
    rcases List.mem_append.mp hr with hr | hr
    . exact hs.knows r hr hfresh
    . rw [List.mem_singleton.mp hr]
      exact hknows

/-- With a record all the other requests have old news. -/
theorem Inv.recorded (hs : Inv toLowerCase d s) (hrequests : s'.requests = s.requests)
    (hrecorded : s'.recorded = s.recorded + 1) (htoday : AllToday d s'.messages)
    (hwithin : WithinBudgets toLowerCase d s') : Inv toLowerCase d s' where
  today := htoday
  within := hwithin
  since r hr := by
    have hle := hs.since r (hrequests ▸ hr)
    omega
  knows r hr hfresh := by
    have hle := hs.since r (hrequests ▸ hr)
    omega

theorem awaits_of_get {r : Request} (h : s.requests[i]? = some r) : s.awaits i = r.awaits := by
  rw [Sends.awaits, h]

theorem get_of_awaits (h : s.awaits i ≠ .ended) : ∃ r, s.requests[i]? = some r ∧ r.awaits = s.awaits i := by
  unfold Sends.awaits at h ⊢
  cases hr : s.requests[i]? with
  | none =>
    rw [hr] at h
    contradiction
  | some r => exact ⟨r, rfl, rfl⟩

theorem Inv.knows_at (hs : Inv toLowerCase d s) {r : Request} (hr : s.requests[i]? = some r)
    (hfresh : r.since = s.recorded) : Knows toLowerCase d s (s.awaits i) := by
  rw [awaits_of_get hr]
  exact hs.knows r (List.mem_of_getElem? hr) hfresh

theorem Inv.knows_of_fresh (hs : Inv toLowerCase d s) (hne : s.awaits i ≠ .ended) (hfresh : s.Fresh i) :
    Knows toLowerCase d s (s.awaits i) := by
  rcases get_of_awaits hne with ⟨r, hr, _⟩
  exact hs.knows_at hr (hfresh r hr)

theorem Inv.save {now : Nat} (hs : Inv toLowerCase d s) (hknows : Knows toLowerCase d s (.save chatId))
    (hnow : d.dayStart ≤ now) : Inv toLowerCase d (saveOutgoingMessage d s now chatId) := by
  have htoday : AllToday d (saveOutgoingMessage d s now chatId).messages := by
    intro m hm
    rcases List.mem_append.mp hm with hm | hm
    . exact hs.today m hm
    . rw [List.mem_singleton.mp hm]
      exact ⟨rfl, rfl, now, rfl, hnow⟩
  refine hs.recorded rfl rfl htoday ⟨?_, fun hne => ?_⟩
  . have hwarm := hknows.1
    rw [hs.today.sentToday_eq] at hwarm
    rw [htoday.sentToday_eq]
    simp only [saveOutgoingMessage, List.length_append, List.length_singleton]
    omega
  . have hcold := hs.within.cold hne
    simp only [saveOutgoingMessage]
    rcases hknows.2 hne with hmem | hroom
    . rw [reached_append_of_mem hmem]
      exact hcold
    . have happend : (reached toLowerCase (s.messages ++ [outgoing d s.messages.length now chatId])).card ≤
          (reached toLowerCase s.messages).card + 1 := reached_append _
      omega

theorem Inv.charge {coldCount : Nat} (hs : Inv toLowerCase d s)
    (hknows : coldCount = 0 ∨ Knows toLowerCase d s (.addEngine coldCount)) :
    Inv toLowerCase d (chargeGroupReachouts s coldCount) := by
  unfold chargeGroupReachouts
  split
  . exact hs
  . next hne =>
    refine hs.recorded rfl rfl hs.today ⟨hs.within.warm, fun _ => ?_⟩
    have hroom := (hknows.resolve_left hne).resolve_left hne
    dsimp only
    omega

theorem Inv.step (hs : Inv toLowerCase d s) (hok : Undisturbed toLowerCase s e)
    (h : step toLowerCase d s e = some s') : Inv toLowerCase d s' := by
  cases e with
  | sendText chatId =>
    simp only [Budgets.step] at h
    split at h
    . contradiction
    . next hne =>
      obtain rfl := Option.some.inj h
      exact hs.begin (fun hnil => hne (by rw [hnil]; rfl))
  | addParticipants contactIds =>
    obtain rfl := Option.some.inj h
    apply hs.begin
    split
    . exact .inl rfl
    . trivial
  | query i =>
    rcases Option.map_eq_some_iff.mp h with ⟨awaits', hanswered, rfl⟩
    exact hs.goOn fun r hr hfresh => hs.answered (hs.knows_at hr hfresh) hanswered
  | hook i answer =>
    simp only [Budgets.step] at h
    split at h
    . next chatId hawaits =>
      cases answer with
      | none =>
        obtain rfl := Option.some.inj h
        exact hs.goOn fun _ _ _ => trivial
      | some chatId' =>
        obtain rfl := Option.some.inj h
        apply hs.goOn
        intro r hr hfresh
        have hknows := hs.knows_at hr hfresh
        simp only [Undisturbed, hawaits] at hok
        rw [hawaits] at hknows
        refine ⟨hknows.1, fun hne => ?_⟩
        rw [← contactOf_eq hok]
        exact hknows.2 hne
    . contradiction
  | save i now =>
    simp only [Budgets.step] at h
    split at h
    . next chatId hawaits =>
      split at h
      . next hnow =>
        obtain rfl := Option.some.inj h
        have hknows := hs.knows_of_fresh (by rw [hawaits]; exact nofun) hok
        rw [hawaits] at hknows
        exact (hs.save hknows hnow).goOn fun _ _ _ => trivial
      . contradiction
    . contradiction
  | engine i =>
    simp only [Budgets.step] at h
    split at h
    . obtain rfl := Option.some.inj h
      exact hs.goOn fun _ _ _ => trivial
    . next coldCount hawaits =>
      obtain rfl := Option.some.inj h
      simp only [Undisturbed, hawaits] at hok
      refine (hs.charge (hok.imp_right fun hfresh => ?_)).goOn fun _ _ _ => trivial
      have hknows := hs.knows_of_fresh (by rw [hawaits]; exact nofun) hfresh
      rwa [hawaits] at hknows
    . contradiction
  | fail i =>
    simp only [Budgets.step] at h
    split at h
    . contradiction
    . obtain rfl := Option.some.inj h
      exact hs.goOn fun _ _ _ => trivial

theorem inv_init : Inv toLowerCase d .init where
  today := by simp [AllToday, Sends.init]
  within := ⟨by simp [Sends.init, sentToday], by simp [Sends.init, reached]⟩
  since := by simp [Sends.init]
  knows := by simp [Sends.init]

/-- In a run in which no request records on the strength of old news the budgets of the day hold throughout. -/
theorem withinBudgets_of_undisturbed (h : (machine toLowerCase d).Reach (Undisturbed toLowerCase) .init s) :
    WithinBudgets toLowerCase d s :=
  (h.invariant (P := Inv toLowerCase d) inv_init fun _ _ _ hs hok hstep => hs.step hok hstep).within

/-- A session on its first day: one message and one new contact are allowed. -/
def firstDay : Day := ⟨"s".toList, [1], [1], 0, 0⟩

def wholeSend (i : Nat) (chatId : Text) : List Event :=
  [.sendText chatId, .query i, .query i, .query i, .query i, .query i, .hook i (some chatId), .save i 7, .engine i]

/-- The second send is refused and the second person is not added. -/
theorem withinBudgets_firstDay : ∃ s, (sentToday firstDay s.messages).length = 1 ∧
    WithinBudgets (·.map Char.toLower) firstDay s := by
  have hrun : ((machine (·.map Char.toLower) firstDay).exec (Undisturbed (·.map Char.toLower)) .init
      (wholeSend 0 "1@c.us".toList ++ [.sendText "2@c.us".toList, .query 1, .query 1])).map
        (fun s => (sentToday firstDay s.messages).length) = some 1 := by decide +kernel
  rcases Machine.reach_of_exec_map hrun with ⟨s, hreach, hone⟩
  exact ⟨s, hone, withinBudgets_of_undisturbed hreach⟩

def queries (i n : Nat) : List Event := List.replicate n (.query i)

/-- Two sends, and two additions to groups, have passed their gates before the first of them is recorded. -/
theorem budgets_overdrawn_at_once :
    (∃ s, (machine (·.map Char.toLower) firstDay).Reach Machine.anyStep .init s ∧
      firstDay.warmAllowance < (sentToday firstDay s.messages).length) ∧
    ∃ s, (machine (·.map Char.toLower) firstDay).Reach Machine.anyStep .init s ∧
      firstDay.coldSchedule ≠ [] ∧ firstDay.coldAllowance < s.groupReachoutsToday := by
  have hsends : ((machine (·.map Char.toLower) firstDay).exec Machine.anyStep .init
      ([.sendText "1@c.us".toList, .sendText "2@c.us".toList] ++ queries 0 5 ++ queries 1 5 ++
        [.hook 0 (some "1@c.us".toList), .save 0 7, .hook 1 (some "2@c.us".toList), .save 1 8])).map
        (fun s => (sentToday firstDay s.messages).length) = some 2 := by decide +kernel
  have hadds : ((machine (·.map Char.toLower) firstDay).exec Machine.anyStep .init
      ([.addParticipants ["1@c.us".toList], .addParticipants ["2@c.us".toList]] ++ queries 0 3 ++
        queries 1 3 ++ [.engine 0, .engine 1])).map (·.groupReachoutsToday) = some 2 := by decide +kernel
  rcases Machine.reach_of_exec_map hsends with ⟨s, hreach, hrows⟩
  rcases Machine.reach_of_exec_map hadds with ⟨s', hreach', hcharged⟩
  refine ⟨⟨s, hreach, ?_⟩, s', hreach', by decide, ?_⟩
  . rw [hrows]
    decide
  . rw [hcharged]
    decide

end Budgets

end OpenWA.Message.Budgets
