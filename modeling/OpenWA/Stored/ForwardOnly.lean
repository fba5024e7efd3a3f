import OpenWA.Async.Outline
import OpenWA.Stored.Writers

/-!
This module contains the delivery state of stored messages: it only moves forward, provided that the
state of a finished send is not saved over a row that has failed meanwhile.
-/

namespace OpenWA.Stored

open Async Js

section Order

def MessageStatus.rank (status : MessageStatus) : Nat :=
  match status with
  | .pending => 0
  | .sent => 1
  | .delivered => 2
  | .read => 3
  | .failed => 4

/-- Up the order of the delivery states; what failed stays failed, and what was delivered cannot fail. -/
def MessageStatus.Forward (a b : MessageStatus) : Prop :=
  match a, b with
  | .failed, b => b = .failed
  | a, .failed => a = .pending ∨ a = .sent
  | a, b => a.rank ≤ b.rank

instance (a b : MessageStatus) : Decidable (a.Forward b) :=
  match a, b with
  | .failed, _ => inferInstanceAs (Decidable (_ = _))
  | .pending, .failed | .sent, .failed | .delivered, .failed | .read, .failed =>
    inferInstanceAs (Decidable (_ ∨ _))
  | .pending, .pending | .pending, .sent | .pending, .delivered | .pending, .read | .sent, .pending
  | .sent, .sent | .sent, .delivered | .sent, .read | .delivered, .pending | .delivered, .sent
  | .delivered, .delivered | .delivered, .read | .read, .pending | .read, .sent | .read, .delivered
  | .read, .read => inferInstanceAs (Decidable (_ ≤ _))

theorem forward_refl (a : MessageStatus) : a.Forward a := by
  cases a <;> decide

theorem forward_trans {a b c : MessageStatus} (h : a.Forward b) (h' : b.Forward c) : a.Forward c := by
  revert h h'
  cases a <;> cases b <;> cases c <;> decide

theorem forward_of_transition {a b : MessageStatus} (h : a ∈ ackStatusTransitionFrom b) : a.Forward b := by
  revert h
  cases a <;> cases b <;> decide

end Order

namespace ForwardOnly

/-- The calls, what the engines report, and what happens to the process. -/
inductive DeliveryEvent where
  | send (sessionId : Text) (req : SendRequest)
  | saveOutgoing (sessionId : Text) (data : SaveOutgoingMessageData)
  | ownSendEcho (id : Text) (engine : Nat) (message : IncomingMessage)
  | ack (id : Text) (engine : Nat) (messageId : Text) (status : DeliveryStatus)
  | history (id : Text) (engine : Nat) (messages : List IncomingMessage)
  | reaperTick
  | retire (id : Text)
  | tick (ms : Nat)
deriving DecidableEq

def DeliveryEvent.run (host : Host) (v : DeliveryEvent) (s : Store) : Store × MessageTask Unit :=
  match v with
  | .send sessionId req => (s, Stored.send host sessionId req)
  | .saveOutgoing sessionId data => (s, (saveOutgoingMessage host sessionId data).bind fun _ => pure ())
  | .ownSendEcho id engine message => (s, handleOwnSendEcho host id engine message s)
  | .ack id engine messageId status => (s, handleMessageAck id engine messageId status s)
  | .history id engine messages => (s, onHistoryMessages host id engine messages s)
  | .reaperTick => onReaperTick host s
  | .retire id => ({ s with engines := fun id' => if id' = id then none else s.engines id' }, pure ())
  | .tick ms => ({ s with clock := s.clock + ms }, pure ())

/-- A row that was saved pending, and the activation whose send it waits for. -/
structure Open where
  tid : Nat
  rowId : Nat
deriving DecidableEq

/-- The history of a run: the open rows. -/
def noteOpen (a : Act DeliveryEvent Answer Place) (s _s' : Store) (opened : List Open) : List Open :=
  match a with
  | .turn tid (.save fields) .ok =>
    if fields.waMessageId = none ∧ fields.status = .pending then opened ++ [⟨tid, s.nextId⟩] else opened
  | .turn tid (.saveSent _) .ok => opened.filter (·.tid ≠ tid)
  | _ => opened

def deliverySystem (host : Host) : System Store Answer Place Failure DeliveryEvent (List Open) where
  event v s := some (v.run host s)
  note := noteOpen

abbrev DeliveryWorld := World Store (List Open)

abbrev DeliveryConfig := Config Store Answer Place Failure (List Open)

/-- The entity with the sent state that a step saves. -/
def savedSent? (a : Act DeliveryEvent Answer Place) : Option Message :=
  match a with
  | .turn _ (.saveSent entity) .ok => some entity
  | _ => none

/--
The condition on the steps of a run: the save of the sent state takes effect only while its row has not
failed, as it has once the reaper took it.
-/
def Unfailed (w : DeliveryWorld) (a : Act DeliveryEvent Answer Place) : Prop :=
  ∀ entity ∈ savedSent? a, w.st.refuses (some entity.id) entity.toMessageFields = false →
    ∀ row ∈ w.st.messages, row.id = entity.id → row.status ≠ .failed

instance (w : DeliveryWorld) (a : Act DeliveryEvent Answer Place) : Decidable (Unfailed w a) :=
  inferInstanceAs (Decidable (∀ _ ∈ savedSent? a, _ → ∀ _ ∈ _, _ → _))

section Changes

/-- The row is pending or was reaped, and no ack can find it. -/
def Waiting (s : Store) (rowId : Nat) : Prop :=
  ∃ row ∈ s.messages, row.id = rowId ∧ row.waMessageId = none ∧
    (row.status = .pending ∨ row.status = .failed)

/-- Every row that is not new was there before, and has moved forward. -/
structure Advances (s s' : Store) : Prop where
  nextId : s.nextId ≤ s'.nextId
  rows : ∀ row' ∈ s'.messages, row'.id < s.nextId →
    ∃ row ∈ s.messages, row.id = row'.id ∧ row.status.Forward row'.status

/-- A change of the table under which the rows of `kept` go on waiting. -/
structure Change (s s' : Store) (kept : Nat → Prop) : Prop where
  wellKept : WellKept s'
  advances : Advances s s'
  waiting : ∀ rowId, kept rowId → Waiting s rowId → Waiting s' rowId

variable {s s' s'' : Store} {kept : Nat → Prop}

theorem Advances.refl (s : Store) : Advances s s where
  nextId := Nat.le_refl _
  rows row hrow _ := ⟨row, hrow, rfl, forward_refl _⟩

theorem Advances.trans (h : Advances s s') (h' : Advances s' s'') : Advances s s'' where
  nextId := Nat.le_trans h.nextId h'.nextId
  rows row'' hrow'' hlt := by
    have hlt' : row''.id < s'.nextId := Nat.lt_of_lt_of_le hlt h.nextId
    rcases h'.rows row'' hrow'' hlt' with ⟨row', hrow', hid', hforward'⟩
    rcases h.rows row' hrow' (hid' ▸ hlt) with ⟨row, hrow, hid, hforward⟩
    exact ⟨row, hrow, hid.trans hid', forward_trans hforward hforward'⟩

theorem Change.trans (h : Change s s' kept) (h' : Change s' s'' kept) : Change s s'' kept where
  wellKept := h'.wellKept
  advances := h.advances.trans h'.advances
  waiting rowId hkept hwaiting := h'.waiting rowId hkept (h.waiting rowId hkept hwaiting)

theorem Change.of_same (hs : WellKept s) (hmessages : s'.messages = s.messages)
    (hnextId : s'.nextId = s.nextId) : Change s s' kept where
  wellKept := hs.congr hmessages hnextId
  advances := ⟨Nat.le_of_eq hnextId.symm, by rw [hmessages]; exact (Advances.refl s).rows⟩
  waiting rowId _ hwaiting := by
    simpa only [Waiting, hmessages] using hwaiting

theorem change_updateRows {p : Message → Bool} {f : Message → Message} (hs : WellKept s)
    (hid : ∀ row, p row = true → (f row).id = row.id)
    (hforward : ∀ row ∈ s.messages, p row = true → row.status.Forward (f row).status)
    (hwaiting : ∀ row ∈ s.messages, p row = true → kept row.id → row.waMessageId = none →
      (row.status = .pending ∨ row.status = .failed) →
      (f row).waMessageId = none ∧ ((f row).status = .pending ∨ (f row).status = .failed)) :
    Change s (s.updateRows p f) kept := by
  have hids (row : Message) : (if p row then f row else row).id = row.id := by
    split
    . next hp => exact hid row hp
    . rfl
  refine ⟨hs.updateRows hid, ⟨Nat.le_refl _, ?_⟩, ?_⟩
  . intro row hrow _
    simp only [Store.updateRows, List.mem_map] at hrow
    rcases hrow with ⟨old, hold, rfl⟩
    refine ⟨old, hold, (hids old).symm, ?_⟩
    split
    . next hp => exact hforward old hold hp
    . exact forward_refl _
  . rintro rowId hkept ⟨row, hrow, rfl, hnone, hstatus⟩
    refine ⟨if p row then f row else row, List.mem_map_of_mem hrow, hids row, ?_⟩
    split
    . next hp => exact hwaiting row hrow hp hkept hnone hstatus
    . exact ⟨hnone, hstatus⟩

theorem change_merge (hs : WellKept s) (sessionId waMessageId : Text) (timestamp : Option Nat)
    (metadata : Option Metadata) :
    Change s (s.updateRows (·.named sessionId waMessageId) (mergePatch timestamp metadata)) kept := by
  apply change_updateRows hs
  . intro row _
    rfl
  . intro row _ _
    exact forward_refl _
  . intro row _ hp _ hnone _
    rw [named_waMessageId hp] at hnone
    contradiction

theorem change_ack (hs : WellKept s) (id messageId : Text) (status : MessageStatus) :
    Change s (s.updateRows (acked id messageId status) fun row => { row with status := status }) kept := by
  apply change_updateRows hs
  . intro row _
    rfl
  . intro row _ hp
    simp only [acked, Bool.and_eq_true, decide_eq_true_eq] at hp
    exact forward_of_transition hp.2
  . intro row _ hp _ hnone _
    simp only [acked, Bool.and_eq_true, decide_eq_true_eq] at hp
    rw [named_waMessageId hp.1] at hnone
    contradiction

theorem change_reap (hs : WellKept s) (rowId : Nat) (metadata : Metadata) :
    Change s (s.updateRows (fun r => r.id = rowId && r.status = .pending) fun r =>
      { r with status := .failed, metadata := some metadata }) kept := by
  apply change_updateRows hs
  . intro row _
    rfl
  . intro row _ hp
    simp only [Bool.and_eq_true, decide_eq_true_eq] at hp
    rw [hp.2]
    exact .inl rfl
  . intro row _ _ _ hnone _
    exact ⟨hnone, .inr rfl⟩

theorem change_insertRow (hs : WellKept s) (fields : MessageFields) :
    Change s (s.insertRow fields).1 kept := by
  by_cases hrefuses : s.refuses none fields = true
  . rw [Store.insertRow, if_pos hrefuses]
    exact Change.of_same hs rfl rfl
  have hinsert := insertRow_of_not_refused (Bool.eq_false_iff.mpr hrefuses)
  refine ⟨hs.insertRow fields, ?_, ?_⟩
  . rw [hinsert]
    refine ⟨Nat.le_succ _, ?_⟩
    intro row hrow hlt
    rcases List.mem_append.mp hrow with hrow | hrow
    . exact (Advances.refl s).rows row hrow hlt
    . rw [List.mem_singleton.mp hrow] at hlt
      exact absurd hlt (Nat.lt_irrefl _)
  . rw [hinsert]
    rintro rowId _ ⟨row, hrow, hrest⟩
    exact ⟨row, List.mem_append_left _ hrow, hrest⟩

theorem change_insertRows (hs : WellKept s) (rows : List MessageFields) :
    Change s (s.insertRows rows) kept := by
  induction rows generalizing s with
  | nil => exact Change.of_same hs rfl rfl
  | cons fields rows ih =>
    have hfirst : Change s (s.insertRow fields).1 kept := change_insertRow hs fields
    exact hfirst.trans (ih hfirst.wellKept)

theorem change_deleteRow (hs : WellKept s) (rowId : Nat) :
    Change s (s.deleteRow rowId) (· ≠ rowId) := by
  refine ⟨hs.deleteRow rowId, ⟨Nat.le_refl _, ?_⟩, ?_⟩
  . intro row hrow hlt
    exact (Advances.refl s).rows row (List.mem_of_mem_filter hrow) hlt
  . rintro id hne ⟨row, hrow, rfl, hrest⟩
    refine ⟨row, List.mem_filter.mpr ⟨hrow, ?_⟩, rfl, hrest⟩
    simpa using hne

theorem change_saveRow (entity : Message) (hs : WellKept s) (hwaiting : Waiting s entity.id)
    (hforward : s.refuses (some entity.id) entity.toMessageFields = false →
      ∀ row ∈ s.messages, row.id = entity.id → row.status.Forward entity.status)
    (hkept : kept entity.id → entity.waMessageId = none ∧ entity.status = .failed) :
    Change s (s.saveRow entity).1 kept := by
  rcases hwaiting with ⟨row, hrow, hid, -⟩
  unfold Store.saveRow
  split
  . exact Change.of_same hs rfl rfl
  . next hrefuses =>
    rw [if_pos (by simpa using ⟨row, hrow, hid⟩)]
    have hupdate : Change s (s.updateRows (fun r => decide (r.id = entity.id)) (overwrite · entity))
        kept := by
      apply change_updateRows hs
      . intro row hp
        exact (of_decide_eq_true hp).symm
      . intro row hrow hp
        exact hforward (Bool.not_eq_true _ ▸ hrefuses) row hrow (of_decide_eq_true hp)
      . intro row hrow hp hkeep hnone _
        rcases hkept (of_decide_eq_true hp ▸ hkeep) with ⟨hnone', hfailed⟩
        refine ⟨?_, .inr hfailed⟩
        simp [overwrite, hnone, hnone']
    simpa only [Store.updateRows, decide_eq_true_eq] using hupdate

end Changes

section Invariant

def openRows (w : DeliveryWorld) : List Nat := w.hist.map (·.rowId)

/-- What holds between any two steps: every open row waits for the one activation it is open for. -/
structure Kept (w : DeliveryWorld) : Prop where
  wellKept : WellKept w.st
  waiting : ∀ rowId ∈ openRows w, Waiting w.st rowId
  distinct : (openRows w).Nodup

/-- Rows only move forward, and a row that was closed stays closed. -/
structure Grows (w w' : DeliveryWorld) : Prop where
  advances : Advances w.st w'.st
  closed : ∀ rowId, rowId < w.st.nextId → rowId ∉ openRows w → rowId ∉ openRows w'

/-- Rows only move forward, and no other activation closes what is open for this one. -/
structure Relies (tid : Nat) (w w' : DeliveryWorld) : Prop where
  grows : Grows w w'
  own : ∀ rowId, ⟨tid, rowId⟩ ∈ w.hist → ⟨tid, rowId⟩ ∈ w'.hist

def outline (host : Host) : Outline (deliverySystem host) where
  ok := Unfailed
  inv := Kept
  rely := Relies
  chk w _ w' := Grows w w'
  post _ _ _ := True

variable {w w' w'' : DeliveryWorld}

theorem Grows.refl (w : DeliveryWorld) : Grows w w where
  advances := Advances.refl _
  closed _ _ h := h

theorem Grows.trans (h : Grows w w') (h' : Grows w' w'') : Grows w w'' where
  advances := h.advances.trans h'.advances
  closed rowId hlt hclosed :=
    h'.closed rowId (Nat.lt_of_lt_of_le hlt h.advances.nextId) (h.closed rowId hlt hclosed)

theorem relies_refl (tid : Nat) (w : DeliveryWorld) : Relies tid w w where
  grows := Grows.refl w
  own _ h := h

theorem relies_trans (tid : Nat) (w₁ w₂ w₃ : DeliveryWorld) (h : Relies tid w₁ w₂)
    (h' : Relies tid w₂ w₃) : Relies tid w₁ w₃ where
  grows := h.grows.trans h'.grows
  own rowId hmem := h'.own rowId (h.own rowId hmem)

theorem mem_openRows {tid rowId : Nat} (h : ⟨tid, rowId⟩ ∈ w.hist) : rowId ∈ openRows w :=
  List.mem_map_of_mem (f := Open.rowId) h

theorem Kept.change (hinv : Kept w) (hhist : w'.hist = w.hist)
    (hchange : Change w.st w'.st (· ∈ openRows w)) : Kept w' where
  wellKept := hchange.wellKept
  waiting rowId hopen := by
    have hopen' : rowId ∈ openRows w := by
      simpa only [openRows, hhist] using hopen
    exact hchange.waiting rowId hopen' (hinv.waiting rowId hopen')
  distinct := by
    simpa only [openRows, hhist] using hinv.distinct

theorem relies_of_hist (tid : Nat) (hhist : w'.hist = w.hist) (hadvances : Advances w.st w'.st) :
    Relies tid w w' where
  grows := ⟨hadvances, fun _ _ h => by simpa only [openRows, hhist] using h⟩
  own _ h := hhist ▸ h

theorem relies_opened {tid tid' : Nat} (hhist : w'.hist = w.hist ++ [⟨tid', w.st.nextId⟩])
    (hadvances : Advances w.st w'.st) : Relies tid w w' := by
  refine ⟨⟨hadvances, ?_⟩, ?_⟩
  . intro rowId hlt hclosed hmem
    simp only [openRows, hhist, List.map_append, List.mem_append, List.map_cons, List.map_nil,
      List.mem_singleton] at hmem
    rcases hmem with hmem | rfl
    . exact hclosed hmem
    . exact Nat.lt_irrefl _ hlt
  . intro rowId hmem
    rw [hhist]
    exact List.mem_append_left _ hmem

theorem kept_opened {tid : Nat} (row : Message) (hinv : Kept w)
    (hst : w'.st = { w.st with messages := w.st.messages ++ [row], nextId := w.st.nextId + 1 })
    (hhist : w'.hist = w.hist ++ [⟨tid, row.id⟩]) (hchange : Change w.st w'.st (fun _ => True))
    (hid : row.id = w.st.nextId) (hnone : row.waMessageId = none) (hstatus : row.status = .pending) :
    Kept w' := by
  have hopen : openRows w' = openRows w ++ [row.id] := by
    simp [openRows, hhist]
  refine ⟨hchange.wellKept, ?_, ?_⟩
  . intro rowId hrowId
    rw [hopen] at hrowId
    rcases List.mem_append.mp hrowId with hrowId | hrowId
    . exact hchange.waiting rowId trivial (hinv.waiting rowId hrowId)
    . rw [List.mem_singleton] at hrowId
      refine ⟨row, ?_, hrowId.symm, hnone, .inl hstatus⟩
      rw [hst]
      exact List.mem_append_right _ (List.mem_singleton_self row)
  . rw [hopen]
    refine List.Nodup.append hinv.distinct (List.nodup_singleton _) ?_
    rw [List.disjoint_singleton]
    intro hmem
    rcases hinv.waiting _ hmem with ⟨old, hold, hoid, -⟩
    exact Nat.ne_of_lt (hinv.wellKept.bound old hold) (hoid.trans hid)

theorem kept_closed {tid rowId : Nat} (hinv : Kept w) (hopen : ⟨tid, rowId⟩ ∈ w.hist)
    (hhist : w'.hist = w.hist.filter (·.tid ≠ tid)) (hchange : Change w.st w'.st (· ≠ rowId)) :
    Kept w' ∧ rowId ∉ openRows w' ∧ (∀ r ∈ openRows w', r ∈ openRows w) := by
  have hsub (r : Nat) (hr : r ∈ openRows w') : r ∈ openRows w ∧ r ≠ rowId := by
    simp only [openRows, hhist, List.mem_map, List.mem_filter, decide_eq_true_eq] at hr
    rcases hr with ⟨o, ⟨ho, htid⟩, rfl⟩
    refine ⟨List.mem_map_of_mem ho, ?_⟩
    intro heq
    have hsame : o = ⟨tid, rowId⟩ := List.inj_on_of_nodup_map hinv.distinct ho hopen heq
    exact htid (congrArg Open.tid hsame)
  refine ⟨⟨hchange.wellKept, ?_, ?_⟩, ?_, fun r hr => (hsub r hr).1⟩
  . intro r hr
    exact hchange.waiting r (hsub r hr).2 (hinv.waiting r (hsub r hr).1)
  . simp only [openRows, hhist]
    exact hinv.distinct.sublist (List.Sublist.map _ List.filter_sublist)
  . intro hr
    exact (hsub rowId hr).2 rfl

end Invariant

section Turns

variable {host : Host} {i : Nat} {w : DeliveryWorld}

/-- The places whose turns the history may note. -/
def noted (place : Place) : Bool :=
  match place with
  | .save _ | .saveSent _ => true
  | _ => false

theorem note_of_not_noted {tid : Nat} {place : Place} {x : Answer} (hplace : noted place = false)
    (s s' : Store) (opened : List Open) : noteOpen (.turn tid place x) s s' opened = opened := by
  unfold noteOpen
  split
  . next heq => cases heq; contradiction
  . next heq => cases heq; contradiction
  . rfl

theorem keeps_of_change (host : Host) (i : Nat) (place : Place) (x : Answer) {s : Store} (hinv : Kept w)
    (hnote : noteOpen (.turn i place x) w.st s w.hist = w.hist)
    (hchange : Change w.st s (· ∈ openRows w)) :
    (outline host).Keeps i w (.turn i place x) s ∧
    Relies i w ((deliverySystem host).after w (.turn i place x) s) := by
  have hrely (j : Nat) : Relies j w ((deliverySystem host).after w (.turn i place x) s) :=
    relies_of_hist j hnote hchange.advances
  exact ⟨⟨(hrely i).grows, hinv.change hnote hchange, fun j _ _ => hrely j⟩, hrely i⟩

theorem safe_turn {α : Type} {place : Place} {ready : Answer → Store → Bool}
    {f : Answer → Store → Store × Except Failure α} (hplace : noted place = false)
    (hf : ∀ w' x, Relies i w w' → Kept w' → Change w'.st (f x w'.st).1 (· ∈ openRows w')) :
    (outline host).Safe i (.await place ready f) w (fun _ w' => Relies i w w')
      (fun _ w' => Relies i w w') := by
  apply Outline.safe_await
  intro w' x hrely hinv _ _ _
  rcases keeps_of_change host i place x hinv (note_of_not_noted hplace _ _ _) (hf w' x hrely hinv) with
    ⟨hkeeps, hown⟩
  refine ⟨hkeeps, ?_⟩
  apply Outline.safe_ofExcept <;> intro _ _ <;> exact relies_trans _ _ _ _ hrely hown

theorem steady_call {α : Type} {place : Place} {f : Store → Store × Except Failure α}
    (hplace : noted place = false)
    (hf : ∀ s kept, WellKept s → Change s (f s).1 kept) :
    (outline host).Steady i (call place f) := by
  intro w
  apply safe_turn hplace
  intro w' x _ hinv
  split
  . exact Change.of_same hinv.wellKept rfl rfl
  . exact hf _ _ hinv.wellKept

theorem steady_quiet {α : Type} {place : Place} {ready : Answer → Store → Bool}
    {f : Answer → Store → Store × Except Failure α} (hplace : noted place = false)
    (hf : ∀ x s, (f x s).1.messages = s.messages ∧ (f x s).1.nextId = s.nextId) :
    (outline host).Steady i (.await place ready f) := by
  intro w
  apply safe_turn hplace
  intro w' x _ hinv
  exact Change.of_same hinv.wellKept (hf x w'.st).1 (hf x w'.st).2

theorem steady_read {α : Type} {place : Place} {f : Store → Except Failure α}
    (hplace : noted place = false) : (outline host).Steady i (call place fun s => (s, f s)) :=
  steady_call hplace fun _ _ hs => Change.of_same hs rfl rfl

theorem steady_local {α : Type} {place : Place} {f : Store → Store × α} (hplace : noted place = false)
    (hf : ∀ s, (f s).1.messages = s.messages ∧ (f s).1.nextId = s.nextId) :
    (outline host).Steady i (local' place f) :=
  steady_quiet hplace fun _ s => hf s

theorem steady_pure {α : Type} (a : α) : (outline host).Steady i (.pure a : MessageTask α) :=
  Outline.steady_pure relies_refl a

theorem steady_throw {α : Type} (e : Failure) : (outline host).Steady i (.throw e : MessageTask α) :=
  Outline.steady_throw relies_refl e

theorem Steady.bind {α β : Type} {t : MessageTask α} {k : α → MessageTask β}
    (h : (outline host).Steady i t) (hk : ∀ a, (outline host).Steady i (k a)) :
    (outline host).Steady i (t.bind k) :=
  Outline.Steady.bind relies_trans h hk

theorem Steady.catch' {α : Type} {t : MessageTask α} {k : Failure → MessageTask α}
    (h : (outline host).Steady i t) (hk : ∀ e, (outline host).Steady i (k e)) :
    (outline host).Steady i (t.catch' k) :=
  Outline.Steady.catch' relies_trans h hk

theorem safe_of_steady {α : Type} {t : MessageTask α} (h : (outline host).Steady i t) :
    (outline host).Safe i t w (fun _ _ => True) (fun _ _ => True) :=
  (h w).mono (fun _ _ _ => trivial) fun _ _ _ => trivial

end Turns

section Sends

variable {host : Host} {i : Nat} {w : DeliveryWorld}

theorem steady_resolveQuotedBody (sessionId id : Text) :
    (outline host).Steady i (resolveQuotedBody sessionId id) :=
  Steady.catch' (steady_read rfl) fun _ => steady_pure _

theorem steady_merge (sessionId waMessageId : Text) (timestamp : Option Nat)
    (metadata : Option Metadata) :
    (outline host).Steady i (merge sessionId waMessageId timestamp metadata) :=
  steady_call rfl fun _ _ hs => change_merge hs _ _ _ _

theorem steady_findSurviving (sessionId waMessageId : Text) :
    (outline host).Steady i (findSurviving sessionId waMessageId) :=
  steady_read rfl

/-- The row is open for this activation and its entity has no engine id. -/
def Opened (i : Nat) (message : Message) (w : DeliveryWorld) : Prop :=
  ⟨i, message.id⟩ ∈ w.hist ∧ message.waMessageId = none

theorem Opened.later {message : Message} {w' : DeliveryWorld} (h : Opened i message w)
    (hrely : Relies i w w') : Opened i message w' :=
  ⟨hrely.own _ h.1, h.2⟩

theorem safe_save (fields : MessageFields) :
    (outline host).Safe i (call (.save fields) fun s => s.insertRow fields) w
      (fun message w' => Relies i w w' ∧
        (fields.waMessageId = none → fields.status = .pending → Opened i message w'))
      (fun _ w' => Relies i w w') := by
  apply Outline.safe_await
  intro w' x hrely hinv _ hready _
  dsimp only
  by_cases hfault : x = .fault
  . subst hfault
    rw [if_pos rfl]
    rcases keeps_of_change host i (.save fields) .fault hinv rfl
      (Change.of_same hinv.wellKept rfl rfl) with ⟨hkeeps, hown⟩
    exact ⟨hkeeps, relies_trans _ _ _ _ hrely hown⟩
  have hok : x = .ok := by
    simpa [hfault] using hready
  subst hok
  rw [if_neg hfault]
  have hchange : Change w'.st (w'.st.insertRow fields).1 (fun _ => True) :=
    change_insertRow hinv.wellKept fields
  by_cases hopens : fields.waMessageId = none ∧ fields.status = .pending
  . rcases hopens with ⟨hnone, hpending⟩
    have hrefuses : w'.st.refuses none fields = false := by
      simp [Store.refuses, hnone]
    have hinsert := insertRow_of_not_refused hrefuses
    have hhist : ((deliverySystem host).after w' (.turn i (.save fields) .ok)
        (w'.st.insertRow fields).1).hist = w'.hist ++ [⟨i, w'.st.nextId⟩] :=
      if_pos ⟨hnone, hpending⟩
    have hkept := kept_opened (newRow w'.st fields) hinv
      (congrArg Prod.fst hinsert) hhist hchange rfl hnone hpending
    have hrelies (j : Nat) : Relies j w' ((deliverySystem host).after w' (.turn i (.save fields) .ok)
        (w'.st.insertRow fields).1) :=
      relies_opened hhist hchange.advances
    refine ⟨⟨(hrelies i).grows, hkept, fun j _ _ => hrelies j⟩, ?_⟩
    rw [congrArg Prod.snd hinsert]
    refine ⟨relies_trans _ _ _ _ hrely (hrelies i), fun _ _ => ⟨?_, hnone⟩⟩
    rw [hhist]
    exact List.mem_append_right _ (List.mem_singleton_self _)
  . rcases keeps_of_change host i (.save fields) .ok hinv
      (if_neg hopens) (change_insertRow hinv.wellKept fields) with ⟨hkeeps, hown⟩
    refine ⟨hkeeps, ?_⟩
    apply Outline.safe_ofExcept
    . intro message _
      refine ⟨relies_trans _ _ _ _ hrely hown, ?_⟩
      intro hnone hpending
      exact absurd ⟨hnone, hpending⟩ hopens
    . intro _ _
      exact relies_trans _ _ _ _ hrely hown

theorem steady_mergeSurviving (fields : MessageFields) (waMessageId : Text) :
    (outline host).Steady i ((merge fields.sessionId waMessageId fields.timestamp fields.metadata).bind fun _ =>
      (findSurviving fields.sessionId waMessageId).bind fun
        | some surviving => pure surviving
        | none => .throw .uniqueViolation) := by
  apply Steady.bind (steady_merge _ _ _ _)
  intro _
  apply Steady.bind (steady_findSurviving _ _)
  intro surviving
  split
  . exact steady_pure _
  . exact steady_throw _

theorem safe_saveOutgoingRow (fields : MessageFields) :
    (outline host).Safe i (saveOutgoingRow fields) w
      (fun message w' => Relies i w w' ∧
        (fields.waMessageId = none → fields.status = .pending → Opened i message w'))
      (fun _ w' => Relies i w w') := by
  unfold saveOutgoingRow
  apply Outline.Safe.catch'
  apply (safe_save fields).mono
  . intro message w' h
    exact h
  intro err w' hrely
  split
  . next _ _ waMessageId hsome =>
    apply (steady_mergeSurviving fields waMessageId w').mono
    . intro message w'' hrely'
      refine ⟨relies_trans _ _ _ _ hrely hrely', ?_⟩
      intro hnone
      rw [hsome] at hnone
      contradiction
    . intro _ w'' hrely'
      exact relies_trans _ _ _ _ hrely hrely'
  . exact hrely

theorem safe_saveOutgoingMessage (sessionId : Text) (data : SaveOutgoingMessageData) :
    (outline host).Safe i (saveOutgoingMessage host sessionId data) w
      (fun message w' => data.waMessageId = none → data.status = none → Opened i message w')
      (fun _ _ => True) := by
  have hrow (quotedMessage : Option QuotedMessage) (w' : DeliveryWorld) :
      (outline host).Safe i (saveOutgoingRow (outgoingFields host sessionId data quotedMessage)) w'
        (fun message w'' => data.waMessageId = none → data.status = none → Opened i message w'')
        (fun _ _ => True) := by
    apply (safe_saveOutgoingRow _).mono
    . rintro message w'' ⟨-, hopened⟩ hnone hstatus
      apply hopened <;> simp [outgoingFields, hnone, hstatus]
    . intro _ _ _
      trivial
  unfold saveOutgoingMessage
  apply Outline.Safe.seq (safe_of_steady (steady_read rfl))
  . intro _ w' _
    split
    . apply Outline.Safe.seq (safe_of_steady (steady_resolveQuotedBody _ _))
      . intro body w'' _
        exact hrow _ w''
      . intro _ _ _
        trivial
    . exact hrow _ w'
  . intro _ _ _
    trivial

theorem safe_saveFailedMessage {message : Message} (hopened : Opened i message w) :
    (outline host).Safe i (saveFailedMessage message) w (fun _ _ => True) (fun _ _ => True) := by
  have hturn : (outline host).Safe i (saveFailedMessage message) w (fun _ w' => Relies i w w')
      (fun _ w' => Relies i w w') := by
    apply safe_turn rfl
    intro w' x hrely hinv
    split
    . exact Change.of_same hinv.wellKept rfl rfl
    . have hwaiting := hinv.waiting _ (mem_openRows (hopened.later hrely).1)
      apply change_saveRow (failedEntity message) hinv.wellKept hwaiting
      . intro _ row hrow hid
        rcases hwaiting with ⟨row', hrow', hid', -, hstatus⟩
        rw [row_unique hinv.wellKept hrow hrow' (hid.trans hid'.symm)]
        rcases hstatus with hstatus | hstatus <;> rw [hstatus]
        . exact .inl rfl
        . rfl
      . intro _
        exact ⟨hopened.2, rfl⟩
  exact hturn.mono (fun _ _ _ => trivial) fun _ _ _ => trivial

/-- The row was given out and is not open. -/
def Closed (rowId : Nat) (w : DeliveryWorld) : Prop := rowId < w.st.nextId ∧ rowId ∉ openRows w

theorem Closed.later {rowId : Nat} {w' : DeliveryWorld} (h : Closed rowId w) (hgrows : Grows w w') :
    Closed rowId w' :=
  ⟨Nat.lt_of_lt_of_le h.1 hgrows.advances.nextId, hgrows.closed rowId h.1 h.2⟩

theorem safe_saveSent (entity : Message) (hopen : ⟨i, entity.id⟩ ∈ w.hist)
    (hstatus : entity.status = .sent) :
    (outline host).Safe i (call (.saveSent entity) fun s => s.saveRow entity) w (fun _ _ => True)
      (fun err w' => err = .uniqueViolation → Closed entity.id w') := by
  apply Outline.safe_await
  intro w' x hrely hinv _ hready hok
  dsimp only
  by_cases hfault : x = .fault
  . subst hfault
    rw [if_pos rfl]
    rcases keeps_of_change host i (.saveSent entity) .fault hinv rfl
      (Change.of_same hinv.wellKept rfl rfl) with ⟨hkeeps, -⟩
    refine ⟨hkeeps, ?_⟩
    intro heq
    contradiction
  have hx : x = .ok := by
    simpa [hfault] using hready
  subst hx
  rw [if_neg hfault]
  have hopen' := hrely.own _ hopen
  have hwaiting := hinv.waiting _ (mem_openRows hopen')
  have hchange : Change w'.st (w'.st.saveRow entity).1 (· ≠ entity.id) := by
    apply change_saveRow entity hinv.wellKept hwaiting
    . intro hrefuses row hrow hid
      have hunfailed := hok entity rfl hrefuses row hrow hid
      rcases hwaiting with ⟨row', hrow', hid', -, hpending | hfailed⟩
      . rw [row_unique hinv.wellKept hrow hrow' (hid.trans hid'.symm), hpending, hstatus]
        decide
      . rw [row_unique hinv.wellKept hrow hrow' (hid.trans hid'.symm)] at hunfailed
        contradiction
    . intro hne
      contradiction
  have hclosing : Kept ((deliverySystem host).after w' (.turn i (.saveSent entity) .ok)
      (w'.st.saveRow entity).1) ∧ _ := kept_closed hinv hopen' rfl hchange
  rcases hclosing with ⟨hkept, hclosed, hsub⟩
  have hgrows : Grows w' ((deliverySystem host).after w' (.turn i (.saveSent entity) .ok)
      (w'.st.saveRow entity).1) :=
    ⟨hchange.advances, fun _ _ hnot hmem => hnot (hsub _ hmem)⟩
  refine ⟨⟨hgrows, hkept, ?_⟩, ?_⟩
  . intro j _ hne
    refine ⟨hgrows, ?_⟩
    intro rowId hmem
    refine List.mem_filter.mpr ⟨hmem, ?_⟩
    simpa using hne
  . apply Outline.safe_ofExcept
    . intro _ _
      trivial
    . intro _ _ _
      refine ⟨?_, hclosed⟩
      rcases hwaiting with ⟨row, hrow, hid, -⟩
      exact Nat.lt_of_lt_of_le (hid ▸ hinv.wellKept.bound row hrow) hchange.advances.nextId

theorem safe_mergeSentState {message : Message} {result : MessageResult}
    (hclosed : Closed message.id w) :
    (outline host).Safe i (mergeSentState message result) w (fun _ _ => True) (fun _ _ => True) := by
  have hdelete (w' : DeliveryWorld) (hclosed' : Closed message.id w') :
      (outline host).Safe i ((call (.deleteRow message.id) fun s =>
        (s.deleteRow message.id, .ok ())).catch' fun _ => pure ()) w' (fun _ _ => True)
        (fun _ _ => True) := by
    apply Outline.Safe.catch'
    have hturn : (outline host).Safe i (call (.deleteRow message.id) fun s =>
        (s.deleteRow message.id, .ok ())) w' (fun _ w'' => Relies i w' w'')
        (fun _ w'' => Relies i w' w'') := by
      apply safe_turn rfl
      intro w'' x hrely hinv
      split
      . exact Change.of_same hinv.wellKept rfl rfl
      . have hchange := change_deleteRow hinv.wellKept message.id
        refine ⟨hchange.wellKept, hchange.advances, ?_⟩
        intro rowId hopen
        apply hchange.waiting
        rintro rfl
        exact (hclosed'.later hrely.grows).2 hopen
    exact hturn.mono (fun _ _ _ => trivial) fun _ _ _ => trivial
  unfold mergeSentState
  have hmerge : (outline host).Steady i ((merge message.sessionId result.id (some result.timestamp)
      message.metadata).catch' fun _ => pure ()) :=
    Steady.catch' (steady_merge _ _ _ _) fun _ => steady_pure _
  apply Outline.Safe.seq (hmerge w)
  . intro _ w' hrely
    apply Outline.Safe.seq (hdelete w' (hclosed.later hrely.grows))
    . intro _ w'' _
      have hrest : (outline host).Steady i (((findSurviving message.sessionId result.id).catch' fun _ =>
          pure none).bind fun _ => pure ()) :=
        Steady.bind (Steady.catch' (steady_findSurviving _ _) fun _ => steady_pure _) fun _ =>
          steady_pure _
      exact safe_of_steady hrest
    . intro _ _ _
      trivial
  . intro _ _ _
    trivial

theorem safe_persistSentState {message : Message} {result : MessageResult}
    (hopened : Opened i message w) :
    (outline host).Safe i (persistSentState message result) w (fun _ _ => True) (fun _ _ => True) := by
  unfold persistSentState
  apply Outline.Safe.catch'
  apply (safe_saveSent (sentEntity message result) hopened.1 rfl).mono
  . intro _ _ h
    exact h
  intro err w' hclosed
  split
  . next h =>
    simp only [Bool.and_eq_true, decide_eq_true_eq] at h
    exact safe_mergeSentState (hclosed h.2)
  . trivial

theorem opened_relabel {message : Message} (req : SendRequest) (result : MessageResult)
    (h : Opened i message w) : Opened i (req.relabel result message) w := by
  unfold SendRequest.relabel
  split <;> exact h

theorem safe_send (sessionId : Text) (req : SendRequest) :
    (outline host).Safe i (send host sessionId req) w (fun _ _ => True) (fun _ _ => True) := by
  unfold send
  apply Outline.Safe.seq (safe_saveOutgoingMessage sessionId req.data)
  . intro message w₁ hopened
    have hopened₁ : Opened i message w₁ := hopened rfl rfl
    have hengine : (outline host).Steady i ((engineSend message.id).bind fun result =>
        pure (some result)) := by
      apply Steady.bind
      . apply steady_quiet rfl
        intro x s
        split <;> exact ⟨rfl, rfl⟩
      . intro result
        exact steady_pure _
    have hsent : (outline host).Safe i (((engineSend message.id).bind fun result =>
        pure (some result)).catch' fun _ => (saveFailedMessage message).bind fun _ => pure none) w₁
        (fun sent w' => sent.isSome = true → Opened i message w') (fun _ _ => True) := by
      apply Outline.Safe.catch'
      apply (hengine w₁).mono
      . intro sent w' hrely _
        exact hopened₁.later hrely
      . intro _ w' hrely
        apply Outline.Safe.seq (safe_saveFailedMessage (hopened₁.later hrely))
        . intro _ _ _ hnone
          contradiction
        . intro _ _ _
          trivial
    apply Outline.Safe.seq hsent
    . intro sent w' hopened'
      split
      . exact safe_persistSentState (opened_relabel req _ (hopened' rfl))
      . trivial
    . intro _ _ _
      trivial
  . intro _ _ _
    trivial

end Sends

section Writers

variable {host : Host} {i : Nat}

theorem steady_insertMessage (fields : MessageFields) :
    (outline host).Steady i (insertMessage fields) := by
  have hinsert : (outline host).Steady i (call (.insert fields) fun s => s.insertRow fields) :=
    steady_call rfl fun _ _ hs => change_insertRow hs fields
  exact Steady.catch' (Steady.bind hinsert fun _ => steady_pure _) fun _ => steady_pure _

theorem steady_handleOwnSendEcho (id : Text) (engine : Nat) (message : IncomingMessage) (s : Store) :
    (outline host).Steady i (handleOwnSendEcho host id engine message s) := by
  unfold handleOwnSendEcho
  split
  . apply Steady.bind (steady_quiet rfl fun _ _ => ⟨rfl, rfl⟩)
    rintro ⟨final, live⟩
    dsimp only
    split
    . exact steady_insertMessage _
    . exact steady_pure _
  . exact steady_pure _

theorem steady_advanceAck (id messageId : Text) (status : MessageStatus) :
    (outline host).Steady i (advanceAck id messageId status) :=
  steady_call rfl fun _ _ hs => change_ack hs _ _ _

theorem steady_handleMessageAck (id : Text) (engine : Nat) (messageId : Text) (status : DeliveryStatus)
    (s : Store) : (outline host).Steady i (handleMessageAck id engine messageId status s) := by
  unfold handleMessageAck
  split
  . split
    . apply Steady.bind (steady_advanceAck _ _ _)
      intro affected
      split
      . exact steady_pure _
      . apply Steady.bind (steady_local rfl fun _ => ⟨rfl, rfl⟩)
        intro _
        exact Steady.bind (steady_advanceAck _ _ _) fun _ => steady_pure _
    . exact steady_pure _
  . exact steady_pure _

theorem steady_persistChunks (id : Text) (chunks : List (List IncomingMessage)) :
    (outline host).Steady i (persistChunks id chunks) := by
  induction chunks with
  | nil => exact steady_pure _
  | cons chunk chunks ih =>
    have hchunk : (outline host).Steady i (persistChunk id chunk) := by
      apply Steady.bind (steady_read rfl)
      intro fresh
      split
      . exact steady_pure _
      . exact steady_call rfl fun _ _ hs => change_insertRows hs _
    exact Steady.bind hchunk fun _ => ih

theorem steady_onHistoryMessages (id : Text) (engine : Nat) (messages : List IncomingMessage)
    (s : Store) : (outline host).Steady i (onHistoryMessages host id engine messages s) := by
  unfold onHistoryMessages
  split
  . exact steady_persistChunks _ _
  . exact steady_pure _

theorem steady_reapRows (rows : List Message) (now : Nat) :
    (outline host).Steady i (reapRows rows now) := by
  induction rows with
  | nil => exact steady_pure _
  | cons row rows ih =>
    have hreap : (outline host).Steady i (reapRow row now) :=
      steady_call rfl fun _ _ hs => change_reap hs _ _
    exact Steady.bind (Steady.catch' hreap fun _ => steady_pure _) fun _ => ih

theorem steady_sweep (now : Nat) : (outline host).Steady i (sweep host now) := by
  apply Outline.Steady.andFinally relies_trans
  . exact Steady.bind (steady_read rfl) fun rows => steady_reapRows rows now
  . exact steady_local rfl fun _ => ⟨rfl, rfl⟩

end Writers

section Runs

variable {host : Host}

theorem keeps_event {w : DeliveryWorld} {v : DeliveryEvent} {s : Store} (hinv : Kept w)
    (hmessages : s.messages = w.st.messages) (hnextId : s.nextId = w.st.nextId) :
    (outline host).Keeps w.started w (.event w.started v) s := by
  have hchange : Change w.st s (· ∈ openRows w) := Change.of_same hinv.wellKept hmessages hnextId
  have hrely (j : Nat) : Relies j w ((deliverySystem host).after w (.event w.started v) s) :=
    relies_of_hist j rfl hchange.advances
  exact ⟨(hrely 0).grows, hinv.change rfl hchange, fun j _ _ => hrely j⟩

theorem valid : (outline host).Valid where
  refl := relies_refl
  trans := relies_trans
  event w v s t hinv _ hevent := by
    simp only [deliverySystem, Option.some.injEq] at hevent
    cases v with
    | send sessionId req =>
      cases hevent
      exact ⟨keeps_event hinv rfl rfl, safe_send sessionId req⟩
    | saveOutgoing sessionId data =>
      cases hevent
      refine ⟨keeps_event hinv rfl rfl, ?_⟩
      apply Outline.Safe.seq (safe_saveOutgoingMessage sessionId data)
      . intro _ _ _
        trivial
      . intro _ _ _
        trivial
    | ownSendEcho id engine message =>
      cases hevent
      exact ⟨keeps_event hinv rfl rfl, safe_of_steady (steady_handleOwnSendEcho _ _ _ _)⟩
    | ack id engine messageId status =>
      cases hevent
      exact ⟨keeps_event hinv rfl rfl, safe_of_steady (steady_handleMessageAck _ _ _ _ _)⟩
    | history id engine messages =>
      cases hevent
      exact ⟨keeps_event hinv rfl rfl, safe_of_steady (steady_onHistoryMessages _ _ _ _)⟩
    | reaperTick =>
      simp only [DeliveryEvent.run, onReaperTick] at hevent
      split at hevent <;> cases hevent
      . exact ⟨keeps_event hinv rfl rfl, trivial⟩
      . exact ⟨keeps_event hinv rfl rfl, safe_of_steady (steady_sweep _)⟩
    | retire id =>
      cases hevent
      exact ⟨keeps_event hinv rfl rfl, trivial⟩
    | tick ms =>
      cases hevent
      exact ⟨keeps_event hinv rfl rfl, trivial⟩

/-- A process before its first call, with any table. -/
def booted (s : Store) : DeliveryConfig where
  st := s
  hist := []
  pool := []

theorem kept_booted {s : Store} (h : WellKept s) : Kept (booted s).world where
  wellKept := h
  waiting := by simp [openRows, booted, Config.world]
  distinct := List.nodup_nil

theorem grows_of_reach {s : Store} (hs : WellKept s) {c c' : DeliveryConfig}
    (h : (deliverySystem host).Reach Unfailed (booted s) c)
    (hlater : (deliverySystem host).Reach Unfailed c c') : Grows c.world c'.world := by
  induction hlater with
  | init => exact Grows.refl _
  | step m hmid hstep hok ih =>
    exact ih.trans (valid.chk_of_reach (kept_booted hs) rfl (h.trans hmid) hstep hok)

/--
In a run that saves the sent state only over rows that have not failed, the status of a row that
survives from one configuration to a later one has only moved forward.
-/
theorem forward_of_reach {s : Store} (hs : WellKept s) {c c' : DeliveryConfig}
    (h : (deliverySystem host).Reach Unfailed (booted s) c)
    (hlater : (deliverySystem host).Reach Unfailed c c') :
    ∀ row ∈ c.st.messages, ∀ row' ∈ c'.st.messages, row.id = row'.id →
      row.status.Forward row'.status := by
  have hinv : Kept c.world := valid.inv_of_reach (kept_booted hs) rfl h
  have hadvances : Advances c.st c'.st := (grows_of_reach hs h hlater).advances
  intro row hrow row' hrow' hid
  have hlt : row'.id < c.st.nextId := hid ▸ hinv.wellKept.bound row hrow
  rcases hadvances.rows row' hrow' hlt with ⟨old, hold, hoid, hforward⟩
  rw [row_unique hinv.wellKept hrow hold (hid.trans hoid.symm)]
  exact hforward

section Samples

def emptyStore : Store where
  messages := []
  nextId := 0
  clock := 0
  engines := fun _ => some 0
  mutations := []
  nextMutation := 0
  sweeping := false

theorem emptyStore_wellKept : WellKept emptyStore where
  ids := List.nodup_nil
  bound := by simp [emptyStore]

/-- The defaults of the reaper. -/
def sampleHost : Host where
  phone := fun _ => none
  storeEphemeralMessages := true
  resolveLidToPhone := false
  graceMs := 3600000
  batchSize := 50

def sampleText : SendRequest where
  chatId := ['c']
  body := some ['h', 'i']
  type := "text".toList
  media := none
  quotedMessage := none
  button := none
  quotedMessageId := none

/-- The statuses of the rows, by row id. -/
def statuses (c : DeliveryConfig) : List (Nat × MessageStatus) :=
  c.st.messages.map fun row => (row.id, row.status)

theorem mem_of_statuses {c : DeliveryConfig} {rowId : Nat} {status : MessageStatus}
    (h : statuses c = [(rowId, status)]) : ∃ row ∈ c.st.messages, row.id = rowId ∧ row.status = status := by
  have hmem : (rowId, status) ∈ statuses c := by
    rw [h]
    exact List.mem_singleton_self _
  rcases List.mem_map.mp hmem with ⟨row, hrow, heq⟩
  cases heq
  exact ⟨row, hrow, rfl, rfl⟩

/-- A send whose row is delivered. -/
theorem forward_of_reach_delivered :
    ∃ c : DeliveryConfig, ∃ c' : DeliveryConfig, ∃ row ∈ c.st.messages, ∃ row' ∈ c'.st.messages,
      row.id = row'.id ∧ row.status = .sent ∧ row'.status = .delivered ∧
      row.status.Forward row'.status := by
  have hrun : (((deliverySystem sampleHost).exec Unfailed (booted emptyStore)
      [.event (.send ['s'] sampleText), .turn 0 .ok, .turn 0 .ok,
        .turn 0 (.accepted ⟨['m'], 7, none⟩), .turn 0 .ok]).bind fun c =>
      ((deliverySystem sampleHost).exec Unfailed c
        [.event (.ack ['s'] 0 ['m'] .delivered), .turn 1 .ok]).map fun c' =>
          (statuses c, statuses c')) = some ([(0, .sent)], [(0, .delivered)]) := by
    decide +kernel
  rcases System.reaches_of_exec_map hrun with ⟨c, hreach, c', hlater, heq⟩
  simp only [Prod.mk.injEq] at heq
  rcases mem_of_statuses heq.1 with ⟨row, hrow, hid, hsent⟩
  rcases mem_of_statuses heq.2 with ⟨row', hrow', hid', hdelivered⟩
  exact ⟨c, c', row, hrow, row', hrow', hid.trans hid'.symm, hsent, hdelivered,
    forward_of_reach emptyStore_wellKept hreach hlater row hrow row' hrow' (hid.trans hid'.symm)⟩

/--
The engine takes longer than the grace window of the reaper: the row of the send is reaped, and the
state that is saved after the engine accepted the message takes it back from failed to sent.
-/
theorem reaped_then_sent :
    WellKept emptyStore ∧ ∃ c, (deliverySystem sampleHost).Reach System.anyStep (booted emptyStore) c ∧
      ∃ c', (deliverySystem sampleHost).Reach System.anyStep c c' ∧
        ∃ row ∈ c.st.messages, ∃ row' ∈ c'.st.messages, row.id = row'.id ∧
          row.status = .failed ∧ ¬row.status.Forward row'.status := by
  have hrun : (((deliverySystem sampleHost).exec System.anyStep (booted emptyStore)
      [.event (.send ['s'] sampleText), .turn 0 .ok, .turn 0 .ok, .event (.tick 3600001),
        .event .reaperTick, .turn 2 .ok, .turn 2 .ok, .turn 2 .ok]).bind fun c =>
      ((deliverySystem sampleHost).exec System.anyStep c
        [.turn 0 (.accepted ⟨['m'], 7, none⟩), .turn 0 .ok]).map fun c' =>
          (statuses c, statuses c')) = some ([(0, .failed)], [(0, .sent)]) := by
    decide +kernel
  rcases System.reaches_of_exec_map hrun with ⟨c, hreach, c', hlater, heq⟩
  simp only [Prod.mk.injEq] at heq
  rcases mem_of_statuses heq.1 with ⟨row, hrow, hid, hfailed⟩
  rcases mem_of_statuses heq.2 with ⟨row', hrow', hid', hsent⟩
  refine ⟨emptyStore_wellKept, c, hreach, c', hlater, row, hrow, row', hrow', hid.trans hid'.symm,
    hfailed, ?_⟩
  rw [hfailed, hsent]
  decide

end Samples

end Runs

end ForwardOnly
end OpenWA.Stored
