import OpenWA.Async.Outline
import OpenWA.Stored.MutationLine

/-!
This module contains the row of one accepted send beside its own-send echo and the reactions to it: the
row carries the metadata of the send and every reaction, provided that the merge onto the echo's row
does not overlap a reaction.
-/

namespace OpenWA.Stored

open Async Js

namespace NoLostUpdate

/-- What happens around one message of a session: its send, the echo of the send, and the reactions. -/
inductive SendEvent where
  | send (req : SendRequest)
  | echo (engine : Nat) (message : IncomingMessage)
  | reaction (engine : Nat) (senderId emoji : Text)
deriving DecidableEq

/-- The events of the message `key.2` of the session `key.1`. -/
def SendEvent.run (host : Host) (key : Text × Text) (v : SendEvent) (s : Store) :
    Store × MessageTask Unit :=
  match v with
  | .send req => (s, Stored.send host key.1 req)
  | .echo engine message => (s, handleOwnSendEcho host key.1 engine message s)
  | .reaction engine senderId emoji => onMessageReaction key.1 engine ⟨key.2, emoji, senderId⟩ s

/-- How the state of the send came onto the row. -/
inductive Landing where
  | saved
  | merged
deriving DecidableEq

/--
The history of a run: the send with the row it saved, the metadata it was accepted with and how that
landed; the reactions in line, those that found a row, and the one between its read and its write.
-/
structure History where
  sender : Option Nat
  saved : Option Message
  accepted : Option (Option Metadata)
  landed : Option Landing
  line : List Waiter
  found : List ReactionEvent
  reading : Option Nat

def noteSend (key : Text × Text) (a : Act SendEvent Answer Place) (s s' : Store) (h : History) :
    History :=
  match a with
  | .event tid (.send _) => { h with sender := some tid }
  | .event tid (.reaction ..) =>
    if s'.nextMutation = s.nextMutation then h
    else { h with line := h.line ++ [⟨tid, s.nextMutation⟩] }
  | .turn _ (.save fields) .ok => { h with saved := some (newRow s fields) }
  | .turn _ (.saveSent entity) .ok =>
    { h with
      accepted := some entity.metadata
      landed := if s.refuses (some entity.id) entity.toMessageFields then h.landed else some .saved }
  | .turn _ (.merge ..) .ok => { h with landed := some .merged }
  | .turn tid (.findReacted _ event) .ok =>
    if (s.rowOf key.1 key.2).isSome then
      { h with found := h.found ++ [event], reading := some tid }
    else h
  | .turn _ (.react ..) .ok => { h with reading := none }
  | .turn _ (.settleMutation _ n) _ => { h with line := h.line.filter (·.n ≠ n) }
  | _ => h

def sendSystem (host : Host) (key : Text × Text) :
    System Store Answer Place Failure SendEvent History where
  event v s := some (v.run host key s)
  note := noteSend key

abbrev SendWorld := World Store History

abbrev SendConfig := Config Store Answer Place Failure History

section Conditions

def SendEvent.isSend (v : SendEvent) : Bool :=
  match v with
  | .send _ => true
  | .echo .. | .reaction .. => false

/-- The engine accepts the send under the id, the chain keeps the id, and no repository call faults. -/
def Place.admits (messageId : Text) (place : Place) (x : Answer) : Bool :=
  match place with
  | .engineSend _ => x.result?.any (·.id = messageId)
  | .hook => x.message?.any (·.id = messageId)
  | _ => x ≠ .fault

/-- The runs the property is about: one accepted send, the echoes of its id, and no repository fault. -/
def InScope (key : Text × Text) (w : SendWorld) (a : Act SendEvent Answer Place) : Prop :=
  match a with
  | .event _ v => v.isSend = true → w.hist.sender = none
  | .turn _ place x => Place.admits key.2 place x = true

instance (key : Text × Text) (w : SendWorld) (a : Act SendEvent Answer Place) :
    Decidable (InScope key w a) :=
  match a with
  | .event .. => inferInstanceAs (Decidable (_ → _))
  | .turn .. => inferInstanceAs (Decidable (_ = _))

/-- The metadata a step merges onto the row of the echo, where it replaces the column. -/
def replaced? (a : Act SendEvent Answer Place) : Option Metadata :=
  match a with
  | .turn _ (.merge _ _ metadata) _ => if isUrlPointerMetadata metadata then none else metadata
  | _ => none

/--
The condition on the steps of a run: a merge replaces the metadata of the echo's row only while that
has no reactions and no reaction is between its read and its write.
-/
def Undisturbed (key : Text × Text) (w : SendWorld) (a : Act SendEvent Answer Place) : Prop :=
  (replaced? a).isSome = true →
    w.hist.reading = none ∧ ∀ row ∈ carriers key w.st, reactionsOf row.metadata = []

instance (key : Text × Text) (w : SendWorld) (a : Act SendEvent Answer Place) :
    Decidable (Undisturbed key w a) :=
  inferInstanceAs (Decidable (_ → _ ∧ ∀ _ ∈ _, _))

def Admitted (key : Text × Text) (w : SendWorld) (a : Act SendEvent Answer Place) : Prop :=
  InScope key w a ∧ Undisturbed key w a

instance (key : Text × Text) (w : SendWorld) (a : Act SendEvent Answer Place) :
    Decidable (Admitted key w a) :=
  inferInstanceAs (Decidable (_ ∧ _))

end Conditions

section Property

/-- What applying the reactions in order leaves. -/
def applyAll (events : List ReactionEvent) : List (Text × Text) :=
  events.foldl (fun reactions event => setReaction event reactions) []

/-- One row carries the id, with the media of the send unless that is a URL pointer, and all reactions. -/
structure NoneLost (key : Text × Text) (payload : Option Metadata) (found : List ReactionEvent)
    (s : Store) : Prop where
  one : (carriers key s).length = 1
  media : isUrlPointerMetadata payload = false → ∀ row ∈ carriers key s,
    ∀ media ∈ payload.bind (·.media), row.metadata.bind (·.media) = some media
  reactions : ∀ row ∈ carriers key s, reactionsOf row.metadata = applyAll found

end Property

section Invariant

variable (key : Text × Text)

/-- Everything but the reactions. -/
def apart (metadata : Metadata) : Metadata := { metadata with reactions := none }

/-- The metadata has what the payload brings, reactions apart. -/
def Carries (payload metadata : Option Metadata) : Prop :=
  isUrlPointerMetadata payload = false → ∀ m ∈ payload, metadata.map apart = some (apart m)

/-- The reactions that were written: all that found a row, but the one that is under way. -/
def written (h : History) : List ReactionEvent := if h.reading.isSome then h.found.dropLast else h.found

/-- What holds between any two steps. -/
structure Kept (w : SendWorld) : Prop where
  wellKept : WellKept w.st
  named : ∀ row ∈ carriers key w.st, ∀ row' ∈ carriers key w.st, row.id = row'.id
  sender : ∀ tid ∈ w.hist.sender, tid < w.started
  unsent : w.hist.sender = none → w.hist.saved = none ∧ w.hist.accepted = none ∧ w.hist.landed = none
  saved : ∀ row ∈ w.hist.saved, row.id < w.st.nextId ∧ row.waMessageId = none
  own : ∀ m ∈ w.hist.saved, w.hist.landed ≠ some .saved →
    ∀ row ∈ w.st.messages, row.id = m.id → row = m
  line : Lined key w.st w.hist.line
  waiting : ∀ waiter ∈ w.hist.line, waiter.tid < w.started
  reading : ∀ tid ∈ w.hist.reading,
    carriers key w.st ≠ [] ∧ ∃ n, w.hist.line.head? = some ⟨tid, n⟩
  reader : ∀ tid ∈ w.hist.reading, w.hist.sender ≠ some tid
  found : carriers key w.st = [] → w.hist.found = []
  reactions : ∀ row ∈ carriers key w.st, reactionsOf row.metadata = applyAll (written w.hist)
  accepted : w.hist.accepted.isSome = true → carriers key w.st ≠ []
  landed : w.hist.landed.isSome = true → w.hist.accepted.isSome = true
  payload : w.hist.landed.isSome = true → ∀ payload ∈ w.hist.accepted,
    ∀ row ∈ carriers key w.st, Carries payload row.metadata

/--
What an activation relies on: the send keeps its own record, a reaction its place in line, and the
metadata it has read stays as it was.
-/
structure Relies (tid : Nat) (w w' : SendWorld) : Prop where
  sender : w'.hist.sender = some tid ↔ w.hist.sender = some tid
  saved : w.hist.sender = some tid → w'.hist.saved = w.hist.saved
  accepted : w.hist.sender = some tid → w'.hist.accepted = w.hist.accepted
  landed : w.hist.sender = some tid → w'.hist.landed = w.hist.landed
  line : ∀ n, ⟨tid, n⟩ ∈ w.hist.line → ⟨tid, n⟩ ∈ w'.hist.line
  front : ∀ n, w.hist.line.head? = some ⟨tid, n⟩ → w'.hist.line.head? = some ⟨tid, n⟩
  reading : w'.hist.reading = some tid ↔ w.hist.reading = some tid
  found : w.hist.reading = some tid → w'.hist.found = w.hist.found
  held : w.hist.reading = some tid → ∀ row' ∈ carriers key w'.st,
    ∃ row ∈ carriers key w.st, row'.metadata = row.metadata

def outline (host : Host) : Outline (sendSystem host key) where
  ok := Admitted key
  inv := Kept key
  rely := Relies key
  chk _ _ _ := True
  post tid _ w := w.hist.sender = some tid ∧ w.hist.landed.isSome = true ∨
    w.hist.sender ≠ some tid ∧ w.hist.reading ≠ some tid

variable {key} {w w' w'' : SendWorld}

theorem relies_refl (tid : Nat) (w : SendWorld) : Relies key tid w w where
  sender := Iff.rfl
  saved _ := rfl
  accepted _ := rfl
  landed _ := rfl
  line _ h := h
  front _ h := h
  reading := Iff.rfl
  found _ := rfl
  held _ row hrow := ⟨row, hrow, rfl⟩

theorem relies_trans (tid : Nat) (w₁ w₂ w₃ : SendWorld) (h : Relies key tid w₁ w₂)
    (h' : Relies key tid w₂ w₃) : Relies key tid w₁ w₃ where
  sender := h'.sender.trans h.sender
  saved hsender := (h'.saved (h.sender.mpr hsender)).trans (h.saved hsender)
  accepted hsender := (h'.accepted (h.sender.mpr hsender)).trans (h.accepted hsender)
  landed hsender := (h'.landed (h.sender.mpr hsender)).trans (h.landed hsender)
  line n hmem := h'.line n (h.line n hmem)
  front n hhead := h'.front n (h.front n hhead)
  reading := h'.reading.trans h.reading
  found hreading := (h'.found (h.reading.mpr hreading)).trans (h.found hreading)
  held hreading row₃ hrow₃ := by
    rcases h'.held (h.reading.mpr hreading) row₃ hrow₃ with ⟨row₂, hrow₂, heq'⟩
    rcases h.held hreading row₂ hrow₂ with ⟨row₁, hrow₁, heq⟩
    exact ⟨row₁, hrow₁, heq'.trans heq⟩

theorem Kept.quiet (h : Kept key w) (hhist : w'.hist = w.hist)
    (hmessages : w'.st.messages = w.st.messages) (hnextId : w'.st.nextId = w.st.nextId)
    (hmutations : w'.st.mutations = w.st.mutations)
    (hnext : w'.st.nextMutation = w.st.nextMutation) (hstarted : w.started ≤ w'.started) :
    Kept key w' := by
  have hcarriers : carriers key w'.st = carriers key w.st := by
    rw [carriers, hmessages, carriers]
  exact {
    wellKept := h.wellKept.congr hmessages hnextId
    named := by simpa only [hcarriers] using h.named
    sender := fun tid htid => Nat.lt_of_lt_of_le (h.sender tid (hhist ▸ htid)) hstarted
    unsent := by simpa only [hhist] using h.unsent
    saved := by simpa only [hhist, hnextId] using h.saved
    own := by simpa only [hhist, hmessages] using h.own
    line := by simpa only [hhist] using h.line.congr hmutations hnext
    waiting := fun waiter hwaiter =>
      Nat.lt_of_lt_of_le (h.waiting waiter (hhist ▸ hwaiter)) hstarted
    reading := by simpa only [hhist, hcarriers] using h.reading
    reader := by simpa only [hhist] using h.reader
    found := by simpa only [hhist, hcarriers] using h.found
    reactions := by simpa only [hhist, hcarriers] using h.reactions
    accepted := by simpa only [hhist, hcarriers] using h.accepted
    landed := by simpa only [hhist] using h.landed
    payload := by simpa only [hhist, hcarriers] using h.payload }

theorem relies_of_hist (tid : Nat) (hhist : w'.hist = w.hist)
    (hheld : w.hist.reading = some tid → ∀ row' ∈ carriers key w'.st,
      ∃ row ∈ carriers key w.st, row'.metadata = row.metadata) : Relies key tid w w' where
  sender := by rw [hhist]
  saved _ := by rw [hhist]
  accepted _ := by rw [hhist]
  landed _ := by rw [hhist]
  line n h := by rwa [hhist]
  front n h := by rwa [hhist]
  reading := by rw [hhist]
  found _ := by rw [hhist]
  held := hheld

theorem relies_quiet (tid : Nat) (hhist : w'.hist = w.hist)
    (hmessages : w'.st.messages = w.st.messages) : Relies key tid w w' := by
  apply relies_of_hist tid hhist
  intro _ row hrow
  rw [carriers, hmessages] at hrow
  exact ⟨row, hrow, rfl⟩

end Invariant

section Table

variable {key : Text × Text} {w : SendWorld}

theorem written_of_found {h : History} (hfound : h.found = []) : written h = [] := by
  simp [written, hfound]

theorem reading_of_carriers (h : Kept key w) (hnone : carriers key w.st = []) :
    w.hist.reading = none := by
  rw [Option.eq_none_iff_forall_ne_some]
  intro tid htid
  exact (h.reading tid htid).1 hnone

theorem reading_front (h : Kept key w) {tid tid' n : Nat}
    (hfront : w.hist.line.head? = some ⟨tid, n⟩) (hreading : w.hist.reading = some tid') :
    tid' = tid := by
  rcases (h.reading tid' hreading).2 with ⟨n', hfront'⟩
  rw [hfront] at hfront'
  cases hfront'
  rfl

theorem kept_save {fields : MessageFields} {i : Nat} (h : Kept key w)
    (hnone : fields.waMessageId = none) (hsender : w.hist.sender = some i) :
    Kept key ⟨{ w.st with
      messages := w.st.messages ++ [newRow w.st fields], nextId := w.st.nextId + 1 },
      { w.hist with saved := some (newRow w.st fields) }, w.started⟩ := by
  have hcarriers : carriers key { w.st with
      messages := w.st.messages ++ [newRow w.st fields], nextId := w.st.nextId + 1 } =
      carriers key w.st := by
    have hnew : (newRow w.st fields).named key.1 key.2 = false := unnamed hnone
    simp [carriers, List.filter_append, hnew]
  have hwell : WellKept { w.st with
      messages := w.st.messages ++ [newRow w.st fields], nextId := w.st.nextId + 1 } := by
    apply wellKept_append _ h.wellKept rfl _ (Nat.le_succ _) (Nat.lt_succ_self _)
    intro old hold
    exact Nat.ne_of_lt (h.wellKept.bound old hold)
  exact {
    wellKept := hwell
    named := by simpa only [hcarriers] using h.named
    sender := h.sender
    unsent := by simp [hsender]
    saved := by
      intro m hm
      cases hm
      exact ⟨Nat.lt_succ_self _, hnone⟩
    own := by
      intro m hm _ row hrow hid
      cases hm
      rcases List.mem_append.mp hrow with hrow | hrow
      . exact absurd hid (Nat.ne_of_lt (h.wellKept.bound row hrow))
      . exact List.mem_singleton.mp hrow
    line := h.line.congr rfl rfl
    waiting := h.waiting
    reading := by simpa only [hcarriers] using h.reading
    reader := h.reader
    found := by simpa only [hcarriers] using h.found
    reactions := by
      rw [hcarriers]
      exact h.reactions
    accepted := by simpa only [hcarriers] using h.accepted
    landed := h.landed
    payload := by simpa only [hcarriers] using h.payload }

theorem kept_refused {entity : Message} {i : Nat} (h : Kept key w)
    (hsession : entity.sessionId = key.1) (hid : entity.waMessageId = some key.2)
    (hrefuses : w.st.refuses (some entity.id) entity.toMessageFields = true)
    (hsender : w.hist.sender = some i) (hlanded : w.hist.landed = none) :
    Kept key ⟨w.st, { w.hist with accepted := some entity.metadata }, w.started⟩ where
  wellKept := h.wellKept
  named := h.named
  sender := h.sender
  unsent := by simp [hsender]
  saved := h.saved
  own := h.own
  line := h.line
  waiting := h.waiting
  reading := h.reading
  reader := h.reader
  found := h.found
  reactions := h.reactions
  accepted _ := by
    rcases (refuses_iff hsession hid).mp hrefuses with ⟨row, hrow, -⟩
    exact List.ne_nil_of_mem hrow
  landed _ := rfl
  payload := by simp [hlanded]

theorem carriers_saveRow {s : Store} {entity : Message}
    (hsession : entity.sessionId = key.1) (hid : entity.waMessageId = some key.2)
    (hnone : carriers key s = []) :
    carriers key (s.saveRow entity).1 ≠ [] ∧
    ∀ row ∈ carriers key (s.saveRow entity).1, row.id = entity.id ∧ (row.metadata = entity.metadata ∨
      ∃ stored ∈ s.messages, stored.id = entity.id ∧
        row.metadata = (entity.metadata <|> stored.metadata)) := by
  have hrefuses : s.refuses (some entity.id) entity.toMessageFields = false := by
    rw [Bool.eq_false_iff]
    intro hrefuses
    rcases (refuses_iff hsession hid).mp hrefuses with ⟨row, hrow, -⟩
    simp [hnone] at hrow
  have hnot {row : Message} (hrow : row ∈ s.messages) : ¬row.named key.1 key.2 = true := by
    intro hnamed
    have hmem := mem_carriers.mpr ⟨hrow, hnamed⟩
    simp [hnone] at hmem
  have hentity : entity.named key.1 key.2 = true := named_eq.mpr ⟨hsession, hid⟩
  unfold Store.saveRow
  rw [hrefuses, if_neg (by decide)]
  by_cases hstored : s.messages.any (·.id = entity.id) = true
  . rw [if_pos hstored]
    refine ⟨?_, ?_⟩
    . simp only [List.any_eq_true, decide_eq_true_eq] at hstored
      rcases hstored with ⟨stored, hmem, heq⟩
      apply List.ne_nil_of_mem (a := overwrite stored entity)
      refine mem_carriers.mpr ⟨List.mem_map.mpr ⟨stored, hmem, if_pos heq⟩, ?_⟩
      rw [named_eq]
      refine ⟨hsession, ?_⟩
      simp [overwrite, hid]
    . intro row hrow
      rcases mem_carriers.mp hrow with ⟨hrow, hnamed⟩
      rcases List.mem_map.mp hrow with ⟨stored, hmem, rfl⟩
      by_cases heq : stored.id = entity.id
      . rw [if_pos heq]
        exact ⟨rfl, .inr ⟨stored, hmem, heq, rfl⟩⟩
      . rw [if_neg heq] at hnamed
        exact absurd hnamed (hnot hmem)
  . rw [if_neg hstored]
    refine ⟨List.ne_nil_of_mem (mem_carriers.mpr ⟨List.mem_append_right _
      (List.mem_singleton_self entity), hentity⟩), ?_⟩
    intro row hrow
    rcases mem_carriers.mp hrow with ⟨hrow, hnamed⟩
    rcases List.mem_append.mp hrow with hrow | hrow
    . exact absurd hnamed (hnot hrow)
    . rw [List.mem_singleton.mp hrow]
      exact ⟨rfl, .inl rfl⟩

theorem kept_saved {entity m : Message} {i : Nat} (h : Kept key w)
    (hsession : entity.sessionId = key.1) (hid : entity.waMessageId = some key.2)
    (hrefuses : w.st.refuses (some entity.id) entity.toMessageFields = false)
    (hsender : w.hist.sender = some i) (hsaved : w.hist.saved = some m)
    (hlanded : w.hist.landed = none) (hrow : entity.id = m.id)
    (hmetadata : entity.metadata = none → m.metadata = none)
    (hreactions : reactionsOf entity.metadata = []) :
    carriers key w.st = [] ∧
    Kept key ⟨(w.st.saveRow entity).1, { w.hist with
      accepted := some entity.metadata, landed := some .saved }, w.started⟩ := by
  have hown (row : Message) (hmem : row ∈ w.st.messages) (heq : row.id = entity.id) : row = m :=
    h.own m hsaved (by simp [hlanded]) row hmem (heq.trans hrow)
  have hnone : carriers key w.st = [] := by
    rw [List.eq_nil_iff_forall_not_mem]
    intro row hmem
    by_cases heq : row.id = entity.id
    . have hm := hown row (mem_carriers.mp hmem).1 heq
      have hnamed := (mem_carriers.mp hmem).2
      rw [hm, unnamed (h.saved m hsaved).2] at hnamed
      contradiction
    . have := (refuses_iff hsession hid).mpr ⟨row, hmem, fun hsome => heq (Option.some.inj hsome).symm⟩
      rw [this] at hrefuses
      contradiction
  have hfound := h.found hnone
  rcases carriers_saveRow hsession hid hnone with ⟨hsome, hcarriers⟩
  have hafter (row : Message) (hmem : row ∈ carriers key (w.st.saveRow entity).1) :
      row.id = entity.id ∧ row.metadata = entity.metadata := by
    rcases hcarriers row hmem with ⟨heq, hmeta | ⟨stored, hstored, hsid, hmeta⟩⟩
    . exact ⟨heq, hmeta⟩
    . refine ⟨heq, ?_⟩
      rw [hmeta, hown stored hstored hsid]
      cases hentity : entity.metadata with
      | none => simp [hmetadata hentity]
      | some metadata => rfl
  have hlt : entity.id < w.st.nextId := hrow ▸ (h.saved m hsaved).1
  refine ⟨hnone, ?_⟩
  exact {
    wellKept := h.wellKept.saveRow hlt
    named := fun row hmem row' hmem' => (hafter row hmem).1.trans (hafter row' hmem').1.symm
    sender := h.sender
    unsent := by simp [hsender]
    saved := by
      intro row hmem
      have hnext : (w.st.saveRow entity).1.nextId = w.st.nextId := by
        unfold Store.saveRow
        split
        . rfl
        . split <;> rfl
      rw [hnext]
      exact h.saved row hmem
    own := by
      intro _ _ hne
      contradiction
    line := by
      apply h.line.congr <;> unfold Store.saveRow <;> split <;> first | rfl | split <;> rfl
    waiting := h.waiting
    reading := by simp [reading_of_carriers h hnone]
    reader := by simp [reading_of_carriers h hnone]
    found := fun hnil => absurd hnil hsome
    reactions := by
      intro row hmem
      rw [(hafter row hmem).2, hreactions]
      exact (congrArg applyAll (written_of_found hfound)).symm
    accepted := fun _ => hsome
    landed := fun _ => rfl
    payload := by
      intro _ payload hpayload row hmem _ metadata hmeta
      cases hpayload
      rw [(hafter row hmem).2, hmeta]
      rfl }

theorem own_updateRows {f : Message → Message} {m : Message} (h : Kept key w)
    (hid : ∀ row, row.named key.1 key.2 = true → (f row).id = row.id) (hm : m ∈ w.hist.saved)
    (hlanded : w.hist.landed ≠ some .saved) :
    ∀ row ∈ (w.st.updateRows (·.named key.1 key.2) f).messages, row.id = m.id → row = m := by
  intro row hrow heq
  rcases List.mem_map.mp hrow with ⟨old, hold, rfl⟩
  by_cases hnamed : old.named key.1 key.2 = true
  . rw [if_pos hnamed, hid old hnamed] at heq
    have hold' := h.own m hm hlanded old hold heq
    rw [hold', unnamed (h.saved m hm).2] at hnamed
    contradiction
  . rw [if_neg hnamed] at heq ⊢
    exact h.own m hm hlanded old hold heq

/-- The merge onto the row of the echo; where it replaces the column, nothing is lost. -/
theorem kept_merge {payload : Option Metadata} {timestamp : Option Nat} {i : Nat} (h : Kept key w)
    (hsender : w.hist.sender = some i) (haccepted : w.hist.accepted = some payload)
    (hlanded : w.hist.landed = none) (hreactions : reactionsOf payload = [])
    (hundisturbed : isUrlPointerMetadata payload = false → payload.isSome = true →
      w.hist.reading = none ∧ ∀ row ∈ carriers key w.st, reactionsOf row.metadata = []) :
    Kept key ⟨w.st.updateRows (·.named key.1 key.2) (mergePatch timestamp payload),
      { w.hist with landed := some .merged }, w.started⟩ := by
  have hcarriers : carriers key (w.st.updateRows (·.named key.1 key.2) (mergePatch timestamp payload)) =
      (carriers key w.st).map (mergePatch timestamp payload) :=
    carriers_updateRows fun _ => ⟨rfl, rfl⟩
  have hsome : carriers key w.st ≠ [] := h.accepted (by simp [haccepted])
  have hmap : carriers key (w.st.updateRows (·.named key.1 key.2) (mergePatch timestamp payload)) ≠ [] := by
    simpa [hcarriers] using hsome
  exact {
    wellKept := h.wellKept.updateRows fun _ _ => rfl
    named := by
      intro row hrow row' hrow'
      rw [hcarriers] at hrow hrow'
      rcases List.mem_map.mp hrow with ⟨old, hold, rfl⟩
      rcases List.mem_map.mp hrow' with ⟨old', hold', rfl⟩
      exact h.named old hold old' hold'
    sender := h.sender
    unsent := by simp [hsender]
    saved := h.saved
    own := fun m hm _ => own_updateRows h (fun _ _ => rfl) hm (by simp [hlanded])
    line := h.line.congr rfl rfl
    waiting := h.waiting
    reading := fun tid htid => ⟨hmap, (h.reading tid htid).2⟩
    reader := h.reader
    found := fun hnil => absurd hnil hmap
    reactions := by
      intro row hrow
      rw [hcarriers] at hrow
      rcases List.mem_map.mp hrow with ⟨old, hold, rfl⟩
      have hold' := h.reactions old hold
      simp only [mergePatch]
      by_cases hpointer : isUrlPointerMetadata payload = true
      . rw [if_pos hpointer]
        exact hold'
      . rw [if_neg hpointer]
        cases payload with
        | none => exact hold'
        | some metadata =>
          rcases hundisturbed (Bool.eq_false_iff.mpr hpointer) rfl with ⟨-, hempty⟩
          rw [hempty old hold] at hold'
          exact hreactions.trans hold'
    accepted := fun _ => hmap
    landed := fun _ => by simp [haccepted]
    payload := by
      intro _ payload' hpayload row hrow hpointer metadata hmeta
      rw [haccepted] at hpayload
      cases hpayload
      rw [hcarriers] at hrow
      rcases List.mem_map.mp hrow with ⟨old, hold, rfl⟩
      cases hmeta
      simp only [mergePatch, hpointer]
      rfl }

theorem kept_delete {m : Message} (h : Kept key w) (hsaved : w.hist.saved = some m)
    (hlanded : w.hist.landed = some .merged) :
    carriers key (w.st.deleteRow m.id) = carriers key w.st ∧
    Kept key ⟨w.st.deleteRow m.id, w.hist, w.started⟩ := by
  have hcarriers : carriers key (w.st.deleteRow m.id) = carriers key w.st := by
    simp only [carriers, Store.deleteRow, List.filter_filter]
    apply List.filter_congr
    intro row hrow
    by_cases heq : row.id = m.id
    . have hm := h.own m hsaved (by simp [hlanded]) row hrow heq
      simp [hm, unnamed (h.saved m hsaved).2]
    . simp [heq]
  refine ⟨hcarriers, ?_⟩
  exact {
    wellKept := h.wellKept.deleteRow _
    named := by simpa only [hcarriers] using h.named
    sender := h.sender
    unsent := h.unsent
    saved := h.saved
    own := fun m' hm' hne row hrow => h.own m' hm' hne row (List.mem_of_mem_filter hrow)
    line := h.line.congr rfl rfl
    waiting := h.waiting
    reading := by simpa only [hcarriers] using h.reading
    reader := h.reader
    found := by simpa only [hcarriers] using h.found
    reactions := by
      rw [hcarriers]
      exact h.reactions
    accepted := by simpa only [hcarriers] using h.accepted
    landed := h.landed
    payload := by simpa only [hcarriers] using h.payload }

theorem kept_insert {fields : MessageFields} (h : Kept key w) (hsession : fields.sessionId = key.1)
    (hid : fields.waMessageId = some key.2) (hreactions : reactionsOf fields.metadata = [])
    (hnone : carriers key w.st = []) :
    Kept key ⟨{ w.st with
      messages := w.st.messages ++ [newRow w.st fields], nextId := w.st.nextId + 1 }, w.hist,
      w.started⟩ := by
  have hnamed : (newRow w.st fields).named key.1 key.2 = true := named_eq.mpr ⟨hsession, hid⟩
  have hcarriers : carriers key { w.st with
      messages := w.st.messages ++ [newRow w.st fields], nextId := w.st.nextId + 1 } =
      [newRow w.st fields] := by
    rw [carriers] at hnone ⊢
    simp [List.filter_append, hnone, hnamed]
  have hwell : WellKept { w.st with
      messages := w.st.messages ++ [newRow w.st fields], nextId := w.st.nextId + 1 } := by
    apply wellKept_append _ h.wellKept rfl _ (Nat.le_succ _) (Nat.lt_succ_self _)
    intro old hold
    exact Nat.ne_of_lt (h.wellKept.bound old hold)
  have haccepted : w.hist.accepted = none := by
    rw [← Option.not_isSome_iff_eq_none]
    intro hsome
    exact h.accepted hsome hnone
  exact {
    wellKept := hwell
    named := by
      intro row hrow row' hrow'
      rw [hcarriers, List.mem_singleton] at hrow hrow'
      rw [hrow, hrow']
    sender := h.sender
    unsent := h.unsent
    saved := fun m hm => ⟨Nat.lt_succ_of_lt (h.saved m hm).1, (h.saved m hm).2⟩
    own := by
      intro m hm hlanded row hrow heq
      rcases List.mem_append.mp hrow with hrow | hrow
      . exact h.own m hm hlanded row hrow heq
      . rw [List.mem_singleton.mp hrow] at heq
        exact absurd heq.symm (Nat.ne_of_lt (h.saved m hm).1)
    line := h.line.congr rfl rfl
    waiting := h.waiting
    reading := by simp [reading_of_carriers h hnone]
    reader := by simp [reading_of_carriers h hnone]
    found := by simp [hcarriers]
    reactions := by
      intro row hrow
      rw [hcarriers, List.mem_singleton] at hrow
      rw [hrow, written_of_found (h.found hnone)]
      exact hreactions
    accepted := by simp [haccepted]
    landed := h.landed
    payload := by simp [haccepted] }

end Table

section Line

variable {key : Text × Text} {w w' : SendWorld}

theorem relies_of_sender {tid i : Nat} (hne : tid ≠ i) (hsender : w.hist.sender = some i)
    (hsame : w'.hist.sender = w.hist.sender) (hline : w'.hist.line = w.hist.line)
    (hreading : w'.hist.reading = w.hist.reading) (hfound : w'.hist.found = w.hist.found)
    (hheld : w.hist.reading = some tid → ∀ row' ∈ carriers key w'.st,
      ∃ row ∈ carriers key w.st, row'.metadata = row.metadata) : Relies key tid w w' := by
  have hother : w.hist.sender ≠ some tid := by
    rw [hsender]
    exact fun heq => hne (Option.some.inj heq).symm
  exact {
    sender := by rw [hsame]
    saved := fun htid => absurd htid hother
    accepted := fun htid => absurd htid hother
    landed := fun htid => absurd htid hother
    line := fun n h => by rwa [hline]
    front := fun n h => by rwa [hline]
    reading := by rw [hreading]
    found := fun _ => hfound
    held := hheld }

theorem relies_of_front {tid i n : Nat} (h : Kept key w) (hne : tid ≠ i)
    (hfront : w.hist.line.head? = some ⟨i, n⟩) (hsender : w'.hist.sender = w.hist.sender)
    (hsaved : w'.hist.saved = w.hist.saved) (haccepted : w'.hist.accepted = w.hist.accepted)
    (hlanded : w'.hist.landed = w.hist.landed) (hreading : w'.hist.reading ≠ some tid)
    (hline : ∀ m, ⟨tid, m⟩ ∈ w.hist.line → ⟨tid, m⟩ ∈ w'.hist.line) : Relies key tid w w' := by
  have hnot : w.hist.reading ≠ some tid := fun htid => hne (reading_front h hfront htid)
  exact {
    sender := by rw [hsender]
    saved := fun _ => hsaved
    accepted := fun _ => haccepted
    landed := fun _ => hlanded
    line := hline
    front := by
      intro m hhead
      rw [hfront, Option.some.injEq, Waiter.mk.injEq] at hhead
      exact absurd hhead.1.symm hne
    reading := ⟨fun htid => absurd htid hreading, fun htid => absurd htid hnot⟩
    found := fun htid => absurd htid hnot
    held := fun htid => absurd htid hnot }

theorem kept_read {event : ReactionEvent} {i n : Nat} (h : Kept key w)
    (hsender : w.hist.sender ≠ some i) (hfront : w.hist.line.head? = some ⟨i, n⟩)
    (hreading : w.hist.reading ≠ some i) (hsome : carriers key w.st ≠ []) :
    Kept key ⟨w.st, { w.hist with found := w.hist.found ++ [event], reading := some i }, w.started⟩ := by
  have hnone : w.hist.reading = none := by
    rw [Option.eq_none_iff_forall_ne_some]
    intro tid htid
    exact hreading (reading_front h hfront htid ▸ htid)
  exact {
    wellKept := h.wellKept
    named := h.named
    sender := h.sender
    unsent := h.unsent
    saved := h.saved
    own := h.own
    line := h.line
    waiting := h.waiting
    reading := by
      intro tid htid
      cases htid
      exact ⟨hsome, n, hfront⟩
    reader := by
      intro tid htid
      cases htid
      exact hsender
    found := fun hnil => absurd hnil hsome
    reactions := by
      intro row hrow
      have hrow' := h.reactions row hrow
      simpa [written, hnone] using hrow'
    accepted := h.accepted
    landed := h.landed
    payload := h.payload }

theorem kept_react {event : ReactionEvent} {metadata : Option Metadata} {i : Nat} (h : Kept key w)
    (hreading : w.hist.reading = some i) (hfound : w.hist.found.getLast? = some event)
    (hread : ∀ row ∈ carriers key w.st, row.metadata = metadata) :
    Kept key ⟨w.st.updateRows (·.named key.1 key.2) fun row =>
      { row with metadata := some (reacted event metadata) },
      { w.hist with reading := none }, w.started⟩ := by
  have hcarriers : carriers key (w.st.updateRows (·.named key.1 key.2) fun row =>
      { row with metadata := some (reacted event metadata) }) = (carriers key w.st).map fun row =>
      { row with metadata := some (reacted event metadata) } :=
    carriers_updateRows fun _ => ⟨rfl, rfl⟩
  have hsome := (h.reading i hreading).1
  have hmap : carriers key (w.st.updateRows (·.named key.1 key.2) fun row =>
      { row with metadata := some (reacted event metadata) }) ≠ [] := by
    simpa [hcarriers] using hsome
  have hlast : w.hist.found = w.hist.found.dropLast ++ [event] :=
    (List.dropLast_append_getLast? event hfound).symm
  exact {
    wellKept := h.wellKept.updateRows fun _ _ => rfl
    named := by
      intro row hrow row' hrow'
      rw [hcarriers] at hrow hrow'
      rcases List.mem_map.mp hrow with ⟨old, hold, rfl⟩
      rcases List.mem_map.mp hrow' with ⟨old', hold', rfl⟩
      exact h.named old hold old' hold'
    sender := h.sender
    unsent := h.unsent
    saved := h.saved
    own := fun m hm hlanded => own_updateRows h (fun _ _ => rfl) hm hlanded
    line := h.line.congr rfl rfl
    waiting := h.waiting
    reading := by simp
    reader := by simp
    found := fun hnil => absurd hnil hmap
    reactions := by
      intro row hrow
      rw [hcarriers] at hrow
      rcases List.mem_map.mp hrow with ⟨old, hold, rfl⟩
      have hold' := h.reactions old hold
      rw [hread old hold] at hold'
      simp only [written, hreading, Option.isSome_some, if_true] at hold'
      change setReaction event (reactionsOf metadata) = applyAll w.hist.found
      rw [hold', hlast]
      simp [applyAll]
    accepted := fun _ => hmap
    landed := h.landed
    payload := by
      intro hlanded payload hpayload row hrow hpointer m hm
      rw [hcarriers] at hrow
      rcases List.mem_map.mp hrow with ⟨old, hold, rfl⟩
      have hold' := h.payload hlanded payload hpayload old hold hpointer m hm
      rw [hread old hold] at hold'
      cases metadata with
      | none => contradiction
      | some stored =>
        simp only [Option.map_some, Option.some.injEq] at hold' ⊢
        exact hold' }

theorem kept_settle {i n : Nat} (h : Kept key w) (hfront : w.hist.line.head? = some ⟨i, n⟩)
    (hreading : w.hist.reading ≠ some i) :
    Kept key ⟨{ w.st with mutations := w.st.mutations.filter (· ≠ (key, n)) },
      { w.hist with line := w.hist.line.filter (·.n ≠ n) }, w.started⟩ := by
  have hnone : w.hist.reading = none := by
    rw [Option.eq_none_iff_forall_ne_some]
    intro tid htid
    exact hreading (reading_front h hfront htid ▸ htid)
  exact {
    wellKept := h.wellKept.congr rfl rfl
    named := h.named
    sender := h.sender
    unsent := h.unsent
    saved := h.saved
    own := h.own
    line := lined_settle n h.line rfl rfl
    waiting := fun waiter hwaiter => h.waiting waiter (List.mem_of_mem_filter hwaiter)
    reading := by simp [hnone]
    reader := by simp [hnone]
    found := h.found
    reactions := h.reactions
    accepted := h.accepted
    landed := h.landed
    payload := h.payload }

theorem kept_enqueue (h : Kept key w) :
    Kept key ⟨{ w.st with
      mutations := w.st.mutations ++ [(key, w.st.nextMutation)]
      nextMutation := w.st.nextMutation + 1 },
      { w.hist with line := w.hist.line ++ [⟨w.started, w.st.nextMutation⟩] }, w.started + 1⟩ where
  wellKept := h.wellKept.congr rfl rfl
  named := h.named
  sender tid htid := Nat.lt_succ_of_lt (h.sender tid htid)
  unsent := h.unsent
  saved := h.saved
  own := h.own
  line := lined_enqueue w.started h.line rfl rfl
  waiting waiter hwaiter := by
    rcases List.mem_append.mp hwaiter with hwaiter | hwaiter
    . exact Nat.lt_succ_of_lt (h.waiting waiter hwaiter)
    . rw [List.mem_singleton.mp hwaiter]
      exact Nat.lt_succ_self _
  reading tid htid := by
    rcases h.reading tid htid with ⟨hsome, n, hfront⟩
    exact ⟨hsome, n, front_append hfront _⟩
  reader := h.reader
  found := h.found
  reactions := h.reactions
  accepted := h.accepted
  landed := h.landed
  payload := h.payload

end Line

section Turns

variable {host : Host} {key : Text × Text} {i : Nat} {w : SendWorld}

/-- The places whose turns the history may note, or that change the table. -/
def noted (place : Place) : Bool :=
  match place with
  | .save _ | .saveSent _ | .merge .. | .findReacted .. | .react .. | .settleMutation .. => true
  | _ => false

theorem note_of_not_noted {place : Place} {x : Answer} (hplace : noted place = false) (s s' : Store)
    (h : History) : noteSend key (.turn i place x) s s' h = h := by
  unfold noteSend
  split <;> first | rfl | (next heq => cases heq <;> contradiction)

theorem safe_quiet {α : Type} {place : Place} {ready : Answer → Store → Bool}
    {f : Answer → Store → Store × Except Failure α} {Q : α → Prop} (hplace : noted place = false)
    (hf : ∀ x s, (f x s).1 = s)
    (hresult : ∀ x s, ready x s = true → Place.admits key.2 place x = true →
      ∃ a, (f x s).2 = .ok a ∧ Q a) :
    (outline key host).Safe i (.await place ready f) w (fun a w' => Relies key i w w' ∧ Q a)
      (fun _ _ => False) := by
  apply Outline.safe_await
  intro w' x hrely hinv _ hready hok
  have hnote : noteSend key (.turn i place x) w'.st (f x w'.st).1 w'.hist = w'.hist :=
    note_of_not_noted hplace _ _ _
  have hsame : (f x w'.st).1 = w'.st := hf x w'.st
  rcases hresult x w'.st hready hok.1 with ⟨a, hresult, hQ⟩
  have hquiet (j : Nat) : Relies key j w'
      ((sendSystem host key).after w' (.turn i place x) (f x w'.st).1) :=
    relies_quiet j hnote (congrArg Store.messages hsame)
  refine ⟨⟨trivial, ?_, fun j _ _ => hquiet j⟩, ?_⟩
  . exact hinv.quiet hnote (congrArg Store.messages hsame) (congrArg Store.nextId hsame)
      (congrArg Store.mutations hsame) (congrArg Store.nextMutation hsame) (Nat.le_refl _)
  . rw [hresult]
    exact ⟨relies_trans _ _ _ _ hrely (hquiet i), hQ⟩

/-- The places of repository calls and of turns in memory. -/
def plain (place : Place) : Bool :=
  match place with
  | .engineSend _ | .hook => false
  | _ => true

theorem not_fault {place : Place} {x : Answer} (hplain : plain place = true)
    (h : Place.admits key.2 place x = true) : x ≠ .fault := by
  unfold Place.admits at h
  split at h
  . contradiction
  . contradiction
  . exact of_decide_eq_true h

theorem safe_read {α : Type} {place : Place} {f : Store → α} (hplace : noted place = false)
    (hplain : plain place = true) :
    (outline key host).Safe i (call place fun s => (s, .ok (f s))) w (fun _ w' => Relies key i w w')
      (fun _ _ => False) := by
  have hquiet : (outline key host).Safe i (call place fun s => (s, .ok (f s))) w
      (fun _ w' => Relies key i w w' ∧ True) (fun _ _ => False) := by
    apply safe_quiet hplace
    . intro x s
      split <;> rfl
    . intro x s _ hadmits
      rw [if_neg (not_fault hplain hadmits)]
      exact ⟨f s, rfl, trivial⟩
  exact hquiet.mono (fun _ _ h => h.1) fun _ _ h => h

theorem safe_resolveQuotedBody (sessionId id : Text) :
    (outline key host).Safe i (resolveQuotedBody sessionId id) w (fun _ w' => Relies key i w w')
      (fun _ _ => False) := by
  apply Outline.Safe.catch'
  apply (safe_read rfl rfl).mono
  . intro _ _ h
    exact h
  . intro _ _ h
    exact h.elim

/-- The activation is the send; its row is saved and its state has not landed. -/
structure Sending (i : Nat) (message : Message) (w : SendWorld) : Prop where
  sender : w.hist.sender = some i
  saved : w.hist.saved = some message
  landed : w.hist.landed = none

theorem Sending.later {message : Message} {w' : SendWorld} (h : Sending i message w)
    (hrely : Relies key i w w') : Sending i message w' where
  sender := hrely.sender.mpr h.sender
  saved := (hrely.saved h.sender).trans h.saved
  landed := (hrely.landed h.sender).trans h.landed

theorem carriers_append {s : Store} {row : Message} (h : row.waMessageId = none) :
    ∀ row' ∈ carriers key { s with messages := s.messages ++ [row], nextId := s.nextId + 1 },
      row' ∈ carriers key s := by
  intro row' hrow
  rcases mem_carriers.mp hrow with ⟨hrow, hnamed⟩
  rcases List.mem_append.mp hrow with hrow | hrow
  . exact mem_carriers.mpr ⟨hrow, hnamed⟩
  . rw [List.mem_singleton.mp hrow, unnamed h] at hnamed
    contradiction

theorem safe_saveOutgoingRow {fields : MessageFields} (hnone : fields.waMessageId = none)
    (hsender : w.hist.sender = some i) (hlanded : w.hist.landed = none) :
    (outline key host).Safe i (saveOutgoingRow fields) w
      (fun message w' => Sending i message w' ∧ message.sessionId = fields.sessionId ∧
        message.metadata = fields.metadata) (fun _ _ => False) := by
  unfold saveOutgoingRow
  apply Outline.Safe.catch'
  apply Outline.safe_await
  intro w' x hrely hinv _ hready hok
  have hfault : x ≠ .fault := not_fault rfl hok.1
  have hx : x = .ok := by
    simpa [hfault] using hready
  subst hx
  have hrefuses : w'.st.refuses none fields = false := by
    simp [Store.refuses, hnone]
  have hsender' := hrely.sender.mpr hsender
  dsimp only
  rw [if_neg hfault, insertRow_of_not_refused hrefuses]
  have hlanded' := (hrely.landed hsender).trans hlanded
  refine ⟨⟨trivial, kept_save hinv hnone hsender', ?_⟩, ⟨hsender', rfl, hlanded'⟩, rfl, rfl⟩
  intro j _ hne
  refine relies_of_sender hne hsender' ?_ ?_ ?_ ?_ ?_
  any_goals rfl
  intro _ row hrow
  exact ⟨row, carriers_append hnone row hrow, rfl⟩

theorem safe_saveOutgoingMessage {data : SaveOutgoingMessageData} (hnone : data.waMessageId = none)
    (hreactions : reactionsOf data.metadata = []) (hsender : w.hist.sender = some i)
    (hlanded : w.hist.landed = none) :
    (outline key host).Safe i (saveOutgoingMessage host key.1 data) w
      (fun message w' => Sending i message w' ∧ message.sessionId = key.1 ∧
        reactionsOf message.metadata = []) (fun _ _ => False) := by
  have hrow (quotedMessage : Option QuotedMessage) (w' : SendWorld) (hrely : Relies key i w w') :
      (outline key host).Safe i (saveOutgoingRow (outgoingFields host key.1 data quotedMessage)) w'
        (fun message w'' => Sending i message w'' ∧ message.sessionId = key.1 ∧
          reactionsOf message.metadata = []) (fun _ _ => False) := by
    have hfields : (outgoingFields host key.1 data quotedMessage).waMessageId = none := by
      simp [outgoingFields, hnone]
    apply (safe_saveOutgoingRow hfields (hrely.sender.mpr hsender)
      ((hrely.landed hsender).trans hlanded)).mono
    . rintro message w'' ⟨hsending, hsession, hmetadata⟩
      refine ⟨hsending, hsession, ?_⟩
      rw [hmetadata]
      cases quotedMessage with
      | none => exact hreactions
      | some quoted =>
        cases hdata : data.metadata with
        | none => simp [outgoingFields, reactionsOf, hdata, Metadata.empty]
        | some metadata =>
          rw [hdata] at hreactions
          simpa [outgoingFields, reactionsOf, hdata] using hreactions
    . intro _ _ h
      exact h
  unfold saveOutgoingMessage
  apply Outline.Safe.seq (safe_read rfl rfl)
  . intro _ w' hrely
    split
    . apply Outline.Safe.seq (safe_resolveQuotedBody _ _)
      . intro body w'' hrely'
        exact hrow _ w'' (relies_trans _ _ _ _ hrely hrely')
      . intro _ _ h
        exact h
    . exact hrow _ w' hrely
  . intro _ _ h
    exact h

end Turns

section Send

variable {host : Host} {key : Text × Text} {i : Nat} {w : SendWorld}

/-- The entity of an accepted send beside the row it saved. -/
structure Entity (key : Text × Text) (entity message : Message) : Prop where
  id : entity.id = message.id
  sessionId : entity.sessionId = key.1
  waMessageId : entity.waMessageId = some key.2
  metadata : entity.metadata = none → message.metadata = none
  reactions : reactionsOf entity.metadata = []

/-- The send was accepted, and the row of the echo had its id first. -/
structure Merging (i : Nat) (payload : Option Metadata) (message : Message) (w : SendWorld) : Prop where
  sending : Sending i message w
  accepted : w.hist.accepted = some payload

theorem Merging.later {payload : Option Metadata} {message : Message} {w' : SendWorld}
    (h : Merging i payload message w) (hrely : Relies key i w w') : Merging i payload message w' where
  sending := h.sending.later hrely
  accepted := (hrely.accepted h.sending.sender).trans h.accepted

theorem safe_saveSent {entity message : Message} (hsending : Sending i message w)
    (hentity : Entity key entity message) :
    (outline key host).Safe i (call (.saveSent entity) fun s => s.saveRow entity) w
      (fun _ w' => w'.hist.sender = some i ∧ w'.hist.landed.isSome = true)
      (fun err w' => err = .uniqueViolation ∧ Merging i entity.metadata message w') := by
  apply Outline.safe_await
  intro w' x hrely hinv _ hready hok
  have hfault : x ≠ .fault := not_fault rfl hok.1
  have hx : x = .ok := by
    simpa [hfault] using hready
  subst hx
  rcases hsending.later hrely with ⟨hsender, hsaved, hlanded⟩
  dsimp only
  rw [if_neg hfault]
  by_cases hrefuses : w'.st.refuses (some entity.id) entity.toMessageFields = true
  . have hsave : w'.st.saveRow entity = (w'.st, .error .uniqueViolation) := by
      rw [Store.saveRow, if_pos hrefuses]
    have hafter : (sendSystem host key).after w' (.turn i (.saveSent entity) .ok) w'.st =
        ⟨w'.st, { w'.hist with accepted := some entity.metadata }, w'.started⟩ := by
      simp [System.after, sendSystem, noteSend, hrefuses]
    rw [hsave]
    refine ⟨⟨trivial, ?_, ?_⟩, ?_⟩
    . rw [hafter]
      exact kept_refused hinv hentity.sessionId hentity.waMessageId hrefuses hsender hlanded
    . intro j _ hne
      rw [hafter]
      exact relies_of_sender hne hsender rfl rfl rfl rfl fun _ row hrow => ⟨row, hrow, rfl⟩
    . rw [hafter]
      exact ⟨rfl, ⟨hsender, hsaved, hlanded⟩, rfl⟩
  . have hrefused := Bool.eq_false_iff.mpr hrefuses
    have hafter : (sendSystem host key).after w' (.turn i (.saveSent entity) .ok)
        (w'.st.saveRow entity).1 = ⟨(w'.st.saveRow entity).1,
          { w'.hist with accepted := some entity.metadata, landed := some .saved }, w'.started⟩ := by
      simp [System.after, sendSystem, noteSend, hrefused]
    rcases kept_saved hinv hentity.sessionId hentity.waMessageId hrefused hsender hsaved hlanded
      hentity.id hentity.metadata hentity.reactions with ⟨hnone, hkept⟩
    refine ⟨⟨trivial, ?_, ?_⟩, ?_⟩
    . rw [hafter]
      exact hkept
    . intro j _ hne
      rw [hafter]
      refine relies_of_sender hne hsender rfl rfl rfl rfl ?_
      intro hreading
      rw [reading_of_carriers hinv hnone] at hreading
      contradiction
    . rw [hafter]
      have hresult : (w'.st.saveRow entity).2 = .ok () := by
        rw [Store.saveRow, hrefused, if_neg (by decide)]
        split <;> rfl
      rw [hresult]
      exact ⟨hsender, rfl⟩

theorem safe_merge {payload : Option Metadata} {message : Message} {timestamp : Option Nat}
    (h : Merging i payload message w) (hreactions : reactionsOf payload = []) :
    (outline key host).Safe i (merge key.1 key.2 timestamp payload) w
      (fun _ w' => w'.hist.saved = some message ∧ w'.hist.landed = some .merged ∧
        w'.hist.sender = some i) (fun _ _ => False) := by
  apply Outline.safe_await
  intro w' x hrely hinv _ hready hok
  have hfault : x ≠ .fault := not_fault rfl hok.1
  have hx : x = .ok := by
    simpa [hfault] using hready
  subst hx
  rcases h.later hrely with ⟨⟨hsender, hsaved, hlanded⟩, haccepted⟩
  have hundisturbed : isUrlPointerMetadata payload = false → payload.isSome = true →
      w'.hist.reading = none ∧ ∀ row ∈ carriers key w'.st, reactionsOf row.metadata = [] := by
    intro hpointer hsome
    apply hok.2
    simp [replaced?, hpointer, hsome]
  dsimp only
  rw [if_neg hfault]
  refine ⟨⟨trivial, ?_, ?_⟩, ⟨hsaved, rfl, hsender⟩⟩
  . exact kept_merge hinv hsender haccepted hlanded hreactions hundisturbed
  . intro j _ hne
    refine relies_of_sender hne hsender ?_ ?_ ?_ ?_ ?_
    any_goals rfl
    intro hreading row hrow
    change row ∈ carriers key (w'.st.updateRows (·.named key.1 key.2) (mergePatch timestamp payload)) at hrow
    rw [carriers_updateRows (f := mergePatch timestamp payload) fun _ => ⟨rfl, rfl⟩] at hrow
    rcases List.mem_map.mp hrow with ⟨old, hold, rfl⟩
    refine ⟨old, hold, ?_⟩
    simp only [mergePatch]
    by_cases hpointer : isUrlPointerMetadata payload = true
    . rw [if_pos hpointer]
    . rw [if_neg hpointer]
      cases payload with
      | none => rfl
      | some metadata =>
        rw [(hundisturbed (Bool.eq_false_iff.mpr hpointer) rfl).1] at hreading
        contradiction

theorem safe_deleteRow {message : Message} (hsender : w.hist.sender = some i)
    (hsaved : w.hist.saved = some message) (hlanded : w.hist.landed = some .merged) :
    (outline key host).Safe i (call (.deleteRow message.id) fun s => (s.deleteRow message.id, .ok ())) w
      (fun _ w' => w'.hist.sender = some i ∧ w'.hist.landed.isSome = true) (fun _ _ => False) := by
  apply Outline.safe_await
  intro w' x hrely hinv _ hready hok
  have hfault : x ≠ .fault := not_fault rfl hok.1
  have hsender' := hrely.sender.mpr hsender
  have hlanded' := (hrely.landed hsender).trans hlanded
  rcases kept_delete hinv ((hrely.saved hsender).trans hsaved) hlanded' with ⟨hcarriers, hkept⟩
  dsimp only
  rw [if_neg hfault]
  refine ⟨⟨trivial, hkept, ?_⟩, hsender', ?_⟩
  . intro j _ hne
    refine relies_of_sender hne hsender' ?_ ?_ ?_ ?_ ?_
    any_goals rfl
    intro _ row hrow
    exact ⟨row, hcarriers ▸ hrow, rfl⟩
  . change w'.hist.landed.isSome = true
    rw [hlanded']
    rfl

theorem safe_mergeSentState {entity message : Message} {result : MessageResult}
    (h : Merging i entity.metadata message w) (hentity : Entity key entity message)
    (hid : result.id = key.2) :
    (outline key host).Safe i (mergeSentState entity result) w
      (fun _ w' => w'.hist.sender = some i ∧ w'.hist.landed.isSome = true) (fun _ _ => False) := by
  unfold mergeSentState
  rw [hentity.sessionId, hid, hentity.id]
  apply Outline.Safe.seq (Q := fun _ w' => w'.hist.saved = some message ∧
    w'.hist.landed = some .merged ∧ w'.hist.sender = some i) (E := fun _ _ => False)
  . apply Outline.Safe.catch'
    exact (safe_merge h hentity.reactions).mono (fun _ _ h => h) fun _ _ h => h.elim
  . rintro _ w₁ ⟨hsaved, hlanded, hsender⟩
    apply Outline.Safe.seq (Q := fun _ w' => w'.hist.sender = some i ∧
      w'.hist.landed.isSome = true) (E := fun _ _ => False)
    . apply Outline.Safe.catch'
      exact (safe_deleteRow hsender hsaved hlanded).mono (fun _ _ h => h) fun _ _ h => h.elim
    . rintro _ w₂ ⟨hsender', hlanded'⟩
      apply Outline.Safe.seq (Q := fun _ w' => w'.hist.sender = some i ∧ w'.hist.landed.isSome = true)
        (E := fun _ _ => False)
      . apply Outline.Safe.catch'
        apply (safe_read rfl rfl).mono
        . intro _ w₃ hrely
          refine ⟨hrely.sender.mpr hsender', ?_⟩
          rw [hrely.landed hsender']
          exact hlanded'
        . intro _ _ h
          exact h.elim
      . intro _ _ hdone
        exact hdone
      . intro _ _ h
        exact h
    . intro _ _ h
      exact h
  . intro _ _ h
    exact h

theorem safe_persistSentState {message saved : Message} {result : MessageResult}
    (hsending : Sending i saved w) (hentity : Entity key (sentEntity message result) saved)
    (hid : result.id = key.2) (hkey : key.2 ≠ []) :
    (outline key host).Safe i (persistSentState message result) w
      (fun _ w' => w'.hist.sender = some i ∧ w'.hist.landed.isSome = true) (fun _ _ => False) := by
  have hnonempty : result.id.isEmpty = false := by
    simp [hid, hkey]
  unfold persistSentState
  apply Outline.Safe.catch'
  apply (safe_saveSent hsending hentity).mono
  . intro _ _ h
    exact h
  . rintro err w' ⟨rfl, hmerging⟩
    rw [hnonempty]
    exact safe_mergeSentState hmerging hentity hid

theorem relabel_columns (req : SendRequest) (result : MessageResult) (message : Message) :
    (req.relabel result message).id = message.id ∧
    (req.relabel result message).sessionId = message.sessionId ∧
    (req.relabel result message).waMessageId = message.waMessageId ∧
    ((req.relabel result message).metadata = none → message.metadata = none) ∧
    reactionsOf (req.relabel result message).metadata = reactionsOf message.metadata := by
  unfold SendRequest.relabel
  split
  . refine ⟨rfl, rfl, rfl, fun h => by contradiction, ?_⟩
    cases h : message.metadata <;> simp [reactionsOf, Metadata.empty]
  . exact ⟨rfl, rfl, rfl, fun h => h, rfl⟩

theorem reactionsOf_request (req : SendRequest) : reactionsOf req.metadata = [] := by
  unfold SendRequest.metadata
  dsimp only
  split <;> rfl

theorem safe_send (req : SendRequest) (hkey : key.2 ≠ []) (hsender : w.hist.sender = some i)
    (hlanded : w.hist.landed = none) :
    (outline key host).Safe i (send host key.1 req) w
      (fun _ w' => w'.hist.sender = some i ∧ w'.hist.landed.isSome = true) (fun _ _ => False) := by
  unfold send
  apply Outline.Safe.seq (safe_saveOutgoingMessage rfl (reactionsOf_request req) hsender hlanded)
  . rintro message w₁ ⟨hsending, hsession, hreactions⟩
    have hengine : (outline key host).Safe i (engineSend message.id) w₁
        (fun result w' => Relies key i w₁ w' ∧ result.id = key.2) (fun _ _ => False) := by
      apply safe_quiet rfl
      . intro x s
        split <;> rfl
      . intro x s _ hadmits
        simp only [Place.admits, Option.any_eq_true, decide_eq_true_eq] at hadmits
        rcases hadmits with ⟨result, hresult, hid⟩
        exact ⟨result, by rw [hresult], hid⟩
    have hsent : (outline key host).Safe i (((engineSend message.id).bind fun result =>
        pure (some result)).catch' fun _ => (saveFailedMessage message).bind fun _ => pure none) w₁
        (fun sent w' => Relies key i w₁ w' ∧ ∃ result, sent = some result ∧ result.id = key.2)
        (fun _ _ => False) := by
      apply Outline.Safe.catch'
      apply Outline.Safe.bind
      apply hengine.mono
      . rintro result w' ⟨hrely, hid⟩
        exact ⟨hrely, result, rfl, hid⟩
      . intro _ _ h
        exact h.elim
    apply Outline.Safe.seq hsent
    . rintro _ w' ⟨hrely, result, rfl, hid⟩
      rcases relabel_columns req result message with ⟨hrow, hrelabelled, hwa, hmetadata, hsame⟩
      have hentity : Entity key (sentEntity (req.relabel result message) result) message := by
        refine ⟨hrow, hrelabelled.trans hsession, ?_, hmetadata, hsame.trans hreactions⟩
        simp [sentEntity, storableWaMessageId, hid, hkey]
      exact safe_persistSentState (hsending.later hrely) hentity hid hkey
    . intro _ _ h
      exact h
  . intro _ _ h
    exact h

end Send

section Others

variable {host : Host} {key : Text × Text} {i : Nat} {w : SendWorld}

theorem safe_insertMessage {fields : MessageFields} (hsession : fields.sessionId = key.1)
    (hid : fields.waMessageId = some key.2) (hreactions : reactionsOf fields.metadata = []) :
    (outline key host).Safe i (insertMessage fields) w (fun _ w' => Relies key i w w')
      (fun _ _ => False) := by
  have hinsert : (outline key host).Safe i (call (.insert fields) fun s => s.insertRow fields) w
      (fun _ w' => Relies key i w w') (fun _ w' => Relies key i w w') := by
    apply Outline.safe_await
    intro w' x hrely hinv _ hready hok
    have hfault : x ≠ .fault := not_fault rfl hok.1
    dsimp only
    rw [if_neg hfault]
    by_cases hrefuses : w'.st.refuses none fields = true
    . have hinsert : w'.st.insertRow fields = (w'.st, .error .uniqueViolation) := by
        rw [Store.insertRow, if_pos hrefuses]
      have hquiet (j : Nat) : Relies key j w'
          ((sendSystem host key).after w' (.turn i (.insert fields) x) w'.st) :=
        relies_quiet j rfl rfl
      rw [hinsert]
      refine ⟨⟨trivial, ?_, fun j _ _ => hquiet j⟩, relies_trans _ _ _ _ hrely (hquiet i)⟩
      exact hinv.quiet rfl rfl rfl rfl rfl (Nat.le_refl _)
    . have hnone : carriers key w'.st = [] := by
        rw [List.eq_nil_iff_forall_not_mem]
        intro row hrow
        exact hrefuses ((refuses_iff hsession hid).mpr ⟨row, hrow, by simp⟩)
      have hfirst (j : Nat) : Relies key j w' ((sendSystem host key).after w' (.turn i (.insert fields) x)
          { w'.st with messages := w'.st.messages ++ [newRow w'.st fields], nextId := w'.st.nextId + 1 }) := by
        refine relies_of_hist j rfl ?_
        intro hreading
        rw [reading_of_carriers hinv hnone] at hreading
        contradiction
      rw [insertRow_of_not_refused (Bool.eq_false_iff.mpr hrefuses)]
      exact ⟨⟨trivial, kept_insert hinv hsession hid hreactions hnone, fun j _ _ => hfirst j⟩,
        relies_trans _ _ _ _ hrely (hfirst i)⟩
  apply Outline.Safe.catch'
  apply Outline.Safe.bind
  apply hinsert.mono
  . intro _ _ hrely
    exact hrely
  . intro _ _ hrely
    exact hrely

theorem reactionsOf_build (message : IncomingMessage) (synthesize : Bool) :
    reactionsOf (buildMessageMetadata message synthesize) = [] := by
  unfold buildMessageMetadata
  extract_lets media metadata
  split <;> rfl

theorem safe_handleOwnSendEcho {engine : Nat} {message : IncomingMessage} {s : Store}
    (hkey : key.2 ≠ []) :
    (outline key host).Safe i (handleOwnSendEcho host key.1 engine message s) w
      (fun _ w' => Relies key i w w') (fun _ _ => False) := by
  unfold handleOwnSendEcho
  split
  . have hhook : (outline key host).Safe i (hook key.1 engine message) w
        (fun final w' => Relies key i w w' ∧ final.1.id = key.2) (fun _ _ => False) := by
      apply safe_quiet rfl
      . intro x s
        rfl
      . intro x s _ hadmits
        simp only [Place.admits, Option.any_eq_true, decide_eq_true_eq] at hadmits
        rcases hadmits with ⟨final, hfinal, hid⟩
        exact ⟨_, rfl, by simp [hfinal, hid]⟩
    apply Outline.Safe.seq hhook
    . rintro ⟨final, live⟩ w' ⟨hrely, hid⟩
      dsimp only
      split
      . have hfields : (echoFields key.1 final).waMessageId = some key.2 := by
          simp only at hid
          simp [echoFields, storedFields, storableWaMessageId, hid, hkey]
        apply (safe_insertMessage rfl hfields (reactionsOf_build _ _)).mono
        . intro _ _ hrely'
          exact relies_trans _ _ _ _ hrely hrely'
        . intro _ _ h
          exact h
      . exact hrely
    . intro _ _ h
      exact h
  . exact relies_refl _ _

/-- The activation is at the front of the line and not between a read and its write. -/
structure AtFront (i n : Nat) (w : SendWorld) : Prop where
  sender : w.hist.sender ≠ some i
  front : w.hist.line.head? = some ⟨i, n⟩
  reading : w.hist.reading ≠ some i

theorem AtFront.later {n : Nat} {w' : SendWorld} (h : AtFront i n w) (hrely : Relies key i w w') :
    AtFront i n w' where
  sender := fun hsender => h.sender (hrely.sender.mp hsender)
  front := hrely.front n h.front
  reading := fun hreading => h.reading (hrely.reading.mp hreading)

/-- The activation has read the metadata of the row and not written yet. -/
structure HasRead (i n : Nat) (event : ReactionEvent) (metadata : Option Metadata) (key : Text × Text)
    (w : SendWorld) : Prop where
  sender : w.hist.sender ≠ some i
  front : w.hist.line.head? = some ⟨i, n⟩
  reading : w.hist.reading = some i
  found : w.hist.found.getLast? = some event
  held : ∀ row ∈ carriers key w.st, row.metadata = metadata

theorem HasRead.later {n : Nat} {event : ReactionEvent} {metadata : Option Metadata} {w' : SendWorld}
    (h : HasRead i n event metadata key w) (hrely : Relies key i w w') :
    HasRead i n event metadata key w' where
  sender := fun hsender => h.sender (hrely.sender.mp hsender)
  front := hrely.front n h.front
  reading := hrely.reading.mpr h.reading
  found := by rw [hrely.found h.reading]; exact h.found
  held := by
    intro row' hrow'
    rcases hrely.held h.reading row' hrow' with ⟨row, hrow, heq⟩
    exact heq.trans (h.held row hrow)

theorem safe_findReacted {n : Nat} {event : ReactionEvent} (h : AtFront i n w)
    (hid : event.messageId = key.2) :
    (outline key host).Safe i (call (.findReacted key.1 event) fun s =>
      (s, .ok (s.rowOf key.1 event.messageId))) w
      (fun msg w' => match msg with
        | some msg => HasRead i n event msg.metadata key w'
        | none => AtFront i n w') (fun _ _ => False) := by
  apply Outline.safe_await
  intro w' x hrely hinv _ hready hok
  have hfault : x ≠ .fault := not_fault rfl hok.1
  have hx : x = .ok := by
    simpa [hfault] using hready
  subst hx
  have h' := h.later hrely
  dsimp only
  rw [if_neg hfault, hid]
  cases hrow : w'.st.rowOf key.1 key.2 with
  | none =>
    have hafter : (sendSystem host key).after w' (.turn i (.findReacted key.1 event) .ok) w'.st = w' := by
      simp [System.after, sendSystem, noteSend, hrow]
    refine ⟨⟨trivial, ?_, ?_⟩, ?_⟩
    . rw [hafter]
      exact hinv
    . intro j _ _
      rw [hafter]
      exact relies_refl j w'
    . rw [hafter]
      exact h'
  | some row =>
    have hmem := carriers_of_rowOf hrow
    have hafter : (sendSystem host key).after w' (.turn i (.findReacted key.1 event) .ok) w'.st =
        ⟨w'.st, { w'.hist with found := w'.hist.found ++ [event], reading := some i }, w'.started⟩ := by
      simp [System.after, sendSystem, noteSend, hrow]
    refine ⟨⟨trivial, ?_, ?_⟩, ?_⟩
    . rw [hafter]
      exact kept_read hinv h'.sender h'.front h'.reading (List.ne_nil_of_mem hmem)
    . intro j _ hne
      rw [hafter]
      refine relies_of_front hinv hne h'.front rfl rfl rfl rfl ?_ fun _ hline => hline
      intro heq
      exact hne (Option.some.inj heq).symm
    . rw [hafter]
      refine ⟨h'.sender, h'.front, rfl, by simp, ?_⟩
      intro row' hrow'
      have hsame : row' = row :=
        row_unique hinv.wellKept (mem_carriers.mp hrow').1 (mem_carriers.mp hmem).1
          (hinv.named row' hrow' row hmem)
      rw [hsame]

theorem safe_react {n : Nat} {event : ReactionEvent} {metadata : Option Metadata}
    (h : HasRead i n event metadata key w) :
    (outline key host).Safe i (call (.react key.1 key.2 (reacted event metadata)) fun s =>
      (s.updateRows (·.named key.1 key.2) fun row =>
        { row with metadata := some (reacted event metadata) }, .ok ())) w
      (fun _ w' => AtFront i n w') (fun _ _ => False) := by
  apply Outline.safe_await
  intro w' x hrely hinv _ hready hok
  have hfault : x ≠ .fault := not_fault rfl hok.1
  have hx : x = .ok := by
    simpa [hfault] using hready
  subst hx
  have h' := h.later hrely
  dsimp only
  rw [if_neg hfault]
  refine ⟨⟨trivial, kept_react hinv h'.reading h'.found h'.held, ?_⟩, h'.sender, h'.front, ?_⟩
  . intro j _ hne
    refine relies_of_front hinv hne h'.front ?_ ?_ ?_ ?_ ?_ ?_
    any_goals rfl
    . exact (Option.some_ne_none j).symm
    . exact fun _ hline => hline
  . exact (Option.some_ne_none i).symm

theorem safe_applyReaction {n : Nat} {event : ReactionEvent} (h : AtFront i n w)
    (hid : event.messageId = key.2) (hkey : key.2 ≠ []) :
    (outline key host).Safe i (applyReaction key.1 event) w (fun _ w' => AtFront i n w')
      (fun _ _ => False) := by
  have hnonempty : event.messageId.isEmpty = false := by
    simp [hid, hkey]
  unfold applyReaction
  rw [hnonempty]
  apply Outline.Safe.seq (safe_findReacted h hid)
  . intro msg w' hread
    cases msg with
    | none => exact hread
    | some msg =>
      dsimp only
      rw [hid]
      exact safe_react hread
  . intro _ _ h
    exact h

theorem safe_start {n : Nat} (hline : ⟨i, n⟩ ∈ w.hist.line) (hsender : w.hist.sender ≠ some i)
    (hreading : w.hist.reading ≠ some i) :
    (outline key host).Safe i (.await (.startMutation key n)
      (fun x s => x = .ok && s.mutations.find? (·.1 = key) = some (key, n)) fun _ s => (s, .ok ())) w
      (fun _ w' => AtFront i n w') (fun _ _ => False) := by
  apply Outline.safe_await
  intro w' x hrely hinv _ hready hok
  simp only [Bool.and_eq_true, decide_eq_true_eq] at hready
  have hquiet (j : Nat) : Relies key j w'
      ((sendSystem host key).after w' (.turn i (.startMutation key n) x) w'.st) :=
    relies_quiet j rfl rfl
  refine ⟨⟨trivial, hinv.quiet rfl rfl rfl rfl rfl (Nat.le_refl _), fun j _ _ => hquiet j⟩, ?_, ?_, ?_⟩
  . exact fun h => hsender (hrely.sender.mp h)
  . exact front_of_start hinv.line (hrely.line n hline) hready.2
  . exact fun h => hreading (hrely.reading.mp h)

theorem safe_settle {n : Nat} (h : AtFront i n w) :
    (outline key host).Safe i (local' (.settleMutation key n) fun s =>
      ({ s with mutations := s.mutations.filter (· ≠ (key, n)) }, ())) w
      (fun _ w' => w'.hist.sender ≠ some i ∧ w'.hist.reading ≠ some i) (fun _ _ => False) := by
  apply Outline.safe_await
  intro w' x hrely hinv _ _ _
  have h' := h.later hrely
  refine ⟨⟨trivial, kept_settle hinv h'.front h'.reading, ?_⟩, h'.sender, h'.reading⟩
  intro j _ hne
  refine relies_of_front hinv hne h'.front ?_ ?_ ?_ ?_ ?_ ?_
  any_goals rfl
  . exact fun hreading => hne (reading_front hinv h'.front hreading)
  . intro m hmem
    refine List.mem_filter.mpr ⟨hmem, ?_⟩
    simp only [decide_eq_true_eq]
    intro heq
    have hfront := List.mem_of_head? h'.front
    have hsame := List.inj_on_of_nodup_map hinv.line.distinct hmem hfront heq
    exact hne (congrArg Waiter.tid hsame)

theorem safe_mutation {n : Nat} {event : ReactionEvent} (hline : ⟨i, n⟩ ∈ w.hist.line)
    (hsender : w.hist.sender ≠ some i) (hreading : w.hist.reading ≠ some i)
    (hid : event.messageId = key.2) (hkey : key.2 ≠ []) :
    (outline key host).Safe i (mutation key n (applyReaction key.1 event)) w
      (fun _ w' => w'.hist.sender ≠ some i ∧ w'.hist.reading ≠ some i) (fun _ _ => False) := by
  unfold mutation
  apply Outline.Safe.seq (safe_start hline hsender hreading)
  . intro _ w₁ hfront
    apply Outline.Safe.seq (Q := fun _ w' => AtFront i n w') (E := fun _ _ => False)
    . apply Outline.Safe.catch'
      exact (safe_applyReaction hfront hid hkey).mono (fun _ _ h => h) fun _ _ h => h.elim
    . intro _ w₂ hfront'
      exact safe_settle hfront'
    . intro _ _ h
      exact h
  . intro _ _ h
    exact h

end Others

section Runs

variable {host : Host} {key : Text × Text}

theorem keeps_event (host : Host) {w : SendWorld} (v : SendEvent) (hinv : Kept key w)
    (hnote : noteSend key (.event w.started v) w.st w.st w.hist = w.hist) :
    (outline key host).Keeps w.started w (.event w.started v) w.st ∧
    Relies key w.started w ((sendSystem host key).after w (.event w.started v) w.st) := by
  have hquiet (j : Nat) : Relies key j w
      ((sendSystem host key).after w (.event w.started v) w.st) :=
    relies_quiet j hnote rfl
  exact ⟨⟨trivial, hinv.quiet hnote rfl rfl rfl rfl (Nat.le_succ _), fun j _ _ => hquiet j⟩,
    hquiet w.started⟩

theorem sender_ne_started {w : SendWorld} (h : Kept key w) : w.hist.sender ≠ some w.started :=
  fun hsender => Nat.lt_irrefl _ (h.sender w.started hsender)

theorem reading_ne_started {w : SendWorld} (h : Kept key w) : w.hist.reading ≠ some w.started := by
  intro hreading
  rcases (h.reading w.started hreading).2 with ⟨n, hfront⟩
  exact Nat.lt_irrefl _ (h.waiting _ (List.mem_of_head? hfront))

theorem idle_of_relies {w w' : SendWorld} (h : Kept key w) (hrely : Relies key w.started w w') :
    w'.hist.sender ≠ some w.started ∧ w'.hist.reading ≠ some w.started :=
  ⟨fun hsender => sender_ne_started h (hrely.sender.mp hsender),
    fun hreading => reading_ne_started h (hrely.reading.mp hreading)⟩

theorem kept_send {w : SendWorld} (h : Kept key w) :
    Kept key ⟨w.st, { w.hist with sender := some w.started }, w.started + 1⟩ where
  wellKept := h.wellKept
  named := h.named
  sender tid htid := by
    cases htid
    exact Nat.lt_succ_self _
  unsent := by simp
  saved := h.saved
  own := h.own
  line := h.line
  waiting waiter hwaiter := Nat.lt_succ_of_lt (h.waiting waiter hwaiter)
  reading := h.reading
  reader tid htid := by
    rcases (h.reading tid htid).2 with ⟨n, hfront⟩
    have hlt : tid < w.started := h.waiting _ (List.mem_of_head? hfront)
    simp [Nat.ne_of_gt hlt]
  found := h.found
  reactions := h.reactions
  accepted := h.accepted
  landed := h.landed
  payload := h.payload

theorem valid (hkey : key.2 ≠ []) : (outline key host).Valid where
  refl := relies_refl
  trans := relies_trans
  event w v s t hinv hok hevent := by
    simp only [sendSystem, Option.some.injEq] at hevent
    cases v with
    | send req =>
      cases hevent
      have hnone : w.hist.sender = none := hok.1 rfl
      have hother (j : Nat) : w.hist.sender ≠ some j := by
        simp [hnone]
      refine ⟨⟨trivial, kept_send hinv, ?_⟩, ?_⟩
      . intro j hj hne
        exact {
          sender := ⟨fun h => absurd (Option.some.inj h).symm hne, fun h => absurd h (hother j)⟩
          saved := fun _ => rfl
          accepted := fun _ => rfl
          landed := fun _ => rfl
          line := fun _ h => h
          front := fun _ h => h
          reading := Iff.rfl
          found := fun _ => rfl
          held := fun _ row hrow => ⟨row, hrow, rfl⟩ }
      . have hlanded : ((sendSystem host key).after w (.event w.started (.send req)) w.st).hist.landed =
            none := (hinv.unsent hnone).2.2
        apply (safe_send req hkey rfl hlanded).mono
        . intro _ _ h
          exact .inl h
        . intro _ _ h
          exact h.elim
    | echo engine message =>
      cases hevent
      rcases keeps_event host (.echo engine message) hinv rfl with ⟨hkeeps, hown⟩
      refine ⟨hkeeps, ?_⟩
      apply (safe_handleOwnSendEcho hkey).mono
      . intro _ w' hrely
        exact .inr (idle_of_relies hinv (relies_trans _ _ _ _ hown hrely))
      . intro _ _ h
        exact h.elim
    | reaction engine senderId emoji =>
      simp only [SendEvent.run, onMessageReaction] at hevent
      split at hevent <;> cases hevent
      . let queued : Store := { w.st with
          mutations := w.st.mutations ++ [(key, w.st.nextMutation)]
          nextMutation := w.st.nextMutation + 1 }
        have hafter : (sendSystem host key).after w (.event w.started (.reaction engine senderId emoji))
            queued = ⟨queued, { w.hist with
              line := w.hist.line ++ [⟨w.started, w.st.nextMutation⟩] }, w.started + 1⟩ := by
          simp [System.after, sendSystem, noteSend, queued]
        have hline : ⟨w.started, w.st.nextMutation⟩ ∈ ((sendSystem host key).after w
            (.event w.started (.reaction engine senderId emoji)) queued).hist.line := by
          rw [hafter]
          exact List.mem_append_right _ (List.mem_singleton_self _)
        have hsender : ((sendSystem host key).after w
            (.event w.started (.reaction engine senderId emoji)) queued).hist.sender ≠ some w.started := by
          rw [hafter]
          exact sender_ne_started hinv
        have hreading : ((sendSystem host key).after w
            (.event w.started (.reaction engine senderId emoji)) queued).hist.reading ≠ some w.started := by
          rw [hafter]
          exact reading_ne_started hinv
        refine ⟨⟨trivial, ?_, ?_⟩, ?_⟩
        . exact hafter ▸ kept_enqueue hinv
        . intro j _ _
          refine hafter ▸ ?_
          exact {
            sender := Iff.rfl
            saved := fun _ => rfl
            accepted := fun _ => rfl
            landed := fun _ => rfl
            line := fun _ h => List.mem_append_left _ h
            front := fun _ h => front_append h _
            reading := Iff.rfl
            found := fun _ => rfl
            held := fun _ row hrow => ⟨row, hrow, rfl⟩ }
        . apply (safe_mutation hline hsender hreading rfl hkey).mono
          . intro _ w' hidle
            exact .inr hidle
          . intro _ _ h
            exact h.elim
      . rcases keeps_event host (.reaction engine senderId emoji) hinv (if_pos rfl) with
          ⟨hkeeps, hown⟩
        exact ⟨hkeeps, .inr (idle_of_relies hinv hown)⟩

/-- A process before its first event, with any table. -/
def booted (s : Store) : SendConfig where
  st := s
  hist := ⟨none, none, none, none, [], [], none⟩
  pool := []

theorem kept_booted {s : Store} (hs : Unknown key s) : Kept key (booted s).world where
  wellKept := hs.wellKept
  named := by
    intro row hrow
    have hnone : carriers key (booted s).world.st = [] := hs.carriers
    simp [hnone] at hrow
  sender := by simp [booted, Config.world]
  unsent _ := ⟨rfl, rfl, rfl⟩
  saved := by simp [booted, Config.world]
  own := by simp [booted, Config.world]
  line := ⟨hs.mutations, by simp [booted, Config.world], List.nodup_nil⟩
  waiting := by simp [booted, Config.world]
  reading := by simp [booted, Config.world]
  reader := by simp [booted, Config.world]
  found _ := rfl
  reactions := by
    intro row hrow
    have hnone : carriers key (booted s).world.st = [] := hs.carriers
    simp [hnone] at hrow
  accepted := by simp [booted, Config.world]
  landed := by simp [booted, Config.world]
  payload := by simp [booted, Config.world]

theorem carriers_length {w : SendWorld} (h : Kept key w) (hsome : carriers key w.st ≠ []) :
    (carriers key w.st).length = 1 := by
  have hids : ((carriers key w.st).map (·.id)).Nodup :=
    h.wellKept.ids.sublist (List.Sublist.map _ List.filter_sublist)
  have hnamed := h.named
  match hcarriers : carriers key w.st with
  | [] => exact absurd hcarriers hsome
  | [_] => rfl
  | row :: row' :: rows =>
    rw [hcarriers] at hids hnamed
    have hsame := hnamed row (by simp) row' (by simp)
    simp [hsame] at hids

theorem media_of_carries {payload metadata : Option Metadata}
    (h : ∀ m ∈ payload, metadata.map apart = some (apart m)) :
    ∀ media ∈ payload.bind (·.media), metadata.bind (·.media) = some media := by
  intro media hmedia
  rcases Option.bind_eq_some_iff.mp hmedia with ⟨m, hpayload, hm⟩
  rcases Option.map_eq_some_iff.mp (h m hpayload) with ⟨stored, hmetadata, hapart⟩
  rw [hmetadata, Option.bind_some, ← hm]
  have hmedia' : (apart stored).media = (apart m).media := congrArg Metadata.media hapart
  exact hmedia'

/--
In a run whose merge does not overlap a reaction, once everything has run the message of an accepted
send has one row, with the media of the send and every reaction that found it.
-/
theorem noneLost_of_drained {s : Store} (hkey : key.2 ≠ []) (hs : Unknown key s) {c : SendConfig}
    (h : (sendSystem host key).Reach (Admitted key) (booted s) c) (hdrained : c.drained = true)
    {payload : Option Metadata} (haccepted : c.hist.accepted = some payload) :
    NoneLost key payload c.hist.found c.st := by
  have hholds : (outline key host).Holds c := (valid hkey).holds (kept_booted hs) rfl h
  have hinv : Kept key c.world := hholds.inv
  have hpost (tid : Nat) (htid : tid < c.pool.length) :
      c.hist.sender = some tid ∧ c.hist.landed.isSome = true ∨
      c.hist.sender ≠ some tid ∧ c.hist.reading ≠ some tid := by
    have hget : c.pool[tid]? = some c.pool[tid] := List.getElem?_eq_getElem htid
    have hfinished : c.pool[tid].finished = true :=
      List.all_eq_true.mp hdrained _ (List.getElem_mem htid)
    rcases hholds.finished hget hfinished with ⟨_, w, hrely, ⟨hsender, hlanded⟩ | ⟨hsender, hreading⟩⟩
    . left
      refine ⟨hrely.sender.mpr hsender, ?_⟩
      rw [← hrely.landed hsender] at hlanded
      exact hlanded
    . right
      exact ⟨fun h => hsender (hrely.sender.mp h), fun h => hreading (hrely.reading.mp h)⟩
  have hlanded : c.hist.landed.isSome = true := by
    cases hsender : c.hist.sender with
    | none =>
      have hnone := (hinv.unsent hsender).2.1
      change c.hist.accepted = none at hnone
      rw [haccepted] at hnone
      contradiction
    | some tid =>
      rcases hpost tid (hinv.sender tid hsender) with ⟨-, hlanded⟩ | ⟨hnot, -⟩
      . exact hlanded
      . exact absurd hsender hnot
  have hreading : c.hist.reading = none := by
    rw [Option.eq_none_iff_forall_ne_some]
    intro tid hreading
    rcases (hinv.reading tid hreading).2 with ⟨n, hfront⟩
    rcases hpost tid (hinv.waiting _ (List.mem_of_head? hfront)) with ⟨hsender, -⟩ | ⟨-, hnot⟩
    . exact hinv.reader tid hreading hsender
    . exact hnot hreading
  have hsome : carriers key c.st ≠ [] := hinv.accepted (hinv.landed hlanded)
  constructor
  . exact carriers_length hinv hsome
  . intro hpointer row hrow media hmedia
    have hcarries := hinv.payload hlanded payload haccepted row hrow hpointer
    exact media_of_carries hcarries media hmedia
  . intro row hrow
    have hreactions : reactionsOf row.metadata = applyAll (written c.hist) := hinv.reactions row hrow
    simpa [written, hreading] using hreactions

section Samples

def sampleKey : Text × Text := (['s'], ['m'])

def emptyStore : Store where
  messages := []
  nextId := 0
  clock := 0
  engines := fun _ => some 0
  mutations := []
  nextMutation := 0
  sweeping := false

theorem emptyStore_unknown : Unknown sampleKey emptyStore where
  wellKept := ⟨List.nodup_nil, by simp [emptyStore]⟩
  carriers := rfl
  mutations := rfl

def sampleHost : Host where
  phone := fun _ => none
  storeEphemeralMessages := true
  resolveLidToPhone := false
  graceMs := 3600000
  batchSize := 50

def samplePayload : Media := ⟨some "image/png".toList, none, some "iVBOR".toList, false⟩

def sampleImage : SendRequest where
  chatId := ['c']
  body := some []
  type := "image".toList
  media := some samplePayload
  quotedMessage := none
  button := none
  quotedMessageId := none

/-- The echo of the image, which the engine reports without its payload. -/
def sampleEcho : IncomingMessage where
  id := ['m']
  «from» := ['m', 'e']
  «to» := ['c']
  chatId := ['c']
  body := []
  type := "image".toList
  timestamp := 7
  fromMe := true
  isStatusBroadcast := false
  ephemeralDuration := none
  author := none
  call := none
  buttons := []
  isLidSender := false
  contactName := none
  media := none
  quotedMessage := none

/-- How many reactions each row that carries the id has. -/
def storedReactions (c : SendConfig) : List Nat :=
  (carriers sampleKey c.st).map fun row => (reactionsOf row.metadata).length

/-- The echo comes first, the send merges onto its row, and two reactions follow. -/
theorem noneLost_of_drained_reacted :
    ∃ c : SendConfig, c.hist.found.length = 2 ∧ c.hist.landed = some .merged ∧
      ∃ payload, c.hist.accepted = some payload ∧ NoneLost sampleKey payload c.hist.found c.st := by
  have hrun : ((sendSystem sampleHost sampleKey).exec (Admitted sampleKey) (booted emptyStore)
      [.event (.send sampleImage), .turn 0 .ok, .turn 0 .ok, .turn 0 (.accepted ⟨['m'], 7, none⟩),
        .event (.echo 0 sampleEcho), .turn 1 (.chain sampleEcho), .turn 1 .ok,
        .turn 0 .ok, .turn 0 .ok, .turn 0 .ok, .turn 0 .ok,
        .event (.reaction 0 ['a'] ['+']), .event (.reaction 0 ['b'] ['-']),
        .turn 2 .ok, .turn 2 .ok, .turn 2 .ok, .turn 2 .ok,
        .turn 3 .ok, .turn 3 .ok, .turn 3 .ok, .turn 3 .ok]).map
      (fun c => ((c.drained, c.hist.found.length), (c.hist.landed, c.hist.accepted))) =
      some ((true, 2), (some .merged, some sampleImage.metadata)) := by
    decide +kernel
  rcases System.reach_of_exec_map hrun with ⟨c, hreach, hc⟩
  simp only [Prod.mk.injEq] at hc
  rcases hc with ⟨⟨hdrained, hfound⟩, hlanded, haccepted⟩
  exact ⟨c, hfound, hlanded, _, haccepted,
    noneLost_of_drained (by decide) emptyStore_unknown hreach hdrained haccepted⟩

/--
A reaction arrives between the insert of the echo and the merge: the merge replaces the metadata column
of the echo's row, and the reaction is gone.
-/
theorem merge_drops_reaction :
    Unknown sampleKey emptyStore ∧
    ∃ c, (sendSystem sampleHost sampleKey).Reach (InScope sampleKey) (booted emptyStore) c ∧
      c.drained = true ∧ ∃ payload, c.hist.accepted = some payload ∧
        ¬NoneLost sampleKey payload c.hist.found c.st := by
  have hrun : ((sendSystem sampleHost sampleKey).exec (InScope sampleKey) (booted emptyStore)
      [.event (.send sampleImage), .turn 0 .ok, .turn 0 .ok, .turn 0 (.accepted ⟨['m'], 7, none⟩),
        .event (.echo 0 sampleEcho), .turn 1 (.chain sampleEcho), .turn 1 .ok,
        .event (.reaction 0 ['a'] ['+']), .turn 2 .ok, .turn 2 .ok, .turn 2 .ok, .turn 2 .ok,
        .turn 0 .ok, .turn 0 .ok, .turn 0 .ok, .turn 0 .ok]).map
      (fun c => ((c.drained, (applyAll c.hist.found).length), (storedReactions c, c.hist.accepted))) =
      some ((true, 1), ([0], some sampleImage.metadata)) := by
    decide +kernel
  rcases System.reach_of_exec_map hrun with ⟨c, hreach, hc⟩
  simp only [Prod.mk.injEq] at hc
  rcases hc with ⟨⟨hdrained, hfound⟩, hstored, haccepted⟩
  refine ⟨emptyStore_unknown, c, hreach, hdrained, _, haccepted, ?_⟩
  intro hnone
  have hmem : 0 ∈ storedReactions c := by
    rw [hstored]
    exact List.mem_singleton_self _
  rcases List.mem_map.mp hmem with ⟨row, hrow, hnothing⟩
  rw [hnone.reactions row hrow, hfound] at hnothing
  exact Nat.one_ne_zero hnothing

end Samples

end Runs

end NoLostUpdate
end OpenWA.Stored
