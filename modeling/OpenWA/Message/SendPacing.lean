import OpenWA.Identity.WaId
import OpenWA.Js.Double
import OpenWA.Stored.Rows
import Mathlib.Data.Finset.Card

/-!
This module contains the budget of a session for contacts it has no history with, as adding participants
to a group draws on it, and when the draw is the number of people.
-/

namespace OpenWA.Message

open Identity Js

variable (toLowerCase : Text → Text)

def endsWith (t suffix : Text) : Bool := suffix <:+ t

/-- Both spellings of a user id, and of a number without a domain. -/
def dialectVariants (chatId : Text) : List Text :=
  let lower := toLowerCase chatId
  if endsWith lower "@c.us".toList then
    [chatId, chatId.take (chatId.length - "@c.us".length) ++ "@s.whatsapp.net".toList]
  else if endsWith lower "@s.whatsapp.net".toList then
    [chatId, chatId.take (chatId.length - "@s.whatsapp.net".length) ++ "@c.us".toList]
  else if isNumericId (trim chatId) then
    let digits := trim chatId
    [digits, digits ++ "@c.us".toList, digits ++ "@s.whatsapp.net".toList]
  else
    [chatId]

/-- The configuration, and what is known of a session when a reachout is asked for. -/
structure Pacing where
  enabled : Bool
  coldSchedule : List Nat
  /-- How much longer the breaker is open, in seconds, if it is. -/
  breakerOpen : Option Nat
  messages : List Stored.Message
  /-- The age of the session in days, if there is a row of it. -/
  session : Option Int
  /-- The contacts without history that were written to today. -/
  coldReachoutsToday : Nat
  groupReachoutsToday : Nat
  secondsUntilNextUtcDay : Nat

inductive Refusal where
  | breakerOpen (retryAfterSeconds : Nat)
  | coldDailyCap (retryAfterSeconds allowance coldToday coldCount : Nat)
deriving DecidableEq

/-- The last entry of the schedule is the one of every later day. -/
def allowanceForAge (schedule : List Nat) (ageDays : Int) : Nat :=
  schedule.getD (min (max ageDays 0).toNat (schedule.length - 1)) 0

/-- The chats of a session with a row. -/
def chatIdsOf (messages : List Stored.Message) (sessionId : Text) : List Text :=
  (messages.filter (·.sessionId = sessionId)).map (·.chatId)

/-- The ids without a row under any of their variants. -/
def coldIds (messages : List Stored.Message) (sessionId : Text) (contactIds : List Text) : List Text :=
  let unique := contactIds.dedup
  let ids := (unique.map (dialectVariants toLowerCase)).flatten
  let knownIds := (chatIdsOf messages sessionId).filter (· ∈ ids)
  unique.filter fun id => !(dialectVariants toLowerCase id).any (· ∈ knownIds)

/-- The number of cold contacts to charge for. -/
def assertReachoutAllowed (p : Pacing) (sessionId : Text) (contactIds : List Text) : Except Refusal Nat :=
  if !p.enabled then .ok 0
  else
    match p.breakerOpen with
    | some retryAfter => .error (.breakerOpen retryAfter)
    | none =>
      if p.coldSchedule.isEmpty || contactIds.isEmpty then .ok 0
      else
        let coldCount := (coldIds toLowerCase p.messages sessionId contactIds).length
        if coldCount = 0 then .ok 0
        else
          match p.session with
          | none => .ok 0
          | some ageDays =>
            let allowance := allowanceForAge p.coldSchedule ageDays
            let usedToday := p.coldReachoutsToday + p.groupReachoutsToday
            if usedToday + coldCount ≤ allowance then .ok coldCount
            else
              .error (.coldDailyCap p.secondsUntilNextUtcDay allowance usedToday coldCount)

/-- What a reachout was charged, or was refused for. -/
def charge (r : Except Refusal Nat) : Nat :=
  match r with
  | .ok coldCount | .error (.coldDailyCap _ _ _ coldCount) => coldCount
  | .error (.breakerOpen _) => 0

/-- The reachouts of the session are counted. -/
structure Counting (p : Pacing) : Prop where
  enabled : p.enabled = true
  breaker : p.breakerOpen = none
  schedule : p.coldSchedule ≠ []
  session : ∃ ageDays, p.session = some ageDays

section People

/-- A person by phone, whatever the dialect and the case of the id; other ids stand for themselves. -/
inductive Person where
  | phone (digits : Text)
  | other (id : Text)
deriving DecidableEq

def personOf (id : Text) : Person :=
  let lower := toLowerCase id
  if endsWith lower "@c.us".toList then .phone (lower.take (lower.length - "@c.us".length))
  else if endsWith lower "@s.whatsapp.net".toList then
    .phone (lower.take (lower.length - "@s.whatsapp.net".length))
  else if isNumericId (trim id) then .phone (trim id)
  else .other id

/-- The session has a row with the person under some spelling. -/
def hasHistory (messages : List Stored.Message) (sessionId : Text) (person : Person) : Bool :=
  (chatIdsOf messages sessionId).any fun chatId => personOf toLowerCase chatId = person

/-- The people among the recipients that the session has no row with. -/
def strangers (messages : List Stored.Message) (sessionId : Text) (contactIds : List Text) :
    Finset Person :=
  (contactIds.map (personOf toLowerCase)).toFinset.filter fun person =>
    hasHistory toLowerCase messages sessionId person = false

/-- Every stranger is named in one spelling only. -/
def NamedOnce (messages : List Stored.Message) (sessionId : Text) (contactIds : List Text) : Prop :=
  ∀ v ∈ contactIds, ∀ w ∈ contactIds, personOf toLowerCase v = personOf toLowerCase w →
    hasHistory toLowerCase messages sessionId (personOf toLowerCase v) = false → v = w

/-- Whoever has history has it under a variant of the spelling that is asked for. -/
def FoundAsSpelled (messages : List Stored.Message) (sessionId : Text) (contactIds : List Text) : Prop :=
  ∀ v ∈ contactIds, hasHistory toLowerCase messages sessionId (personOf toLowerCase v) = true →
    ∃ variant ∈ dialectVariants toLowerCase v, variant ∈ chatIdsOf messages sessionId

instance (messages : List Stored.Message) (sessionId : Text) (contactIds : List Text) :
    Decidable (NamedOnce toLowerCase messages sessionId contactIds) :=
  inferInstanceAs (Decidable (∀ v ∈ contactIds, ∀ w ∈ contactIds, _ → _ → _))

instance (messages : List Stored.Message) (sessionId : Text) (contactIds : List Text) :
    Decidable (FoundAsSpelled toLowerCase messages sessionId contactIds) :=
  inferInstanceAs (Decidable (∀ v ∈ contactIds, _ → ∃ variant ∈ dialectVariants toLowerCase v, _))

variable {toLowerCase}

theorem append_of_endsWith (hlower : ReflectsCase toLowerCase) {id u : Text}
    (hu : ∀ c ∈ u, c.toNat < 128 ∧ c ≠ 'k') (h : endsWith (toLowerCase id) ('@' :: u) = true) :
    ∃ x d, id = x ++ '@' :: d ∧ d.length = u.length ∧
      toLowerCase id = toLowerCase x ++ '@' :: u := by
  simp only [endsWith, decide_eq_true_eq] at h
  obtain ⟨x, hx⟩ := h
  obtain ⟨s, d, rfl, hs, hd⟩ := hlower.split_at id x u hx.symm
  have hmap := hlower.ascii_of d (by rw [hd]; exact hu)
  have hlength := congrArg List.length (hmap.trans hd)
  rw [List.length_map] at hlength
  exact ⟨s, d, rfl, hlength, by rw [← hx, hs]⟩

theorem take_append_suffix (x : Text) {u : Text} {n : Nat} (h : u.length = n) :
    (x ++ u).take ((x ++ u).length - n) = x := by
  rw [List.length_append, h, Nat.add_sub_cancel]
  exact List.take_left' rfl

theorem endsWith_append (x u : Text) : endsWith (x ++ u) u = true := by simp [endsWith]

theorem endsWith_net_cUs (x : Text) : endsWith (x ++ "@s.whatsapp.net".toList) "@c.us".toList = false := by
  simp only [endsWith, decide_eq_false_iff_not]
  rintro ⟨y, hy⟩
  have hlast := congrArg List.getLast? hy
  simp [List.getLast?_append] at hlast

theorem toLowerCase_domain (hlower : LowersCase toLowerCase) (x : Text) {u : Text}
    (hu : ∀ c ∈ u, c.toNat < 128) (hmap : u.map Char.toLower = u) :
    toLowerCase (x ++ '@' :: u) = toLowerCase x ++ '@' :: u := by
  rw [hlower.append_at, hlower.ascii u hu, hmap]

theorem personOf_cUs (hlower : LowersCase toLowerCase) (x : Text) :
    personOf toLowerCase (x ++ "@c.us".toList) = .phone (toLowerCase x) := by
  have hdomain : toLowerCase (x ++ "@c.us".toList) = toLowerCase x ++ "@c.us".toList :=
    toLowerCase_domain hlower x (forall_mem_of_all (by decide)) (by decide)
  simp only [personOf, hdomain]
  rw [if_pos (endsWith_append _ _), take_append_suffix]
  rfl

theorem personOf_net (hlower : LowersCase toLowerCase) (x : Text) :
    personOf toLowerCase (x ++ "@s.whatsapp.net".toList) = .phone (toLowerCase x) := by
  have hdomain : toLowerCase (x ++ "@s.whatsapp.net".toList) =
      toLowerCase x ++ "@s.whatsapp.net".toList :=
    toLowerCase_domain hlower x (forall_mem_of_all (by decide)) (by decide)
  simp only [personOf, hdomain]
  rw [if_neg (by rw [endsWith_net_cUs]; decide), if_pos (endsWith_append _ _), take_append_suffix]
  rfl

theorem toLowerCase_digits (hlower : LowersCase toLowerCase) {digits : Text}
    (h : ∀ c ∈ digits, c.isDigit) : toLowerCase digits = digits := by
  apply hlower.eq_self
  intro c hc
  exact toLower_digit (h c hc)

theorem personOf_digits (hlower : LowersCase toLowerCase) {digits : Text}
    (h : isNumericId digits = true) : personOf toLowerCase digits = .phone digits := by
  simp only [isNumericId, Bool.and_eq_true, List.all_eq_true] at h
  have hnone (u : Text) : endsWith digits ('@' :: u) = false := by
    simp only [endsWith, decide_eq_false_iff_not]
    intro hsuffix
    exact absurd (h.2 '@' (hsuffix.subset (by simp))) (by decide)
  have htrim := trim_of_digits h.2
  simp only [personOf, toLowerCase_digits hlower h.2, htrim]
  have hcUs : ¬(endsWith digits "@c.us".toList = true) := Bool.eq_false_iff.mp (hnone "c.us".toList)
  have hnet : ¬(endsWith digits "@s.whatsapp.net".toList = true) :=
    Bool.eq_false_iff.mp (hnone "s.whatsapp.net".toList)
  rw [if_neg hcUs, if_neg hnet, if_pos]
  simp only [isNumericId, Bool.and_eq_true, List.all_eq_true]
  exact h

/-- The variants of an id are the same person. -/
theorem personOf_variant (hlower : ReflectsCase toLowerCase) {id variant : Text}
    (h : variant ∈ dialectVariants toLowerCase id) :
    personOf toLowerCase variant = personOf toLowerCase id := by
  simp only [dialectVariants] at h
  split at h
  . next hend =>
    obtain ⟨x, d, rfl, hlength, hdomain⟩ :=
      append_of_endsWith hlower (u := "c.us".toList) (forall_mem_of_all (by decide)) hend
    have hperson : personOf toLowerCase (x ++ '@' :: d) = .phone (toLowerCase x) := by
      simp only [personOf]
      rw [if_pos hend, hdomain, take_append_suffix]
      rfl
    rw [hperson]
    rcases List.mem_cons.mp h with rfl | h
    . exact hperson
    . have hslice : (x ++ '@' :: d).take ((x ++ '@' :: d).length - "@c.us".length) = x := by
        apply take_append_suffix
        rw [List.length_cons, hlength]
        rfl
      rw [List.mem_singleton.mp h, hslice]
      exact personOf_net hlower.toLowersCase x
  . next hother =>
    split at h
    . next hend =>
      obtain ⟨x, d, rfl, hlength, hdomain⟩ :=
        append_of_endsWith hlower (u := "s.whatsapp.net".toList) (forall_mem_of_all (by decide)) hend
      have hperson : personOf toLowerCase (x ++ '@' :: d) = .phone (toLowerCase x) := by
        simp only [personOf]
        rw [if_neg hother, if_pos hend, hdomain, take_append_suffix]
        rfl
      rw [hperson]
      rcases List.mem_cons.mp h with rfl | h
      . exact hperson
      . have hslice : (x ++ '@' :: d).take ((x ++ '@' :: d).length - "@s.whatsapp.net".length) = x := by
          apply take_append_suffix
          rw [List.length_cons, hlength]
          rfl
        rw [List.mem_singleton.mp h, hslice]
        exact personOf_cUs hlower.toLowersCase x
    . next hother' =>
      split at h
      . next hnumeric =>
        have hperson : personOf toLowerCase id = .phone (trim id) := by
          simp only [personOf]
          rw [if_neg hother, if_neg hother', if_pos hnumeric]
        have hdigits : toLowerCase (trim id) = trim id := by
          simp only [isNumericId, Bool.and_eq_true, List.all_eq_true] at hnumeric
          exact toLowerCase_digits hlower.toLowersCase hnumeric.2
        rw [hperson]
        simp only [List.mem_cons, List.not_mem_nil, or_false] at h
        rcases h with rfl | rfl | rfl
        . exact personOf_digits hlower.toLowersCase hnumeric
        . rw [personOf_cUs hlower.toLowersCase, hdigits]
        . rw [personOf_net hlower.toLowersCase, hdigits]
      . rw [List.mem_singleton.mp h]

end People

section Count

variable {toLowerCase}

theorem mem_coldIds {messages : List Stored.Message} {sessionId id : Text} {contactIds : List Text} :
    id ∈ coldIds toLowerCase messages sessionId contactIds ↔
      id ∈ contactIds ∧ ∀ variant ∈ dialectVariants toLowerCase id,
        variant ∉ chatIdsOf messages sessionId := by
  simp only [coldIds, List.mem_filter, List.mem_dedup, Bool.not_eq_true', List.any_eq_false,
    decide_eq_true_eq, List.mem_flatten, List.mem_map]
  apply and_congr_right
  intro hid
  apply forall₂_congr
  intro variant hvariant
  rw [not_and, not_iff_not.mpr (Iff.rfl)]
  constructor
  . intro h hmem
    exact h hmem ⟨_, ⟨id, hid, rfl⟩, hvariant⟩
  . intro h hmem
    exact absurd hmem h

/-- A person without history is cold under each of the ids that name them. -/
theorem mem_coldIds_of_stranger (hlower : ReflectsCase toLowerCase) {messages : List Stored.Message}
    {sessionId id : Text} {contactIds : List Text} (hid : id ∈ contactIds)
    (h : hasHistory toLowerCase messages sessionId (personOf toLowerCase id) = false) :
    id ∈ coldIds toLowerCase messages sessionId contactIds := by
  rw [mem_coldIds]
  refine ⟨hid, ?_⟩
  intro variant hvariant hmem
  simp only [hasHistory, List.any_eq_false, decide_eq_true_eq] at h
  exact h variant hmem (personOf_variant hlower hvariant)

/-- The ids that are charged for are as many as the people if and only if they are the people. -/
theorem length_coldIds_eq_iff (hlower : ReflectsCase toLowerCase) (messages : List Stored.Message)
    (sessionId : Text) (contactIds : List Text) :
    (coldIds toLowerCase messages sessionId contactIds).length =
        (strangers toLowerCase messages sessionId contactIds).card ↔
      NamedOnce toLowerCase messages sessionId contactIds ∧
        FoundAsSpelled toLowerCase messages sessionId contactIds := by
  have hnodup : (coldIds toLowerCase messages sessionId contactIds).Nodup :=
    (List.nodup_dedup contactIds).filter _
  rw [← List.toFinset_card_of_nodup hnodup]
  generalize hcharged : (coldIds toLowerCase messages sessionId contactIds).toFinset = charged
  -- the ids of the people without history: all of them are charged for, and they name each person
  generalize hnaming : contactIds.toFinset.filter (fun v =>
    hasHistory toLowerCase messages sessionId (personOf toLowerCase v) = false) = naming
  have hmemNaming (v : Text) : v ∈ naming ↔ v ∈ contactIds ∧
      hasHistory toLowerCase messages sessionId (personOf toLowerCase v) = false := by
    rw [← hnaming, Finset.mem_filter, List.mem_toFinset]
  have hsub : naming ⊆ charged := by
    intro v hv
    obtain ⟨hid, hstranger⟩ := (hmemNaming v).mp hv
    rw [← hcharged, List.mem_toFinset]
    exact mem_coldIds_of_stranger hlower hid hstranger
  have himage : naming.image (personOf toLowerCase) =
      strangers toLowerCase messages sessionId contactIds := by
    ext person
    simp only [Finset.mem_image, hmemNaming, strangers, Finset.mem_filter, List.mem_toFinset,
      List.mem_map]
    constructor
    . rintro ⟨v, ⟨hid, hstranger⟩, rfl⟩
      exact ⟨⟨v, hid, rfl⟩, hstranger⟩
    . rintro ⟨⟨v, hid, rfl⟩, hstranger⟩
      exact ⟨v, ⟨hid, hstranger⟩, rfl⟩
  rw [← himage]
  constructor
  . intro heq
    have hle := Finset.card_image_le (s := naming) (f := personOf toLowerCase)
    have hle' := Finset.card_le_card hsub
    have hinj := Finset.card_image_iff.mp (le_antisymm hle (heq ▸ hle'))
    have hall : naming = charged := Finset.eq_of_subset_of_card_le hsub (heq ▸ hle)
    constructor
    . intro v hv w hw hsame hstranger
      apply hinj _ _ hsame
      . exact Finset.mem_coe.mpr ((hmemNaming v).mpr ⟨hv, hstranger⟩)
      . exact Finset.mem_coe.mpr ((hmemNaming w).mpr ⟨hw, hsame ▸ hstranger⟩)
    . intro v hv hhistory
      by_contra hno
      have hmem : v ∈ charged := by
        rw [← hcharged, List.mem_toFinset, mem_coldIds]
        exact ⟨hv, fun variant hvariant hmem => hno ⟨variant, hvariant, hmem⟩⟩
      rw [← hall, hmemNaming] at hmem
      rw [hmem.2] at hhistory
      exact Bool.false_ne_true hhistory
  . rintro ⟨honce, hfound⟩
    have hall : naming = charged := by
      apply Finset.Subset.antisymm hsub
      intro v hv
      rw [← hcharged, List.mem_toFinset, mem_coldIds] at hv
      rw [hmemNaming]
      refine ⟨hv.1, ?_⟩
      by_contra hhistory
      obtain ⟨variant, hvariant, hmem⟩ := hfound v hv.1 (by simpa using hhistory)
      exact hv.2 variant hvariant hmem
    have hinj : Set.InjOn (personOf toLowerCase) naming := by
      intro v hv w hw hsame
      obtain ⟨hidv, hstranger⟩ := (hmemNaming v).mp (Finset.mem_coe.mp hv)
      exact honce v hidv w ((hmemNaming w).mp (Finset.mem_coe.mp hw)).1 hsame hstranger
    rw [← hall, Finset.card_image_of_injOn hinj]

theorem charge_eq (p : Pacing) (hcounting : Counting p) (sessionId : Text) (contactIds : List Text) :
    charge (assertReachoutAllowed toLowerCase p sessionId contactIds) =
      (coldIds toLowerCase p.messages sessionId contactIds).length := by
  obtain ⟨ageDays, hsession⟩ := hcounting.session
  have hschedule : p.coldSchedule.isEmpty = false := by simpa using hcounting.schedule
  simp only [assertReachoutAllowed, hcounting.enabled, hcounting.breaker, hschedule, hsession]
  cases contactIds with
  | nil => simp [charge, coldIds]
  | cons id ids =>
    simp only [Bool.not_true, Bool.false_eq_true, if_false, List.isEmpty_cons, Bool.or_false]
    split
    . next hzero => simp [charge, hzero]
    . split <;> rfl

/--
A session whose reachouts are counted is charged one for each stranger if and only if every stranger is
named in one spelling, and everyone else has history under a variant of the spelling that names them.
-/
theorem charge_eq_strangers_iff (hlower : ReflectsCase toLowerCase) (p : Pacing)
    (hcounting : Counting p) (sessionId : Text) (contactIds : List Text) :
    charge (assertReachoutAllowed toLowerCase p sessionId contactIds) =
        (strangers toLowerCase p.messages sessionId contactIds).card ↔
      NamedOnce toLowerCase p.messages sessionId contactIds ∧
        FoundAsSpelled toLowerCase p.messages sessionId contactIds := by
  rw [charge_eq p hcounting]
  exact length_coldIds_eq_iff hlower p.messages sessionId contactIds

/-- A new session that may reach out to ten people a day. -/
def newSession (messages : List Stored.Message) : Pacing where
  enabled := true
  coldSchedule := [10]
  breakerOpen := none
  messages := messages
  session := some 0
  coldReachoutsToday := 0
  groupReachoutsToday := 0
  secondsUntilNextUtcDay := 3600

theorem counting_newSession (messages : List Stored.Message) : Counting (newSession messages) :=
  ⟨rfl, rfl, by simp [newSession], 0, rfl⟩

def received (chatId : Text) : Stored.Message where
  id := 1
  sessionId := "s".toList
  waMessageId := none
  chatId := chatId
  chatName := none
  author := none
  «from» := chatId
  «to» := []
  body := none
  type := "text".toList
  direction := .incoming
  timestamp := none
  status := .delivered
  metadata := none
  createdAt := none

/-- A stranger, and somebody known in the other dialect. -/
theorem charge_stranger_and_known :
    charge (assertReachoutAllowed (·.map Char.toLower)
        (newSession [received "628222@s.whatsapp.net".toList]) "s".toList
        ["628111@c.us".toList, "628222".toList]) =
      (strangers (·.map Char.toLower) [received "628222@s.whatsapp.net".toList] "s".toList
        ["628111@c.us".toList, "628222".toList]).card :=
  (charge_eq_strangers_iff reflectsCase_map_toLower _ (counting_newSession _) _ _).mpr
    ⟨by decide +kernel, by decide +kernel⟩

/-- One stranger in two spellings, and a known contact in another letter case. -/
theorem charge_two_for_one :
    charge (assertReachoutAllowed (·.map Char.toLower) (newSession []) "s".toList
        ["628111@c.us".toList, "628111@s.whatsapp.net".toList]) = 2 ∧
      (strangers (·.map Char.toLower) [] "s".toList
        ["628111@c.us".toList, "628111@s.whatsapp.net".toList]).card = 1 ∧
      charge (assertReachoutAllowed (·.map Char.toLower) (newSession [received "628111@c.us".toList])
        "s".toList ["628111@C.US".toList]) = 1 ∧
      (strangers (·.map Char.toLower) [received "628111@c.us".toList] "s".toList
        ["628111@C.US".toList]).card = 0 := by
  decide +kernel

end Count

end OpenWA.Message
