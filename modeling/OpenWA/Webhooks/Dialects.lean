import OpenWA.Js.Double
import OpenWA.Webhooks.Filters
import Mathlib.Tactic.FinCases

/-!
This module contains the invariance of the webhook filters under other spellings of the contacts that a
rule or a payload names.
-/

namespace OpenWA.Webhooks

open Identity Js

/-- A person, as far as the service can tell: a phone, or a lid whose phone is not known. -/
inductive Contact where
  | phone (digits : Text)
  | lid (l : Text)
deriving DecidableEq

variable (toLowerCase : Text → Text)

/-- Whom an identifier names. -/
def contactOf (resolve : Text → Option Text) (jid : Text) : Option Contact :=
  if jid.isEmpty then none
  else
    match (parseWaId toLowerCase jid).kind with
    | .user => some (.phone (parseWaId toLowerCase jid).userPart)
    | .lid =>
      match resolve jid with
      | none | some [] => some (.lid (parseWaId toLowerCase jid).userPart)
      | some phone => some (.phone phone)
    | _ => none

/-- Whom a value of a rule names, which may be the digits of a phone. -/
def ruleContactOf (resolve : Text → Option Text) (value : Text) : Option Contact :=
  let trimmed := trim value
  if !trimmed.isEmpty && '@' ∉ trimmed then
    let digits := trimmed.filter Char.isDigit
    if digits.isEmpty then none else some (.phone digits)
  else
    contactOf toLowerCase resolve trimmed

/-- The key of a contact. -/
def Contact.key (c : Contact) : Text :=
  match c with
  | .phone digits => toLowerCase (digits ++ "@c.us".toList)
  | .lid l => toLowerCase (l ++ "@lid".toList)

/-- The same text, or two spellings of one contact. -/
def Respelled (names : Text → Option Contact) (v w : Text) : Prop :=
  v = w ∨ ∃ c, names v = some c ∧ names w = some c

/-- A value is the same, or is an identifier in another spelling. -/
inductive RespelledValue (names : Text → Option Contact) : Json → Json → Prop where
  | same (v : Json) : RespelledValue names v v
  | id {v w : String} (h : Respelled names v.toList w.toList) :
    RespelledValue names (.string v) (.string w)

inductive RespelledItems (names : Text → Option Contact) : Items → Items → Prop where
  | nil : RespelledItems names .nil .nil
  | cons {v w : Json} {vs ws : Items} (head : RespelledValue names v w)
    (tail : RespelledItems names vs ws) : RespelledItems names (.cons v vs) (.cons w ws)

/-- A list of identifiers with some of them in another spelling; any other value is the same. -/
inductive RespelledArray (names : Text → Option Contact) : Json → Json → Prop where
  | same (v : Json) : RespelledArray names v v
  | items {vs ws : Items} (h : RespelledItems names vs ws) :
    RespelledArray names (.array vs) (.array ws)

/-- A missing field stays missing. -/
inductive RespelledField (related : Json → Json → Prop) : Option Json → Option Json → Prop where
  | none : RespelledField related none none
  | some {v w : Json} (h : related v w) : RespelledField related (some v) (some w)

/-- The fields of a payload that hold an identifier. -/
def actorFields : List String := ["author", "from", "to", "chatId"]

/-- Two payloads that differ in the spelling of their actors only. -/
structure RespelledPayload (resolve : Text → Option Text) (data data' : Fields) : Prop where
  actors : ∀ key ∈ actorFields,
    RespelledField (RespelledValue (contactOf toLowerCase resolve)) (data.get? key) (data'.get? key)
  mentions : RespelledField (RespelledArray (contactOf toLowerCase resolve)) (data.get? "mentionedIds")
    (data'.get? "mentionedIds")
  others : ∀ key, key ∉ actorFields → key ≠ "mentionedIds" → data.get? key = data'.get? key

/-- The values of the conditions on identifiers may be spelled in another way. -/
inductive RespelledCondition (resolve : Text → Option Text) (event : String) :
    WebhookFilterCondition → WebhookFilterCondition → Prop where
  | same (c : WebhookFilterCondition) : RespelledCondition resolve event c c
  | ids {field : FieldDefinition} {c : WebhookFilterCondition} {value : Json}
    (hfield : getFieldDefinition toLowerCase (eventFamily event) c.field = some field)
    (hkind : field.kind = .id ∨ field.kind = .idArray)
    (hvalue : RespelledArray (ruleContactOf toLowerCase resolve) c.value value) :
    RespelledCondition resolve event c { c with value := value }

section Keys

variable {toLowerCase} {resolve : Text → Option Text}

theorem canonicalActor_of_contact {jid : Text} {c : Contact}
    (h : contactOf toLowerCase resolve jid = some c) :
    canonicalActor toLowerCase jid resolve = c.key toLowerCase := by
  unfold contactOf at h
  unfold canonicalActor toNeutralJid
  split at h
  . cases h
  . next hne =>
    rw [if_neg hne]
    dsimp only
    split at h
    . next hkind =>
      cases h
      rw [hkind]
      rfl
    . next hkind =>
      rw [hkind]
      dsimp only
      cases hresolve : resolve jid with
      | none =>
        rw [hresolve] at h
        cases h
        rfl
      | some phone =>
        rw [hresolve] at h
        cases phone with
        | nil =>
          cases h
          rfl
        | cons d ds =>
          cases h
          rfl
    . cases h

theorem canonicalInput_of_contact {value : Text} {c : Contact}
    (h : ruleContactOf toLowerCase resolve value = some c) :
    canonicalInput toLowerCase value resolve = c.key toLowerCase := by
  unfold ruleContactOf at h
  unfold canonicalInput
  dsimp only at h ⊢
  split at h
  . next hbare =>
    rw [if_pos hbare]
    split at h
    . cases h
    . next hdigits =>
      cases h
      rw [if_neg hdigits]
      rfl
  . next hbare =>
    rw [if_neg hbare]
    exact canonicalActor_of_contact h

/-- Two spellings have one key. -/
theorem canonicalActor_respelled {v w : Text} (h : Respelled (contactOf toLowerCase resolve) v w) :
    canonicalActor toLowerCase v resolve = canonicalActor toLowerCase w resolve := by
  rcases h with rfl | ⟨c, hv, hw⟩
  . rfl
  . rw [canonicalActor_of_contact hv, canonicalActor_of_contact hw]

theorem canonicalInput_respelled {v w : Text}
    (h : Respelled (ruleContactOf toLowerCase resolve) v w) :
    canonicalInput toLowerCase v resolve = canonicalInput toLowerCase w resolve := by
  rcases h with rfl | ⟨c, hv, hw⟩
  . rfl
  . rw [canonicalInput_of_contact hv, canonicalInput_of_contact hw]

end Keys

section Payload

variable {toLowerCase} {resolve : Text → Option Text} {names : Text → Option Contact}

/-- The same string or none, or two spellings of one contact. -/
def RespelledStr (names : Text → Option Contact) (a b : Option String) : Prop :=
  a = b ∨ ∃ v w, a = some v ∧ b = some w ∧ Respelled names v.toList w.toList

theorem RespelledField.str {a b : Option Json} (h : RespelledField (RespelledValue names) a b) :
    RespelledStr names (Webhooks.str a) (Webhooks.str b) := by
  cases h with
  | none => exact .inl rfl
  | some h =>
    cases h with
    | same v => exact .inl rfl
    | id h => exact .inr ⟨_, _, rfl, rfl, h⟩

theorem RespelledStr.or {a b c d : Option String} (h₁ : RespelledStr names a b)
    (h₂ : RespelledStr names c d) : RespelledStr names (a.or c) (b.or d) := by
  rcases h₁ with rfl | ⟨v, w, rfl, rfl, h⟩
  . cases a with
    | none => exact h₂
    | some v => exact .inl rfl
  . exact .inr ⟨v, w, rfl, rfl, h⟩

theorem str_string (s : String) : str (some (.string s)) = some s := rfl

theorem str_map_string (a : Option String) : str (a.map .string) = a := by
  cases a <;> rfl

theorem any_respelled {a b : Option String} {f : String → Bool} (h : RespelledStr names a b)
    (hf : ∀ v w : String, Respelled names v.toList w.toList → f v = f w) : a.any f = b.any f := by
  rcases h with rfl | ⟨v, w, rfl, rfl, h⟩
  . rfl
  . exact hf v w h

theorem RespelledItems.map_toStringArray {vs ws : Items} {f : Text → Text}
    (h : RespelledItems names vs ws) (hf : ∀ v w, Respelled names v w → f v = f w) :
    (toStringArray (some (.array vs))).map f = (toStringArray (some (.array ws))).map f := by
  induction h with
  | nil => rfl
  | cons head tail ih =>
    simp only [toStringArray, Items.toList, List.filterMap_cons] at ih ⊢
    cases head with
    | same v =>
      split
      . exact ih
      . rw [List.map_cons, List.map_cons, ih]
    | id h =>
      simp only [str_string, Option.map_some, List.map_cons]
      rw [hf _ _ h, ih]

theorem RespelledArray.map_toStringArray {v w : Json} {f : Text → Text}
    (h : RespelledArray names v w) (hf : ∀ v w, Respelled names v w → f v = f w) :
    (toStringArray (some v)).map f = (toStringArray (some w)).map f := by
  cases h with
  | same v => rfl
  | items h => exact h.map_toStringArray hf

theorem chatKind_of_contact {jid : Text} {c : Contact} (h : contactOf toLowerCase resolve jid = some c) :
    chatKind toLowerCase jid = .individual ∧ jid ≠ [] := by
  unfold contactOf at h
  split at h
  . cases h
  . next hne =>
    refine ⟨?_, by simpa using hne⟩
    unfold chatKind
    split at h
    . next hkind => rw [hkind]
    . next hkind => rw [hkind]
    . cases h

/-- What a field of the registry finds in two payloads that differ in the spelling of actors only. -/
structure AgreesOn (toLowerCase : Text → Text) (resolve : Text → Option Text) (data data' : Fields)
    (field : FieldDefinition) : Prop where
  id : field.kind = .id →
    RespelledStr (contactOf toLowerCase resolve) (str (field.resolve data)) (str (field.resolve data'))
  idArray : field.kind = .idArray → ∀ f : Text → Text,
    (∀ v w, Respelled (contactOf toLowerCase resolve) v w → f v = f w) →
      (toStringArray (field.resolve data)).map f = (toStringArray (field.resolve data')).map f
  other : field.kind ≠ .id → field.kind ≠ .idArray → field.resolve data = field.resolve data'

theorem agreesOn_idField {data data' : Fields} {name : String} {get : Fields → Option String}
    (h : RespelledStr (contactOf toLowerCase resolve) (get data) (get data')) :
    AgreesOn toLowerCase resolve data data' (idField name get) where
  id _ := by
    simp only [idField, str_map_string]
    exact h
  idArray hkind := by simp [idField] at hkind
  other hkind := absurd rfl hkind

theorem agreesOn_of_eq {data data' : Fields} {field : FieldDefinition}
    (h : field.resolve data = field.resolve data') : AgreesOn toLowerCase resolve data data' field where
  id _ := .inl (congrArg str h)
  idArray _ f _ := by rw [h]
  other _ _ := h

theorem derived_respelled {data data' : Fields}
    (h : RespelledPayload toLowerCase resolve data data') :
    kindField.derived toLowerCase data = kindField.derived toLowerCase data' := by
  unfold kindField.derived
  rcases (h.actors "chatId" (by decide)).str with heq | ⟨v, w, hv, hw, hsame | ⟨c, hc, hc'⟩⟩
  . rw [heq]
  . rw [hv, hw, String.toList_inj.mp hsame]
  . have hkind := chatKind_of_contact hc
    have hkind' := chatKind_of_contact hc'
    have hne : v ≠ "" := by
      rintro rfl
      exact hkind.2 rfl
    have hne' : w ≠ "" := by
      rintro rfl
      exact hkind'.2 rfl
    rw [hv, hw]
    dsimp only
    rw [if_pos hne, if_pos hne', hkind.1, hkind'.1]

theorem agreesOn_of_registry {event field : String} {def' : FieldDefinition} {data data' : Fields}
    (h : RespelledPayload toLowerCase resolve data data')
    (hdef : getFieldDefinition toLowerCase (eventFamily event) field = some def') :
    AgreesOn toLowerCase resolve data data' def' := by
  have hmem : def' ∈ [senderField, recipientField, chatIdField, bodyField, typeField, isGroupField,
      kindField toLowerCase, fromMeField, hasMediaField, mentionsField] := by
    obtain ⟨defs, hdefs, hfound⟩ := Option.bind_eq_some_iff.mp hdef
    simp only [FILTER_FIELDS, List.lookup_nil, List.lookup_cons] at hdefs
    split at hdefs
    . cases hdefs
      exact List.mem_of_find?_eq_some hfound
    . cases hdefs
  have actor (key : String) (hkey : key ∈ actorFields) := (h.actors key hkey).str
  have other (key : String) (h₁ : key ∉ actorFields) (h₂ : key ≠ "mentionedIds") := h.others key h₁ h₂
  simp only [List.mem_cons, List.not_mem_nil, or_false] at hmem
  rcases hmem with rfl | rfl | rfl | rfl | rfl | rfl | rfl | rfl | rfl | rfl
  . exact agreesOn_idField ((actor "author" (by decide)).or (actor "from" (by decide)))
  . exact agreesOn_idField (actor "to" (by decide))
  . exact agreesOn_idField (actor "chatId" (by decide))
  . apply agreesOn_of_eq
    simp only [bodyField, other "body" (by decide) (by decide)]
  . apply agreesOn_of_eq
    simp only [typeField, other "type" (by decide) (by decide)]
  . apply agreesOn_of_eq
    simp only [isGroupField, booleanField, other "isGroup" (by decide) (by decide)]
  . apply agreesOn_of_eq
    simp only [kindField, other "kind" (by decide) (by decide), derived_respelled h]
  . apply agreesOn_of_eq
    simp only [fromMeField, booleanField, other "fromMe" (by decide) (by decide)]
  . apply agreesOn_of_eq
    simp only [hasMediaField, booleanField, other "hasMedia" (by decide) (by decide),
      other "media" (by decide) (by decide)]
  . exact {
      id := by simp [mentionsField]
      idArray := by
        intro _ f hf
        simp only [mentionsField]
        generalize hv : data.get? "mentionedIds" = v
        generalize hw : data'.get? "mentionedIds" = w
        have hmentions := h.mentions
        rw [hv, hw] at hmentions
        cases hmentions with
        | none => rfl
        | some h =>
          cases h with
          | same v => rfl
          | items h => exact h.map_toStringArray hf
      other := by simp [mentionsField]
    }

theorem evaluateCondition_payload {field : FieldDefinition} {data data' : Fields}
    (h : AgreesOn toLowerCase resolve data data' field) (c : WebhookFilterCondition) :
    evaluateCondition toLowerCase field c data resolve =
      evaluateCondition toLowerCase field c data' resolve := by
  unfold evaluateCondition
  dsimp only
  split
  . next hkind =>
    congr 1
    apply any_respelled (h.id hkind)
    intro v w hvw
    rw [canonicalActor_respelled hvw]
  . next hkind => rw [h.other (by simp [hkind]) (by simp [hkind])]
  . next hkind =>
    rw [h.idArray hkind (fun jid => canonicalActor toLowerCase jid resolve)
      fun v w hvw => canonicalActor_respelled hvw]
  . next hkind => rw [h.other (by simp [hkind]) (by simp [hkind])]
  . next hkind => rw [h.other (by simp [hkind]) (by simp [hkind])]

theorem evaluateCondition_value {field : FieldDefinition} {c : WebhookFilterCondition} {value : Json}
    (hkind : field.kind = .id ∨ field.kind = .idArray)
    (hvalue : RespelledArray (ruleContactOf toLowerCase resolve) c.value value) (data : Fields) :
    evaluateCondition toLowerCase field c data resolve =
      evaluateCondition toLowerCase field { c with value := value } data resolve := by
  have hcandidates := hvalue.map_toStringArray (f := fun v => canonicalInput toLowerCase v resolve)
    fun v w hvw => canonicalInput_respelled hvw
  unfold evaluateCondition
  dsimp only
  rcases hkind with hkind | hkind
  . rw [hkind]
    dsimp only
    rw [hcandidates]
  . rw [hkind]
    dsimp only
    rw [hcandidates]

/--
The verdict of the filters of a webhook does not depend on which spelling of a contact a rule or a
payload has.
-/
theorem evaluateFilters_respelled (toLowerCase : Text → Text) (resolve : Text → Option Text)
    (event : String) {filters filters' : Option (List WebhookFilterCondition)} {data data' : Fields}
    (hfilters : Option.Rel (List.Forall₂ (RespelledCondition toLowerCase resolve event)) filters filters')
    (hpayload : RespelledPayload toLowerCase resolve data data') :
    evaluateFilters toLowerCase filters event data resolve =
      evaluateFilters toLowerCase filters' event data' resolve := by
  cases hfilters with
  | none => rfl
  | some hconditions =>
    simp only [evaluateFilters]
    induction hconditions with
    | nil => rfl
    | cons hc _ ih =>
      rw [List.all_cons, List.all_cons, ih]
      congr 1
      cases hc with
      | same c =>
        split
        . next field hfield =>
          exact evaluateCondition_payload (agreesOn_of_registry hpayload hfield) _
        . rfl
      | ids hfield hkind hvalue =>
        dsimp only
        rw [hfield]
        dsimp only
        rw [evaluateCondition_value hkind hvalue]
        exact evaluateCondition_payload (agreesOn_of_registry hpayload hfield) _

end Payload

section Spellings

variable {toLowerCase} {resolve : Text → Option Text}

/-- Digits with an optional device are the user of an identifier, whatever its domain is. -/
theorem parseWaId_digits (hlower : LowersCase toLowerCase) {domain digits device : Text}
    (hdomain : IsDomain domain) (hne : domain.map Char.toLower ≠ "broadcast".toList)
    (hdigits : ∀ c ∈ digits, c.isDigit)
    (hdevice : device = [] ∨ ∃ n : Text, device = ':' :: n ∧ ∀ c ∈ n, c.isDigit) :
    (parseWaId toLowerCase (digits ++ device ++ '@' :: domain)).kind =
        (DOMAIN_KINDS.lookup (domain.map Char.toLower)).getD .unknown ∧
      (parseWaId toLowerCase (digits ++ device ++ '@' :: domain)).userPart = digits := by
  have hchars : ∀ c ∈ digits ++ device, c.isDigit ∨ c = ':' := by
    intro c hc
    rcases List.mem_append.mp hc with hc | hc
    . exact .inl (hdigits c hc)
    . rcases hdevice with rfl | ⟨n, rfl, hn⟩
      . cases hc
      . rcases List.mem_cons.mp hc with rfl | hc
        . exact .inr rfl
        . exact .inl (hn c hc)
  have hstart : trimStart (digits ++ device) = digits ++ device := by
    cases hlist : digits ++ device with
    | nil => rfl
    | cons c t =>
      have hwhite : isWhiteSpace c = false := by
        rcases hchars c (by simp [hlist]) with hc | rfl
        . exact isWhiteSpace_of_isDigit hc
        . decide
      simp [trimStart, hwhite]
  have hlowered : toLowerCase (digits ++ device) = digits ++ device := by
    apply hlower.eq_self
    intro c hc
    rcases hchars c hc with hc | rfl
    . exact toLower_digit hc
    . decide
  have hcolon : ∀ c ∈ digits, decide (c ≠ ':') = true := by
    intro c hc
    simp only [decide_eq_true_eq]
    rintro rfl
    exact absurd (hdigits ':' hc) (by decide)
  rw [parseWaId_append_at hlower hdomain hne, hstart, hlowered]
  refine ⟨rfl, ?_⟩
  rw [firstPart, List.takeWhile_append_of_pos hcolon]
  rcases hdevice with rfl | ⟨n, rfl, _⟩ <;> simp

/-- Every identifier in a domain of users names the phone of its digits. -/
theorem contactOf_user (hlower : LowersCase toLowerCase) {domain digits device : Text}
    (hdomain : domain.map Char.toLower ∈
      ["c.us".toList, "s.whatsapp.net".toList, "hosted".toList]) (hascii : IsDomain domain)
    (hdigits : ∀ c ∈ digits, c.isDigit)
    (hdevice : device = [] ∨ ∃ n : Text, device = ':' :: n ∧ ∀ c ∈ n, c.isDigit) :
    contactOf toLowerCase resolve (digits ++ device ++ '@' :: domain) = some (.phone digits) := by
  have hkinds : ∀ d ∈ ["c.us".toList, "s.whatsapp.net".toList, "hosted".toList],
      (DOMAIN_KINDS.lookup d).getD .unknown = .user ∧ d ≠ "broadcast".toList := by decide
  have hparse := parseWaId_digits hlower hascii (hkinds _ hdomain).2 hdigits hdevice
  rw [contactOf, if_neg (by simp), hparse.1, (hkinds _ hdomain).1, hparse.2]

/-- And every one in a domain of lids names the phone of its lid, once that is known. -/
theorem contactOf_lid (hlower : LowersCase toLowerCase) {domain digits device phone : Text}
    (hdomain : domain.map Char.toLower ∈ ["lid".toList, "hosted.lid".toList])
    (hascii : IsDomain domain) (hdigits : ∀ c ∈ digits, c.isDigit)
    (hdevice : device = [] ∨ ∃ n : Text, device = ':' :: n ∧ ∀ c ∈ n, c.isDigit) (hphone : phone ≠ [])
    (hresolve : resolve (digits ++ device ++ '@' :: domain) = some phone) :
    contactOf toLowerCase resolve (digits ++ device ++ '@' :: domain) = some (.phone phone) := by
  have hkinds : ∀ d ∈ ["lid".toList, "hosted.lid".toList],
      (DOMAIN_KINDS.lookup d).getD .unknown = .lid ∧ d ≠ "broadcast".toList := by decide
  have hparse := parseWaId_digits hlower hascii (hkinds _ hdomain).2 hdigits hdevice
  rw [contactOf, if_neg (by simp), hparse.1, (hkinds _ hdomain).1]
  dsimp only
  rw [hresolve]
  cases phone with
  | nil => exact absurd rfl hphone
  | cons d ds => rfl

end Spellings

section Witness

def senderIs (value : String) : WebhookFilterCondition :=
  ⟨"sender", .is, .array (.cons (.string value) .nil), none⟩

def sentBy (id : String) : Fields := .cons "from" (.string id) .nil

def knowsLid (jid : Text) : Option Text :=
  if userPart jid = "111".toList then some "628999".toList else none

/-- A rule that names a phone by its digits, and a sender that is a lid of that phone. -/
theorem evaluateFilters_lid :
    evaluateFilters (·.map Char.toLower) (some [senderIs "628999@c.us"]) "message.received"
        (sentBy "628999:3@S.WhatsApp.net") knowsLid =
      evaluateFilters (·.map Char.toLower) (some [senderIs "628999"]) "message.received"
        (sentBy "111@hosted.lid") knowsLid := by
  apply evaluateFilters_respelled
  . apply Option.Rel.some
    apply List.Forall₂.cons _ .nil
    have hfield : getFieldDefinition (·.map Char.toLower) (eventFamily "message.received") "sender" =
        some senderField := rfl
    apply RespelledCondition.ids hfield (.inl rfl)
    apply RespelledArray.items
    exact .cons (.id (.inr ⟨.phone "628999".toList, by decide, by decide⟩)) .nil
  . exact {
      actors := by
        intro key hkey
        fin_cases hkey
        . exact .none
        . exact .some (.id (.inr ⟨.phone "628999".toList, by decide, by decide⟩))
        . exact .none
        . exact .none
      mentions := .none
      others := by
        intro key hkey _
        have hne : "from" ≠ key := by
          rintro rfl
          exact hkey (by decide)
        simp [sentBy, Fields.get?, hne]
    }

/-- Digits name a phone in a rule, but not in a payload. -/
theorem digits_in_payload_not_matched :
    ruleContactOf (·.map Char.toLower) (fun _ => none) "628999".toList =
        contactOf (·.map Char.toLower) (fun _ => none) "628999@c.us".toList ∧
      evaluateFilters (·.map Char.toLower) (some [senderIs "628999@c.us"]) "message.received"
        (sentBy "628999@c.us") (fun _ => none) = true ∧
      evaluateFilters (·.map Char.toLower) (some [senderIs "628999@c.us"]) "message.received"
        (sentBy "628999") (fun _ => none) = false := by
  decide +kernel

end Witness

end OpenWA.Webhooks
