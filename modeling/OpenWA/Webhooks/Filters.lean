import OpenWA.Identity.WaId
import OpenWA.Js.Json
import Mathlib.Data.List.Infix

/-!
This module contains the filters of a webhook: the fields a condition can name, and the evaluation of the
conditions over the payload of an event.
-/

namespace OpenWA.Webhooks

open Identity Js

inductive FilterOperator where
  | is
  | isNot
  | contains
  | equals
deriving DecidableEq

inductive FieldKind where
  | id
  | idArray
  | text
  | enum
  | boolean
deriving DecidableEq

structure WebhookFilterCondition where
  field : String
  operator : FilterOperator
  value : Json
  caseSensitive : Option Bool

structure FieldDefinition where
  field : String
  kind : FieldKind
  resolve : Fields → Option Json

variable (toLowerCase : Text → Text)

/-- `typeof v === 'string' ? v : undefined` -/
def str (v : Option Json) : Option String :=
  match v with
  | some (.string s) => some s
  | _ => none

/-- `v === true` -/
def isTrue (v : Option Json) : Bool :=
  match v with
  | some (.bool true) => true
  | _ => false

/-- A field that resolves to a string, if to anything. -/
def idField (field : String) (resolve : Fields → Option String) : FieldDefinition :=
  ⟨field, .id, fun data => (resolve data).map .string⟩

def booleanField (field : String) (resolve : Fields → Bool) : FieldDefinition :=
  ⟨field, .boolean, fun data => some (.bool (resolve data))⟩

def senderField : FieldDefinition :=
  idField "sender" fun data => (str (data.get? "author")).or (str (data.get? "from"))

def recipientField : FieldDefinition := idField "recipient" fun data => str (data.get? "to")

def chatIdField : FieldDefinition := idField "chatId" fun data => str (data.get? "chatId")

def bodyField : FieldDefinition :=
  ⟨"body", .text, fun data => some (.string ((str (data.get? "body")).getD ""))⟩

def typeField : FieldDefinition := ⟨"type", .enum, fun data => (str (data.get? "type")).map .string⟩

def isGroupField : FieldDefinition := booleanField "isGroup" fun data => isTrue (data.get? "isGroup")

def kindField : FieldDefinition where
  field := "kind"
  kind := .enum
  resolve data :=
    match str (data.get? "kind") with
    | some k =>
      if k ≠ "" then some (.string k)
      else derived data
    | none => derived data
where
  /-- The kind of the chat, for payloads that do not carry it. -/
  derived (data : Fields) : Option Json :=
    match str (data.get? "chatId") with
    | some chatId =>
      if chatId ≠ "" then some (.string (String.ofList (chatKind toLowerCase chatId.toList).toText))
      else none
    | none => none

def fromMeField : FieldDefinition := booleanField "fromMe" fun data => isTrue (data.get? "fromMe")

def hasMediaField : FieldDefinition :=
  booleanField "hasMedia" fun data =>
    isTrue (data.get? "hasMedia") || ((data.get? "media").any fun media => media ≠ .null)

def mentionsField : FieldDefinition where
  field := "mentions"
  kind := .idArray
  resolve data :=
    match data.get? "mentionedIds" with
    | some (.array items) => some (.array items)
    | _ => some (.array .nil)

/-- The registry, by event family. -/
def FILTER_FIELDS : List (String × List FieldDefinition) :=
  [("message", [senderField, recipientField, chatIdField, bodyField, typeField, isGroupField,
    kindField toLowerCase, fromMeField, hasMediaField, mentionsField])]

/-- `message.received` is of the family `message`. -/
def eventFamily (event : String) : String := String.ofList (firstPart '.' event.toList)

def getFieldDefinition (family field : String) : Option FieldDefinition :=
  ((FILTER_FIELDS toLowerCase).lookup family).bind fun defs => defs.find? fun f => f.field = field

/-- An identifier that an engine emitted, as its key. -/
def canonicalActor (jid : Text) (resolve : Text → Option Text) : Text :=
  toLowerCase (toNeutralJid toLowerCase jid resolve)

/-- A value that a user typed, as its key: digits alone are a phone, anything else is an identifier. -/
def canonicalInput (value : Text) (resolve : Text → Option Text) : Text :=
  let trimmed := trim value
  if !trimmed.isEmpty && '@' ∉ trimmed then
    let digits := trimmed.filter Char.isDigit
    toLowerCase ((if digits.isEmpty then trimmed else digits) ++ "@c.us".toList)
  else
    toLowerCase (toNeutralJid toLowerCase trimmed resolve)

def toStringArray (value : Option Json) : List Text :=
  match value with
  | some (.array items) => items.toList.filterMap fun item => (str (some item)).map (·.toList)
  | _ => []

/-- `isNot` is the complement of the match. -/
def applyOperator (operator : FilterOperator) (isMatch : Bool) : Bool :=
  if operator = .isNot then !isMatch else isMatch

def evaluateCondition (field : FieldDefinition) (condition : WebhookFilterCondition) (data : Fields)
    (resolve : Text → Option Text) : Bool :=
  let resolved := field.resolve data
  match field.kind with
  | .id =>
    let candidates := (toStringArray (some condition.value)).map fun v =>
      canonicalInput toLowerCase v resolve
    applyOperator condition.operator ((str resolved).any fun actual =>
      canonicalActor toLowerCase actual.toList resolve ∈ candidates)
  | .enum =>
    let candidates := toStringArray (some condition.value)
    applyOperator condition.operator ((str resolved).any fun actual => actual.toList ∈ candidates)
  | .idArray =>
    let candidates := (toStringArray (some condition.value)).map fun v =>
      canonicalInput toLowerCase v resolve
    let actual := (toStringArray resolved).map fun jid => canonicalActor toLowerCase jid resolve
    applyOperator condition.operator (actual.any fun v => v ∈ candidates)
  | .boolean => resolved = some (.bool (isTrue (some condition.value)))
  | .text =>
    match condition.value with
    | .string value =>
      let haystackRaw := ((str resolved).getD "").toList
      let cased := condition.caseSensitive.getD false
      let haystack := if cased then haystackRaw else toLowerCase haystackRaw
      let needle := if cased then value.toList else toLowerCase value.toList
      if condition.operator = .equals then haystack = needle else needle <:+: haystack
    -- malformed; validated on save
    | _ => true

/-- Filters that are missing, or whose conditions are no array, are `none`; a missing resolver is one
that answers `none`. -/
def evaluateFilters (filters : Option (List WebhookFilterCondition)) (event : String) (data : Fields)
    (resolve : Text → Option Text) : Bool :=
  match filters with
  | none => true
  | some conditions =>
    conditions.all fun condition =>
      match getFieldDefinition toLowerCase (eventFamily event) condition.field with
      | some field => evaluateCondition toLowerCase field condition data resolve
      | none => true

end OpenWA.Webhooks
