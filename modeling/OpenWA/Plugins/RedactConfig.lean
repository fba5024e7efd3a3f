import OpenWA.Js.Encoding
import OpenWA.Js.Map
import Mathlib.Data.List.Sort

/-!
This module contains the masking of the secrets in the configuration of a plugin, and their restoration
when the masked configuration comes back.
-/

namespace OpenWA.Plugins

open Js

/-- A value of a configuration; an object is its own properties in order. -/
inductive Value where
  | null
  | bool (b : Bool)
  | number (n : Rat)
  | string (s : String)
  /-- a function that objects inherit, by its name -/
  | native (name : String)
  | array (items : List Value)
  | object (fields : List (String × Value))

/-- A field of a configuration schema: of type `object` with `properties`, of type `array` with `items`,
or any other one. -/
inductive ConfigField where
  | plain (secret : Bool)
  | object (secret : Bool) (properties : List (String × ConfigField))
  | array (secret : Bool) (items : ConfigField)

abbrev Properties := List (String × ConfigField)

def ConfigField.secret (field : ConfigField) : Bool :=
  match field with
  | .plain secret | .object secret _ | .array secret _ => secret

def SECRET_SENTINEL : String := "***"

/-- Neither `undefined`, `null` nor the empty string. -/
def isMeaningful (v : Option Value) : Bool :=
  match v with
  | none | some .null => false
  | some (.string s) => s ≠ ""
  | some _ => true

/-- What an object inherits, apart from `__proto__`. -/
def inheritedNames : List String :=
  ["constructor", "__defineGetter__", "__defineSetter__", "hasOwnProperty", "__lookupGetter__",
    "__lookupSetter__", "isPrototypeOf", "propertyIsEnumerable", "toString", "valueOf",
    "toLocaleString"]

/-- What a lookup finds along the prototypes of an object. -/
abbrev Inherited := String → Option Value

def objectPrototype : Inherited := fun key => if key ∈ inheritedNames then some (.native key) else none

/-- An object under construction: its own properties, and what it inherits. -/
structure Out where
  own : List (String × Value)
  inherited : Inherited

/-- `{ ...fields }` -/
def Out.ofFields (fields : List (String × Value)) : Out := ⟨fields, objectPrototype⟩

/-- What an object inherits once its prototype is `proto`. -/
def Out.asPrototype (proto : Out) : Inherited :=
  fun key => (proto.own.lookup key).or (proto.inherited key)

def Out.set (out : Out) (key : String) (v : Value) : Out :=
  { out with own := Map.setEntries out.own key v }

def Out.delete (out : Out) (key : String) : Out :=
  { out with own := out.own.filter fun entry => entry.1 ≠ key }

section Redact

mutual

def redactValue (value : Value) (field : ConfigField) : Value :=
  match field with
  | .plain secret => if secret && isMeaningful (some value) then .string SECRET_SENTINEL else value
  | .object secret properties =>
    if secret && isMeaningful (some value) then .string SECRET_SENTINEL
    else
      match value with
      | .object fields => .object (redactProperties (.ofFields fields) properties).own
      | value => value
  | .array secret items =>
    if secret && isMeaningful (some value) then .string SECRET_SENTINEL
    else
      match value with
      | .array vs => .array (vs.map fun item => redactValue item items)
      | value => value
termination_by structural field

/-- The loop of `redactObject` over the properties that are left. -/
def redactProperties (out : Out) (properties : Properties) : Out :=
  match properties with
  | [] => out
  | (key, field) :: rest =>
    match out.own.lookup key with
    | some v => redactProperties (out.set key (redactValue v field)) rest
    | none =>
      if key = "__proto__" then
        -- the value is the prototype, which is empty, and only an object can replace it
        match field with
        | .object false inner =>
          redactProperties { out with
            inherited := (redactProperties (.ofFields []) inner).asPrototype } rest
        | _ => redactProperties out rest
      else
        match out.inherited key with
        | some v => redactProperties (out.set key (redactValue v field)) rest
        | none => redactProperties out rest
termination_by structural properties

end

def redactObject (config : List (String × Value)) (properties : Properties) : List (String × Value) :=
  (redactProperties (.ofFields config) properties).own

/-- Without a schema every meaningful value is masked. -/
def redactSecretConfig (config : Option (List (String × Value))) (schema : Option Properties) :
    List (String × Value) :=
  match schema with
  | none => (config.getD []).map fun entry =>
    if isMeaningful (some entry.2) then (entry.1, .string SECRET_SENTINEL) else entry
  | some properties => redactObject (config.getD []) properties

end Redact

section Signature

-- `JSON.stringify` of what is neither an array nor a plain object, or `null`, and of a key
variable (stringify : Value → Text) (quote : String → Text)

mutual

/-- Deterministic JSON, with the keys of an object sorted. -/
def stableStringify (v : Value) : Text :=
  match v with
  | .array items => '[' :: [','].intercalate (stringifyItems items) ++ [']']
  | .object fields =>
    '\x7b' :: [','].intercalate (((stringifyFields fields).insertionSort fun a b => sortLe a.1 b.1).map
      fun entry => quote entry.1 ++ ':' :: entry.2) ++ ['\x7d']
  | v => stringify v
termination_by structural v

def stringifyItems (items : List Value) : List Text :=
  match items with
  | [] => []
  | item :: items => stableStringify item :: stringifyItems items
termination_by structural items

def stringifyFields (fields : List (String × Value)) : List (String × Text) :=
  match fields with
  | [] => []
  | (key, v) :: fields => (key, stableStringify v) :: stringifyFields fields
termination_by structural fields

end

/-- An element with its secrets masked, as its identity. -/
def elementSignature (value : Value) (field : ConfigField) : Text :=
  stableStringify stringify quote (redactValue value field)

end Signature

section Restore

variable (stringify : Value → Text) (quote : String → Text)

/-- The stored element an incoming one stands for: the only one with its signature, or the one at its
position. -/
def matchOf (items : ConfigField) (existing : List Value) (sameLength : Bool) (item : Value) (i : Nat) :
    Option Value :=
  let s := elementSignature stringify quote item items
  match existing.filter fun ex => elementSignature stringify quote ex items = s with
  | [ex] => some ex
  | _ =>
    if sameLength then existing[i]?
    else (existing[i]?).filter fun twin => elementSignature stringify quote twin items = s

/-- A secret as one unit: a new value is kept, a masked or empty one stands for the stored one. -/
def restoreSecret (incoming : Value) (existing : Option Value) : Option Value :=
  match incoming with
  | .string s =>
    if s = SECRET_SENTINEL || s = "" then existing.filter fun v => isMeaningful (some v)
    else some incoming
  | .null => existing.filter fun v => isMeaningful (some v)
  | _ => some incoming

/-- `existing?.[key]` -/
def readProperty (existing : Option (List (String × Value))) (key : String) : Option Value :=
  existing.bind fun fields =>
    (fields.lookup key).or (if key = "__proto__" then some (.object []) else objectPrototype key)

/-- The properties of a plain object. -/
def plainObject (v : Option Value) : Option (List (String × Value)) :=
  match v with
  | some (.object fields) => some fields
  | _ => none

def arrayItems (v : Option Value) : List Value :=
  match v with
  | some (.array items) => items
  | _ => []

mutual

/-- Nothing is returned where the key is dropped. -/
def restoreValue (incoming : Value) (existing : Option Value) (field : ConfigField) : Option Value :=
  match field with
  | .plain secret => if secret then restoreSecret incoming existing else some incoming
  | .object secret properties =>
    if secret then restoreSecret incoming existing
    else
      match incoming with
      | .object fields =>
        some (.object (restoreProperties (.ofFields fields) (plainObject existing) properties).own)
      | incoming => some incoming
  | .array secret items =>
    if secret then restoreSecret incoming existing
    else
      match incoming with
      | .array rows =>
        let existingArr := arrayItems existing
        let sameLength := rows.length = existingArr.length
        some (.array (rows.zipIdx.filterMap fun row =>
          restoreValue row.1 (matchOf stringify quote items existingArr sameLength row.1 row.2) items))
      | incoming => some incoming
termination_by structural field

/-- The loop of `restoreObject` over the properties that are left. -/
def restoreProperties (out : Out) (existing : Option (List (String × Value)))
    (properties : Properties) : Out :=
  match properties with
  | [] => out
  | (key, field) :: rest =>
    match out.own.lookup key with
    | some v =>
      match restoreValue v (readProperty existing key) field with
      | some restored => restoreProperties (out.set key restored) existing rest
      | none => restoreProperties (out.delete key) existing rest
    | none =>
      if key = "__proto__" then
        -- as in `redactProperties`; the prototype is neither masked nor empty
        match field with
        | .object false inner =>
          restoreProperties { out with inherited := (restoreProperties (.ofFields [])
            (plainObject (readProperty existing key)) inner).asPrototype } existing rest
        | _ => restoreProperties out existing rest
      else
        match out.inherited key with
        | some v =>
          match restoreValue v (readProperty existing key) field with
          | some restored => restoreProperties (out.set key restored) existing rest
          | none => restoreProperties (out.delete key) existing rest
        | none => restoreProperties out existing rest
termination_by structural properties

end

def restoreObject (incoming : List (String × Value)) (existing : Option (List (String × Value)))
    (properties : Properties) : List (String × Value) :=
  (restoreProperties stringify quote (.ofFields incoming) existing properties).own

/-- Without a schema every mask stands for the stored value. -/
def restoreSecretConfig (incoming : List (String × Value)) (existing : Option (List (String × Value)))
    (schema : Option Properties) : List (String × Value) :=
  match schema with
  | none => incoming.filterMap fun entry =>
    match entry.2 with
    | .string s =>
      if s = SECRET_SENTINEL then
        ((readProperty (some (existing.getD [])) entry.1).filter fun v => isMeaningful (some v)).map
          fun v => (entry.1, v)
      else some entry
    | _ => some entry
  | some properties => restoreObject stringify quote incoming existing properties

end Restore

end OpenWA.Plugins
