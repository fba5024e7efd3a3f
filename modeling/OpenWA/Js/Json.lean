/-!
This module contains the values of JSON, and its objects as their fields in order.
-/

namespace OpenWA.Js

mutual

inductive Json where
  | null
  | bool (b : Bool)
  | number (n : Rat)
  | string (s : String)
  | array (items : Items)
  | object (fields : Fields)
deriving DecidableEq

inductive Items where
  | nil
  | cons (item : Json) (rest : Items)
deriving DecidableEq

inductive Fields where
  | nil
  | cons (key : String) (value : Json) (rest : Fields)
deriving DecidableEq

end

def Items.toList (items : Items) : List Json :=
  match items with
  | .nil => []
  | .cons item rest => item :: rest.toList

namespace Fields

/-- `Object.entries(fields)` -/
def entries (fields : Fields) : List (String × Json) :=
  match fields with
  | .nil => []
  | .cons key value rest => (key, value) :: rest.entries

def get? (fields : Fields) (key : String) : Option Json :=
  match fields with
  | .nil => none
  | .cons k value rest => if k = key then some value else rest.get? key

/-- A field keeps its place when its value is replaced. -/
def set (fields : Fields) (key : String) (value : Json) : Fields :=
  match fields with
  | .nil => .cons key value .nil
  | .cons k v rest => if k = key then .cons key value rest else .cons k v (rest.set key value)

/-- `delete fields[key]` -/
def erase (fields : Fields) (key : String) : Fields :=
  match fields with
  | .nil => .nil
  | .cons k v rest => if k = key then rest.erase key else .cons k v (rest.erase key)

def ofList (entries : List (String × Json)) : Fields :=
  entries.foldl (fun fields entry => fields.set entry.1 entry.2) .nil

/-- `{ ...base, ...patch }` -/
def spread (base patch : Fields) : Fields :=
  match patch with
  | .nil => base
  | .cons key value rest => (base.set key value).spread rest

end Fields

/-- What `value[key]` finds, for a name that only objects have. -/
def Json.get? (value : Json) (key : String) : Option Json :=
  match value with
  | .object fields => fields.get? key
  | _ => none

/-- `Object.entries(value)`, of an object or an array. -/
def Json.entries? (value : Json) : Option (List (String × Json)) :=
  match value with
  | .object fields => some fields.entries
  | .array items => some (items.toList.zipIdx.map fun item => (toString item.2, item.1))
  | _ => none

end OpenWA.Js
