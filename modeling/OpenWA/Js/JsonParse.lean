import OpenWA.Js.JsonText
import OpenWA.Js.Map
import Mathlib.Data.List.Sort

/-!
This module contains `JSON.parse`. It gives back each value that the source can hold from its text.
-/

namespace OpenWA.Js

section Objects

/-- The value of a key that is an array index; an object lists those first. -/
def arrayIndex (key : String) : Option Nat :=
  (readDigits key.toList).filter fun n => Nat.toDigits 10 n = key.toList && n < 2 ^ 32 - 1

/-- Whether an object lists the first key before the second, whichever was set first. -/
def keyBefore (a b : String) : Bool :=
  match arrayIndex a, arrayIndex b with
  | some n, some m => n ≤ m
  | none, some _ => false
  | _, none => true

/-- The object that gets the entries one after the other. -/
def objectOf (entries : List (String × Json)) : Fields :=
  Fields.ofList ((Fields.ofList entries).entries.insertionSort fun a b => keyBefore a.1 b.1)

mutual

/-- The value that evaluating a text creates: a key that is spelled twice has its last value. -/
def evaluate (value : Json) : Json :=
  match value with
  | .array items => .array (evaluateItems items)
  | .object fields => .object (objectOf (evaluateEntries fields))
  | value => value
termination_by structural value

def evaluateItems (items : Items) : Items :=
  match items with
  | .nil => .nil
  | .cons item rest => .cons (evaluate item) (evaluateItems rest)
termination_by structural items

def evaluateEntries (fields : Fields) : List (String × Json) :=
  match fields with
  | .nil => []
  | .cons key value rest => (key, evaluate value) :: evaluateEntries rest
termination_by structural fields

end

/-- `JSON.parse(t)` -/
def parse (t : Text) : Option Json := (readJson t).map evaluate

def Fields.keys (fields : Fields) : List String := fields.entries.map (·.1)

/-- The keys are distinct, and in the order in which objects list them. -/
def Fields.Listed (fields : Fields) : Prop :=
  fields.keys.Pairwise fun a b => a ≠ b ∧ keyBefore a b = true

mutual

/-- A value that the source can hold. -/
def Json.Proper (value : Json) : Prop :=
  match value with
  | .number n => IsDouble n
  | .array items => items.Proper
  | .object fields => fields.Listed ∧ fields.Proper
  | _ => True
termination_by structural value

def Items.Proper (items : Items) : Prop :=
  match items with
  | .nil => True
  | .cons item rest => item.Proper ∧ rest.Proper
termination_by structural items

def Fields.Proper (fields : Fields) : Prop :=
  match fields with
  | .nil => True
  | .cons _ value rest => value.Proper ∧ rest.Proper
termination_by structural fields

end

mutual

theorem Json.Proper.doubles (value : Json) (h : value.Proper) : value.Doubles := by
  match value with
  | .null => trivial
  | .bool _ => trivial
  | .number _ => exact h
  | .string _ => trivial
  | .array items => exact Items.Proper.doubles items h
  | .object fields => exact Fields.Proper.doubles fields h.2
termination_by structural value

theorem Items.Proper.doubles (items : Items) (h : items.Proper) : items.Doubles := by
  match items with
  | .nil => trivial
  | .cons item rest => exact ⟨Json.Proper.doubles item h.1, Items.Proper.doubles rest h.2⟩
termination_by structural items

theorem Fields.Proper.doubles (fields : Fields) (h : fields.Proper) : fields.Doubles := by
  match fields with
  | .nil => trivial
  | .cons _ value rest => exact ⟨Json.Proper.doubles value h.1, Fields.Proper.doubles rest h.2⟩
termination_by structural fields

end

theorem Fields.entries_set (fields : Fields) (key : String) (value : Json) :
    (fields.set key value).entries = Map.setEntries fields.entries key value := by
  match fields with
  | .nil => rfl
  | .cons k v rest =>
    unfold Fields.set Fields.entries Map.setEntries
    dsimp only
    by_cases hkey : k = key
    . rw [if_pos hkey, if_pos hkey]
    . rw [if_neg hkey, if_neg hkey, ← Fields.entries_set rest key value]
termination_by structural fields

theorem Fields.get?_eq_lookup (fields : Fields) (key : String) :
    fields.get? key = fields.entries.lookup key := by
  match fields with
  | .nil => rfl
  | .cons k v rest =>
    unfold Fields.get? Fields.entries
    rw [List.lookup_cons]
    by_cases hkey : k = key
    . simp [hkey]
    . rw [if_neg hkey, beq_eq_false_iff_ne.mpr (Ne.symm hkey), Fields.get?_eq_lookup rest key]
termination_by structural fields

theorem Fields.entries_injective (fields fields' : Fields) (h : fields.entries = fields'.entries) :
    fields = fields' := by
  match fields, fields' with
  | .nil, .nil => rfl
  | .nil, .cons _ _ _ => cases h
  | .cons _ _ _, .nil => cases h
  | .cons k v rest, .cons k' v' rest' =>
    simp only [Fields.entries, List.cons.injEq, Prod.mk.injEq] at h
    rw [h.1.1, h.1.2, Fields.entries_injective rest rest' h.2]
termination_by structural fields

theorem Fields.get?_set (fields : Fields) (key other : String) (value : Json) :
    (fields.set key value).get? other = if other = key then some value else fields.get? other := by
  rw [Fields.get?_eq_lookup, Fields.entries_set, Map.lookup_setEntries, ← Fields.get?_eq_lookup]

theorem Fields.keys_set (fields : Fields) (key : String) (value : Json) :
    (fields.set key value).keys = if key ∈ fields.keys then fields.keys else fields.keys ++ [key] := by
  rw [Fields.keys, Fields.entries_set, Map.keys_setEntries, Fields.keys]

theorem entries_foldl_set (entries : List (String × Json)) (fields : Fields)
    (h : ((fields.entries ++ entries).map (·.1)).Nodup) :
    (entries.foldl (fun fields entry => fields.set entry.1 entry.2) fields).entries =
      fields.entries ++ entries := by
  induction entries generalizing fields with
  | nil => simp
  | cons entry entries ih =>
    have hnew : entry.1 ∉ fields.entries.map (·.1) := by
      rw [List.map_append, List.nodup_append] at h
      intro hmem
      exact h.2.2 entry.1 hmem entry.1 (by simp) rfl
    have hset : (fields.set entry.1 entry.2).entries = fields.entries ++ [entry] := by
      rw [Fields.entries_set, Map.setEntries_of_notMem hnew]
    rw [List.foldl_cons, ih, hset, List.append_assoc, List.singleton_append]
    rw [hset, List.append_assoc, List.singleton_append]
    exact h

theorem Fields.ofList_entries {fields : Fields} (h : fields.keys.Nodup) :
    Fields.ofList fields.entries = fields := by
  apply Fields.entries_injective
  exact entries_foldl_set fields.entries .nil h

/-- An object has its properties in the order in which it lists them. -/
theorem objectOf_entries {fields : Fields} (h : fields.Listed) : objectOf fields.entries = fields := by
  have hnodup : fields.keys.Nodup := h.imp And.left
  have hsorted : fields.entries.Pairwise fun a b => keyBefore a.1 b.1 = true := by
    have hkeys := h.imp And.right
    rw [Fields.keys, List.pairwise_map] at hkeys
    exact hkeys
  rw [objectOf, Fields.ofList_entries hnodup, hsorted.insertionSort_eq, Fields.ofList_entries hnodup]

mutual

theorem evaluate_of_proper (value : Json) (h : value.Proper) : evaluate value = value := by
  match value with
  | .null => rfl
  | .bool _ => rfl
  | .number _ => rfl
  | .string _ => rfl
  | .array items => rw [evaluate, evaluateItems_of_proper items h]
  | .object fields => rw [evaluate, evaluateEntries_of_proper fields h.2, objectOf_entries h.1]
termination_by structural value

theorem evaluateItems_of_proper (items : Items) (h : items.Proper) : evaluateItems items = items := by
  match items with
  | .nil => rfl
  | .cons item rest => rw [evaluateItems, evaluate_of_proper item h.1, evaluateItems_of_proper rest h.2]
termination_by structural items

theorem evaluateEntries_of_proper (fields : Fields) (h : fields.Proper) :
    evaluateEntries fields = fields.entries := by
  match fields with
  | .nil => rfl
  | .cons key value rest =>
    rw [evaluateEntries, evaluate_of_proper value h.1, evaluateEntries_of_proper rest h.2, Fields.entries]
termination_by structural fields

end

/-- What is stringified and parsed comes back as it was. -/
theorem parse_stringify {value : Json} (h : value.Proper) : parse (stringify value) = some value := by
  rw [parse, readJson_stringify (Json.Proper.doubles value h), Option.map_some,
    evaluate_of_proper value h]

/-- A property that is set keeps the keys as an object lists them. -/
theorem Fields.Listed.set {fields : Fields} (h : fields.Listed) {key : String}
    (hkey : arrayIndex key = none) (value : Json) : (fields.set key value).Listed := by
  unfold Fields.Listed
  rw [Fields.keys_set]
  split
  . exact h
  . next hnew =>
    rw [List.pairwise_append]
    refine ⟨h, List.pairwise_singleton _ _, ?_⟩
    intro a ha b hb
    rw [List.mem_singleton.mp hb]
    constructor
    . rintro rfl
      exact hnew ha
    . unfold keyBefore
      rw [hkey]
      cases arrayIndex a <;> rfl

theorem Fields.Proper.set (fields : Fields) (h : fields.Proper) (key : String) {value : Json}
    (hvalue : value.Proper) : (fields.set key value).Proper := by
  match fields with
  | .nil => exact ⟨hvalue, trivial⟩
  | .cons k v rest =>
    unfold Fields.set
    split
    . exact ⟨hvalue, h.2⟩
    . exact ⟨h.1, Fields.Proper.set rest h.2 key hvalue⟩
termination_by structural fields

theorem Fields.Proper.get? (fields : Fields) (h : fields.Proper) {key : String} {value : Json}
    (hget : fields.get? key = some value) : value.Proper := by
  match fields with
  | .nil => cases hget
  | .cons k v rest =>
    unfold Fields.get? at hget
    split at hget
    . cases hget
      exact h.1
    . exact Fields.Proper.get? rest h.2 hget
termination_by structural fields

theorem Fields.proper_iff (fields : Fields) : fields.Proper ↔ ∀ entry ∈ fields.entries, entry.2.Proper := by
  match fields with
  | .nil => simp [Fields.Proper, Fields.entries]
  | .cons key value rest => simp [Fields.Proper, Fields.entries, Fields.proper_iff rest]
termination_by structural fields

end Objects

example : parse "\x7b\"b\":1,\"7\":2,\"b\":3\x7d".toList =
    some (.object (.cons "7" (.number 2) (.cons "b" (.number 3) .nil))) := by
  decide +kernel

end OpenWA.Js
