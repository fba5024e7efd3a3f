import OpenWA.Js.Encoding
import OpenWA.Js.Json
import OpenWA.Js.NumberText

/-!
This module contains `JSON.stringify`, and the grammar of its texts. A value of JSON is read back from its
text, so that values with one text are the same.
-/

namespace OpenWA.Js

section Stringify

/-- A character of a string in quotes. -/
def quoteChar (c : Char) : Text :=
  if c = '"' then ['\\', '"']
  else if c = '\\' then ['\\', '\\']
  else if c = '\x08' then ['\\', 'b']
  else if c = '\t' then ['\\', 't']
  else if c = '\n' then ['\\', 'n']
  else if c = '\x0c' then ['\\', 'f']
  else if c = '\r' then ['\\', 'r']
  else if c.toNat < 0x20 then
    ['\\', 'u', '0', '0', Nat.digitChar (c.toNat / 16), Nat.digitChar (c.toNat % 16)]
  else [c]

def quote (t : Text) : Text := '"' :: (t.flatMap quoteChar ++ ['"'])

mutual

/-- `JSON.stringify(value)` -/
def stringify (value : Json) : Text :=
  match value with
  | .null => "null".toList
  | .bool true => "true".toList
  | .bool false => "false".toList
  | .number n => numberText n
  | .string s => quote s.toList
  | .array items => '[' :: (stringifyItems items ++ [']'])
  | .object fields => '\x7b' :: (stringifyFields fields ++ ['\x7d'])
termination_by structural value

def stringifyItems (items : Items) : Text :=
  match items with
  | .nil => []
  | .cons item .nil => stringify item
  | .cons item rest => stringify item ++ ',' :: stringifyItems rest
termination_by structural items

def stringifyFields (fields : Fields) : Text :=
  match fields with
  | .nil => []
  | .cons key value .nil => quote key.toList ++ ':' :: stringify value
  | .cons key value rest => quote key.toList ++ ':' :: (stringify value ++ ',' :: stringifyFields rest)
termination_by structural fields

end

end Stringify

section Parse

def skipSpace (t : Text) : Text := t.dropWhile fun c => c = ' ' || c = '\t' || c = '\n' || c = '\r'

/-- What a backslash and a character stand for. -/
def escaped (c : Char) : Option Char :=
  match c with
  | '"' => some '"'
  | '\\' => some '\\'
  | '/' => some '/'
  | 'b' => some '\x08'
  | 'f' => some '\x0c'
  | 'n' => some '\n'
  | 'r' => some '\r'
  | 't' => some '\t'
  | _ => none

/-- The code units of a string up to its closing quote, and what follows it. -/
def parseUnits (t : Text) : Option (JsString × Text) :=
  match t with
  | [] => none
  | '"' :: t => some ([], t)
  | '\\' :: 'u' :: a :: b :: c :: d :: t => do
    let u ← readRadix 16 [a, b, c, d]
    let (s, t) ← parseUnits t
    return (UInt16.ofNat u :: s, t)
  | '\\' :: e :: t => do
    let c ← escaped e
    let (s, t) ← parseUnits t
    return (toUtf16Char c ++ s, t)
  | c :: t =>
    if c.toNat < 0x20 then none
    else do
      let (s, t) ← parseUnits t
      return (toUtf16Char c ++ s, t)

/-- A string behind its opening quote; a surrogate that stands alone is replaced. -/
def parseString (t : Text) : Option (String × Text) := do
  let (s, t) ← parseUnits t
  return (String.ofList (fromUtf16 s), t)

def startsNumber (t : Text) : Bool := t.head?.any fun c => c.isDigit || c = '-'

mutual

/-- The value at the start of a text, and what follows it. -/
def parseValue (fuel : Nat) (t : Text) : Option (Json × Text) :=
  match fuel with
  | 0 => none
  | fuel + 1 =>
    let t := skipSpace t
    if startsNumber t then
      (readNumber (t.takeWhile isNumberChar)).map fun n => (.number n, t.dropWhile isNumberChar)
    else
      match t with
      | 'n' :: 'u' :: 'l' :: 'l' :: t => some (.null, t)
      | 't' :: 'r' :: 'u' :: 'e' :: t => some (.bool true, t)
      | 'f' :: 'a' :: 'l' :: 's' :: 'e' :: t => some (.bool false, t)
      | '"' :: t => (parseString t).map fun (s, t) => (.string s, t)
      | '[' :: t =>
        match skipSpace t with
        | ']' :: t => some (.array .nil, t)
        | t => (parseItems fuel t).map fun (items, t) => (.array items, t)
      | '\x7b' :: t =>
        match skipSpace t with
        | '\x7d' :: t => some (.object .nil, t)
        | t => (parseFields fuel t).map fun (fields, t) => (.object fields, t)
      | _ => none
termination_by structural fuel

/-- At least one element, up to the closing bracket. -/
def parseItems (fuel : Nat) (t : Text) : Option (Items × Text) :=
  match fuel with
  | 0 => none
  | fuel + 1 => do
    let (item, t) ← parseValue fuel t
    match skipSpace t with
    | ']' :: t => return (.cons item .nil, t)
    | ',' :: t => do
      let (rest, t) ← parseItems fuel t
      return (.cons item rest, t)
    | _ => none
termination_by structural fuel

/-- At least one property, up to the closing brace. -/
def parseFields (fuel : Nat) (t : Text) : Option (Fields × Text) :=
  match fuel with
  | 0 => none
  | fuel + 1 =>
    match skipSpace t with
    | '"' :: t => do
      let (key, t) ← parseString t
      match skipSpace t with
      | ':' :: t => do
        let (value, t) ← parseValue fuel t
        match skipSpace t with
        | '\x7d' :: t => return (.cons key value .nil, t)
        | ',' :: t => do
          let (rest, t) ← parseFields fuel t
          return (.cons key value rest, t)
        | _ => none
      | _ => none
    | _ => none
termination_by structural fuel

end

/-- The value that a text spells, with the properties of its objects as they are spelled. -/
def readJson (t : Text) : Option Json :=
  match parseValue (t.length + 1) t with
  | some (value, rest) => if (skipSpace rest).isEmpty then some value else none
  | none => none

end Parse

example : readJson "\x7b\"a\":1,\x7d".toList = none := by decide +kernel

section Strings

theorem readRadix_control : ∀ n < 0x20,
    readRadix 16 ['0', '0', Nat.digitChar (n / 16), Nat.digitChar (n % 16)] = some n := by decide

theorem toUtf16Char_of_lt {c : Char} (h : c.toNat < 0x20) : toUtf16Char c = [UInt16.ofNat c.toNat] := by
  rw [toUtf16Char, if_pos (by omega)]

/-- A character is read from its place in quotes. -/
theorem parseUnits_quoteChar (c : Char) (t : Text) :
    parseUnits (quoteChar c ++ t) =
      (parseUnits t).bind fun p => some (toUtf16Char c ++ p.1, p.2) := by
  unfold quoteChar
  by_cases hquote : c = '"'
  . subst hquote
    simp [parseUnits, escaped]
  rw [if_neg hquote]
  by_cases hbackslash : c = '\\'
  . subst hbackslash
    simp [parseUnits, escaped]
  rw [if_neg hbackslash]
  split
  . next hc =>
    subst hc
    simp [parseUnits, escaped]
  split
  . next hc =>
    subst hc
    simp [parseUnits, escaped]
  split
  . next hc =>
    subst hc
    simp [parseUnits, escaped]
  split
  . next hc =>
    subst hc
    simp [parseUnits, escaped]
  split
  . next hc =>
    subst hc
    simp [parseUnits, escaped]
  split
  . next hc =>
    simp [parseUnits, readRadix_control c.toNat hc, toUtf16Char_of_lt hc]
  . next hc =>
    simp [parseUnits, hbackslash, hc]

theorem parseUnits_quoted (t rest : Text) :
    parseUnits (t.flatMap quoteChar ++ '"' :: rest) = some (toUtf16 t, rest) := by
  induction t with
  | nil => simp [parseUnits, toUtf16]
  | cons c t ih =>
    rw [List.flatMap_cons, List.append_assoc, parseUnits_quoteChar, ih]
    rfl

/-- A string is read from its text in quotes. -/
theorem parseString_quoted (s : String) (rest : Text) :
    parseString (s.toList.flatMap quoteChar ++ '"' :: rest) = some (s, rest) := by
  rw [parseString, parseUnits_quoted]
  simp [fromUtf16_toUtf16]

end Strings

mutual

/-- Every number of the value is a double. -/
def Json.Doubles (value : Json) : Prop :=
  match value with
  | .number n => IsDouble n
  | .array items => items.Doubles
  | .object fields => fields.Doubles
  | _ => True
termination_by structural value

def Items.Doubles (items : Items) : Prop :=
  match items with
  | .nil => True
  | .cons item rest => item.Doubles ∧ rest.Doubles
termination_by structural items

def Fields.Doubles (fields : Fields) : Prop :=
  match fields with
  | .nil => True
  | .cons _ value rest => value.Doubles ∧ rest.Doubles
termination_by structural fields

end

theorem Fields.doubles_iff (fields : Fields) : fields.Doubles ↔ ∀ entry ∈ fields.entries, entry.2.Doubles := by
  match fields with
  | .nil => simp [Fields.Doubles, Fields.entries]
  | .cons key value rest =>
    rw [Fields.Doubles, Fields.entries, List.forall_mem_cons, Fields.doubles_iff rest]
termination_by structural fields

section Values

/-- What a value may start with. -/
def startsValue (c : Char) : Bool := c.isDigit || c ∈ ['-', 'n', 't', 'f', '"', '[', '\x7b']

theorem stringify_head {value : Json} (h : value.Doubles) :
    ∃ c t, stringify value = c :: t ∧ startsValue c = true := by
  cases value with
  | null => exact ⟨'n', _, rfl, by decide⟩
  | bool b => cases b <;> exact ⟨_, _, rfl, by decide⟩
  | number n =>
    obtain ⟨⟨c, t, htext, hc⟩, -⟩ := numberText_chars h
    refine ⟨c, t, by rw [stringify, htext], ?_⟩
    rcases hc with hdigit | rfl
    . simp [startsValue, hdigit]
    . decide
  | string s => exact ⟨'"', _, rfl, by decide⟩
  | array items => exact ⟨'[', _, rfl, by decide⟩
  | object fields => exact ⟨'\x7b', _, rfl, by decide⟩

theorem skipSpace_of_startsValue {c : Char} (h : startsValue c = true) (t : Text) :
    skipSpace (c :: t) = c :: t := by
  have hspace : ∀ x ∈ [' ', '\t', '\n', '\r'], startsValue x = false :=
    forall_mem_of_all (by decide)
  have hne : ∀ x ∈ [' ', '\t', '\n', '\r'], c ≠ x := by
    rintro x hx rfl
    rw [hspace _ hx] at h
    cases h
  simp [skipSpace, hne ' ', hne '\t', hne '\n', hne '\r']

/-- What may follow a value. -/
def EndsValue (t : Text) : Prop := ∀ c ∈ t.head?, isNumberChar c = false

theorem endsValue_nil : EndsValue [] := by
  intro c hc
  cases hc

theorem endsValue_cons {c : Char} (h : isNumberChar c = false) (t : Text) : EndsValue (c :: t) := by
  intro x hx
  cases hx
  exact h

theorem parseValue_number {n : Rat} (h : IsDouble n) {rest : Text} (hrest : EndsValue rest) (fuel : Nat) :
    parseValue (fuel + 1) (numberText n ++ rest) = some (.number n, rest) := by
  obtain ⟨⟨c, t, htext, hc⟩, hchars⟩ := numberText_chars h
  have hstart : startsValue c = true := by
    rcases hc with hdigit | rfl
    . simp [startsValue, hdigit]
    . decide
  have hnumber : startsNumber (numberText n ++ rest) = true := by
    rw [htext]
    rcases hc with hdigit | rfl
    . simp [startsNumber, hdigit]
    . simp [startsNumber]
  have hskip : skipSpace (numberText n ++ rest) = numberText n ++ rest := by
    rw [htext]
    exact skipSpace_of_startsValue hstart _
  have hstop : rest.takeWhile isNumberChar = [] ∧ rest.dropWhile isNumberChar = rest := by
    cases rest with
    | nil => exact ⟨rfl, rfl⟩
    | cons c rest => simp [hrest c rfl]
  rw [parseValue]
  dsimp only
  rw [hskip, if_pos hnumber, List.takeWhile_append_of_pos hchars, List.dropWhile_append_of_pos hchars,
    hstop.1, hstop.2, List.append_nil, readNumber_numberText h]
  rfl

theorem parseValue_string (s : String) (rest : Text) (fuel : Nat) :
    parseValue (fuel + 1) (quote s.toList ++ rest) = some (.string s, rest) := by
  have hskip : skipSpace (quote s.toList ++ rest) =
      '"' :: (s.toList.flatMap quoteChar ++ '"' :: rest) := by
    simp [quote, skipSpace]
  rw [parseValue, hskip]
  simp [startsNumber, parseString_quoted]

theorem stringifyItems_cons (item : Json) (rest : Items) :
    stringifyItems (.cons item rest) =
      stringify item ++ if rest = .nil then [] else ',' :: stringifyItems rest := by
  cases rest <;> simp [stringifyItems]

theorem stringifyFields_cons (key : String) (value : Json) (rest : Fields) :
    stringifyFields (.cons key value rest) = quote key.toList ++ ':' ::
      (stringify value ++ if rest = .nil then [] else ',' :: stringifyFields rest) := by
  cases rest <;> simp [stringifyFields]

theorem parseValue_array {item : Json} (h : item.Doubles) {items : Items} {fuel : Nat} {rest : Text}
    (hitems : parseItems fuel (stringifyItems (.cons item items) ++ ']' :: rest) =
      some (.cons item items, rest)) :
    parseValue (fuel + 1) (stringify (.array (.cons item items)) ++ rest) =
      some (.array (.cons item items), rest) := by
  obtain ⟨c, t, htext, hstart⟩ := stringify_head h
  have hopen : stringify (.array (.cons item items)) ++ rest =
      '[' :: (stringifyItems (.cons item items) ++ ']' :: rest) := by
    simp [stringify]
  have hskip : skipSpace (stringifyItems (.cons item items) ++ ']' :: rest) =
      stringifyItems (.cons item items) ++ ']' :: rest := by
    rw [stringifyItems_cons, htext]
    exact skipSpace_of_startsValue hstart _
  have hhead : ∀ t', stringifyItems (.cons item items) ++ ']' :: rest ≠ ']' :: t' := by
    intro t' heq
    rw [stringifyItems_cons, htext] at heq
    cases heq
    cases hstart
  rw [hopen, parseValue, skipSpace_of_startsValue (by decide)]
  simp only [startsNumber, List.head?_cons, Option.any_some, Char.reduceIsDigit, Bool.false_or]
  rw [if_neg (by decide), hskip]
  split
  . next heq => exact absurd heq (hhead _)
  . rw [hitems]
    rfl

theorem parseValue_object {key : String} {value : Json} {fields : Fields} {fuel : Nat} {rest : Text}
    (hfields : parseFields fuel (stringifyFields (.cons key value fields) ++ '\x7d' :: rest) =
      some (.cons key value fields, rest)) :
    parseValue (fuel + 1) (stringify (.object (.cons key value fields)) ++ rest) =
      some (.object (.cons key value fields), rest) := by
  have hopen : stringify (.object (.cons key value fields)) ++ rest =
      '\x7b' :: (stringifyFields (.cons key value fields) ++ '\x7d' :: rest) := by
    simp [stringify]
  have hskip : skipSpace (stringifyFields (.cons key value fields) ++ '\x7d' :: rest) =
      stringifyFields (.cons key value fields) ++ '\x7d' :: rest := by
    rw [stringifyFields_cons]
    exact skipSpace_of_startsValue (by decide) _
  have hhead : ∀ t', stringifyFields (.cons key value fields) ++ '\x7d' :: rest ≠ '\x7d' :: t' := by
    intro t' heq
    rw [stringifyFields_cons] at heq
    cases heq
  rw [hopen, parseValue, skipSpace_of_startsValue (by decide)]
  simp only [startsNumber, List.head?_cons, Option.any_some, Char.reduceIsDigit, Bool.false_or]
  rw [if_neg (by decide), hskip]
  split
  . next heq => exact absurd heq (hhead _)
  . rw [hfields]
    rfl

mutual

/-- A value is read from its text. The fuel goes down by one at each level, which has a text of its own. -/
theorem parseValue_stringify (value : Json) (h : value.Doubles) (fuel : Nat)
    (hfuel : (stringify value).length ≤ fuel) {rest : Text} (hrest : EndsValue rest) :
    parseValue fuel (stringify value ++ rest) = some (value, rest) := by
  obtain ⟨c, t, htext, hstart⟩ := stringify_head h
  cases fuel with
  | zero =>
    rw [htext] at hfuel
    simp at hfuel
  | succ fuel =>
    match value with
    | .null => simp [stringify, parseValue, skipSpace, startsNumber]
    | .bool true => simp [stringify, parseValue, skipSpace, startsNumber]
    | .bool false => simp [stringify, parseValue, skipSpace, startsNumber]
    | .number n => exact parseValue_number h hrest fuel
    | .string s => exact parseValue_string s rest fuel
    | .array .nil => simp [stringify, stringifyItems, parseValue, skipSpace, startsNumber]
    | .array (.cons item items) =>
      rw [stringify] at hfuel
      simp only [List.length_cons, List.length_append, List.length_nil] at hfuel
      exact parseValue_array h.1 (parseItems_stringify (.cons item items) h (by simp) fuel (by omega) rest)
    | .object .nil => simp [stringify, stringifyFields, parseValue, skipSpace, startsNumber]
    | .object (.cons key value fields) =>
      rw [stringify] at hfuel
      simp only [List.length_cons, List.length_append, List.length_nil] at hfuel
      exact parseValue_object (parseFields_stringify (.cons key value fields) h (by simp) fuel (by omega) rest)
termination_by structural value

theorem parseItems_stringify (items : Items) (h : items.Doubles) (hne : items ≠ .nil) (fuel : Nat)
    (hfuel : (stringifyItems items).length < fuel) (rest : Text) :
    parseItems fuel (stringifyItems items ++ ']' :: rest) = some (items, rest) := by
  match items, fuel with
  | .nil, _ => exact absurd rfl hne
  | .cons item items, fuel + 1 =>
    rw [stringifyItems_cons] at hfuel ⊢
    by_cases hnil : items = .nil
    . subst hnil
      rw [if_pos rfl, List.append_nil] at hfuel ⊢
      have hitem := parseValue_stringify item h.1 fuel (by omega)
        (endsValue_cons (c := ']') (by decide) rest)
      simp [parseItems, hitem, skipSpace]
    . rw [if_neg hnil] at hfuel ⊢
      simp only [List.length_append, List.length_cons] at hfuel
      have hitem := parseValue_stringify item h.1 fuel (by omega)
        (endsValue_cons (c := ',') (by decide) (stringifyItems items ++ ']' :: rest))
      have hitems := parseItems_stringify items h.2 hnil fuel (by omega) rest
      simp [parseItems, hitem, hitems, skipSpace]
termination_by structural items

theorem parseFields_stringify (fields : Fields) (h : fields.Doubles) (hne : fields ≠ .nil) (fuel : Nat)
    (hfuel : (stringifyFields fields).length < fuel) (rest : Text) :
    parseFields fuel (stringifyFields fields ++ '\x7d' :: rest) = some (fields, rest) := by
  match fields, fuel with
  | .nil, _ => exact absurd rfl hne
  | .cons key value fields, fuel + 1 =>
    rw [stringifyFields_cons] at hfuel ⊢
    by_cases hnil : fields = .nil
    . subst hnil
      rw [if_pos rfl, List.append_nil] at hfuel ⊢
      simp only [List.length_append, List.length_cons] at hfuel
      have hvalue := parseValue_stringify value h.1 fuel (by omega)
        (endsValue_cons (c := '\x7d') (by decide) rest)
      simp [parseFields, quote, parseString_quoted, hvalue, skipSpace]
    . rw [if_neg hnil] at hfuel ⊢
      simp only [List.length_append, List.length_cons] at hfuel
      have hvalue := parseValue_stringify value h.1 fuel (by omega)
        (endsValue_cons (c := ',') (by decide) (stringifyFields fields ++ '\x7d' :: rest))
      have hfields := parseFields_stringify fields h.2 hnil fuel (by omega) rest
      simp [parseFields, quote, parseString_quoted, hvalue, hfields, skipSpace]
termination_by structural fields

end

/-- A value is read back from its text. -/
theorem readJson_stringify {value : Json} (h : value.Doubles) :
    readJson (stringify value) = some value := by
  have hread := parseValue_stringify value h ((stringify value).length + 1) (Nat.le_succ _) endsValue_nil
  rw [List.append_nil] at hread
  rw [readJson, hread]
  rfl

theorem stringify_injective {v w : Json} (hv : v.Doubles) (hw : w.Doubles)
    (h : stringify v = stringify w) : v = w := by
  rw [← Option.some.injEq, ← readJson_stringify hv, ← readJson_stringify hw, h]

end Values

end OpenWA.Js
