import OpenWA.Plugins.PropertyLoop

/-!
This module contains the round trip of a configuration: masked for a read and written back unchanged, it
is the stored one without its empty secrets, unless the schema has a property that objects inherit.
-/

namespace OpenWA.Plugins

open Js

/-- No key stands twice in an object, at any level. -/
inductive Value.Distinct : Value → Prop where
  | null : Value.Distinct .null
  | bool (b : Bool) : Value.Distinct (.bool b)
  | number (n : Rat) : Value.Distinct (.number n)
  | string (s : String) : Value.Distinct (.string s)
  | native (name : String) : Value.Distinct (.native name)
  | array {items : List Value} (h : ∀ v ∈ items, v.Distinct) : Value.Distinct (.array items)
  | object {fields : List (String × Value)} (keys : (fields.map (·.1)).Nodup)
    (h : ∀ entry ∈ fields, entry.2.Distinct) : Value.Distinct (.object fields)

structure PluginConfigSchema where
  properties : Properties
  distinct : (ConfigField.object false properties).Distinct

structure Config where
  fields : List (String × Value)
  distinct : (Value.object fields).Distinct

section Spec

mutual

/-- The value without its empty secrets; nothing is left of an empty secret. -/
def stripValue (field : ConfigField) (v : Value) : Option Value :=
  match field with
  | .plain secret => if secret && !isMeaningful (some v) then none else some v
  | .object secret properties =>
    if secret then if isMeaningful (some v) then some v else none
    else
      match v with
      | .object fields => some (.object (fields.filterMap fun entry =>
        (stripProperty properties entry.1 entry.2).map fun v => (entry.1, v)))
      | v => some v
  | .array secret items =>
    if secret then if isMeaningful (some v) then some v else none
    else
      match v with
      | .array vs => some (.array (vs.filterMap (stripValue items)))
      | v => some v
termination_by structural field

/-- The value of one property, by the field of its name. -/
def stripProperty (properties : Properties) (key : String) (v : Value) : Option Value :=
  match properties with
  | [] => some v
  | (name, field) :: rest => if key = name then stripValue field v else stripProperty rest key v
termination_by structural properties

end

def stripFields (properties : Properties) (fields : List (String × Value)) : List (String × Value) :=
  fields.filterMap fun entry => (stripProperty properties entry.1 entry.2).map fun v => (entry.1, v)

mutual

/-- Some object that is masked by its properties misses a name that objects inherit. -/
def Missing (field : ConfigField) (v : Value) : Prop :=
  match field with
  | .plain _ => False
  | .object secret properties =>
    secret = false ∧
      match v with
      | .object fields => MissingName properties fields ∨
        ∃ entry ∈ fields, MissingProperty properties entry.1 entry.2
      | _ => False
  | .array secret items =>
    secret = false ∧
      match v with
      | .array vs => ∃ v ∈ vs, Missing items v
      | _ => False
termination_by structural field

def MissingProperty (properties : Properties) (key : String) (v : Value) : Prop :=
  match properties with
  | [] => False
  | (name, field) :: rest => if key = name then Missing field v else MissingProperty rest key v
termination_by structural properties

end

end Spec

section Masking

theorem isMeaningful_sentinel : isMeaningful (some (.string SECRET_SENTINEL)) = true := by decide

/-- What the loop of `redactObject` leaves under the name of a property. -/
theorem lookup_redactProperties {properties : Properties} (hnames : (properties.map (·.1)).Nodup)
    (fields : List (String × Value)) {entry : String × ConfigField} (hentry : entry ∈ properties) :
    (∃ v, (fields.lookup entry.1 = some v ∨
        fields.lookup entry.1 = none ∧ entry.1 ∈ inheritedNames) ∧
      (redactProperties (.ofFields fields) properties).own.lookup entry.1 =
        some (redactValue v entry.2)) ∨
    (fields.lookup entry.1 = none ∧ entry.1 ∉ inheritedNames ∧
      (redactProperties (.ofFields fields) properties).own.lookup entry.1 = none) := by
  rw [redactProperties_eq_loop]
  exact lookup_loop properties (.ofFields fields) looksLike_objectPrototype
    (protosLook_redact properties) hnames hentry

/-- A secret is masked as one unit. -/
theorem redactValue_of_secret {field : ConfigField} (h : field.secret = true) (v : Value) :
    redactValue v field =
      if isMeaningful (some v) = true then .string SECRET_SENTINEL else v := by
  cases hv : isMeaningful (some v) with
  | true =>
    cases field with
    | plain secret =>
      cases h
      simp [redactValue, hv]
    | object secret properties =>
      cases h
      simp [redactValue, hv]
    | array secret items =>
      cases h
      simp [redactValue, hv]
  | false =>
    cases field with
    | plain secret =>
      cases h
      simp [redactValue, hv]
    | object secret properties =>
      cases h
      cases v with
      | object fields => cases hv
      | _ => simp [redactValue, hv]
    | array secret items =>
      cases h
      cases v with
      | array items => cases hv
      | _ => simp [redactValue, hv]

theorem redactValue_object (fields : List (String × Value)) (properties : Properties) :
    redactValue (.object fields) (.object false properties) =
      .object (redactProperties (.ofFields fields) properties).own := by
  simp [redactValue]

theorem redactValue_array (vs : List Value) (items : ConfigField) :
    redactValue (.array vs) (.array false items) =
      .array (vs.map fun item => redactValue item items) := by
  simp [redactValue]

theorem redactValue_secret_twice {field : ConfigField} (h : field.secret = true) (v : Value) :
    redactValue (redactValue v field) field = redactValue v field := by
  rw [redactValue_of_secret h v]
  cases hv : isMeaningful (some v) with
  | true => rw [if_pos rfl, redactValue_of_secret h, if_pos isMeaningful_sentinel]
  | false =>
    rw [if_neg Bool.false_ne_true, redactValue_of_secret h, hv, if_neg Bool.false_ne_true]

/-- A masked value is masked already. -/
theorem redactValue_redactValue {field : ConfigField} (hfield : field.Distinct) (v : Value) :
    redactValue (redactValue v field) field = redactValue v field := by
  induction field using ConfigField.induct generalizing v with
  | plain secret =>
    cases secret with
    | true => exact redactValue_secret_twice rfl v
    | false => rfl
  | object secret properties ih =>
    cases hfield with
    | object _ hnames hfields =>
    cases secret with
    | true => exact redactValue_secret_twice rfl v
    | false =>
      cases v with
      | object fields =>
        rw [redactValue_object, redactValue_object]
        congr 1
        rw [redactProperties_eq_loop (.ofFields (redactProperties _ _).own)]
        apply loop_eq_self properties _ looksLike_objectPrototype (protosLook_redact properties)
        . intro entry hentry w hw
          rcases lookup_redactProperties hnames fields hentry with ⟨v, _, hlookup⟩ | ⟨_, _, hlookup⟩
          . have hvalue : redactValue v entry.2 = w := by
              rw [← Option.some.injEq, ← hlookup]
              exact hw
            rw [← hvalue, ih entry hentry (hfields entry hentry)]
          . rw [show (Out.ofFields (redactProperties (.ofFields fields) properties).own).own.lookup
              entry.1 = none from hlookup] at hw
            cases hw
        . intro entry hentry hnone
          rcases lookup_redactProperties hnames fields hentry with ⟨v, _, hlookup⟩ | ⟨_, hname, _⟩
          . rw [show (Out.ofFields (redactProperties (.ofFields fields) properties).own).own.lookup
              entry.1 = some (redactValue v entry.2) from hlookup] at hnone
            cases hnone
          . exact hname
      | _ => rfl
  | array secret items ih =>
    cases hfield with
    | array _ hitems =>
    cases secret with
    | true => exact redactValue_secret_twice rfl v
    | false =>
      cases v with
      | array vs =>
        rw [redactValue_array, redactValue_array, List.map_map]
        congr 1
        apply List.map_congr_left
        intro item _
        exact ih hitems item
      | _ => rfl

end Masking

section RoundTrip

variable (stringify : Value → Text) (quote : String → Text)

theorem restoreValue_of_secret {field : ConfigField} (h : field.secret = true) (incoming : Value)
    (existing : Option Value) :
    restoreValue stringify quote incoming existing field = restoreSecret incoming existing := by
  cases field <;> cases h <;> simp [restoreValue]

theorem stripValue_of_secret {field : ConfigField} (h : field.secret = true) (v : Value) :
    stripValue field v = if isMeaningful (some v) = true then some v else none := by
  cases field with
  | plain secret =>
    cases h
    cases hv : isMeaningful (some v) <;> simp [stripValue, hv]
  | object secret properties =>
    cases h
    simp [stripValue]
  | array secret items =>
    cases h
    simp [stripValue]

/-- A secret comes back as it is stored, if it is not empty. -/
theorem restoreSecret_masked (v : Value) :
    restoreSecret (if isMeaningful (some v) = true then .string SECRET_SENTINEL else v) (some v) =
      if isMeaningful (some v) = true then some v else none := by
  cases hv : isMeaningful (some v) with
  | true => simp [restoreSecret, hv]
  | false =>
    cases v with
    | null => simp [restoreSecret, isMeaningful]
    | string t =>
      have ht : t = "" := by simpa [isMeaningful] using hv
      simp [restoreSecret, ht, isMeaningful]
    | _ => cases hv

theorem restoreValue_secret {field : ConfigField} (h : field.secret = true) (v : Value) :
    restoreValue stringify quote (redactValue v field) (some v) field = stripValue field v := by
  rw [redactValue_of_secret h, restoreValue_of_secret _ _ h, stripValue_of_secret h,
    restoreSecret_masked]

theorem restoreValue_isSome_of_open {field : ConfigField} (h : field.secret = false) (incoming : Value)
    (existing : Option Value) :
    (restoreValue stringify quote incoming existing field).isSome = true := by
  cases field <;> cases h <;> cases incoming <;> simp [restoreValue]

theorem stripValue_isSome_of_open {field : ConfigField} (h : field.secret = false) (v : Value) :
    (stripValue field v).isSome = true := by
  cases field <;> cases h <;> cases v <;> simp [stripValue]

/-- A stored value that is not empty is never dropped. -/
theorem restoreValue_isSome {field : ConfigField} {existing : Value}
    (h : isMeaningful (some existing) = true) (incoming : Value) :
    (restoreValue stringify quote incoming (some existing) field).isSome = true := by
  cases hsecret : field.secret with
  | false => exact restoreValue_isSome_of_open stringify quote hsecret incoming _
  | true =>
    rw [restoreValue_of_secret _ _ hsecret]
    cases incoming with
    | string t =>
      simp only [restoreSecret]
      split <;> simp [h]
    | _ => simp [restoreSecret, h]

theorem restoreValue_masked_isSome (field : ConfigField) (v : Value) :
    (restoreValue stringify quote (redactValue v field) (some v) field).isSome =
      (stripValue field v).isSome := by
  cases hsecret : field.secret with
  | false => rw [restoreValue_isSome_of_open _ _ hsecret, stripValue_isSome_of_open hsecret]
  | true => rw [restoreValue_secret _ _ hsecret]

theorem not_missing_of_secret {field : ConfigField} (h : field.secret = true) (v : Value) :
    ¬Missing field v := by
  cases field <;> cases h <;> simp [Missing]

theorem filterMap_eq_iff {α β : Type} {l : List α} {f f' : α → Option β}
    (h : ∀ x ∈ l, (f x).isSome = (f' x).isSome) :
    l.filterMap f = l.filterMap f' ↔ ∀ x ∈ l, f x = f' x := by
  induction l with
  | nil => simp
  | cons x l ih =>
    have hx := h x List.mem_cons_self
    have hl := ih fun y hy => h y (List.mem_cons_of_mem _ hy)
    rw [List.filterMap_cons, List.filterMap_cons, List.forall_mem_cons, ← hl]
    cases hf : f x with
    | none =>
      rw [hf] at hx
      rw [Option.isSome_none, eq_comm, Option.isSome_eq_false_iff, Option.isNone_iff_eq_none] at hx
      simp [hx]
    | some y =>
      rw [hf, Option.isSome_some, eq_comm, Option.isSome_iff_exists] at hx
      obtain ⟨y', hy'⟩ := hx
      simp [hy']

/-- An element that was masked is matched with itself. -/
theorem matchOf_masked {items : ConfigField} (hitems : items.Distinct) {vs : List Value} {i : Nat}
    {v : Value} (hv : vs[i]? = some v) :
    matchOf stringify quote items vs true (redactValue v items) i = some v := by
  have hsame : elementSignature stringify quote (redactValue v items) items =
      elementSignature stringify quote v items := by
    rw [elementSignature, redactValue_redactValue hitems, elementSignature]
  simp only [matchOf, hsame]
  split
  . next ex hfilter =>
    have hmem : v ∈ vs.filter fun ex => elementSignature stringify quote ex items =
        elementSignature stringify quote v items := by
      rw [List.mem_filter]
      exact ⟨List.mem_of_getElem? hv, by simp⟩
    rw [hfilter, List.mem_singleton] at hmem
    rw [hmem]
  . exact hv

theorem restoreValue_array {items : ConfigField} (hitems : items.Distinct) (vs : List Value) :
    restoreValue stringify quote (redactValue (.array vs) (.array false items)) (some (.array vs))
        (.array false items) =
      some (.array (vs.filterMap fun v =>
        restoreValue stringify quote (redactValue v items) (some v) items)) := by
  rw [redactValue_array]
  simp only [restoreValue, arrayItems, List.length_map, decide_true, Bool.false_eq_true, if_false]
  congr 2
  rw [List.zipIdx_map, List.filterMap_map]
  conv_rhs => rw [← List.zipIdx_map_fst 0 vs, List.filterMap_map]
  apply List.filterMap_congr
  intro entry hentry
  have hat : vs[entry.2]? = some entry.1 := List.mem_zipIdx_iff_getElem?.mp hentry
  simp only [Function.comp_apply, Prod.map]
  show restoreValue stringify quote (redactValue entry.1 items)
    (matchOf stringify quote items vs true (redactValue entry.1 items) entry.2) items = _
  rw [matchOf_masked stringify quote hitems hat]

theorem lookup_filterMap_eq_none {fields : List (String × Value)} {key : String}
    (h : fields.lookup key = none) (f : String × Value → Option Value) :
    (fields.filterMap fun e => (f e).map fun v => (e.1, v)).lookup key = none := by
  rw [List.lookup_eq_none_iff] at h ⊢
  intro entry hentry
  obtain ⟨e, he, hmap⟩ := List.mem_filterMap.mp hentry
  obtain ⟨v, _, rfl⟩ := Option.map_eq_some_iff.mp hmap
  exact h e he

theorem nodup_filterMap {fields : List (String × Value)} (h : (fields.map (·.1)).Nodup)
    (f : String × Value → Option Value) :
    ((fields.filterMap fun e => (f e).map fun v => (e.1, v)).map (·.1)).Nodup := by
  induction fields with
  | nil => exact List.nodup_nil
  | cons e fields ih =>
    rw [List.map_cons, List.nodup_cons] at h
    rw [List.filterMap_cons]
    cases hf : f e with
    | none => exact ih h.2
    | some v =>
      rw [Option.map_some, List.map_cons, List.nodup_cons]
      refine ⟨?_, ih h.2⟩
      intro hmem
      obtain ⟨entry, hentry, hkey⟩ := List.mem_map.mp hmem
      obtain ⟨e', he', hmap⟩ := List.mem_filterMap.mp hentry
      obtain ⟨v', _, rfl⟩ := Option.map_eq_some_iff.mp hmap
      exact h.1 (hkey ▸ List.mem_map_of_mem (f := (·.1)) he')

/-- One property on its way out and back: its field masks and restores it, or it has none. -/
theorem applyProperty_masked {existing : List (String × Value)} {key : String} {v : Value}
    (hread : readProperty (some existing) key = some v) (properties : Properties) :
    (∃ field, (key, field) ∈ properties ∧
      ((applyProperty (fun _ field v => some (redactValue v field)) properties key v).bind
        (applyProperty (fun key field v =>
          restoreValue stringify quote v (readProperty (some existing) key) field) properties key)) =
        restoreValue stringify quote (redactValue v field) (some v) field ∧
      stripProperty properties key v = stripValue field v ∧
      (MissingProperty properties key v ↔ Missing field v)) ∨
    ((applyProperty (fun _ field v => some (redactValue v field)) properties key v).bind
        (applyProperty (fun key field v =>
          restoreValue stringify quote v (readProperty (some existing) key) field) properties key) =
        some v ∧
      stripProperty properties key v = some v ∧ ¬MissingProperty properties key v) := by
  induction properties with
  | nil => exact .inr ⟨rfl, rfl, id⟩
  | cons entry rest ih =>
    obtain ⟨name, field⟩ := entry
    unfold stripProperty MissingProperty
    by_cases hname : key = name
    . subst hname
      left
      exists field
      simp [applyProperty, hread]
    . have hrest : ∀ g w, applyProperty g ((name, field) :: rest) key w = applyProperty g rest key w := by
        intro g w
        rw [applyProperty, if_neg hname]
      rw [hrest, if_neg hname, if_neg hname]
      simp only [hrest]
      rcases ih with ⟨field', hmem, hfield⟩ | hnone
      . exact .inl ⟨field', List.mem_cons_of_mem _ hmem, hfield⟩
      . exact .inr hnone

theorem readProperty_of_mem {fields : List (String × Value)} (hkeys : (fields.map (·.1)).Nodup)
    {entry : String × Value} (h : entry ∈ fields) :
    readProperty (some fields) entry.1 = some entry.2 := by
  show (fields.lookup entry.1).or _ = _
  rw [Map.lookup_eq_some_of_mem hkeys h, Option.some_or]

/-- A name that objects inherit comes back as a property of the object itself. -/
theorem restoreProperties_ne_of_missingName {properties : Properties}
    (hnames : (properties.map (·.1)).Nodup) {fields : List (String × Value)}
    (h : MissingName properties fields) :
    (restoreProperties stringify quote (.ofFields (redactProperties (.ofFields fields) properties).own)
      (some fields) properties).own ≠ stripFields properties fields := by
  obtain ⟨key, hkey, hname, hnone⟩ := h
  obtain ⟨⟨key', field⟩, hentry, rfl⟩ := List.mem_map.mp hkey
  intro heq
  have hstripped : (stripFields properties fields).lookup key' = none :=
    lookup_filterMap_eq_none hnone _
  have hread : readProperty (some fields) key' = some (.native key') := by
    have hproto : key' ≠ "__proto__" := by
      rintro rfl
      have hnot : "__proto__" ∉ inheritedNames := by decide
      exact hnot hname
    show (fields.lookup key').or _ = _
    rw [hnone, if_neg hproto, Option.none_or, objectPrototype, if_pos hname]
  have hloop := lookup_loop (g := fun key field v =>
      restoreValue stringify quote v (readProperty (some fields) key) field) properties
    (.ofFields (redactProperties (.ofFields fields) properties).own) looksLike_objectPrototype
    (protosLook_restore stringify quote (some fields) properties) hnames hentry
  rw [← restoreProperties_eq_loop, heq, hstripped] at hloop
  rcases hloop with ⟨v, _, hdropped⟩ | ⟨_, hnot, _⟩
  . have hkept : (restoreValue stringify quote v (some (.native key')) field).isSome = true :=
      restoreValue_isSome stringify quote rfl v
    rw [← hread, ← hdropped] at hkept
    cases hkept
  . exact hnot hname

/-- Without such a name, each property goes out and comes back by itself. -/
theorem restoreProperties_masked {properties : Properties} (hnames : (properties.map (·.1)).Nodup)
    {fields : List (String × Value)} (hkeys : (fields.map (·.1)).Nodup)
    (hmissing : ¬MissingName properties fields) :
    (restoreProperties stringify quote (.ofFields (redactProperties (.ofFields fields) properties).own)
      (some fields) properties).own =
    fields.filterMap fun e =>
      ((applyProperty (fun _ field v => some (redactValue v field)) properties e.1 e.2).bind
        (applyProperty (fun key field v =>
          restoreValue stringify quote v (readProperty (some fields) key) field) properties e.1)).map
      fun v => (e.1, v) := by
  have hmasked : (redactProperties (.ofFields fields) properties).own = fields.filterMap fun e =>
      (applyProperty (fun _ field v => some (redactValue v field)) properties e.1 e.2).map
        fun v => (e.1, v) := by
    rw [redactProperties_eq_loop]
    exact loop_eq_filterMap properties (.ofFields fields) looksLike_objectPrototype
      (protosLook_redact properties) hnames hkeys hmissing
  have hmissing' : ¬MissingName properties (redactProperties (.ofFields fields) properties).own := by
    rintro ⟨key, hkey, hname, hnone⟩
    obtain ⟨entry, hentry, rfl⟩ := List.mem_map.mp hkey
    rcases lookup_redactProperties hnames fields hentry with ⟨v, _, hlookup⟩ | ⟨_, hnot, _⟩
    . rw [hlookup] at hnone
      cases hnone
    . exact hnot hname
  have hkeys' : ((redactProperties (.ofFields fields) properties).own.map (·.1)).Nodup := by
    rw [hmasked]
    exact nodup_filterMap hkeys _
  rw [restoreProperties_eq_loop, loop_eq_filterMap properties (.ofFields _) looksLike_objectPrototype
    (protosLook_restore stringify quote (some fields) properties) hnames hkeys' hmissing']
  show (redactProperties (.ofFields fields) properties).own.filterMap _ = _
  rw [hmasked, List.filterMap_filterMap]
  apply List.filterMap_congr
  intro e _
  cases applyProperty (fun _ field v => some (redactValue v field)) properties e.1 e.2 <;> rfl

theorem restoreProperties_masked_iff {properties : Properties} (hnames : (properties.map (·.1)).Nodup)
    {fields : List (String × Value)} (hfields : (Value.object fields).Distinct)
    (ih : ∀ entry ∈ properties, ∀ v : Value, v.Distinct →
      (restoreValue stringify quote (redactValue v entry.2) (some v) entry.2 = stripValue entry.2 v ↔
        ¬Missing entry.2 v)) :
    (restoreProperties stringify quote (.ofFields (redactProperties (.ofFields fields) properties).own)
      (some fields) properties).own = stripFields properties fields ↔
    ¬(MissingName properties fields ∨ ∃ entry ∈ fields, MissingProperty properties entry.1 entry.2) := by
  cases hfields with
  | object hkeys hvalues =>
  by_cases hmissing : MissingName properties fields
  . simp only [hmissing, true_or, not_true_eq_false, iff_false]
    exact restoreProperties_ne_of_missingName stringify quote hnames hmissing
  . rw [restoreProperties_masked stringify quote hnames hkeys hmissing, stripFields, filterMap_eq_iff]
    . simp only [hmissing, false_or, not_exists, not_and]
      apply forall₂_congr
      intro e he
      rw [Option.map_inj_right (by simp)]
      rcases applyProperty_masked stringify quote (readProperty_of_mem hkeys he) properties with
        ⟨field, hmem, hback, hstrip, hiff⟩ | ⟨hback, hstrip, hnone⟩
      . rw [hback, hstrip, hiff]
        exact ih _ hmem e.2 (hvalues e he)
      . simp [hback, hstrip, hnone]
    . intro e he
      rw [Option.isSome_map, Option.isSome_map]
      rcases applyProperty_masked stringify quote (readProperty_of_mem hkeys he) properties with
        ⟨field, _, hback, hstrip, _⟩ | ⟨hback, hstrip, _⟩
      . rw [hback, hstrip, restoreValue_masked_isSome]
      . rw [hback, hstrip]

theorem restoreValue_secret_iff {field : ConfigField} (h : field.secret = true) (v : Value) :
    restoreValue stringify quote (redactValue v field) (some v) field = stripValue field v ↔
      ¬Missing field v := by
  simp [restoreValue_secret stringify quote h, not_missing_of_secret h]

/-- A value comes back without its empty secrets exactly if no name that objects inherit is missing. -/
theorem restoreValue_masked_iff {field : ConfigField} (hfield : field.Distinct) {v : Value}
    (hv : v.Distinct) :
    restoreValue stringify quote (redactValue v field) (some v) field = stripValue field v ↔
      ¬Missing field v := by
  induction field using ConfigField.induct generalizing v with
  | plain secret =>
    cases secret with
    | true => exact restoreValue_secret_iff stringify quote rfl v
    | false => simp [restoreValue, redactValue, stripValue, Missing]
  | object secret properties ih =>
    cases secret with
    | true => exact restoreValue_secret_iff stringify quote rfl v
    | false =>
      cases hfield with
      | object _ hnames hfields =>
      cases v with
      | object fields =>
        have hproperties := restoreProperties_masked_iff stringify quote hnames hv fun entry hentry v hv =>
          ih entry hentry (hfields entry hentry) hv
        simpa [redactValue_object, restoreValue, plainObject, stripValue, Missing, stripFields]
          using hproperties
      | _ => simp [restoreValue, redactValue, stripValue, Missing]
  | array secret items ih =>
    cases secret with
    | true => exact restoreValue_secret_iff stringify quote rfl v
    | false =>
      cases hfield with
      | array _ hitems =>
      cases v with
      | array vs =>
        cases hv with
        | array hvs =>
        have hback : vs.filterMap (fun v => restoreValue stringify quote (redactValue v items) (some v)
            items) = vs.filterMap (stripValue items) ↔ ∀ v ∈ vs, ¬Missing items v := by
          rw [filterMap_eq_iff fun v _ => restoreValue_masked_isSome stringify quote items v]
          apply forall₂_congr
          intro v hmem
          exact ih hitems (hvs v hmem)
        rw [restoreValue_array stringify quote hitems]
        simpa [stripValue, Missing] using hback
      | _ => simp [restoreValue, redactValue, stripValue, Missing]

/--
A configuration that is masked and written back unchanged is the stored one without its empty secrets,
exactly if no object that the schema reaches misses a property of the schema that objects inherit.
-/
theorem restoreSecretConfig_redactSecretConfig_iff (schema : PluginConfigSchema) (c : Config) :
    restoreSecretConfig stringify quote (redactSecretConfig (some c.fields) (some schema.properties))
      (some c.fields) (some schema.properties) = stripFields schema.properties c.fields ↔
    ¬Missing (.object false schema.properties) (.object c.fields) := by
  have hvalue := restoreValue_masked_iff stringify quote schema.distinct c.distinct
  simpa [redactValue_object, restoreValue, plainObject, stripValue, stripFields, redactSecretConfig,
    restoreSecretConfig, redactObject, restoreObject] using hvalue

/-- Under a name that objects inherit, a secret that is not set is masked and then written back. -/
theorem restoreSecretConfig_constructor :
    redactSecretConfig (some []) (some [("constructor", .plain true)]) =
      [("constructor", .string "***")] ∧
    restoreSecretConfig (fun _ => []) String.toList
      (redactSecretConfig (some []) (some [("constructor", .plain true)])) (some [])
      (some [("constructor", .plain true)]) ≠ stripFields [("constructor", .plain true)] [] := by
  have hrestored : restoreSecretConfig (fun _ => []) String.toList
      (redactSecretConfig (some []) (some [("constructor", .plain true)])) (some [])
      (some [("constructor", .plain true)]) = [("constructor", .native "constructor")] := rfl
  rw [hrestored]
  exact ⟨rfl, List.cons_ne_nil _ _⟩

end RoundTrip

end OpenWA.Plugins
