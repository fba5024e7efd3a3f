import OpenWA.Plugins.RedactConfig

/-!
This module contains the loop that masking and restoring run over the properties of a schema. It treats
each property by itself, apart from the names that objects inherit.
-/

namespace OpenWA.Plugins

open Js

/-- No name stands twice among the properties of a field, at any level. -/
inductive ConfigField.Distinct : ConfigField → Prop where
  | plain (secret : Bool) : ConfigField.Distinct (.plain secret)
  | object (secret : Bool) {properties : Properties} (names : (properties.map (·.1)).Nodup)
    (fields : ∀ entry ∈ properties, entry.2.Distinct) :
    ConfigField.Distinct (.object secret properties)
  | array (secret : Bool) {items : ConfigField} (h : items.Distinct) :
    ConfigField.Distinct (.array secret items)

theorem ConfigField.induct {P : ConfigField → Prop} (plain : ∀ secret, P (.plain secret))
    (object : ∀ secret properties, (∀ entry ∈ properties, P entry.2) → P (.object secret properties))
    (array : ∀ secret items, P items → P (.array secret items)) : ∀ field, P field
  | .plain secret => plain secret
  | .object secret properties => object secret properties fun entry hentry =>
    have : sizeOf entry.2 < 1 + sizeOf properties := by
      have := List.sizeOf_lt_of_mem hentry
      have : sizeOf entry = 1 + sizeOf entry.1 + sizeOf entry.2 := rfl
      omega
    ConfigField.induct plain object array entry.2
  | .array secret items => array secret items (ConfigField.induct plain object array items)

/-- A property that objects inherit, and that this object does not have itself. -/
def MissingName (properties : Properties) (fields : List (String × Value)) : Prop :=
  ∃ key ∈ properties.map (·.1), key ∈ inheritedNames ∧ fields.lookup key = none

section Loop

/-- A property is set to what is left of it, or deleted. -/
def Out.update (out : Out) (key : String) (v : Option Value) : Out :=
  match v with
  | some v => out.set key v
  | none => out.delete key

/-- The loop that both directions run over the properties of a schema. -/
def loop (g : String → ConfigField → Value → Option Value) (proto : ConfigField → Option Inherited)
    (out : Out) (properties : Properties) : Out :=
  match properties with
  | [] => out
  | (key, field) :: rest =>
    match out.own.lookup key with
    | some v => loop g proto (out.update key (g key field v)) rest
    | none =>
      if key = "__proto__" then
        match proto field with
        | some inherited => loop g proto { out with inherited := inherited } rest
        | none => loop g proto out rest
      else
        match out.inherited key with
        | some v => loop g proto (out.update key (g key field v)) rest
        | none => loop g proto out rest

/-- What the prototype becomes when a schema has a property `__proto__`. -/
def redactProto (field : ConfigField) : Option Inherited :=
  match field with
  | .object false inner => some (redactProperties (.ofFields []) inner).asPrototype
  | _ => none

theorem redactProperties_eq_loop (out : Out) (properties : Properties) :
    redactProperties out properties =
      loop (fun _ field v => some (redactValue v field)) redactProto out properties := by
  induction properties generalizing out with
  | nil => rfl
  | cons entry rest ih =>
    obtain ⟨key, field⟩ := entry
    unfold redactProperties loop
    cases hown : out.own.lookup key with
    | some v => exact ih _
    | none =>
      dsimp only
      by_cases hproto : key = "__proto__"
      . rw [if_pos hproto, if_pos hproto]
        cases field with
        | plain secret => exact ih _
        | object secret inner => cases secret <;> exact ih _
        | array secret items => exact ih _
      . rw [if_neg hproto, if_neg hproto]
        cases hinherited : out.inherited key with
        | some v => exact ih _
        | none => exact ih _

variable (stringify : Value → Text) (quote : String → Text)

def restoreProto (existing : Option (List (String × Value))) (field : ConfigField) : Option Inherited :=
  match field with
  | .object false inner => some (restoreProperties stringify quote (.ofFields [])
      (plainObject (readProperty existing "__proto__")) inner).asPrototype
  | _ => none

theorem restoreProperties_eq_loop (out : Out) (existing : Option (List (String × Value)))
    (properties : Properties) :
    restoreProperties stringify quote out existing properties =
      loop (fun key field v => restoreValue stringify quote v (readProperty existing key) field)
        (restoreProto stringify quote existing) out properties := by
  induction properties generalizing out with
  | nil => rfl
  | cons entry rest ih =>
    obtain ⟨key, field⟩ := entry
    have hupdate (v : Value) :
        (match restoreValue stringify quote v (readProperty existing key) field with
          | some restored => restoreProperties stringify quote (out.set key restored) existing rest
          | none => restoreProperties stringify quote (out.delete key) existing rest) =
        loop (fun key field v => restoreValue stringify quote v (readProperty existing key) field)
          (restoreProto stringify quote existing)
          (out.update key (restoreValue stringify quote v (readProperty existing key) field)) rest := by
      cases restoreValue stringify quote v (readProperty existing key) field with
      | some restored => exact ih _
      | none => exact ih _
    unfold restoreProperties loop
    cases hown : out.own.lookup key with
    | some v => exact hupdate v
    | none =>
      dsimp only
      by_cases hproto : key = "__proto__"
      . rw [if_pos hproto, if_pos hproto]
        subst hproto
        cases field with
        | plain secret => exact ih _
        | object secret inner => cases secret <;> exact ih _
        | array secret items => exact ih _
      . rw [if_neg hproto, if_neg hproto]
        cases hinherited : out.inherited key with
        | some v => exact hupdate v
        | none => exact ih _

theorem lookup_update_self (out : Out) (key : String) (v : Option Value) :
    (out.update key v).own.lookup key = v := by
  cases v with
  | none =>
    show (out.own.filter fun entry => entry.1 ≠ key).lookup key = none
    rw [Map.lookup_filter_ne, if_pos rfl]
  | some v =>
    show (Map.setEntries out.own key v).lookup key = some v
    rw [Map.lookup_setEntries, if_pos rfl]

theorem lookup_update_ne (out : Out) {key other : String} (h : other ≠ key) (v : Option Value) :
    (out.update key v).own.lookup other = out.own.lookup other := by
  cases v with
  | none =>
    show (out.own.filter fun entry => entry.1 ≠ key).lookup other = _
    rw [Map.lookup_filter_ne, if_neg h]
  | some v =>
    show (Map.setEntries out.own key v).lookup other = _
    rw [Map.lookup_setEntries, if_neg h]

theorem inherited_update (out : Out) (key : String) (v : Option Value) :
    (out.update key v).inherited = out.inherited := by
  cases v <;> rfl

/-- Prototypes that were replaced still offer the names that every object inherits, and no others. -/
def LooksLikePrototype (inherited : Inherited) : Prop :=
  ∀ key, inherited key = none ↔ key ∉ inheritedNames

theorem looksLike_objectPrototype : LooksLikePrototype objectPrototype := by
  intro key
  unfold objectPrototype
  split
  . next h => simp [h]
  . next h => simp [h]

variable {g : String → ConfigField → Value → Option Value} {proto : ConfigField → Option Inherited}

/-- The prototypes that a schema can put in place look like the one they replace. -/
def ProtosLook (proto : ConfigField → Option Inherited) (properties : Properties) : Prop :=
  ∀ entry ∈ properties, ∀ inherited, proto entry.2 = some inherited → LooksLikePrototype inherited

theorem ProtosLook.rest {entry : String × ConfigField} {rest : Properties}
    (h : ProtosLook proto (entry :: rest)) : ProtosLook proto rest :=
  fun e he => h e (List.mem_cons_of_mem _ he)

/--
One turn of the loop: the property is set from what is found under its key, or it is `__proto__`, or
nothing is found.
-/
theorem loop_cons (out : Out) (key : String) (field : ConfigField) (rest : Properties)
    (hout : LooksLikePrototype out.inherited) (hprotos : ProtosLook proto ((key, field) :: rest)) :
    (∃ v, (out.own.lookup key = some v ∨ out.own.lookup key = none ∧ key ∈ inheritedNames) ∧
      loop g proto out ((key, field) :: rest) = loop g proto (out.update key (g key field v)) rest) ∨
    (out.own.lookup key = none ∧ key ∉ inheritedNames ∧ ∃ inherited, LooksLikePrototype inherited ∧
      loop g proto out ((key, field) :: rest) = loop g proto { out with inherited := inherited } rest) := by
  rw [loop]
  cases hown : out.own.lookup key with
  | some v => exact .inl ⟨v, .inl rfl, rfl⟩
  | none =>
    dsimp only
    by_cases hproto : key = "__proto__"
    . have hname : key ∉ inheritedNames := by
        rw [hproto]
        decide
      rw [if_pos hproto]
      cases hreplaced : proto field with
      | some inherited =>
        exact .inr ⟨rfl, hname, inherited, hprotos _ List.mem_cons_self inherited hreplaced, rfl⟩
      | none => exact .inr ⟨rfl, hname, out.inherited, hout, rfl⟩
    . rw [if_neg hproto]
      cases hinherited : out.inherited key with
      | some v =>
        have hname : key ∈ inheritedNames := by
          by_contra hnot
          rw [(hout key).mpr hnot] at hinherited
          cases hinherited
        exact .inl ⟨v, .inr ⟨rfl, hname⟩, rfl⟩
      | none => exact .inr ⟨rfl, (hout key).mp hinherited, out.inherited, hout, rfl⟩

theorem loop_inherited (properties : Properties) (out : Out) (hout : LooksLikePrototype out.inherited)
    (hprotos : ProtosLook proto properties) :
    LooksLikePrototype (loop g proto out properties).inherited := by
  induction properties generalizing out with
  | nil => exact hout
  | cons entry rest ih =>
    rcases loop_cons (g := g) out entry.1 entry.2 rest hout hprotos with
      ⟨v, _, heq⟩ | ⟨_, _, inherited, hlooks, heq⟩
    . rw [heq]
      exact ih _ (by rw [inherited_update]; exact hout) hprotos.rest
    . rw [heq]
      exact ih _ hlooks hprotos.rest

/-- An object that starts empty gets inherited names only. -/
theorem loop_keys (properties : Properties) (out : Out) (hout : LooksLikePrototype out.inherited)
    (hprotos : ProtosLook proto properties)
    (hkeys : ∀ key, key ∉ inheritedNames → out.own.lookup key = none) :
    ∀ key, key ∉ inheritedNames → (loop g proto out properties).own.lookup key = none := by
  induction properties generalizing out with
  | nil => exact hkeys
  | cons entry rest ih =>
    rcases loop_cons (g := g) out entry.1 entry.2 rest hout hprotos with
      ⟨v, hfound, heq⟩ | ⟨_, _, inherited, hlooks, heq⟩
    . rw [heq]
      apply ih _ (by rw [inherited_update]; exact hout) hprotos.rest
      intro key hkey
      have hne : key ≠ entry.1 := by
        rintro rfl
        rcases hfound with hown | ⟨_, hname⟩
        . rw [hkeys _ hkey] at hown
          cases hown
        . exact hkey hname
      rw [lookup_update_ne out hne]
      exact hkeys key hkey
    . rw [heq]
      exact ih _ hlooks hprotos.rest hkeys

theorem lookup_loop_of_notMem (properties : Properties) (out : Out)
    (hout : LooksLikePrototype out.inherited) (hprotos : ProtosLook proto properties) {key : String}
    (hkey : key ∉ properties.map (·.1)) :
    (loop g proto out properties).own.lookup key = out.own.lookup key := by
  induction properties generalizing out with
  | nil => rfl
  | cons entry rest ih =>
    rw [List.map_cons, List.mem_cons, not_or] at hkey
    rcases loop_cons (g := g) out entry.1 entry.2 rest hout hprotos with
      ⟨v, _, heq⟩ | ⟨_, _, inherited, hlooks, heq⟩
    . rw [heq, ih _ (by rw [inherited_update]; exact hout) hprotos.rest hkey.2,
        lookup_update_ne out hkey.1]
    . rw [heq]
      exact ih _ hlooks hprotos.rest hkey.2

/-- What the loop leaves under the name of a property. -/
theorem lookup_loop (properties : Properties) (out : Out) (hout : LooksLikePrototype out.inherited)
    (hprotos : ProtosLook proto properties) (hnames : (properties.map (·.1)).Nodup)
    {entry : String × ConfigField} (hentry : entry ∈ properties) :
    (∃ v, (out.own.lookup entry.1 = some v ∨
        out.own.lookup entry.1 = none ∧ entry.1 ∈ inheritedNames) ∧
      (loop g proto out properties).own.lookup entry.1 = g entry.1 entry.2 v) ∨
    (out.own.lookup entry.1 = none ∧ entry.1 ∉ inheritedNames ∧
      (loop g proto out properties).own.lookup entry.1 = none) := by
  induction properties generalizing out with
  | nil => cases hentry
  | cons head rest ih =>
    rw [List.map_cons, List.nodup_cons] at hnames
    rcases loop_cons (g := g) out head.1 head.2 rest hout hprotos with
      ⟨v, hfound, heq⟩ | ⟨hnone, hname, inherited, hlooks, heq⟩
    . have hout' : LooksLikePrototype (out.update head.1 (g head.1 head.2 v)).inherited := by
        rw [inherited_update]
        exact hout
      rw [heq]
      rcases List.mem_cons.mp hentry with rfl | hrest
      . refine .inl ⟨v, hfound, ?_⟩
        rw [lookup_loop_of_notMem rest _ hout' hprotos.rest hnames.1, lookup_update_self]
      . have hne : entry.1 ≠ head.1 := by
          intro hsame
          exact hnames.1 (hsame ▸ List.mem_map_of_mem (f := (·.1)) hrest)
        have hstep := ih (out.update head.1 (g head.1 head.2 v)) hout' hprotos.rest hnames.2 hrest
        rwa [lookup_update_ne out hne] at hstep
    . rw [heq]
      rcases List.mem_cons.mp hentry with rfl | hrest
      . refine .inr ⟨hnone, hname, ?_⟩
        rw [lookup_loop_of_notMem rest _ hlooks hprotos.rest hnames.1]
        exact hnone
      . exact ih { out with inherited := inherited } hlooks hprotos.rest hnames.2 hrest

theorem setEntries_self {entries : List (String × Value)} {key : String} {v : Value}
    (h : entries.lookup key = some v) : Map.setEntries entries key v = entries := by
  induction entries with
  | nil => cases h
  | cons entry entries ih =>
    rw [List.lookup_cons] at h
    unfold Map.setEntries
    by_cases hkey : entry.1 = key
    . rw [if_pos hkey]
      simp only [hkey, BEq.rfl, Option.some.injEq] at h
      rw [← h, ← hkey]
    . rw [if_neg hkey]
      simp only [beq_eq_false_iff_ne.mpr (Ne.symm hkey)] at h
      rw [ih h]

/-- The loop changes nothing where every property is as it would set it. -/
theorem loop_eq_self (properties : Properties) (out : Out) (hout : LooksLikePrototype out.inherited)
    (hprotos : ProtosLook proto properties)
    (hset : ∀ entry ∈ properties, ∀ v, out.own.lookup entry.1 = some v → g entry.1 entry.2 v = some v)
    (hmissing : ∀ entry ∈ properties, out.own.lookup entry.1 = none → entry.1 ∉ inheritedNames) :
    (loop g proto out properties).own = out.own := by
  induction properties generalizing out with
  | nil => rfl
  | cons head rest ih =>
    rcases loop_cons (g := g) out head.1 head.2 rest hout hprotos with
      ⟨v, hown | ⟨hnone, hname⟩, heq⟩ | ⟨_, _, inherited, hlooks, heq⟩
    . have hsame : (out.update head.1 (g head.1 head.2 v)).own = out.own := by
        rw [hset head List.mem_cons_self v hown]
        exact setEntries_self hown
      rw [heq, ih _ (by rw [inherited_update]; exact hout) hprotos.rest]
      . exact hsame
      . rw [hsame]
        exact fun e he => hset e (List.mem_cons_of_mem _ he)
      . rw [hsame]
        exact fun e he => hmissing e (List.mem_cons_of_mem _ he)
    . exact absurd hname (hmissing head List.mem_cons_self hnone)
    . rw [heq]
      exact ih { out with inherited := inherited } hlooks hprotos.rest
        (fun e he => hset e (List.mem_cons_of_mem _ he))
        (fun e he => hmissing e (List.mem_cons_of_mem _ he))

/-- What the field of a key does to its value. -/
def applyProperty (g : String → ConfigField → Value → Option Value) (properties : Properties)
    (key : String) (v : Value) : Option Value :=
  match properties with
  | [] => some v
  | (name, field) :: rest => if key = name then g name field v else applyProperty g rest key v

theorem applyProperty_of_notMem {properties : Properties} {key : String}
    (h : key ∉ properties.map (·.1)) (v : Value) : applyProperty g properties key v = some v := by
  induction properties with
  | nil => rfl
  | cons entry rest ih =>
    rw [List.map_cons, List.mem_cons, not_or] at h
    rw [applyProperty, if_neg h.1, ih h.2]

/-- An update of a property that is there, seen by a function of the entries. -/
theorem filterMap_update {out : Out} (hnodup : (out.own.map (·.1)).Nodup) {key : String}
    (hkey : out.own.lookup key ≠ none) (w : Option Value) (f : String × Value → Option (String × Value)) :
    (out.update key w).own.filterMap f =
      out.own.filterMap fun e => if e.1 = key then w.bind fun w => f (key, w) else f e := by
  cases w with
  | some w =>
    show (Map.setEntries out.own key w).filterMap f = _
    rw [Map.setEntries_eq_map hnodup hkey, List.filterMap_map]
    apply List.filterMap_congr
    intro e _
    by_cases he : e.1 = key
    . simp [he]
    . simp [he]
  | none =>
    show (out.own.filter fun entry => entry.1 ≠ key).filterMap f = _
    rw [List.filterMap_filter]
    apply List.filterMap_congr
    intro e _
    by_cases he : e.1 = key
    . simp [he]
    . simp [he]

theorem nodup_update {out : Out} (hnodup : (out.own.map (·.1)).Nodup) (key : String) (w : Option Value) :
    ((out.update key w).own.map (·.1)).Nodup := by
  cases w with
  | some w => exact Map.nodup_setEntries hnodup key w
  | none => exact hnodup.sublist (List.filter_sublist.map _)

/-- The loop treats each property by itself, if the object has every inherited name that it is asked for. -/
theorem loop_eq_filterMap (properties : Properties) (out : Out)
    (hout : LooksLikePrototype out.inherited) (hprotos : ProtosLook proto properties)
    (hnames : (properties.map (·.1)).Nodup) (hkeys : (out.own.map (·.1)).Nodup)
    (hmissing : ¬MissingName properties out.own) :
    (loop g proto out properties).own =
      out.own.filterMap fun e => (applyProperty g properties e.1 e.2).map fun v => (e.1, v) := by
  induction properties generalizing out with
  | nil => simp [loop, applyProperty]
  | cons head rest ih =>
    rw [List.map_cons, List.nodup_cons] at hnames
    rcases loop_cons (g := g) out head.1 head.2 rest hout hprotos with
      ⟨v, hown | ⟨hnone, hname⟩, heq⟩ | ⟨hnone, _, inherited, hlooks, heq⟩
    . have hmissing' : ¬MissingName rest (out.update head.1 (g head.1 head.2 v)).own := by
        rintro ⟨key, hkey, hname, hnone⟩
        have hne : key ≠ head.1 := by
          rintro rfl
          exact hnames.1 hkey
        rw [lookup_update_ne out hne] at hnone
        exact hmissing ⟨key, by simp only [List.map_cons, List.mem_cons]; exact .inr hkey, hname, hnone⟩
      rw [heq, ih _ (by rw [inherited_update]; exact hout) hprotos.rest hnames.2
        (nodup_update hkeys _ _) hmissing', filterMap_update hkeys (by simp [hown])]
      apply List.filterMap_congr
      intro e he
      by_cases hkey : e.1 = head.1
      . have hvalue : e.2 = v := by
          have hlookup := Map.lookup_eq_some_of_mem hkeys he
          rw [hkey, hown, Option.some.injEq] at hlookup
          exact hlookup.symm
        rw [if_pos hkey, applyProperty, if_pos hkey, hvalue]
        cases hg : g head.1 head.2 v with
        | none => rfl
        | some w =>
          simp only [Option.bind_some, Option.map_some]
          rw [applyProperty_of_notMem hnames.1, Option.map_some, hkey]
      . rw [if_neg hkey, applyProperty, if_neg hkey]
    . exact absurd ⟨head.1, by simp, hname, hnone⟩ hmissing
    . have hmissing' : ¬MissingName rest out.own := by
        rintro ⟨key, hkey, hname, hnone⟩
        exact hmissing ⟨key, by simp only [List.map_cons, List.mem_cons]; exact .inr hkey, hname, hnone⟩
      rw [heq, ih { out with inherited := inherited } hlooks hprotos.rest hnames.2 hkeys hmissing']
      apply List.filterMap_congr
      intro e he
      have hkey : e.1 ≠ head.1 := by
        intro hsame
        have hlookup := Map.lookup_eq_some_of_mem hkeys he
        rw [hsame, hnone] at hlookup
        cases hlookup
      rw [applyProperty, if_neg hkey]

end Loop

section Prototypes

theorem looksLike_asPrototype {out : Out} (hout : LooksLikePrototype out.inherited)
    (hkeys : ∀ key, key ∉ inheritedNames → out.own.lookup key = none) :
    LooksLikePrototype out.asPrototype := by
  intro key
  rw [Out.asPrototype, Option.or_eq_none_iff, hout key]
  constructor
  . exact And.right
  . intro hkey
    exact ⟨hkeys key hkey, hkey⟩

theorem protosLook_redact (properties : Properties) : ProtosLook redactProto properties := by
  have hfield : ∀ field inherited, redactProto field = some inherited → LooksLikePrototype inherited := by
    intro field
    induction field using ConfigField.induct with
    | plain secret =>
      intro inherited h
      cases h
    | object secret inner ih =>
      intro inherited h
      cases secret with
      | true => cases h
      | false =>
        cases h
        have hinner : ProtosLook redactProto inner := fun entry hentry => ih entry hentry
        rw [redactProperties_eq_loop]
        exact looksLike_asPrototype (loop_inherited inner _ looksLike_objectPrototype hinner)
          (loop_keys inner _ looksLike_objectPrototype hinner fun _ _ => rfl)
    | array secret items =>
      intro inherited h
      cases h
  exact fun entry _ => hfield entry.2

variable (stringify : Value → Text) (quote : String → Text)

theorem protosLook_restore (existing : Option (List (String × Value))) (properties : Properties) :
    ProtosLook (restoreProto stringify quote existing) properties := by
  have hfield : ∀ field existing inherited, restoreProto stringify quote existing field = some inherited →
      LooksLikePrototype inherited := by
    intro field
    induction field using ConfigField.induct with
    | plain secret =>
      intro existing inherited h
      cases h
    | object secret inner ih =>
      intro existing inherited h
      cases secret with
      | true => cases h
      | false =>
        cases h
        have hinner := fun existing => (fun entry hentry => ih entry hentry existing :
          ProtosLook (restoreProto stringify quote existing) inner)
        rw [restoreProperties_eq_loop]
        exact looksLike_asPrototype (loop_inherited inner _ looksLike_objectPrototype (hinner _))
          (loop_keys inner _ looksLike_objectPrototype (hinner _) fun _ _ => rfl)
    | array secret items =>
      intro existing inherited h
      cases h
  exact fun entry _ => hfield entry.2 existing

end Prototypes

end OpenWA.Plugins
