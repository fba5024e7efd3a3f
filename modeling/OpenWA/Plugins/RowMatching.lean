import OpenWA.Plugins.SecretRoundTrip

/-!
This module contains the rows of an array whose masked secrets are restored: which stored row stands for
an incoming one, and when it hands its secrets to another row.
-/

namespace OpenWA.Plugins

open Js

section Filling

variable (stringify : Value → Text) (quote : String → Text)

/-- A secret that comes masked and is stored. -/
def FillsSecret (incoming : Value) (existing : Option Value) : Prop :=
  incoming = .string SECRET_SENTINEL ∧ isMeaningful existing = true

mutual

/-- Some masked secret of the incoming value is filled from the stored one. -/
def Fills (incoming : Value) (existing : Option Value) (field : ConfigField) : Prop :=
  match field with
  | .plain secret => secret = true ∧ FillsSecret incoming existing
  | .object secret properties =>
    if secret then FillsSecret incoming existing
    else
      match incoming with
      | .object fields =>
        ∃ entry ∈ fields, FillsProperty entry.1 entry.2 (plainObject existing) properties
      | _ => False
  | .array secret items =>
    if secret then FillsSecret incoming existing
    else
      match incoming with
      | .array rows =>
        ∃ row ∈ rows.zipIdx, Fills row.1
          (matchOf stringify quote items (arrayItems existing)
            (rows.length = (arrayItems existing).length) row.1 row.2) items
      | _ => False
termination_by structural field

def FillsProperty (key : String) (v : Value) (existing : Option (List (String × Value)))
    (properties : Properties) : Prop :=
  match properties with
  | [] => False
  | (name, field) :: rest =>
    if key = name then Fills v (readProperty existing key) field
    else FillsProperty key v existing rest
termination_by structural properties

end

theorem fills_of_secret {field : ConfigField} (h : field.secret = true) (incoming : Value)
    (existing : Option Value) :
    Fills stringify quote incoming existing field ↔ FillsSecret incoming existing := by
  cases field <;> cases h <;> simp [Fills]

theorem exists_field_of_fillsProperty {key : String} {v : Value}
    {existing : Option (List (String × Value))} {properties : Properties}
    (h : FillsProperty stringify quote key v existing properties) :
    ∃ field, (key, field) ∈ properties ∧ Fills stringify quote v (readProperty existing key) field := by
  induction properties with
  | nil => simp [FillsProperty] at h
  | cons entry rest ih =>
    obtain ⟨name, field⟩ := entry
    rw [FillsProperty] at h
    by_cases hname : key = name
    . subst hname
      rw [if_pos rfl] at h
      exact ⟨field, List.mem_cons_self, h⟩
    . rw [if_neg hname] at h
      obtain ⟨field', hmem, hfills⟩ := ih h
      exact ⟨field', List.mem_cons_of_mem _ hmem, hfills⟩

/-- With nothing stored, nothing is kept that would be dropped otherwise. -/
theorem restoreValue_isSome_of_none {incoming : Value} {field : ConfigField}
    (h : (restoreValue stringify quote incoming none field).isSome = true) (existing : Option Value) :
    (restoreValue stringify quote incoming existing field).isSome = true := by
  cases hsecret : field.secret with
  | false => exact restoreValue_isSome_of_open stringify quote hsecret incoming existing
  | true =>
    rw [restoreValue_of_secret _ _ hsecret] at h ⊢
    cases incoming with
    | null => simp [restoreSecret] at h
    | string t =>
      rw [restoreSecret] at h ⊢
      split at h
      . simp at h
      . next hopen => simp [hopen]
    | _ => simp [restoreSecret]

theorem length_filterMap_le {α β : Type} {l : List α} {f f' : α → Option β}
    (h : ∀ x ∈ l, (f' x).isSome → (f x).isSome) : (l.filterMap f').length ≤ (l.filterMap f).length := by
  induction l with
  | nil => simp
  | cons x l ih =>
    have hx := h x List.mem_cons_self
    have hl := ih fun y hy => h y (List.mem_cons_of_mem _ hy)
    rw [List.filterMap_cons, List.filterMap_cons]
    cases hf' : f' x with
    | none =>
      cases f x with
      | none => exact hl
      | some y => exact Nat.le_succ_of_le hl
    | some y' =>
      rw [hf'] at hx
      obtain ⟨y, hy⟩ := Option.isSome_iff_exists.mp (hx rfl)
      rw [hy]
      exact Nat.succ_le_succ hl

/-- Lists that keep more and are still the same keep the same. -/
theorem eq_of_filterMap_eq {α β : Type} {l : List α} {f f' : α → Option β}
    (h : ∀ x ∈ l, (f' x).isSome → (f x).isSome) (heq : l.filterMap f = l.filterMap f') :
    ∀ x ∈ l, f x = f' x := by
  induction l with
  | nil => simp
  | cons x l ih =>
    have hx := h x List.mem_cons_self
    have hl : ∀ y ∈ l, (f' y).isSome → (f y).isSome := fun y hy => h y (List.mem_cons_of_mem _ hy)
    rw [List.filterMap_cons, List.filterMap_cons] at heq
    rw [List.forall_mem_cons]
    cases hf' : f' x with
    | none =>
      cases hf : f x with
      | none =>
        rw [hf, hf'] at heq
        exact ⟨rfl, ih hl heq⟩
      | some y =>
        rw [hf, hf'] at heq
        have hlength := congrArg List.length heq
        have hle := length_filterMap_le hl
        dsimp only at hlength
        rw [List.length_cons] at hlength
        omega
    | some y' =>
      rw [hf'] at hx
      obtain ⟨y, hy⟩ := Option.isSome_iff_exists.mp (hx rfl)
      rw [hf', hy, List.cons.injEq] at heq
      rw [hy, heq.1]
      exact ⟨rfl, ih hl heq.2⟩

theorem restoreSecret_ne_of_fills {incoming : Value} {existing : Option Value}
    (h : FillsSecret incoming existing) :
    restoreSecret incoming existing ≠ restoreSecret incoming none := by
  obtain ⟨rfl, hmeaningful⟩ := h
  cases existing with
  | none => cases hmeaningful
  | some e => simp [restoreSecret, hmeaningful]

theorem matchOf_nil (items : ConfigField) (sameLength : Bool) (item : Value) (i : Nat) :
    matchOf stringify quote items [] sameLength item i = none := by
  cases sameLength <;> rfl

theorem restoreValue_array_none (rows : List Value) (items : ConfigField) :
    restoreValue stringify quote (.array rows) none (.array false items) =
      some (.array (rows.zipIdx.filterMap fun row => restoreValue stringify quote row.1 none items)) := by
  simp [restoreValue, arrayItems, matchOf_nil]

/-- What the loop of `restoreObject` leaves under the name of a property that the object has. -/
theorem lookup_restoreProperties {properties : Properties} (hnames : (properties.map (·.1)).Nodup)
    {fields : List (String × Value)} (hkeys : (fields.map (·.1)).Nodup) {key : String} {v : Value}
    (hentry : (key, v) ∈ fields) {field : ConfigField} (hfield : (key, field) ∈ properties)
    (existing : Option (List (String × Value))) :
    (restoreProperties stringify quote (.ofFields fields) existing properties).own.lookup key =
      restoreValue stringify quote v (readProperty existing key) field := by
  have hown : fields.lookup key = some v := Map.lookup_eq_some_of_mem hkeys hentry
  have hloop := lookup_loop (g := fun key field v =>
      restoreValue stringify quote v (readProperty existing key) field) properties (.ofFields fields)
    looksLike_objectPrototype (protosLook_restore stringify quote existing properties) hnames hfield
  rw [← restoreProperties_eq_loop, show (Out.ofFields fields).own = fields from rfl, hown] at hloop
  rcases hloop with ⟨w, hw | ⟨hnone, _⟩, hlookup⟩ | ⟨hnone, _⟩
  . cases hw
    exact hlookup
  . cases hnone
  . cases hnone

/-- What is filled comes from the stored value: with nothing stored, the result is another one. -/
theorem restoreValue_ne_of_fills {field : ConfigField} (hfield : field.Distinct) {incoming : Value}
    (hincoming : incoming.Distinct) {existing : Option Value}
    (h : Fills stringify quote incoming existing field) :
    restoreValue stringify quote incoming existing field ≠
      restoreValue stringify quote incoming none field := by
  have hsecret : ∀ {field : ConfigField}, field.secret = true → ∀ {incoming existing},
      Fills stringify quote incoming existing field →
      restoreValue stringify quote incoming existing field ≠
        restoreValue stringify quote incoming none field := by
    intro field hsecret incoming existing h
    rw [restoreValue_of_secret _ _ hsecret, restoreValue_of_secret _ _ hsecret]
    exact restoreSecret_ne_of_fills ((fills_of_secret stringify quote hsecret _ _).mp h)
  induction field using ConfigField.induct generalizing incoming existing with
  | plain secret =>
    cases secret with
    | true => exact hsecret rfl h
    | false => simp [Fills] at h
  | object secret properties ih =>
    cases secret with
    | true => exact hsecret rfl h
    | false =>
      cases hfield with
      | object _ hnames hfields =>
      cases hincoming with
      | object hkeys hvalues =>
        simp only [Fills, Bool.false_eq_true, if_false] at h
        obtain ⟨⟨key, v⟩, hentry, hfills⟩ := h
        obtain ⟨field, hproperty, hfills⟩ := exists_field_of_fillsProperty stringify quote hfills
        intro heq
        simp only [restoreValue, Bool.false_eq_true, if_false, Option.some.injEq, Value.object.injEq] at heq
        have hlookup := congrArg (List.lookup key) heq
        rw [lookup_restoreProperties stringify quote hnames hkeys hentry hproperty,
          lookup_restoreProperties stringify quote hnames hkeys hentry hproperty] at hlookup
        exact ih _ hproperty (hfields _ hproperty) (hvalues _ hentry) hfills hlookup
      | _ => simp [Fills] at h
  | array secret items ih =>
    cases secret with
    | true => exact hsecret rfl h
    | false =>
      cases hfield with
      | array _ hitems =>
      cases hincoming with
      | array hvs =>
        simp only [Fills, Bool.false_eq_true, if_false] at h
        obtain ⟨row, hrow, hfills⟩ := h
        rw [restoreValue_array_none]
        intro heq
        simp only [restoreValue, Bool.false_eq_true, if_false, Option.some.injEq, Value.array.injEq] at heq
        have hpointwise := eq_of_filterMap_eq
          (fun row _ hkept => restoreValue_isSome_of_none stringify quote hkept _) heq row hrow
        have hmem : row.1 ∈ _ := List.mem_of_getElem? (List.mem_zipIdx_iff_getElem?.mp hrow)
        exact ih hitems (hvs _ hmem) hfills hpointwise
      | _ => simp [Fills] at h

end Filling

section Matching

variable (stringify : Value → Text) (quote : String → Text)

/-- The rows of an array are restored each from the stored row that stands for it. -/
theorem restoreValue_rows (items : ConfigField) (existing incoming : List Value) :
    restoreValue stringify quote (.array incoming) (some (.array existing)) (.array false items) =
      some (.array (incoming.zipIdx.filterMap fun row => restoreValue stringify quote row.1
        (matchOf stringify quote items existing (incoming.length = existing.length) row.1 row.2)
        items)) := by
  simp only [restoreValue, arrayItems, Bool.false_eq_true, if_false]
  rfl

/-- The stored elements that read as the incoming one, once the secrets are masked. -/
def sameContent (items : ConfigField) (existing : List Value) (item : Value) : List Value :=
  existing.filter fun ex =>
    elementSignature stringify quote ex items = elementSignature stringify quote item items

/--
The ways an incoming element gets a stored one: by its content, or else by its position, which must have
the same content if the length has changed.
-/
theorem matchOf_cases (items : ConfigField) (existing : List Value) (sameLength : Bool) (item : Value)
    (i : Nat) :
    (∃ ex, sameContent stringify quote items existing item = [ex] ∧
      matchOf stringify quote items existing sameLength item i = some ex) ∨
    ((sameContent stringify quote items existing item).length ≠ 1 ∧ sameLength = true ∧
      matchOf stringify quote items existing sameLength item i = existing[i]?) ∨
    ((sameContent stringify quote items existing item).length ≠ 1 ∧ sameLength = false ∧
      matchOf stringify quote items existing sameLength item i = (existing[i]?).filter fun twin =>
        elementSignature stringify quote twin items = elementSignature stringify quote item items) := by
  unfold matchOf sameContent
  dsimp only
  split
  . next ex hone => exact .inl ⟨ex, hone, rfl⟩
  . next hone =>
    have hlength : (existing.filter fun ex => elementSignature stringify quote ex items =
        elementSignature stringify quote item items).length ≠ 1 := by
      intro hlength
      obtain ⟨ex, hex⟩ := List.length_eq_one_iff.mp hlength
      exact hone ex hex
    cases sameLength with
    | true => exact .inr (.inl ⟨hlength, rfl, rfl⟩)
    | false => exact .inr (.inr ⟨hlength, rfl, rfl⟩)

/--
No row is given the secrets of another one: a stored row that fills a masked secret of an incoming row has
the same content, or no incoming row has its content, so that it can have been edited in place.
-/
def NeverGrafted (items : ConfigField) (existing incoming : List Value) : Prop :=
  ∀ (i : Nat) (row e : Value), incoming[i]? = some row →
    matchOf stringify quote items existing (incoming.length = existing.length) row i = some e →
    Fills stringify quote row (some e) items →
    elementSignature stringify quote row items = elementSignature stringify quote e items ∨
      ∀ other ∈ incoming,
        elementSignature stringify quote other items ≠ elementSignature stringify quote e items

/--
With the number of rows unchanged, a row whose content does not tell the stored one stands, masked, at the
position of a stored row that has moved to another position.
-/
def TakesPlaceOfMovedRow (items : ConfigField) (existing incoming : List Value) : Prop :=
  incoming.length = existing.length ∧
  ∃ (i : Nat) (row e : Value), incoming[i]? = some row ∧ existing[i]? = some e ∧
    (sameContent stringify quote items existing row).length ≠ 1 ∧
    elementSignature stringify quote row items ≠ elementSignature stringify quote e items ∧
    Fills stringify quote row (some e) items ∧
    ∃ other ∈ incoming,
      elementSignature stringify quote other items = elementSignature stringify quote e items

/-- A stored row with another content is one that was matched by its position. -/
theorem getElem?_of_matchOf_of_ne {items : ConfigField} {existing : List Value} {sameLength : Bool}
    {row e : Value} {i : Nat}
    (hmatch : matchOf stringify quote items existing sameLength row i = some e)
    (hne : elementSignature stringify quote row items ≠ elementSignature stringify quote e items) :
    sameLength = true ∧ existing[i]? = some e ∧
      (sameContent stringify quote items existing row).length ≠ 1 := by
  rcases matchOf_cases stringify quote items existing sameLength row i with
    ⟨ex, hone, heq⟩ | ⟨hlength, hsame, heq⟩ | ⟨hlength, _, heq⟩
  . rw [heq, Option.some.injEq] at hmatch
    have hmem : e ∈ sameContent stringify quote items existing row := by
      rw [hone, hmatch]
      exact List.mem_singleton_self e
    have hcontent := (List.mem_filter.mp hmem).2
    rw [decide_eq_true_eq] at hcontent
    exact absurd hcontent.symm hne
  . rw [heq] at hmatch
    exact ⟨hsame, hmatch, hlength⟩
  . rw [heq] at hmatch
    have hcontent := (Option.filter_eq_some_iff.mp hmatch).2
    rw [decide_eq_true_eq] at hcontent
    exact absurd hcontent.symm hne

theorem matchOf_of_position {items : ConfigField} {existing : List Value} {row e : Value} {i : Nat}
    (hlength : (sameContent stringify quote items existing row).length ≠ 1)
    (hat : existing[i]? = some e) : matchOf stringify quote items existing true row i = some e := by
  rcases matchOf_cases stringify quote items existing true row i with
    ⟨ex, hone, _⟩ | ⟨_, _, heq⟩ | ⟨_, hsame, _⟩
  . rw [hone] at hlength
    exact absurd rfl hlength
  . rw [heq, hat]
  . cases hsame

/--
The secrets of a stored row never go to another row exactly if no row that its content does not identify
takes the place of a row that has moved.
-/
theorem neverGrafted_iff (items : ConfigField) (existing incoming : List Value) :
    NeverGrafted stringify quote items existing incoming ↔
      ¬TakesPlaceOfMovedRow stringify quote items existing incoming := by
  constructor
  . rintro hnever ⟨hlength, i, row, e, hrow, hat, hcontent, hne, hfills, other, hother, hsame⟩
    have hmatch := matchOf_of_position stringify quote hcontent hat
    rcases hnever i row e hrow (by simpa [hlength] using hmatch) hfills with heq | hgone
    . exact hne heq
    . exact hgone other hother hsame
  . intro hplace i row e hrow hmatch hfills
    by_cases hcontent : elementSignature stringify quote row items =
        elementSignature stringify quote e items
    . exact .inl hcontent
    . right
      intro other hother hsame
      obtain ⟨hlength, hat, hone⟩ := getElem?_of_matchOf_of_ne stringify quote hmatch hcontent
      rw [decide_eq_true_eq] at hlength
      exact hplace ⟨hlength, i, row, e, hrow, hat, hone, hcontent, hfills, other, hother, hsame⟩

end Matching

section Shifted

def quoted (s : String) : Text := '"' :: s.toList ++ ['"']

/-- Strings in quotes, and nothing else; enough for rows of strings. -/
def stringifyString (v : Value) : Text :=
  match v with
  | .string s => quoted s
  | _ => "null".toList

def tokenRow (name token : String) : Value := .object [("name", .string name), ("token", .string token)]

def tokenItems : ConfigField := .object false [("name", .plain false), ("token", .plain true)]

/-- The first row is deleted and a new one added: the new one gets the token of the row that moved up. -/
theorem restoreValue_shifted_rows :
    (restoreValue stringifyString quoted (.array [tokenRow "b" "***", tokenRow "c" "***"])
        (some (.array [tokenRow "a" "s1", tokenRow "b" "s2"])) (.array false tokenItems)).map
      (stableStringify stringifyString quoted) =
      some (stableStringify stringifyString quoted (.array [tokenRow "b" "s2", tokenRow "c" "s2"])) ∧
    ¬NeverGrafted stringifyString quoted tokenItems [tokenRow "a" "s1", tokenRow "b" "s2"]
      [tokenRow "b" "***", tokenRow "c" "***"] := by
  refine ⟨by decide +kernel, ?_⟩
  intro hnever
  have hmatch : matchOf stringifyString quoted tokenItems [tokenRow "a" "s1", tokenRow "b" "s2"] true
      (tokenRow "c" "***") 1 = some (tokenRow "b" "s2") := by
    apply matchOf_of_position
    . decide +kernel
    . rfl
  have hfills : Fills stringifyString quoted (tokenRow "c" "***") (some (tokenRow "b" "s2"))
      tokenItems := by
    simp only [Fills, tokenRow, tokenItems, Bool.false_eq_true, if_false]
    exists ("token", .string "***")
    simp [FillsProperty, Fills, FillsSecret, readProperty, plainObject, SECRET_SENTINEL, List.lookup_cons,
      isMeaningful]
  rcases hnever 1 (tokenRow "c" "***") (tokenRow "b" "s2") rfl hmatch hfills with hsame | hgone
  . exact absurd hsame (by decide +kernel)
  . exact hgone (tokenRow "b" "***") List.mem_cons_self (by decide +kernel)

end Shifted

end OpenWA.Plugins
