import OpenWA.Async.Discipline
import OpenWA.Capability.Verbs
import Mathlib.Data.List.Nodup

/-!
This module contains the confinement of plugins: whatever they ask for, and however their calls, the
operator and the sessions interleave, they reach what their manifest and their activation cover.
-/

namespace OpenWA.Capability

open Async Js

/-- A call of a plugin, or a change of the host that no plugin makes. -/
inductive Event where
  | call (manifest : PluginManifest) (verb : String) (args : List Value)
  | activate (pluginId : String) (activation : Activation)
  | engine (sessionId : String) (live : Bool)
  | session (sessionId : String) (present : Bool)
  | provision (pluginId : String) (rows : List PluginInstanceRecord)
  | learn (phones : Text → Option Text)

section System

variable (rt : Runtime)

def Event.run (event : Event) (s : Host) : Host × Job Unit :=
  match event with
  | .call manifest verb args => (s, do
      let _ ← dispatchCapabilityVerb rt manifest verb args
      pure ())
  | .activate pluginId activation =>
    ({ s with activation := Function.update s.activation pluginId activation }, pure ())
  | .engine sessionId live => ({ s with engines := Function.update s.engines sessionId live }, pure ())
  | .session sessionId present =>
    ({ s with sessions := Function.update s.sessions sessionId present }, pure ())
  | .provision pluginId rows =>
    ({ s with instances := Function.update s.instances pluginId rows }, pure ())
  | .learn phones => ({ s with phones }, pure ())

/-- The history of a run is which calls hold a slot. -/
def noteSlot (a : Act Event Answer Place) (s _s' : Host) (holders : List Nat) : List Nat :=
  match a with
  | .turn tid .takeSlot _ =>
    if s.inFlightFetches ≥ MAX_INFLIGHT_FETCHES then holders else holders ++ [tid]
  | .turn tid .releaseSlot _ => holders.erase tid
  | _ => holders

def capabilitySystem : System Host Answer Place PluginError Event (List Nat) where
  event v s := some (v.run rt s)
  note := noteSlot

end System

abbrev CapabilityWorld := World Host (List Nat)

abbrev CapabilityAct := Act Event Answer Place

/-- What holds of the rows between any two steps. -/
structure Host.Keyed (s : Host) : Prop where
  fresh : ∀ row ∈ s.mappings, row.id < s.nextId
  distinct : (s.mappings.map (·.id)).Nodup

/--
What the calls of a run are held to: a plugin only does what it `may`, a row of the plugin `p` that is
bound to the session `s` is neither added nor changed if `sealedRow p s`, and not even removed if
`keptRow p s`.
-/
structure Scope (rt : Runtime) where
  ok : CapabilityWorld → CapabilityAct → Prop
  calls : PluginManifest → Prop
  may : PluginManifest → Deed → Prop
  sealedRow : String → String → Prop
  keptRow : String → String → Prop
  call : ∀ w tid m verb args, ok w (.event tid (.call m verb args)) → calls m
  gate : ∀ w a m deed, ok w a → calls m → assertPermission m deed.permission = .ok () →
    (∀ sessionId, deed.sessionId? = some sessionId →
      w.st.assertSessionActive m sessionId = .ok ()) →
    (∀ url init, deed ≠ .fetch url init) → may m deed
  net : ∀ w a w' a' m url init configs, ok w a → ok w' a' → calls m →
    assertPermission m .netFetch = .ok () → configs ⊆ w'.st.instanceConfigs m.id →
    isNetHostAllowed rt (netAllow rt m (w.st.ownConfigs m.id ++ configs)) url = true →
    may m (.fetch url init)
  bound : ∀ w a m sessionId, ok w a → calls m → assertPermission m .conversationSend = .ok () →
    w.st.assertSessionActive m sessionId = .ok () → ¬sealedRow m.id sessionId
  owned : ∀ m sessionId, calls m → assertPermission m .conversationSend = .ok () →
    ¬keptRow m.id sessionId
  keptSealed : ∀ p s, keptRow p s → sealedRow p s

namespace Scope

variable {rt : Runtime} (sc : Scope rt)

def Sealed (row : ConversationMapping) : Prop := sc.sealedRow row.key.pluginId row.key.sessionId

def Kept (row : ConversationMapping) : Prop := sc.keptRow row.key.pluginId row.key.sessionId

def Allowed (e : Effect) : Prop := sc.may e.plugin e.deed

/-- What a run does to the host. -/
structure Moves (s s' : Host) : Prop where
  effects : ∀ e ∈ s'.effects, e ∈ s.effects ∨ sc.Allowed e
  nextId : s.nextId ≤ s'.nextId
  owner : ∀ row' ∈ s'.mappings, row'.id < s.nextId →
    ∃ row ∈ s.mappings, row.id = row'.id ∧ row.key.pluginId = row'.key.pluginId
  sealedRows : ∀ row' ∈ s'.mappings, sc.Sealed row' → row' ∈ s.mappings
  keptRows : ∀ row ∈ s.mappings, sc.Kept row → row ∈ s'.mappings

variable {sc} {s s' s'' : Host}

theorem Moves.of_rows (heffects : s'.effects = s.effects) (hmappings : s'.mappings = s.mappings)
    (hnextId : s'.nextId = s.nextId) : sc.Moves s s' where
  effects e he := .inl (heffects ▸ he)
  nextId := hnextId ▸ Nat.le_refl _
  owner row hrow _ := ⟨row, hmappings ▸ hrow, rfl, rfl⟩
  sealedRows row hrow _ := hmappings ▸ hrow
  keptRows row hrow _ := hmappings ▸ hrow

theorem Moves.refl (s : Host) : sc.Moves s s := .of_rows rfl rfl rfl

theorem Moves.trans (h : sc.Moves s s') (h' : sc.Moves s' s'') : sc.Moves s s'' where
  effects e he := by
    rcases h'.effects e he with hold | hallowed
    . exact h.effects e hold
    . exact .inr hallowed
  nextId := Nat.le_trans h.nextId h'.nextId
  owner row'' hrow'' hid := by
    rcases h'.owner row'' hrow'' (Nat.lt_of_lt_of_le hid h.nextId) with ⟨row', hrow', hid', howner'⟩
    rcases h.owner row' hrow' (hid' ▸ hid) with ⟨row, hrow, heq, howner⟩
    exact ⟨row, hrow, heq.trans hid', howner.trans howner'⟩
  sealedRows row hrow hsealed := h.sealedRows row (h'.sealedRows row hrow hsealed) hsealed
  keptRows row hrow hkept := h'.keptRows row (h.keptRows row hrow hkept) hkept

variable (sc)

def discipline : Discipline (capabilitySystem rt) where
  ok := sc.ok
  inv w := Host.Keyed w.st
  grows w w' := sc.Moves w.st w'.st
  refl w := .refl w.st
  trans h h' := h.trans h'

/-- The rest of a call keeps to the scope, from any world on. -/
def Confined {α : Type} (t : Job α) : Prop :=
  ∀ i w, sc.discipline.Safe i t w (fun _ _ => True) (fun _ _ => True)

end Scope

/-! ### What a call knows of a row it has read -/

section Facts

variable {rt : Runtime} (sc : Scope rt)

/-- A row with this id belongs to the plugin. -/
def Owns (pluginId : String) (id : Nat) (s : Host) : Prop :=
  id < s.nextId ∧ ∀ row ∈ s.mappings, row.id = id → row.key.pluginId = pluginId

def Open (id : Nat) (s : Host) : Prop := ∀ row ∈ s.mappings, row.id = id → ¬sc.Sealed row

variable {sc} {s s' : Host} {id : Nat} {pluginId : String}

theorem Owns.moves (h : Owns pluginId id s) (hmoves : sc.Moves s s') : Owns pluginId id s' := by
  refine ⟨Nat.lt_of_lt_of_le h.1 hmoves.nextId, fun row hrow hid => ?_⟩
  rcases hmoves.owner row hrow (hid ▸ h.1) with ⟨before, hbefore, hid', howner⟩
  rw [← howner]
  exact h.2 before hbefore (hid'.trans hid)

theorem Open.moves (h : Open sc id s) (hmoves : sc.Moves s s') : Open sc id s' :=
  fun row hrow hid hsealed => h row (hmoves.sealedRows row hrow hsealed) hid hsealed

variable {row other : ConversationMapping}

theorem Host.Keyed.eq_of_id (h : Host.Keyed s) (hrow : row ∈ s.mappings)
    (hother : other ∈ s.mappings) (hid : other.id = row.id) : other = row :=
  List.inj_on_of_nodup_map h.distinct hother hrow hid

theorem Host.Keyed.owns (h : Host.Keyed s) (hrow : row ∈ s.mappings) :
    Owns row.key.pluginId row.id s := by
  refine ⟨h.fresh row hrow, fun other hother hid => ?_⟩
  rw [h.eq_of_id hrow hother hid]

theorem Host.Keyed.isOpen (h : Host.Keyed s) (hrow : row ∈ s.mappings) (hopen : ¬sc.Sealed row) :
    Open sc row.id s := by
  intro other hother hid
  rw [h.eq_of_id hrow hother hid]
  exact hopen

end Facts

/-! ### The turns -/

namespace Scope

variable {rt : Runtime} {sc : Scope rt} {i : Nat} {w : CapabilityWorld} {α β : Type}

theorem Confined.pure (a : α) : sc.Confined (.pure a : Job α) := fun _ _ => trivial

theorem Confined.throw (e : PluginError) : sc.Confined (.throw e : Job α) := fun _ _ => trivial

theorem Confined.bind {t : Job α} {k : α → Job β} (h : sc.Confined t)
    (hk : ∀ a, sc.Confined (k a)) : sc.Confined (t.bind k) :=
  fun i w => (h i w).seq fun a w _ => hk a i w

theorem Confined.catch' {t : Job α} {k : PluginError → Job α} (h : sc.Confined t)
    (hk : ∀ e, sc.Confined (k e)) : sc.Confined (t.catch' k) :=
  fun i w => Discipline.Safe.catch' ((h i w).mono (fun _ _ h => h) fun e w _ => hk e i w)

theorem Confined.andFinally {t : Job α} {fin : Job Unit} (h : sc.Confined t)
    (hfin : sc.Confined fin) : sc.Confined (t.andFinally fin) := by
  intro i w
  apply Discipline.Safe.andFinally
  exact (h i w).mono (fun _ w _ => hfin i w) fun _ w _ => hfin i w

/-- A turn keeps to the scope if what it does to the host does. -/
theorem safe_turn {pt : Place} {f : Answer → Host → Host × Checked α} {Q : α → CapabilityWorld → Prop}
    {E : PluginError → CapabilityWorld → Prop}
    (hf : ∀ w' x, sc.Moves w.st w'.st → Host.Keyed w'.st → sc.ok w' (.turn i pt x) →
      Host.Keyed (f x w'.st).1 ∧ sc.Moves w'.st (f x w'.st).1 ∧
        match (f x w'.st).2 with
        | .ok a => ∀ w'', w''.st = (f x w'.st).1 → Q a w''
        | .error e => ∀ w'', w''.st = (f x w'.st).1 → E e w'') :
    sc.discipline.Safe i (.atomic pt f) w Q E := by
  apply Discipline.safe_await
  intro w' x hmoves hkeyed _ hok
  rcases hf w' x hmoves hkeyed hok with ⟨hkeyed', hmoves', hresult⟩
  refine ⟨⟨hkeyed', hmoves'⟩, ?_⟩
  cases h : (f x w'.st).2 with
  | ok a =>
    rw [h] at hresult
    exact hresult _ rfl
  | error e =>
    rw [h] at hresult
    exact hresult _ rfl

theorem safe_memory {f : Host → Checked α} {R : α → Prop}
    (hf : ∀ w' a x, sc.ok w' a → f w'.st = .ok x → R x) :
    sc.discipline.Safe i (memory f) w (fun x _ => R x) (fun _ _ => True) := by
  apply safe_turn
  intro w' _ _ hkeyed hok
  refine ⟨hkeyed, .refl _, ?_⟩
  dsimp only
  split
  . next x heq => exact fun _ _ => hf w' _ x hok heq
  . exact fun _ _ => trivial

theorem confined_memory (f : Host → Checked α) : sc.Confined (memory f) := by
  intro i w
  apply safe_memory
  intros
  trivial

theorem confined_settle : sc.Confined settle := by
  intro i w
  apply safe_turn
  intro w' x _ hkeyed _
  cases x <;> exact ⟨hkeyed, .refl _, fun _ _ => trivial⟩

theorem confined_issue {check : Host → Checked Effect}
    (hcheck : ∀ w a e, sc.ok w a → check w.st = .ok e → sc.Allowed e) :
    sc.Confined (issue check) := by
  intro i w
  apply safe_turn
  intro w' x _ hkeyed hok
  cases h : check w'.st with
  | error e => exact ⟨hkeyed, .refl _, fun _ _ => trivial⟩
  | ok effect =>
    refine ⟨⟨hkeyed.fresh, hkeyed.distinct⟩, ?_, fun _ _ => trivial⟩
    constructor
    . intro e he
      rcases List.mem_append.mp he with hold | hnew
      . exact .inl hold
      . rw [List.mem_singleton.mp hnew]
        exact .inr (hcheck w' _ effect hok h)
    . exact Nat.le_refl _
    . exact fun row hrow _ => ⟨row, hrow, rfl, rfl⟩
    . exact fun row hrow _ => hrow
    . exact fun row hrow _ => hrow

theorem safe_query {f : Host → Host × Checked α} {Q : α → Host → Prop}
    (hf : ∀ s, sc.Moves w.st s → Host.Keyed s →
      Host.Keyed (f s).1 ∧ sc.Moves s (f s).1 ∧ ∀ a, (f s).2 = .ok a → Q a (f s).1) :
    sc.discipline.Safe i (query f) w (fun a w => Q a w.st) (fun _ _ => True) := by
  apply safe_turn
  intro w' x hmoves hkeyed _
  cases x with
  | fault message => exact ⟨hkeyed, .refl _, fun _ _ => trivial⟩
  | done value =>
    rcases hf w'.st hmoves hkeyed with ⟨hkeyed', hmoves', hQ⟩
    refine ⟨hkeyed', hmoves', ?_⟩
    dsimp only
    split
    . next a heq =>
      intro w'' hw
      rw [hw]
      exact hQ a heq
    . exact fun _ _ => trivial

/-- What was read of a row: whose it is, and whether it may be changed. -/
structure Read (sc : Scope rt) (row : ConversationMapping) (s : Host) : Prop where
  owns : Owns row.key.pluginId row.id s
  isOpen : ¬sc.Sealed row → Open sc row.id s

theorem safe_findOne (p : ConversationMapping → Bool) :
    sc.discipline.Safe i (findOne p) w
      (fun found w => ∀ row ∈ found, p row = true ∧ sc.Read row w.st) (fun _ _ => True) := by
  apply safe_query (Q := fun found s => ∀ row ∈ found, p row = true ∧ sc.Read row s)
  intro s _ hkeyed
  refine ⟨hkeyed, .refl _, ?_⟩
  intro found hfound row hrow
  rw [Except.ok.injEq] at hfound
  rw [← hfound] at hrow
  have hmem := List.mem_of_find?_eq_some hrow
  exact ⟨List.find?_some hrow, hkeyed.owns hmem, hkeyed.isOpen hmem⟩

theorem confined_query_of_rows {f : Host → Host × Checked α}
    (hf : ∀ s, (f s).1 = s) : sc.Confined (query f) := by
  intro i w
  apply safe_query (Q := fun _ _ => True)
  intro s _ hkeyed
  rw [hf]
  exact ⟨hkeyed, .refl _, fun _ _ => trivial⟩

theorem safe_save {key : MappingKey} {providerConversationId : String}
    (hopen : ¬sc.sealedRow key.pluginId key.sessionId) :
    sc.Confined (save key providerConversationId) := by
  intro i w
  apply safe_query (Q := fun _ _ => True)
  intro s _ hkeyed
  dsimp only
  split
  . exact ⟨hkeyed, .refl _, fun _ _ => trivial⟩
  refine ⟨⟨?_, ?_⟩, ?_, fun _ _ => trivial⟩
  . intro row hrow
    rcases List.mem_append.mp hrow with hold | hnew
    . exact Nat.lt_succ_of_lt (hkeyed.fresh row hold)
    . rw [List.mem_singleton.mp hnew]
      exact Nat.lt_succ_self _
  . rw [List.map_append, List.map_singleton, ← List.concat_eq_append, List.nodup_concat]
    refine ⟨?_, hkeyed.distinct⟩
    intro hmem
    rcases List.mem_map.mp hmem with ⟨row, hrow, hid⟩
    exact Nat.lt_irrefl _ (hid ▸ hkeyed.fresh row hrow)
  constructor
  . exact fun e he => .inl he
  . exact Nat.le_succ _
  . intro row hrow hid
    rcases List.mem_append.mp hrow with hold | hnew
    . exact ⟨row, hold, rfl, rfl⟩
    . rw [List.mem_singleton.mp hnew] at hid
      exact absurd hid (Nat.lt_irrefl _)
  . intro row hrow hsealed
    rcases List.mem_append.mp hrow with hold | hnew
    . exact hold
    . rw [List.mem_singleton.mp hnew] at hsealed
      exact absurd hsealed hopen
  . exact fun row hrow _ => List.mem_append_left _ hrow

theorem safe_updateRow {id : Nat} {patch : ConversationMapping → ConversationMapping}
    (hid : ∀ row, (patch row).id = row.id)
    (howner : ∀ row, (patch row).key.pluginId = row.key.pluginId)
    (hopen : ∀ s, sc.Moves w.st s → ∀ row ∈ s.mappings, row.id = id →
      ¬sc.Sealed (patch row) ∧ ¬sc.Kept row) :
    sc.discipline.Safe i (updateRow id patch) w (fun _ _ => True) (fun _ _ => True) := by
  apply safe_query (Q := fun _ _ => True)
  intro s hmoves hkeyed
  split
  . exact ⟨hkeyed, .refl _, fun _ _ => trivial⟩
  split
  . exact ⟨hkeyed, .refl _, fun _ _ => trivial⟩
  have hids : ∀ row, (if row.id = id then patch row else row).id = row.id := by
    intro row
    split
    . exact hid row
    . rfl
  refine ⟨⟨?_, ?_⟩, ?_, fun _ _ => trivial⟩
  . intro row hrow
    rcases List.mem_map.mp hrow with ⟨before, hbefore, rfl⟩
    rw [hids]
    exact hkeyed.fresh before hbefore
  . rw [List.map_map]
    have hmap : ((fun row : ConversationMapping => row.id) ∘ fun row =>
        if row.id = id then patch row else row) = fun row => row.id := funext hids
    rw [hmap]
    exact hkeyed.distinct
  constructor
  . exact fun e he => .inl he
  . exact Nat.le_refl _
  . intro row hrow _
    rcases List.mem_map.mp hrow with ⟨before, hbefore, rfl⟩
    refine ⟨before, hbefore, (hids before).symm, ?_⟩
    split
    . exact (howner before).symm
    . rfl
  . intro row hrow hsealed
    rcases List.mem_map.mp hrow with ⟨before, hbefore, rfl⟩
    split at hsealed
    . next heq => exact absurd hsealed (hopen s hmoves before hbefore heq).1
    . next hne =>
      rw [if_neg hne]
      exact hbefore
  . intro row hrow hkept
    have hne : row.id ≠ id := fun heq => (hopen s hmoves row hrow heq).2 hkept
    exact List.mem_map.mpr ⟨row, hrow, if_neg hne⟩

theorem safe_deleteRow {id : Nat}
    (hopen : ∀ s, sc.Moves w.st s → ∀ row ∈ s.mappings, row.id = id → ¬sc.Kept row) :
    sc.discipline.Safe i (deleteRow id) w (fun _ _ => True) (fun _ _ => True) := by
  apply safe_query (Q := fun _ _ => True)
  intro s hmoves hkeyed
  refine ⟨⟨?_, ?_⟩, ?_, fun _ _ => trivial⟩
  . exact fun row hrow => hkeyed.fresh row (List.mem_of_mem_filter hrow)
  . exact (List.Sublist.map _ List.filter_sublist).nodup hkeyed.distinct
  constructor
  . exact fun e he => .inl he
  . exact Nat.le_refl _
  . exact fun row hrow _ => ⟨row, List.mem_of_mem_filter hrow, rfl, rfl⟩
  . exact fun row hrow _ => List.mem_of_mem_filter hrow
  . intro row hrow hkept
    have hne : row.id ≠ id := fun heq => hopen s hmoves row hrow heq hkept
    exact List.mem_filter.mpr ⟨hrow, by simpa using hne⟩

/-! ### The conversation mappings -/

theorem safe_updateRow_of_open {id : Nat} {patch : ConversationMapping → ConversationMapping}
    (hopen : Open sc id w.st) (hid : ∀ row, (patch row).id = row.id)
    (hkey : ∀ row, (patch row).key = row.key) :
    sc.discipline.Safe i (updateRow id patch) w (fun _ _ => True) (fun _ _ => True) := by
  apply safe_updateRow hid
  . intro row
    rw [hkey]
  intro s hmoves row hrow heq
  have hnot := hopen.moves hmoves row hrow heq
  refine ⟨?_, fun hkept => hnot (sc.keptSealed _ _ hkept)⟩
  unfold Sealed
  rw [hkey]
  exact hnot

theorem safe_updateById {id : Nat} {key : MappingKey} {providerConversationId : String}
    (hopen : Open sc id w.st) :
    sc.discipline.Safe i (updateById id key providerConversationId) w (fun _ _ => True)
      (fun _ _ => True) := by
  apply Discipline.Safe.catch'
  refine Discipline.Safe.mono (safe_updateRow_of_open hopen (fun _ => rfl) fun _ => rfl)
    (fun _ _ h => h) fun e w' _ => ?_
  split <;> trivial

theorem safe_setHandover {id : Nat} {state : Value} (hopen : Open sc id w.st) :
    sc.discipline.Safe i (setHandover id state) w (fun _ _ => True) (fun _ _ => True) :=
  safe_updateRow_of_open hopen (fun _ => rfl) fun _ => rfl

theorem safe_get (key : MappingKey) :
    sc.discipline.Safe i (get key) w
      (fun found w => ∀ row ∈ found, row.key = key ∧ sc.Read row w.st) (fun _ _ => True) := by
  apply (safe_findOne _).mono _ fun _ _ h => h
  intro found w' hfound row hrow
  exact ⟨of_decide_eq_true (hfound row hrow).1, (hfound row hrow).2⟩

theorem Read.isOpen_of_key {row : ConversationMapping} {key : MappingKey} {s : Host}
    (h : sc.Read row s) (hkey : row.key = key) (hopen : ¬sc.sealedRow key.pluginId key.sessionId) :
    Open sc row.id s := by
  apply h.isOpen
  unfold Sealed
  rw [hkey]
  exact hopen

/-- What an upsert adds or changes is the row of its key. -/
theorem confined_upsert {key : MappingKey} {providerConversationId : String}
    (hopen : ¬sc.sealedRow key.pluginId key.sessionId) :
    sc.Confined (upsert key providerConversationId) := by
  intro i w
  apply Discipline.Safe.seq (safe_get key)
  intro found w' hfound
  cases found with
  | some existing =>
    rcases hfound existing rfl with ⟨hkey, hread⟩
    exact safe_updateById (hread.isOpen_of_key hkey hopen)
  | none =>
    apply Discipline.Safe.catch'
    apply (safe_save hopen i w').mono (fun _ _ h => h)
    intro e w₁ _
    split
    . trivial
    apply Discipline.Safe.seq (safe_get key)
    intro found w₂ hfound
    cases found with
    | some raced =>
      rcases hfound raced rfl with ⟨hkey, hread⟩
      exact safe_updateById (hread.isOpen_of_key hkey hopen)
    | none => trivial

theorem safe_getByProvider (pluginId instanceId providerConversationId : String) :
    sc.discipline.Safe i (getByProvider pluginId instanceId providerConversationId) w
      (fun found w => ∀ row ∈ found, row.key.pluginId = pluginId ∧ Owns pluginId row.id w.st)
      (fun _ _ => True) := by
  apply (safe_findOne _).mono _ fun _ _ h => h
  intro found w' hfound row hrow
  rcases hfound row hrow with ⟨hkey, hread⟩
  have hplugin : row.key.pluginId = pluginId := congrArg Prod.fst (of_decide_eq_true hkey)
  exact ⟨hplugin, hplugin ▸ hread.owns⟩

theorem safe_rebindSession {id : Nat} {pluginId sessionId : String} (howns : Owns pluginId id w.st)
    (hopen : ¬sc.sealedRow pluginId sessionId) (hkept : ∀ s, ¬sc.keptRow pluginId s) :
    sc.discipline.Safe i (rebindSession id sessionId) w (fun _ _ => True)
      (fun _ _ => True) := by
  have hnot {s : Host} (hmoves : sc.Moves w.st s) {row : ConversationMapping}
      (hrow : row ∈ s.mappings) (hid : row.id = id) : ¬sc.Kept row := by
    unfold Kept
    rw [(howns.moves hmoves).2 row hrow hid]
    exact hkept _
  apply Discipline.Safe.catch'
  have hupdate : sc.discipline.Safe i (updateRow id fun row =>
      { row with key := { row.key with sessionId } }) w (fun _ _ => True) (fun _ _ => True) := by
    refine safe_updateRow (fun _ => rfl) (fun _ => rfl) fun s hmoves row hrow hid => ?_
    refine ⟨?_, hnot hmoves hrow hid⟩
    unfold Sealed
    rw [(howns.moves hmoves).2 row hrow hid]
    exact hopen
  apply (Discipline.Safe.frame (P := fun w' => sc.Moves w.st w'.st) (fun _ _ h h' => h'.trans h)
    (.refl _) hupdate).mono (fun _ _ _ => trivial)
  intro e w' hmoved
  split
  . trivial
  apply safe_deleteRow
  intro s hmoves row hrow hid
  exact hnot (hmoved.2.trans hmoves) hrow hid

theorem confined_isSessionGone (sc : Scope rt) (sessionId : String) : sc.Confined (isSessionGone sessionId) := by
  apply Confined.catch'
  . apply confined_query_of_rows
    intro s
    split <;> rfl
  . exact fun e => .pure _

/-! ### The capabilities -/

section Capabilities

variable {m : PluginManifest}

theorem assertSessionActive_of_resolveEngine {s : Host} {sessionId : String}
    (h : s.resolveEngine m sessionId = .ok ()) : s.assertSessionActive m sessionId = .ok () := by
  rcases checked_bind_eq_ok.mp h with ⟨_, hactive, -⟩
  exact hactive

theorem confined_guarded {check : Host → Checked Unit} {effect : Effect}
    (hcheck : ∀ w a, sc.ok w a → check w.st = .ok () → sc.Allowed effect) :
    sc.Confined (guarded check effect) := by
  apply Confined.bind
  . apply confined_issue
    intro w a e hok h
    rcases checked_bind_eq_ok.mp h with ⟨_, hpassed, heffect⟩
    simp only [pure, Except.pure, Except.ok.injEq] at heffect
    exact heffect ▸ hcheck w a hok hpassed
  . exact fun _ => confined_settle

variable (hcalls : sc.calls m)
include hcalls

/-- The gates of a read of an engine. -/
theorem allowed_of_resolveEngineRead {w : CapabilityWorld} {a : CapabilityAct} {sessionId : String}
    {read : EngineRead} (hok : sc.ok w a) (h : w.st.resolveEngineRead m sessionId = .ok ()) :
    sc.Allowed ⟨m, .read sessionId read⟩ := by
  rcases checked_bind_eq_ok.mp h with ⟨_, hpermission, hengine⟩
  refine sc.gate w a m (.read sessionId read) hok hcalls hpermission ?_ (by simp)
  rintro _ ⟨⟩
  exact assertSessionActive_of_resolveEngine hengine

theorem confined_messageCapability (sessionId : String) (message : Message) :
    sc.Confined (messageCapability m sessionId message) := by
  apply confined_guarded
  intro w a hok h
  rcases checked_bind_eq_ok.mp h with ⟨_, hpermission, hengine⟩
  refine sc.gate w a m (.send .messages sessionId message) hok hcalls hpermission ?_ (by simp)
  rintro _ ⟨⟩
  exact assertSessionActive_of_resolveEngine hengine

theorem confined_engineCapability (sessionId : String) (read : EngineRead) :
    sc.Confined (engineCapability m sessionId read) :=
  confined_guarded fun _ _ hok h => allowed_of_resolveEngineRead hcalls hok h

theorem confined_canonicalChatId (sessionId chatId : String) :
    sc.Confined (canonicalChatId m rt sessionId chatId) := by
  apply Confined.bind
  . apply confined_issue
    intro w a e hok h
    rcases checked_bind_eq_ok.mp h with ⟨_, hpassed, heffect⟩
    simp only [pure, Except.pure, Except.ok.injEq] at heffect
    exact heffect ▸ allowed_of_resolveEngineRead hcalls hok hpassed
  . exact fun _ => confined_memory _

theorem confined_storageCapability (call : StorageCall) :
    sc.Confined (storageCapability m call) :=
  confined_guarded fun w a hok h =>
    sc.gate w a m (.store call) hok hcalls h (by simp [Deed.sessionId?]) (by simp)

omit hcalls in
theorem confined_performPluginFetch {url : String} {init : Value}
    (hallowed : sc.Allowed ⟨m, .fetch url init⟩) :
    sc.Confined (performPluginFetch m url init) := by
  apply Confined.bind
  . intro i w
    apply safe_turn
    intro w' _ _ hkeyed _
    split
    . exact ⟨hkeyed, .refl _, fun _ _ => trivial⟩
    refine ⟨⟨hkeyed.fresh, hkeyed.distinct⟩, ?_, fun _ _ => trivial⟩
    constructor
    . intro e he
      rcases List.mem_append.mp he with hold | hnew
      . exact .inl hold
      . rw [List.mem_singleton.mp hnew]
        exact .inr hallowed
    . exact Nat.le_refl _
    . exact fun row hrow _ => ⟨row, hrow, rfl, rfl⟩
    . exact fun row hrow _ => hrow
    . exact fun row hrow _ => hrow
  . intro _
    apply Confined.andFinally confined_settle
    intro i w
    apply safe_turn
    exact fun w' _ _ hkeyed _ => ⟨⟨hkeyed.fresh, hkeyed.distinct⟩, .of_rows rfl rfl rfl,
      fun _ _ => trivial⟩

omit hcalls in
theorem safe_enabledInstanceConfigs (pluginId : String) :
    sc.discipline.Safe i (enabledInstanceConfigs pluginId) w
      (fun configs _ => ∃ w a, sc.ok w a ∧ configs ⊆ w.st.instanceConfigs pluginId)
      (fun _ _ => True) := by
  have hquery : sc.discipline.Safe i (query fun s => (s, .ok (s.instanceConfigs pluginId))) w
      (fun configs _ => ∃ w a, sc.ok w a ∧ configs ⊆ w.st.instanceConfigs pluginId)
      (fun _ _ => ∃ w a, sc.ok w a) := by
    apply safe_turn
    intro w' x _ hkeyed hok
    cases x with
    | done value => exact ⟨hkeyed, .refl _, fun _ _ => ⟨w', _, hok, List.Subset.refl _⟩⟩
    | fault message => exact ⟨hkeyed, .refl _, fun _ _ => ⟨w', _, hok⟩⟩
  apply Discipline.Safe.catch'
  apply hquery.mono (fun _ _ h => h)
  rintro _ _ ⟨w, a, hok⟩
  exact ⟨w, a, hok, List.nil_subset _⟩

theorem confined_netCapability (url : String) (init : Value) :
    sc.Confined (netCapability rt m url init) := by
  intro i w
  have hgate : sc.discipline.Safe i (memory fun s => do
      assertPermission m .netFetch
      pure (s.ownConfigs m.id)) w
      (fun own _ => assertPermission m .netFetch = .ok () ∧
        ∃ w a, sc.ok w a ∧ w.st.ownConfigs m.id = own) (fun _ _ => True) := by
    apply safe_memory
    intro w' a own hok h
    rcases checked_bind_eq_ok.mp h with ⟨_, hpermission, hown⟩
    simp only [pure, Except.pure, Except.ok.injEq] at hown
    exact ⟨hpermission, w', a, hok, hown⟩
  apply Discipline.Safe.seq hgate
  rintro _ w' ⟨hpermission, w₁, a₁, hok₁, rfl⟩
  apply Discipline.Safe.seq (safe_enabledInstanceConfigs m.id)
  rintro configs w'' ⟨w₂, a₂, hok₂, hconfigs⟩
  split
  . trivial
  . next hhost =>
    simp only [Bool.not_eq_true, Bool.not_eq_false'] at hhost
    exact confined_performPluginFetch
      (sc.net w₁ a₁ w₂ a₂ m url init configs hok₁ hok₂ hcalls hpermission hconfigs hhost) i w''

/-- A gate of the conversations was passed for the session. -/
structure Conversing (sc : Scope rt) (m : PluginManifest) (sessionId : String) : Prop where
  permission : assertPermission m .conversationSend = .ok ()
  active : ∃ w a, sc.ok w a ∧ w.st.assertSessionActive m sessionId = .ok ()

theorem Conversing.may {deed : Deed} {sessionId : String} (h : sc.Conversing m sessionId)
    (hpermission : deed.permission = .conversationSend)
    (hsession : deed.sessionId? = some sessionId) : sc.may m deed := by
  rcases h.active with ⟨w, a, hok, hactive⟩
  apply sc.gate w a m deed hok hcalls (hpermission ▸ h.permission)
  . intro sessionId' heq
    rw [hsession, Option.some.injEq] at heq
    exact heq ▸ hactive
  . rintro url init rfl
    contradiction

theorem Conversing.bound {sessionId : String} (h : sc.Conversing m sessionId) :
    ¬sc.sealedRow m.id sessionId := by
  rcases h.active with ⟨w, a, hok, hactive⟩
  exact sc.bound w a m sessionId hok hcalls h.permission hactive

omit hcalls in
theorem safe_assertConversation (sessionId : String) :
    sc.discipline.Safe i (assertConversation m sessionId) w
      (fun _ _ => sc.Conversing m sessionId) (fun _ _ => True) := by
  apply safe_memory
  intro w' a _ hok h
  rcases checked_bind_eq_ok.mp h with ⟨_, hpermission, hactive⟩
  exact ⟨hpermission, w', a, hok, hactive⟩

theorem confined_resolveChatId (env : Envelope) {sessionId : String}
    (hgate : sc.Conversing m sessionId) : sc.Confined (resolveChatId m env sessionId) := by
  intro i w
  unfold resolveChatId
  split
  . apply Discipline.Safe.seq (safe_getByProvider _ _ _)
    intro found w' hfound
    cases found with
    | none => trivial
    | some mapping =>
      rcases hfound mapping rfl with ⟨-, howns⟩
      dsimp only
      split
      . have hgone := Discipline.Safe.frame (P := fun w => Owns m.id mapping.id w.st)
          (fun _ _ hmoves h => h.moves hmoves) howns
          (confined_isSessionGone sc mapping.key.sessionId i w')
        apply Discipline.Safe.seq (hgone.mono (fun _ _ h => h) fun _ _ _ => trivial)
        intro gone w₁ howns
        split
        . exact Discipline.Safe.seq (safe_rebindSession howns.2 (hgate.bound hcalls)
            fun s => sc.owned m s hcalls hgate.permission) fun _ _ _ => trivial
        . trivial
      . trivial
  . trivial

theorem confined_conversationSend (env : Option Envelope) :
    sc.Confined (conversationSend m env) := by
  intro i w
  have hgate : sc.discipline.Safe i (memory (checkEnvelope m env)) w
      (fun x _ => sc.Conversing m x.2) (fun _ _ => True) := by
    apply safe_memory
    intro w' a x hok h
    unfold checkEnvelope at h
    rcases checked_bind_eq_ok.mp h with ⟨_, hpermission, h⟩
    split at h
    . contradiction
    split at h
    . contradiction
    rcases checked_bind_eq_ok.mp h with ⟨_, hactive, hx⟩
    simp only [pure, Except.pure, Except.ok.injEq] at hx
    exact hx ▸ ⟨hpermission, w', a, hok, hactive⟩
  apply Discipline.Safe.seq hgate
  rintro ⟨env, sessionId⟩ w' hconversing
  have hchat : sc.Confined (chatIdOf m env sessionId) := by
    unfold chatIdOf
    split
    . exact .pure _
    . exact confined_resolveChatId hcalls env hconversing
  apply Discipline.Safe.seq (hchat i w')
  intro chatId w₁ _
  have hissue : sc.Confined (issue fun _ => do
      let message ← deliver env chatId
      pure ⟨m, .send .conversations sessionId message⟩) := by
    apply confined_issue
    intro _ _ e _ h
    rcases checked_bind_eq_ok.mp h with ⟨message, -, heffect⟩
    simp only [pure, Except.pure, Except.ok.injEq] at heffect
    exact heffect ▸ hconversing.may hcalls rfl rfl
  exact (hissue.bind fun _ => confined_settle) i w₁

theorem confined_handoverSet (key : PluginKey) (state : Value) :
    sc.Confined (handoverSet m key state) := by
  intro i w
  apply Discipline.Safe.seq (safe_assertConversation key.sessionId)
  intro _ w' hgate
  apply Discipline.Safe.seq (safe_get _)
  intro found w₁ hfound
  cases found with
  | none => trivial
  | some mapping =>
    rcases hfound mapping rfl with ⟨hkey, hread⟩
    exact Discipline.Safe.seq (safe_setHandover (hread.isOpen_of_key hkey
      (hgate.bound hcalls))) fun _ _ _ => trivial

theorem confined_mappingsUpsert (key : PluginKey) (providerConversationId : String) :
    sc.Confined (mappingsUpsert m key providerConversationId) := by
  intro i w
  apply Discipline.Safe.seq (safe_assertConversation key.sessionId)
  intro _ w' hgate
  have hupsert : sc.Confined (upsert (key.mappingKey m) providerConversationId) :=
    confined_upsert (hgate.bound hcalls)
  refine (Confined.bind (.catch' hupsert fun e => ?_) fun _ => .pure _) i w'
  split
  . intro i w
    apply Discipline.Safe.seq (safe_getByProvider _ _ _)
    intro found w' hfound
    cases found with
    | none => trivial
    | some stale =>
      rcases hfound stale rfl with ⟨-, howns⟩
      have hgone := Discipline.Safe.frame (P := fun w => Owns m.id stale.id w.st)
        (fun _ _ hmoves h => h.moves hmoves) howns
        (confined_isSessionGone sc stale.key.sessionId i w')
      apply Discipline.Safe.seq (hgone.mono (fun _ _ h => h) fun _ _ _ => trivial)
      intro gone w₁ howns
      split
      . have hdelete : sc.discipline.Safe i (deleteRow stale.id) w₁ (fun _ _ => True)
            (fun _ _ => True) := by
          apply safe_deleteRow
          intro s hmoves row hrow hid
          unfold Kept
          rw [(howns.2.moves hmoves).2 row hrow hid]
          exact sc.owned m _ hcalls hgate.permission
        exact Discipline.Safe.seq hdelete fun _ w₂ _ => hupsert i w₂
      . trivial
  . exact .throw _

omit hcalls in
theorem confined_tell {check : Host → Checked Unit} {mapping : ConversationMapping} (view : Value)
    (hcheck : ∀ w a, sc.ok w a → check w.st = .ok () →
      sc.may m (.told mapping)) :
    sc.Confined (tell m check mapping view) := by
  apply Confined.bind
  . apply confined_issue
    intro w a e hok h
    rcases checked_bind_eq_ok.mp h with ⟨_, hpassed, heffect⟩
    simp only [pure, Except.pure, Except.ok.injEq] at heffect
    exact heffect ▸ hcheck w a hok hpassed
  . exact fun _ => .pure _

theorem confined_mappingsGet (key : PluginKey) : sc.Confined (mappingsGet m key) := by
  intro i w
  apply Discipline.Safe.seq (safe_assertConversation key.sessionId)
  intro _ w' hgate
  apply Discipline.Safe.seq (safe_get _)
  intro found w₁ hfound
  cases found with
  | none => trivial
  | some mapping =>
    rcases hfound mapping rfl with ⟨hkey, -⟩
    refine confined_tell _ (fun _ _ _ _ => ?_) i w₁
    exact hgate.may hcalls rfl (by rw [Deed.sessionId?, hkey]; rfl)

theorem confined_mappingsGetByProvider (instanceId providerConversationId : String) :
    sc.Confined (mappingsGetByProvider m instanceId providerConversationId) := by
  intro i w
  have hgate : sc.discipline.Safe i (memory fun _ => assertPermission m .conversationSend) w
      (fun _ _ => assertPermission m .conversationSend = .ok ()) (fun _ _ => True) :=
    safe_memory fun _ _ _ _ h => h
  apply Discipline.Safe.seq hgate
  intro _ w' hpermission
  apply Discipline.Safe.seq (safe_getByProvider _ _ _)
  intro found w₁ _
  cases found with
  | none => trivial
  | some mapping =>
    refine confined_tell _ (fun w a hok hactive => ?_) i w₁
    exact Conversing.may hcalls ⟨hpermission, w, a, hok, hactive⟩ rfl rfl

end Capabilities

theorem confined_dispatchCapabilityVerb {m : PluginManifest} (hcalls : sc.calls m) (verb : String)
    (args : List Value) : sc.Confined (dispatchCapabilityVerb rt m verb args) := by
  apply EachCapability.dispatch (P := sc.Confined) _ .throw
  exact {
    message := confined_messageCapability hcalls
    engine := confined_engineCapability hcalls
    canonical := confined_canonicalChatId hcalls
    storage := confined_storageCapability hcalls
    net := confined_netCapability hcalls
    send := confined_conversationSend hcalls
    handover := confined_handoverSet hcalls
    upsert := confined_mappingsUpsert hcalls
    get := confined_mappingsGet hcalls
    getByProvider := confined_mappingsGetByProvider hcalls
  }

theorem sound (sc : Scope rt) : sc.discipline.Sound := by
  intro w event s t hinv hok hevent
  simp only [capabilitySystem, Option.some.injEq] at hevent
  cases event with
  | call m verb args =>
    cases hevent
    exact ⟨⟨hinv, .refl _⟩, Confined.bind
      (confined_dispatchCapabilityVerb (sc.call w _ m verb args hok) verb args)
      (fun _ => .pure _) _ _⟩
  | activate | engine | session | provision | learn =>
    cases hevent
    exact ⟨⟨⟨hinv.fresh, hinv.distinct⟩, .of_rows rfl rfl rfl⟩, trivial⟩

/-- A run keeps to its scope. -/
theorem moves_of_reach (sc : Scope rt) {init c : Config Host Answer Place PluginError (List Nat)}
    (hkeyed : Host.Keyed init.st) (hpool : init.pool = [])
    (h : (capabilitySystem rt).Reach sc.ok init c) : sc.Moves init.st c.st :=
  (sound sc).grows_of_reach hkeyed hpool .init h

end Scope
end OpenWA.Capability
