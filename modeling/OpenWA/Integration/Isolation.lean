import OpenWA.Integration.Coverage
import OpenWA.Integration.Dispatch
import Mathlib.Data.List.Infix

/-!
This module contains the isolation of the configs of a plugin's instances from each other: two
histories that differ in the configs of some instances, seen from another instance.
-/

namespace OpenWA.Integration

open Js

variable {κ : Type}

/-! ### Slices -/

section Slices

/-- What `setPluginSessionConfig` stores. -/
def setSlice (ops : ConfigOps κ) (sessionConfig : List (String × κ)) (sessionId : String)
    (config : κ) : List (String × κ) :=
  let rest := sessionConfig.filter fun entry => entry.1 != sessionId && entry.1 != protoKey
  if ops.isEmpty config then rest else rest ++ [(sessionId, config)]

theorem lookup_retain (sessionConfig : List (String × κ)) (p : String → Bool) (k : String) :
    (sessionConfig.filter fun entry => p entry.1).lookup k =
      if p k then sessionConfig.lookup k else none := by
  induction sessionConfig with
  | nil => simp
  | cons entry entries ih =>
    rw [List.filter_cons, List.lookup_cons]
    by_cases hk : k = entry.1
    . subst hk
      split
      . rw [List.lookup_cons]
        simp
      . next hp => rw [ih, if_neg hp]
    . rw [beq_eq_false_iff_ne.mpr hk, ← ih]
      split
      . rw [List.lookup_cons, beq_eq_false_iff_ne.mpr hk]
      . rfl

theorem lookup_setSlice (ops : ConfigOps κ) (sessionConfig : List (String × κ)) (sessionId : String)
    (config : κ) (k : String) :
    (setSlice ops sessionConfig sessionId config).lookup k =
      if k = sessionId then if ops.isEmpty config then none else some config
      else if k = protoKey then none
      else sessionConfig.lookup k := by
  have hrest := lookup_retain sessionConfig (fun key => key != sessionId && key != protoKey) k
  unfold setSlice
  by_cases hk : k = sessionId
  . rw [if_pos hk]
    split
    . rw [hrest, if_neg (by simp [hk])]
    . rw [List.lookup_append, hrest, if_neg (by simp [hk])]
      simp [hk]
  . rw [if_neg hk]
    have hlast : [(sessionId, config)].lookup k = none := by
      simp [List.lookup_cons, beq_eq_false_iff_ne.mpr hk]
    split <;> rename_i hempty
    . rw [hrest]
      by_cases hp : k = protoKey <;> simp [hk, hp]
    . rw [List.lookup_append, hrest, hlast, Option.or_none]
      by_cases hp : k = protoKey <;> simp [hk, hp]

end Slices

/-! ### What a binding does to the plugin -/

section Binding

def boundPlugin (ops : ConfigOps κ) (instances : List (PluginInstance κ)) (scope : Option String)
    (config : κ) (activate : Bool) (plugin : Plugin κ) : Plugin κ :=
  if isWildcard scope then
    let base := if activate then ops.merge plugin.config config else plugin.config
    if plugin.sessionScoped = some false then { plugin with config := base }
    else if activate then { plugin with config := base, activeSessions := some ["*"] }
    else if anyWildcard instances then plugin
    else { plugin with activeSessions := some (plugin.sessions.filter (· != "*")) }
  else if plugin.sessionScoped = some false then plugin
  else
    let scope := scope.getD ""
    let slices := setSlice ops plugin.sessionConfig scope (if activate then config else ops.empty)
    if !activate && anyBinds instances scope then { plugin with sessionConfig := slices }
    else
      { plugin with
        sessionConfig := slices
        activeSessions := some (boundSessions instances (some scope) activate plugin.sessions) }

theorem setPluginSessions_global (pluginId : String) (sessions : List String) {plugin : Plugin κ}
    (h : plugin.sessionScoped = some false) :
    ((setPluginSessions pluginId sessions).run plugin).2 = plugin := by
  unfold setPluginSessions
  rw [Loader.bind_run Loader.get_run, if_pos h]
  rfl

theorem setPluginSessionConfig_global (ops : ConfigOps κ) (pluginId sessionId : String) (config : κ)
    {plugin : Plugin κ} (h : plugin.sessionScoped = some false) :
    (setPluginSessionConfig ops pluginId sessionId config).run plugin =
      (.error (globalPluginError pluginId "has no per-session config"), plugin) := by
  unfold setPluginSessionConfig
  rw [Loader.bind_run Loader.get_run, if_pos h]
  rfl

theorem setPluginSessionConfig_slice (ops : ConfigOps κ) (pluginId sessionId : String) (config : κ)
    {plugin : Plugin κ} (h : plugin.sessionScoped ≠ some false) :
    (setPluginSessionConfig ops pluginId sessionId config).run plugin =
      (.ok (), { plugin with sessionConfig := setSlice ops plugin.sessionConfig sessionId config }) := by
  unfold setPluginSessionConfig setSlice
  rw [Loader.bind_run Loader.get_run, if_neg h]
  cases hempty : ops.isEmpty config with
  | true => simp only [↓reduceIte]; rfl
  | false => simp only [Bool.false_eq_true, ↓reduceIte]; rfl

theorem Loader.bind_error {α β : Type} {x : Loader κ α} {f : α → Loader κ β} {e : String}
    {plugin plugin' : Plugin κ} (h : x.run plugin = (.error e, plugin')) :
    (x >>= f).run plugin = (.error e, plugin') := by
  simp only [ExceptT.run] at h
  simp only [ExceptT.run, bind, ExceptT.bind, ExceptT.mk, StateT.bind, h]
  rfl

theorem bindWildcard_run (ops : ConfigOps κ) (pluginId : String)
    (instances : List (PluginInstance κ)) {scope : Option String} (config : κ) (activate : Bool)
    (plugin : Plugin κ) (hscope : isWildcard scope = true) :
    ((bindScope.bindWildcard ops pluginId instances config activate).run plugin).2 =
      boundPlugin ops instances scope config activate plugin := by
  unfold bindScope.bindWildcard boundPlugin
  rw [if_pos hscope]
  by_cases hglobal : plugin.sessionScoped = some false
  . simp only [if_pos hglobal]
    cases activate with
    | true =>
      simp only [↓reduceIte]
      rw [Loader.bind_run (updatePluginConfig_run ops config), setPluginSessions_global]
      exact hglobal
    | false =>
      cases anyWildcard instances with
      | true => rfl
      | false =>
        simp only [Bool.false_eq_true, ↓reduceIte, Bool.not_false]
        rw [Loader.bind_run Loader.get_run, setPluginSessions_global pluginId _ hglobal]
  . simp only [if_neg hglobal]
    cases activate with
    | true =>
      simp only [↓reduceIte]
      rw [Loader.bind_run (updatePluginConfig_run ops config), setPluginSessions_run]
      exact hglobal
    | false =>
      cases anyWildcard instances with
      | true => rfl
      | false =>
        simp only [Bool.false_eq_true, ↓reduceIte, Bool.not_false]
        rw [Loader.bind_run Loader.get_run, setPluginSessions_run pluginId _ hglobal]

theorem bindScope_run (ops : ConfigOps κ) (pluginId : String)
    (instances : List (PluginInstance κ)) (scope : Option String) (config : κ) (activate : Bool)
    (plugin : Plugin κ) :
    ((bindScope ops pluginId instances scope config activate).run plugin).2 =
      boundPlugin ops instances scope config activate plugin := by
  unfold bindScope
  split
  . next scope =>
    by_cases hscope : isWildcard (some scope) = true
    . rw [if_pos hscope]
      exact bindWildcard_run ops pluginId instances config activate plugin hscope
    . rw [if_neg hscope]
      unfold boundPlugin
      rw [if_neg hscope]
      dsimp only [Option.getD_some]
      by_cases hglobal : plugin.sessionScoped = some false
      . rw [if_pos hglobal]
        split
        . rw [setPluginSessionConfig_global ops pluginId _ _ hglobal]
        . rw [Loader.bind_error (setPluginSessionConfig_global ops pluginId _ _ hglobal)]
      . rw [if_neg hglobal]
        split
        . next hsib =>
          have hactivate : activate = false := by
            rw [Bool.and_eq_true, Bool.not_eq_true'] at hsib
            exact hsib.1
          rw [setPluginSessionConfig_slice ops pluginId _ _ hglobal, hactivate]
          rfl
        . next hsib =>
          rw [Loader.bind_run (setPluginSessionConfig_slice ops pluginId _ _ hglobal),
            Loader.bind_run Loader.get_run, setPluginSessions_run]
          . unfold boundSessions
            rw [if_neg hscope, Option.getD_some, if_neg hsib]
            rfl
          . exact hglobal
  . exact bindWildcard_run ops pluginId instances config activate plugin rfl

theorem applyScopeBinding_eq (ops : ConfigOps κ) (pluginId : String) (scope : Option String)
    (config : κ) (activate : Bool) (s : Provisioned κ) :
    applyScopeBinding ops pluginId scope config activate s =
      { s with plugin := boundPlugin ops s.instances.rows scope config activate s.plugin } := by
  unfold applyScopeBinding
  have hbind := bindScope_run ops pluginId s.instances.rows scope config activate s.plugin
  rw [hbind]

end Binding

/-! ### Agreement of two histories -/

section Agreement

/-- A row without the config of an instance that varies. -/
def view (varies : String → Bool) (inst : PluginInstance κ) : PluginInstance κ :=
  if varies inst.instanceId then { inst with config := none } else inst

variable {varies : String → Bool}

@[simp]
theorem view_instanceId (inst : PluginInstance κ) : (view varies inst).instanceId = inst.instanceId := by
  unfold view
  split <;> rfl

@[simp]
theorem view_sessionScope (inst : PluginInstance κ) :
    (view varies inst).sessionScope = inst.sessionScope := by
  unfold view
  split <;> rfl

@[simp]
theorem view_enabled (inst : PluginInstance κ) : (view varies inst).enabled = inst.enabled := by
  unfold view
  split <;> rfl

theorem view_of_fixed {inst : PluginInstance κ} (h : varies inst.instanceId = false) :
    view varies inst = inst := by
  rw [view, h, if_neg (by simp)]

/-- The same rows but for what varies. -/
def SameRows (varies : String → Bool) (rows rows' : List (PluginInstance κ)) : Prop :=
  rows.map (view varies) = rows'.map (view varies)

/-- A varying instance has `k` as its scope. -/
def VariedScope (varies : String → Bool) (rows : List (PluginInstance κ)) (k : String) : Prop :=
  ∃ inst ∈ rows, varies inst.instanceId ∧ inst.sessionScope = some k

section SameRows

variable {rows rows' : List (PluginInstance κ)}

theorem anyWildcard_view (varies : String → Bool) (rows : List (PluginInstance κ)) :
    anyWildcard (rows.map (view varies)) = anyWildcard rows := by
  simp [anyWildcard, List.any_map, Function.comp_def]

theorem anyBinds_view (varies : String → Bool) (rows : List (PluginInstance κ)) (scope : String) :
    anyBinds (rows.map (view varies)) scope = anyBinds rows scope := by
  simp [anyBinds, List.any_map, Function.comp_def]

theorem SameRows.anyWildcard_eq (h : SameRows varies rows rows') : anyWildcard rows = anyWildcard rows' := by
  rw [← anyWildcard_view varies rows, h, anyWildcard_view]

theorem SameRows.anyBinds_eq (h : SameRows varies rows rows') (scope : String) :
    anyBinds rows scope = anyBinds rows' scope := by
  rw [← anyBinds_view varies rows, h, anyBinds_view]

theorem SameRows.boundSessions_eq (h : SameRows varies rows rows') (scope : Option String)
    (activate : Bool) (current : List String) :
    boundSessions rows scope activate current = boundSessions rows' scope activate current := by
  unfold boundSessions
  rw [h.anyWildcard_eq]
  simp only [h.anyBinds_eq]

theorem SameRows.find? (h : SameRows varies rows rows') (instanceId : String) :
    (rows.find? fun i => i.instanceId == instanceId).map (view varies) =
      (rows'.find? fun i => i.instanceId == instanceId).map (view varies) := by
  have hfind (rows : List (PluginInstance κ)) :
      (rows.find? fun i => i.instanceId == instanceId).map (view varies) =
        (rows.map (view varies)).find? fun i => i.instanceId == instanceId := by
    rw [List.find?_map]
    simp [Function.comp_def]
  rw [hfind, hfind, h]

end SameRows

/-- The same plugin but for slices in `except`. -/
structure SamePlugin (except : String → Prop) (plugin plugin' : Plugin κ) : Prop where
  rest : plugin' = { plugin with sessionConfig := plugin'.sessionConfig }
  global : plugin.sessionScoped = some false → plugin'.sessionConfig = plugin.sessionConfig
  slices : ∀ k, ¬except k → plugin.sessionConfig.lookup k = plugin'.sessionConfig.lookup k

theorem SamePlugin.mono {except except' : String → Prop} {plugin plugin' : Plugin κ}
    (h : SamePlugin except plugin plugin') (himp : ∀ k, except k → except' k) :
    SamePlugin except' plugin plugin' :=
  ⟨h.rest, h.global, fun k hk => h.slices k fun hexcept => hk (himp k hexcept)⟩

/--
A binding keeps the agreement: what it writes to the base or to a slice outside of `except'` is the
same, and no other slice outside of `except'` was different before.
-/
theorem SamePlugin.bind {except except' : String → Prop} {rows rows' : List (PluginInstance κ)}
    {plugin plugin' : Plugin κ} {scope : Option String} {config config' : κ} (ops : ConfigOps κ)
    (activate : Bool) (hrows : SameRows varies rows rows') (h : SamePlugin except plugin plugin')
    (hwildcard : isWildcard scope → config = config' ∧ ∀ k, except k → except' k)
    (hconcrete : isWildcard scope = false → ∀ k, ¬except' k →
      if scope = some k then config = config' else ¬except k) :
    SamePlugin except' (boundPlugin ops rows scope config activate plugin)
      (boundPlugin ops rows' scope config' activate plugin') := by
  rcases h with ⟨hrest, hglobal, hslices⟩
  generalize plugin'.sessionConfig = sessionConfig at hrest hglobal hslices
  subst hrest
  unfold boundPlugin
  by_cases hscope : isWildcard scope = true
  . rw [if_pos hscope, if_pos hscope, ← hrows.anyWildcard_eq, (hwildcard hscope).1]
    have hslices' : ∀ k, ¬except' k → plugin.sessionConfig.lookup k = sessionConfig.lookup k :=
      fun k hk => hslices k fun hexcept => hk ((hwildcard hscope).2 k hexcept)
    dsimp only
    split
    . exact ⟨rfl, hglobal, hslices'⟩
    . split
      . exact ⟨rfl, hglobal, hslices'⟩
      . split
        . exact ⟨rfl, hglobal, hslices'⟩
        . exact ⟨rfl, hglobal, hslices'⟩
  . rw [if_neg hscope, if_neg hscope]
    dsimp only
    by_cases hscoped : plugin.sessionScoped = some false
    . rw [if_pos hscoped, if_pos hscoped]
      exact ⟨rfl, hglobal, fun k _ => by rw [hglobal hscoped]⟩
    . rw [if_neg hscoped, if_neg hscoped]
      rcases scope with _ | scope
      . exact absurd rfl hscope
      . have hset : ∀ k, ¬except' k →
            (setSlice ops plugin.sessionConfig scope (if activate then config else ops.empty)).lookup k =
              (setSlice ops sessionConfig scope (if activate then config' else ops.empty)).lookup k := by
          intro k hk
          have hcases := hconcrete (by simpa using hscope) k hk
          rw [lookup_setSlice, lookup_setSlice]
          by_cases heq : k = scope
          . rw [if_pos (by rw [heq])] at hcases
            rw [if_pos heq, if_pos heq, hcases]
          . rw [if_neg (by simpa using Ne.symm heq)] at hcases
            rw [if_neg heq, if_neg heq, hslices k hcases]
        rw [Option.getD_some, ← hrows.anyBinds_eq, ← hrows.boundSessions_eq]
        split
        . exact ⟨rfl, fun hc => absurd hc hscoped, hset⟩
        . exact ⟨rfl, fun hc => absurd hc hscoped, hset⟩

/-! ### Requests -/

/-- The same requests but for the configs that they give to varying instances. -/
inductive SameRequest (varies : String → Bool) : Op κ → Op κ → Prop where
  | create (allowedSessions : Option (List String)) (dto : CreateInstanceDto κ) (generated : String)
      (config : Option κ) (h : varies dto.instanceId = false → config = dto.config) :
      SameRequest varies (.create allowedSessions dto generated)
        (.create allowedSessions { dto with config := config } generated)
  | patch (allowedSessions : Option (List String)) (instanceId : String) (dto : UpdateInstanceDto κ)
      (config : Option κ) (h : varies instanceId = false → config = dto.config) :
      SameRequest varies (.patch allowedSessions instanceId dto)
        (.patch allowedSessions instanceId { dto with config := config })
  | remove (allowedSessions : Option (List String)) (instanceId : String) :
      SameRequest varies (.remove allowedSessions instanceId) (.remove allowedSessions instanceId)

structure Agree (varies : String → Bool) (s s' : Provisioned κ) : Prop where
  rows : SameRows varies s.instances.rows s'.instances.rows
  plugin : SamePlugin (VariedScope varies s.instances.rows) s.plugin s'.plugin

/-- No varying instance is bound to all sessions. -/
def ConcreteScopes (varies : String → Bool) (s : Provisioned κ) : Prop :=
  ∀ inst ∈ s.instances.rows, varies inst.instanceId → isWildcard inst.sessionScope = false

theorem Agree.refl (s : Provisioned κ) : Agree varies s s := ⟨rfl, rfl, fun _ => rfl, fun _ _ => rfl⟩

variable {s s' : Provisioned κ} {ops : ConfigOps κ} {pluginId : String}

theorem Agree.resolve (h : Agree varies s s') (instanceId : String) :
    (s.instances.resolve instanceId).map (view varies) =
      (s'.instances.resolve instanceId).map (view varies) :=
  h.rows.find? instanceId

theorem assertIngressCapable_eq (h : Agree varies s s') :
    assertIngressCapable pluginId s'.plugin = assertIngressCapable pluginId s.plugin := by
  rw [h.plugin.rest]
  rfl

theorem SamePlugin.bindRow {except : String → Prop} {rows rows' : List (PluginInstance κ)}
    {plugin plugin' : Plugin κ} {inst inst' : PluginInstance κ} (ops : ConfigOps κ)
    (hrows : SameRows varies rows rows') (h : SamePlugin except plugin plugin')
    (hinst : inst ∈ rows) (hview : view varies inst' = view varies inst)
    (hconcrete : varies inst.instanceId → isWildcard inst.sessionScope = false)
    (hexcept : ∀ k, except k → VariedScope varies rows k) :
    SamePlugin (VariedScope varies rows)
      (boundPlugin ops rows inst.sessionScope (inst.config.getD ops.empty) inst.enabled plugin)
      (boundPlugin ops rows' inst'.sessionScope (inst'.config.getD ops.empty) inst'.enabled
        plugin') := by
  have hscope : inst'.sessionScope = inst.sessionScope := by
    simpa using congrArg PluginInstance.sessionScope hview
  have henabled : inst'.enabled = inst.enabled := by
    simpa using congrArg PluginInstance.enabled hview
  rw [hscope, henabled]
  cases hvaries : varies inst.instanceId with
  | true =>
    refine h.bind ops inst.enabled hrows ?_ ?_
    . intro hwild
      rw [hconcrete hvaries] at hwild
      contradiction
    . intro _ k hk
      split
      . next heq => exact absurd ⟨inst, hinst, hvaries, heq⟩ hk
      . exact fun hc => hk (hexcept k hc)
  | false =>
    have hid : inst'.instanceId = inst.instanceId := by
      simpa using congrArg PluginInstance.instanceId hview
    rw [view_of_fixed hvaries, view_of_fixed (hid ▸ hvaries)] at hview
    rw [hview]
    refine h.bind ops inst.enabled hrows (fun _ => ⟨rfl, hexcept⟩) ?_
    intro _ k hk
    split
    . rfl
    . exact fun hc => hk (hexcept k hc)

theorem SamePlugin.teardown {except : String → Prop} {rows rows' : List (PluginInstance κ)}
    {plugin plugin' : Plugin κ} (ops : ConfigOps κ) (scope : Option String)
    (hrows : SameRows varies rows rows') (h : SamePlugin except plugin plugin') :
    SamePlugin (fun k => except k ∧ (isWildcard scope = false → scope ≠ some k))
      (boundPlugin ops rows scope ops.empty false plugin)
      (boundPlugin ops rows' scope ops.empty false plugin') := by
  refine h.bind ops false hrows ?_ ?_
  . intro hwild
    refine ⟨rfl, fun k hk => ⟨hk, fun hc => ?_⟩⟩
    rw [hwild] at hc
    contradiction
  . intro _ k hk
    split
    . rfl
    . next hne => exact fun hc => hk ⟨hc, fun _ => hne⟩

section Step

variable (hag : Agree varies s s')
include hag

theorem agree_create {inst inst' : PluginInstance κ} (hview : view varies inst' = view varies inst)
    (hnew : ¬(s.instances.resolve inst.instanceId).isSome = true)
    (hnew' : ¬(s'.instances.resolve inst'.instanceId).isSome = true)
    (hconcrete : varies inst.instanceId → isWildcard inst.sessionScope = false) :
    Agree varies
      (applyScopeBinding ops pluginId inst.sessionScope (inst.config.getD ops.empty) inst.enabled
        { s with instances := s.instances.insert inst hnew })
      (applyScopeBinding ops pluginId inst'.sessionScope (inst'.config.getD ops.empty) inst'.enabled
        { s' with instances := s'.instances.insert inst' hnew' }) := by
  have hrows : SameRows varies (s.instances.rows ++ [inst]) (s'.instances.rows ++ [inst']) := by
    unfold SameRows
    rw [List.map_append, List.map_append, hag.rows, List.map_singleton, List.map_singleton, hview]
  rw [applyScopeBinding_eq, applyScopeBinding_eq]
  refine ⟨hrows, hag.plugin.bindRow ops hrows (List.mem_append_right _ List.mem_cons_self) hview
    hconcrete ?_⟩
  rintro k ⟨i, hi, hk⟩
  exact ⟨i, List.mem_append_left _ hi, hk⟩

theorem sameRows_save {inst inst' : PluginInstance κ} (hview : view varies inst' = view varies inst) :
    SameRows varies (s.instances.save inst).rows (s'.instances.save inst').rows := by
  have hid : inst'.instanceId = inst.instanceId := by
    simpa using congrArg PluginInstance.instanceId hview
  have hsave (t : InstanceTable κ) (i : PluginInstance κ) : (t.save i).rows.map (view varies) =
      (t.rows.map (view varies)).map fun j =>
        if j.instanceId == i.instanceId then view varies i else j := by
    simp only [InstanceTable.save, List.map_map]
    apply List.map_congr_left
    intro j _
    simp only [Function.comp_apply, view_instanceId]
    split <;> rfl
  unfold SameRows
  rw [hsave, hsave, hag.rows, hview, hid]

theorem agree_patch {inst updated updated' : PluginInstance κ} (hinst : inst ∈ s.instances.rows)
    (hid : updated.instanceId = inst.instanceId)
    (hview : view varies updated' = view varies updated)
    (hconcrete : varies inst.instanceId → isWildcard inst.sessionScope = false)
    (hconcrete' : varies inst.instanceId → isWildcard updated.sessionScope = false) :
    Agree varies
      (rebindScope ops pluginId inst.sessionScope updated ⟨s.instances.save updated, s.plugin⟩)
      (rebindScope ops pluginId inst.sessionScope updated' ⟨s'.instances.save updated', s'.plugin⟩) := by
  have hrows := sameRows_save hag hview
  have hmem : updated ∈ (s.instances.save updated).rows := (mem_save hinst hid).mpr (.inr rfl)
  have hscope : updated'.sessionScope = updated.sessionScope := by
    simpa using congrArg PluginInstance.sessionScope hview
  -- what varied before varies now, or it was the scope of the patched instance
  have hbefore : ∀ k, VariedScope varies s.instances.rows k →
      VariedScope varies (s.instances.save updated).rows k ∨
        (varies inst.instanceId ∧ inst.sessionScope = some k) := by
    rintro k ⟨i, hi, hvaries, hk⟩
    rcases mem_others_or_eq hinst hi with hi | rfl
    . exact .inl ⟨i, (mem_save hinst hid).mpr (.inl hi), hvaries, hk⟩
    . exact .inr ⟨hvaries, hk⟩
  unfold rebindScope
  by_cases hmoved : (inst.sessionScope != updated.sessionScope) = true
  . have hmoved' : (inst.sessionScope != updated'.sessionScope) = true := hscope ▸ hmoved
    simp only [if_pos hmoved, if_pos hmoved', applyScopeBinding_eq]
    have hdown := hag.plugin.teardown ops inst.sessionScope hrows
    refine ⟨hrows, hdown.bindRow ops hrows hmem hview (hid ▸ hconcrete') ?_⟩
    rintro k ⟨hk, hleft⟩
    rcases hbefore k hk with hk | ⟨hvaries, hk⟩
    . exact hk
    . exact absurd hk (hleft (hconcrete hvaries))
  . have hmoved' : ¬(inst.sessionScope != updated'.sessionScope) = true := hscope ▸ hmoved
    simp only [if_neg hmoved, if_neg hmoved', applyScopeBinding_eq]
    refine ⟨hrows, hag.plugin.bindRow ops hrows hmem hview (hid ▸ hconcrete') ?_⟩
    intro k hk
    rcases hbefore k hk with hk | ⟨hvaries, hk⟩
    . exact hk
    . have hsame : inst.sessionScope = updated.sessionScope := by simpa using hmoved
      exact ⟨updated, hmem, hid ▸ hvaries, hsame ▸ hk⟩

theorem agree_remove {inst : PluginInstance κ} (hinst : inst ∈ s.instances.rows)
    (hconcrete : varies inst.instanceId → isWildcard inst.sessionScope = false) :
    Agree varies
      (applyScopeBinding ops pluginId inst.sessionScope ops.empty false
        ⟨s.instances.delete inst.instanceId, s.plugin⟩)
      (applyScopeBinding ops pluginId inst.sessionScope ops.empty false
        ⟨s'.instances.delete inst.instanceId, s'.plugin⟩) := by
  have hrows : SameRows varies (s.instances.delete inst.instanceId).rows
      (s'.instances.delete inst.instanceId).rows := by
    have hdelete (t : InstanceTable κ) : (t.delete inst.instanceId).rows.map (view varies) =
        (t.rows.map (view varies)).filter fun i => i.instanceId != inst.instanceId := by
      simp [InstanceTable.delete, List.filter_map, Function.comp_def]
    unfold SameRows
    rw [hdelete, hdelete, hag.rows]
  rw [applyScopeBinding_eq, applyScopeBinding_eq]
  refine ⟨hrows, (hag.plugin.teardown ops inst.sessionScope hrows).mono ?_⟩
  rintro k ⟨⟨i, hi, hvaries, hk⟩, hleft⟩
  rcases mem_others_or_eq hinst hi with hi | rfl
  . exact ⟨i, by simpa [InstanceTable.delete, others] using hi, hvaries, hk⟩
  . exact absurd hk (hleft (hconcrete hvaries))

theorem resolveVisible_agree (allowedSessions : Option (List String)) (instanceId : String) :
    (∃ inst inst', resolveVisible s.instances allowedSessions instanceId = .ok inst ∧
      resolveVisible s'.instances allowedSessions instanceId = .ok inst' ∧
      view varies inst' = view varies inst) ∨
    (∀ inst, resolveVisible s.instances allowedSessions instanceId ≠ .ok inst) ∧
      ∀ inst, resolveVisible s'.instances allowedSessions instanceId ≠ .ok inst := by
  have hres := hag.resolve instanceId
  unfold resolveVisible
  cases hinst : s.instances.resolve instanceId with
  | none =>
    rw [hinst, Option.map_none, eq_comm, Option.map_eq_none_iff] at hres
    rw [hres]
    right
    constructor <;> exact fun _ h => nomatch h
  | some inst =>
    rw [hinst, Option.map_some, eq_comm, Option.map_eq_some_iff] at hres
    rcases hres with ⟨inst', hinst', hview⟩
    have hscope : inst'.sessionScope = inst.sessionScope := by
      simpa using congrArg PluginInstance.sessionScope hview
    rw [hinst']
    dsimp only
    rw [hscope]
    split
    . exact .inl ⟨inst, inst', rfl, rfl, hview⟩
    . right
      constructor <;> exact fun _ h => nomatch h

omit hag in
theorem step_patch {allowedSessions : Option (List String)} {instanceId : String}
    {dto : UpdateInstanceDto κ} {inst : PluginInstance κ}
    (hinst : resolveVisible s.instances allowedSessions instanceId = .ok inst)
    (hallowed : PatchAllowed allowedSessions dto) :
    step ops pluginId s (.patch allowedSessions instanceId dto) =
      rebindScope ops pluginId inst.sessionScope (inst.patched ops dto)
        ⟨s.instances.save (inst.patched ops dto), s.plugin⟩ := by
  simp only [step, handle, patch_eq_ok.mpr ⟨inst, hinst, hallowed, rfl⟩]

omit hag in
theorem step_patch_refused {allowedSessions : Option (List String)} {instanceId : String}
    {dto : UpdateInstanceDto κ}
    (h : ∀ inst, resolveVisible s.instances allowedSessions instanceId = .ok inst →
      ¬PatchAllowed allowedSessions dto) :
    step ops pluginId s (.patch allowedSessions instanceId dto) = s := by
  rcases step_cases ops pluginId s (.patch allowedSessions instanceId dto) with ⟨_, hsame⟩ | hok
  . exact hsame
  . rcases patch_eq_ok.mp hok with ⟨inst, hinst, hallowed, _⟩
    exact absurd hallowed (h inst hinst)

omit hag in
theorem step_remove {allowedSessions : Option (List String)} {instanceId : String}
    {inst : PluginInstance κ}
    (hinst : resolveVisible s.instances allowedSessions instanceId = .ok inst) :
    step ops pluginId s (.remove allowedSessions instanceId) =
      applyScopeBinding ops pluginId inst.sessionScope ops.empty false
        ⟨s.instances.delete instanceId, s.plugin⟩ := by
  simp only [step, handle, remove_eq_ok.mpr ⟨inst, hinst, rfl⟩]

omit hag in
theorem step_remove_refused {allowedSessions : Option (List String)} {instanceId : String}
    (h : ∀ inst, resolveVisible s.instances allowedSessions instanceId ≠ .ok inst) :
    step ops pluginId s (.remove allowedSessions instanceId) = s := by
  rcases step_cases ops pluginId s (.remove allowedSessions instanceId) with ⟨_, hsame⟩ | hok
  . exact hsame
  . rcases remove_eq_ok.mp hok with ⟨inst, hinst, _⟩
    exact absurd hinst (h inst)

omit hag in
theorem view_patched {inst inst' : PluginInstance κ} {dto : UpdateInstanceDto κ} {config : Option κ}
    (hview : view varies inst' = view varies inst)
    (hconfig : varies inst.instanceId = false → config = dto.config) :
    view varies (inst'.patched ops { dto with config := config }) =
      view varies (inst.patched ops dto) := by
  have hid : inst'.instanceId = inst.instanceId := by
    simpa using congrArg PluginInstance.instanceId hview
  cases hvaries : varies inst.instanceId with
  | false =>
    rw [view_of_fixed hvaries, view_of_fixed (hid ▸ hvaries)] at hview
    rw [hview, hconfig hvaries]
  | true =>
    unfold view at hview ⊢
    simp only [PluginInstance.patched, hid, hvaries, if_true, PluginInstance.mk.injEq] at hview ⊢
    rcases hview with ⟨_, hscope, hsecret, htoken, _, henabled⟩
    rw [hscope, hsecret, htoken, henabled]
    simp

theorem step_agree {op op' : Op κ} (hop : SameRequest varies op op') (hconcrete : ConcreteScopes varies s)
    (hconcrete' : ConcreteScopes varies (step ops pluginId s op)) :
    Agree varies (step ops pluginId s op) (step ops pluginId s' op') := by
  cases hop with
  | create allowedSessions dto generated config hconfig =>
    revert hconcrete'
    have hres := congrArg Option.isSome (hag.resolve dto.instanceId)
    rw [Option.isSome_map, Option.isSome_map] at hres
    simp only [step, handle, create, assertIngressCapable_eq hag]
    cases assertIngressCapable pluginId s.plugin with
    | error e => exact fun _ => hag
    | ok =>
      cases assertScopeWritable allowedSessions dto.sessionScope with
      | error e => exact fun _ => hag
      | ok =>
        simp only [bind, Except.bind]
        by_cases hnew : (s.instances.resolve dto.instanceId).isSome = true
        . rw [dif_pos hnew, dif_pos (hres ▸ hnew)]
          exact fun _ => hag
        . rw [dif_neg hnew, dif_neg (hres ▸ hnew)]
          cases normalizeSecret generated dto.secret with
          | error e => exact fun _ => hag
          | ok secret =>
            intro hconcrete'
            have hview : view varies ({ dto with config := config }.toRow secret) =
                view varies (dto.toRow secret) := by
              unfold view CreateInstanceDto.toRow
              cases hvaries : varies dto.instanceId with
              | true => rfl
              | false => rw [hconfig hvaries]
            refine agree_create hag hview hnew (hres ▸ hnew) (hconcrete' (dto.toRow secret) ?_)
            dsimp only [pure, Except.pure]
            rw [applyScopeBinding_eq]
            exact List.mem_append_right _ List.mem_cons_self
  | patch allowedSessions instanceId dto config hconfig =>
    have hdto : PatchAllowed allowedSessions { dto with config := config } ↔
        PatchAllowed allowedSessions dto := Iff.rfl
    rcases resolveVisible_agree hag allowedSessions instanceId with
      ⟨inst, inst', hinst, hinst', hview⟩ | ⟨hnone, hnone'⟩
    . by_cases hallowed : PatchAllowed allowedSessions dto
      . rcases resolveVisible_ok hinst with ⟨hmem, rfl⟩
        have hscope : inst'.sessionScope = inst.sessionScope := by
          simpa using congrArg PluginInstance.sessionScope hview
        rw [step_patch hinst hallowed] at hconcrete' ⊢
        rw [step_patch hinst' (hdto.mpr hallowed), hscope]
        refine agree_patch hag hmem rfl (view_patched hview hconfig) (hconcrete inst hmem)
          (hconcrete' (inst.patched ops dto) ?_)
        have hsaved : inst.patched ops dto ∈ (s.instances.save (inst.patched ops dto)).rows := by
          rw [mem_save hmem (patched_instanceId ops dto inst)]
          exact .inr rfl
        unfold rebindScope
        split <;> simp only [applyScopeBinding_eq] <;> exact hsaved
      . rw [step_patch_refused fun _ _ => hallowed,
          step_patch_refused fun _ _ hc => hallowed (hdto.mp hc)]
        exact hag
    . rw [step_patch_refused fun inst h => absurd h (hnone inst),
        step_patch_refused fun inst h => absurd h (hnone' inst)]
      exact hag
  | remove allowedSessions instanceId =>
    rcases resolveVisible_agree hag allowedSessions instanceId with
      ⟨inst, inst', hinst, hinst', hview⟩ | ⟨hnone, hnone'⟩
    . rcases resolveVisible_ok hinst with ⟨hmem, rfl⟩
      have hscope : inst'.sessionScope = inst.sessionScope := by
        simpa using congrArg PluginInstance.sessionScope hview
      rw [step_remove hinst, step_remove hinst', hscope]
      exact agree_remove hag hmem (hconcrete inst hmem)
    . rw [step_remove_refused hnone, step_remove_refused hnone']
      exact hag

end Step
end Agreement

/-! ### What a handler gets to see -/

section Isolation

variable {varies : String → Bool} {s s' : Provisioned κ} {pluginId : String}

/--
Two histories that differ in the configs of varying instances only; these always have concrete scopes
other than that of the instance `own`.
-/
structure SeparateHistories (ops : ConfigOps κ) (pluginId : String) (varies : String → Bool)
    (own : String) (s : Provisioned κ) (requests requests' : List (Op κ)) : Prop where
  same : List.Forall₂ (SameRequest varies) requests requests'
  fixed : varies own = false
  concrete : ∀ done, done <+: requests → ConcreteScopes varies (run ops pluginId s done)
  apart : ∀ done, done <+: requests → ∀ inst ∈ (run ops pluginId s done).instances.rows,
    inst.instanceId = own → ∀ scope ∈ inst.sessionScope,
      ¬VariedScope varies (run ops pluginId s done).instances.rows scope

theorem run_agree {ops : ConfigOps κ} {requests requests' : List (Op κ)} (hag : Agree varies s s')
    (hsame : List.Forall₂ (SameRequest varies) requests requests')
    (hconcrete : ∀ done, done <+: requests → ConcreteScopes varies (run ops pluginId s done)) :
    Agree varies (run ops pluginId s requests) (run ops pluginId s' requests') := by
  induction hsame generalizing s s' with
  | nil => exact hag
  | cons hop _ ih =>
    refine ih (step_agree hag hop (hconcrete [] (by simp)) (hconcrete [_] (by simp))) ?_
    intro done hdone
    exact hconcrete (_ :: done) (by simpa using hdone)

theorem SameRows.atMostOne {rows rows' : List (PluginInstance κ)} (h : SameRows varies rows rows')
    (scope : Option String) :
    scopeHasAtMostOneInstance (some rows) scope = scopeHasAtMostOneInstance (some rows') scope := by
  have hview (rows : List (PluginInstance κ)) (scope : String) :
      (rows.filter fun row => row.enabled && row.sessionScope == some scope).length =
        ((rows.map (view varies)).filter fun row =>
          row.enabled && row.sessionScope == some scope).length := by
    simp [List.filter_map, Function.comp_def]
  unfold scopeHasAtMostOneInstance
  rcases scope with _ | scope
  . rfl
  . by_cases hempty : scope = ""
    . subst hempty
      rfl
    . have hlength : (rows.filter fun row => row.enabled && row.sessionScope == some scope).length =
          (rows'.filter fun row => row.enabled && row.sessionScope == some scope).length := by
        rw [hview rows, h, ← hview rows']
      simp [hlength]

theorem Agree.resolve_own {own : String} (hag : Agree varies s s') (hown : varies own = false) :
    s'.instances.resolve own = s.instances.resolve own := by
  have hfixed (t : InstanceTable κ) : (t.resolve own).map (view varies) = t.resolve own := by
    cases hinst : t.resolve own with
    | none => rfl
    | some inst =>
      have hid : inst.instanceId = own := by simpa using List.find?_some hinst
      rw [Option.map_some, view_of_fixed (hid ▸ hown)]
  rw [← hfixed s'.instances, ← hag.resolve own, hfixed]

theorem dispatchConfig_agree (ops : ResolveOps κ) (listed : Bool) {own : String}
    (hag : Agree varies s s') (hown : varies own = false)
    (hapart : ∀ inst ∈ s.instances.rows, inst.instanceId = own → ∀ scope ∈ inst.sessionScope,
      ¬VariedScope varies s.instances.rows scope)
    (hproto : ¬VariedScope varies s.instances.rows protoKey) :
    dispatchConfig ops listed s own = dispatchConfig ops listed s' own := by
  have hconfig : s'.plugin.config = s.plugin.config := by rw [hag.plugin.rest]
  have hscoped : s'.plugin.sessionScoped = s.plugin.sessionScoped := by rw [hag.plugin.rest]
  have hcount (scope : Option String) :
      scopeHasAtMostOneInstance (if listed then some s.instances.rows else none) scope =
        scopeHasAtMostOneInstance (if listed then some s'.instances.rows else none) scope := by
    cases listed with
    | false => rfl
    | true => exact hag.rows.atMostOne scope
  unfold dispatchConfig
  rw [hag.resolve_own hown, hconfig, hscoped]
  simp only [hcount]
  have hslice : resolvePluginConfig ops s.plugin.config s.plugin.sessionConfig
        ((s.instances.resolve own).bind (·.sessionScope)) (s.plugin.sessionScoped ≠ some false) =
      resolvePluginConfig ops s.plugin.config s'.plugin.sessionConfig
        ((s.instances.resolve own).bind (·.sessionScope)) (s.plugin.sessionScoped ≠ some false) := by
    unfold resolvePluginConfig
    cases hscope : (s.instances.resolve own).bind (·.sessionScope) with
    | none => rfl
    | some scope =>
      rw [Option.bind_eq_some_iff] at hscope
      rcases hscope with ⟨inst, hinst, hscope⟩
      have hid : inst.instanceId = own := by simpa using List.find?_some hinst
      have hfree := hapart inst (List.mem_of_find?_eq_some hinst) hid scope hscope
      have hoverride : overrideFor ops s.plugin.sessionConfig scope =
          overrideFor ops s'.plugin.sessionConfig scope := by
        unfold overrideFor
        rw [hag.plugin.slices scope hfree, hag.plugin.slices protoKey hproto]
      dsimp only
      rw [hoverride]
  rw [hslice]

/--
A handler of `own` is given the same config in both histories, unless an instance that varies is bound
to the prototype of the slices.
-/
theorem dispatchConfig_isolated (ops : ResolveOps κ) (pluginId : String) (listed : Bool)
    (varies : String → Bool) (own : String) (s : Provisioned κ) (requests requests' : List (Op κ))
    (h : SeparateHistories ops.toConfigOps pluginId varies own s requests requests')
    (hproto : ¬VariedScope varies (run ops.toConfigOps pluginId s requests).instances.rows protoKey) :
    dispatchConfig ops listed (run ops.toConfigOps pluginId s requests) own =
      dispatchConfig ops listed (run ops.toConfigOps pluginId s requests') own := by
  have hag := run_agree (Agree.refl s) h.same h.concrete
  exact dispatchConfig_agree ops listed hag h.fixed (h.apart requests (List.prefix_refl _)) hproto

end Isolation

section Examples

/-- An ingress-capable plugin without a base config and without instances. -/
def ingressPlugin : Provisioned Fields where
  instances := .empty
  plugin := {
    sessionScoped := none
    ingressRoutes := ["inbound"]
    permissions := ["webhook:ingress"]
    config := .nil
    activeSessions := none
    sessionConfig := [] }

def provision (instanceId scope : String) (config : Option Fields) : Op Fields :=
  .create none ⟨instanceId, some scope, none, none, config⟩ "0123456789abcdef"

def tokenFor (session token : String) : Fields :=
  .ofList [(session, .object (.ofList [("token", .string token)]))]

/-- An instance `a` without a config of its own, and then an instance `b` of another scope. -/
def twoTenants (scope token : String) : List (Op Fields) :=
  [provision "a" "s1" none, provision "b" scope (some (tokenFor "s1" token))]

def isB (instanceId : String) : Bool := instanceId = "b"

def ApartRows (rows : List (PluginInstance Fields)) : Bool :=
  rows.all fun inst => !isB inst.instanceId ||
    (!isWildcard inst.sessionScope && rows.all fun own => own.instanceId ≠ "a" || own.sessionScope ≠ inst.sessionScope)

theorem separate_of_apartRows {requests requests' : List (Op Fields)}
    (hsame : List.Forall₂ (SameRequest isB) requests requests')
    (hrows : requests.inits.all fun done =>
      ApartRows (run objectOps.toConfigOps "p" ingressPlugin done).instances.rows) :
    SeparateHistories objectOps.toConfigOps "p" isB "a" ingressPlugin requests requests' := by
  have hdone : ∀ done, done <+: requests →
      ApartRows (run objectOps.toConfigOps "p" ingressPlugin done).instances.rows := by
    intro done hprefix
    exact List.all_eq_true.mp hrows done ((List.mem_inits _ _).mpr hprefix)
  refine ⟨hsame, by decide, ?_, ?_⟩
  . intro done hprefix inst hinst hb
    have hrow := List.all_eq_true.mp (hdone done hprefix) inst hinst
    simp only [hb, Bool.not_true, Bool.false_or, Bool.and_eq_true, Bool.not_eq_true'] at hrow
    exact hrow.1
  . rintro done hprefix own hown ha scope hscope ⟨inst, hinst, hb, hinstScope⟩
    have hrow := List.all_eq_true.mp (hdone done hprefix) inst hinst
    simp only [hb, Bool.not_true, Bool.false_or, Bool.and_eq_true] at hrow
    have hne := List.all_eq_true.mp hrow.2 own hown
    simp [ha, hinstScope, Option.mem_def.mp hscope] at hne

theorem sameRequest_twoTenants (scope token token' : String) :
    List.Forall₂ (SameRequest isB) (twoTenants scope token) (twoTenants scope token') := by
  refine .cons (.create none _ _ _ fun _ => rfl) (.cons (.create none _ _ _ ?_) .nil)
  intro h
  change isB "b" = false at h
  exact absurd h (by decide)

theorem dispatchConfig_isolated_twoTenants :
    dispatchConfig objectOps true (run objectOps.toConfigOps "p" ingressPlugin (twoTenants "s2" "one")) "a" =
      dispatchConfig objectOps true
        (run objectOps.toConfigOps "p" ingressPlugin (twoTenants "s2" "two")) "a" := by
  apply dispatchConfig_isolated objectOps "p" true isB "a" ingressPlugin
  . exact separate_of_apartRows (sameRequest_twoTenants "s2" "one" "two") (by decide +kernel)
  . rintro ⟨inst, hinst, _, hscope⟩
    revert inst
    decide +kernel

/-- The slice of the scope `__proto__` is what every scope without a slice falls through to. -/
theorem dispatchConfig_leaks :
    SeparateHistories objectOps.toConfigOps "p" isB "a" ingressPlugin (twoTenants protoKey "one")
        (twoTenants protoKey "two") ∧
      dispatchConfig objectOps true
          (run objectOps.toConfigOps "p" ingressPlugin (twoTenants protoKey "one")) "a" =
        .ofList [("token", .string "one")] ∧
      dispatchConfig objectOps true
          (run objectOps.toConfigOps "p" ingressPlugin (twoTenants protoKey "two")) "a" =
        .ofList [("token", .string "two")] := by
  refine ⟨separate_of_apartRows (sameRequest_twoTenants protoKey "one" "two") ?_, ?_, ?_⟩ <;>
    decide +kernel

end Examples
end OpenWA.Integration
