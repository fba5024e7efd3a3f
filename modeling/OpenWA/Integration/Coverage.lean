import OpenWA.Integration.Provisioning

/-!
This module contains the coverage of the enabled instances of a plugin by its active sessions, and
when the provisioning operations keep it.
-/

namespace OpenWA.Integration

variable {κ : Type}

section Loader

variable {plugin plugin' : Plugin κ} {α β : Type}

theorem Loader.bind_run {x : Loader κ α} {f : α → Loader κ β} {a : α}
    (h : x.run plugin = (.ok a, plugin')) : (x >>= f).run plugin = (f a).run plugin' := by
  simp only [ExceptT.run] at h
  simp only [ExceptT.run, bind, ExceptT.bind, ExceptT.mk, StateT.bind, h]
  rfl

theorem Loader.get_run : (get : Loader κ (Plugin κ)).run plugin = (.ok plugin, plugin) := rfl

theorem updatePluginConfig_run (ops : ConfigOps κ) (config : κ) :
    (updatePluginConfig ops config).run plugin
      = (.ok (), { plugin with config := ops.merge plugin.config config }) := rfl

theorem setPluginSessions_run (pluginId : String) (sessions : List String)
    (h : plugin.sessionScoped ≠ some false) :
    (setPluginSessions pluginId sessions).run plugin
      = (.ok (), { plugin with activeSessions := some sessions }) := by
  unfold setPluginSessions
  rw [Loader.bind_run Loader.get_run, if_neg h]
  rfl

theorem setPluginSessionConfig_run (ops : ConfigOps κ) (pluginId sessionId : String) (config : κ)
    (h : plugin.sessionScoped ≠ some false) :
    ∃ sessionConfig, (setPluginSessionConfig ops pluginId sessionId config).run plugin
      = (.ok (), { plugin with sessionConfig := sessionConfig }) := by
  unfold setPluginSessionConfig
  rw [Loader.bind_run Loader.get_run, if_neg h]
  cases hempty : ops.isEmpty config with
  | true => exact ⟨_, rfl⟩
  | false => exact ⟨_, rfl⟩

end Loader

section Binding

/-- The active sessions `bindScope` leaves. -/
def boundSessions (instances : List (PluginInstance κ)) (scope : Option String) (activate : Bool)
    (current : List String) : List String :=
  if isWildcard scope then
    if activate then ["*"]
    else if anyWildcard instances then current
    else current.filter (· != "*")
  else
    let scope := scope.getD ""
    if !activate && anyBinds instances scope then
      current
    else
      let set := (current.filter (· != "*")).eraseDups
      let set := if activate then addSession scope set else set.filter (· != scope)
      if "*" ∈ current && anyWildcard instances then addSession "*" set else set

/-- The loader call succeeded and left `sessions`. -/
def Leaves (x : Loader κ Unit) (plugin : Plugin κ) (sessions : List String) : Prop :=
  ∃ plugin', x.run plugin = (.ok (), plugin') ∧ plugin'.sessions = sessions ∧
    plugin'.sessionScoped = plugin.sessionScoped

theorem bindWildcard_leaves (ops : ConfigOps κ) (pluginId : String)
    (instances : List (PluginInstance κ)) {scope : Option String} (config : κ) (activate : Bool)
    (plugin : Plugin κ) (h : plugin.sessionScoped ≠ some false) (hscope : isWildcard scope = true) :
    Leaves (bindScope.bindWildcard ops pluginId instances config activate) plugin
      (boundSessions instances scope activate plugin.sessions) := by
  unfold bindScope.bindWildcard boundSessions Leaves
  rw [if_pos hscope]
  cases activate with
  | true =>
    simp only [↓reduceIte]
    rw [Loader.bind_run (updatePluginConfig_run ops config), setPluginSessions_run]
    . exact ⟨_, rfl, rfl, rfl⟩
    . exact h
  | false =>
    cases anyWildcard instances with
    | true => exact ⟨_, rfl, rfl, rfl⟩
    | false =>
      simp only [Bool.false_eq_true, ↓reduceIte, Bool.not_false]
      rw [Loader.bind_run Loader.get_run, setPluginSessions_run pluginId _ h]
      exact ⟨_, rfl, rfl, rfl⟩

theorem bindScope_leaves (ops : ConfigOps κ) (pluginId : String)
    (instances : List (PluginInstance κ)) (scope : Option String) (config : κ) (activate : Bool)
    (plugin : Plugin κ) (h : plugin.sessionScoped ≠ some false) :
    Leaves (bindScope ops pluginId instances scope config activate) plugin
      (boundSessions instances scope activate plugin.sessions) := by
  unfold bindScope
  split
  . next scope =>
    by_cases hscope : isWildcard (some scope) = true
    . rw [if_pos hscope]
      exact bindWildcard_leaves ops pluginId instances config activate plugin h hscope
    . rw [if_neg hscope]
      unfold boundSessions Leaves
      rw [if_neg hscope]
      dsimp only [Option.getD_some]
      by_cases hsib : (!activate && anyBinds instances scope) = true
      . rw [if_pos hsib, if_pos hsib]
        rcases setPluginSessionConfig_run ops pluginId scope ops.empty h with ⟨sessionConfig, hrun⟩
        exact ⟨_, hrun, rfl, rfl⟩
      . rw [if_neg hsib, if_neg hsib]
        rcases setPluginSessionConfig_run ops pluginId scope (if activate then config else ops.empty)
          h with ⟨sessionConfig, hrun⟩
        rw [Loader.bind_run hrun, Loader.bind_run Loader.get_run, setPluginSessions_run]
        . exact ⟨_, rfl, rfl, rfl⟩
        . exact h
  . exact bindWildcard_leaves ops pluginId instances config activate plugin h rfl

theorem applyScopeBinding_spec (ops : ConfigOps κ) (pluginId : String) (scope : Option String)
    (config : κ) (activate : Bool) (s : Provisioned κ) (h : s.plugin.sessionScoped ≠ some false) :
    (applyScopeBinding ops pluginId scope config activate s).instances = s.instances ∧
    (applyScopeBinding ops pluginId scope config activate s).plugin.sessions
      = boundSessions s.instances.rows scope activate s.plugin.sessions ∧
    (applyScopeBinding ops pluginId scope config activate s).plugin.sessionScoped
      = s.plugin.sessionScoped := by
  rcases bindScope_leaves ops pluginId s.instances.rows scope config activate s.plugin h with
    ⟨plugin', hrun, hsessions, hscoped⟩
  unfold applyScopeBinding
  rw [hrun]
  exact ⟨rfl, hsessions, hscoped⟩

end Binding

section Sessions

theorem mem_addSession {scope x : String} {sessions : List String} :
    x ∈ addSession scope sessions ↔ x = scope ∨ x ∈ sessions := by
  unfold addSession
  split
  . next h => exact ⟨.inr, fun hx => hx.elim (fun heq => heq ▸ h) id⟩
  . simp [or_comm]

theorem isWildcard_star : isWildcard (some "*") = true := rfl

theorem mem_boundSessions_activate {instances : List (PluginInstance κ)} {scope x : String}
    {current : List String} (h : isWildcard (some scope) = false) :
    x ∈ boundSessions instances (some scope) true current
      ↔ x = scope ∨ (x ∈ current ∧ x ≠ "*") ∨
        (x = "*" ∧ "*" ∈ current ∧ anyWildcard instances = true) := by
  unfold boundSessions
  by_cases hstar : "*" ∈ current ∧ anyWildcard instances = true
  . simp [h, hstar, mem_addSession]
    grind
  . simp [h, hstar, mem_addSession]

theorem mem_boundSessions_teardown {instances : List (PluginInstance κ)} {scope x : String}
    {current : List String} (h : isWildcard (some scope) = false) :
    x ∈ boundSessions instances (some scope) false current
      ↔ if anyBinds instances scope = true then x ∈ current
        else (x ∈ current ∧ x ≠ "*" ∧ x ≠ scope) ∨
          (x = "*" ∧ "*" ∈ current ∧ anyWildcard instances = true) := by
  unfold boundSessions
  cases hsib : anyBinds instances scope with
  | true => simp [h, hsib]
  | false =>
    by_cases hstar : "*" ∈ current ∧ anyWildcard instances = true
    . simp [h, hsib, hstar, mem_addSession]
      tauto
    . simp [h, hsib, hstar]
      grind

end Sessions

section Bound

/-- The sessions an enabled row depends on are active. -/
def CoveredBy (sessions : List String) (inst : PluginInstance κ) : Prop :=
  if isWildcard inst.sessionScope then
    "*" ∈ sessions
  else
    inst.sessionScope.getD "" ∈ sessions ∨ "*" ∈ sessions

instance (sessions : List String) (inst : PluginInstance κ) : Decidable (CoveredBy sessions inst) :=
  inferInstanceAs (Decidable (if isWildcard inst.sessionScope then _ else _ ∨ _))

/-- Every enabled instance of the plugin is covered by the runtime. -/
def Covered (s : Provisioned κ) : Prop :=
  ∀ inst ∈ s.instances.rows, inst.enabled = true → CoveredBy s.plugin.sessions inst

instance (s : Provisioned κ) : Decidable (Covered s) :=
  inferInstanceAs (Decidable (∀ inst ∈ s.instances.rows, _))

/-- An enabled row among `instances` binds exactly the session `scope`. -/
def Needs (instances : List (PluginInstance κ)) (scope : String) : Prop :=
  ∃ i ∈ instances, i.enabled = true ∧ i.sessionScope = some scope ∧ isWildcard (some scope) = false

/-- The invariant of provisioning: what the active sessions hold for the enabled rows. -/
structure Bound (wildcard : Prop) (needs : String → Prop) (sessions : List String) : Prop where
  star : wildcard → "*" ∈ sessions
  concrete : ¬wildcard → ∀ scope, needs scope → scope ∈ sessions

/-- The sessions are bound for all enabled rows. -/
def BoundRows (instances : List (PluginInstance κ)) (sessions : List String) : Prop :=
  Bound (anyWildcard instances = true) (Needs instances) sessions

theorem anyWildcard_iff {instances : List (PluginInstance κ)} :
    anyWildcard instances = true
      ↔ ∃ i ∈ instances, i.enabled = true ∧ isWildcard i.sessionScope = true := by
  simp [anyWildcard]

theorem anyBinds_of_needs {instances : List (PluginInstance κ)} {scope : String}
    (h : Needs instances scope) : anyBinds instances scope = true := by
  rcases h with ⟨i, hmem, henabled, hscope, _⟩
  simp only [anyBinds, List.any_eq_true, Bool.and_eq_true, beq_iff_eq]
  exact ⟨i, hmem, henabled, hscope⟩

theorem Needs.ne_star {instances : List (PluginInstance κ)} {scope : String}
    (h : Needs instances scope) : scope ≠ "*" := by
  rcases h with ⟨_, _, _, _, hconcrete⟩
  rintro rfl
  simp [isWildcard_star] at hconcrete

theorem BoundRows.covered {s : Provisioned κ}
    (h : BoundRows s.instances.rows s.plugin.sessions) : Covered s := by
  intro inst hmem henabled
  by_cases hany : anyWildcard s.instances.rows = true
  . have hstar := h.star hany
    unfold CoveredBy
    split
    . exact hstar
    . exact .inr hstar
  . have hconcrete : isWildcard inst.sessionScope = false := by
      by_contra hwild
      apply hany
      rw [anyWildcard_iff]
      exact ⟨inst, hmem, henabled, by simpa using hwild⟩
    unfold CoveredBy
    rw [if_neg (by simp [hconcrete])]
    cases heq : inst.sessionScope with
    | none => simp [heq, isWildcard] at hconcrete
    | some scope =>
      rw [heq] at hconcrete
      exact .inl (h.concrete hany scope ⟨inst, hmem, henabled, heq, hconcrete⟩)

theorem Bound.teardown {wildcard : Prop} {needs : String → Prop} {sessions : List String}
    {instances : List (PluginInstance κ)} (scope : Option String)
    (h : Bound wildcard needs sessions) (hwild : wildcard → anyWildcard instances = true)
    (hneeds : ∀ scope, needs scope → Needs instances scope) :
    Bound wildcard needs (boundSessions instances scope false sessions) := by
  cases hscope : isWildcard scope with
  | true =>
    cases hany : anyWildcard instances with
    | true => simpa [boundSessions, hscope, hany] using h
    | false =>
      constructor
      . intro hw
        have := hwild hw
        simp [hany] at this
      . intro hw x hx
        have := (hneeds x hx).ne_star
        simpa [boundSessions, hscope, hany, this] using h.concrete hw x hx
  | false =>
    rcases scope with _ | scope
    . simp [isWildcard] at hscope
    . constructor
      . intro hw
        rw [mem_boundSessions_teardown hscope]
        split
        . exact h.star hw
        . exact .inr ⟨rfl, h.star hw, hwild hw⟩
      . intro hw x hx
        rw [mem_boundSessions_teardown hscope]
        split
        . exact h.concrete hw x hx
        . next hsib =>
          refine .inl ⟨h.concrete hw x hx, (hneeds x hx).ne_star, ?_⟩
          rintro rfl
          exact hsib (anyBinds_of_needs (hneeds x hx))

theorem Bound.activate {wildcard : Prop} {needs : String → Prop} {sessions : List String}
    {instances : List (PluginInstance κ)} {scope : String}
    (h : Bound wildcard needs sessions) (hscope : isWildcard (some scope) = false)
    (hwild : anyWildcard instances = true ↔ wildcard)
    (hneeds : ∀ x, Needs instances x → x = scope ∨ needs x) :
    BoundRows instances (boundSessions instances (some scope) true sessions) := by
  constructor
  . intro hw
    rw [mem_boundSessions_activate hscope]
    exact .inr (.inr ⟨rfl, h.star (hwild.mp hw), hw⟩)
  . intro hw x hx
    rw [mem_boundSessions_activate hscope]
    rcases hneeds x hx with rfl | hx'
    . exact .inl rfl
    . exact .inr (.inl ⟨h.concrete (fun hw' => hw (hwild.mpr hw')) x hx', hx.ne_star⟩)

theorem boundRows_activate_wildcard {instances : List (PluginInstance κ)} {scope : Option String}
    {sessions : List String} (hscope : isWildcard scope = true)
    (hany : anyWildcard instances = true) :
    BoundRows instances (boundSessions instances scope true sessions) := by
  constructor
  . intro _
    simp [boundSessions, hscope]
  . intro hw
    exact absurd hany hw

end Bound

section Operations

/-- The rows other than the one an operation names. -/
def others (s : Provisioned κ) (instanceId : String) : List (PluginInstance κ) :=
  s.instances.rows.filter fun i => i.instanceId != instanceId

/--
What an operation leaves of the row it names: nothing, or the row as patched. It retires the last
enabled wildcard row if one is enabled before and none is after.
-/
def RetiresWildcard (s : Provisioned κ) (instanceId : String) (left : Option (PluginInstance κ)) :
    Prop :=
  anyWildcard s.instances.rows = true ∧ anyWildcard (others s instanceId ++ left.toList) = false

/-- The scopes of the other enabled rows are active in their own right. -/
def SiblingsActive (s : Provisioned κ) (instanceId : String) (left : Option (PluginInstance κ)) :
    Prop :=
  ∀ scope, Needs (others s instanceId) scope → ¬Needs left.toList scope →
    scope ∈ s.plugin.sessions

/-- The request of a patch passes the checks on the calling key. -/
def PatchAllowed (allowedSessions : Option (List String)) (dto : UpdateInstanceDto κ) : Prop :=
  ∀ scope, dto.sessionScope = some scope → sessionScopeVisible allowedSessions scope = true

/--
The condition on a request: if it retires the last enabled wildcard row, then every other enabled
row already has its own scope among the active sessions.
-/
def KeepsSiblings (ops : ConfigOps κ) (s : Provisioned κ) (op : Op κ) : Prop :=
  match op with
  | .create .. => True
  | .patch allowedSessions instanceId dto =>
    ∀ inst, resolveVisible s.instances allowedSessions instanceId = .ok inst →
      PatchAllowed allowedSessions dto → RetiresWildcard s instanceId (some (inst.patched ops dto)) →
      SiblingsActive s instanceId (some (inst.patched ops dto))
  | .remove allowedSessions instanceId =>
    ∀ inst, resolveVisible s.instances allowedSessions instanceId = .ok inst →
      RetiresWildcard s instanceId none → SiblingsActive s instanceId none

theorem resolveVisible_ok {s : Provisioned κ} {allowedSessions : Option (List String)}
    {instanceId : String} {inst : PluginInstance κ}
    (h : resolveVisible s.instances allowedSessions instanceId = .ok inst) :
    inst ∈ s.instances.rows ∧ inst.instanceId = instanceId := by
  unfold resolveVisible at h
  split at h
  . contradiction
  . next found hfind =>
    split at h
    . simp only [Except.ok.injEq] at h
      subst h
      unfold InstanceTable.resolve at hfind
      exact ⟨List.mem_of_find?_eq_some hfind, by simpa using List.find?_some hfind⟩
    . contradiction

/-- Row ids are unique, so the row an operation names is the only one outside `others`. -/
theorem mem_others_or_eq {s : Provisioned κ} {inst i : PluginInstance κ}
    (hinst : inst ∈ s.instances.rows) (hi : i ∈ s.instances.rows) :
    i ∈ others s inst.instanceId ∨ i = inst := by
  by_cases h : i.instanceId = inst.instanceId
  . exact .inr (List.inj_on_of_nodup_map s.instances.nodup hi hinst h)
  . exact .inl (by simp [others, hi, h])

/-- The parts of the state coverage depends on, after the rows were stored. -/
structure Rebinds (plugin : Plugin κ) (s' : Provisioned κ) (rows : List (PluginInstance κ))
    (sessions : List String) : Prop where
  rows : s'.instances.rows = rows
  sessions : s'.plugin.sessions = sessions
  sessionScoped : s'.plugin.sessionScoped = plugin.sessionScoped

/-- The active sessions `rebindScope` leaves. -/
def reboundSessions (rows : List (PluginInstance κ)) (previousScope : Option String)
    (updated : PluginInstance κ) (sessions : List String) : List String :=
  boundSessions rows updated.sessionScope updated.enabled
    (if previousScope != updated.sessionScope then
      boundSessions rows previousScope false sessions
    else
      sessions)

theorem except_bind_eq_ok {ε α β : Type} {x : Except ε α} {f : α → Except ε β} {b : β} :
    (x >>= f) = .ok b ↔ ∃ a, x = .ok a ∧ f a = .ok b := by
  cases x with
  | error e => simp [bind, Except.bind]
  | ok a => simp [bind, Except.bind]

theorem step_cases (ops : ConfigOps κ) (pluginId : String) (s : Provisioned κ) (op : Op κ) :
    (∃ e, handle ops pluginId op s = .error e) ∧ step ops pluginId s op = s ∨
    handle ops pluginId op s = .ok (step ops pluginId s op) := by
  unfold step
  cases handle ops pluginId op s with
  | error e => exact .inl ⟨⟨e, rfl⟩, rfl⟩
  | ok s' => exact .inr rfl

theorem rebinds_applyScopeBinding (ops : ConfigOps κ) (pluginId : String) (scope : Option String)
    (config : κ) (activate : Bool) (t : InstanceTable κ) (plugin : Plugin κ)
    (h : plugin.sessionScoped ≠ some false) :
    Rebinds plugin (applyScopeBinding ops pluginId scope config activate ⟨t, plugin⟩) t.rows
      (boundSessions t.rows scope activate plugin.sessions) := by
  rcases applyScopeBinding_spec ops pluginId scope config activate ⟨t, plugin⟩ h with
    ⟨hinstances, hsessions, hscoped⟩
  exact ⟨congrArg InstanceTable.rows hinstances, hsessions, hscoped⟩

theorem rebinds_rebindScope (ops : ConfigOps κ) (pluginId : String) (previousScope : Option String)
    (updated : PluginInstance κ) (t : InstanceTable κ) (plugin : Plugin κ)
    (h : plugin.sessionScoped ≠ some false) :
    Rebinds plugin (rebindScope ops pluginId previousScope updated ⟨t, plugin⟩) t.rows
      (reboundSessions t.rows previousScope updated plugin.sessions) := by
  unfold rebindScope reboundSessions
  by_cases hscope : (previousScope != updated.sessionScope) = true
  . have hdown := rebinds_applyScopeBinding ops pluginId previousScope ops.empty false t plugin h
    simp only [if_pos hscope]
    generalize applyScopeBinding ops pluginId previousScope ops.empty false ⟨t, plugin⟩ = s₁ at hdown ⊢
    have hup := rebinds_applyScopeBinding ops pluginId updated.sessionScope
      (updated.config.getD ops.empty) updated.enabled s₁.instances s₁.plugin
      (hdown.sessionScoped ▸ h)
    rw [hdown.rows, hdown.sessions] at hup
    exact ⟨hup.rows, hup.sessions, hup.sessionScoped.trans hdown.sessionScoped⟩
  . simp only [if_neg hscope]
    exact rebinds_applyScopeBinding ops pluginId _ _ _ t plugin h

theorem create_ok {ops : ConfigOps κ} {pluginId : String} {s s' : Provisioned κ}
    {allowedSessions : Option (List String)} {dto : CreateInstanceDto κ} {generated : String}
    (hs : s.plugin.sessionScoped ≠ some false)
    (h : create ops pluginId allowedSessions dto generated s = .ok s') :
    ∃ inst, inst.enabled = true ∧ Rebinds s.plugin s' (s.instances.rows ++ [inst])
      (boundSessions (s.instances.rows ++ [inst]) inst.sessionScope true s.plugin.sessions) := by
  unfold create at h
  simp only [except_bind_eq_ok] at h
  rcases h with ⟨_, _, _, _, h⟩
  split at h
  . simp [throw, throwThe, MonadExceptOf.throw] at h
  . next hnew =>
    rw [except_bind_eq_ok] at h
    rcases h with ⟨secret, _, h⟩
    simp only [pure, Except.pure, Except.ok.injEq] at h
    subst h
    exact ⟨dto.toRow secret, rfl, rebinds_applyScopeBinding ops pluginId _ _ _ _ _ hs⟩

theorem patch_eq_ok {ops : ConfigOps κ} {pluginId : String} {s s' : Provisioned κ}
    {allowedSessions : Option (List String)} {instanceId : String} {dto : UpdateInstanceDto κ} :
    patch ops pluginId allowedSessions instanceId dto s = .ok s' ↔
      ∃ inst, resolveVisible s.instances allowedSessions instanceId = .ok inst ∧
        PatchAllowed allowedSessions dto ∧
        rebindScope ops pluginId inst.sessionScope (inst.patched ops dto)
          ⟨s.instances.save (inst.patched ops dto), s.plugin⟩ = s' := by
  unfold patch
  rw [except_bind_eq_ok]
  apply exists_congr
  intro inst
  apply and_congr_right
  intro hinst
  cases hscope : dto.sessionScope with
  | none => simp [PatchAllowed, hscope, pure, Except.pure]
  | some scope =>
    cases hvisible : sessionScopeVisible allowedSessions scope with
    | true =>
      simp [PatchAllowed, hscope, hvisible, assertScopeWritable, bind, Except.bind, pure, Except.pure]
    | false =>
      simp [PatchAllowed, hscope, hvisible, assertScopeWritable, bind, Except.bind]

theorem remove_eq_ok {ops : ConfigOps κ} {pluginId : String} {s s' : Provisioned κ}
    {allowedSessions : Option (List String)} {instanceId : String} :
    remove ops pluginId allowedSessions instanceId s = .ok s' ↔
      ∃ inst, resolveVisible s.instances allowedSessions instanceId = .ok inst ∧
        applyScopeBinding ops pluginId inst.sessionScope ops.empty false
          ⟨s.instances.delete instanceId, s.plugin⟩ = s' := by
  unfold remove
  rw [except_bind_eq_ok]
  simp [pure, Except.pure]

theorem patched_instanceId (ops : ConfigOps κ) (dto : UpdateInstanceDto κ)
    (inst : PluginInstance κ) : (inst.patched ops dto).instanceId = inst.instanceId := rfl

theorem mem_save {s : Provisioned κ} {inst updated i : PluginInstance κ}
    (hinst : inst ∈ s.instances.rows) (hid : updated.instanceId = inst.instanceId) :
    i ∈ (s.instances.save updated).rows ↔ i ∈ others s inst.instanceId ∨ i = updated := by
  simp only [InstanceTable.save, others, List.mem_map, List.mem_filter]
  constructor
  . rintro ⟨j, hj, rfl⟩
    by_cases h : j.instanceId = inst.instanceId
    . exact .inr (by simp [h, hid])
    . exact .inl (by simp [h, hid, hj])
  . rintro (⟨hi, hne⟩ | rfl)
    . exact ⟨i, hi, by simp_all⟩
    . exact ⟨inst, hinst, by simp [hid]⟩

end Operations

section Step

variable {ops : ConfigOps κ} {pluginId : String} {s : Provisioned κ}

theorem anyWildcard_others {instanceId : String}
    (h : anyWildcard (others s instanceId) = true) : anyWildcard s.instances.rows = true := by
  rw [anyWildcard_iff] at h ⊢
  rcases h with ⟨i, hi, h⟩
  exact ⟨i, List.mem_of_mem_filter hi, h⟩

theorem needs_others {instanceId scope : String} (h : Needs (others s instanceId) scope) :
    Needs s.instances.rows scope := by
  rcases h with ⟨i, hi, h⟩
  exact ⟨i, List.mem_of_mem_filter hi, h⟩

/-- What the rows other than `inst` depend on is bound unless they lose their last wildcard. -/
theorem bound_others {instanceId : String} (left : Option (PluginInstance κ))
    (h : BoundRows s.instances.rows s.plugin.sessions)
    (hleft : anyWildcard (others s instanceId ++ left.toList) = true →
      anyWildcard (others s instanceId) = true)
    (hkeep : RetiresWildcard s instanceId left → SiblingsActive s instanceId left) :
    Bound (anyWildcard (others s instanceId) = true)
      (fun scope => Needs (others s instanceId) scope ∧ ¬Needs left.toList scope)
      s.plugin.sessions := by
  constructor
  . intro hw
    exact h.star (anyWildcard_others hw)
  . rintro hw scope ⟨hneeds, hleft'⟩
    by_cases hany : anyWildcard s.instances.rows = true
    . apply hkeep ⟨hany, ?_⟩ scope hneeds hleft'
      simpa using mt hleft hw
    . exact h.concrete hany scope (needs_others hneeds)

theorem boundRows_create {inst : PluginInstance κ} (henabled : inst.enabled = true)
    (h : BoundRows s.instances.rows s.plugin.sessions) :
    BoundRows (s.instances.rows ++ [inst])
      (boundSessions (s.instances.rows ++ [inst]) inst.sessionScope true s.plugin.sessions) := by
  cases hscope : isWildcard inst.sessionScope with
  | true =>
    apply boundRows_activate_wildcard hscope
    rw [anyWildcard_iff]
    exact ⟨inst, by simp, henabled, hscope⟩
  | false =>
    cases hinst : inst.sessionScope with
    | none => simp [hinst, isWildcard] at hscope
    | some scope =>
      rw [hinst] at hscope
      apply h.activate hscope
      . simp [anyWildcard, hinst, hscope]
      . rintro x ⟨i, hi, hx⟩
        rw [List.mem_append, List.mem_singleton] at hi
        rcases hi with hi | rfl
        . exact .inr ⟨i, hi, hx⟩
        . simp_all

theorem anyWildcard_save {inst updated : PluginInstance κ} (hinst : inst ∈ s.instances.rows)
    (hid : updated.instanceId = inst.instanceId) :
    anyWildcard (s.instances.save updated).rows
      = anyWildcard (others s inst.instanceId ++ [updated]) := by
  rw [Bool.eq_iff_iff, anyWildcard_iff, anyWildcard_iff]
  simp only [mem_save hinst hid, List.mem_append, List.mem_singleton]

theorem needs_save {inst updated : PluginInstance κ} {scope : String}
    (hinst : inst ∈ s.instances.rows) (hid : updated.instanceId = inst.instanceId) :
    Needs (s.instances.save updated).rows scope
      ↔ Needs (others s inst.instanceId) scope ∨ Needs [updated] scope := by
  simp only [Needs, mem_save hinst hid, List.mem_singleton, or_and_right, exists_or]

theorem boundRows_patch {inst updated : PluginInstance κ} (hinst : inst ∈ s.instances.rows)
    (hid : updated.instanceId = inst.instanceId)
    (h : BoundRows s.instances.rows s.plugin.sessions)
    (hkeep : RetiresWildcard s inst.instanceId (some updated) →
      SiblingsActive s inst.instanceId (some updated)) :
    BoundRows (s.instances.save updated).rows
      (reboundSessions (s.instances.save updated).rows inst.sessionScope updated
        s.plugin.sessions) := by
  by_cases hwild : updated.enabled = true ∧ isWildcard updated.sessionScope = true
  . have hany : anyWildcard (s.instances.save updated).rows = true := by
      rw [anyWildcard_save hinst hid, anyWildcard_iff]
      exact ⟨updated, by simp, hwild⟩
    unfold reboundSessions
    rw [hwild.1]
    apply boundRows_activate_wildcard hwild.2 hany
  . have hleft : anyWildcard (s.instances.save updated).rows = true
        ↔ anyWildcard (others s inst.instanceId) = true := by
      rw [anyWildcard_save hinst hid, anyWildcard_iff, anyWildcard_iff]
      grind
    have hlast := hleft.mp
    rw [anyWildcard_save hinst hid] at hlast
    have hothers := bound_others (some updated) h hlast hkeep
    have hneeds (x : String) (hx : Needs (others s inst.instanceId) x ∧ ¬Needs [updated] x) :
        Needs (s.instances.save updated).rows x := by
      rw [needs_save hinst hid]
      exact .inl hx.1
    have hdown : Bound (anyWildcard (others s inst.instanceId) = true)
        (fun x => Needs (others s inst.instanceId) x ∧ ¬Needs [updated] x)
        (if inst.sessionScope != updated.sessionScope then
          boundSessions (s.instances.save updated).rows inst.sessionScope false s.plugin.sessions
        else
          s.plugin.sessions) := by
      split
      . apply hothers.teardown _ hleft.mpr hneeds
      . exact hothers
    unfold reboundSessions
    cases henabled : updated.enabled with
    | true =>
      have hscope : isWildcard updated.sessionScope = false := by simpa [henabled] using hwild
      cases hnew : updated.sessionScope with
      | none => simp [hnew, isWildcard] at hscope
      | some scope =>
        rw [hnew] at hscope hdown
        apply hdown.activate hscope hleft
        intro x hx
        rw [needs_save hinst hid] at hx
        by_cases heq : x = scope
        . exact .inl heq
        . have hnot : ¬Needs [updated] x := by
            rintro ⟨i, hi, _, hi', _⟩
            simp_all
          exact .inr ⟨hx.resolve_right hnot, hnot⟩
    | false =>
      have hnot (x : String) : ¬Needs [updated] x := by
        rintro ⟨i, hi, hi', _⟩
        simp_all
      have hbound := hdown.teardown updated.sessionScope hleft.mpr hneeds
      constructor
      . intro hw
        exact hbound.star (hleft.mp hw)
      . intro hw x hx
        rw [needs_save hinst hid] at hx
        exact hbound.concrete (mt hleft.mpr hw) x ⟨hx.resolve_right (hnot x), hnot x⟩

theorem boundRows_remove {inst : PluginInstance κ} (scope : Option String)
    (h : BoundRows s.instances.rows s.plugin.sessions)
    (hkeep : RetiresWildcard s inst.instanceId none → SiblingsActive s inst.instanceId none) :
    BoundRows (others s inst.instanceId)
      (boundSessions (others s inst.instanceId) scope false s.plugin.sessions) := by
  have hothers := bound_others none h (by simp) hkeep
  have hbound := hothers.teardown scope id fun _ hx => hx.1
  constructor
  . exact hbound.star
  . intro hw x hx
    exact hbound.concrete hw x ⟨hx, by simp [Needs]⟩

/-- Neither the session nor the wildcard is active. -/
def Misses (scope : String) (sessions : List String) : Prop :=
  scope ∉ sessions ∧ "*" ∉ sessions

theorem misses_retire {instances : List (PluginInstance κ)} {scope : Option String} {x : String}
    {sessions : List String} (hscope : isWildcard scope = true)
    (hany : anyWildcard instances = false) (hx : x ∉ sessions) :
    Misses x (boundSessions instances scope false sessions) := by
  simp [Misses, boundSessions, hscope, hany, hx]

theorem Misses.bind {instances : List (PluginInstance κ)} {scope : Option String} {x : String}
    {sessions : List String} {activate : Bool} (h : Misses x sessions)
    (hscope : isWildcard scope = true → activate = false)
    (hx : activate = true → scope ≠ some x) :
    Misses x (boundSessions instances scope activate sessions) := by
  cases hwild : isWildcard scope with
  | true =>
    have := hscope hwild
    simp only [boundSessions, hwild, this]
    cases anyWildcard instances <;> simp [Misses, h.1, h.2]
  | false =>
    cases scope with
    | none => simp [isWildcard] at hwild
    | some scope =>
      cases activate with
      | true =>
        have hne : scope ≠ "*" := by
          rintro rfl
          simp [isWildcard_star] at hwild
        have hne' : x ≠ scope := by
          rintro rfl
          exact hx rfl rfl
        have := h.2
        simp [Misses, mem_boundSessions_activate hwild, h.1, this, hne', hne.symm]
      | false => simp [Misses, mem_boundSessions_teardown hwild, h.1, h.2]

theorem not_covered_of_misses (scope : String) {s' : Provisioned κ}
    (hneeds : Needs s'.instances.rows scope) (h : Misses scope s'.plugin.sessions) :
    ¬Covered s' := by
  intro hcovered
  rcases hneeds with ⟨i, hi, henabled, hscope, hconcrete⟩
  have := hcovered i hi henabled
  simp only [CoveredBy, hscope, hconcrete] at this
  exact this.elim h.1 h.2

theorem isWildcard_of_retires {inst : PluginInstance κ} {left : Option (PluginInstance κ)}
    (hinst : inst ∈ s.instances.rows) (h : RetiresWildcard s inst.instanceId left) :
    isWildcard inst.sessionScope = true := by
  rcases h with ⟨hbefore, hafter⟩
  rw [anyWildcard_iff] at hbefore
  rcases hbefore with ⟨i, hi, henabled, hscope⟩
  rcases mem_others_or_eq hinst hi with hi' | rfl
  . have hany : anyWildcard (others s inst.instanceId ++ left.toList) = true := by
      rw [anyWildcard_iff]
      exact ⟨i, List.mem_append_left _ hi', henabled, hscope⟩
    simp [hafter] at hany
  . exact hscope

theorem misses_patch {inst updated : PluginInstance κ} {x : String}
    (hinst : inst ∈ s.instances.rows) (hid : updated.instanceId = inst.instanceId)
    (h : RetiresWildcard s inst.instanceId (some updated)) (hx : x ∉ s.plugin.sessions)
    (hwild : isWildcard (some x) = false) (hneeds : ¬Needs [updated] x) :
    Misses x (reboundSessions (s.instances.save updated).rows inst.sessionScope updated
      s.plugin.sessions) := by
  have hscope := isWildcard_of_retires hinst h
  have hany : anyWildcard (s.instances.save updated).rows = false := by
    rw [anyWildcard_save hinst hid]
    exact h.2
  have hdisabled (hw : isWildcard updated.sessionScope = true) : updated.enabled = false := by
    by_contra henabled
    have := anyWildcard_iff.mpr ⟨updated, (mem_save hinst hid).mpr (.inr rfl), by simpa using henabled,
      hw⟩
    simp [hany] at this
  unfold reboundSessions
  split
  . apply Misses.bind
    . apply misses_retire hscope hany hx
    . exact hdisabled
    . intro henabled heq
      exact hneeds ⟨updated, by simp, henabled, heq, hwild⟩
  . next hsame =>
    have heq : inst.sessionScope = updated.sessionScope := by simpa using hsame
    rw [← heq, hdisabled (heq ▸ hscope)]
    apply misses_retire hscope hany hx

theorem step_bound (op : Op κ) (hs : s.plugin.sessionScoped ≠ some false)
    (h : BoundRows s.instances.rows s.plugin.sessions) (hkeep : KeepsSiblings ops s op) :
    BoundRows (step ops pluginId s op).instances.rows (step ops pluginId s op).plugin.sessions := by
  rcases step_cases ops pluginId s op with ⟨_, hsame⟩ | hok
  . rw [hsame]
    exact h
  . generalize step ops pluginId s op = s' at hok
    cases op with
    | create allowedSessions dto generated =>
      rcases create_ok hs hok with ⟨inst, henabled, hrebinds⟩
      rw [hrebinds.rows, hrebinds.sessions]
      apply boundRows_create henabled h
    | patch allowedSessions instanceId dto =>
      rcases patch_eq_ok.mp hok with ⟨inst, hinst, hallowed, rfl⟩
      rcases resolveVisible_ok hinst with ⟨hmem, rfl⟩
      have hrebinds := rebinds_rebindScope ops pluginId inst.sessionScope (inst.patched ops dto)
        (s.instances.save (inst.patched ops dto)) s.plugin hs
      rw [hrebinds.rows, hrebinds.sessions]
      apply boundRows_patch hmem (patched_instanceId ops dto inst) h (hkeep inst hinst hallowed)
    | remove allowedSessions instanceId =>
      rcases remove_eq_ok.mp hok with ⟨inst, hinst, rfl⟩
      rcases resolveVisible_ok hinst with ⟨hmem, rfl⟩
      have hrebinds := rebinds_applyScopeBinding ops pluginId inst.sessionScope ops.empty false
        (s.instances.delete inst.instanceId) s.plugin hs
      rw [hrebinds.rows, hrebinds.sessions]
      apply boundRows_remove inst.sessionScope h (hkeep inst hinst)

theorem step_sessionScoped (op : Op κ) (hs : s.plugin.sessionScoped ≠ some false) :
    (step ops pluginId s op).plugin.sessionScoped ≠ some false := by
  rcases step_cases ops pluginId s op with ⟨_, hsame⟩ | hok
  . rw [hsame]
    exact hs
  . generalize step ops pluginId s op = s' at hok
    cases op with
    | create allowedSessions dto generated =>
      rcases create_ok hs hok with ⟨inst, _, hrebinds⟩
      rw [hrebinds.sessionScoped]
      exact hs
    | patch allowedSessions instanceId dto =>
      rcases patch_eq_ok.mp hok with ⟨inst, _, _, rfl⟩
      rw [(rebinds_rebindScope ops pluginId _ _ _ _ hs).sessionScoped]
      exact hs
    | remove allowedSessions instanceId =>
      rcases remove_eq_ok.mp hok with ⟨inst, _, rfl⟩
      rw [(rebinds_applyScopeBinding ops pluginId _ _ _ _ _ hs).sessionScoped]
      exact hs

/-- A request that breaks the condition leaves an enabled row uncovered. -/
theorem not_covered_step (pluginId : String) {op : Op κ}
    (hs : s.plugin.sessionScoped ≠ some false)
    (hkeep : ¬KeepsSiblings ops s op) : ¬Covered (step ops pluginId s op) := by
  cases op with
  | create allowedSessions dto generated => exact absurd trivial hkeep
  | patch allowedSessions instanceId dto =>
    simp only [KeepsSiblings, SiblingsActive, not_forall] at hkeep
    rcases hkeep with ⟨inst, hinst, hallowed, hretires, scope, hneeds, hleft, hx⟩
    have hstep : step ops pluginId s (.patch allowedSessions instanceId dto)
        = rebindScope ops pluginId inst.sessionScope (inst.patched ops dto)
          ⟨s.instances.save (inst.patched ops dto), s.plugin⟩ := by
      simp only [step, handle, patch_eq_ok.mpr ⟨inst, hinst, hallowed, rfl⟩]
    rcases resolveVisible_ok hinst with ⟨hmem, rfl⟩
    have hrebinds := rebinds_rebindScope ops pluginId inst.sessionScope (inst.patched ops dto)
      (s.instances.save (inst.patched ops dto)) s.plugin hs
    rw [hstep]
    apply not_covered_of_misses scope
    . rw [hrebinds.rows, needs_save hmem (patched_instanceId ops dto inst)]
      exact .inl hneeds
    . rw [hrebinds.sessions]
      apply misses_patch hmem (patched_instanceId ops dto inst) hretires hx _ hleft
      rcases hneeds with ⟨_, _, _, _, hconcrete⟩
      exact hconcrete
  | remove allowedSessions instanceId =>
    simp only [KeepsSiblings, SiblingsActive, not_forall] at hkeep
    rcases hkeep with ⟨inst, hinst, hretires, scope, hneeds, _, hx⟩
    have hstep : step ops pluginId s (.remove allowedSessions instanceId)
        = applyScopeBinding ops pluginId inst.sessionScope ops.empty false
          ⟨s.instances.delete instanceId, s.plugin⟩ := by
      simp only [step, handle, remove_eq_ok.mpr ⟨inst, hinst, rfl⟩]
    rcases resolveVisible_ok hinst with ⟨hmem, rfl⟩
    have hrebinds := rebinds_applyScopeBinding ops pluginId inst.sessionScope ops.empty false
      (s.instances.delete inst.instanceId) s.plugin hs
    rw [hstep]
    apply not_covered_of_misses scope
    . rw [hrebinds.rows]
      exact hneeds
    . rw [hrebinds.sessions]
      apply misses_retire (isWildcard_of_retires hmem hretires) _ hx
      have := hretires.2
      simp only [Option.toList_none, List.append_nil] at this
      exact this

end Step

section Run

variable {ops : ConfigOps κ} {pluginId : String}

theorem covered_iff_of_bound {s : Provisioned κ} {requests : List (Op κ)}
    (hs : s.plugin.sessionScoped ≠ some false)
    (h : BoundRows s.instances.rows s.plugin.sessions) :
    (∀ done, done <+: requests → Covered (run ops pluginId s done)) ↔
    (∀ done op, done ++ [op] <+: requests → KeepsSiblings ops (run ops pluginId s done) op) := by
  induction requests generalizing s with
  | nil => simp [run, h.covered]
  | cons op requests ih =>
    have hrun (done : List (Op κ)) :
        run ops pluginId s (op :: done) = run ops pluginId (step ops pluginId s op) done := rfl
    constructor
    . intro hcovered
      have hkeep : KeepsSiblings ops s op := by
        by_contra hkeep
        apply not_covered_step pluginId hs hkeep
        exact hcovered [op] (by simp)
      have hrest := (ih (step_sessionScoped op hs) (step_bound op hs h hkeep)).mp fun done hdone =>
        hrun done ▸ hcovered (op :: done) (by simpa using hdone)
      intro done op' hdone
      cases done with
      | nil =>
        have : op' = op := by simpa using hdone
        exact this ▸ hkeep
      | cons op₁ done =>
        simp only [List.cons_append, List.cons_prefix_cons] at hdone
        rw [hdone.1, hrun]
        exact hrest done op' hdone.2
    . intro hkeeps
      have hkeep : KeepsSiblings ops s op := hkeeps [] op (by simp)
      have hrest := (ih (step_sessionScoped op hs) (step_bound op hs h hkeep)).mpr
        fun done op' hdone => hrun done ▸ hkeeps (op :: done) op' (by simpa using hdone)
      intro done hdone
      cases done with
      | nil => exact h.covered
      | cons op₁ done =>
        simp only [List.cons_prefix_cons] at hdone
        rw [hdone.1, hrun]
        exact hrest done hdone.2

/--
Starting without instances, every enabled instance is covered after every request if and only if
every request that retires the last enabled wildcard finds its siblings' scopes active.
-/
theorem covered_iff_keepsSiblings (ops : ConfigOps κ) (pluginId : String) (s : Provisioned κ)
    (requests : List (Op κ)) (hs : s.plugin.sessionScoped ≠ some false)
    (hinit : s.instances = .empty) :
    (∀ done, done <+: requests → Covered (run ops pluginId s done)) ↔
    (∀ done op, done ++ [op] <+: requests → KeepsSiblings ops (run ops pluginId s done) op) := by
  apply covered_iff_of_bound hs
  rw [hinit]
  constructor <;> simp [InstanceTable.empty, anyWildcard, Needs]

/-- Configs as flat records, and a plugin that was never activated. -/
def recordOps : ConfigOps (List (String × String)) where
  empty := []
  isEmpty := List.isEmpty
  merge base patch := base.filter (fun entry => patch.all (·.1 != entry.1)) ++ patch
  restoreSecretConfig incoming _ := incoming

def freshPlugin : Provisioned (List (String × String)) where
  instances := .empty
  plugin := {
    sessionScoped := none
    ingressRoutes := ["events"]
    permissions := ["webhook:ingress"]
    config := []
    activeSessions := none
    sessionConfig := []
  }

/-- Create an instance for a session and one for all sessions, then remove the second. -/
def wildcardRoundTrip : List (Op (List (String × String))) :=
  [.create none ⟨"a", some "s1", none, none, none⟩ "6f1c", .create none ⟨"w", none, none, none, none⟩ "90ab",
    .remove none "w"]

theorem covered_iff_keepsSiblings_fresh :
    (∀ done, done <+: wildcardRoundTrip → Covered (run recordOps "chatwoot" freshPlugin done)) ↔
    (∀ done op, done ++ [op] <+: wildcardRoundTrip →
      KeepsSiblings recordOps (run recordOps "chatwoot" freshPlugin done) op) :=
  covered_iff_keepsSiblings recordOps "chatwoot" freshPlugin wildcardRoundTrip (by decide) rfl

/-- Removing the wildcard instance leaves the instance of the session uncovered. -/
theorem not_covered_wildcardRoundTrip :
    freshPlugin.plugin.sessionScoped ≠ some false ∧ freshPlugin.instances = .empty ∧
    ¬(∀ done, done <+: wildcardRoundTrip →
      Covered (run recordOps "chatwoot" freshPlugin done)) := by
  refine ⟨by decide, rfl, ?_⟩
  intro h
  have hlost : ¬Covered (run recordOps "chatwoot" freshPlugin wildcardRoundTrip) := by decide
  exact hlost (h wildcardRoundTrip (List.prefix_refl _))

end Run
end OpenWA.Integration
