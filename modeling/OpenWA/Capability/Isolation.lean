import OpenWA.Capability.Confinement

/-!
This module contains what the confinement of plugins comes to: no effect without its permission, none on
a session a plugin is not activated for, none on the mappings of another plugin, and no request to a
host that neither the manifest nor a config names.
-/

namespace OpenWA.Capability

open Async Js

variable {rt : Runtime} {init c : Config Host Answer Place PluginError (List Nat)}

/-! ### A plugin and its host -/

section Sample

def sampleRuntime : Runtime where
  parseUrl url :=
    if url = "https://desk.example/api" then some ⟨"https:", "", "", "desk.example", ""⟩ else none
  toLowerCase t := t

def samplePlugin : PluginManifest where
  id := "desk"
  permissions := some ["conversation:send", "net:fetch"]
  sessions := none
  sessionScoped := none
  net := some ⟨none, some ["baseUrl"]⟩

def sampleRow : ConversationMapping := ⟨0, ⟨"old", "c1", "desk", "i"⟩, "42", .string "bot"⟩

def foreignRow : ConversationMapping := ⟨1, ⟨"new", "c1", "bot", "i"⟩, "42", .string "bot"⟩

/-- The session of a mapping is gone; the plugin is activated for the one that replaces it. -/
def sampleHost : Host where
  activation _ := {
    activeSessions := some ["new"]
    config := some (.cons "baseUrl" (.string "https://desk.example/api") .nil)
    sessionConfig := none
  }
  engines sessionId := sessionId = "new"
  phones _ := none
  inFlightFetches := 0
  instances _ := []
  sessions sessionId := sessionId = "new"
  mappings := [sampleRow, foreignRow]
  nextId := 2
  effects := []

def sampleConfig : Config Host Answer Place PluginError (List Nat) := ⟨sampleHost, [], []⟩

theorem keyed_sampleHost : sampleHost.Keyed where
  fresh := by decide
  distinct := by decide

/-- A reply to conversation 42, by its mapping. -/
def sampleEnvelope : Value :=
  .object [("sessionId", .string "new"), ("instanceId", .string "i"), ("type", .string "text"),
    ("text", .string "hello"),
    ("source", .object [("externalConversationId", .string "42")])]

/-- The reply, whose mapping moves to the new session, then a request. -/
def sampleMoves : List (Move Event Answer) :=
  [.event (.call samplePlugin "conversation.send" [sampleEnvelope])] ++
    List.replicate 6 (.turn 0 (.done .null)) ++
    [.event (.call samplePlugin "net.fetch" [.string "https://desk.example/api"])] ++
    List.replicate 3 (.turn 1 (.done .null))

/-- What is left of an effect for the eye. -/
def Effect.label (e : Effect) : String × Option String :=
  (e.deed.permission.name, e.deed.sessionId?)

def labels (c : Config Host Answer Place PluginError (List Nat)) :
    List (String × Option String) × List String :=
  (c.st.effects.map Effect.label, c.st.mappings.map (·.key.sessionId))

def sampleLabels : List (String × Option String) × List String :=
  ([("conversation:send", some "new"), ("net:fetch", none)], ["new", "new"])

end Sample

/-! ### Permissions -/

theorem assertPermission_ok_iff {m : PluginManifest} {permission : Permission} :
    assertPermission m permission = .ok () ↔ permission.name ∈ m.permissions.getD [] := by
  unfold assertPermission
  split
  . next h => simpa using h
  . next h => simpa using h

theorem assertSessionAllowed_ok_iff {m : PluginManifest} {sessionId : String} :
    assertSessionAllowed m sessionId = .ok () ↔
      "*" ∈ m.sessions.getD ["*"] ∨ sessionId ∈ m.sessions.getD ["*"] := by
  unfold assertSessionAllowed
  dsimp only
  split
  . next h => simpa using h
  . next h =>
    simp only [Bool.and_eq_true, Bool.not_eq_true', not_and, Bool.not_eq_false,
      List.contains_iff_mem] at h
    simp only [true_iff]
    by_cases hall : "*" ∈ m.sessions.getD ["*"]
    . exact .inl hall
    . exact .inr (h (by simpa using hall))

/-- What the manifest of a plugin declares. -/
structure Declared (m : PluginManifest) (deed : Deed) : Prop where
  permission : deed.permission.name ∈ m.permissions.getD []
  session : ∀ sessionId, deed.sessionId? = some sessionId →
    "*" ∈ m.sessions.getD ["*"] ∨ sessionId ∈ m.sessions.getD ["*"]

def declaredScope (rt : Runtime) : Scope rt where
  ok := System.anyStep
  calls _ := True
  may := Declared
  sealedRow _ _ := False
  keptRow _ _ := False
  call _ _ _ _ _ _ := trivial
  gate _ _ _ _ _ _ hpermission hsession _ := by
    refine ⟨assertPermission_ok_iff.mp hpermission, fun sessionId heq => ?_⟩
    exact assertSessionAllowed_ok_iff.mp (assertSessionActive_ok_iff.mp (hsession sessionId heq)).1
  net _ _ _ _ _ _ _ _ _ _ _ hpermission _ _ :=
    ⟨assertPermission_ok_iff.mp hpermission, by simp [Deed.sessionId?]⟩
  bound _ _ _ _ _ _ _ _ := id
  owned _ _ _ _ := id
  keptSealed _ _ := id

section Sessions

variable (m : PluginManifest) (sessionId : String)

/-- The plugin is not activated for the session, and its id stands for no other manifest. -/
def Inactive (w : CapabilityWorld) (a : CapabilityAct) : Prop :=
  (isHookActive m (w.st.activation m.id) (some sessionId) = false) ∧
    match a with
    | .event _ (.call m' _ _) => m'.id = m.id → m' = m
    | _ => True

instance (w : CapabilityWorld) (a : CapabilityAct) : Decidable (Inactive m sessionId w a) :=
  match a with
  | .event _ (.call ..) => inferInstanceAs (Decidable (_ ∧ (_ → _)))
  | .event _ (.activate ..) | .event _ (.engine ..) | .event _ (.session ..)
  | .event _ (.provision ..) | .event _ (.learn _) | .turn .. =>
    inferInstanceAs (Decidable (_ ∧ True))

def inactiveScope (rt : Runtime) : Scope rt where
  ok := Inactive m sessionId
  calls m' := m'.id = m.id → m' = m
  may m' deed := ¬(m' = m ∧ deed.sessionId? = some sessionId)
  sealedRow p s := p = m.id ∧ s = sessionId
  keptRow _ _ := False
  call _ _ _ _ _ hok := hok.2
  gate w _ _ _ hok _ _ hsession _ := by
    rintro ⟨rfl, heq⟩
    have hactive := (assertSessionActive_ok_iff.mp (hsession sessionId heq)).2
    rw [hok.1] at hactive
    contradiction
  net _ _ _ _ _ _ _ _ _ _ _ _ _ _ := by simp [Deed.sessionId?]
  bound w _ m' _ hok hcalls _ hactive := by
    rintro ⟨hid, rfl⟩
    obtain rfl := hcalls hid
    have hactive := (assertSessionActive_ok_iff.mp hactive).2
    rw [hok.1] at hactive
    contradiction
  owned _ _ _ _ := id
  keptSealed _ _ := False.elim

end Sessions

section Mappings

variable (pluginId : String)

/-- Calls under the id of the plugin come without the permission for conversations. -/
def Foreign (_w : CapabilityWorld) (a : CapabilityAct) : Prop :=
  match a with
  | .event _ (.call m _ _) =>
    m.id = pluginId → Permission.conversationSend.name ∉ m.permissions.getD []
  | _ => True

instance (w : CapabilityWorld) (a : CapabilityAct) : Decidable (Foreign pluginId w a) :=
  match a with
  | .event _ (.call ..) => inferInstanceAs (Decidable (_ → _))
  | .event _ (.activate ..) | .event _ (.engine ..) | .event _ (.session ..)
  | .event _ (.provision ..) | .event _ (.learn _) | .turn .. => inferInstanceAs (Decidable True)

def foreignScope (rt : Runtime) : Scope rt where
  ok := Foreign pluginId
  calls m := m.id = pluginId → Permission.conversationSend.name ∉ m.permissions.getD []
  may _ _ := True
  sealedRow p _ := p = pluginId
  keptRow p _ := p = pluginId
  call _ _ _ _ _ hok := hok
  gate _ _ _ _ _ _ _ _ _ := trivial
  net _ _ _ _ _ _ _ _ _ _ _ _ _ _ := trivial
  bound _ _ _ _ _ hcalls hpermission _ hid := hcalls hid (assertPermission_ok_iff.mp hpermission)
  owned _ _ hcalls hpermission hid := hcalls hid (assertPermission_ok_iff.mp hpermission)
  keptSealed _ _ := id

/--
The conversation mappings of a plugin are its own: calls of other plugins, and calls that lack the
permission, neither add one nor change or remove one, whatever ids they hold while rows come and go.
-/
theorem mappings_of_reach (hkeyed : Host.Keyed init.st) (hpool : init.pool = [])
    (h : (capabilitySystem rt).Reach (Foreign pluginId) init c) (row : ConversationMapping)
    (hrow : row.key.pluginId = pluginId) : row ∈ c.st.mappings ↔ row ∈ init.st.mappings := by
  have hmoves := Scope.moves_of_reach (foreignScope pluginId rt) hkeyed hpool h
  exact ⟨fun hmem => hmoves.sealedRows row hmem hrow, fun hmem => hmoves.keptRows row hmem hrow⟩

end Mappings

theorem mappings_of_reach_sample : ∃ c,
    (capabilitySystem sampleRuntime).Reach (Foreign "bot") sampleConfig c ∧
    labels c = sampleLabels ∧ foreignRow ∈ c.st.mappings := by
  have hrun : ((capabilitySystem sampleRuntime).exec (Foreign "bot") sampleConfig sampleMoves).map
      labels = some sampleLabels := by decide +kernel
  rcases System.reach_of_exec_map hrun with ⟨c, hreach, hlabels⟩
  refine ⟨c, hreach, hlabels, ?_⟩
  rw [mappings_of_reach "bot" keyed_sampleHost rfl hreach foreignRow rfl]
  simp [sampleConfig, sampleHost]

/-! ### Outbound requests -/

section Net

variable {m : PluginManifest} {configs : List Fields} {entry : String}

/-- The host of a URL that an operator put into the config under a key the manifest names. -/
def Named (rt : Runtime) (m : PluginManifest) (config : Fields) (entry : String) : Prop :=
  ∃ key ∈ (m.net.bind (·.allowConfigHosts)).getD [], ∃ raw u,
    config.get? key = some (.string raw) ∧ rt.parseUrl raw = some u ∧ u.protocol = "https:" ∧
    u.username = "" ∧ u.password = "" ∧ '*' ∉ u.hostname.toList ∧ u.host = entry

theorem configHost_eq_some {value : Option Json} (h : configHost rt value = some entry) :
    ∃ raw u, value = some (.string raw) ∧ rt.parseUrl raw = some u ∧ u.protocol = "https:" ∧
      u.username = "" ∧ u.password = "" ∧ '*' ∉ u.hostname.toList ∧ u.host = entry := by
  unfold configHost at h
  split at h
  . next raw =>
    split at h
    . next u hu =>
      split at h
      . contradiction
      . next hplain =>
        split at h
        . contradiction
        . next hstar =>
          simp only [ne_eq, Bool.or_eq_true, decide_eq_true_eq, not_or, not_not] at hplain
          refine ⟨raw, u, rfl, hu, hplain.1.1, hplain.1.2, hplain.2, ?_, Option.some.inj h⟩
          simpa using hstar
    . contradiction
  . contradiction

/-- An entry of the allowlist is the manifest's or named by a config. -/
theorem mem_netAllow (h : entry ∈ netAllow rt m configs) :
    entry ∈ (m.net.bind (·.allow)).getD [] ∨ ∃ config ∈ configs, Named rt m config entry := by
  unfold netAllow at h
  rw [List.mem_eraseDups, List.mem_flatMap] at h
  rcases h with ⟨config, hconfig, hentry⟩
  rcases List.mem_append.mp hentry with hallow | hnamed
  . exact .inl hallow
  . rcases List.mem_filterMap.mp hnamed with ⟨key, hkey, hhost⟩
    rcases configHost_eq_some hhost with ⟨raw, u, hraw, hu⟩
    exact .inr ⟨config, hconfig, key, hkey, raw, u, hraw, hu⟩

/-- A config never supplies the wildcard. -/
theorem Named.ne_star {config : Fields} (h : Named rt m config entry) : entry ≠ "*" := by
  rintro rfl
  rcases h with ⟨_, _, _, u, _, _, _, _, _, hstar, hhost⟩
  have hlist := congrArg String.toList hhost
  unfold Url.host at hlist
  split at hlist
  . exact hstar (by simp [hlist])
  . have hcolon : ':' ∈ "*".toList := by simp [← hlist]
    revert hcolon
    decide

/-- The port a URL leads to. -/
def Url.effectivePort (u : Url) : String :=
  if u.port ≠ "" then u.port else if u.protocol = "https:" then "443" else "80"

/-- The entries that admit a URL. -/
def Url.entries (u : Url) : List String :=
  ["*", u.hostname ++ ":" ++ u.effectivePort, u.hostname]

theorem isNetHostAllowed_iff {allow : List String} {url : String} :
    isNetHostAllowed rt allow url = true ↔
      ∃ u, rt.parseUrl url = some u ∧ (u.protocol = "http:" ∨ u.protocol = "https:") ∧
        ∃ entry ∈ u.entries, entry ∈ allow := by
  unfold isNetHostAllowed
  split
  . next hnone => simp [hnone]
  . next u hu =>
    simp only [hu, Option.some.injEq, exists_eq_left', Url.entries, Url.effectivePort,
      List.mem_cons, List.not_mem_nil, or_false, exists_eq_or_imp, exists_eq_left]
    split
    . next hprotocol =>
      simp only [ne_eq, Bool.and_eq_true, decide_eq_true_eq] at hprotocol
      simp [hprotocol.1, hprotocol.2]
    . next hprotocol =>
      have hhttp : u.protocol = "http:" ∨ u.protocol = "https:" := by
        simp only [ne_eq, Bool.and_eq_true, decide_eq_true_eq, not_and, not_not] at hprotocol
        by_cases h : u.protocol = "http:"
        . exact .inl h
        . exact .inr (hprotocol h)
      split
      . next hstar => simp [hhttp, List.contains_iff_mem.mp hstar]
      . next hstar =>
        have hnot : "*" ∉ allow := by simpa using hstar
        simp [hhttp, hnot]

variable (pluginId : String) (C : Fields → Prop)

/-- The configs of the plugin are among `C`. -/
def Configured (w : CapabilityWorld) (_a : CapabilityAct) : Prop :=
  ∀ config ∈ w.st.ownConfigs pluginId ++ w.st.instanceConfigs pluginId, C config

instance [DecidablePred C] (w : CapabilityWorld) (a : CapabilityAct) :
    Decidable (Configured pluginId C w a) :=
  inferInstanceAs (Decidable (∀ _ ∈ _, _))

/-- The URL is admitted by the manifest, or by the host of a config among `C`. -/
def Admitted (rt : Runtime) (m : PluginManifest) (url : String) : Prop :=
  ∃ u, rt.parseUrl url = some u ∧ (u.protocol = "http:" ∨ u.protocol = "https:") ∧
    ∃ entry ∈ u.entries, entry ∈ (m.net.bind (·.allow)).getD [] ∨
      entry ≠ "*" ∧ ∃ config, C config ∧ Named rt m config entry

def configuredScope (rt : Runtime) : Scope rt where
  ok := Configured pluginId C
  calls _ := True
  may m deed := m.id = pluginId → ∀ url init, deed = .fetch url init → Admitted C rt m url
  sealedRow _ _ := False
  keptRow _ _ := False
  call _ _ _ _ _ _ := trivial
  gate _ _ _ deed _ _ _ _ hnot := fun _ url init heq => absurd heq (hnot url init)
  net w _ w' _ m url init configs hok hok' _ _ hconfigs hhost := by
    rintro rfl _ _ ⟨⟩
    rcases isNetHostAllowed_iff.mp hhost with ⟨u, hu, hprotocol, entry, hentry, hallow⟩
    refine ⟨u, hu, hprotocol, entry, hentry, ?_⟩
    rcases mem_netAllow hallow with hmanifest | ⟨config, hconfig, hnamed⟩
    . exact .inl hmanifest
    . refine .inr ⟨hnamed.ne_star, config, ?_, hnamed⟩
      rcases List.mem_append.mp hconfig with hown | hinstance
      . exact hok config (List.mem_append_left _ hown)
      . exact hok' config (List.mem_append_right _ (hconfigs hinstance))
  bound _ _ _ _ _ _ _ _ := id
  owned _ _ _ _ := id
  keptSealed _ _ := id

/--
A request of a plugin goes to a host that its manifest lists, or that a config it had during the run
names under a key of the manifest; no config admits every host.
-/
theorem admitted_of_reach (hkeyed : Host.Keyed init.st) (hpool : init.pool = [])
    (h : (capabilitySystem rt).Reach (Configured pluginId C) init c) (e : Effect)
    (he : e ∈ c.st.effects) (hid : e.plugin.id = pluginId) (url : String) (request : Value)
    (hdeed : e.deed = .fetch url request) :
    e ∈ init.st.effects ∨ Admitted C rt e.plugin url := by
  have hmoves := Scope.moves_of_reach (configuredScope pluginId C rt) hkeyed hpool h
  rcases hmoves.effects e he with hold | hallowed
  . exact .inl hold
  . exact .inr (hallowed hid url request hdeed)

end Net

def baseConfig : Fields := .cons "baseUrl" (.string "https://desk.example/api") .nil

theorem admitted_of_reach_sample : ∃ c,
    (capabilitySystem sampleRuntime).Reach (Configured "desk" (· = baseConfig)) sampleConfig c ∧
    labels c = sampleLabels ∧
    ∀ e ∈ c.st.effects, e.plugin.id = "desk" → ∀ url request, e.deed = .fetch url request →
      Admitted (· = baseConfig) sampleRuntime e.plugin url := by
  have hrun : ((capabilitySystem sampleRuntime).exec (Configured "desk" (· = baseConfig))
      sampleConfig sampleMoves).map labels = some sampleLabels := by decide +kernel
  rcases System.reach_of_exec_map hrun with ⟨c, hreach, hlabels⟩
  refine ⟨c, hreach, hlabels, fun e he hid url request hdeed => ?_⟩
  have h := admitted_of_reach "desk" _ keyed_sampleHost rfl hreach e he hid url request hdeed
  simpa [sampleConfig, sampleHost] using h

end OpenWA.Capability
