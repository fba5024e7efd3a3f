import OpenWA.Async.Outline
import OpenWA.Capability.Isolation

/-!
This module contains the slots for the outbound requests of plugins: how many are in use, by which
calls, and that every call gives back what it took.
-/

namespace OpenWA.Capability

open Async Js

section Outline

variable (rt : Runtime)

/-- What holds of the slots between any two steps. -/
structure Slotted (w : CapabilityWorld) : Prop where
  count : w.st.inFlightFetches = w.hist.length
  bound : w.hist.length ≤ MAX_INFLIGHT_FETCHES
  nodup : w.hist.Nodup
  started : ∀ tid ∈ w.hist, tid < w.started

def slots : Outline (capabilitySystem rt) where
  ok := System.anyStep
  inv := Slotted
  rely i w w' := i ∈ w'.hist ↔ i ∈ w.hist
  chk _ _ _ := True
  post i _ w := i ∉ w.hist

/-- A call that holds no slot holds none when it is done. -/
def Balanced {α : Type} (t : Job α) : Prop :=
  ∀ i w, i ∉ w.hist →
    (slots rt).Safe i t w (fun _ w' => i ∉ w'.hist) (fun _ w' => i ∉ w'.hist)

end Outline

variable {rt : Runtime} {α β : Type} {i : Nat} {w : CapabilityWorld}

theorem Balanced.pure (a : α) : Balanced rt (.pure a : Job α) := fun _ _ h => h

theorem Balanced.throw (e : PluginError) : Balanced rt (.throw e : Job α) := fun _ _ h => h

theorem Balanced.bind {t : Job α} {k : α → Job β} (h : Balanced rt t)
    (hk : ∀ a, Balanced rt (k a)) : Balanced rt (t.bind k) :=
  fun i w hi => (h i w hi).seq (fun a w' hi' => hk a i w' hi') fun _ _ hi' => hi'

theorem Balanced.catch' {t : Job α} {k : PluginError → Job α} (h : Balanced rt t)
    (hk : ∀ e, Balanced rt (k e)) : Balanced rt (t.catch' k) :=
  fun i w hi => Outline.Safe.catch' ((h i w hi).mono (fun _ _ h => h) fun e w' hi' => hk e i w' hi')

section Slotted

variable {w' : CapabilityWorld}

theorem Slotted.same (h : Slotted w) (hhist : w'.hist = w.hist)
    (hcount : w'.st.inFlightFetches = w.st.inFlightFetches) (hstarted : w'.started = w.started) :
    Slotted w' where
  count := by rw [hcount, hhist, h.count]
  bound := hhist ▸ h.bound
  nodup := hhist ▸ h.nodup
  started := by
    rw [hhist, hstarted]
    exact h.started

theorem Slotted.take (h : Slotted w) (hfull : ¬w.st.inFlightFetches ≥ MAX_INFLIGHT_FETCHES)
    (hi : i ∉ w.hist) (hlt : i < w.started) (hhist : w'.hist = w.hist ++ [i])
    (hcount : w'.st.inFlightFetches = w.st.inFlightFetches + 1)
    (hstarted : w'.started = w.started) : Slotted w' where
  count := by simp [hcount, hhist, h.count]
  bound := by
    have := h.count
    rw [hhist, List.length_append, List.length_singleton]
    omega
  nodup := by
    rw [hhist, ← List.concat_eq_append]
    exact h.nodup.concat hi
  started := by
    rw [hhist, hstarted]
    intro tid htid
    rcases List.mem_append.mp htid with hold | hnew
    . exact h.started tid hold
    . rw [List.mem_singleton.mp hnew]
      exact hlt

theorem Slotted.release (h : Slotted w) (hi : i ∈ w.hist) (hhist : w'.hist = w.hist.erase i)
    (hcount : w'.st.inFlightFetches = w.st.inFlightFetches - 1)
    (hstarted : w'.started = w.started) : Slotted w' where
  count := by rw [hcount, hhist, h.count, List.length_erase_of_mem hi]
  bound := hhist ▸ Nat.le_trans List.erase_sublist.length_le h.bound
  nodup := hhist ▸ h.nodup.erase i
  started := by
    rw [hhist, hstarted]
    exact fun tid htid => h.started tid (List.mem_of_mem_erase htid)

theorem rely_of_mem_iff {j : Nat} (h : j ∈ w'.hist ↔ j ∈ w.hist) : (slots rt).rely j w w' := h

end Slotted

theorem hist_after {s : Host} {pt : Place} {x : Answer} (hpt : pt ≠ .takeSlot)
    (hpt' : pt ≠ .releaseSlot) :
    ((capabilitySystem rt).after w (.turn i pt x) s).hist = w.hist := by
  cases pt <;> first | rfl | contradiction

/-- A turn that leaves the slots alone. -/
theorem safe_turn {pt : Place} {f : Answer → Host → Host × Checked α} (hpt : pt ≠ .takeSlot)
    (hpt' : pt ≠ .releaseSlot) (hf : ∀ x s, (f x s).1.inFlightFetches = s.inFlightFetches) :
    (slots rt).Safe i (.atomic pt f) w (fun _ w' => i ∈ w'.hist ↔ i ∈ w.hist)
      (fun _ w' => i ∈ w'.hist ↔ i ∈ w.hist) := by
  apply Outline.safe_atomic
  intro w' x hrely hinv _ _
  have hhist : ((capabilitySystem rt).after w' (.turn i pt x) (f x w'.st).1).hist = w'.hist :=
    hist_after hpt hpt'
  refine ⟨⟨trivial, hinv.same hhist (hf x w'.st) rfl, fun j _ _ => ?_⟩, ?_⟩
  . apply rely_of_mem_iff
    rw [hhist]
  have hsame : i ∈ ((capabilitySystem rt).after w' (.turn i pt x) (f x w'.st).1).hist ↔
      i ∈ w.hist := by
    rw [hhist]
    exact hrely
  exact Outline.safe_ofExcept (fun _ _ => hsame) fun _ _ => hsame

theorem balanced_turn {pt : Place} {f : Answer → Host → Host × Checked α} (hpt : pt ≠ .takeSlot)
    (hpt' : pt ≠ .releaseSlot) (hf : ∀ x s, (f x s).1.inFlightFetches = s.inFlightFetches) :
    Balanced rt (.atomic pt f) :=
  fun _ _ hi => (safe_turn hpt hpt' hf).mono (fun _ _ h => mt h.mp hi) fun _ _ h => mt h.mp hi

theorem balanced_memory (f : Host → Checked α) : Balanced rt (memory f) :=
  balanced_turn (by simp) (by simp) fun _ _ => rfl

theorem safe_settle : (slots rt).Safe i settle w (fun _ w' => i ∈ w'.hist ↔ i ∈ w.hist)
    (fun _ w' => i ∈ w'.hist ↔ i ∈ w.hist) := by
  apply safe_turn (by simp) (by simp)
  intro x s
  cases x <;> rfl

theorem balanced_settle : Balanced rt settle :=
  fun _ _ hi => safe_settle.mono (fun _ _ h => mt h.mp hi) fun _ _ h => mt h.mp hi

theorem balanced_issue (check : Host → Checked Effect) : Balanced rt (issue check) := by
  apply balanced_turn (by simp) (by simp)
  intro x s
  split <;> rfl

theorem balanced_query {f : Host → Host × Checked α}
    (hf : ∀ s, (f s).1.inFlightFetches = s.inFlightFetches) : Balanced rt (query f) := by
  apply balanced_turn (by simp) (by simp)
  intro x s
  cases x with
  | done value => exact hf s
  | fault message => rfl

/-- The slot is given back in `finally`. -/
theorem safe_releaseSlot (hi : i ∈ w.hist) :
    (slots rt).Safe i (.atomic .releaseSlot fun _ s =>
      ({ s with inFlightFetches := s.inFlightFetches - 1 }, .ok ())) w
      (fun _ w' => i ∉ w'.hist) (fun _ w' => i ∉ w'.hist) := by
  apply Outline.safe_atomic
  intro w' x hrely hinv _ _
  have hmem : i ∈ w'.hist := hrely.mpr hi
  refine ⟨⟨trivial, hinv.release hmem rfl rfl rfl, fun j _ hne => ?_⟩, ?_⟩
  . exact rely_of_mem_iff (List.mem_erase_of_ne hne)
  . exact hinv.nodup.not_mem_erase

theorem balanced_performPluginFetch (m : PluginManifest) (url : String) (init : Value) :
    Balanced rt (performPluginFetch m url init) := by
  intro i w hi
  apply Outline.Safe.bind
  apply Outline.safe_atomic
  intro w' x hrely hinv hlt _
  have hi' : i ∉ w'.hist := mt hrely.mp hi
  by_cases hfull : w'.st.inFlightFetches ≥ MAX_INFLIGHT_FETCHES
  . have hhist (s : Host) :
        ((capabilitySystem rt).after w' (.turn i .takeSlot x) s).hist = w'.hist := if_pos hfull
    simp only [hfull, if_true]
    refine ⟨⟨trivial, hinv.same (hhist _) rfl rfl, fun j _ _ => ?_⟩, ?_⟩
    . apply rely_of_mem_iff
      rw [hhist]
    . simpa only [Task.ofExcept_error, Outline.safe_throw, hhist] using hi'
  . have hhist (s : Host) :
        ((capabilitySystem rt).after w' (.turn i .takeSlot x) s).hist = w'.hist ++ [i] :=
      if_neg hfull
    simp only [hfull, if_false]
    refine ⟨⟨trivial, hinv.take hfull hi' hlt (hhist _) rfl rfl, fun j _ hne => ?_⟩, ?_⟩
    . apply rely_of_mem_iff
      rw [hhist]
      simp [hne]
    . apply Outline.Safe.andFinally
      have hheld (s : Host) :
          i ∈ ((capabilitySystem rt).after w' (.turn i .takeSlot x) s).hist := by
        rw [hhist]
        simp
      apply safe_settle.mono
      . intro _ w₁ hsame
        exact safe_releaseSlot (hsame.mpr (hheld _))
      . intro _ w₁ hsame
        exact safe_releaseSlot (hsame.mpr (hheld _))

/-! ### The capabilities -/

theorem balanced_guarded (check : Host → Checked Unit) (effect : Effect) :
    Balanced rt (guarded check effect) :=
  (balanced_issue _).bind fun _ => balanced_settle

theorem balanced_netCapability (m : PluginManifest) (url : String) (init : Value) :
    Balanced rt (netCapability rt m url init) := by
  apply (balanced_memory _).bind
  intro own
  have hinstances : Balanced rt (enabledInstanceConfigs m.id) :=
    (balanced_query fun _ => rfl).catch' fun _ => .pure _
  apply hinstances.bind
  intro instances
  split
  . exact .throw _
  . exact balanced_performPluginFetch m url init

theorem balanced_updateRow (id : Nat) (patch : ConversationMapping → ConversationMapping) :
    Balanced rt (updateRow id patch) := by
  apply balanced_query
  intro s
  split
  . rfl
  . split <;> rfl

theorem balanced_updateById (id : Nat) (key : MappingKey) (providerConversationId : String) :
    Balanced rt (updateById id key providerConversationId) := by
  apply (balanced_updateRow _ _).catch'
  intro e
  split <;> exact .throw _

theorem balanced_findOne (p : ConversationMapping → Bool) : Balanced rt (findOne p) :=
  balanced_query fun _ => rfl

theorem balanced_upsert (key : MappingKey) (providerConversationId : String) :
    Balanced rt (upsert key providerConversationId) := by
  apply (balanced_findOne _).bind
  intro found
  cases found with
  | some existing => exact balanced_updateById _ _ _
  | none =>
    have hsave : Balanced rt (save key providerConversationId) := by
      apply balanced_query
      intro s
      dsimp only
      split <;> rfl
    apply hsave.catch'
    intro e
    split
    . exact .throw _
    apply (balanced_findOne _).bind
    intro found
    cases found with
    | some raced => exact balanced_updateById _ _ _
    | none => exact .throw _

theorem balanced_isSessionGone (sessionId : String) : Balanced rt (isSessionGone sessionId) := by
  have hquery : Balanced rt (query fun s =>
      if s.sessions sessionId then (s, .ok false) else (s, .error .notFound)) := by
    apply balanced_query
    intro s
    split <;> rfl
  exact hquery.catch' fun _ => .pure _

theorem balanced_rebindSession (id : Nat) (sessionId : String) :
    Balanced rt (rebindSession id sessionId) := by
  apply (balanced_updateRow _ _).catch'
  intro e
  split
  . exact .throw _
  . exact balanced_query fun _ => rfl

theorem balanced_chatIdOf (m : PluginManifest) (env : Envelope) (sessionId : String) :
    Balanced rt (chatIdOf m env sessionId) := by
  unfold chatIdOf resolveChatId
  split
  . exact .pure _
  split
  . apply (balanced_findOne _).bind
    intro found
    cases found with
    | none => exact .throw _
    | some mapping =>
      dsimp only
      split
      . apply (balanced_isSessionGone _).bind
        intro gone
        split
        . exact (balanced_rebindSession _ _).bind fun _ => .pure _
        . exact .throw _
      . exact .pure _
  . exact .throw _

theorem balanced_conversationSend (m : PluginManifest) (env : Option Envelope) :
    Balanced rt (conversationSend m env) := by
  apply (balanced_memory _).bind
  rintro ⟨env, sessionId⟩
  apply (balanced_chatIdOf m env sessionId).bind
  intro chatId
  exact (balanced_issue _).bind fun _ => balanced_settle

theorem balanced_handoverSet (m : PluginManifest) (key : PluginKey) (state : Value) :
    Balanced rt (handoverSet m key state) := by
  apply (balanced_memory _).bind
  intro _
  apply (balanced_findOne _).bind
  intro found
  cases found with
  | none => exact .throw _
  | some mapping => exact (balanced_updateRow _ _).bind fun _ => .pure _

theorem balanced_mappingsUpsert (m : PluginManifest) (key : PluginKey)
    (providerConversationId : String) :
    Balanced rt (mappingsUpsert m key providerConversationId) := by
  apply (balanced_memory _).bind
  intro _
  refine (Balanced.catch' (balanced_upsert _ _) fun e => ?_).bind fun _ => .pure _
  split
  . apply (balanced_findOne _).bind
    intro found
    cases found with
    | none => exact .throw _
    | some stale =>
      apply (balanced_isSessionGone _).bind
      intro gone
      split
      . exact (balanced_query fun _ => rfl).bind fun _ => balanced_upsert _ _
      . exact .throw _
  . exact .throw _

theorem balanced_tell (m : PluginManifest) (check : Host → Checked Unit)
    (mapping : ConversationMapping) (view : Value) : Balanced rt (tell m check mapping view) :=
  (balanced_issue _).bind fun _ => .pure _

theorem balanced_mappingsGet (m : PluginManifest) (key : PluginKey) :
    Balanced rt (mappingsGet m key) := by
  apply (balanced_memory _).bind
  intro _
  apply (balanced_findOne _).bind
  intro found
  cases found with
  | none => exact .pure _
  | some mapping => exact balanced_tell _ _ _ _

theorem balanced_mappingsGetByProvider (m : PluginManifest)
    (instanceId providerConversationId : String) :
    Balanced rt (mappingsGetByProvider m instanceId providerConversationId) := by
  apply (balanced_memory _).bind
  intro _
  apply (balanced_findOne _).bind
  intro found
  cases found with
  | none => exact .pure _
  | some mapping => exact balanced_tell _ _ _ _

theorem balanced_dispatchCapabilityVerb (m : PluginManifest) (verb : String) (args : List Value) :
    Balanced rt (dispatchCapabilityVerb rt m verb args) := by
  apply EachCapability.dispatch (P := Balanced rt) _ .throw
  exact {
    message := fun _ _ => balanced_guarded _ _
    engine := fun _ _ => balanced_guarded _ _
    canonical := fun _ _ => (balanced_issue _).bind fun _ => balanced_memory _
    storage := fun _ => balanced_guarded _ _
    net := balanced_netCapability m
    send := balanced_conversationSend m
    handover := balanced_handoverSet m
    upsert := balanced_mappingsUpsert m
    get := balanced_mappingsGet m
    getByProvider := balanced_mappingsGetByProvider m
  }

/-! ### Runs -/

theorem valid_slots : (slots rt).Valid where
  refl _ _ := Iff.rfl
  trans _ _ _ _ h h' := h'.trans h
  event w event s t hinv hok hevent := by
    simp only [capabilitySystem, Option.some.injEq] at hevent
    have hnot : w.started ∉ w.hist := fun hmem => Nat.lt_irrefl _ (hinv.started _ hmem)
    have hkeeps (hcount : s.inFlightFetches = w.st.inFlightFetches) :
        (slots rt).Keeps w.started w (.event w.started event) s := by
      refine ⟨trivial, ?_, fun _ _ _ => Iff.rfl⟩
      exact ⟨hcount.trans hinv.count, hinv.bound, hinv.nodup,
        fun tid htid => Nat.lt_succ_of_lt (hinv.started tid htid)⟩
    cases event with
    | call m verb args =>
      cases hevent
      exact ⟨hkeeps rfl, Balanced.bind (balanced_dispatchCapabilityVerb m verb args)
        (fun _ => .pure _) _ _ hnot⟩
    | activate | engine | session | provision | learn =>
      cases hevent
      exact ⟨hkeeps rfl, hnot⟩

end OpenWA.Capability
