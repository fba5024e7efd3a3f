import OpenWA.Events.EventsGateway

/-!
This module contains the sweep over the live sockets: what it leaves connected was granted under the
rows that it has read.
-/

namespace OpenWA.Events

open Js Async Auth Gateway

section Sockets

variable {c : Socket}

/-- What holds of the variables of each socket. -/
structure Sound (c : Socket) : Prop where
  granted : c.authorizationDiverged = false → ∀ p ∈ c.grants, snapshotFingerprint c = some p.2
  qr : c.authorizationDiverged = false → c.grants ≠ [] → ∀ key, c.apiKey = some key →
    qrAllowed key.role = false → qrDeniedRoom ∈ c.rooms
  held : ∀ room ∈ c.rooms, room ≠ qrDeniedRoom → ∃ p ∈ c.grants, p.1 = room
  pending : ∀ rawApiKey validation, c.handshake = .validating rawApiKey validation → c.apiKey = none

/-- A change of a socket that neither touches its snapshot nor connects it again. -/
structure Tame (f : Socket → Socket) : Prop where
  apiKey : ∀ c, (f c).apiKey = c.apiKey
  connected : ∀ c, (f c).disconnected = false → c.disconnected = false
  sound : ∀ c, Sound c → Sound (f c)

theorem Tame.comp {f f' : Socket → Socket} (h : Tame f) (h' : Tame f') : Tame fun c => f' (f c) where
  apiKey c := (h'.apiKey _).trans (h.apiKey c)
  connected c hc := h.connected c (h'.connected _ hc)
  sound c hc := h'.sound _ (h.sound c hc)

theorem tame_emit (frame : Frame) : Tame fun c => { c with frames := c.frames ++ [frame] } where
  apiKey _ := rfl
  connected _ h := h
  sound _ h := ⟨h.granted, h.qr, h.held, h.pending⟩

theorem tame_disconnect : Tame fun c => { c with disconnected := true, rooms := [], grants := [] } where
  apiKey _ := rfl
  connected _ h := by simp at h
  sound _ h := ⟨fun _ p hp => by simp at hp, fun _ hne => absurd rfl hne,
    fun room hroom => by simp at hroom, h.pending⟩

theorem tame_leave (room : Text) (hroom : room ≠ qrDeniedRoom) : Tame (leave · room) where
  apiKey _ := rfl
  connected _ h := h
  sound c h := by
    refine ⟨?_, ?_, ?_, h.pending⟩
    . exact fun hdiverged p hp => h.granted hdiverged p (List.mem_of_mem_filter hp)
    . intro hdiverged hne key hkey hrole
      have hne' : c.grants ≠ [] := fun hnil => hne (by simp [leave, hnil])
      have hmem := h.qr hdiverged hne' key hkey hrole
      simpa [leave] using ⟨hmem, hroom.symm⟩
    . intro r hr hne
      simp only [leave, List.mem_filter, decide_eq_true_eq] at hr ⊢
      rcases h.held r hr.1 hne with ⟨p, hp, hroom⟩
      exact ⟨p, ⟨hp, hroom ▸ hr.2⟩, hroom⟩

theorem tame_foldl_leave (rooms : List Text) (hrooms : qrDeniedRoom ∉ rooms) :
    Tame fun c => rooms.foldl leave c := by
  induction rooms with
  | nil => exact ⟨fun _ => rfl, fun _ h => h, fun _ h => h⟩
  | cons room rooms ih =>
    rw [List.mem_cons, not_or] at hrooms
    exact (tame_leave room (Ne.symm hrooms.1)).comp (ih hrooms.2)

theorem mem_join {room r : Text} : r ∈ (join c room).rooms ↔ r ∈ c.rooms ∨ r = room := by
  unfold join
  dsimp only
  split
  . next hmem =>
    constructor
    . exact .inl
    . rintro (h | rfl)
      . exact h
      . exact hmem
  . simp

/-- A socket in the middle of a subscribe that is authorized by `fingerprint`. -/
structure Subscribing (fingerprint : Fingerprint) (c : Socket) : Prop where
  sound : Sound c
  same : c.authorizationDiverged = false → snapshotFingerprint c = some fingerprint
  qr : c.authorizationDiverged = false → ∀ key, c.apiKey = some key → qrAllowed key.role = false →
    qrDeniedRoom ∈ c.rooms

theorem Subscribing.grant {fingerprint : Fingerprint} (h : Subscribing fingerprint c) (room : Text) :
    Subscribing fingerprint (grant fingerprint c room) where
  sound := by
    refine ⟨?_, ?_, ?_, h.sound.pending⟩
    . intro hdiverged p hp
      simp only [Gateway.grant, join, List.mem_append, List.mem_singleton] at hp
      rcases hp with hp | rfl
      . exact h.sound.granted hdiverged p hp
      . exact h.same hdiverged
    . intro hdiverged _ key hkey hrole
      exact mem_join.mpr (.inl (h.qr hdiverged key hkey hrole))
    . intro r hr hne
      have hr' : r ∈ (join c room).rooms := hr
      simp only [Gateway.grant, join, List.mem_append, List.mem_singleton]
      rcases mem_join.mp hr' with hr' | rfl
      . rcases h.sound.held r hr' hne with ⟨p, hp, hroom⟩
        exact ⟨p, .inl hp, hroom⟩
      . exact ⟨_, .inr rfl, rfl⟩
  same := h.same
  qr := fun hdiverged key hkey hrole => mem_join.mpr (.inl (h.qr hdiverged key hkey hrole))

/-- What a subscribe does to its socket before the scope is looked at. -/
def recordAccess (key : ApiKey) (c : Socket) : Socket :=
  syncQrAccess
    (if snapshotFingerprint c ≠ some (apiKeyAuthorizationFingerprint key) then
      { c with authorizationDiverged := true }
    else c) key.role

theorem apiKey_syncQrAccess (c : Socket) (role : ApiKeyRole) :
    (syncQrAccess c role).apiKey = c.apiKey ∧ (syncQrAccess c role).disconnected = c.disconnected ∧
      (syncQrAccess c role).authorizationDiverged = c.authorizationDiverged ∧
      (syncQrAccess c role).handshake = c.handshake := by
  unfold syncQrAccess
  split <;> exact ⟨rfl, rfl, rfl, rfl⟩

theorem subscribing_recordAccess (key : ApiKey) (h : Sound c) :
    Subscribing (apiKeyAuthorizationFingerprint key) (recordAccess key c) := by
  unfold recordAccess
  generalize hc : (if snapshotFingerprint c ≠ some (apiKeyAuthorizationFingerprint key) then
    { c with authorizationDiverged := true } else c) = c₁
  have hsame : c₁.authorizationDiverged = false →
      snapshotFingerprint c₁ = some (apiKeyAuthorizationFingerprint key) := by
    intro hdiverged
    subst hc
    split at hdiverged
    . simp at hdiverged
    . next heq =>
      rw [if_neg heq]
      exact not_not.mp heq
  have hsound : Sound c₁ := by
    subst hc
    split
    . exact ⟨fun hdiverged => by simp at hdiverged, fun hdiverged => by simp at hdiverged, h.held,
        h.pending⟩
    . exact h
  have hrole : c₁.authorizationDiverged = false → ∀ snapshot, c₁.apiKey = some snapshot →
      snapshot.role = key.role := by
    intro hdiverged snapshot hsnapshot
    have := hsame hdiverged
    unfold snapshotFingerprint at this
    rw [hsnapshot, Option.map_some, Option.some.injEq] at this
    exact congrArg Fingerprint.role this
  rcases apiKey_syncQrAccess c₁ key.role with ⟨hkey, -, hdiverge, hhandshake⟩
  have hqr : (syncQrAccess c₁ key.role).authorizationDiverged = false → ∀ snapshot,
      (syncQrAccess c₁ key.role).apiKey = some snapshot → qrAllowed snapshot.role = false →
      qrDeniedRoom ∈ (syncQrAccess c₁ key.role).rooms := by
    intro hdiverged snapshot hsnapshot hdenied
    rw [hdiverge] at hdiverged
    rw [hkey] at hsnapshot
    rw [hrole hdiverged snapshot hsnapshot] at hdenied
    unfold syncQrAccess
    rw [hdenied]
    exact mem_join.mpr (.inr rfl)
  have hfingerprint : snapshotFingerprint (syncQrAccess c₁ key.role) = snapshotFingerprint c₁ := by
    unfold snapshotFingerprint
    rw [hkey]
  refine ⟨⟨?_, fun hdiverged _ => hqr hdiverged, ?_, ?_⟩, ?_, hqr⟩
  . intro hdiverged p hp
    rw [hfingerprint]
    rw [hdiverge] at hdiverged
    apply hsound.granted hdiverged p
    unfold syncQrAccess at hp
    split at hp
    . exact List.mem_of_mem_filter hp
    . exact hp
  . intro room hroom hne
    unfold syncQrAccess at hroom ⊢
    split at hroom
    . simp only [leave, List.mem_filter, decide_eq_true_eq] at hroom
      rcases hsound.held room hroom.1 hne with ⟨p, hp, heq⟩
      refine ⟨p, ?_, heq⟩
      next hallowed =>
        simp only [hallowed, if_true, leave, List.mem_filter, decide_eq_true_eq]
        exact ⟨hp, heq ▸ hne⟩
    . next hallowed =>
      simp only [hallowed, Bool.false_eq_true, if_false]
      rcases mem_join.mp hroom with hroom | hroom
      . exact hsound.held room hroom hne
      . exact absurd hroom hne
  . intro rawApiKey validation hvalidating
    rw [hkey]
    rw [hhandshake] at hvalidating
    exact hsound.pending rawApiKey validation hvalidating
  . intro hdiverged
    rw [hfingerprint]
    exact hsame (hdiverge ▸ hdiverged)

theorem tame_recordAccess (key : ApiKey) : Tame (recordAccess key) where
  apiKey c := by
    unfold recordAccess
    rw [(apiKey_syncQrAccess _ _).1]
    split <;> rfl
  connected c h := by
    unfold recordAccess at h
    rw [(apiKey_syncQrAccess _ _).2.1] at h
    split at h <;> exact h
  sound _ h := (subscribing_recordAccess key h).sound

theorem tame_subscribe (key : ApiKey) (rooms : List Text) :
    Tame fun c => rooms.foldl (grant (apiKeyAuthorizationFingerprint key)) (recordAccess key c) := by
  have hfields : ∀ c : Socket,
      (rooms.foldl (grant (apiKeyAuthorizationFingerprint key)) c).apiKey = c.apiKey ∧
        (rooms.foldl (grant (apiKeyAuthorizationFingerprint key)) c).disconnected =
          c.disconnected := by
    induction rooms with
    | nil => exact fun c => ⟨rfl, rfl⟩
    | cons room rooms ih => exact fun c => ih (grant _ c room)
  have hsubscribing : ∀ c, Subscribing (apiKeyAuthorizationFingerprint key) c →
      Subscribing (apiKeyAuthorizationFingerprint key)
        (rooms.foldl (grant (apiKeyAuthorizationFingerprint key)) c) := by
    clear hfields
    induction rooms with
    | nil => exact fun c h => h
    | cons room rooms ih => exact fun c h => ih _ (h.grant room)
  refine ⟨fun c => ?_, fun c h => ?_, fun c h => ?_⟩
  . rw [(hfields _).1, (tame_recordAccess key).apiKey]
  . rw [(hfields _).2] at h
    exact (tame_recordAccess key).connected c h
  . exact (hsubscribing _ (subscribing_recordAccess key h)).sound

end Sockets

section Gateways

/-- The socket `i` has shown the key with this id. -/
def ShownBy (g : Gateway) (keyId : Text) (i : Nat) : Prop :=
  ∃ c key, g.sockets[i]? = some c ∧ c.apiKey = some key ∧ key.id = keyId

/-- The tracked sockets are the ones that have shown the key, and all of these that are connected. -/
structure Inv (g : Gateway) : Prop where
  sound : ∀ (i : Nat) c, g.sockets[i]? = some c → Sound c
  tracked : ∀ keyId, ∀ i ∈ g.socketsOf keyId, ShownBy g keyId i
  complete : ∀ (i : Nat) c key, g.sockets[i]? = some c → c.apiKey = some key → c.disconnected = false →
    i ∈ g.socketsOf key.id
  reads : ∀ now keyIds read, .sweeping now keyIds (some read) ∈ g.tasks → ∀ keyId,
    ∀ i ∈ (read.tracked.get? keyId).getD [], ShownBy g keyId i

variable {g g' : Gateway} {i client : Nat} {f : Socket → Socket} {keyId : Text}

theorem getElem?_modify (g : Gateway) (client : Nat) (f : Socket → Socket) (i : Nat) :
    (g.modify client f).sockets[i]? = (g.sockets[i]?).map fun c => if client = i then f c else c := by
  unfold Gateway.modify
  rw [List.getElem?_modify]
  rfl

theorem ShownBy.modify (h : ShownBy g keyId i) (hf : ∀ c, (f c).apiKey = c.apiKey) :
    ShownBy (g.modify client f) keyId i := by
  rcases h with ⟨c, key, hget, hkey, hid⟩
  refine ⟨if client = i then f c else c, key, by rw [getElem?_modify, hget]; rfl, ?_, hid⟩
  split
  . exact (hf c).trans hkey
  . exact hkey

theorem Inv.modify (hi : Inv g) (hf : Tame f) : Inv (g.modify client f) where
  sound i c hget := by
    rw [getElem?_modify, Option.map_eq_some_iff] at hget
    rcases hget with ⟨c, hget, rfl⟩
    split
    . exact hf.sound c (hi.sound i c hget)
    . exact hi.sound i c hget
  tracked keyId i hmem := (hi.tracked keyId i hmem).modify hf.apiKey
  complete i c key hget hkey hconnected := by
    rw [getElem?_modify, Option.map_eq_some_iff] at hget
    rcases hget with ⟨c, hget, rfl⟩
    by_cases heq : client = i
    . rw [if_pos heq] at hkey hconnected
      rw [hf.apiKey] at hkey
      exact hi.complete i c key hget hkey (hf.connected c hconnected)
    . rw [if_neg heq] at hkey hconnected
      exact hi.complete i c key hget hkey hconnected
  reads now keyIds read hmem keyId i hi' := (hi.reads now keyIds read hmem keyId i hi').modify hf.apiKey

theorem Inv.emit (hi : Inv g) (client : Nat) (frame : Frame) : Inv (g.emit client frame) :=
  hi.modify (tame_emit frame)

theorem Inv.disconnect (hi : Inv g) (client : Nat) : Inv (g.disconnect client) :=
  hi.modify tame_disconnect

theorem Inv.reply (hi : Inv g) (client : Nat) (frame : Frame) : Inv (g.reply client frame) := by
  unfold Gateway.reply
  split
  . exact hi
  . exact hi.emit client frame

theorem Inv.reject (hi : Inv g) (client : Nat) (frame : Frame) : Inv (g.reject client frame) :=
  (hi.emit client frame).disconnect client

theorem Inv.same (hi : Inv g) (hsockets : g'.sockets = g.sockets)
    (htracked : g'.socketsByKeyId = g.socketsByKeyId) (htasks : g'.tasks = g.tasks) : Inv g' := by
  have hshown : ∀ keyId i, ShownBy g keyId i → ShownBy g' keyId i := by
    unfold ShownBy
    rw [hsockets]
    exact fun _ _ h => h
  have hof : ∀ keyId, g'.socketsOf keyId = g.socketsOf keyId := by
    unfold socketsOf
    rw [htracked]
    exact fun _ => rfl
  refine ⟨?_, ?_, ?_, ?_⟩
  . rw [hsockets]
    exact hi.sound
  . intro keyId i hmem
    rw [hof] at hmem
    exact hshown keyId i (hi.tracked keyId i hmem)
  . intro i c key
    rw [hof, hsockets]
    exact hi.complete i c key
  . intro now keyIds read hmem keyId i hi'
    rw [htasks] at hmem
    exact hshown keyId i (hi.reads now keyIds read hmem keyId i hi')

theorem Inv.tasks (hi : Inv g) {tasks : List Task}
    (htasks : ∀ now keyIds read, .sweeping now keyIds (some read) ∈ tasks →
      .sweeping now keyIds (some read) ∈ g.tasks) : Inv { g with tasks } :=
  ⟨hi.sound, hi.tracked, hi.complete, fun now keyIds read hmem =>
    hi.reads now keyIds read (htasks now keyIds read hmem)⟩

theorem Inv.untrackSocket (hi : Inv g) {c : Socket} (hget : g.sockets[client]? = some c)
    (hdisconnected : c.disconnected = true) : Inv (g.untrackSocket client) := by
  unfold Gateway.untrackSocket
  rw [hget, Option.bind_some]
  split
  . exact hi
  . next key hkey =>
    split
    . exact hi
    . next sockets hsockets =>
      -- the set of the key without the socket
      have hset : ∀ sockets' : Map Text (List Nat),
          (∀ keyId, (sockets'.get? keyId).getD [] =
            if keyId = key.id then sockets.filter (· ≠ client) else g.socketsOf keyId) →
          Inv { g with socketsByKeyId := sockets' } := by
        intro sockets' hof
        have hold : g.socketsOf key.id = sockets := by rw [socketsOf, hsockets, Option.getD_some]
        refine ⟨hi.sound, ?_, ?_, hi.reads⟩
        . intro keyId i hmem
          unfold socketsOf at hmem
          rw [hof] at hmem
          split at hmem
          . next heq =>
            subst heq
            exact hi.tracked key.id i (hold ▸ List.mem_of_mem_filter hmem)
          . exact hi.tracked keyId i hmem
        . intro i c' key' hget' hkey' hconnected
          have hmem := hi.complete i c' key' hget' hkey' hconnected
          unfold socketsOf
          rw [hof]
          split
          . next heq =>
            rw [heq, hold] at hmem
            have hne : i ≠ client := by
              intro heq
              subst heq
              rw [hget', Option.some.injEq] at hget
              rw [hget, hdisconnected] at hconnected
              contradiction
            simpa using ⟨hmem, hne⟩
          . exact hmem
      dsimp only
      split
      . next hempty =>
        apply hset
        intro keyId
        rw [Map.get?_delete]
        split
        . rw [hempty]
          rfl
        . rfl
      . apply hset
        intro keyId
        rw [Map.get?_set]
        split <;> rfl

/-- What an eviction does to the sockets: the ones in `clients` go, the others stay as they are. -/
structure Evicted (clients : List Nat) (g g' : Gateway) : Prop where
  socketsByKeyId : g'.socketsByKeyId = g.socketsByKeyId
  tasks : g'.tasks = g.tasks
  sockets : ∀ i, ∃ f, Tame f ∧ (∀ c, (f c).authorizationDiverged = c.authorizationDiverged) ∧
    g'.sockets[i]? = (g.sockets[i]?).map f ∧ (i ∈ clients → ∀ c, (f c).disconnected = true)

theorem tame_id : Tame fun c => c := ⟨fun _ => rfl, fun _ h => h, fun _ h => h⟩

theorem evicted_foldl (clients : List Nat) (frame : Frame) (g : Gateway) :
    Evicted clients g (clients.foldl (fun g client => g.reject client frame) g) := by
  induction clients generalizing g with
  | nil =>
    refine ⟨rfl, rfl, fun i => ⟨fun c => c, tame_id, fun _ => rfl, ?_, fun h => by simp at h⟩⟩
    rw [List.foldl_nil]
    simp
  | cons client clients ih =>
    have hrest := ih (g.reject client frame)
    refine ⟨hrest.socketsByKeyId, hrest.tasks, fun i => ?_⟩
    rcases hrest.sockets i with ⟨f, hf, hdiverged, hget, hgone⟩
    have hfirst : (g.reject client frame).sockets[i]? = (g.sockets[i]?).map fun c =>
        if client = i then
          { c with
            disconnected := true
            rooms := []
            grants := []
            frames := c.frames ++ [frame] }
        else c := by
      unfold Gateway.reject Gateway.disconnect Gateway.emit
      rw [getElem?_modify, getElem?_modify, Option.map_map]
      congr
      funext c
      simp only [Function.comp_apply]
      split <;> rfl
    have htame : Tame fun c : Socket =>
        if client = i then
          { c with
            disconnected := true
            rooms := []
            grants := []
            frames := c.frames ++ [frame] }
        else c := by
      by_cases h : client = i
      . simp only [h, if_true]
        exact (tame_emit frame).comp tame_disconnect
      . simp only [h, if_false]
        exact tame_id
    refine ⟨_, htame.comp hf, ?_, ?_, ?_⟩
    . intro c
      rw [hdiverged]
      split <;> rfl
    . rw [List.foldl_cons, hget, hfirst, Option.map_map]
      rfl
    . intro hmem c
      rcases List.mem_cons.mp hmem with rfl | hmem
      . rw [if_pos rfl]
        by_contra hconnected
        have := hf.connected _ (by simpa using hconnected)
        simp at this
      . exact hgone hmem _

theorem evicted_evictApiKey (keyId : Text) (reason : ApiKeyEvictionReason) :
    Evicted (g.socketsOf keyId) { g with socketsByKeyId := g.socketsByKeyId.delete keyId }
      (g.evictApiKey keyId reason) :=
  evicted_foldl _ _ _

theorem Evicted.shownBy {clients : List Nat} (h : Evicted clients g g') (hs : ShownBy g keyId i) :
    ShownBy g' keyId i := by
  rcases hs with ⟨c, key, hget, hkey, hid⟩
  rcases h.sockets i with ⟨f, hf, -, hget', -⟩
  exact ⟨f c, key, by rw [hget', hget]; rfl, (hf.apiKey c).trans hkey, hid⟩

theorem Inv.evictApiKey (hi : Inv g) (keyId : Text) (reason : ApiKeyEvictionReason) :
    Inv (g.evictApiKey keyId reason) := by
  have he := evicted_evictApiKey (g := g) keyId reason
  have hof : ∀ id, (g.evictApiKey keyId reason).socketsOf id =
      if id = keyId then [] else g.socketsOf id := by
    intro id
    unfold socketsOf
    rw [he.socketsByKeyId, Map.get?_delete]
    split <;> rfl
  have hshown : ∀ id i, ShownBy g id i → ShownBy (g.evictApiKey keyId reason) id i :=
    fun id i h => he.shownBy (g := { g with socketsByKeyId := g.socketsByKeyId.delete keyId }) h
  refine ⟨?_, ?_, ?_, ?_⟩
  . intro i c hget
    rcases he.sockets i with ⟨f, hf, -, hget', -⟩
    rw [hget', Option.map_eq_some_iff] at hget
    rcases hget with ⟨c₀, hget, rfl⟩
    exact hf.sound c₀ (hi.sound i c₀ hget)
  . intro id i hmem
    rw [hof] at hmem
    split at hmem
    . simp at hmem
    . exact hshown id i (hi.tracked id i hmem)
  . intro i c key hget hkey hconnected
    rcases he.sockets i with ⟨f, hf, -, hget', hgone⟩
    rw [hget', Option.map_eq_some_iff] at hget
    rcases hget with ⟨c₀, hget, rfl⟩
    rw [hf.apiKey] at hkey
    have hmem := hi.complete i c₀ key hget hkey (hf.connected c₀ hconnected)
    rw [hof]
    split
    . next heq =>
      rw [hgone (heq ▸ hmem)] at hconnected
      contradiction
    . exact hmem
  . intro now keyIds read hmem id i hi'
    rw [he.tasks] at hmem
    exact hshown id i (hi.reads now keyIds read hmem id i hi')

theorem Inv.connect (hi : Inv g) {c : Socket} (hc : Sound c) (hkey : c.apiKey = none) :
    Inv { g with sockets := g.sockets ++ [c] } := by
  have hlast : ∀ (i : Nat) c', (g.sockets ++ [c])[i]? = some c' → g.sockets[i]? = some c' ∨ c' = c := by
    intro i c' hget
    rcases Nat.lt_or_ge i g.sockets.length with hlt | hge
    . rw [List.getElem?_append_left hlt] at hget
      exact .inl hget
    . rw [List.getElem?_append_right hge, List.getElem?_singleton] at hget
      split at hget
      . exact .inr (Option.some.inj hget).symm
      . contradiction
  have hshown : ∀ keyId i, ShownBy g keyId i →
      ShownBy { g with sockets := g.sockets ++ [c] } keyId i := by
    rintro keyId i ⟨c', key, hget, hkey', hid⟩
    have hlt := (List.getElem?_eq_some_iff.mp hget).1
    exact ⟨c', key, (List.getElem?_append_left hlt).trans hget, hkey', hid⟩
  refine ⟨?_, ?_, ?_, ?_⟩
  . intro i c' hget
    rcases hlast i c' hget with hget | rfl
    . exact hi.sound i c' hget
    . exact hc
  . exact fun keyId i hmem => hshown keyId i (hi.tracked keyId i hmem)
  . intro i c' key hget hkey' hconnected
    rcases hlast i c' hget with hget | rfl
    . exact hi.complete i c' key hget hkey' hconnected
    . rw [hkey] at hkey'
      contradiction
  . exact fun now keyIds read hmem keyId i hi' => hshown keyId i (hi.reads now keyIds read hmem keyId i hi')

theorem Inv.handleConnection (hi : Inv g) (clientIp : Text) (apiKey : Option Text) (allowed : Bool) :
    Inv (g.handleConnection clientIp apiKey allowed) := by
  have hnew : ∀ handshake, Inv { g with sockets := g.sockets ++ [{
      clientIp
      handshake
      apiKey := none
      rawApiKey := none
      authorizationDiverged := false
      disconnected := false
      rooms := []
      grants := []
      frames := [] }] } := by
    intro handshake
    refine hi.connect ⟨?_, ?_, ?_, ?_⟩ rfl
    . intro _ p hp
      simp at hp
    . exact fun _ hne => absurd rfl hne
    . intro room hroom
      simp at hroom
    . exact fun _ _ _ => rfl
  unfold Gateway.handleConnection
  dsimp only
  split
  . exact (hnew _).reject _ _
  . split
    . exact (hnew _).reject _ _
    . exact (hnew _).reject _ _
    . exact hnew _

theorem Inv.track (hi : Inv g) {c : Socket} (hget : g.sockets[client]? = some c)
    (hkey : c.apiKey = none) (hover : ∀ rawApiKey validation,
      c.handshake ≠ .validating rawApiKey validation) (rawApiKey : Text) (validKey : ApiKey) :
    Inv ((g.modify client fun c =>
      { c with apiKey := some validKey, rawApiKey := some rawApiKey }).trackSocket validKey.id client) := by
  generalize hg₁ : (g.modify client fun c =>
    { c with apiKey := some validKey, rawApiKey := some rawApiKey }) = g₁
  have hsockets : ∀ i : Nat, (g₁.trackSocket validKey.id client).sockets[i]? =
      (g.sockets[i]?).map fun c =>
        if client = i then { c with apiKey := some validKey, rawApiKey := some rawApiKey } else c := by
    intro i
    rw [← hg₁]
    exact getElem?_modify g client _ i
  have hof₁ : ∀ keyId, g₁.socketsOf keyId = g.socketsOf keyId := by
    rw [← hg₁]
    exact fun _ => rfl
  have hof : ∀ keyId i, i ∈ (g₁.trackSocket validKey.id client).socketsOf keyId ↔
      i ∈ g.socketsOf keyId ∨ keyId = validKey.id ∧ i = client := by
    intro keyId i
    have hset : (g₁.trackSocket validKey.id client).socketsOf keyId =
        if keyId = validKey.id then
          if client ∈ g₁.socketsOf validKey.id then g₁.socketsOf validKey.id
          else g₁.socketsOf validKey.id ++ [client]
        else g₁.socketsOf keyId := by
      unfold trackSocket socketsOf
      dsimp only
      rw [Map.get?_set]
      split <;> rfl
    rw [hset, hof₁, hof₁]
    by_cases hid : keyId = validKey.id
    . rw [if_pos hid, hid]
      split
      . next hmem =>
        constructor
        . exact .inl
        . rintro (h | ⟨-, rfl⟩)
          . exact h
          . exact hmem
      . simp
    . simp [hid]
  have hshown : ∀ keyId i, ShownBy g keyId i →
      ShownBy (g₁.trackSocket validKey.id client) keyId i := by
    rintro keyId i ⟨c', key, hget', hkey', hid⟩
    have hne : client ≠ i := by
      intro heq
      subst heq
      rw [hget, Option.some.injEq] at hget'
      rw [← hget', hkey] at hkey'
      contradiction
    refine ⟨c', key, ?_, hkey', hid⟩
    rw [hsockets, hget', Option.map_some, if_neg hne]
  have hself : ShownBy (g₁.trackSocket validKey.id client) validKey.id client :=
    ⟨_, validKey, by rw [hsockets, hget, Option.map_some, if_pos rfl], rfl, rfl⟩
  refine ⟨?_, ?_, ?_, ?_⟩
  . intro i c' hget'
    rw [hsockets, Option.map_eq_some_iff] at hget'
    rcases hget' with ⟨c₀, hget₀, rfl⟩
    have hsound := hi.sound i c₀ hget₀
    split
    . next heq =>
      subst heq
      rw [hget, Option.some.injEq] at hget₀
      subst hget₀
      -- without a key it has no grant that is not diverged
      have hnone : c.authorizationDiverged = false → c.grants = [] := by
        intro hdiverged
        rw [List.eq_nil_iff_forall_not_mem]
        intro p hp
        have := hsound.granted hdiverged p hp
        simp [snapshotFingerprint, hkey] at this
      refine ⟨?_, ?_, hsound.held, ?_⟩
      . intro hdiverged p hp
        have hnil : c.grants = [] := hnone hdiverged
        dsimp only at hp
        simp [hnil] at hp
      . exact fun hdiverged hne => absurd (hnone hdiverged) hne
      . exact fun raw validation h => absurd h (hover raw validation)
    . exact hsound
  . intro keyId i hmem
    rcases (hof keyId i).mp hmem with hmem | ⟨rfl, rfl⟩
    . exact hshown keyId i (hi.tracked keyId i hmem)
    . exact hself
  . intro i c' key hget' hkey' hconnected
    rw [hsockets, Option.map_eq_some_iff] at hget'
    rcases hget' with ⟨c₀, hget₀, rfl⟩
    rw [hof]
    by_cases heq : client = i
    . rw [if_pos heq, Option.some.injEq] at hkey'
      exact .inr ⟨by rw [hkey'], heq.symm⟩
    . rw [if_neg heq] at hkey' hconnected
      exact .inl (hi.complete i c₀ key hget₀ hkey' hconnected)
  . intro now keyIds read hmem keyId i hi'
    have hmem' : .sweeping now keyIds (some read) ∈ g.tasks := by
      rw [← hg₁] at hmem
      exact hmem
    exact hshown keyId i (hi.reads now keyIds read hmem' keyId i hi')

theorem Inv.finishConnection (hi : Inv g) (config : Config) {c : Socket}
    (hget : g.sockets[client]? = some c) (hkey : c.apiKey = none) (rawApiKey : Text)
    (validKey : Option ApiKey) : Inv (g.finishConnection config client rawApiKey validKey) := by
  have hover : Tame fun c : Socket => { c with handshake := .over } :=
    ⟨fun _ => rfl, fun _ h => h, fun _ h => ⟨h.granted, h.qr, h.held, fun _ _ h => nomatch h⟩⟩
  have hi₁ : Inv (g.modify client fun c => { c with handshake := .over }) := hi.modify hover
  have hget₁ : (g.modify client fun c => { c with handshake := .over }).sockets[client]? =
      some { c with handshake := .over } := by
    rw [getElem?_modify, hget, Option.map_some, if_pos rfl]
  unfold Gateway.finishConnection
  dsimp only
  split
  . exact hi₁.reject _ _
  . next validKey =>
    split
    . exact hi₁.reject _ _
    . have htrack := hi₁.track hget₁ hkey (fun _ _ h => nomatch h) rawApiKey validKey
      split
      . next hgone =>
        rw [Option.any_eq_true] at hgone
        rcases hgone with ⟨c', hget', hdisconnected⟩
        exact htrack.untrackSocket hget' hdisconnected
      . exact htrack

theorem modify_modify (g : Gateway) (client : Nat) (f f' : Socket → Socket) :
    (g.modify client f).modify client f' = g.modify client fun c => f' (f c) := by
  unfold Gateway.modify
  dsimp only
  congr 1
  apply List.ext_getElem?
  intro i
  rw [List.getElem?_modify, List.getElem?_modify, List.getElem?_modify]
  simp only [Option.map_eq_map, Option.map_map]
  congr
  funext c
  simp only [Function.comp_apply]
  split <;> rfl

theorem Inv.finishSubscribe (hi : Inv g) (client : Nat) (sessionId : Text)
    (events : Option (List Text)) (requestId : Option Text) (subscriberKey : Option ApiKey) :
    Inv (g.finishSubscribe client sessionId events requestId subscriberKey) := by
  unfold Gateway.finishSubscribe
  split
  . exact (hi.reject _ _).reply _ _
  . next key =>
    split
    . exact hi.reply _ _
    . dsimp only
      rw [modify_modify]
      have hrecorded : Inv (g.modify client (recordAccess key)) := hi.modify (tame_recordAccess key)
      have hgranted : ∀ validEvents : List Text, Tame fun c =>
          validEvents.foldl (fun c event => grant (apiKeyAuthorizationFingerprint key) c
            (buildRoomName sessionId event)) (recordAccess key c) := by
        intro validEvents
        have := tame_subscribe key (validEvents.map (buildRoomName sessionId))
        simpa only [List.foldl_map] using this
      split
      . exact hrecorded.reply _ _
      . split
        . exact hrecorded.reply _ _
        . exact hrecorded.reply _ _
        . split
          . exact hrecorded.reply _ _
          . rw [modify_modify]
            exact (hi.modify (hgranted _)).reply _ _

/-- No prefix of a subscription room begins the name of the QR room. -/
theorem isPrefixOf_qrDeniedRoom (rest : Text) :
    ("session:".toList ++ rest).isPrefixOf qrDeniedRoom = false := by
  have hsession : "session:".toList = 's' :: "ession:".toList := by decide +kernel
  have hroom : qrDeniedRoom = 'r' :: "ole:qr-denied".toList := by decide +kernel
  rw [hsession, hroom]
  rfl

theorem Inv.handleUnsubscribe (hi : Inv g) (client : Nat) (sessionId : Text)
    (requestId : Option Text) : Inv (g.handleUnsubscribe client sessionId requestId) := by
  unfold Gateway.handleUnsubscribe
  dsimp only
  apply Inv.reply
  apply hi.modify
  have hkept : ∀ rooms : List Text, qrDeniedRoom ∉ rooms.filter fun room =>
      ("session:".toList ++ sessionId ++ [':']).isPrefixOf room ||
        sessionId = ['*'] && "session:".toList.isPrefixOf room := by
    intro rooms hmem
    have := List.of_mem_filter hmem
    rw [List.append_assoc, isPrefixOf_qrDeniedRoom] at this
    have hwildcard := isPrefixOf_qrDeniedRoom []
    rw [List.append_nil] at hwildcard
    rw [hwildcard, Bool.and_false, Bool.or_false] at this
    contradiction
  refine ⟨fun c => ?_, fun c h => ?_, fun c h => ?_⟩
  . exact (tame_foldl_leave _ (hkept c.rooms)).apiKey c
  . exact (tame_foldl_leave _ (hkept c.rooms)).connected c h
  . exact (tame_foldl_leave _ (hkept c.rooms)).sound c h

theorem Inv.handleMessage (hi : Inv g) (client : Nat) (message : ClientMessage) (allowed : Bool) :
    Inv (g.handleMessage client message allowed) := by
  unfold Gateway.handleMessage
  split
  . exact hi.reply _ _
  . split
    . split
      . exact hi.reply _ _
      . exact hi.reply _ _
      . split
        . exact (hi.reject _ _).reply _ _
        . apply hi.tasks
          intro now keyIds read hmem
          simpa using hmem
    . exact hi.handleUnsubscribe _ _ _
    . exact hi.reply _ _
    . exact hi.reply _ _

theorem Inv.startSweep (hi : Inv g) (now : Nat) : Inv (g.startSweep now) := by
  have hfold : ∀ entries : List (Text × List Nat), ∀ g : Gateway, Inv g →
      Inv (entries.foldl (fun g entry =>
        if (g.resolve entry.2).any (isSnapshotExpired · now) then g.evictApiKey entry.1 .expired
        else g) g) := by
    intro entries
    induction entries with
    | nil => exact fun g hi => hi
    | cons entry entries ih =>
      intro g hi
      rw [List.foldl_cons]
      apply ih
      split
      . exact hi.evictApiKey _ _
      . exact hi
  have hevicted := hfold g.socketsByKeyId.entries g hi
  unfold Gateway.startSweep
  dsimp only
  split
  all_goals
    apply hevicted.tasks
    intro now keyIds read hmem
    simpa using hmem

theorem Inv.setTask (hi : Inv g) (t : Nat) {task : Task}
    (htask : ∀ now keyIds read, task = .sweeping now keyIds (some read) → ∀ keyId,
      ∀ i ∈ (read.tracked.get? keyId).getD [], ShownBy g keyId i) : Inv (g.setTask t task) := by
  refine ⟨hi.sound, hi.tracked, hi.complete, ?_⟩
  intro now keyIds read hmem
  rcases List.mem_or_eq_of_mem_set hmem with hmem | heq
  . exact hi.reads now keyIds read hmem
  . exact htask now keyIds read heq.symm

/-- The sockets of a key that an iteration of a sweep has looked at, as far as they are connected. -/
def Kept (now : Nat) (rows : List Row) (g : Gateway) (keyId : Text) : Prop :=
  ∀ (i : Nat) c key, g.sockets[i]? = some c → c.apiKey = some key → key.id = keyId →
    c.disconnected = false → ∃ current, byId rows keyId = some current ∧ current.isActive = true ∧
      current.expiresAt.all (now < ·) = true ∧
      snapshotFingerprint c = some (apiKeyAuthorizationFingerprint current) ∧
      c.authorizationDiverged = false

theorem Kept.evictApiKey {now : Nat} {rows : List Row} (h : Kept now rows g keyId) (id : Text)
    (reason : ApiKeyEvictionReason) : Kept now rows (g.evictApiKey id reason) keyId := by
  have he := evicted_evictApiKey (g := g) id reason
  intro i c key hget hkey hid hconnected
  rcases he.sockets i with ⟨f, hf, hdiverged, hget', -⟩
  rw [hget', Option.map_eq_some_iff] at hget
  rcases hget with ⟨c₀, hget, rfl⟩
  rw [hf.apiKey] at hkey
  have := h i c₀ key hget hkey hid (hf.connected c₀ hconnected)
  unfold snapshotFingerprint at this ⊢
  rwa [hf.apiKey, hdiverged]

/-- No reason to evict means that every tracked socket agrees with the row. -/
theorem of_evictionReason {current : Option ApiKey} {sockets : List Socket} {now : Nat} {c : Socket}
    (h : evictionReason current sockets now = none) (hc : c ∈ sockets) :
    ∃ key, current = some key ∧ key.isActive = true ∧ key.expiresAt.all (now < ·) = true ∧
      snapshotFingerprint c = some (apiKeyAuthorizationFingerprint key) ∧
      c.authorizationDiverged = false := by
  unfold evictionReason at h
  rw [if_neg (List.ne_nil_of_mem hc)] at h
  split at h
  . contradiction
  . next key =>
    split at h
    . contradiction
    . next hactive =>
      split at h
      . contradiction
      . next hexpires =>
        split at h
        . contradiction
        . next hstale =>
          simp only [List.any_eq_true, Bool.or_eq_true, decide_eq_true_eq, not_exists, not_and,
            not_or, Bool.not_eq_true] at hstale
          have hfresh := hstale c hc
          refine ⟨key, rfl, by simpa using hactive, ?_, not_not.mp hfresh.1, hfresh.2⟩
          cases hexpiry : key.expiresAt with
          | none => rfl
          | some expiry =>
            rw [hexpiry] at hexpires
            simpa using hexpires

theorem Inv.sweepKey (hi : Inv g) (now : Nat) (rows : List Row) (keyId : Text) :
    Inv (Gateway.sweepKey now rows g keyId) ∧ Kept now rows (Gateway.sweepKey now rows g keyId) keyId := by
  unfold Gateway.sweepKey
  split
  . next hreason =>
    refine ⟨hi, ?_⟩
    intro i c key hget hkey hid hconnected
    have hmem := hi.complete i c key hget hkey hconnected
    apply of_evictionReason hreason
    unfold Gateway.resolve
    rw [List.mem_filterMap]
    exact ⟨i, hid ▸ hmem, hget⟩
  . next reason _ =>
    refine ⟨hi.evictApiKey _ _, ?_⟩
    -- every connected socket of the key was tracked, so it is gone
    intro i c key hget hkey hid hconnected
    rcases (evicted_evictApiKey (g := g) keyId reason).sockets i with ⟨f, hf, -, hget', hgone⟩
    rw [hget', Option.map_eq_some_iff] at hget
    rcases hget with ⟨c₀, hget, rfl⟩
    rw [hf.apiKey] at hkey
    have hmem := hi.complete i c₀ key hget hkey (hf.connected c₀ hconnected)
    rw [hgone (hid ▸ hmem)] at hconnected
    contradiction

theorem Kept.sweepKey {now : Nat} {rows : List Row} (h : Kept now rows g keyId) (id : Text) :
    Kept now rows (Gateway.sweepKey now rows g id) keyId := by
  unfold Gateway.sweepKey
  split
  . exact h
  . exact h.evictApiKey _ _

theorem ShownBy.evictApiKey (h : ShownBy g keyId i) (id : Text) (reason : ApiKeyEvictionReason) :
    ShownBy (g.evictApiKey id reason) keyId i :=
  (evicted_evictApiKey (g := g) id reason).shownBy
    (g := { g with socketsByKeyId := g.socketsByKeyId.delete id }) h

theorem ShownBy.sweepKey (h : ShownBy g keyId i) (now : Nat) (rows : List Row) (id : Text) :
    ShownBy (Gateway.sweepKey now rows g id) keyId i := by
  unfold Gateway.sweepKey
  split
  . exact h
  . exact h.evictApiKey _ _

/-- After the loop of a sweep, each key that it went through has only sockets that agree with its row. -/
theorem finishSweep_spec (now : Nat) (keyIds : List Text) (rows : List Row) (hi : Inv g) :
    Inv (g.finishSweep now keyIds rows) ∧
      (∀ keyId ∈ keyIds, Kept now rows (g.finishSweep now keyIds rows) keyId) ∧
      (∀ keyId, Kept now rows g keyId → Kept now rows (g.finishSweep now keyIds rows) keyId) ∧
      (∀ keyId i, ShownBy g keyId i → ShownBy (g.finishSweep now keyIds rows) keyId i) := by
  unfold Gateway.finishSweep
  induction keyIds generalizing g with
  | nil => exact ⟨hi, fun keyId hmem => by simp at hmem, fun _ h => h, fun _ _ h => h⟩
  | cons id keyIds ih =>
    have hfirst := hi.sweepKey now rows id
    rcases ih hfirst.1 with ⟨hinv, hkept, hstable, hshown⟩
    refine ⟨hinv, ?_, fun keyId h => hstable keyId (h.sweepKey id),
      fun keyId i h => hshown keyId i (h.sweepKey now rows id)⟩
    intro keyId hmem
    rcases List.mem_cons.mp hmem with rfl | hmem
    . exact hstable _ hfirst.2
    . exact hkept keyId hmem

end Gateways

section Runs

variable {config : Config} {g g' : Gateway}

theorem Inv.stepConnection {client : Nat} (hi : Inv g)
    (hstep : g.stepConnection config client = some g') : Inv g' := by
  unfold Gateway.stepConnection at hstep
  split at hstep
  . contradiction
  . next c hget =>
    split at hstep
    . contradiction
    . next rawApiKey validation hvalidating =>
      have hkey := (hi.sound client c hget).pending rawApiKey validation hvalidating
      split at hstep
      . next validation' _ =>
        rw [Option.some.injEq] at hstep
        subst hstep
        -- only this socket is known to be pending
        refine ⟨?_, fun keyId i hmem => (hi.tracked keyId i hmem).modify fun _ => rfl, ?_,
          fun now keyIds read hmem keyId i hi' =>
            (hi.reads now keyIds read hmem keyId i hi').modify fun _ => rfl⟩
        . intro i c' hget'
          rw [getElem?_modify, Option.map_eq_some_iff] at hget'
          rcases hget' with ⟨c₀, hget₀, rfl⟩
          have hsound := hi.sound i c₀ hget₀
          split
          . next heq =>
            subst heq
            rw [hget, Option.some.injEq] at hget₀
            subst hget₀
            exact ⟨hsound.granted, hsound.qr, hsound.held, fun _ _ _ => hkey⟩
          . exact hsound
        . intro i c' key hget' hkey' hconnected
          rw [getElem?_modify, Option.map_eq_some_iff] at hget'
          rcases hget' with ⟨c₀, hget₀, rfl⟩
          by_cases heq : client = i
          . rw [if_pos heq] at hkey' hconnected
            exact hi.complete i c₀ key hget₀ hkey' hconnected
          . rw [if_neg heq] at hkey' hconnected
            exact hi.complete i c₀ key hget₀ hkey' hconnected
      . rw [Option.some.injEq] at hstep
        subst hstep
        exact hi.finishConnection config hget hkey _ _

theorem Inv.stepTask {t : Nat} (hi : Inv g) (hstep : g.stepTask config t = some g') : Inv g' := by
  unfold Gateway.stepTask at hstep
  split at hstep
  . contradiction
  . contradiction
  . dsimp only at hstep
    split at hstep
    . rw [Option.some.injEq] at hstep
      subst hstep
      exact hi.setTask t (by simp)
    . rw [Option.some.injEq] at hstep
      subst hstep
      exact (hi.setTask t (by simp)).finishSubscribe _ _ _ _ _
  . rw [Option.some.injEq] at hstep
    subst hstep
    apply hi.setTask t
    intro now keyIds read heq
    simp only [Task.sweeping.injEq, Option.some.injEq] at heq
    rcases heq with ⟨-, -, rfl⟩
    exact hi.tracked
  . rw [Option.some.injEq] at hstep
    subst hstep
    exact (finishSweep_spec _ _ _ (hi.setTask t (by simp))).1

theorem Inv.step {event : Event} (hi : Inv g) (hstep : step config g event = some g') : Inv g' := by
  cases event with
  | connect clientIp apiKey allowed =>
    simp only [Events.step, Option.some.injEq] at hstep
    exact hstep ▸ hi.handleConnection clientIp apiKey allowed
  | stepConnection client => exact hi.stepConnection hstep
  | frame client message allowed =>
    simp only [Events.step] at hstep
    split at hstep
    . contradiction
    . split at hstep
      . contradiction
      . rw [Option.some.injEq] at hstep
        exact hstep ▸ hi.handleMessage client message allowed
  | close client =>
    simp only [Events.step, Option.some.injEq] at hstep
    exact hstep ▸ hi.disconnect client
  | handleDisconnect client =>
    simp only [Events.step] at hstep
    split at hstep
    . contradiction
    . next hget =>
      split at hstep
      . next hdisconnected =>
        rw [Option.some.injEq] at hstep
        exact hstep ▸ hi.untrackSocket hget hdisconnected
      . contradiction
  | evictApiKey keyId reason =>
    simp only [Events.step, Option.some.injEq] at hstep
    exact hstep ▸ hi.evictApiKey keyId reason
  | sweep =>
    simp only [Events.step, Option.some.injEq] at hstep
    exact hstep ▸ hi.startSweep g.clock
  | stepTask t => exact hi.stepTask hstep
  | setRows rows =>
    simp only [Events.step, Option.some.injEq] at hstep
    subst hstep
    exact hi.same rfl rfl rfl
  | tick clock =>
    simp only [Events.step] at hstep
    split at hstep
    . rw [Option.some.injEq] at hstep
      subst hstep
      exact hi.same rfl rfl rfl
    . contradiction

theorem inv_initial (rows : List Row) : Inv (initial rows) := by
  constructor <;> simp [initial, socketsOf]

end Runs

/-- What a socket that a sweep leaves connected was granted is what the row of its key still allows. -/
structure Authorized (now : Nat) (row : ApiKey) (c : Socket) : Prop where
  active : row.isActive = true
  unexpired : row.expiresAt.all (now < ·) = true
  granted : ∀ p ∈ c.grants, p.2 = apiKeyAuthorizationFingerprint row
  held : ∀ room ∈ c.rooms, room ≠ qrDeniedRoom → ∃ p ∈ c.grants, p.1 = room
  qr : c.grants ≠ [] → qrAllowed row.role = false → qrDeniedRoom ∈ c.rooms

/--
When a sweep is over, every connected socket that was tracked at its read under a key it has collected
is authorized by the row of this key, as the sweep has read it.
-/
theorem authorized_of_sweep (config : Config) (init : List Row) (g g' : Gateway)
    (hreach : (machine config).Reach Machine.anyStep (initial init) g) (t now : Nat)
    (keyIds : List Text) (read : SweepRead)
    (htask : g.tasks[t]? = some (.sweeping now keyIds (some read)))
    (hstep : step config g (.stepTask t) = some g') :
    ∀ keyId ∈ keyIds, ∀ i ∈ (read.tracked.get? keyId).getD [], ∀ c, g'.sockets[i]? = some c →
      c.disconnected = false →
      ∃ row ∈ read.rows, row.key.id = keyId ∧ Authorized now row.key c := by
  intro keyId hkeyId i hi' c hget hconnected
  have hinv : Inv g := hreach.invariant (inv_initial init) fun _ _ _ hi _ hstep => hi.step hstep
  have htracked := hinv.reads now keyIds read (List.mem_of_getElem? htask) keyId i hi'
  simp only [step, stepTask, htask, Option.some.injEq] at hstep
  subst hstep
  have hdone : Inv (g.setTask t .done) := hinv.setTask t (by simp)
  rcases finishSweep_spec now keyIds read.rows hdone with ⟨hinv', hkept, -, hshown⟩
  rcases hshown keyId i htracked with ⟨c', key, hget', hkey, hid⟩
  rw [hget, Option.some.injEq] at hget'
  subst hget'
  rcases hkept keyId hkeyId i c key hget hkey hid hconnected with
    ⟨current, hrow, hactive, hunexpired, hfingerprint, hdiverged⟩
  unfold byId at hrow
  rcases List.mem_map.mp (List.mem_of_find?_eq_some hrow) with ⟨row, hmem, rfl⟩
  have hsound := hinv'.sound i c hget
  have hrole : key.role = row.key.role := by
    unfold snapshotFingerprint at hfingerprint
    rw [hkey, Option.map_some, Option.some.injEq] at hfingerprint
    exact congrArg Fingerprint.role hfingerprint
  refine ⟨row, hmem, by simpa using List.find?_some hrow, hactive, hunexpired, ?_, hsound.held, ?_⟩
  . intro p hp
    have := hsound.granted hdiverged p hp
    rw [hfingerprint, Option.some.injEq] at this
    exact this.symm
  . exact fun hne hdenied => hsound.qr hdiverged hne key hkey (hrole ▸ hdenied)

section Sample

def sampleConfig : Config where
  hashKey := id
  isIpAllowed _ _ := true
  maxSocketsPerKey := 10

def sampleRow (id : Text) (role : ApiKeyRole) (isActive : Bool) (expiresAt : Option Nat) : Row where
  keyHash := 'k' :: id
  key := {
    id
    name := "key".toList
    role
    allowedIps := none
    allowedSessions := none
    isActive
    expiresAt }

def sampleRows : List Row := [sampleRow ['a'] .viewer true (some 5), sampleRow ['b'] .operator true none]

def connects (client : Nat) (rawApiKey : Text) : List Event :=
  [.connect [] (some rawApiKey) true, .stepConnection client, .stepConnection client,
    .stepConnection client]

/-- A socket subscribes, its row is demoted and restored, and a sweep reads. -/
def authorizedRun : List Event :=
  connects 0 ['k', 'a'] ++
    [.frame 0 (.subscribe (some ['s']) (some ["session.qr".toList]) none) true, .stepTask 0,
      .stepTask 0, .stepTask 0, .sweep, .setRows [], .setRows sampleRows, .stepTask 1]

/--
The sweep has collected the first key when the second socket is tracked, whose row is then revoked; the
first row expires before the read.
-/
def missedRun : List Event :=
  connects 0 ['k', 'a'] ++
    [.connect [] (some ['k', 'b']) true, .stepConnection 1, .stepConnection 1, .sweep,
      .stepConnection 1,
      .setRows [sampleRow ['a'] .viewer true (some 5), sampleRow ['b'] .operator false none],
      .tick 10, .stepTask 0]

def after (events : List Event) : Gateway :=
  ((machine sampleConfig).exec Machine.anyStep (initial sampleRows) events).getD (initial [])

/-- What the task `t` has read, if it is a sweep. -/
def readOf (g : Gateway) (t : Nat) : SweepRead :=
  match g.tasks[t]? with
  | some (.sweeping _ _ (some read)) => read
  | some (.sweeping _ _ none) | some (.subscribing _ _ _ _ _ _) | some .done | none => ⟨[], .empty⟩

theorem reach_after {events : List Event} (h : ((machine sampleConfig).exec Machine.anyStep
    (initial sampleRows) events).isSome) :
    (machine sampleConfig).Reach Machine.anyStep (initial sampleRows) (after events) := by
  rcases Option.isSome_iff_exists.mp h with ⟨g, hg⟩
  unfold after
  rw [hg]
  exact Machine.reach_of_exec hg

def finished (g : Gateway) (t : Nat) : Gateway := (step sampleConfig g (.stepTask t)).getD g

theorem step_finished {g : Gateway} {t : Nat} (h : (step sampleConfig g (.stepTask t)).isSome) :
    step sampleConfig g (.stepTask t) = some (finished g t) := by
  rcases Option.isSome_iff_exists.mp h with ⟨g', hg⟩
  unfold finished
  rw [hg]
  rfl

theorem authorized_of_sweep_sample :
    ∃ c, (finished (after authorizedRun) 1).sockets[0]? = some c ∧ c.disconnected = false ∧
      c.rooms = [qrDeniedRoom, "session:s:session.qr".toList] ∧
      ∃ row ∈ sampleRows, row.key.id = ['a'] ∧ Authorized 0 row.key c := by
  have hsocket : ((finished (after authorizedRun) 1).sockets[0]?).map (fun c =>
      (c.disconnected, c.rooms)) =
      some (false, [qrDeniedRoom, "session:s:session.qr".toList]) := by decide +kernel
  rw [Option.map_eq_some_iff] at hsocket
  rcases hsocket with ⟨c, hget, hvalues⟩
  rw [Prod.mk.injEq] at hvalues
  have hrows : (readOf (after authorizedRun) 1).rows = sampleRows := by decide +kernel
  refine ⟨c, hget, hvalues.1, hvalues.2, ?_⟩
  rw [← hrows]
  exact authorized_of_sweep sampleConfig sampleRows (after authorizedRun)
    (finished (after authorizedRun) 1) (reach_after (by decide +kernel)) 1 0 [['a']]
    (readOf (after authorizedRun) 1) (by decide +kernel) (step_finished (by decide +kernel)) ['a']
    (by decide) 0 (by decide +kernel) c hget hvalues.1

/--
Both sockets were tracked at the read of the sweep and outlive it: the one under a key that is revoked
by then, the other under a key that has expired by then.
-/
theorem missed_by_sweep :
    (machine sampleConfig).Reach Machine.anyStep (initial sampleRows) (after missedRun) ∧
      (after missedRun).tasks[0]? = some (.sweeping 0 [['a']] (some (readOf (after missedRun) 0))) ∧
      step sampleConfig (after missedRun) (.stepTask 0) = some (finished (after missedRun) 0) ∧
      (readOf (after missedRun) 0).tracked.get? ['b'] = some [1] ∧
      (readOf (after missedRun) 0).rows.map (fun row => (row.key.id, row.key.isActive)) =
        [(['a'], true), (['b'], false)] ∧
      (finished (after missedRun) 0).sockets.map (·.disconnected) = [false, false] ∧
      (readOf (after missedRun) 0).tracked.get? ['a'] = some [0] ∧
      (readOf (after missedRun) 0).rows.map (·.key.expiresAt) = [some 5, none] ∧
      (after missedRun).clock = 10 :=
  ⟨reach_after (by decide +kernel), by decide +kernel, step_finished (by decide +kernel),
    by decide +kernel, by decide +kernel, by decide +kernel, by decide +kernel, by decide +kernel,
    by decide +kernel⟩

end Sample
end OpenWA.Events
