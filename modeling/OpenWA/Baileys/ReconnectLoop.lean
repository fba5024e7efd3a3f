import OpenWA.Baileys.Lifecycle

/-!
This module contains what the reconnect loop of a connected session keeps up: there is always a socket, a
timer or a connect, only one socket is listened to, and attempts leave a healthy socket alone.
-/

namespace OpenWA.Baileys

open Async

/-- What happens in the loop: no call from outside and no terminal close. -/
def inLoop (_s : State) (v : Event) : Prop :=
  match v with
  | .update _ u => u.connection = some .close → isTerminal u.statusCode = false
  | .timer | .advance | .fail _ | .finish _ _ => True
  | .start | .disconnect | .logout | .shutdown _ | .destroy => False

/-- A socket reports `open` only with neither a reconnect timer pending nor a connect in flight. -/
def opensAlone (s : State) (v : Event) : Prop :=
  inLoop s v ∧
    match v with
    | .update _ u => u.connection = some .opened → s.reconnectTimer = none ∧ s.connecting = none
    | _ => True

instance (s : State) (v : Event) : Decidable (inLoop s v) :=
  match v with
  | .update _ u =>
    inferInstanceAs (Decidable (u.connection = some .close → isTerminal u.statusCode = false))
  | .timer | .advance | .fail _ | .finish _ _ => inferInstanceAs (Decidable True)
  | .start | .disconnect | .logout | .shutdown _ | .destroy => inferInstanceAs (Decidable False)

instance (s : State) (v : Event) : Decidable (opensAlone s v) :=
  match v with
  | .update k u =>
    inferInstanceAs (Decidable (inLoop s (.update k u) ∧
      (u.connection = some .opened → s.reconnectTimer = none ∧ s.connecting = none)))
  | .timer | .advance | .fail _ | .finish _ _ | .start | .disconnect | .logout | .shutdown _ | .destroy =>
    inferInstanceAs (Decidable (_ ∧ True))

/-- A reconnect is due or under way, or the current socket is wired and has not closed. -/
def Alive (s : State) : Prop :=
  s.reconnectTimer.isSome = true ∨ s.connecting.isSome = true ∨
    ∃ k, s.sock = some k ∧ (s.sockets k).wired = true ∧ (s.sockets k).closed = false

def OneWired (s : State) : Prop :=
  ∀ j k, (s.sockets j).wired = true → (s.sockets k).wired = true → j = k

/-- No attempt has ended a socket that had reported `open` and not closed since. -/
def SparesHealthy (s : State) : Prop := ∀ k late, (.ended k true, late) ∉ s.effects

/-- The state that a successful first connect leaves, and what `open` makes of it. -/
structure Connected (s : State) : Prop where
  running : s.intentionalClose = false
  timer : s.reconnectTimer = none
  connecting : s.connecting = none
  current : ∃ k, s.sock = some k ∧ (s.sockets k).wired = true ∧ (s.sockets k).closed = false
  wired : ∀ k, (s.sockets k).wired = true → s.sock = some k
  spares : SparesHealthy s

structure Loop (s : State) : Prop where
  running : s.intentionalClose = false
  /-- An attempt in flight was started by the timer. -/
  origin : ∀ c, s.connecting = some c → c.origin = .reconnect
  wired : ∀ k, (s.sockets k).wired = true → s.sock = some k
  alive : Alive s

/-- While a reconnect is due or under way the current socket is not healthy. -/
structure Spare (s : State) : Prop where
  unhealthy : s.reconnectTimer.isSome = true ∨ s.connecting.isSome = true →
    ∀ k, s.sock = some k → (s.sockets k).healthy = false
  spares : SparesHealthy s

section Steps

variable {s s' : State} {v : Event} {u : Update}

theorem Loop.oneWired (h : Loop s) : OneWired s := by
  intro j k hj hk
  exact Option.some.inj ((h.wired j hj).symm.trans (h.wired k hk))

theorem Connected.loop (h : Connected s) : Loop s where
  running := h.running
  origin c hc := by simp [h.connecting] at hc
  wired := h.wired
  alive := .inr (.inr h.current)

theorem Connected.spare (h : Connected s) : Spare s where
  unhealthy hbusy := by simp [h.timer, h.connecting] at hbusy
  spares := h.spares

/-- What arming the timer changes; a timer that is pending already stays. -/
structure Armed (s s' : State) : Prop where
  timer : s'.reconnectTimer.isSome = true
  sock : s'.sock = s.sock
  sockets : s'.sockets = s.sockets
  connecting : s'.connecting = s.connecting
  running : s'.intentionalClose = s.intentionalClose
  effects : ∀ effect ∈ s'.effects, effect ∈ s.effects ∨ effect.1 = .armed

theorem armed_scheduleReconnect (hrunning : s.intentionalClose = false) (countAttempt : Bool)
    (jitter : Nat) : Armed s (scheduleReconnect s countAttempt jitter) := by
  unfold scheduleReconnect
  split
  . next hidle =>
    have htimer : s.reconnectTimer.isSome = true := hidle.resolve_left (by simp [hrunning])
    exact ⟨htimer, rfl, rfl, rfl, rfl, fun _ he => .inl he⟩
  . refine ⟨rfl, rfl, rfl, rfl, rfl, fun effect he => ?_⟩
    rcases List.mem_append.mp he with he | he
    . exact .inl he
    . exact .inr (by rw [List.mem_singleton.mp he])

theorem armed_handleClose (hrunning : s.intentionalClose = false)
    (hterminal : isTerminal u.statusCode = false) : Armed s (handleClose s u) := by
  have h401 : u.statusCode ≠ some 401 := by
    rintro h
    simp [isTerminal, h] at hterminal
  simp only [handleClose, hrunning, h401, hterminal, Bool.false_eq_true, if_false]
  split
  . next htimer => exact ⟨htimer, rfl, rfl, rfl, rfl, fun _ he => .inl he⟩
  . have h := armed_scheduleReconnect (s := { setStatus s .initializing with
      reconnectAttempts :=
        if u.qrWindowEnded || decide (RECONNECT_STABILITY_RESET_MS < u.now - s.lastConnectionCloseAt) then 0
        else s.reconnectAttempts
      lastConnectionCloseAt := u.now }) hrunning (!u.qrWindowEnded) u.jitter
    exact ⟨h.timer, h.sock, h.sockets, h.connecting, h.running, h.effects⟩

theorem Armed.loop (h : Armed s s') (hrunning : s.intentionalClose = false)
    (horigin : ∀ c, s.connecting = some c → c.origin = .reconnect)
    (hwired : ∀ k, (s.sockets k).wired = true → s.sock = some k) : Loop s' where
  running := h.running.trans hrunning
  origin c hc := horigin c (h.connecting ▸ hc)
  wired k hk := h.sock ▸ hwired k (h.sockets ▸ hk)
  alive := .inl h.timer

theorem Armed.spares (h : Armed s s') (hspares : SparesHealthy s) : SparesHealthy s' := by
  intro k late he
  rcases h.effects _ he with he | he
  . exact hspares k late he
  . exact nomatch he

theorem Armed.spare (h : Armed s s') (hspares : SparesHealthy s)
    (hunhealthy : ∀ k, s.sock = some k → (s.sockets k).healthy = false) : Spare s' where
  unhealthy _ k hk := h.sockets ▸ hunhealthy k (h.sock ▸ hk)
  spares := h.spares hspares

theorem Loop.congr (h : Loop s) (hrunning : s'.intentionalClose = s.intentionalClose)
    (htimer : s'.reconnectTimer = s.reconnectTimer) (hconnecting : s'.connecting = s.connecting)
    (hsock : s'.sock = s.sock) (hsockets : s'.sockets = s.sockets) : Loop s' where
  running := hrunning.trans h.running
  origin c hc := h.origin c (hconnecting ▸ hc)
  wired k hk := hsock ▸ h.wired k (hsockets ▸ hk)
  alive := by
    unfold Alive
    rw [htimer, hconnecting, hsock, hsockets]
    exact h.alive

theorem Spare.congr (h : Spare s) (htimer : s'.reconnectTimer = s.reconnectTimer)
    (hconnecting : s'.connecting = s.connecting) (hsock : s'.sock = s.sock)
    (hsockets : s'.sockets = s.sockets) (heffects : s'.effects = s.effects) : Spare s' where
  unhealthy hbusy k hk := hsockets ▸ h.unhealthy (htimer ▸ hconnecting ▸ hbusy) k (hsock ▸ hk)
  spares k late he := h.spares k late (heffects ▸ he)

theorem loop_update (h : Loop s) {k : Nat} (hok : inLoop s (.update k u))
    (hk : (s.sockets k).wired = true) : Loop (handleConnectionUpdate s k u) := by
  rcases handleNewLogin_eq (s := s) (u := u) with ⟨status, attempts, hlogin⟩
  have hmodify : ∀ f : Socket → Socket, (∀ socket, (f socket).wired = socket.wired) →
      ∀ j, ((modifySocket s k f).sockets j).wired = (s.sockets j).wired := by
    intro f hf j
    by_cases hj : j = k
    . rw [hj, modifySocket_self, hf]
    . rw [modifySocket_of_ne hj]
  simp only [handleConnectionUpdate, hlogin]
  cases hconnection : u.connection with
  | none => exact h.congr rfl rfl rfl rfl rfl
  | some connection =>
    cases connection with
    | connecting => exact h.congr rfl rfl rfl rfl rfl
    | opened =>
      have hwired := hmodify (fun socket => { socket with healthy := true }) fun _ => rfl
      refine ⟨h.running, h.origin, fun j hj => h.wired j ((hwired j).symm.trans hj), ?_⟩
      refine h.alive.imp_right (Or.imp_right ?_)
      rintro ⟨j, hj, hjw, hjc⟩
      obtain rfl : k = j := Option.some.inj ((h.wired k hk).symm.trans hj)
      exact ⟨k, hj, (hwired k).trans hjw, by simpa [setStatus, modifySocket] using hjc⟩
    | close =>
      have hwired := hmodify (fun socket => { socket with closed := true, healthy := false }) fun _ => rfl
      refine (armed_handleClose ?_ (hok hconnection)).loop ?_ ?_ ?_
      . exact h.running
      . exact h.running
      . exact h.origin
      . exact fun j hj => h.wired j ((hwired j).symm.trans hj)

theorem spare_update (h : Spare s) (hloop : Loop s) {k : Nat} (hok : opensAlone s (.update k u))
    (hk : (s.sockets k).wired = true) : Spare (handleConnectionUpdate s k u) := by
  rcases handleNewLogin_eq (s := s) (u := u) with ⟨status, attempts, hlogin⟩
  simp only [handleConnectionUpdate, hlogin]
  cases hconnection : u.connection with
  | none => exact h.congr rfl rfl rfl rfl rfl
  | some connection =>
    cases connection with
    | connecting => exact h.congr rfl rfl rfl rfl rfl
    | opened =>
      rcases hok.2 hconnection with ⟨htimer, hconnecting⟩
      refine ⟨fun hbusy => ?_, h.spares⟩
      simp [setStatus, modifySocket, htimer, hconnecting] at hbusy
    | close =>
      refine (armed_handleClose ?_ (hok.1 hconnection)).spare ?_ ?_
      . exact hloop.running
      . exact h.spares
      . intro j hj
        obtain rfl : k = j := Option.some.inj ((hloop.wired k hk).symm.trans hj)
        simp [modifySocket]

theorem fireTimer_eq (hrunning : s.intentionalClose = false) :
    fireTimer s = emit { s with reconnectTimer := none } .attempt ∧ s.connecting.isSome = true ∨
      fireTimer s = { setStatus (emit { s with reconnectTimer := none } .attempt) .initializing with
        connecting := some ⟨.reconnect, 0⟩ } := by
  have hfire : fireTimer s = connect (emit { s with reconnectTimer := none } .attempt) .reconnect :=
    if_neg (by simp [hrunning])
  rw [hfire, connect]
  split
  . next hbusy => exact .inl ⟨rfl, hbusy⟩
  . exact .inr rfl

theorem loop_fireTimer (h : Loop s) : Loop (fireTimer s) := by
  rcases fireTimer_eq h.running with ⟨heq, hbusy⟩ | heq
  . rw [heq]
    exact ⟨h.running, h.origin, h.wired, .inr (.inl hbusy)⟩
  . rw [heq]
    refine ⟨h.running, fun c hc => ?_, h.wired, .inr (.inl rfl)⟩
    rw [← Option.some.inj hc]

theorem spare_fireTimer (h : Spare s) (hloop : Loop s) (htimer : s.reconnectTimer.isSome = true) :
    Spare (fireTimer s) := by
  have hspares : SparesHealthy (emit { s with reconnectTimer := none } .attempt) := by
    intro k late he
    rcases List.mem_append.mp he with he | he
    . exact h.spares k late he
    . simp at he
  rcases fireTimer_eq hloop.running with ⟨heq, -⟩ | heq
  . rw [heq]
    exact ⟨fun _ => h.unhealthy (.inl htimer), hspares⟩
  . rw [heq]
    exact ⟨fun _ => h.unhealthy (.inl htimer), hspares⟩

theorem armed_rejected (h : Loop s) {c : Connect} (hc : s.connecting = some c) (jitter : Nat) :
    Armed { s with connecting := none } (rejected s c.origin jitter) := by
  rw [h.origin c hc]
  exact armed_scheduleReconnect (s := { s with connecting := none }) h.running true jitter

theorem loop_rejected (h : Loop s) {c : Connect} (hc : s.connecting = some c) (jitter : Nat) :
    Loop (rejected s c.origin jitter) :=
  (armed_rejected h hc jitter).loop h.running (fun _ hn => nomatch hn) h.wired

theorem spare_rejected (h : Spare s) (hloop : Loop s) {c : Connect} (hc : s.connecting = some c)
    (jitter : Nat) : Spare (rejected s c.origin jitter) :=
  (armed_rejected hloop hc jitter).spare h.spares (h.unhealthy (.inr (by simp [hc])))

theorem endPrevious_connecting : (endPrevious s).connecting = s.connecting := by
  unfold endPrevious
  split <;> rfl

theorem endPrevious_unwired (h : Loop s) (k : Nat) : ((endPrevious s).sockets k).wired = false := by
  unfold endPrevious
  split
  . next j hj =>
    by_cases hk : k = j
    . simp [emit, hk, modifySocket]
    . have hunwired : (s.sockets k).wired ≠ true := fun hw => hk (Option.some.inj ((h.wired k hw).symm.trans hj))
      simpa [emit, modifySocket, hk] using hunwired
  . next hnone =>
    by_contra hw
    simp [h.wired k (by simpa using hw)] at hnone

theorem loop_endPrevious (h : Loop s) (hbusy : s.connecting.isSome = true) : Loop (endPrevious s) where
  running := by
    unfold endPrevious
    split <;> exact h.running
  origin c hc := h.origin c (endPrevious_connecting.symm.trans hc)
  wired k hk := by simp [endPrevious_unwired h k] at hk
  alive := .inr (.inl (by rw [endPrevious_connecting, hbusy]))

theorem spare_endPrevious (h : Spare s) (hbusy : s.connecting.isSome = true) : Spare (endPrevious s) := by
  unfold endPrevious
  split
  . next j hj =>
    have hunhealthy : (s.sockets j).healthy = false := h.unhealthy (.inr hbusy) j hj
    refine ⟨fun _ k hk => ?_, fun k late he => ?_⟩
    . obtain rfl : j = k := Option.some.inj (hj.symm.trans hk)
      simpa [emit, modifySocket] using hunhealthy
    . rcases List.mem_append.mp he with he | he
      . exact h.spares k late he
      . simp [hunhealthy] at he
  . exact h

theorem loop_createSocket (h : Loop s) (hunwired : ∀ k, (s.sockets k).wired = false) :
    Loop { createSocket s with connecting := none } where
  running := h.running
  origin _ hc := nomatch hc
  wired k hk := by
    by_cases hnext : k = s.next
    . rw [hnext]; rfl
    . simp [createSocket, emit, hnext, hunwired] at hk
  alive := .inr (.inr ⟨s.next, by simp [createSocket, emit]⟩)

theorem spare_createSocket (h : Spare s) : Spare { createSocket s with connecting := none } where
  unhealthy _ k hk := by
    obtain rfl : s.next = k := Option.some.inj hk
    simp [createSocket, emit]
  spares k late he := by
    rcases List.mem_append.mp he with he | he
    . exact h.spares k late he
    . simp at he

theorem loop_finishConnect (h : Loop s) {c : Connect} (hc : s.connecting = some c) (throws : Bool)
    (jitter : Nat) : Loop (finishConnect s c.origin throws jitter) := by
  have hended : Loop (endPrevious s) := loop_endPrevious h (by simp [hc])
  simp only [finishConnect, h.running, Bool.false_eq_true, if_false]
  split
  . exact loop_rejected hended (endPrevious_connecting.trans hc) jitter
  . exact loop_createSocket hended (endPrevious_unwired h)

theorem spare_finishConnect (h : Spare s) (hloop : Loop s) {c : Connect} (hc : s.connecting = some c)
    (throws : Bool) (jitter : Nat) : Spare (finishConnect s c.origin throws jitter) := by
  have hbusy : s.connecting.isSome = true := by simp [hc]
  have hended : Spare (endPrevious s) := spare_endPrevious h hbusy
  simp only [finishConnect, hloop.running, Bool.false_eq_true, if_false]
  split
  . exact spare_rejected hended (loop_endPrevious hloop hbusy) (endPrevious_connecting.trans hc) jitter
  . exact spare_createSocket hended

theorem loop_step (h : Loop s) (hok : inLoop s v) (hstep : machine.step s v = some s') : Loop s' := by
  cases v with
  | update k u =>
    simp only [machine, Option.ite_none_right_eq_some, Option.some.injEq] at hstep
    obtain ⟨hk, rfl⟩ := hstep
    exact loop_update h hok hk
  | timer =>
    simp only [machine, Option.ite_none_right_eq_some, Option.some.injEq] at hstep
    obtain ⟨-, rfl⟩ := hstep
    exact loop_fireTimer h
  | advance =>
    simp only [machine] at hstep
    split at hstep
    . next c hc =>
      simp only [Option.ite_none_right_eq_some, Option.some.injEq] at hstep
      obtain ⟨-, rfl⟩ := hstep
      refine ⟨h.running, fun c' hc' => ?_, h.wired, .inr (.inl rfl)⟩
      rw [← Option.some.inj hc']
      exact h.origin c hc
    . contradiction
  | fail jitter =>
    simp only [machine] at hstep
    split at hstep
    . next c hc =>
      obtain rfl := Option.some.inj hstep
      exact loop_rejected h hc jitter
    . contradiction
  | finish throws jitter =>
    simp only [machine] at hstep
    split at hstep
    . next c hc =>
      simp only [Option.ite_none_right_eq_some, Option.some.injEq] at hstep
      obtain ⟨-, rfl⟩ := hstep
      exact loop_finishConnect h hc throws jitter
    . contradiction
  | start | disconnect | logout | shutdown _ | destroy => exact hok.elim

theorem spare_step (h : Spare s) (hloop : Loop s) (hok : opensAlone s v)
    (hstep : machine.step s v = some s') : Spare s' := by
  cases v with
  | update k u =>
    simp only [machine, Option.ite_none_right_eq_some, Option.some.injEq] at hstep
    obtain ⟨hk, rfl⟩ := hstep
    exact spare_update h hloop hok hk
  | timer =>
    simp only [machine, Option.ite_none_right_eq_some, Option.some.injEq] at hstep
    obtain ⟨htimer, rfl⟩ := hstep
    exact spare_fireTimer h hloop htimer
  | advance =>
    simp only [machine] at hstep
    split at hstep
    . next c hc =>
      simp only [Option.ite_none_right_eq_some, Option.some.injEq] at hstep
      obtain ⟨-, rfl⟩ := hstep
      exact ⟨fun _ => h.unhealthy (.inr (by simp [hc])), h.spares⟩
    . contradiction
  | fail jitter =>
    simp only [machine] at hstep
    split at hstep
    . next c hc =>
      obtain rfl := Option.some.inj hstep
      exact spare_rejected h hloop hc jitter
    . contradiction
  | finish throws jitter =>
    simp only [machine] at hstep
    split at hstep
    . next c hc =>
      simp only [Option.ite_none_right_eq_some, Option.some.injEq] at hstep
      obtain ⟨-, rfl⟩ := hstep
      exact spare_finishConnect h hloop hc throws jitter
    . contradiction
  | start | disconnect | logout | shutdown _ | destroy => exact hok.1.elim

end Steps

section Main

variable {s₀ s : State}

/--
From a connected state on, whatever happens in the loop, the session is not stranded and only one socket
is listened to. As long as sockets open alone, attempts leave a healthy socket alone.
-/
theorem reconnect_loop (h₀ : Connected s₀) :
    (machine.Reach inLoop s₀ s → Alive s ∧ OneWired s) ∧
      (machine.Reach opensAlone s₀ s → Alive s ∧ OneWired s ∧ SparesHealthy s) := by
  constructor
  . intro h
    have hloop := Machine.Reach.invariant h₀.loop (fun _ _ _ h hok hs => loop_step h hok hs) h
    exact ⟨hloop.alive, hloop.oneWired⟩
  . intro h
    have hboth := Machine.Reach.invariant (P := fun s => Loop s ∧ Spare s) ⟨h₀.loop, h₀.spare⟩
      (fun _ _ _ h hok hs => ⟨loop_step h.1 hok.1 hs, spare_step h.2 h.1 hok hs⟩) h
    exact ⟨hboth.1.alive, hboth.1.oneWired, hboth.2.spares⟩

/-- The state after the first connect. -/
def connected : State :=
  { init with
    status := .initializing
    sock := some 0
    sockets := Function.update (fun _ => ⟨false, false, false⟩) 0 ⟨true, false, false⟩
    next := 1
    effects := [(.created 0, false)] }

example : machine.exec Machine.anyStep init firstConnect = some connected := rfl

theorem connected_connected : Connected connected where
  running := rfl
  timer := rfl
  connecting := rfl
  current := ⟨0, rfl, rfl, rfl⟩
  wired k hk := by
    by_cases h : k = 0
    . rw [h]; rfl
    . simp [connected, h] at hk
  spares k late h := by simp [connected] at h

/-- Two closes for one drop, a failed attempt, one that does not make its socket, and one that does. -/
theorem reconnect_loop_drop :
    ∃ s, machine.Reach opensAlone connected s ∧ (s.next, s.status) = (2, .ready) ∧
      Alive s ∧ OneWired s ∧ SparesHealthy s := by
  have hrun : (machine.exec opensAlone connected
      [.update 0 .opened, .update 0 (.close (some 503) 1000), .update 0 (.close none 1001), .timer, .advance,
        .fail 3, .timer, .advance, .advance, .finish true 4, .timer, .advance, .advance,
        .finish false 0, .update 1 .opened]).map (fun s => (s.next, s.status)) =
      some (2, .ready) := by
    decide +kernel
  rcases Machine.reach_of_exec_map hrun with ⟨s, hreach, hs⟩
  exact ⟨s, hreach, hs, (reconnect_loop connected_connected).2 hreach⟩

/--
A second close for one drop, handled while the attempt for the first is in flight, arms a timer that is
still pending when the new socket opens; the attempt that it starts ends this socket.
-/
theorem late_close_ends_healthy_socket :
    Connected connected ∧
      ∃ s, machine.Reach inLoop connected s ∧ (.ended 1 true, false) ∈ s.effects ∧ ¬ SparesHealthy s := by
  have hrun : (machine.exec inLoop connected
      [.update 0 .opened, .update 0 (.close (some 503) 1000), .timer, .advance, .update 0 (.close none 2500),
        .advance, .finish false 0, .update 1 .opened, .timer, .advance, .advance,
        .finish false 0]).map (·.effects) =
      some [(.created 0, false), (.armed, false), (.attempt, false), (.armed, false),
        (.ended 0 false, false), (.created 1, false), (.attempt, false), (.ended 1 true, false),
        (.created 2, false)] := by
    decide +kernel
  rcases Machine.reach_of_exec_map hrun with ⟨s, hreach, hs⟩
  have hended : (.ended 1 true, false) ∈ s.effects := by simp [hs]
  exact ⟨connected_connected, s, hreach, hended, fun h => h 1 false hended⟩

end Main
end OpenWA.Baileys
