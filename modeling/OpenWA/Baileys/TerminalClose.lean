import OpenWA.Baileys.Lifecycle

/-!
This module contains what a terminal close and a teardown rule out: reconnect attempts, sockets and
reconnect timers that come after them.
-/

namespace OpenWA.Baileys

open Async

/-- Nothing came after a terminal close or a teardown. -/
def Silent (s : State) : Prop := ∀ effect ∈ s.effects, effect.2 = false

/--
A terminal close is handled with neither a reconnect timer pending nor a connect in flight, and after it
there is neither a transient close nor an `initialize`. Once the latch is set nothing is asked for.
-/
def undisturbed (s : State) (v : Event) : Prop :=
  match v with
  | .update _ u =>
    u.connection = some .close → s.intentionalClose = false →
      if isTerminal u.statusCode then s.reconnectTimer = none ∧ s.connecting = none
      else s.final = false
  | .start => s.intentionalClose = false → s.final = false
  | _ => True

instance (s : State) (v : Event) : Decidable (undisturbed s v) :=
  match v with
  | .update _ u =>
    inferInstanceAs (Decidable (u.connection = some .close → s.intentionalClose = false →
      if isTerminal u.statusCode then s.reconnectTimer = none ∧ s.connecting = none
      else s.final = false))
  | .start => inferInstanceAs (Decidable (s.intentionalClose = false → s.final = false))
  | .timer | .advance | .fail _ | .finish _ _ | .disconnect | .logout | .shutdown _ | .destroy =>
    inferInstanceAs (Decidable True)

structure Settled (s : State) : Prop where
  latched : s.intentionalClose = true → s.final = true
  timer : s.final = true → s.reconnectTimer = none
  stopped : s.final = true → s.intentionalClose = true ∨ s.connecting = none
  silent : Silent s

section Steps

variable {s s' : State} {v : Event} {u : Update}

theorem settled_init : Settled init where
  latched h := h
  timer _ := rfl
  stopped h := nomatch h
  silent _ h := nomatch h

theorem Settled.congr (h : Settled s) (hlatch : s'.intentionalClose = s.intentionalClose)
    (htimer : s'.reconnectTimer = s.reconnectTimer) (hconnecting : s'.connecting = s.connecting)
    (hfinal : s'.final = s.final) (heffects : s'.effects = s.effects) : Settled s' where
  latched hl := hfinal ▸ h.latched (hlatch ▸ hl)
  timer hf := htimer ▸ h.timer (hfinal ▸ hf)
  stopped hf := hlatch ▸ hconnecting ▸ h.stopped (hfinal ▸ hf)
  silent effect he := h.silent effect (heffects ▸ he)

theorem Settled.of_open (hfinal : s.final = false) (hlatch : s.intentionalClose = false)
    (hsilent : Silent s) : Settled s where
  latched hl := by simp [hlatch] at hl
  timer hf := by simp [hfinal] at hf
  stopped hf := by simp [hfinal] at hf
  silent := hsilent

theorem Settled.not_final (h : Settled s) (hlatch : s.intentionalClose = false)
    (hbusy : s.reconnectTimer.isSome = true ∨ s.connecting.isSome = true) : s.final = false := by
  by_contra hf
  rw [Bool.not_eq_false] at hf
  rcases hbusy with htimer | hconnecting
  . simp [h.timer hf] at htimer
  . rcases h.stopped hf with hl | hnone
    . simp [hl] at hlatch
    . simp [hnone] at hconnecting

theorem Silent.emit (h : Silent s) (hfinal : s.final = false) {effect : Effect} :
    Silent (emit s effect) := by
  intro e he
  rcases List.mem_append.mp he with he | he
  . exact h e he
  . rw [List.mem_singleton.mp he]
    exact hfinal

theorem settled_scheduleReconnect (h : Settled s) (hopen : s.intentionalClose = true ∨ s.final = false)
    (countAttempt : Bool) (jitter : Nat) : Settled (scheduleReconnect s countAttempt jitter) := by
  unfold scheduleReconnect
  split
  . exact h
  . next hidle =>
    rw [not_or, Bool.not_eq_true] at hidle
    have hfinal : s.final = false := hopen.resolve_left (by simp [hidle.1])
    exact .of_open hfinal hidle.1 (Silent.emit (fun e he => h.silent e he) hfinal)

theorem Settled.not_latched (h : Settled s) (hfinal : s.final = false) : s.intentionalClose = false := by
  by_contra hl
  simp [h.latched (by simpa using hl)] at hfinal

theorem settled_connect (h : Settled s) (hfinal : s.final = false) (origin : Origin) :
    Settled (connect s origin) := by
  unfold connect
  split
  . exact h
  . exact .of_open hfinal (h.not_latched hfinal) fun e he => h.silent e he

theorem settled_start (h : Settled s) (hok : undisturbed s .start) : Settled (start s) := by
  unfold start
  split
  . exact h
  . next hl => exact settled_connect h (hok (by simpa using hl)) .first

theorem settled_fireTimer (h : Settled s) (htimer : s.reconnectTimer.isSome = true) :
    Settled (fireTimer s) := by
  have hcleared : Settled { s with reconnectTimer := none } := ⟨h.latched, fun _ => rfl, h.stopped, h.silent⟩
  simp only [fireTimer]
  split
  . exact hcleared
  . next hl =>
    have hlatch : s.intentionalClose = false := by simpa using hl
    have hfinal : s.final = false := h.not_final hlatch (.inl htimer)
    have hemit : Silent (emit { s with reconnectTimer := none } .attempt) :=
      Silent.emit hcleared.silent hfinal
    exact settled_connect (.of_open (by exact hfinal) (by exact hlatch) hemit) hfinal .reconnect

theorem settled_rejected (h : Settled s) {c : Connect} (hc : s.connecting = some c) (jitter : Nat) :
    Settled (rejected s c.origin jitter) := by
  have hcleared : Settled { s with connecting := none } := ⟨h.latched, h.timer, fun _ => .inr rfl, h.silent⟩
  simp only [rejected]
  cases c.origin with
  | first => exact hcleared.congr rfl rfl rfl rfl rfl
  | reconnect =>
    refine settled_scheduleReconnect hcleared ?_ true jitter
    cases hl : s.intentionalClose with
    | false => exact .inr (h.not_final hl (.inr (by simp [hc])))
    | true => exact .inl rfl

theorem settled_finishConnect (h : Settled s) {c : Connect} (hc : s.connecting = some c)
    (throws : Bool) (jitter : Nat) : Settled (finishConnect s c.origin throws jitter) := by
  simp only [finishConnect]
  split
  . exact ⟨h.latched, h.timer, fun _ => .inr rfl, h.silent⟩
  . next hl =>
    have hlatch : s.intentionalClose = false := by simpa using hl
    have hfinal : s.final = false := h.not_final hlatch (.inr (by simp [hc]))
    have hended : Settled (endPrevious s) ∧ (endPrevious s).connecting = s.connecting ∧
        (endPrevious s).final = false ∧ (endPrevious s).intentionalClose = false := by
      unfold endPrevious
      split
      . exact ⟨.of_open hfinal hlatch (Silent.emit (fun e he => h.silent e he) hfinal), rfl, hfinal, hlatch⟩
      . exact ⟨h, rfl, hfinal, hlatch⟩
    rcases hended with ⟨hsettled, hconnecting, hfinal', hlatch'⟩
    split
    . exact settled_rejected hsettled (hconnecting.trans hc) jitter
    . exact .of_open hfinal' hlatch' (Silent.emit (fun e he => hsettled.silent e he) hfinal')

theorem settled_handleClose (h : Settled s)
    (hok : s.intentionalClose = false →
      if isTerminal u.statusCode then s.reconnectTimer = none ∧ s.connecting = none
      else s.final = false) : Settled (handleClose s u) := by
  unfold handleClose
  split
  . exact h.congr rfl rfl rfl rfl rfl
  . next hl =>
    have hlatch : s.intentionalClose = false := by simpa using hl
    have hcond := hok hlatch
    cases hterminal : isTerminal u.statusCode with
    | true =>
      rw [if_pos hterminal] at hcond
      split
      . exact ⟨fun _ => rfl, fun _ => hcond.1, fun _ => .inr hcond.2, h.silent⟩
      . exact ⟨fun _ => rfl, fun _ => hcond.1, fun _ => .inr hcond.2, h.silent⟩
    | false =>
      rw [hterminal] at hcond
      have hfinal : s.final = false := by simpa using hcond
      rw [if_neg (by rintro h401; simp [isTerminal, h401] at hterminal), if_neg (by simp)]
      have hopen : Settled (setStatus s .initializing) := h.congr rfl rfl rfl rfl rfl
      simp only
      split
      . exact hopen
      . apply settled_scheduleReconnect
        . exact hopen.congr rfl rfl rfl rfl rfl
        . exact .inr hfinal

theorem settled_update (h : Settled s) {k : Nat} (hok : undisturbed s (.update k u)) :
    Settled (handleConnectionUpdate s k u) := by
  rcases handleNewLogin_eq (s := s) (u := u) with ⟨status, attempts, hlogin⟩
  simp only [handleConnectionUpdate, hlogin]
  cases hconnection : u.connection with
  | none => exact h.congr rfl rfl rfl rfl rfl
  | some connection =>
    cases connection with
    | connecting => exact h.congr rfl rfl rfl rfl rfl
    | opened => exact h.congr rfl rfl rfl rfl rfl
    | close => exact settled_handleClose (h.congr rfl rfl rfl rfl rfl) (hok hconnection)

theorem settled_tearDown (h : Settled s) : Settled (tearDown s) :=
  ⟨fun _ => rfl, fun _ => rfl, fun _ => .inl rfl, h.silent⟩

theorem settled_logout (h : Settled s) : Settled (logout s) := by
  simp only [logout]
  split <;> exact ⟨fun _ => rfl, fun _ => rfl, fun _ => .inl rfl, h.silent⟩

theorem settled_localSocketShutdown (h : Settled s) (k : Nat) : Settled (localSocketShutdown s k) :=
  ⟨h.latched, fun _ => rfl, h.stopped, h.silent⟩

theorem settled_step (h : Settled s) (hok : undisturbed s v) (hstep : machine.step s v = some s') :
    Settled s' := by
  cases v with
  | start =>
    obtain rfl := Option.some.inj hstep
    exact settled_start h hok
  | update k u =>
    simp only [machine, Option.ite_none_right_eq_some, Option.some.injEq] at hstep
    obtain ⟨-, rfl⟩ := hstep
    exact settled_update h hok
  | timer =>
    simp only [machine, Option.ite_none_right_eq_some, Option.some.injEq] at hstep
    obtain ⟨htimer, rfl⟩ := hstep
    exact settled_fireTimer h htimer
  | advance =>
    simp only [machine] at hstep
    split at hstep
    . next c hc =>
      simp only [Option.ite_none_right_eq_some, Option.some.injEq] at hstep
      obtain ⟨-, rfl⟩ := hstep
      exact ⟨h.latched, h.timer, fun hf => (h.stopped hf).imp_right fun hn => by simp [hn] at hc, h.silent⟩
    . contradiction
  | fail jitter =>
    simp only [machine] at hstep
    split at hstep
    . next c hc =>
      obtain rfl := Option.some.inj hstep
      exact settled_rejected h hc jitter
    . contradiction
  | finish throws jitter =>
    simp only [machine] at hstep
    split at hstep
    . next c hc =>
      simp only [Option.ite_none_right_eq_some, Option.some.injEq] at hstep
      obtain ⟨-, rfl⟩ := hstep
      exact settled_finishConnect h hc throws jitter
    . contradiction
  | disconnect | destroy =>
    obtain rfl := Option.some.inj hstep
    exact settled_tearDown h
  | logout =>
    obtain rfl := Option.some.inj hstep
    exact settled_logout h
  | shutdown k =>
    simp only [machine, Option.ite_none_right_eq_some, Option.some.injEq] at hstep
    obtain ⟨-, rfl⟩ := hstep
    exact settled_localSocketShutdown h k

end Steps

section Main

variable {s : State}

/-- In every run whose steps all meet the condition, what ended the session was the last of it. -/
theorem terminal_close_final (h : machine.Reach undisturbed init s) : Silent s :=
  (Machine.Reach.invariant settled_init (fun _ _ _ h hok hs => settled_step h hok hs) h).silent

/-- It drops and comes back, and its second socket is refused twice; then it is stopped for good. -/
theorem terminal_close_final_refused :
    ∃ s, machine.Reach undisturbed init s ∧ (s.next, s.status, s.final) = (2, .disconnected, true) ∧
      Silent s := by
  have hrun : (machine.exec undisturbed init (firstConnect ++
      [.update 0 .opened, .update 0 (.close (some 503) 1000), .update 0 (.close (some 428) 1001), .timer,
        .advance, .fail 7, .timer, .advance, .advance, .finish false 0, .update 1 .opened,
        .update 1 (.close (some 403) 9000), .update 1 (.close (some 440) 9001), .destroy])).map
      (fun s => (s.next, s.status, s.final)) = some (2, .disconnected, true) := by
    decide +kernel
  rcases Machine.reach_of_exec_map hrun with ⟨s, hreach, hs⟩
  exact ⟨s, hreach, hs, terminal_close_final hreach⟩

/--
A dropped socket arms the timer and then closes once more with 440: the timer is left, fires after the
session has failed, and the attempt makes a new socket.
-/
theorem pending_timer_survives_terminal_close :
    ∃ s, machine.Reach Machine.anyStep init s ∧ s.status = .initializing ∧ s.sock = some 1 ∧
      s.effects = [(.created 0, false), (.armed, false), (.attempt, true), (.ended 0 false, true),
        (.created 1, true)] ∧ ¬ Silent s := by
  have hrun : (machine.exec Machine.anyStep init (firstConnect ++
      [.update 0 .opened, .update 0 (.close (some 503) 1000), .update 0 (.close (some 440) 1001), .timer,
        .advance, .advance, .finish false 0])).map (fun s => (s.status, s.sock, s.effects)) =
      some (.initializing, some 1,
        [(.created 0, false), (.armed, false), (.attempt, true), (.ended 0 false, true),
          (.created 1, true)]) := by
    decide +kernel
  rcases Machine.reach_of_exec_map hrun with ⟨s, hreach, hs⟩
  simp only [Prod.mk.injEq] at hs
  rcases hs with ⟨hstatus, hsock, heffects⟩
  refine ⟨s, hreach, hstatus, hsock, heffects, fun hsilent => ?_⟩
  exact absurd (hsilent (.attempt, true) (by simp [heffects])) (by simp)

end Main
end OpenWA.Baileys
