import OpenWA.Restriction.Store

/-!
This module contains which reports of a restriction are announced, and that what is announced as lifted
was announced before.
-/

namespace OpenWA.Restriction

open Js Async

/-- What the reads serve of the session is new, and the report that made it so is announced. -/
def Announced (s : State) (v : Event) (s' : State) : Prop :=
  match v with
  | .onAccountRestriction sessionId _ _ =>
    ∀ restriction, inForce s' sessionId = some restriction →
      differs (inForce s sessionId) restriction = true →
      s'.announcements = s.announcements ++ [activation sessionId restriction]
  | _ => True

/-- The report does not repeat a restriction that is stored still although its end has passed. -/
def Unexpired (s : State) (v : Event) : Prop :=
  match v with
  | .onAccountRestriction sessionId true (some restriction) =>
    ∀ previous, s.restrictions.get? sessionId = some previous → hasExpired s previous = true →
      differs (some previous) restriction = false → hasExpired s restriction = true
  | _ => True

/-- The restriction was announced, and nothing of the session was announced as lifted since. -/
def Open (announcements : List Announcement) (sessionId : String) (kind : Kind) (code : String) :
    Prop :=
  ∃ before expiresAt after,
    announcements = before ++ ⟨sessionId, true, kind, code, expiresAt⟩ :: after ∧
      ∀ a ∈ after, a.sessionId = sessionId → a.active = true

/-- What is announced as lifted is open. -/
def Founded (announcements : List Announcement) : Prop :=
  ∀ before a after, announcements = before ++ a :: after → a.active = false →
    Open before a.sessionId a.kind a.code

section Log

variable {l : List Announcement} {a : Announcement} {sessionId : String} {kind : Kind} {code : String}

theorem Open.append (h : Open l sessionId kind code)
    (ha : a.sessionId = sessionId → a.active = true) : Open (l ++ [a]) sessionId kind code := by
  rcases h with ⟨before, expiresAt, after, rfl, hafter⟩
  refine ⟨before, expiresAt, after ++ [a], by simp, fun b hb => ?_⟩
  rcases List.mem_append.mp hb with hb | hb
  . exact hafter b hb
  . rw [List.mem_singleton.mp hb]
    exact ha

theorem open_activation (r : AccountRestriction) :
    Open (l ++ [activation sessionId r]) sessionId r.kind r.code :=
  ⟨l, r.expiresAt.filter (· ≠ 0), [], rfl, by simp⟩

theorem Founded.append (h : Founded l)
    (ha : a.active = false → Open l a.sessionId a.kind a.code) : Founded (l ++ [a]) := by
  intro before b after heq hb
  rcases List.append_eq_append_iff.mp heq with ⟨rest, hbefore, htail⟩ | ⟨rest, hl, htail⟩
  . cases rest with
    | nil =>
      simp only [List.nil_append, List.cons.injEq] at htail
      rw [hbefore, List.append_nil, ← htail.1]
      exact ha (htail.1 ▸ hb)
    | cons x rest =>
      simp at htail
  . cases rest with
    | nil =>
      simp only [List.nil_append, List.cons.injEq] at htail
      rw [List.append_nil] at hl
      rw [← hl, htail.1]
      exact ha (htail.1.symm ▸ hb)
    | cons x rest =>
      simp only [List.cons_append, List.cons.injEq] at htail
      exact h before b rest (htail.1 ▸ hl) hb

end Log

section Step

variable {s s' : State} {v : Event} {sessionId : String} {live : Bool} {restriction : AccountRestriction}

/-- What is stored was announced last. -/
structure Inv (s : State) : Prop where
  founded : Founded s.announcements
  stored : ∀ sessionId r, s.restrictions.get? sessionId = some r →
    Open s.announcements sessionId r.kind r.code

theorem inv_init (now : Int) : Inv (init now) where
  founded before a after h := by simp [init] at h
  stored _ _ h := by simp [init] at h

theorem inv_cleared (h : Inv s) (sessionId : String) :
    Inv (reportRestrictionLifted sessionId (clear s sessionId)) := by
  unfold reportRestrictionLifted clear
  cases hget : s.restrictions.get? sessionId with
  | none =>
    refine ⟨h.founded, fun id r hr => ?_⟩
    simp only [Map.get?_delete] at hr
    split at hr
    . contradiction
    . exact h.stored id r hr
  | some lifted =>
    constructor
    . exact h.founded.append fun _ => h.stored sessionId lifted hget
    . intro id r hr
      simp only [announce, Map.get?_delete] at hr
      split at hr
      . contradiction
      . next hne => exact (h.stored id r hr).append fun heq => absurd heq.symm hne

theorem inv_ready (h : Inv s) (sessionId : String) :
    Inv (reportRestrictionLifted sessionId (clearIfDisprovedByReady s sessionId)) := by
  unfold clearIfDisprovedByReady
  split
  . exact h
  . split
    . exact h
    . exact inv_cleared h sessionId

theorem inv_report (h : Inv s) (sessionId : String) (r : AccountRestriction) :
    Inv (onAccountRestriction s sessionId true (some r)) := by
  have hstored (l : List Announcement)
      (hopen : ∀ id p, s.restrictions.get? id = some p → Open l id p.kind p.code)
      (hnew : Open l sessionId r.kind r.code) (id : String) (p : AccountRestriction)
      (hp : (s.restrictions.set sessionId r).get? id = some p) : Open l id p.kind p.code := by
    rw [Map.get?_set] at hp
    split at hp
    . next heq =>
      obtain rfl := Option.some.inj hp
      exact heq ▸ hnew
    . exact hopen id p hp
  simp only [onAccountRestriction, if_true, set]
  cases hdiffers : differs (s.restrictions.get? sessionId) r with
  | true =>
    constructor
    . exact h.founded.append fun hfalse => by simp [activation] at hfalse
    . refine hstored _ (fun id p hp => (h.stored id p hp).append fun _ => rfl) (open_activation r)
  | false =>
    refine ⟨h.founded, hstored _ h.stored ?_⟩
    cases hget : s.restrictions.get? sessionId with
    | none => simp [hget, differs] at hdiffers
    | some p =>
      have hsame : p.kind = r.kind ∧ p.code = r.code := by
        simpa [hget, differs] using hdiffers
      exact hsame.1 ▸ hsame.2 ▸ h.stored sessionId p hget

theorem inv_step (h : Inv s) (hstep : machine.step s v = some s') : Inv s' := by
  cases v with
  | elapse ms =>
    obtain rfl := Option.some.inj hstep
    exact ⟨h.founded, h.stored⟩
  | onAccountRestriction sessionId live restriction =>
    obtain rfl := Option.some.inj hstep
    cases live with
    | false => exact h
    | true =>
      cases restriction with
      | none => exact inv_cleared h sessionId
      | some r => exact inv_report h sessionId r
  | onReady sessionId live =>
    obtain rfl := Option.some.inj hstep
    cases live with
    | false => exact h
    | true => exact inv_ready h sessionId

def stored (s : State) (sessionId : String) (restriction : AccountRestriction) : State :=
  { s with restrictions := s.restrictions.set sessionId restriction }

theorem report_eq :
    onAccountRestriction s sessionId true (some restriction) =
      if differs (s.restrictions.get? sessionId) restriction then
        announce (stored s sessionId restriction) (activation sessionId restriction)
      else stored s sessionId restriction := by
  simp only [onAccountRestriction, if_true, set, stored]
  cases differs (s.restrictions.get? sessionId) restriction <;> rfl

theorem inForce_report :
    inForce (onAccountRestriction s sessionId true (some restriction)) sessionId =
      if hasExpired s restriction then none else some restriction := by
  have hstored : inForce (stored s sessionId restriction) sessionId =
      if hasExpired s restriction then none else some restriction := by
    simp only [inForce, stored, Map.get?_set, if_true]
    rfl
  rw [report_eq]
  split <;> exact hstored

theorem announcements_report :
    (onAccountRestriction s sessionId true (some restriction)).announcements =
      s.announcements ++
        if differs (s.restrictions.get? sessionId) restriction then
          [activation sessionId restriction] else [] := by
  rw [report_eq]
  split <;> simp [announce, stored]

theorem announced_report :
    Announced s (.onAccountRestriction sessionId true (some restriction))
        (onAccountRestriction s sessionId true (some restriction)) ↔
      Unexpired s (.onAccountRestriction sessionId true (some restriction)) := by
  simp only [Announced, Unexpired]
  rw [inForce_report, announcements_report]
  cases hover : hasExpired s restriction with
  | true => simp
  | false =>
    cases hget : s.restrictions.get? sessionId with
    | none => simp [inForce, hget, differs]
    | some previous =>
      cases hexpired : hasExpired s previous with
      | false =>
        simp only [inForce, hget, hexpired]
        simp +contextual [hexpired]
      | true =>
        cases hdiffers : differs (some previous) restriction with
        | true => simp [hdiffers]
        | false =>
          have hnone : differs none restriction = true := by simp [differs]
          simp [inForce, hget, hexpired, hdiffers, hnone]

theorem inForce_cleared :
    inForce (reportRestrictionLifted sessionId (clear s sessionId)) sessionId = none := by
  have hdeleted (l : List Announcement) :
      inForce { s with restrictions := s.restrictions.delete sessionId, announcements := l } sessionId =
        none := by
    simp [inForce]
  unfold reportRestrictionLifted clear
  cases s.restrictions.get? sessionId <;> exact hdeleted _

theorem announced_of_same (h : inForce s' sessionId = inForce s sessionId) {report : Option AccountRestriction} :
    Announced s (.onAccountRestriction sessionId live report) s' := by
  intro r hr hdiffers
  rw [← h, hr] at hdiffers
  simp [differs] at hdiffers

theorem announced_iff (hstep : machine.step s v = some s') : Announced s v s' ↔ Unexpired s v := by
  cases v with
  | elapse ms => exact Iff.rfl
  | onReady sessionId live => exact Iff.rfl
  | onAccountRestriction sessionId live report =>
    obtain rfl := Option.some.inj hstep
    cases live with
    | false => exact iff_of_true (announced_of_same rfl) trivial
    | true =>
      cases report with
      | some restriction => exact announced_report
      | none =>
        refine iff_of_true (fun r hr _ => ?_) trivial
        simp only [onAccountRestriction, if_true] at hr
        rw [inForce_cleared] at hr
        contradiction

end Step

/-- **Main result**: in every state of a run whatever is announced as lifted was announced as in force
and not lifted since, and a report that makes reads serve a new restriction is announced if and only if
it does not repeat a restriction that is stored still although its end has passed. -/
theorem announced_of_reach {now : Int} {s : State} (h : machine.Reach Machine.anyStep (init now) s) :
    Founded s.announcements ∧
      ∀ v s', machine.step s v = some s' → (Announced s v s' ↔ Unexpired s v) :=
  ⟨(h.invariant (inv_init now) fun _ _ _ hinv _ hstep => inv_step hinv hstep).founded,
    fun _ _ hstep => announced_iff hstep⟩

/-! ### Fixed runs -/

def timelock (expiresAt : Int) : AccountRestriction :=
  ⟨.reachoutTimelock, "BIZ_QUALITY", some expiresAt⟩

/-- A timelock runs out, and the next connection reports a new one. -/
def renewed : List Event :=
  [.onAccountRestriction "s" true (some (timelock 1000)), .elapse 1000]

theorem announced_of_reach_renewed :
    ∃ s, machine.Reach Machine.anyStep (init 0) s ∧ s.now = 1000 ∧ Founded s.announcements ∧
      ∀ v s', machine.step s v = some s' → (Announced s v s' ↔ Unexpired s v) := by
  have hrun : (machine.exec Machine.anyStep (init 0) renewed).map State.now = some 1000 := by
    decide +kernel
  rcases Machine.reach_of_exec_map hrun with ⟨s, hreach, hnow⟩
  have h := announced_of_reach hreach
  exact ⟨s, hreach, hnow, h.1, h.2⟩

/-- The second timelock is served, and it is never announced. -/
theorem not_announced_renewed :
    ((machine.exec Machine.anyStep (init 0) renewed).map fun s =>
        (inForce s "s", s.announcements.length)) = some (none, 1) ∧
      ((machine.exec Machine.anyStep (init 0)
          (renewed ++ [.onAccountRestriction "s" true (some (timelock 5000))])).map fun s =>
        (inForce s "s", s.announcements.length)) = some (some (timelock 5000), 1) := by
  decide +kernel

end OpenWA.Restriction
