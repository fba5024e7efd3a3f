import OpenWA.Async.Outline
import OpenWA.Message.BulkMessage

/-!
This module contains the progress counters of a batch: when every stored row accounts for all its messages
and agrees with its results, whatever a run and the cancels of the batch do.
-/

namespace OpenWA.Message

open Async

/-- The history of a batch with one run. -/
structure RunHistory where
  /-- The activation of the run. -/
  runner : Option Nat
  /-- The run has taken its start UPDATE. -/
  begun : Bool
  /-- The indices handed to the engine. -/
  sends : List Nat
  /-- The counters that each cancel read. -/
  reads : List (Nat × BatchProgress)

def noteRun (a : Act BatchEvent Answer Loc) (s _s' : Store) (hist : RunHistory) : RunHistory :=
  match a with
  | .event tid (.processBatch _) => { hist with runner := some tid }
  | .event _ _ => hist
  | .turn tid l x =>
    match l.place with
    | .markProcessing => if x = .fault then hist else { hist with begun := true }
    | .send i => { hist with sends := hist.sends ++ [i] }
    | .cancelFind =>
      if x = .fault then hist else { hist with reads := (tid, s.row.progress) :: hist.reads }
    | _ => hist

/-- The batch as a system; its history is that of its run and of its cancels. -/
def progressSystem : System Store Answer Loc BatchError BatchEvent RunHistory where
  event := batchEvent
  note := noteRun

abbrev RunWorld := World Store RunHistory

/-- One run, and cancels. -/
def OneRun (w : RunWorld) (a : Act BatchEvent Answer Loc) : Prop :=
  match a with
  | .event _ (.processBatch _) => w.hist.runner = none
  | .event _ (.cancelBatch _) | .turn .. => True
  | .event _ (.bootstrap _) | .event _ (.reap _) | .event _ (.crash _) => False

/-- A cancel writes the counters that it has read only if they are the stored ones still. -/
def CancelsCurrent (w : RunWorld) (a : Act BatchEvent Answer Loc) : Prop :=
  match a with
  | .turn tid l x =>
    l.place = .cancelUpdate → x = .ok → pendingOrProcessing w.st.row.status = true →
      w.hist.reads.lookup tid = some w.st.row.progress
  | .event .. => OneRun w a

instance (w : RunWorld) (a : Act BatchEvent Answer Loc) : Decidable (OneRun w a) :=
  match a with
  | .event _ (.processBatch _) => inferInstanceAs (Decidable (_ = _))
  | .event _ (.cancelBatch _) | .turn .. => inferInstanceAs (Decidable True)
  | .event _ (.bootstrap _) | .event _ (.reap _) | .event _ (.crash _) =>
    inferInstanceAs (Decidable False)

instance (w : RunWorld) (a : Act BatchEvent Answer Loc) : Decidable (CancelsCurrent w a) :=
  match a with
  | .turn .. => inferInstanceAs (Decidable (_ → _ → _ → _))
  | .event tid v => inferInstanceAs (Decidable (OneRun w (.event tid v)))

section Accounts

def sentIn (results : List BatchMessageResult) : Nat := results.countP fun r => !r.outcome.isFailed

def failedIn (results : List BatchMessageResult) : Nat := results.countP fun r => r.outcome.isFailed

/-- The counters account for all messages and agree with the results. -/
structure Accounts (progress : BatchProgress) (results : List BatchMessageResult) : Prop where
  sum : progress.sent + progress.failed + progress.pending + progress.cancelled = progress.total
  pending : 0 ≤ progress.pending
  cancelled : 0 ≤ progress.cancelled
  sent : progress.sent = sentIn results
  failed : progress.failed = failedIn results

/-- What a stored row should show, and what should have been sent by then. -/
structure Accounted (w : RunWorld) : Prop where
  accounts : Accounts w.st.row.progress w.st.row.results
  nonneg : 0 ≤ w.st.row.progress.sent ∧ 0 ≤ w.st.row.progress.failed
  once : w.hist.sends.Nodup

variable {progress : BatchProgress} {results : List BatchMessageResult}

theorem Accounts.asCancelled (h : Accounts progress results) (hcancelled : progress.cancelled = 0) :
    Accounts { progress with cancelled := progress.pending, pending := 0 } results where
  sum := by
    have hsum := h.sum
    simp only
    omega
  pending := Int.le_refl 0
  cancelled := h.pending
  sent := h.sent
  failed := h.failed

end Accounts

/-- A row as `createBatch` stores it, as far as its progress goes. -/
structure Fresh (n : Nat) (row : MessageBatch) : Prop where
  progress : row.progress = ⟨n, 0, 0, n, 0⟩
  results : row.results = []
  currentIndex : row.currentIndex = 0
  messages : row.messages.length = n

structure ProgressInv (n : Nat) (w : RunWorld) : Prop where
  accounts : Accounts w.st.row.progress w.st.row.results
  cancelled : w.st.row.status ≠ .cancelled → w.st.row.progress.cancelled = 0
  fresh : w.hist.begun = false → w.st.row.status ≠ .cancelled → Fresh n w.st.row
  idle : w.hist.runner = none → w.hist.begun = false ∧ w.hist.sends = []
  sends : ∃ k, w.hist.sends = List.range k

/-- What the run notes of itself is left alone by the others, and so is what a cancel read. -/
structure Undisturbed (tid : Nat) (w w' : RunWorld) : Prop where
  run : w.hist.runner = some tid →
    w'.hist.runner = some tid ∧ w'.hist.begun = w.hist.begun ∧ w'.hist.sends = w.hist.sends
  reads : w'.hist.reads.lookup tid = w.hist.reads.lookup tid

def progressOutline (n : Nat) : Outline progressSystem where
  ok := CancelsCurrent
  inv := ProgressInv n
  rely := Undisturbed
  chk _ _ _ := True
  post _ _ _ := True

section Turns

variable {α : Type} {n tid pid : Nat} {place : Place} {w w₁ w₂ w₃ : RunWorld}
  {Q : α → RunWorld → Prop} {E : BatchError → RunWorld → Prop}

theorem undisturbed_refl (w : RunWorld) : Undisturbed tid w w := ⟨fun h => ⟨h, rfl, rfl⟩, rfl⟩

theorem Undisturbed.trans (h : Undisturbed tid w₁ w₂) (h' : Undisturbed tid w₂ w₃) :
    Undisturbed tid w₁ w₃ where
  run hrun := by
    rcases h.run hrun with ⟨hrun₂, hbegun₂, hsends₂⟩
    rcases h'.run hrun₂ with ⟨hrun₃, hbegun₃, hsends₃⟩
    exact ⟨hrun₃, hbegun₃.trans hbegun₂, hsends₃.trans hsends₂⟩
  reads := h'.reads.trans h.reads

/-- The places whose turns are noted. -/
def Place.noted (place : Place) : Bool :=
  match place with
  | .markProcessing | .send _ | .cancelFind => true
  | _ => false

theorem noteRun_of_not_noted {l : Loc} {x : Answer} {s s' : Store} {hist : RunHistory}
    (h : l.place.noted = false) : noteRun (.turn tid l x) s s' hist = hist := by
  unfold noteRun
  unfold Place.noted at h
  grind

theorem noteRun_fault {l : Loc} {s s' : Store} {hist : RunHistory} (h : ∀ i, l.place ≠ .send i) :
    noteRun (.turn tid l .fault) s s' hist = hist := by
  unfold noteRun
  grind

theorem keeps_row {l : Loc} {x : Answer} {s : Store}
    (hnote : noteRun (.turn tid l x) w.st s w.hist = w.hist) (hinv : ProgressInv n ⟨s, w.hist, w.started⟩) :
    (progressOutline n).Keeps tid w (.turn tid l x) s ∧
      progressSystem.after w (.turn tid l x) s = ⟨s, w.hist, w.started⟩ := by
  have hafter : progressSystem.after w (.turn tid l x) s = ⟨s, w.hist, w.started⟩ := by
    simp [System.after, progressSystem, hnote]
  refine ⟨⟨trivial, hafter ▸ hinv, fun j _ _ => ?_⟩, hafter⟩
  rw [hafter]
  exact ⟨fun h => ⟨h, rfl, rfl⟩, rfl⟩

theorem safe_rowQuery {f : Store → Store × α} (hplace : place.noted = false)
    (hok : ∀ w', Undisturbed tid w w' → ProgressInv n w' → CancelsCurrent w' (.turn tid ⟨pid, place⟩ .ok) →
      ProgressInv n ⟨(f w'.st).1, w'.hist, w'.started⟩ ∧
        Q (f w'.st).2 ⟨(f w'.st).1, w'.hist, w'.started⟩)
    (hfault : ∀ w', Undisturbed tid w w' → E .repository w') :
    (progressOutline n).Safe tid (query pid place f) w Q E := by
  unfold query
  apply Outline.safe_await
  intro w' x hrely hinv _ hready hcurrent
  simp only [Bool.and_eq_true, Bool.or_eq_true, decide_eq_true_eq] at hready
  rcases hready with ⟨-, rfl | rfl⟩
  . obtain ⟨hinv', hQ⟩ := hok w' hrely hinv hcurrent
    obtain ⟨hkeeps, hafter⟩ := keeps_row (l := ⟨pid, place⟩) (x := .ok) (s := (f w'.st).1)
      (noteRun_of_not_noted hplace) hinv'
    exact ⟨hkeeps, hafter ▸ hQ⟩
  . obtain ⟨hkeeps, hafter⟩ := keeps_row (l := ⟨pid, place⟩) (x := .fault) (s := w'.st)
      (noteRun_of_not_noted hplace) hinv
    exact ⟨hkeeps, hafter ▸ hfault w' hrely⟩

theorem safe_rowRead {f : Store → α} (hplace : place.noted = false)
    (hok : ∀ w', Undisturbed tid w w' → ProgressInv n w' → Q (f w'.st) w')
    (hfault : ∀ w', Undisturbed tid w w' → E .repository w') :
    (progressOutline n).Safe tid (query pid place fun s => (s, f s)) w Q E :=
  safe_rowQuery hplace (fun w' hrely hinv _ => ⟨hinv, hok w' hrely hinv⟩) hfault

theorem safe_memoryTurn {f : Store → Store × Except BatchError α} (hplace : place.noted = false)
    (hrow : ∀ s, (f s).1.row = s.row)
    (hok : ∀ w' w'' : RunWorld, Undisturbed tid w w'' →
      (progressOutline n).Safe tid (Task.ofExcept (f w'.st).2 : Job α) w'' Q E) :
    (progressOutline n).Safe tid (turn pid place f) w Q E := by
  unfold turn
  apply Outline.safe_await
  intro w' x hrely hinv _ _ _
  have hinv' : ProgressInv n ⟨(f w'.st).1, w'.hist, w'.started⟩ :=
    ⟨hrow w'.st ▸ hinv.accounts, hrow w'.st ▸ hinv.cancelled, hrow w'.st ▸ hinv.fresh, hinv.idle, hinv.sends⟩
  obtain ⟨hkeeps, hafter⟩ := keeps_row (l := ⟨pid, place⟩) (x := x) (noteRun_of_not_noted hplace) hinv'
  rw [hafter]
  exact ⟨hkeeps, hok w' _ ⟨hrely.run, hrely.reads⟩⟩

theorem safe_rowAsk {read : Answer → Option α} (hplace : place.noted = false)
    (hok : ∀ a w', Undisturbed tid w w' → Q a w') :
    (progressOutline n).Safe tid (ask pid place read) w Q E := by
  unfold ask
  apply Outline.safe_await
  intro w' x hrely hinv _ hready _
  simp only [Bool.and_eq_true, Option.isSome_iff_exists] at hready
  rcases hready with ⟨-, a, hread⟩
  obtain ⟨hkeeps, hafter⟩ := keeps_row (l := ⟨pid, place⟩) (x := x) (s := w'.st)
    (noteRun_of_not_noted hplace) hinv
  simp only [hread]
  exact ⟨hkeeps, hafter ▸ hok a w' hrely⟩

end Turns

section Process

variable {n tid pid : Nat} {w w' : RunWorld}

/-- The activation is the run, has taken its start UPDATE and sent the first `i` messages. -/
structure Sending (tid i : Nat) (w : RunWorld) : Prop where
  runner : w.hist.runner = some tid
  begun : w.hist.begun = true
  sends : w.hist.sends = List.range i

/-- The counters in memory after `i` of `n` messages. -/
structure InMemory (n i : Nat) (run : BatchRun) : Prop where
  accounts : Accounts run.batch.progress run.results
  cancelled : run.batch.progress.cancelled = 0
  pending : run.batch.progress.pending = n - i

/-- The counters that a run leaves when it stops. -/
structure Stopped (tid : Nat) (run : BatchRun) (w : RunWorld) : Prop where
  begun : w.hist.runner = some tid ∧ w.hist.begun = true
  accounts : Accounts run.batch.progress run.results
  cancelled : run.batch.progress.cancelled = 0

theorem Sending.later {i : Nat} (h : Sending tid i w) (hrely : Undisturbed tid w w') : Sending tid i w' := by
  rcases hrely.run h.runner with ⟨hrunner, hbegun, hsends⟩
  exact ⟨hrunner, hbegun.trans h.begun, hsends.trans h.sends⟩

theorem Stopped.later {run : BatchRun} (h : Stopped tid run w) (hrely : Undisturbed tid w w') :
    Stopped tid run w' := by
  rcases hrely.run h.begun.1 with ⟨hrunner, hbegun, -⟩
  exact ⟨⟨hrunner, hbegun.trans h.begun.2⟩, h.accounts, h.cancelled⟩

theorem Sending.stopped {i : Nat} {run : BatchRun} (h : Sending tid i w) (hmemory : InMemory n i run) :
    Stopped tid run w :=
  ⟨⟨h.runner, h.begun⟩, hmemory.accounts, hmemory.cancelled⟩

theorem InMemory.record {i : Nat} {run : BatchRun} (h : InMemory n i run) (hi : i < n) (msg : BatchMessage)
    (outcome : Outcome) : InMemory n (i + 1) (run.record msg outcome) := by
  have hsum := h.accounts.sum
  have hsent := h.accounts.sent
  have hfailed := h.accounts.failed
  have hpending := h.pending
  have hcancelled := h.cancelled
  cases outcome with
  | sent id =>
    have hcount : sentIn (run.results ++ [⟨msg.chatId, .sent id⟩]) = sentIn run.results + 1 ∧
        failedIn (run.results ++ [⟨msg.chatId, .sent id⟩]) = failedIn run.results := by
      simp [sentIn, failedIn, Outcome.isFailed]
    refine ⟨⟨?_, ?_, ?_, ?_, ?_⟩, hcancelled, ?_⟩ <;>
      simp only [BatchRun.record, hcount.1, hcount.2] <;> omega
  | failed code message =>
    have hcount : sentIn (run.results ++ [⟨msg.chatId, .failed code message⟩]) = sentIn run.results ∧
        failedIn (run.results ++ [⟨msg.chatId, .failed code message⟩]) = failedIn run.results + 1 := by
      simp [sentIn, failedIn, Outcome.isFailed]
    refine ⟨⟨?_, ?_, ?_, ?_, ?_⟩, hcancelled, ?_⟩ <;>
      simp only [BatchRun.record, hcount.1, hcount.2] <;> omega

theorem safe_send {i : Nat} (h : Sending tid i w) {Q : Outcome → RunWorld → Prop}
    {E : BatchError → RunWorld → Prop}
    (hok : ∀ outcome w', Sending tid (i + 1) w' → Q outcome w') :
    (progressOutline n).Safe tid (ask pid (.send i) Answer.message?) w Q E := by
  unfold ask
  apply Outline.safe_await
  intro w' x hrely hinv _ hready _
  simp only [Bool.and_eq_true, Option.isSome_iff_exists] at hready
  rcases hready with ⟨-, outcome, hread⟩
  have hsending := h.later hrely
  have hrange : w'.hist.sends ++ [i] = List.range (i + 1) := by rw [hsending.sends, List.range_succ]
  simp only [hread]
  refine ⟨⟨trivial, ⟨hinv.accounts, hinv.cancelled, hinv.fresh, fun hnone => ?_, i + 1, hrange⟩, ?_⟩, ?_⟩
  . exact absurd (hsending.runner.symm.trans hnone) (by simp)
  . intro j _ hne
    refine ⟨fun hj => ?_, rfl⟩
    exact absurd (Option.some.inj (hj.symm.trans hsending.runner)) hne
  . exact hok outcome _ ⟨hsending.runner, hsending.begun, hrange⟩

theorem inv_saveProgress {i : Nat} {run : BatchRun} {w : RunWorld} (hinv : ProgressInv n w)
    (hsending : Sending tid i w) (hmemory : InMemory n i run) (index : Nat) :
    ProgressInv n ⟨(updateWhere notCancelled (fun row =>
      { row with
        progress := run.batch.progress
        results := run.results
        currentIndex := index }) w.st).1, w.hist, w.started⟩ := by
  unfold updateWhere
  split
  . refine ⟨hmemory.accounts, fun _ => hmemory.cancelled, fun hbegun => ?_, hinv.idle, hinv.sends⟩
    exact absurd (hsending.begun.symm.trans hbegun) (by simp)
  . exact hinv

theorem counts_processBatchMessage {i : Nat} {run : BatchRun} (msg : BatchMessage)
    (hsending : Sending tid i w) (hmemory : InMemory n i run) (hi : i < n) :
    (progressOutline n).Safe tid (processBatchMessage pid msg i run) w
      (fun res w' => if res.2 then Sending tid (i + 1) w' ∧ InMemory n (i + 1) res.1
        else Stopped tid res.1 w') (fun _ _ => True) := by
  unfold processBatchMessage
  apply Outline.Safe.bind
  apply safe_memoryTurn rfl (fun _ => rfl)
  intro w₁ w₂ hrely
  have hsending := hsending.later hrely
  rw [Task.ofExcept_ok, Outline.safe_pure]
  split
  . exact hsending.stopped hmemory
  apply Outline.Safe.bind
  apply safe_send hsending
  intro outcome w₃ hsent
  have hrecord := hmemory.record hi msg outcome
  dsimp only
  split
  . exact ⟨⟨hsent.runner, hsent.begun⟩, hrecord.accounts, hrecord.cancelled⟩
  split
  . apply Outline.Safe.bind
    apply safe_rowQuery rfl
    . intro w₄ hrely hinv _
      have hsent := hsent.later hrely
      refine ⟨inv_saveProgress hinv hsent hrecord (i + 1), ?_⟩
      split
      . exact ⟨⟨hsent.runner, hsent.begun⟩, hrecord.accounts, hrecord.cancelled⟩
      . exact ⟨⟨hsent.runner, hsent.begun, hsent.sends⟩, hrecord.accounts, hrecord.cancelled, hrecord.pending⟩
    . intro _ _
      trivial
  . exact ⟨hsent, hrecord.accounts, hrecord.cancelled, hrecord.pending⟩

theorem counts_processBatchMessages (messages : List BatchMessage) (i : Nat) (run : BatchRun)
    (hsending : Sending tid i w) (hmemory : InMemory n i run) (hleft : i + messages.length = n) :
    (progressOutline n).Safe tid (processBatchMessages pid messages i run) w
      (fun run w' => Stopped tid run w') (fun _ _ => True) := by
  induction messages generalizing i run w with
  | nil => exact hsending.stopped hmemory
  | cons msg messages ih =>
    rw [List.length_cons] at hleft
    unfold processBatchMessages
    apply Outline.Safe.bind
    apply Outline.Safe.mono (counts_processBatchMessage msg hsending hmemory (by omega))
    . intro res w' hres
      dsimp only
      split
      . next hcontinues =>
        rw [if_pos hcontinues] at hres
        exact ih (i + 1) res.1 hres.1 hres.2 (by omega)
      . next hstops =>
        rw [if_neg hstops] at hres
        exact hres
    . intro _ _ _
      trivial

/-- What a stopped run writes last accounts for all messages, whether it was cancelled or not. -/
theorem accounts_final {run : BatchRun} (h : Stopped tid run w) (cancelled : Bool) :
    Accounts (run.final cancelled).progress (run.final cancelled).results ∧
      ((run.final cancelled).status ≠ .cancelled → (run.final cancelled).progress.cancelled = 0) := by
  cases cancelled with
  | false => exact ⟨h.accounts, fun _ => h.cancelled⟩
  | true => exact ⟨h.accounts.asCancelled h.cancelled, fun hstatus => absurd rfl hstatus⟩

theorem counts_writeFinal {run : BatchRun} (h : Stopped tid run w) (cancelled : Bool) :
    (progressOutline n).Safe tid (writeFinal pid (run.final cancelled)) w (fun _ _ => True)
      (fun _ _ => True) := by
  obtain ⟨haccounts, hstatus⟩ := accounts_final h cancelled
  unfold writeFinal
  split
  . next hcancelled =>
    apply safe_rowQuery rfl
    . intro w' hrely hinv _
      have hbegun := (h.later hrely).begun.2
      refine ⟨⟨haccounts, hstatus, fun hnot => ?_, hinv.idle, hinv.sends⟩, trivial⟩
      exact absurd (hbegun.symm.trans hnot) (by simp)
    . intro _ _
      trivial
  . apply Outline.Safe.bind
    apply safe_rowQuery rfl
    . intro w' hrely hinv _
      have hbegun := (h.later hrely).begun.2
      refine ⟨?_, trivial⟩
      unfold updateWhere
      split
      . refine ⟨haccounts, hstatus, fun hnot => ?_, hinv.idle, hinv.sends⟩
        exact absurd (hbegun.symm.trans hnot) (by simp)
      . exact hinv
    . intro _ _
      trivial

theorem counts_finalizeBatch {run : BatchRun} (h : Stopped tid run w) :
    (progressOutline n).Safe tid (finalizeBatch pid run) w (fun _ _ => True) (fun _ _ => True) := by
  have hreread : (progressOutline n).Safe tid (rereadCancelled pid run) w
      (fun _ w' => Stopped tid run w') (fun _ _ => True) := by
    unfold rereadCancelled
    split
    . exact h
    . apply safe_rowRead rfl
      . intro w' hrely _
        exact h.later hrely
      . intro _ _
        trivial
  unfold finalizeBatch
  apply Outline.Safe.bind
  apply hreread.mono
  . intro cancelledByDb w₁ h
    apply Outline.Safe.bind
    apply safe_memoryTurn rfl (fun _ => rfl)
    intro w₂ w₃ hrely
    exact counts_writeFinal (h.later hrely) _
  . intro _ _ _
    trivial

theorem accounts_markProcessing (hinv : ProgressInv n w) :
    let s := (updateWhere notCancelled (fun row => { row with status := .processing }) w.st).1
    Accounts s.row.progress s.row.results ∧
      (s.row.status ≠ .cancelled → s.row.progress.cancelled = 0) := by
  unfold updateWhere
  split
  . next hguard => exact ⟨hinv.accounts, fun _ => hinv.cancelled (by simpa [notCancelled] using hguard)⟩
  . exact ⟨hinv.accounts, hinv.cancelled⟩

theorem counts_markBatchProcessing (hrunner : w.hist.runner = some tid) (hsends : w.hist.sends = []) :
    (progressOutline n).Safe tid (markBatchProcessing pid) w (fun _ w' => Sending tid 0 w')
      (fun _ _ => True) := by
  unfold markBatchProcessing query
  apply Outline.safe_await
  intro w' x hrely hinv _ hready _
  obtain ⟨hrunner', -, hsends'⟩ := hrely.run hrunner
  simp only [Bool.and_eq_true, Bool.or_eq_true, decide_eq_true_eq] at hready
  rcases hready with ⟨-, rfl | rfl⟩
  . refine ⟨⟨trivial, ?_, fun j _ hne => ⟨fun hj => ?_, rfl⟩⟩, ?_⟩
    . obtain ⟨haccounts, hcancelled⟩ := accounts_markProcessing hinv
      refine ⟨haccounts, hcancelled, fun hbegun => ?_, fun hnone => ?_, hinv.sends⟩
      . simp [System.after, progressSystem, noteRun] at hbegun
      . simp [System.after, progressSystem, noteRun, hrunner'] at hnone
    . exact absurd (Option.some.inj (hj.symm.trans hrunner')) hne
    . exact ⟨hrunner', rfl, hsends'.trans hsends⟩
  . obtain ⟨hkeeps, -⟩ := keeps_row (l := ⟨pid, .markProcessing⟩) (x := .fault) (s := w'.st)
      (noteRun_fault (by simp)) hinv
    exact ⟨hkeeps, trivial⟩

theorem counts_failBatchWithoutEngine (hsending : Sending tid 0 w) (batch : MessageBatch) :
    (progressOutline n).Safe tid (failBatchWithoutEngine pid batch) w (fun _ _ => True)
      (fun _ _ => True) := by
  unfold failBatchWithoutEngine
  apply Outline.Safe.bind
  apply safe_rowQuery rfl
  . intro w' hrely hinv _
    have hbegun := (hsending.later hrely).begun
    refine ⟨?_, trivial⟩
    unfold updateWhere
    split
    . next hguard =>
      refine ⟨hinv.accounts, fun _ => hinv.cancelled (by simpa [notCancelled] using hguard), fun hnot => ?_,
        hinv.idle, hinv.sends⟩
      exact absurd (hbegun.symm.trans hnot) (by simp)
    . exact hinv
  . intro _ _
    trivial

theorem counts_executeBatch (hrunner : w.hist.runner = some tid) (hsends : w.hist.sends = [])
    {batch : MessageBatch} (hbatch : Fresh n batch) :
    (progressOutline n).Safe tid (executeBatch pid batch) w (fun _ _ => True) (fun _ _ => True) := by
  unfold executeBatch
  apply Outline.Safe.bind
  apply (counts_markBatchProcessing hrunner hsends).mono
  . intro started w₁ hsending
    split
    . trivial
    . apply Outline.Safe.bind
      apply safe_rowAsk rfl
      intro registered w₂ hrely
      have hsending := hsending.later hrely
      split
      . exact counts_failBatchWithoutEngine hsending _
      . have hmemory : InMemory n 0
            ⟨{ batch with status := .processing, currentIndex := 0 }, batch.results, false, false⟩ := by
          refine ⟨⟨?_, ?_, ?_, ?_, ?_⟩, ?_, ?_⟩ <;>
            simp [hbatch.progress, hbatch.results, sentIn, failedIn]
        apply Outline.Safe.bind
        simp only [hbatch.currentIndex, List.drop_zero]
        apply (counts_processBatchMessages batch.messages 0 _ hsending hmemory
          (by rw [Nat.zero_add, hbatch.messages])).mono
        . intro run w₃ hstopped
          exact counts_finalizeBatch hstopped
        . intro _ _ _
          trivial
  . intro _ _ _
    trivial

theorem counts_processBatch (hrunner : w.hist.runner = some tid) (hbegun : w.hist.begun = false)
    (hsends : w.hist.sends = []) :
    (progressOutline n).Safe tid (processBatch pid) w (fun _ _ => True) (fun _ _ => True) := by
  have hrelease : ∀ w, (progressOutline n).Safe tid
      (turn pid .release fun s => (s.setFlag pid none, .ok ())) w (fun _ _ => True)
      (fun _ _ => True) := by
    intro w
    apply safe_memoryTurn rfl (fun _ => rfl)
    intro _ _ _
    trivial
  unfold processBatch
  apply Outline.Safe.bind
  apply safe_rowRead rfl
  . intro w₁ hrely hinv
    obtain ⟨hrunner₁, hbegun₁, hsends₁⟩ := hrely.run hrunner
    apply Outline.Safe.andFinally
    apply Outline.Safe.bind
    apply safe_memoryTurn rfl
    . intro s
      split <;> rfl
    . intro w₂ w₃ hrely
      obtain ⟨hrunner₃, -, hsends₃⟩ := hrely.run hrunner₁
      split
      . exact hrelease w₃
      . next hstarts =>
        rw [not_or] at hstarts
        have hfresh := hinv.fresh (hbegun₁.trans hbegun) hstarts.2
        rw [Task.ofExcept_ok, Outline.safe_pure, if_pos rfl]
        apply (counts_executeBatch hrunner₃ (hsends₃.trans (hsends₁.trans hsends)) hfresh).mono
        . intro _ w₄ _
          exact hrelease w₄
        . intro _ w₄ _
          exact hrelease w₄
  . intro _ _
    trivial

end Process

section Cancel

variable {n tid pid : Nat} {w : RunWorld}

theorem inv_cancelUpdate {batch : MessageBatch} (hinv : ProgressInv n w)
    (hcurrent : pendingOrProcessing w.st.row.status = true → batch.progress = w.st.row.progress) :
    ProgressInv n ⟨(updateWhere pendingOrProcessing (fun row =>
      { row with
        status := batch.asCancelled.status
        progress := batch.asCancelled.progress
        messages := batch.asCancelled.messages }) w.st).1, w.hist, w.started⟩ := by
  unfold updateWhere
  split
  . next hguard =>
    have hopen : w.st.row.status ≠ .cancelled := by
      rintro h
      simp [pendingOrProcessing, h] at hguard
    have haccounts := hinv.accounts.asCancelled (hinv.cancelled hopen)
    rw [← hcurrent hguard] at haccounts
    exact ⟨haccounts, fun h => absurd rfl h, fun _ h => absurd rfl h, hinv.idle, hinv.sends⟩
  . exact hinv

theorem counts_cancelBatch :
    (progressOutline n).Safe tid (cancelBatch pid) w (fun _ _ => True) (fun _ _ => True) := by
  unfold cancelBatch
  apply Outline.Safe.bind
  unfold query
  apply Outline.safe_await
  intro w₁ x hrely hinv _ hready _
  simp only [Bool.and_eq_true, Bool.or_eq_true, decide_eq_true_eq] at hready
  rcases hready with ⟨-, rfl | rfl⟩
  . refine ⟨⟨trivial, ⟨hinv.accounts, hinv.cancelled, hinv.fresh, hinv.idle, hinv.sends⟩, fun j _ hne =>
      ⟨fun hj => ⟨hj, rfl, rfl⟩, ?_⟩⟩, ?_⟩
    . simp [System.after, progressSystem, noteRun, List.lookup_cons, beq_eq_false_iff_ne.mpr hne]
    . apply Outline.Safe.bind
      apply safe_memoryTurn rfl
      . intro s
        split <;> rfl
      . intro w₂ w₃ hrely
        have hread : w₃.hist.reads.lookup tid = some w₁.st.row.progress := by
          rw [hrely.reads]
          simp [System.after, progressSystem, noteRun]
        split
        . trivial
        . apply Outline.Safe.bind
          apply safe_rowQuery rfl
          . intro w₄ hrely hinv hok
            have hcurrent : pendingOrProcessing w₄.st.row.status = true →
                w₁.st.row.progress = w₄.st.row.progress := by
              intro hguard
              have hlookup := hok rfl rfl hguard
              rw [hrely.reads, hread] at hlookup
              exact Option.some.inj hlookup
            refine ⟨inv_cancelUpdate hinv hcurrent, ?_⟩
            split
            . apply Outline.Safe.bind
              apply safe_rowRead rfl
              . intro _ _ _
                trivial
              . intro _ _
                trivial
            . trivial
          . intro _ _
            trivial
  . obtain ⟨hkeeps, -⟩ := keeps_row (l := ⟨pid, .cancelFind⟩) (x := .fault) (s := w₁.st)
      (noteRun_fault (by simp)) hinv
    exact ⟨hkeeps, trivial⟩

end Cancel

section Runs

variable {n : Nat}

theorem progress_event {w : RunWorld} {v : BatchEvent} {s : Store} {t : Job Unit} (hinv : ProgressInv n w)
    (hok : CancelsCurrent w (.event w.started v)) (hevent : batchEvent v w.st = some (s, t)) :
    (progressOutline n).Keeps w.started w (.event w.started v) s ∧
      (progressOutline n).Safe w.started t (progressSystem.after w (.event w.started v) s)
        (fun _ _ => True) (fun _ _ => True) := by
  unfold batchEvent at hevent
  cases v with
  | processBatch pid =>
    simp only [Option.ite_none_right_eq_some, Option.some.injEq, Prod.mk.injEq] at hevent
    obtain ⟨-, rfl, rfl⟩ := hevent
    obtain ⟨hbegun, hsends⟩ := hinv.idle hok
    refine ⟨⟨trivial, ⟨hinv.accounts, hinv.cancelled, hinv.fresh, fun h => ?_, hinv.sends⟩, fun j _ _ =>
      ⟨fun hj => ?_, rfl⟩⟩, ?_⟩
    . exact nomatch h
    . exact absurd (hj.symm.trans hok) (by simp)
    . exact counts_processBatch rfl hbegun hsends
  | cancelBatch pid =>
    simp only [Option.ite_none_right_eq_some, Option.some.injEq, Prod.mk.injEq] at hevent
    obtain ⟨-, rfl, rfl⟩ := hevent
    refine ⟨⟨trivial, ⟨hinv.accounts, hinv.cancelled, hinv.fresh, hinv.idle, hinv.sends⟩, fun j _ _ =>
      ⟨fun hj => ⟨hj, rfl, rfl⟩, rfl⟩⟩, ?_⟩
    exact counts_cancelBatch
  | bootstrap _ | reap _ | crash _ => exact hok.elim

theorem progressOutline_valid : (progressOutline n).Valid where
  refl _ := undisturbed_refl
  trans _ _ _ _ := Undisturbed.trans
  event _ _ _ _ hinv hok hevent := progress_event hinv hok hevent

/-- A batch as `createBatch` stores it; nothing runs yet. -/
def created (messages : List BatchMessage) (stopOnError : Bool) :
    Config Store Answer Loc BatchError RunHistory where
  st := {
    row := ⟨.pending, messages, stopOnError, ⟨messages.length, 0, 0, messages.length, 0⟩, [], 0⟩
    processingBatches := fun _ => none
    crashed := []
  }
  hist := ⟨none, false, [], []⟩
  pool := []

theorem progressInv_created (messages : List BatchMessage) (stopOnError : Bool) :
    ProgressInv messages.length (created messages stopOnError).world where
  accounts := by
    refine ⟨?_, ?_, ?_, ?_, ?_⟩ <;> simp [created, Config.world, sentIn, failedIn]
  cancelled _ := rfl
  fresh _ _ := ⟨rfl, rfl, rfl, rfl⟩
  idle _ := ⟨rfl, rfl⟩
  sends := ⟨0, rfl⟩

/--
In every run of one processing run and any cancels whose writes are all current, every stored row accounts
for its messages, and no message is handed to the engine twice.
-/
theorem progress_accounted {messages : List BatchMessage} {stopOnError : Bool}
    {c : Config Store Answer Loc BatchError RunHistory}
    (h : progressSystem.Reach CancelsCurrent (created messages stopOnError) c) : Accounted c.world := by
  have hinv : ProgressInv messages.length c.world :=
    progressOutline_valid.inv_of_reach (progressInv_created messages stopOnError) rfl h
  rcases hinv.sends with ⟨k, hk⟩
  refine ⟨hinv.accounts, ⟨?_, ?_⟩, ?_⟩
  . rw [hinv.accounts.sent]
    exact Int.natCast_nonneg _
  . rw [hinv.accounts.failed]
    exact Int.natCast_nonneg _
  . rw [hk]
    exact List.nodup_range

def twoMessages : List BatchMessage := [⟨"628123@c.us", false⟩, ⟨"628456@c.us", false⟩]

def shown (c : Config Store Answer Loc BatchError RunHistory) :
    BatchStatus × BatchProgress × List BatchMessageResult :=
  (c.st.row.status, c.st.row.progress, c.st.row.results)

/-- The first message is sent, then a cancel reads and writes; the second message is not sent. -/
theorem progress_accounted_cancelled :
    ∃ c, progressSystem.Reach CancelsCurrent (created twoMessages false) c ∧
      shown c = (.cancelled, ⟨2, 1, 0, 0, 1⟩, [⟨"628123@c.us", .sent "m1"⟩]) ∧ Accounted c.world := by
  have hrun : (progressSystem.exec CancelsCurrent (created twoMessages false)
      [.event (.processBatch 1), .turn 0 .ok, .turn 0 .ok, .turn 0 .ok, .turn 0 (.engine true), .turn 0 .ok,
        .turn 0 (.message (.sent "m1")), .turn 0 .ok, .event (.cancelBatch 1), .turn 1 .ok, .turn 1 .ok,
        .turn 1 .ok, .turn 0 .ok, .turn 0 .ok, .turn 0 .ok, .turn 0 .ok, .turn 0 .ok]).map shown =
      some (.cancelled, ⟨2, 1, 0, 0, 1⟩, [⟨"628123@c.us", .sent "m1"⟩]) := by
    decide +kernel
  rcases System.reach_of_exec_map hrun with ⟨c, hreach, hshown⟩
  exact ⟨c, hreach, hshown, progress_accounted hreach⟩

/--
A cancel of another process reads the batch before the first message is counted and writes after the run has
read the status for the last time: the stored row shows a message sent and none counted.
-/
theorem stale_cancel_miscounts :
    ∃ c, progressSystem.Reach OneRun (created (twoMessages.take 1) false) c ∧ c.drained = true ∧
      shown c = (.cancelled, ⟨1, 0, 0, 0, 1⟩, [⟨"628123@c.us", .sent "m1"⟩]) ∧ ¬ Accounted c.world := by
  have hrun : (progressSystem.exec OneRun (created (twoMessages.take 1) false)
      [.event (.processBatch 1), .turn 0 .ok, .turn 0 .ok, .turn 0 .ok, .turn 0 (.engine true),
        .event (.cancelBatch 2), .turn 1 .ok, .turn 0 .ok, .turn 0 (.message (.sent "m1")), .turn 0 .ok,
        .turn 0 .ok, .turn 0 .ok, .turn 1 .ok, .turn 1 .ok, .turn 0 .ok, .turn 0 .ok]).map
      (fun c => (c.drained, shown c)) =
      some (true, .cancelled, ⟨1, 0, 0, 0, 1⟩, [⟨"628123@c.us", .sent "m1"⟩]) := by
    decide +kernel
  rcases System.reach_of_exec_map hrun with ⟨c, hreach, hc⟩
  rw [Prod.mk.injEq] at hc
  refine ⟨c, hreach, hc.1, hc.2, fun h => ?_⟩
  have hshown := hc.2
  simp only [shown, Prod.mk.injEq] at hshown
  have hsent := h.accounts.sent
  simp [Config.world, hshown.2.1, hshown.2.2, sentIn, Outcome.isFailed] at hsent

end Runs
end OpenWA.Message
