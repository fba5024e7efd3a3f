import OpenWA.Async.Outline
import OpenWA.Message.BulkMessage

/-!
This module contains the exclusivity of the terminal statuses of a batch: which steps may replace
one, and that no other step does.
-/

namespace OpenWA.Message

open Async

/-- The run between its start UPDATE and its last write, and the process it runs in. -/
structure Active where
  tid : Nat
  pid : Nat
deriving DecidableEq

/-- The history of a batch: its run in progress, if any. -/
def noteActive (a : Act BatchEvent Answer Loc) (s _s' : Store) (active : Option Active) :
    Option Active :=
  match a with
  | .event _ (.crash pid) => active.filter fun run => run.pid != pid
  | .event _ _ => active
  | .turn tid l x =>
    match l.place with
    | .markProcessing =>
      if x = .ok ∧ notCancelled s.row.status = true then some ⟨tid, l.pid⟩ else active
    | .failWithoutEngine | .saveCancelled | .saveFinal =>
      if x = .ok then active.filter fun run => run.tid != tid else active
    | .release => active.filter fun run => run.tid != tid
    | _ => active

/-- The batch as a system; its history is the run in progress. -/
def bulkSystem : System Store Answer Loc BatchError BatchEvent (Option Active) where
  event := batchEvent
  note := noteActive

abbrev BatchWorld := World Store (Option Active)

/--
The condition on the steps of a run: a run takes its start UPDATE, and a reaper its save, only while
no run is in progress, the former on a batch that has not finished, the latter on one that neither
completed nor was cancelled meanwhile.
-/
def InTurn (w : BatchWorld) (a : Act BatchEvent Answer Loc) : Prop :=
  match a with
  | .event .. => True
  | .turn _ l _ =>
    (l.place = .markProcessing →
      w.hist = none ∧ w.st.row.status ≠ .completed ∧ w.st.row.status ≠ .failed) ∧
    (l.place = .reapSave →
      w.hist = none ∧ w.st.row.status ≠ .completed ∧ w.st.row.status ≠ .cancelled)

instance (w : BatchWorld) (a : Act BatchEvent Answer Loc) : Decidable (InTurn w a) :=
  match a with
  | .event .. => inferInstanceAs (Decidable True)
  | .turn .. => inferInstanceAs (Decidable (_ ∧ _))

/-- A step that finds a terminal status leaves that status. -/
def KeepsTerminal (s s' : Store) : Prop :=
  s.row.status.terminal = true → s'.row.status = s.row.status

section Outline

/-- The run `tid` of the process `pid` is the one in progress, unless its process crashed. -/
def Owns (tid pid : Nat) (w : BatchWorld) : Prop :=
  w.hist = some ⟨tid, pid⟩ ∨ pid ∈ w.st.crashed

/-- While a run is in progress, the batch is processing or was cancelled. -/
def BatchInv (w : BatchWorld) : Prop :=
  w.hist ≠ none → w.st.row.status = .processing ∨ w.st.row.status = .cancelled

def outline : Outline bulkSystem where
  ok := InTurn
  inv := BatchInv
  rely tid w w' := ∀ pid, Owns tid pid w → Owns tid pid w'
  chk w _ w' := KeepsTerminal w.st w'.st
  post _ _ _ := True

variable {tid pid : Nat} {w : BatchWorld}

theorem status_of_owns (hinv : BatchInv w) (howns : Owns tid pid w) (halive : w.st.alive pid = true) :
    w.st.row.status = .processing ∨ w.st.row.status = .cancelled := by
  rcases howns with h | h
  . apply hinv
    simp [h]
  . simp [Store.alive, h] at halive

/-- The places whose turns start or end a run. -/
def Place.bounds (place : Place) : Bool :=
  match place with
  | .markProcessing | .failWithoutEngine | .saveCancelled | .saveFinal | .release => true
  | _ => false

theorem noteActive_of_not_bounds {l : Loc} {x : Answer} {s s' : Store} {active : Option Active}
    (h : l.place.bounds = false) : noteActive (.turn tid l x) s s' active = active := by
  unfold noteActive
  unfold Place.bounds at h
  grind

theorem noteActive_fault {l : Loc} {s s' : Store} {active : Option Active}
    (h : l.place ≠ .release) : noteActive (.turn tid l .fault) s s' active = active := by
  unfold noteActive
  grind

theorem keeps_of_same (tid : Nat) {l : Loc} {x : Answer} {s : Store} (hinv : BatchInv w)
    (hstatus : s.row.status = w.st.row.status) (hcrashed : s.crashed = w.st.crashed)
    (hhist : noteActive (.turn tid l x) w.st s w.hist = w.hist) :
    outline.Keeps tid w (.turn tid l x) s ∧
    outline.rely tid w (bulkSystem.after w (.turn tid l x) s) := by
  have howns (j p : Nat) (h : Owns j p w) : Owns j p (bulkSystem.after w (.turn tid l x) s) := by
    simpa only [Owns, System.after, bulkSystem, hhist, hcrashed] using h
  refine ⟨⟨?_, ?_, ?_⟩, howns tid⟩
  . intro _
    exact hstatus
  . intro h
    simp only [System.after, bulkSystem, hhist] at h
    simpa only [System.after, hstatus] using hinv h
  . intro j _ _
    exact howns j

end Outline

section Turns

variable {α : Type} {tid pid : Nat} {place : Place} {w : BatchWorld}
  {Q : α → BatchWorld → Prop} {E : BatchError → BatchWorld → Prop}

theorem rely_trans {w₁ w₂ w₃ : BatchWorld} (h : outline.rely tid w₁ w₂)
    (h' : outline.rely tid w₂ w₃) : outline.rely tid w₁ w₃ :=
  fun p howns => h' p (h p howns)

theorem safe_query {f : Store → Store × α} (hplace : place ≠ .release)
    (hok : ∀ w', outline.rely tid w w' → BatchInv w' → w'.st.alive pid = true →
      InTurn w' (.turn tid ⟨pid, place⟩ .ok) →
      outline.Keeps tid w' (.turn tid ⟨pid, place⟩ .ok) (f w'.st).1 ∧
      Q (f w'.st).2 (bulkSystem.after w' (.turn tid ⟨pid, place⟩ .ok) (f w'.st).1))
    (hfault : ∀ w', outline.rely tid w w' → E .repository w') :
    outline.Safe tid (query pid place f) w Q E := by
  unfold query
  apply Outline.safe_await
  intro w' x hrely hinv _ hready hinturn
  simp only [Bool.and_eq_true, Bool.or_eq_true, decide_eq_true_eq] at hready
  rcases hready with ⟨halive, rfl | rfl⟩
  . exact hok w' hrely hinv halive hinturn
  . have hsame := keeps_of_same tid (l := ⟨pid, place⟩) (x := .fault) (s := w'.st) hinv rfl
      rfl (noteActive_fault hplace)
    exact ⟨hsame.1, hfault _ (rely_trans hrely hsame.2)⟩

theorem safe_query_same {f : Store → Store × α} (hplace : place.bounds = false)
    (hsame : ∀ s, (f s).1.row.status = s.row.status ∧ (f s).1.crashed = s.crashed)
    (hok : ∀ (w' w'' : BatchWorld), outline.rely tid w w'' → Q (f w'.st).2 w'')
    (hfault : ∀ w', outline.rely tid w w' → E .repository w') :
    outline.Safe tid (query pid place f) w Q E := by
  apply safe_query
  . rintro rfl
    contradiction
  . intro w' hrely hinv _ _
    have hsame := keeps_of_same tid (l := ⟨pid, place⟩) (x := .ok) hinv (hsame w'.st).1
      (hsame w'.st).2 (noteActive_of_not_bounds hplace)
    exact ⟨hsame.1, hok w' _ (rely_trans hrely hsame.2)⟩
  . exact hfault

theorem safe_turn {f : Store → Store × Except BatchError α} (hplace : place.bounds = false)
    (hsame : ∀ s, (f s).1.row.status = s.row.status ∧ (f s).1.crashed = s.crashed)
    (hok : ∀ (w' w'' : BatchWorld), outline.rely tid w w'' →
      outline.Safe tid (Task.ofExcept (f w'.st).2 : Job α) w'' Q E) :
    outline.Safe tid (turn pid place f) w Q E := by
  unfold turn
  apply Outline.safe_await
  intro w' x hrely hinv _ _ _
  have hsame := keeps_of_same tid (l := ⟨pid, place⟩) (x := x) hinv (hsame w'.st).1
    (hsame w'.st).2 (noteActive_of_not_bounds hplace)
  exact ⟨hsame.1, hok w' _ (rely_trans hrely hsame.2)⟩

theorem safe_ask {read : Answer → Option α} (hplace : place.bounds = false)
    (hok : ∀ a w', outline.rely tid w w' → Q a w') :
    outline.Safe tid (ask pid place read) w Q E := by
  unfold ask
  apply Outline.safe_await
  intro w' x hrely hinv _ hready _
  simp only [Bool.and_eq_true, Option.isSome_iff_exists] at hready
  rcases hready with ⟨_, a, hread⟩
  have hsame := keeps_of_same tid (l := ⟨pid, place⟩) (x := x) (s := w'.st) hinv rfl rfl
    (noteActive_of_not_bounds hplace)
  simp only [hread]
  exact ⟨hsame.1, hok a _ (rely_trans hrely hsame.2)⟩

theorem updateWhere_same (allowed : BatchStatus → Bool) (patch : MessageBatch → MessageBatch)
    (hpatch : ∀ row, (patch row).status = row.status) (s : Store) :
    (updateWhere allowed patch s).1.row.status = s.row.status ∧
    (updateWhere allowed patch s).1.crashed = s.crashed := by
  unfold updateWhere
  split
  . exact ⟨hpatch _, rfl⟩
  . exact ⟨rfl, rfl⟩

end Turns

section Process

variable {tid pid : Nat} {w : BatchWorld}

theorem safe_processBatchMessage (msg : BatchMessage) (i : Nat) (run : BatchRun)
    (howns : Owns tid pid w) :
    outline.Safe tid (processBatchMessage pid msg i run) w (fun _ => Owns tid pid)
      (fun _ => Owns tid pid) := by
  unfold processBatchMessage
  apply Outline.Safe.bind
  apply safe_turn rfl
  . intro s
    exact ⟨rfl, rfl⟩
  intro w₁ w₂ hrely
  have howns := hrely pid howns
  rw [Task.ofExcept_ok, Outline.safe_pure]
  split
  . exact howns
  apply Outline.Safe.bind
  apply safe_ask rfl
  intro outcome w₃ hrely
  have howns := hrely pid howns
  dsimp only
  split
  . exact howns
  split
  . apply Outline.Safe.bind
    apply safe_query_same rfl
    . apply updateWhere_same
      intro _
      rfl
    . intro w₄ w₅ hrely
      have howns := hrely pid howns
      split
      . exact howns
      . exact howns
    . intro w₄ hrely
      exact hrely pid howns
  . exact howns

theorem safe_processBatchMessages (messages : List BatchMessage) (i : Nat) (run : BatchRun)
    (howns : Owns tid pid w) :
    outline.Safe tid (processBatchMessages pid messages i run) w (fun _ => Owns tid pid)
      (fun _ => Owns tid pid) := by
  induction messages generalizing i run w with
  | nil => exact howns
  | cons msg messages ih =>
    unfold processBatchMessages
    apply Outline.Safe.bind
    apply Outline.Safe.mono (safe_processBatchMessage msg i run howns)
    . intro res w' howns
      dsimp only
      split
      . exact ih (i + 1) res.1 howns
      . exact howns
    . intro _ _ howns
      exact howns

/-- The write that ends a run: it finds the batch processing or cancelled. -/
theorem keeps_last {l : Loc} {s : Store}
    (hplace : l.place = .failWithoutEngine ∨ l.place = .saveCancelled ∨ l.place = .saveFinal)
    (hinv : BatchInv w) (howns : Owns tid l.pid w) (halive : w.st.alive l.pid = true)
    (hcrashed : s.crashed = w.st.crashed)
    (hstatus : w.st.row.status = .cancelled → s.row.status = .cancelled) :
    outline.Keeps tid w (.turn tid l .ok) s := by
  have hnote : noteActive (.turn tid l .ok) w.st s w.hist = w.hist.filter fun run => run.tid != tid := by
    unfold noteActive
    rcases hplace with h | h | h <;> simp [h]
  have hhist : w.hist.filter (fun run => run.tid != tid) = none := by
    rcases howns with h | h
    . simp [h]
    . simp [Store.alive, h] at halive
  constructor
  . intro hterminal
    rcases status_of_owns hinv howns halive with h | h
    . simp [h, BatchStatus.terminal] at hterminal
    . rw [h]
      exact hstatus h
  . intro h
    simp [System.after, bulkSystem, hnote, hhist] at h
  . intro j _ hne p hj
    rcases hj with hj | hj
    . rcases howns with h | h
      . simp [h] at hj
        exact absurd hj.1.symm hne
      . simp [Store.alive, h] at halive
    . exact .inr (by simpa only [System.after, hcrashed] using hj)

theorem safe_updateLast {place : Place} {patch : MessageBatch → MessageBatch}
    {Q : Bool → BatchWorld → Prop} {E : BatchError → BatchWorld → Prop}
    (hplace : place = .failWithoutEngine ∨ place = .saveCancelled ∨ place = .saveFinal)
    (howns : Owns tid pid w) (hQ : ∀ b w, Q b w) (hE : ∀ w, E .repository w) :
    outline.Safe tid (query pid place (updateWhere notCancelled patch)) w Q E := by
  apply safe_query
  . rintro rfl
    simp at hplace
  . intro w' hrely hinv halive _
    refine ⟨?_, hQ _ _⟩
    apply keeps_last hplace hinv (hrely pid howns) halive
    . unfold updateWhere
      split <;> rfl
    . intro h
      simp [updateWhere, notCancelled, h]
  . intro w' _
    exact hE w'

theorem safe_rereadCancelled (run : BatchRun) (howns : Owns tid pid w) :
    outline.Safe tid (rereadCancelled pid run) w (fun _ => Owns tid pid)
      (fun _ => Owns tid pid) := by
  unfold rereadCancelled
  split
  . exact howns
  . apply safe_query_same rfl
    . intro s
      exact ⟨rfl, rfl⟩
    . intro _ w₁ hrely
      exact hrely pid howns
    . intro w₁ hrely
      exact hrely pid howns

theorem safe_writeFinal (batch : MessageBatch) (howns : Owns tid pid w) :
    outline.Safe tid (writeFinal pid batch) w (fun _ _ => True) (fun _ _ => True) := by
  unfold writeFinal
  split
  . next hcancelled =>
    apply safe_query
    . decide
    . intro w' hrely hinv halive _
      refine ⟨?_, trivial⟩
      exact keeps_last (l := ⟨pid, .saveCancelled⟩) (.inr (.inl rfl)) hinv (hrely pid howns) halive
        rfl fun _ => hcancelled
    . intro _ _
      trivial
  . apply Outline.Safe.bind
    apply safe_updateLast (.inr (.inr rfl)) howns
    . intro _ _
      trivial
    . intro _
      trivial

theorem safe_finalizeBatch (run : BatchRun) (howns : Owns tid pid w) :
    outline.Safe tid (finalizeBatch pid run) w (fun _ _ => True) (fun _ _ => True) := by
  unfold finalizeBatch
  apply Outline.Safe.bind
  apply Outline.Safe.mono (safe_rereadCancelled run howns)
  . intro cancelledByDb w₁ howns
    apply Outline.Safe.bind
    apply safe_turn rfl
    . intro s
      exact ⟨rfl, rfl⟩
    intro w₂ w₃ hrely
    exact safe_writeFinal _ (hrely pid howns)
  . intro _ _ _
    trivial

/-- The start UPDATE begins the run, unless a cancel came first. -/
theorem safe_markBatchProcessing :
    outline.Safe tid (markBatchProcessing pid) w
      (fun started w => started = true → Owns tid pid w) (fun _ _ => True) := by
  unfold markBatchProcessing
  apply safe_query
  . decide
  . intro w' _ hinv _ hinturn
    rcases hinturn.1 rfl with ⟨hidle, hcompleted, hfailed⟩
    by_cases hcancelled : w'.st.row.status = .cancelled
    . have hsame := keeps_of_same tid (l := ⟨pid, .markProcessing⟩) (x := .ok) (s := w'.st) hinv rfl
        rfl (by simp [noteActive, notCancelled, hcancelled])
      simp only [updateWhere, notCancelled, hcancelled]
      exact ⟨hsame.1, by simp⟩
    . have hguard : notCancelled w'.st.row.status = true := by simp [notCancelled, hcancelled]
      simp only [updateWhere, hguard, if_true]
      refine ⟨⟨?_, ?_, ?_⟩, ?_⟩
      . intro hterminal
        cases hstatus : w'.st.row.status <;> simp_all [BatchStatus.terminal]
      . intro _
        exact .inl rfl
      . intro j _ _ p hj
        rcases hj with hj | hj
        . simp [hidle] at hj
        . exact .inr hj
      . intro _
        exact .inl (by simp [System.after, bulkSystem, noteActive, hguard])
  . intro _ _
    trivial

theorem safe_executeBatch (batch : MessageBatch) :
    outline.Safe tid (executeBatch pid batch) w (fun _ _ => True) (fun _ _ => True) := by
  unfold executeBatch
  apply Outline.Safe.bind
  apply Outline.Safe.mono safe_markBatchProcessing
  . intro started w₁ hstarted
    split
    . trivial
    . next hnot =>
      have howns := hstarted (by simpa using hnot)
      apply Outline.Safe.bind
      apply safe_ask rfl
      intro registered w₂ hrely
      have howns := hrely pid howns
      split
      . unfold failBatchWithoutEngine
        apply Outline.Safe.bind
        apply safe_updateLast (.inl rfl) howns
        . intro _ _
          trivial
        . intro _
          trivial
      . apply Outline.Safe.bind
        apply Outline.Safe.mono (safe_processBatchMessages _ _ _ howns)
        . intro run w₃ howns
          exact safe_finalizeBatch run howns
        . intro _ _ _
          trivial
  . intro _ _ _
    trivial

theorem safe_release {Q : Unit → BatchWorld → Prop} {E : BatchError → BatchWorld → Prop}
    (hQ : ∀ u w, Q u w) :
    outline.Safe tid (turn pid .release fun s => (s.setFlag pid none, .ok ())) w Q E := by
  unfold turn
  apply Outline.safe_await
  intro w' x _ hinv _ _ _
  refine ⟨⟨?_, ?_, ?_⟩, hQ _ _⟩
  . intro _
    rfl
  . intro h
    apply hinv
    intro hidle
    simp [System.after, bulkSystem, noteActive, hidle] at h
  . intro j _ hne p hj
    rcases hj with hj | hj
    . left
      simp [System.after, bulkSystem, noteActive, hj, hne]
    . exact .inr hj

theorem safe_processBatch :
    outline.Safe tid (processBatch pid) w (fun _ _ => True) (fun _ _ => True) := by
  unfold processBatch
  apply Outline.Safe.bind
  apply safe_query_same rfl
  . intro s
    exact ⟨rfl, rfl⟩
  . intro w₁ w₂ _
    apply Outline.Safe.andFinally
    apply Outline.Safe.bind
    apply safe_turn rfl
    . intro s
      split
      . exact ⟨rfl, rfl⟩
      . exact ⟨rfl, rfl⟩
    . intro w₃ w₄ _
      have hfin (w : BatchWorld) : outline.Safe tid
          (turn pid .release fun s => (s.setFlag pid none, .ok ())) w (fun _ _ => True)
          (fun _ _ => True) := safe_release fun _ _ => trivial
      split
      . exact hfin w₄
      . rw [Task.ofExcept_ok, Outline.safe_pure, if_pos rfl]
        apply Outline.Safe.mono (safe_executeBatch _)
        . intro _ w₅ _
          exact hfin w₅
        . intro _ w₅ _
          exact hfin w₅
  . intro _ _
    trivial

end Process

section Others

variable {tid pid : Nat} {w : BatchWorld}

theorem keeps_cancelUpdate {patch : MessageBatch → MessageBatch}
    (hpatch : ∀ row, (patch row).status = .cancelled) (hinv : BatchInv w) :
    outline.Keeps tid w (.turn tid ⟨pid, .cancelUpdate⟩ .ok)
      (updateWhere pendingOrProcessing patch w.st).1 := by
  by_cases hguard : pendingOrProcessing w.st.row.status = true
  . have hupdate : (updateWhere pendingOrProcessing patch w.st).1
        = { w.st with row := patch w.st.row } := by
      simp [updateWhere, hguard]
    rw [hupdate]
    constructor
    . intro hterminal
      cases hstatus : w.st.row.status <;>
        simp_all [BatchStatus.terminal, pendingOrProcessing]
    . intro _
      exact .inr (hpatch _)
    . intro j _ _ p hj
      exact hj
  . have hsame := keeps_of_same tid (l := ⟨pid, .cancelUpdate⟩) (x := .ok) (s := w.st) hinv rfl rfl rfl
    simp only [updateWhere, hguard]
    exact hsame.1

theorem safe_cancelBatch :
    outline.Safe tid (cancelBatch pid) w (fun _ _ => True) (fun _ _ => True) := by
  unfold cancelBatch
  apply Outline.Safe.bind
  apply safe_query_same rfl
  . intro s
    exact ⟨rfl, rfl⟩
  . intro w₁ w₂ _
    apply Outline.Safe.bind
    apply safe_turn rfl
    . intro s
      split
      . exact ⟨rfl, rfl⟩
      . exact ⟨rfl, rfl⟩
    . intro w₃ w₄ _
      split
      . trivial
      . rw [Task.ofExcept_ok, Outline.safe_pure]
        apply Outline.Safe.bind
        apply safe_query
        . decide
        . intro w₅ _ hinv _ _
          refine ⟨keeps_cancelUpdate (fun _ => rfl) hinv, ?_⟩
          split
          . apply Outline.Safe.bind
            apply safe_query_same rfl
            . intro s
              exact ⟨rfl, rfl⟩
            . intro _ _ _
              trivial
            . intro _ _
              trivial
          . trivial
        . intro _ _
          trivial
  . intro _ _
    trivial

theorem safe_failOrphanedBatch (batch : MessageBatch) :
    outline.Safe tid (failOrphanedBatch pid batch) w (fun _ _ => True) (fun _ _ => True) := by
  unfold failOrphanedBatch
  apply safe_query
  . decide
  . intro w' _ _ _ hinturn
    rcases hinturn.2 rfl with ⟨hidle, hcompleted, hcancelled⟩
    refine ⟨⟨?_, ?_, ?_⟩, trivial⟩
    . intro hterminal
      cases hstatus : w'.st.row.status <;>
        simp_all [BatchStatus.terminal, System.after, stripBatchMediaPayloads]
    . intro h
      exact absurd hidle h
    . intro j _ _ p hj
      exact hj
  . intro _ _
    trivial

theorem safe_onApplicationBootstrap :
    outline.Safe tid (onApplicationBootstrap pid) w (fun _ _ => True) (fun _ _ => True) := by
  unfold onApplicationBootstrap
  apply Outline.Safe.bind
  apply safe_query_same rfl
  . intro s
    exact ⟨rfl, rfl⟩
  . intro w₁ w₂ _
    split
    . apply Outline.Safe.bind
      apply safe_ask rfl
      intro yes w₃ _
      split
      . apply safe_failOrphanedBatch
      . trivial
    . trivial
  . intro _ _
    trivial

theorem safe_reapProcessingBatches :
    outline.Safe tid (reapProcessingBatches pid) w (fun _ _ => True) (fun _ _ => True) := by
  unfold reapProcessingBatches
  apply Outline.Safe.bind
  apply safe_query_same rfl
  . intro s
    exact ⟨rfl, rfl⟩
  . intro w₁ w₂ _
    split
    . apply safe_failOrphanedBatch
    . trivial
  . intro _ _
    trivial

theorem safe_task (v : BatchEvent) :
    outline.Safe tid v.task w (fun _ _ => True) (fun _ _ => True) := by
  cases v with
  | processBatch pid => exact safe_processBatch
  | cancelBatch pid => exact safe_cancelBatch
  | bootstrap pid => exact safe_onApplicationBootstrap
  | reap pid => exact safe_reapProcessingBatches
  | crash pid => trivial

end Others

section Runs

theorem keeps_event {w : BatchWorld} {v : BatchEvent} {s : Store} {t : Job Unit}
    (hinv : BatchInv w) (hevent : batchEvent v w.st = some (s, t)) :
    t = v.task ∧ outline.Keeps w.started w (.event w.started v) s := by
  unfold batchEvent at hevent
  split at hevent
  . split at hevent
    . next pid _ =>
      simp only [Option.some.injEq, Prod.mk.injEq] at hevent
      rcases hevent with ⟨rfl, rfl⟩
      refine ⟨rfl, ?_, ?_, ?_⟩
      . intro _
        rfl
      . intro h
        apply hinv
        intro hidle
        simp [System.after, bulkSystem, noteActive, hidle] at h
      . intro j _ _ p hj
        rcases hj with hj | hj
        . by_cases hpid : p = pid
          . exact .inr (by simp [System.after, hpid])
          . exact .inl (by simp [System.after, bulkSystem, noteActive, hj, hpid])
        . exact .inr (by simp [System.after, hj])
    . next hcrash =>
      simp only [Option.some.injEq, Prod.mk.injEq] at hevent
      rcases hevent with ⟨rfl, rfl⟩
      have hnote : noteActive (.event w.started v) w.st w.st w.hist = w.hist := by
        unfold noteActive
        grind
      refine ⟨rfl, ?_, ?_, ?_⟩
      . intro _
        rfl
      . simpa [BatchInv, outline, System.after, bulkSystem, hnote] using hinv
      . intro j _ _ p hj
        simpa [Owns, System.after, bulkSystem, hnote] using hj
  . contradiction

theorem outline_valid : outline.Valid where
  refl _ _ _ h := h
  trans _ _ _ _ h h' p howns := h' p (h p howns)
  event w v s t hinv _ hevent := by
    rcases keeps_event hinv hevent with ⟨rfl, hkeeps⟩
    exact ⟨hkeeps, safe_task v⟩

/--
In a run whose steps are all taken in turn, a terminal status is never replaced by another one.
-/
theorem terminal_exclusive {init c c' : Config Store Answer Loc BatchError (Option Active)}
    (hpool : init.pool = []) (hidle : init.hist = none) (h : bulkSystem.Reach InTurn init c)
    (hterminal : c.st.row.status.terminal = true) (hlater : bulkSystem.Reach InTurn c c') :
    c'.st.row.status = c.st.row.status := by
  have hinv : outline.inv init.world := by
    intro hne
    exact absurd hidle hne
  induction hlater with
  | init => rfl
  | step m hreach hstep hok ih =>
    rw [← ih]
    apply outline_valid.chk_of_reach hinv hpool (h.trans hreach) hstep hok
    simpa only [Config.world, ih] using hterminal

/-- A batch of one message, stored and not started. -/
def oneMessage : Config Store Answer Loc BatchError (Option Active) where
  st := {
    row := ⟨.pending, [⟨"628123@c.us", false⟩], false, ⟨1, 0, 0, 1, 0⟩, [], 0⟩
    processingBatches := fun _ => none
    crashed := []
  }
  hist := none
  pool := []

/-- Process 1 sends the batch up to its last write. -/
def sendOne : List (Move BatchEvent Answer) :=
  [.event (.processBatch 1), .turn 0 .ok, .turn 0 .ok, .turn 0 .ok, .turn 0 (.engine true), .turn 0 .ok,
    .turn 0 (.message (.sent "m1")), .turn 0 .ok]

/-- The last write of process 1, and its `finally`. -/
def finishOne : List (Move BatchEvent Answer) :=
  [.turn 0 .ok, .turn 0 .ok, .turn 0 .ok, .turn 0 .ok]

def statusAfter (ok : BatchWorld → Act BatchEvent Answer Loc → Prop) [∀ w a, Decidable (ok w a)]
    (ms : List (Move BatchEvent Answer)) (c : Config Store Answer Loc BatchError (Option Active)) :
    BatchStatus × Option BatchStatus :=
  (c.st.row.status, (bulkSystem.exec ok c ms).map (·.st.row.status))

theorem terminal_exclusive_oneMessage :
    ∃ c c', bulkSystem.Reach InTurn oneMessage c ∧ c.st.row.status = .completed ∧
      bulkSystem.Reach InTurn c c' ∧ c'.st.row.status = c.st.row.status := by
  have hrun : (bulkSystem.exec InTurn oneMessage (sendOne ++ finishOne)).map
      (statusAfter InTurn [.event (.reap 2), .turn 1 .ok]) = some (.completed, some .completed) := by
    decide +kernel
  rcases System.reach_of_exec_map hrun with ⟨c, hreach, hstatus⟩
  simp only [statusAfter, Prod.mk.injEq] at hstatus
  rcases System.reach_of_exec_map hstatus.2 with ⟨c', hreach', _⟩
  exact ⟨c, c', hreach, hstatus.1, hreach',
    terminal_exclusive rfl rfl hreach (by simp [hstatus.1, BatchStatus.terminal]) hreach'⟩

/-- A reaper reads the batch while it is sent and marks it FAILED after it completed. -/
theorem reaper_replaces_completed :
    ∃ c c', bulkSystem.Reach System.anyStep oneMessage c ∧ c.st.row.status = .completed ∧
      bulkSystem.Reach System.anyStep c c' ∧ c'.st.row.status = .failed := by
  have hrun : (bulkSystem.exec System.anyStep oneMessage
      (sendOne ++ [.event (.reap 2), .turn 1 .ok] ++ finishOne)).map
        (statusAfter System.anyStep [.turn 1 .ok]) = some (.completed, some .failed) := by
    decide +kernel
  rcases System.reach_of_exec_map hrun with ⟨c, hreach, hstatus⟩
  simp only [statusAfter, Prod.mk.injEq] at hstatus
  rcases System.reach_of_exec_map hstatus.2 with ⟨c', hreach', hstatus'⟩
  exact ⟨c, c', hreach, hstatus.1, hreach', hstatus'⟩

end Runs
end OpenWA.Message
