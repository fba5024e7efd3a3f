import OpenWA.Async.Outline
import OpenWA.Lid.LidMappingStore
import OpenWA.Sqlite.Keyed

/-!
This module contains the agreement of the lid mirror with its table: what the maps say once nothing is
in flight, and which answers of a query put it at risk.
-/

namespace OpenWA.Lid

open Async Js

/-- The phone of a lid's row. -/
def phoneOf (s : LidStore) (lid : Text) : Option (Option Text) := (rowOf s.table lid).map (·.phone)

/-- No recorded absence has a row, and every forward entry has the phone of its row. -/
structure Agrees (s : LidStore) : Prop where
  absent : ∀ lid ∈ s.absentFromTable, phoneOf s lid = none
  cached : ∀ entry ∈ s.lidToPhone, phoneOf s entry.1 = some entry.2

/-- A write whose upsert has not taken effect yet, and the activation that carries it. -/
structure Pending where
  tid : Nat
  row : LidMapping

/-- The history of a run: the writes under way, in the order of their `remember` calls. -/
def noteWrites (a : Act LidEvent Answer Place) (s _s' : LidStore) (writes : List Pending) :
    List Pending :=
  match a with
  | .event tid (.remember row) => if learns s row then writes ++ [⟨tid, row⟩] else writes
  | .turn tid (.upsert _) _ => writes.filter (·.tid ≠ tid)
  | _ => writes

def lidSystem : System LidStore Answer Place QueryError LidEvent (List Pending) where
  event v s := some (v.run s)
  note := noteWrites

abbrev LidWorld := World LidStore (List Pending)

abbrev LidConfig := Config LidStore Answer Place QueryError (List Pending)

/-- The phone the row of a lid will have once the writes under way have taken effect. -/
def settledPhone (w : LidWorld) (lid : Text) : Option (Option Text) :=
  match (w.hist.filter (·.row.lid = lid)).getLast? with
  | some write => some write.row.phone
  | none => phoneOf w.st lid

/-- The callback of a lookup changes the maps. -/
def takesEffect (s : LidStore) (lid : Text) (row : Option LidMapping) (writeInFlight : Bool) : Bool :=
  (s.cached lid).isNone && (row.isSome || !writeInFlight && s.maxCachedLids ≠ 0)

/--
The condition on the steps of a run: an answer takes effect only while it is what the writes under way
will leave, and the upsert that takes effect last of the overlapping ones of a lid leaves the phone of
the last call.
-/
def Current (w : LidWorld) (a : Act LidEvent Answer Place) : Prop :=
  match a with
  | .turn _ (.answered lid row writeInFlight) _ =>
    takesEffect w.st lid row writeInFlight = true → settledPhone w lid = row.map (·.phone)
  | .turn tid (.upsert row) _ =>
    let later := w.hist.filter fun write => write.tid ≠ tid ∧ write.row.lid = row.lid
    later.getLast?.all (fun last => settledPhone w row.lid = some last.row.phone) = true
  | _ => True

instance (w : LidWorld) (a : Act LidEvent Answer Place) : Decidable (Current w a) :=
  match a with
  | .turn _ (.answered ..) _ => inferInstanceAs (Decidable (_ → _))
  | .turn _ (.upsert _) _ => inferInstanceAs (Decidable (_ = true))
  | .turn _ (.findOne _) _ | .turn _ .lookupDone _ | .turn _ .writeDone _ | .event .. =>
    inferInstanceAs (Decidable True)

section Invariant

/-- The maps agree with what the table will be. -/
structure Mirror (w : LidWorld) : Prop where
  absent : ∀ lid ∈ w.st.absentFromTable, settledPhone w lid = none
  cached : ∀ entry ∈ w.st.lidToPhone, settledPhone w entry.1 = some entry.2
  started : ∀ write ∈ w.hist, write.tid < w.started

/-- The writes of one activation that are under way. -/
def writesOf (tid : Nat) (w : LidWorld) : List Pending := w.hist.filter (·.tid = tid)

def outline : Outline lidSystem where
  ok := Current
  inv := Mirror
  rely tid w w' := writesOf tid w' = writesOf tid w
  chk _ _ _ := True
  post tid _ w := writesOf tid w = []

theorem evictOver_subset (cap : Nat) (entries : List (Text × Option Text))
    (phoneToLids : List (Text × List Text)) :
    ∀ entry ∈ (evictOver cap entries phoneToLids).1, entry ∈ entries := by
  induction entries generalizing phoneToLids with
  | nil => simp [evictOver]
  | cons entry entries ih =>
    intro e he
    rcases entry with ⟨lid, phone⟩
    unfold evictOver at he
    split at he
    . exact List.mem_cons_of_mem _ (ih _ e he)
    . exact he

theorem evictIfOverCap_spec (s : LidStore) :
    (∀ entry ∈ s.evictIfOverCap.lidToPhone, entry ∈ s.lidToPhone) ∧
    s.evictIfOverCap.absentFromTable = s.absentFromTable ∧ s.evictIfOverCap.table = s.table := by
  unfold LidStore.evictIfOverCap
  split
  . exact ⟨fun _ h => h, rfl, rfl⟩
  . exact ⟨evictOver_subset _ _ _, rfl, rfl⟩

theorem mem_touch {s : LidStore} {lid : Text} {phone : Option Text} {entry : Text × Option Text}
    (h : entry ∈ (s.touch lid phone).lidToPhone) :
    entry = (lid, phone) ∨ entry ∈ s.lidToPhone ∧ entry.1 ≠ lid := by
  simp only [LidStore.touch, List.mem_append, List.mem_filter, List.mem_singleton,
    decide_eq_true_eq] at h
  rcases h with h | h
  . exact .inr h
  . exact .inl h

/-- Afterwards the forward map holds the mapping and older ones of other lids. -/
theorem index_spec (s : LidStore) (lid : Text) (phone : Option Text) :
    (∀ entry ∈ (s.index lid phone).lidToPhone,
      entry = (lid, phone) ∨ entry ∈ s.lidToPhone ∧ entry.1 ≠ lid) ∧
    (∀ l ∈ (s.index lid phone).absentFromTable, l ∈ s.absentFromTable ∧ l ≠ lid) ∧
    (s.index lid phone).table = s.table := by
  unfold LidStore.index
  refine ⟨?_, ?_, ?_⟩
  . intro entry hentry
    have hmem := (evictIfOverCap_spec _).1 entry hentry
    exact mem_touch hmem
  . intro l hl
    rw [(evictIfOverCap_spec _).2.1] at hl
    simpa using hl
  . exact (evictIfOverCap_spec _).2.2

theorem noteAbsent_spec (s : LidStore) (lid : Text) :
    (s.noteAbsent lid).lidToPhone = s.lidToPhone ∧ (s.noteAbsent lid).table = s.table ∧
    ∀ l ∈ (s.noteAbsent lid).absentFromTable, l ∈ s.absentFromTable ∨ l = lid ∧ s.maxCachedLids ≠ 0 := by
  unfold LidStore.noteAbsent
  split
  . exact ⟨rfl, rfl, fun _ h => .inl h⟩
  . next hcap =>
    refine ⟨rfl, rfl, ?_⟩
    intro l hl
    have hmem := List.mem_of_mem_drop hl
    split at hmem
    . exact .inl hmem
    . rcases List.mem_append.mp hmem with hmem | hmem
      . exact .inl hmem
      . exact .inr ⟨List.mem_singleton.mp hmem, hcap⟩

theorem settledPhone_congr {w w' : LidWorld} (hhist : w'.hist = w.hist)
    (htable : w'.st.table = w.st.table) (lid : Text) : settledPhone w' lid = settledPhone w lid := by
  simp only [settledPhone, phoneOf, hhist, htable]

theorem settledPhone_quiet {w : LidWorld} (h : w.hist = []) (lid : Text) :
    settledPhone w lid = phoneOf w.st lid := by
  simp [settledPhone, h]

/-- The callback of a lookup whose answer is current keeps the maps true. -/
theorem mirror_answer {w w' : LidWorld} {lid : Text} {row : Option LidMapping} {writeInFlight : Bool}
    (h : Mirror w) (hlid : ∀ r ∈ row, r.lid = lid)
    (hcurrent : takesEffect w.st lid row writeInFlight = true →
      settledPhone w lid = row.map (·.phone))
    (hst : w'.st = answer lid row writeInFlight w.st) (hhist : w'.hist = w.hist)
    (hstarted : w'.started = w.started) : Mirror w' := by
  have htable : w'.st.table = w.st.table := by
    rw [hst]
    unfold answer
    split
    . split
      . exact (index_spec _ _ _).2.2
      . rfl
    . split
      . exact (noteAbsent_spec _ _).2.1
      . rfl
  have hsame := settledPhone_congr hhist htable
  refine ⟨?_, ?_, ?_⟩
  . intro l hl
    rw [hsame]
    rw [hst] at hl
    unfold answer at hl
    split at hl
    . split at hl
      . exact h.absent l ((index_spec _ _ _).2.1 l hl).1
      . exact h.absent l hl
    . split at hl
      . next hmiss =>
        rcases (noteAbsent_spec _ _).2.2 l hl with hold | ⟨rfl, hcap⟩
        . exact h.absent l hold
        . simp only [Bool.and_eq_true, Bool.not_eq_true'] at hmiss
          exact hcurrent (by simp [takesEffect, hmiss.1, hmiss.2, hcap])
      . exact h.absent l hl
  . intro entry hentry
    rw [hsame]
    rw [hst] at hentry
    unfold answer at hentry
    split at hentry
    . next r =>
      have hr := hlid r rfl
      split at hentry
      . next hmiss =>
        rcases (index_spec _ _ _).1 entry hentry with rfl | ⟨hold, -⟩
        . rw [hr]
          exact hcurrent (by simp [takesEffect, ← hr, hmiss])
        . exact h.cached entry hold
      . exact h.cached entry hentry
    . split at hentry
      . rw [(noteAbsent_spec _ _).1] at hentry
        exact h.cached entry hentry
      . exact h.cached entry hentry
  . rw [hhist, hstarted]
    exact h.started

section Table

theorem lid_of_rowOf {table : List LidMapping} {lid : Text} {row : LidMapping}
    (h : rowOf table lid = some row) : row.lid = lid :=
  Sqlite.Keyed.key_of_find h

theorem rowOf_upsertRow (table : List LidMapping) (row : LidMapping) (lid : Text) :
    rowOf (upsertRow table row) lid = if lid = row.lid then some row else rowOf table lid :=
  Sqlite.Keyed.find_upsert

theorem phoneOf_upsertRow (s : LidStore) (row : LidMapping) (lid : Text) :
    phoneOf { s with table := upsertRow s.table row } lid =
      if lid = row.lid then some row.phone else phoneOf s lid := by
  simp only [phoneOf, rowOf_upsertRow]
  split <;> rfl

theorem mirror_upsert {w w' : LidWorld} {tid : Nat} {row : LidMapping} (h : Mirror w)
    (hown : writesOf tid w = [⟨tid, row⟩])
    (hlast : ((w.hist.filter fun write => write.tid ≠ tid ∧ write.row.lid = row.lid).getLast?).all
      (fun last => settledPhone w row.lid = some last.row.phone) = true)
    (hst : w'.st = { w.st with table := upsertRow w.st.table row })
    (hhist : w'.hist = w.hist.filter (·.tid ≠ tid)) (hstarted : w'.started = w.started) :
    Mirror w' := by
  have hmem : (⟨tid, row⟩ : Pending) ∈ w.hist := by
    have hin : (⟨tid, row⟩ : Pending) ∈ writesOf tid w := by simp [hown]
    exact List.mem_of_mem_filter hin
  have honly (write) (hw : write ∈ w.hist) (heq : write.tid = tid) : write = ⟨tid, row⟩ := by
    have hin : write ∈ writesOf tid w := by simp [writesOf, hw, heq]
    simpa [hown] using hin
  have hphone (l : Text) : phoneOf w'.st l = if l = row.lid then some row.phone else phoneOf w.st l := by
    rw [hst]
    exact phoneOf_upsertRow w.st row l
  have hsame (l : Text) : settledPhone w' l = settledPhone w l := by
    by_cases hl : l = row.lid
    . subst hl
      have hlater : w'.hist.filter (·.row.lid = row.lid) =
          w.hist.filter fun write => write.tid ≠ tid ∧ write.row.lid = row.lid := by
        rw [hhist, List.filter_filter]
        apply List.filter_congr
        intro write _
        simp [and_comm]
      rw [← hlater] at hlast
      cases hrest : (w'.hist.filter (·.row.lid = row.lid)).getLast? with
      | some last =>
        simp only [hrest, Option.all_some, decide_eq_true_eq] at hlast
        simp only [settledPhone, hrest]
        exact hlast.symm
      | none =>
        -- no other write of the lid is left, so this one was the last
        rw [List.getLast?_eq_none_iff, hlater, List.filter_eq_nil_iff] at hrest
        have hown' (write) (hw : write ∈ w.hist.filter (·.row.lid = row.lid)) : write = ⟨tid, row⟩ := by
          rcases List.mem_filter.mp hw with ⟨hw, hlid⟩
          apply honly write hw
          have hne := hrest write hw
          simp only [decide_eq_true_eq] at hlid
          simpa [hlid] using hne
        have hbefore : settledPhone w row.lid = some row.phone := by
          cases hlastOwn : (w.hist.filter (·.row.lid = row.lid)).getLast? with
          | some last =>
            have := hown' last (List.mem_of_getLast? hlastOwn)
            simp [settledPhone, hlastOwn, this]
          | none =>
            rw [List.getLast?_eq_none_iff, List.filter_eq_nil_iff] at hlastOwn
            exact absurd (by simp) (hlastOwn _ hmem)
        have hnil : w'.hist.filter (·.row.lid = row.lid) = [] := by
          rw [hlater, List.filter_eq_nil_iff]
          exact hrest
        rw [hbefore, settledPhone, hnil]
        simp [hphone]
    . have hlist : w'.hist.filter (·.row.lid = l) = w.hist.filter (·.row.lid = l) := by
        rw [hhist, List.filter_filter]
        apply List.filter_congr
        intro write hw
        by_cases htid : write.tid = tid
        . rw [honly write hw htid]
          simp [Ne.symm hl]
        . simp [htid]
      simp only [settledPhone, hlist, hphone, if_neg hl]
  refine ⟨?_, ?_, ?_⟩
  . intro l hl
    rw [hsame]
    rw [hst] at hl
    exact h.absent l hl
  . intro entry hentry
    rw [hsame]
    rw [hst] at hentry
    exact h.cached entry hentry
  . intro write hw
    rw [hstarted]
    rw [hhist] at hw
    exact h.started write (List.mem_of_mem_filter hw)

end Table

theorem mirror_shrink {w w' : LidWorld} (h : Mirror w)
    (hcached : ∀ entry ∈ w'.st.lidToPhone, entry ∈ w.st.lidToPhone)
    (habsent : w'.st.absentFromTable = w.st.absentFromTable) (htable : w'.st.table = w.st.table)
    (hhist : w'.hist = w.hist) (hstarted : w.started ≤ w'.started) : Mirror w' := by
  have hsame := settledPhone_congr hhist htable
  refine ⟨?_, ?_, ?_⟩
  . intro l hl
    rw [hsame]
    exact h.absent l (habsent ▸ hl)
  . intro entry hentry
    rw [hsame]
    exact h.cached entry (hcached entry hentry)
  . intro write hw
    exact Nat.lt_of_lt_of_le (h.started write (hhist ▸ hw)) hstarted

theorem mirror_remember {w w' : LidWorld} {row : LidMapping} (h : Mirror w)
    (hcached : w'.st.lidToPhone = (w.st.index row.lid row.phone).lidToPhone)
    (habsent : w'.st.absentFromTable = (w.st.index row.lid row.phone).absentFromTable)
    (htable : w'.st.table = w.st.table) (hhist : w'.hist = w.hist ++ [⟨w.started, row⟩])
    (hstarted : w'.started = w.started + 1) : Mirror w' := by
  have hother {l : Text} (hl : l ≠ row.lid) : settledPhone w' l = settledPhone w l := by
    simp [settledPhone, hhist, phoneOf, htable, Ne.symm hl]
  refine ⟨?_, ?_, ?_⟩
  . intro l hl
    rw [habsent] at hl
    rcases (index_spec _ _ _).2.1 l hl with ⟨hold, hne⟩
    rw [hother hne]
    exact h.absent l hold
  . intro entry hentry
    rw [hcached] at hentry
    rcases (index_spec _ _ _).1 entry hentry with rfl | ⟨hold, hne⟩
    . simp [settledPhone, hhist]
    . rw [hother hne]
      exact h.cached entry hold
  . intro write hw
    rw [hstarted]
    rw [hhist] at hw
    rcases List.mem_append.mp hw with hw | hw
    . exact Nat.lt_succ_of_lt (h.started write hw)
    . rw [List.mem_singleton] at hw
      subst hw
      exact Nat.lt_succ_self _

end Invariant

section Turns

variable {i : Nat} {w : LidWorld}

theorem keeps_of_hist {pt : Place} {x : Answer} {s : LidStore}
    (hhist : noteWrites (.turn i pt x) w.st s w.hist = w.hist)
    (hinv : Mirror (lidSystem.after w (.turn i pt x) s)) :
    outline.Keeps i w (.turn i pt x) s where
  chk := trivial
  inv := hinv
  rely j _ _ := by
    change (noteWrites (.turn i pt x) w.st s w.hist).filter _ = w.hist.filter _
    rw [hhist]

theorem safe_findOne {lid : Text} (h : writesOf i w = []) :
    outline.Safe i (findOne lid) w (fun row w => writesOf i w = [] ∧ ∀ r ∈ row, r.lid = lid)
      (fun _ w => writesOf i w = []) := by
  apply Outline.safe_atomic
  intro w' x hrely hinv hlt hok
  refine ⟨keeps_of_hist rfl (mirror_shrink hinv (fun _ h => h) rfl rfl rfl (Nat.le_refl _)), ?_⟩
  apply Outline.safe_ofExcept
  . intro row hrow
    refine ⟨Eq.trans hrely h, ?_⟩
    intro r hr
    split at hrow
    . contradiction
    . simp only [Except.ok.injEq] at hrow
      exact lid_of_rowOf (hrow.trans hr)
  . intro e _
    exact Eq.trans hrely h

theorem safe_lookup {lid : Text} {writeInFlight : Bool} (h : writesOf i w = []) :
    outline.Safe i (lookup lid writeInFlight) w (fun _ w => writesOf i w = [])
      (fun _ w => writesOf i w = []) := by
  have hdone (w₁ : LidWorld) (h₁ : writesOf i w₁ = []) :
      outline.Safe i (.atomic .lookupDone fun _ s =>
        ({ s with pendingLookups := s.pendingLookups.filter (· ≠ lid) }, .ok ())) w₁
        (fun _ w => writesOf i w = []) (fun _ w => writesOf i w = []) := by
    apply Outline.safe_atomic
    intro w' x hrely hinv hlt hok
    refine ⟨keeps_of_hist rfl (mirror_shrink hinv (fun _ h => h) rfl rfl rfl (Nat.le_refl _)), ?_⟩
    exact Eq.trans hrely h₁
  unfold lookup
  apply Outline.Safe.andFinally
  apply Outline.Safe.catch'
  apply Outline.Safe.seq (safe_findOne h)
  . rintro row w₁ ⟨h₁, hlid⟩
    apply Outline.safe_atomic
    intro w' x hrely hinv hlt hok
    exact ⟨keeps_of_hist rfl (mirror_answer hinv hlid hok rfl rfl rfl), hdone _ (Eq.trans hrely h₁)⟩
  . intro e w₁ h₁
    exact hdone _ h₁

theorem safe_persist {row : LidMapping} (h : writesOf i w = [⟨i, row⟩]) :
    outline.Safe i (persist row) w (fun _ w => writesOf i w = []) (fun _ w => writesOf i w = []) := by
  apply Outline.Safe.seq (Q := fun _ w => writesOf i w = []) (E := fun _ w => writesOf i w = [])
  . apply Outline.safe_atomic
    intro w' x hrely hinv hlt hok
    refine ⟨⟨trivial, mirror_upsert hinv (Eq.trans hrely h) hok rfl rfl rfl, ?_⟩, ?_⟩
    . intro j _ hne
      change (w'.hist.filter (·.tid ≠ i)).filter (·.tid = j) = w'.hist.filter (·.tid = j)
      rw [List.filter_filter]
      apply List.filter_congr
      intro write _
      by_cases htid : write.tid = j
      . simp [htid, hne]
      . simp [htid]
    . change (w'.hist.filter (·.tid ≠ i)).filter (·.tid = i) = []
      simp
  . intro _ w₁ h₁
    apply Outline.safe_atomic
    intro w' x hrely hinv hlt hok
    refine ⟨keeps_of_hist rfl (mirror_shrink hinv (fun _ h => h) rfl rfl rfl (Nat.le_refl _)), ?_⟩
    exact Eq.trans hrely h₁
  . intro _ _ he
    exact he

theorem writesOf_started (h : Mirror w) : writesOf w.started w = [] := by
  rw [writesOf, List.filter_eq_nil_iff]
  intro write hw
  simpa using Nat.ne_of_lt (h.started write hw)

end Turns

section Runs

theorem event_quiet {w : LidWorld} {v : LidEvent} {s : LidStore} (h : Mirror w)
    (hhist : noteWrites (.event w.started v) w.st s w.hist = w.hist)
    (hcached : ∀ entry ∈ s.lidToPhone, entry ∈ w.st.lidToPhone)
    (habsent : s.absentFromTable = w.st.absentFromTable) (htable : s.table = w.st.table) :
    outline.Keeps w.started w (.event w.started v) s ∧
    writesOf w.started (lidSystem.after w (.event w.started v) s) = [] := by
  have hwrites (j : Nat) :
      writesOf j (lidSystem.after w (.event w.started v) s) = writesOf j w := by
    change (noteWrites (.event w.started v) w.st s w.hist).filter _ = w.hist.filter _
    rw [hhist]
  refine ⟨⟨trivial, mirror_shrink h hcached habsent htable hhist (Nat.le_succ _), ?_⟩, ?_⟩
  . intro j _ _
    exact hwrites j
  . rw [hwrites, writesOf_started h]

theorem event_learned {w : LidWorld} {row : LidMapping} (h : Mirror w)
    (hlearns : learns w.st row = true) (unsettled : List Text) :
    let s := { w.st.index row.lid row.phone with unsettledWrites := unsettled }
    outline.Keeps w.started w (.event w.started (.remember row)) s ∧
    writesOf w.started (lidSystem.after w (.event w.started (.remember row)) s) =
      [⟨w.started, row⟩] := by
  intro s
  have hhist : (lidSystem.after w (.event w.started (.remember row)) s).hist =
      w.hist ++ [⟨w.started, row⟩] := by
    simp [System.after, lidSystem, noteWrites, hlearns]
  refine ⟨⟨trivial, mirror_remember h rfl rfl (index_spec _ _ _).2.2 hhist rfl, ?_⟩, ?_⟩
  . intro j hj _
    change writesOf j _ = writesOf j w
    rw [writesOf, hhist, List.filter_append, writesOf]
    simp [Nat.ne_of_gt hj]
  . rw [writesOf, hhist, List.filter_append, ← writesOf, writesOf_started h]
    simp

theorem valid : outline.Valid where
  refl _ _ := rfl
  trans _ _ _ _ h h' := Eq.trans h' h
  event w v s t hinv hok hevent := by
    simp only [lidSystem, Option.some.injEq] at hevent
    cases v with
    | getCached lid =>
      simp only [LidEvent.run, getCached] at hevent
      split at hevent
      . next phone hhit =>
        simp only [Prod.mk.injEq] at hevent
        rcases hevent with ⟨rfl, rfl⟩
        refine event_quiet (v := .getCached lid) (s := w.st.touch lid phone) hinv rfl ?_ rfl rfl
        intro entry hentry
        rcases mem_touch hentry with rfl | ⟨hold, -⟩
        . rcases List.lookup_eq_some_iff.mp hhit with ⟨l₁, l₂, heq, -⟩
          simp [heq]
        . exact hold
      . unfold warmFromTable at hevent
        split at hevent <;> simp only [Prod.mk.injEq] at hevent <;> rcases hevent with ⟨rfl, rfl⟩
        . exact event_quiet hinv rfl (fun _ h => h) rfl rfl
        . rcases event_quiet (v := .getCached lid)
            (s := { w.st with pendingLookups := w.st.pendingLookups ++ [lid] })
            hinv rfl (fun _ h => h) rfl rfl with ⟨hkeeps, hnone⟩
          exact ⟨hkeeps, safe_lookup hnone⟩
    | remember row =>
      simp only [LidEvent.run, remember] at hevent
      split at hevent <;> rename_i hlearns <;> simp only [Prod.mk.injEq] at hevent <;>
        rcases hevent with ⟨rfl, rfl⟩
      . exact ⟨(event_learned hinv hlearns _).1, safe_persist (event_learned hinv hlearns _).2⟩
      . refine event_quiet (v := .remember row) hinv ?_ (fun _ h => h) rfl rfl
        simp [noteWrites, hlearns]

/-- A process before its first call, with any table and any maps. -/
def booted (s : LidStore) : LidConfig where
  st := s
  hist := []
  pool := []

theorem Agrees.mirror {s : LidStore} (h : Agrees s) : Mirror (booted s).world where
  absent lid hlid := by
    rw [settledPhone_quiet rfl]
    exact h.absent lid hlid
  cached entry hentry := by
    rw [settledPhone_quiet rfl]
    exact h.cached entry hentry
  started := by simp [booted, Config.world]

theorem hist_of_drained {c : LidConfig} (h : outline.Holds c) (hdrained : c.drained = true) :
    c.hist = [] := by
  rw [List.eq_nil_iff_forall_not_mem]
  intro write hwrite
  have hlt := h.inv.started write hwrite
  have hget : c.pool[write.tid]? = some c.pool[write.tid] := List.getElem?_eq_getElem hlt
  have hfinished : c.pool[write.tid].finished = true :=
    List.all_eq_true.mp hdrained _ (List.getElem_mem hlt)
  rcases h.finished hget hfinished with ⟨_, w, hrely, hpost⟩
  have hnone : writesOf write.tid c.world = [] := Eq.trans hrely hpost
  have hmem : write ∈ writesOf write.tid c.world := by
    simp only [writesOf, List.mem_filter, decide_true, and_true]
    exact hwrite
  simp [hnone] at hmem

section Samples

/-- A process with an empty table and the given cap. -/
def emptyStore (cap : Nat) : LidStore where
  table := []
  lidToPhone := []
  phoneToLids := []
  pendingLookups := []
  absentFromTable := []
  unsettledWrites := []
  maxCachedLids := cap

def sampleRow (lid phone : Char) : LidMapping := ⟨[lid], some [phone], none, 0⟩

/-- The rows of the lids that are recorded absent, and the entries whose phone is not their row's. -/
def disagreements (c : LidConfig) : List Text :=
  c.st.absentFromTable.filter (fun lid => (phoneOf c.st lid).isSome) ++
  (c.st.lidToPhone.filter fun entry => phoneOf c.st entry.1 ≠ some entry.2).map (·.1)

theorem disagreements_of_agrees {c : LidConfig} (h : Agrees c.st) : disagreements c = [] := by
  unfold disagreements
  rw [List.append_eq_nil_iff, List.filter_eq_nil_iff, List.map_eq_nil_iff, List.filter_eq_nil_iff]
  refine ⟨?_, ?_⟩
  . intro lid hlid
    simp [h.absent lid hlid]
  . intro entry hentry
    simp [h.cached entry hentry]

theorem emptyStore_agrees (cap : Nat) : Agrees (emptyStore cap) := by
  constructor <;> simp [emptyStore]

end Samples

end Runs

end OpenWA.Lid
