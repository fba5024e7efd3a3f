import OpenWA.PluginUpdate.Update

/-!
This module contains what a crash in the middle of an update leaves of a plugin after the next boot.
-/

namespace OpenWA.PluginUpdate

open Js Disk

/-! ### Names -/

theorem safeId_cons {id : Text} (h : safeId id) :
    ∃ c rest, id = c :: rest ∧ c.isAlphanum ∧
      rest.all (fun c => c.isAlphanum || c = '.' || c = '_' || c = '-') := by
  unfold safeId at h
  split at h
  . contradiction
  . next c rest =>
    simp only [Bool.and_eq_true] at h
    exact ⟨c, rest, rfl, h.1.1, h.1.2⟩

theorem isLineTerminator_alphanum {c : Char} (h : c.isAlphanum || c = '.' || c = '_' || c = '-') :
    isLineTerminator c = false := by
  simp only [isLineTerminator, decide_eq_false_iff_not, List.mem_cons, List.not_mem_nil, or_false]
  intro hc
  rcases hc with rfl | rfl | rfl | rfl <;> revert h <;> decide

theorem safeId_no_lineTerminator {id : Text} (h : safeId id) : id.any isLineTerminator = false := by
  rcases safeId_cons h with ⟨c, rest, rfl, hc, hrest⟩
  rw [List.all_eq_true] at hrest
  rw [List.any_eq_false]
  intro x hx
  rw [List.mem_cons] at hx
  rcases hx with rfl | hx
  . simp [isLineTerminator_alphanum (c := x) (by simp [hc])]
  . simp [isLineTerminator_alphanum (hrest x hx)]

theorem leftoverOf_backup {id : Text} (h : safeId id) :
    leftoverOf (pluginUpdateBackupDirName id) = some id := by
  have hlen : (id ++ backupSuffix).length - 4 = id.length := by
    simp [backupSuffix]
  have hne : id ≠ [] := by
    rcases safeId_cons h with ⟨c, rest, rfl, _⟩
    simp
  simp only [leftoverOf, pluginUpdateBackupDirName, hlen, List.cons_append, List.take_left,
    List.drop_left, safeId_no_lineTerminator h]
  simp [hne]

/-- A leftover is the staging directory or the backup of the plugin that it is named after. -/
theorem leftoverOf_some {name id : Text} (h : leftoverOf name = some id) :
    name = pluginUpdateStagingDirName id ∨ name = pluginUpdateBackupDirName id := by
  unfold leftoverOf at h
  split at h
  . next rest =>
    dsimp only at h
    split at h
    . next hc =>
      simp only [Option.some.injEq] at h
      simp only [ne_eq, Bool.and_eq_true, Bool.or_eq_true, decide_eq_true_eq] at hc
      have hrest : rest = rest.take (rest.length - 4) ++ rest.drop (rest.length - 4) :=
        (List.take_append_drop _ _).symm
      rcases hc.1.2 with hs | hs
      . right
        rw [hs, h] at hrest
        rw [hrest, pluginUpdateBackupDirName, List.cons_append]
      . left
        rw [hs, h] at hrest
        rw [hrest, pluginUpdateStagingDirName, List.cons_append]
    . contradiction
  . contradiction

theorem staging_ne_backup (id id' : Text) :
    pluginUpdateStagingDirName id ≠ pluginUpdateBackupDirName id' := by
  intro h
  have hlength : stagingSuffix.length = backupSuffix.length := by decide +kernel
  have hsuffix : stagingSuffix = backupSuffix := (List.append_inj' h hlength).2
  exact absurd hsuffix (by decide +kernel)

theorem safeId_ne_dot {id : Text} (h : safeId id) (rest : Text) : id ≠ '.' :: rest := by
  rcases safeId_cons h with ⟨c, tail, rfl, hc, _⟩
  intro heq
  rw [List.cons.injEq] at heq
  rw [heq.1] at hc
  exact absurd hc (by decide)

namespace Plugin

variable (t : Plugin)

theorem id_ne_backup : t.id ≠ t.backup := safeId_ne_dot t.safe _

theorem id_ne_staging : t.id ≠ t.staging := safeId_ne_dot t.safe _

theorem staging_ne_backup : t.staging ≠ t.backup := PluginUpdate.staging_ne_backup t.id t.id

end Plugin

/-! ### Recovery -/

/-- The directory that the next boot makes the plugin's own. -/
def installed (t : Plugin) (root : Root) : Option Dir := (root.get? t.id).or (root.get? t.backup)

section Recovery

variable (t : Plugin) {root : Root} {name : Text}

theorem recoverEntry_other (h : name ≠ t.backup) :
    (recoverEntry root name).get? t.id = root.get? t.id := by
  unfold recoverEntry
  split
  . rfl
  . next id hid =>
    have hne : t.id ≠ name := by
      rintro rfl
      rcases leftoverOf_some hid with heq | heq
      . exact safeId_ne_dot t.safe _ heq
      . exact safeId_ne_dot t.safe _ heq
    split
    . simp [hne]
    . next hstaging =>
      have hid' : t.id ≠ id := by
        rintro rfl
        exact (leftoverOf_some hid).elim hstaging h
      split
      . simp [hne]
      . split
        . simp [hne, hid']
        . rfl

theorem recoverEntry_other_backup (h : name ≠ t.backup) (hb : (root.get? t.backup).isSome) :
    (recoverEntry root name).get? t.backup = root.get? t.backup := by
  unfold recoverEntry
  split
  . rfl
  . next id _ =>
    split
    . simp [Ne.symm h]
    . split
      . simp [Ne.symm h]
      . next hmissing =>
        have hid : t.backup ≠ id := by
          rintro rfl
          exact hmissing hb
        split
        . simp [Ne.symm h, hid]
        . rfl

theorem recoverEntry_backup (hb : (root.get? t.backup).isSome) :
    (recoverEntry root t.backup).get? t.id = installed t root := by
  have hleft : leftoverOf t.backup = some t.id := leftoverOf_backup t.safe
  have hstaging : t.backup ≠ pluginUpdateStagingDirName t.id := Ne.symm t.staging_ne_backup
  rcases Option.isSome_iff_exists.mp hb with ⟨dir, hdir⟩
  unfold recoverEntry installed
  rw [hleft]
  simp only [if_neg hstaging]
  by_cases hhas : root.has t.id
  . rcases Option.isSome_iff_exists.mp hhas with ⟨live, hlive⟩
    rw [if_pos hhas]
    simp [hlive, t.id_ne_backup]
  . have hlive : root.get? t.id = none := Option.not_isSome_iff_eq_none.mp hhas
    rw [if_neg hhas]
    simp [hdir, hlive]

/-- By induction on the entries that are left; the backup is among them as long as it counts. -/
theorem foldl_recoverEntry (names : List Text) (hnodup : names.Nodup)
    (hb : t.backup ∈ names → (root.get? t.backup).isSome) :
    (names.foldl recoverEntry root).get? t.id =
      if t.backup ∈ names then installed t root else root.get? t.id := by
  induction names generalizing root with
  | nil => simp
  | cons name names ih =>
    rw [List.nodup_cons] at hnodup
    rw [List.foldl_cons]
    by_cases hname : name = t.backup
    . subst hname
      rw [ih hnodup.2 fun h => absurd h hnodup.1, if_neg hnodup.1,
        recoverEntry_backup t (hb List.mem_cons_self), if_pos List.mem_cons_self]
    . have hmem : t.backup ∈ name :: names ↔ t.backup ∈ names := by
        simp [Ne.symm hname]
      have hkept : t.backup ∈ names →
          (recoverEntry root name).get? t.backup = root.get? t.backup :=
        fun h => recoverEntry_other_backup t hname (hb (hmem.mpr h))
      have hother : (recoverEntry root name).get? t.id = root.get? t.id := recoverEntry_other t hname
      rw [ih hnodup.2 fun h => by rw [hkept h]; exact hb (hmem.mpr h)]
      simp only [hmem]
      split
      . next h => rw [installed, installed, hkept h, hother]
      . exact hother

theorem recoverInterruptedUpdates_get? (root : Root) :
    (recoverInterruptedUpdates root).get? t.id = installed t root := by
  unfold recoverInterruptedUpdates
  rw [foldl_recoverEntry t root.keys root.nodup fun h => (Js.Map.get?_isSome_iff root _).mpr h]
  split
  . rfl
  . next h =>
    rw [← Js.Map.get?_isSome_iff, Option.not_isSome_iff_eq_none] at h
    rw [installed, h, Option.or_none]

end Recovery

/-! ### The calls -/

section Calls

variable {throws : Call → Bool} {I : Root → Prop} {d : Text}

theorem keeps_noEffect (l : Call) : Keeps throws I (noEffect l) :=
  .call fun s s' hs heq => by
    cases heq
    exact hs

/-- What holds whatever becomes of `d` holds all along a removal, and in the end nothing is there. -/
theorem rmSync_triple (l : Call) (hset : ∀ root dir, I root → I (root.set d dir))
    (hdelete : ∀ root, I root → I (root.delete d)) :
    Triple throws I (rmSync l d) (fun root => I root ∧ root.get? d = none)
      (fun root => throws l ∧ I root) (fun l' root => l' = l ∧ I root) := by
  refine .read fun root hroot => ?_
  cases hd : root.get? d with
  | none =>
    refine .done ?_
    rintro _ rfl
    exact ⟨hroot, hd⟩
  | some dir =>
    have hunlink : ∀ p, Triple throws (fun root => I root ∧ (root.get? d).isSome) (unlink l d p)
        (fun root => I root ∧ (root.get? d).isSome) (fun root => throws l ∧ I root)
        (fun l' root => l' = l ∧ I root) := by
      intro p
      refine .call (fun _ h => ⟨rfl, h.1⟩) ?_ ?_
      . intro root h hthrow
        rcases hthrow with hthrow | hnone
        . exact ⟨hthrow, h.1⟩
        . rw [Option.map_eq_none_iff] at hnone
          rw [hnone] at h
          exact absurd h.2 (by simp)
      . intro root root' h heq
        rw [Option.map_eq_some_iff] at heq
        rcases heq with ⟨dir, _, rfl⟩
        exact ⟨hset _ _ h.1, by simp⟩
    refine .seq (R := fun root => I root ∧ (root.get? d).isSome) ?_
      (.call (fun _ h => ⟨rfl, h.1⟩) ?_ ?_)
    . refine (Triple.forEach (I := fun _ root => I root ∧ (root.get? d).isSome)
        (fun p _ => hunlink p) dir.keys).pre ?_
      rintro _ rfl
      exact ⟨hroot, by simp [hd]⟩
    . intro root h hthrow
      rcases hthrow with hthrow | hnone
      . exact ⟨hthrow, h.1⟩
      . contradiction
    . intro root root' h heq
      cases heq
      exact ⟨hdelete _ h.1, by simp⟩

theorem keeps_rmSync (l : Call) (hset : ∀ root dir, I root → I (root.set d dir))
    (hdelete : ∀ root, I root → I (root.delete d)) : Keeps throws I (rmSync l d) :=
  (rmSync_triple l hset hdelete).consequence (fun _ => id) (fun _ => And.left) (fun _ => And.right)
    fun _ _ => And.right

def Writing (I : Root → Prop) (d p : Text) (dir : Dir) (data rest : Bytes) (root : Root) : Prop :=
  I root ∧ ∃ written, written ++ rest = data ∧ root.get? d = some (dir.set p written)

/-- All bytes are there when the write has finished. -/
theorem writeFileSync_triple (l : Call) (p : Text) (data : Bytes) (dir : Dir)
    (hset : ∀ root dir, I root → I (root.set d dir)) :
    Triple throws (fun root => I root ∧ root.get? d = some dir) (writeFileSync l d p data)
      (fun root => I root ∧ root.get? d = some (dir.set p data)) I
      (fun l' root => l' = l ∧ I root) := by
  refine .seq (R := fun root => I root ∧ root.get? d = some (dir.set p [])) ?_ ?_
  . refine .call (fun _ h => ⟨rfl, h.1⟩) (fun _ h _ => h.1) ?_
    intro root root' h heq
    rw [h.2] at heq
    cases heq
    exact ⟨hset _ _ h.1, by simp⟩
  . have hbyte : ∀ byte rest, Triple throws (Writing I d p dir data (byte :: rest)) (append l d p byte)
        (Writing I d p dir data rest) I (fun l' root => l' = l ∧ I root) := by
      intro byte rest
      refine .call (fun _ h => ⟨rfl, h.1⟩) (fun _ h _ => h.1) ?_
      rintro root root' ⟨hI, written, hwritten, hd⟩ heq
      rw [hd] at heq
      cases heq
      refine ⟨hset _ _ hI, written ++ [byte], ?_, by simp⟩
      rw [List.append_assoc, List.singleton_append, hwritten]
    refine (Triple.forEach (I := Writing I d p dir data) hbyte data).consequence ?_ ?_
      (fun _ => id) (fun _ _ => id)
    . intro root h
      exact ⟨h.1, [], rfl, h.2⟩
    . rintro root ⟨hI, written, hwritten, hd⟩
      rw [List.append_nil] at hwritten
      exact ⟨hI, hwritten ▸ hd⟩

/-- A directory is moved to a place where nothing is. -/
theorem renameSync_triple {a b : Text} {T : Root → Prop} {C : Call → Root → Prop} (l : Call) (dir : Dir)
    (hmove : ∀ root, I root → root.get? a = some dir ∧ root.get? b = none) (hT : ∀ root, I root → T root)
    (hC : ∀ root, I root → C l root) :
    Triple throws I (renameSync l a b)
      (fun root' => ∃ root, I root ∧ root' = (root.delete a).set b dir) T C := by
  refine .call hC (fun root h _ => hT root h) ?_
  intro root root' h heq
  rcases hmove root h with ⟨ha, hb⟩
  simp only [ha, hb, Option.some.injEq] at heq
  exact ⟨root, h, heq.symm⟩

end Calls

/-! ### The phases of the update -/

section Phases

variable {throws : Call → Bool} {t : Plugin} {old : Dir} {entries : Package} {wasEnabled : Bool}

def OldInstalled (t : Plugin) (old : Dir) (root : Root) : Prop := installed t root = some old

theorem OldInstalled.set_staging (root : Root) (dir : Dir) (h : OldInstalled t old root) :
    OldInstalled t old (root.set t.staging dir) := by
  unfold OldInstalled installed at h ⊢
  rw [Js.Map.get?_set, Js.Map.get?_set, if_neg t.id_ne_staging, if_neg t.staging_ne_backup.symm, h]

theorem OldInstalled.delete_staging (root : Root) (h : OldInstalled t old root) :
    OldInstalled t old (root.delete t.staging) := by
  unfold OldInstalled installed at h ⊢
  rw [Js.Map.get?_delete, Js.Map.get?_delete, if_neg t.id_ne_staging, if_neg t.staging_ne_backup.symm,
    h]

theorem OldInstalled.of_live {root : Root} (h : root.get? t.id = some old) : OldInstalled t old root := by
  rw [OldInstalled, installed, h, Option.some_or]

theorem OldInstalled.of_backup {root : Root} (h : root.get? t.id = none)
    (hb : root.get? t.backup = some old) : OldInstalled t old root := by
  rw [OldInstalled, installed, h, hb, Option.none_or]

/-- What is staged so far. -/
def Staged (t : Plugin) (written : Package) (root : Root) : Prop :=
  (root.get? t.staging).getD Js.Map.empty = written.dir

def Staging (t : Plugin) (old : Dir) (entries rest : Package) (root : Root) : Prop :=
  ∃ written, written ++ rest = entries ∧ OldInstalled t old root ∧ Staged t written root

theorem Package.dir_concat (written : Package) (e : Text × Bytes) :
    Package.dir (written ++ [e]) = written.dir.set e.1 e.2 := by
  simp [Package.dir]

theorem mkdir_triple (written : Package) :
    Triple throws (fun root => OldInstalled t old root ∧ Staged t written root) (mkdir .stage t.staging)
      (fun root => OldInstalled t old root ∧ root.get? t.staging = some written.dir)
      (OldInstalled t old) (fun _ => OldInstalled t old) := by
  refine .call (fun _ h => h.1) (fun _ h _ => h.1) ?_
  rintro root root' ⟨hold, hstaged⟩ heq
  cases heq
  cases hs : root.get? t.staging with
  | none =>
    rw [Staged, hs, Option.getD_none] at hstaged
    rw [Js.Map.has_eq, hs, if_neg (by simp)]
    exact ⟨hold.set_staging _ _, by simp [hstaged]⟩
  | some dir =>
    rw [Staged, hs, Option.getD_some] at hstaged
    rw [Js.Map.has_eq, hs, if_pos (by simp)]
    exact ⟨hold, by rw [hs, hstaged]⟩

theorem stagePackage_triple :
    Triple throws (fun root => OldInstalled t old root ∧ root.get? t.staging = none)
      (stagePackage t entries) (fun root => OldInstalled t old root ∧ Staged t entries root)
      (OldInstalled t old) (fun _ => OldInstalled t old) := by
  have hentry : ∀ e rest, Triple throws (Staging t old entries (e :: rest))
      (.seq (mkdir .stage t.staging) (writeFileSync .stage t.staging e.1 e.2))
      (Staging t old entries rest) (OldInstalled t old) (fun _ => OldInstalled t old) := by
    intro e rest
    refine .ofExists fun written => .assume fun hwritten => .seq (mkdir_triple written) ?_
    refine (writeFileSync_triple .stage e.1 e.2 written.dir OldInstalled.set_staging).consequence
      (fun _ => id) ?_ (fun _ => id) (fun _ _ => And.right)
    rintro root ⟨hold, hstaging⟩
    refine ⟨written ++ [e], ?_, hold, ?_⟩
    . rw [List.append_assoc, List.singleton_append, hwritten]
    . rw [Staged, hstaging, Option.getD_some, Package.dir_concat]
  refine (Triple.forEach (I := Staging t old entries) hentry entries).consequence ?_ ?_
    (fun _ => id) (fun _ _ => id)
  . rintro root ⟨hold, hstaging⟩
    exact ⟨[], rfl, hold, by rw [Staged, hstaging]; rfl⟩
  . rintro root ⟨written, hwritten, h⟩
    rw [List.append_nil] at hwritten
    exact hwritten ▸ h

theorem keeps_bestEffortReload {I : Root → Prop} : Keeps throws I (bestEffortReload wasEnabled) :=
  .attempt (.seq (keeps_noEffect _) (.when (keeps_noEffect _))) .done

theorem keeps_loadAndEnable {I : Root → Prop} : Keeps throws I (loadAndEnable wasEnabled) :=
  .seq (keeps_noEffect _) (.when (keeps_noEffect _))

theorem Staged.frame {written : Package} {root root' : Root}
    (h : root'.get? t.staging = root.get? t.staging) (hs : Staged t written root) :
    Staged t written root' := by
  rwa [Staged, h]

/-- The new directory is in, the old one is the backup. -/
def Swapped (t : Plugin) (old : Dir) (entries : Package) (root : Root) : Prop :=
  root.get? t.id = some entries.dir ∧ root.get? t.backup = some old

section Swap

variable (hdir : t.dir = t.id)
include hdir

theorem restoreIfMissing_triple {F : Root → Prop}
    (hF : ∀ root dir, F root → F ((root.delete t.backup).set t.id dir)) :
    Triple throws (fun root => OldInstalled t old root ∧ F root) (restoreIfMissing t)
      (fun root => root.get? t.id = some old ∧ F root) (OldInstalled t old)
      (fun _ => OldInstalled t old) := by
  refine .read fun root h => .when ?_ ?_
  . intro hb
    rw [Bool.and_eq_true, hdir, Js.Map.has_eq, Bool.not_eq_true', Option.isSome_eq_false_iff,
      Option.isNone_iff_eq_none] at hb
    have hbackup : root.get? t.backup = some old := by
      have hold := h.1
      rwa [OldInstalled, installed, hb.1, Option.none_or] at hold
    rw [hdir]
    refine (renameSync_triple .restoreBackup old ?_ ?_ ?_).post ?_
    . rintro _ rfl
      exact ⟨hbackup, hb.1⟩
    . rintro _ rfl
      exact h.1
    . rintro _ rfl
      exact h.1
    . rintro _ ⟨_, rfl, rfl⟩
      exact ⟨by simp, hF _ _ h.2⟩
  . intro hb root' heq
    rw [heq]
    refine ⟨?_, h.2⟩
    have hold := h.1
    rw [OldInstalled, installed] at hold
    cases hlive : root.get? t.id with
    | some live => rwa [hlive, Option.some_or] at hold
    | none =>
      rw [hlive, Option.none_or] at hold
      rw [hdir, Js.Map.has_eq, Js.Map.has_eq, hlive, hold] at hb
      contradiction

theorem swap_body_triple :
    Triple throws (fun root => OldInstalled t old root ∧ Staged t entries root)
      (.block [
        restoreIfMissing t,
        rmSync .dropOldBackup t.backup,
        renameSync .setAside t.dir t.backup,
        renameSync .swapIn t.staging t.dir])
      (Swapped t old entries) (OldInstalled t old) (fun _ => OldInstalled t old) := by
  have hback : t.staging ≠ t.backup := t.staging_ne_backup
  have hlive : t.staging ≠ t.id := t.id_ne_staging.symm
  refine .seq (restoreIfMissing_triple hdir (F := Staged t entries) ?_) ?_
  . intro root dir hs
    exact hs.frame (by simp [hback, hlive])
  refine .seq (R := fun root => (root.get? t.id = some old ∧ Staged t entries root) ∧
    root.get? t.backup = none) ?_ ?_
  . refine (rmSync_triple .dropOldBackup ?_ ?_).consequence (fun _ => id) (fun _ => id)
      (fun _ h => .of_live h.2.1) fun _ _ h => .of_live h.2.1
    . intro root dir h
      exact ⟨by simp [t.id_ne_backup, h.1], h.2.frame (by simp [hback])⟩
    . intro root h
      exact ⟨by simp [t.id_ne_backup, h.1], h.2.frame (by simp [hback])⟩
  rw [hdir]
  refine .seq (R := fun root => (root.get? t.id = none ∧ root.get? t.backup = some old) ∧
    Staged t entries root) ?_ (.seq ?_ (.done fun _ => id))
  . refine (renameSync_triple .setAside old ?_ ?_ ?_).post ?_
    . exact fun root h => ⟨h.1.1, h.2⟩
    . exact fun root h => .of_live h.1.1
    . exact fun root h => .of_live h.1.1
    . rintro _ ⟨root, h, rfl⟩
      exact ⟨⟨by simp [t.id_ne_backup], by simp⟩, h.1.2.frame (by simp [hback, hlive])⟩
  . refine .call (fun root h => .of_backup h.1.1 h.1.2) (fun root h _ => .of_backup h.1.1 h.1.2) ?_
    rintro root root' ⟨⟨hnone, hbackup⟩, hs⟩ heq
    cases hstaging : root.get? t.staging with
    | none => simp [hstaging] at heq
    | some dir =>
      rw [Staged, hstaging, Option.getD_some] at hs
      simp only [hstaging, hnone, Option.some.injEq] at heq
      subst heq
      exact ⟨by simp [hs], by simp [t.id_ne_backup.symm, hback.symm, hbackup]⟩

theorem swap_triple :
    Triple throws (fun root => OldInstalled t old root ∧ Staged t entries root) (swap t wasEnabled)
      (Swapped t old entries) (OldInstalled t old) (fun _ => OldInstalled t old) := by
  refine .attempt (swap_body_triple hdir) ?_
  refine .seq (R := OldInstalled t old) ?_ (.seq (R := OldInstalled t old) ?_
    (.seq (R := OldInstalled t old) keeps_bestEffortReload (.seq (R := fun _ => False)
      (.raise fun _ => id) (.done fun _ h => h.elim))))
  . refine (restoreIfMissing_triple hdir (F := fun _ => True) (fun _ _ => id)).consequence
      (fun _ h => ⟨h, trivial⟩) (fun _ h => .of_live h.1) (fun _ => id) (fun _ _ => id)
  . exact keeps_rmSync .dropStaging OldInstalled.set_staging OldInstalled.delete_staging

end Swap

/-! ### What has to be there after the next boot -/

/-- Every path of `d` with its bytes, and nothing else but state files. -/
def CompleteCopy (d live : Dir) : Prop :=
  ∀ p, isStateFile p = false ∨ d.has p → live.get? p = d.get? p

structure Kept (old : Dir) (entries : Package) (live : Dir) : Prop where
  complete : CompleteCopy old live ∨ CompleteCopy entries.dir live
  state : ∀ p data, isStateFile p → p ∉ entries.paths → old.get? p = some data → live.get? p = some data

/-- The new package with the given files of the old directory. -/
def restored (old : Dir) (entries : Package) (files : List Text) : Dir :=
  files.foldl (fun live name =>
    match old.get? name with
    | some data => live.set name data
    | none => live) entries.dir

theorem restored_get? (files : List Text) (hfiles : ∀ p ∈ files, (old.get? p).isSome) (p : Text) :
    (restored old entries files).get? p = if p ∈ files then old.get? p else entries.dir.get? p := by
  induction files using List.reverseRecOn with
  | nil => rfl
  | append_singleton files name ih =>
    have hname := hfiles name (by simp)
    rcases Option.isSome_iff_exists.mp hname with ⟨data, hdata⟩
    have hih := ih fun p hp => hfiles p (by simp [hp])
    unfold restored at hih ⊢
    rw [List.foldl_append, List.foldl_cons, List.foldl_nil, hdata]
    simp only [Js.Map.get?_set, hih]
    by_cases hp : p = name
    . simp [hp, hdata]
    . simp [hp]

theorem Package.dir_has (entries : Package) (p : Text) : entries.dir.has p ↔ p ∈ entries.paths := by
  induction entries using List.reverseRecOn with
  | nil => simp [Package.dir, Package.paths, Js.Map.has_eq]
  | append_singleton entries e ih =>
    rw [Package.dir_concat, Js.Map.has_eq, Js.Map.get?_set]
    by_cases hp : p = e.1
    . simp [hp, Package.paths]
    . rw [if_neg hp, ← Js.Map.has_eq, ih]
      simp [hp, Package.paths]

theorem mem_stateFiles {p : Text} :
    p ∈ stateFiles entries old ↔
      (old.get? p).isSome ∧ isStateFile p ∧ p ∉ entries.paths := by
  simp [stateFiles, Js.Map.get?_isSome_iff]

theorem kept_old : Kept old entries old := ⟨.inl fun _ _ => rfl, fun _ _ _ _ h => h⟩

theorem kept_restored : Kept old entries (restored old entries (stateFiles entries old)) := by
  have hget (p : Text) : (restored old entries (stateFiles entries old)).get? p =
      if p ∈ stateFiles entries old then old.get? p else entries.dir.get? p :=
    restored_get? _ (fun p hp => (mem_stateFiles.mp hp).1) p
  refine ⟨.inr fun p hp => ?_, fun p data hstate hpaths hdata => ?_⟩
  . rw [hget, if_neg]
    intro hmem
    rcases mem_stateFiles.mp hmem with ⟨_, hstate, hpaths⟩
    rcases hp with hp | hp
    . rw [hp] at hstate
      contradiction
    . exact hpaths ((Package.dir_has entries p).mp hp)
  . rw [hget, if_pos, hdata]
    exact mem_stateFiles.mpr ⟨by simp [hdata], hstate, hpaths⟩

/--
The crash points that the recovery can make good: the state files of the old version are not being
copied, and the failed new version is not being taken away.
-/
def Reconciled (old : Dir) (entries : Package) (call : Call) : Prop :=
  match call with
  | .listState | .copyState | .chmodState => stateFiles entries old = []
  | .unloadNew | .dropNew => False
  | _ => True

def AtBoot (t : Plugin) (old : Dir) (entries : Package) (call : Call) (root : Root) : Prop :=
  Reconciled old entries call → ∃ live, installed t root = some live ∧ Kept old entries live

theorem AtBoot.of_old {call : Call} {root : Root} (h : OldInstalled t old root) :
    AtBoot t old entries call root := fun _ => ⟨old, h, kept_old⟩

/-! ### Putting the new version to work -/

/-- The new directory with the state files is in. -/
def Restored (t : Plugin) (old : Dir) (entries : Package) (root : Root) : Prop :=
  root.get? t.id = some (restored old entries (stateFiles entries old))

def BackedUp (t : Plugin) (old : Dir) (root : Root) : Prop := root.get? t.backup = some old

theorem BackedUp.set_live (root : Root) (dir : Dir) (h : BackedUp t old root) :
    BackedUp t old (root.set t.id dir) := by
  rwa [BackedUp, Js.Map.get?_set, if_neg t.id_ne_backup.symm]

theorem BackedUp.delete_live (root : Root) (h : BackedUp t old root) :
    BackedUp t old (root.delete t.id) := by
  rwa [BackedUp, Js.Map.get?_delete, if_neg t.id_ne_backup.symm]

theorem AtBoot.of_restored {call : Call} {root : Root} (h : Restored t old entries root) :
    AtBoot t old entries call root :=
  fun _ => ⟨_, by rw [installed, h, Option.some_or], kept_restored⟩

def Restoring (t : Plugin) (old : Dir) (entries : Package) (rest : List Text) (root : Root) : Prop :=
  ∃ copied, copied ++ rest = stateFiles entries old ∧ BackedUp t old root ∧
    root.get? t.id = some (restored old entries copied)

theorem copyState_triple (hdir : t.dir = t.id) (name : Text) (rest : List Text) :
    Triple throws (Restoring t old entries (name :: rest))
      (.seq (copyFileSync .copyState t.backup t.dir name) (noEffect .chmodState))
      (Restoring t old entries rest) (BackedUp t old) (AtBoot t old entries) := by
  refine .ofExists fun copied => .assume fun hcopied => ?_
  -- there is a file to copy, so no crash in here is made good
  have hlossy : stateFiles entries old ≠ [] := by
    rw [← hcopied]
    simp
  refine .seq (R := Restoring t old entries rest) ?_ ?_
  . refine .read fun root h => ?_
    rw [h.1, Option.bind_some, hdir]
    cases hdata : old.get? name with
    | none =>
      refine .raise ?_
      rintro _ rfl
      exact h.1
    | some data =>
      refine (writeFileSync_triple .copyState name data (restored old entries copied)
        BackedUp.set_live).consequence ?_ ?_ (fun _ => id) ?_
      . rintro _ rfl
        exact h
      . rintro root ⟨hback, hlive⟩
        refine ⟨copied ++ [name], ?_, hback, ?_⟩
        . rw [List.append_assoc, List.singleton_append, hcopied]
        . rw [hlive, restored, restored, List.foldl_append, List.foldl_cons, List.foldl_nil, hdata]
      . rintro l root ⟨rfl, _⟩ hnone
        exact absurd hnone hlossy
  . refine .call (fun root _ hnone => absurd hnone hlossy) ?_ ?_
    . rintro root ⟨_, _, h⟩ _
      exact h.1
    . rintro root root' h heq
      cases heq
      exact h

theorem restoreState_triple (hdir : t.dir = t.id) :
    Triple throws (Swapped t old entries) (restoreState t entries)
      (fun root => Restored t old entries root ∧ BackedUp t old root) (BackedUp t old)
      (AtBoot t old entries) := by
  refine .seq (R := Swapped t old entries) ?_ (.read fun root h => ?_)
  . refine .call ?_ (fun root h _ => h.2) ?_
    . intro root h hnone
      have hlive : Restored t old entries root := by
        rw [Restored, hnone]
        exact h.1
      exact ⟨_, by rw [installed, hlive, Option.some_or], kept_restored⟩
    . rintro root root' h heq
      cases heq
      exact h
  . rw [h.2]
    refine (Triple.forEach (I := Restoring t old entries) (copyState_triple hdir)
      (stateFiles entries old)).consequence ?_ ?_ (fun _ => id) (fun _ _ => id)
    . rintro _ rfl
      exact ⟨[], rfl, h.2, h.1⟩
    . rintro root' ⟨copied, hcopied, hback, hlive⟩
      rw [List.append_nil] at hcopied
      rw [hcopied] at hlive
      exact ⟨hlive, hback⟩

theorem rollback_triple {Q : Root → Prop} (hdir : t.dir = t.id) :
    Triple throws (BackedUp t old) (rollback t wasEnabled) Q (fun _ => True)
      (AtBoot t old entries) := by
  refine .seq (R := BackedUp t old) ?_ (.seq (R := fun root => BackedUp t old root ∧
    root.get? t.id = none) ?_ (.seq (R := fun root => root.get? t.id = some old) ?_
      (.seq (R := fun root => root.get? t.id = some old) ?_ (.seq (R := fun _ => False)
        (.raise fun _ _ => trivial) (.done fun _ h => h.elim)))))
  . refine .attempt (R := BackedUp t old) (.call (fun _ _ h => h.elim) (fun _ h _ => h) ?_)
      (.done fun _ => id)
    rintro root root' h heq
    cases heq
    exact h
  . rw [hdir]
    refine (rmSync_triple .dropNew BackedUp.set_live BackedUp.delete_live).consequence (fun _ => id)
      (fun _ => id) (fun _ _ => trivial) ?_
    rintro l root ⟨rfl, _⟩ h
    exact h.elim
  . rw [hdir]
    refine (renameSync_triple .putBack old (fun _ => id) (fun _ _ => trivial) ?_).post ?_
    . exact fun root h => .of_old (.of_backup h.2 h.1)
    . rintro _ ⟨root, _, rfl⟩
      simp
  . exact keeps_bestEffortReload.triple (fun _ _ => trivial) fun _ root h => .of_old (.of_live h)

theorem activate_triple (hdir : t.dir = t.id) (hthrows : throws .dropBackup = false) :
    Triple throws (Swapped t old entries) (activate t entries wasEnabled) (Restored t old entries)
      (fun _ => True) (AtBoot t old entries) := by
  refine .attempt (.seq (restoreState_triple hdir) ?_) (rollback_triple hdir)
  refine .seq (R := Restored t old entries) ?_ (.seq (R := Restored t old entries) ?_
    (.done fun _ => id))
  . exact (keeps_loadAndEnable.triple (fun _ h => h.2) fun _ _ h => .of_restored h.1).post
      fun _ => And.left
  . refine (rmSync_triple .dropBackup ?_ ?_).consequence (fun _ => id) (fun _ => And.left) ?_
      fun _ _ h => .of_restored h.2
    . intro root dir h
      rwa [Restored, Js.Map.get?_set, if_neg t.id_ne_backup]
    . intro root h
      rwa [Restored, Js.Map.get?_delete, if_neg t.id_ne_backup]
    . rintro root ⟨hthrow, _⟩
      rw [hthrows] at hthrow
      contradiction

theorem updatePackageInner_triple (hdir : t.dir = t.id) (hthrows : throws .dropBackup = false) :
    Triple throws (OldInstalled t old) (updatePackageInner t entries wasEnabled) (fun _ => True)
      (fun _ => True) (AtBoot t old entries) := by
  have quiet {p : Cmd} (h : Keeps throws (OldInstalled t old) p) :
      Triple throws (OldInstalled t old) p (OldInstalled t old) (fun _ => True) (AtBoot t old entries) :=
    h.triple (fun _ _ => trivial) fun _ _ => .of_old
  have staged (l : Call) : Triple throws (fun root => OldInstalled t old root ∧ Staged t entries root)
      (noEffect l) (fun root => OldInstalled t old root ∧ Staged t entries root) (fun _ => True)
      (AtBoot t old entries) :=
    (keeps_noEffect l).triple (fun _ _ => trivial) fun _ _ h => .of_old h.1
  refine .seq (quiet (keeps_noEffect _)) (.seq (R := fun root => OldInstalled t old root ∧
    root.get? t.staging = none) ?_ (.seq (R := fun root => OldInstalled t old root ∧
      Staged t entries root) ?_ (.seq (staged _) (.seq (R := Swapped t old entries) ?_
        (.seq (R := Restored t old entries) (activate_triple hdir hthrows)
          (.seq (R := Restored t old entries) ?_ (.done fun _ _ => trivial)))))))
  . exact (rmSync_triple .dropStaging OldInstalled.set_staging OldInstalled.delete_staging).consequence
      (fun _ => id) (fun _ => id) (fun _ _ => trivial) fun _ _ h => .of_old h.2
  . refine .attempt (stagePackage_triple.consequence (fun _ => id) (fun _ => id) (fun _ => id)
      fun _ _ => .of_old) (.seq (R := OldInstalled t old) ?_ (.raise fun _ _ => trivial))
    exact quiet (keeps_rmSync .dropStaging OldInstalled.set_staging OldInstalled.delete_staging)
  . exact (swap_triple hdir).consequence (fun _ => id) (fun _ => id) (fun _ _ => trivial)
      fun _ _ => .of_old
  . exact (keeps_noEffect _).triple (fun _ _ => trivial) fun _ _ => .of_restored

end Phases

section Claim

variable {throws : Call → Bool} {t : Plugin} {old : Dir} {entries : Package} {wasEnabled : Bool}
  {root root' : Root} {call : Call}

/--
Wherever the process dies, unless a state file is being copied or a failed version is being taken
away: the next boot finds one of the two versions whole, with the state of the old one.
-/
theorem update_crash_safe (hdir : t.dir = t.id) (hthrows : throws .dropBackup = false)
    (hold : installed t root = some old)
    (hcrash : Crash throws (updatePackageInner t entries wasEnabled) root call root')
    (hcall : Reconciled old entries call) :
    ∃ live, (recoverInterruptedUpdates root').get? t.dir = some live ∧ Kept old entries live := by
  rw [hdir, recoverInterruptedUpdates_get?]
  exact (updatePackageInner_triple hdir hthrows).crash hold hcrash hcall

end Claim

/-! ### Crashes that lose state -/

def relayPlugin : Plugin := ⟨"relay".toList, by decide +kernel, "relay".toList⟩

/-- the same plugin, put by hand into a directory of another name -/
def relocatedPlugin : Plugin := { relayPlugin with dir := "relay-1".toList }

def dirOf (files : List (String × Bytes)) : Dir := Package.dir (files.map fun e => (e.1.toList, e.2))

def stateName : Text := "key-eA.json".toList

def manifestName : Text := "manifest.json".toList

def relayDir : Dir := dirOf [("manifest.json", [1]), ("key-eA.json", [7])]

def relayUpdate : Package := [(manifestName, [2])]

def shippingUpdate : Package := [(manifestName, [2]), (stateName, [9])]

def rootWith (t : Plugin) : Root := Js.Map.empty.set t.dir relayDir

def noLateThrow (call : Call) : Bool := call ≠ .dropBackup

def relayRun (throws : Call → Bool) (t : Plugin) (entries : Package) (faults : List Bool) :
    Run Root Call :=
  exec throws (updatePackageInner t entries false) faults (rootWith t)

/-- What the last call of this kind found. -/
def seenBy (run : Run Root Call) (call : Call) : Root :=
  ((run.calls.reverse.find? fun c => c.1 = call).map (·.2)).getD Js.Map.empty

/-- The crash at the last call of a kind leaves `left` of a file of the plugin after the next boot. -/
structure LeavesAtBoot (throws : Call → Bool) (t : Plugin) (entries : Package) (faults : List Bool)
    (call : Call) (name : Text) (left : Option (Option Bytes)) : Prop where
  crash : Crash throws (updatePackageInner t entries false) (rootWith t) call
    (seenBy (relayRun throws t entries faults) call)
  file : ((recoverInterruptedUpdates (seenBy (relayRun throws t entries faults) call)).get? t.dir).map
    (fun live => live.get? name) = left

theorem LeavesAtBoot.of_run {throws : Call → Bool} {t : Plugin} {entries : Package} {faults : List Bool}
    {call : Call} {name : Text} {left : Option (Option Bytes)}
    (hseen : (call, seenBy (relayRun throws t entries faults) call) ∈
      (relayRun throws t entries faults).calls)
    (hfile : ((recoverInterruptedUpdates (seenBy (relayRun throws t entries faults) call)).get?
      t.dir).map (fun live => live.get? name) = left) :
    LeavesAtBoot throws t entries faults call name left :=
  ⟨crash_exec hseen, hfile⟩

theorem update_crash_safe_at_load :
    ∃ live, (recoverInterruptedUpdates
        (seenBy (relayRun noLateThrow relayPlugin relayUpdate []) .load)).get? relayPlugin.dir = some live ∧
      Kept relayDir relayUpdate live :=
  have hrun : LeavesAtBoot noLateThrow relayPlugin relayUpdate [] .load stateName (some (some [7])) :=
    .of_run (by decide +kernel) (by decide +kernel)
  have hold : installed relayPlugin (rootWith relayPlugin) = some relayDir := by decide +kernel
  update_crash_safe rfl rfl hold hrun.crash trivial

/-- The faults of a run up to a call of a kind, or to one of the calls after it, which throws. -/
def faultAt (entries : Package) (call : Call) (later : Nat) : List Bool :=
  let run := relayRun (fun _ => true) relayPlugin entries []
  List.replicate (run.calls.findIdx (fun c => c.1 = call) + later) false ++ [true]

/--
A package that brings a state file replaces it; before the copy the file is gone; a crash in the
rollback and a backup that cannot be removed leave no manifest; a directory of another name is lost.
-/
theorem update_crash_loses :
    relayDir.get? stateName = some [7] ∧
      LeavesAtBoot (fun _ => true) relayPlugin shippingUpdate [] .findOne stateName (some (some [9])) ∧
      LeavesAtBoot (fun _ => true) relayPlugin relayUpdate [] .listState stateName (some none) ∧
      LeavesAtBoot (fun _ => true) relayPlugin relayUpdate (faultAt relayUpdate .load 0) .dropNew
        manifestName (some none) ∧
      LeavesAtBoot (fun _ => true) relayPlugin relayUpdate (faultAt relayUpdate .dropBackup 1) .reload
        manifestName (some none) ∧
      LeavesAtBoot (fun _ => true) relocatedPlugin relayUpdate [] .swapIn stateName none := by
  refine ⟨by decide +kernel, .of_run ?_ ?_, .of_run ?_ ?_, .of_run ?_ ?_, .of_run ?_ ?_,
    .of_run ?_ ?_⟩ <;> decide +kernel

end OpenWA.PluginUpdate
