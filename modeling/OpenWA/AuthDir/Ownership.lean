import OpenWA.AuthDir.Migration

/-!
This module contains the proof that the boot migration and the purge stay with the directories of
the row they act for exactly if no directory is reached through a name that is another row's id.
-/

namespace OpenWA.AuthDir

variable {t : SessionTable} {engine : Engine}

theorem dirName_inj {k k' : String} : dirName engine k = dirName engine k' ↔ k = k' := by
  cases engine with
  | wwebjs => simp [dirName]
  | baileys => rfl

theorem isSafe_of_accepts {name : String} (h : acceptsName name = true) :
    isSafeSessionName name = true := by
  simp only [acceptsName, Bool.and_eq_true] at h
  exact h.1.1

theorem eq_of_id {row other : Session} (hrow : row ∈ t.rows) (hother : other ∈ t.rows)
    (h : row.id = other.id) : row = other :=
  List.inj_on_of_nodup_map t.nodup_ids hrow hother h

theorem eq_of_name {row other : Session} (hrow : row ∈ t.rows) (hother : other ∈ t.rows)
    (h : row.name = other.name) : row = other :=
  List.inj_on_of_nodup_map t.nodup_names hrow hother h

theorem owner_id {row : Session} (hrow : row ∈ t.rows) : owner t row.id = some row := by
  unfold owner
  cases hfind : t.rows.find? fun other => other.id == row.id with
  | none =>
    rw [List.find?_eq_none] at hfind
    simpa using hfind row hrow
  | some other =>
    have hid : other.id = row.id := by simpa using List.find?_some hfind
    rw [eq_of_id (List.mem_of_find?_eq_some hfind) hrow hid]

/-- A row owns the directories under its name unless the name is the id of another row. -/
theorem owner_name {row : Session} (hrow : row ∈ t.rows)
    (h : ∀ other ∈ t.rows, row.name = other.id → row = other) : owner t row.name = some row := by
  unfold owner
  cases hfind : t.rows.find? fun other => other.id == row.name with
  | some other =>
    have hid : other.id = row.name := by simpa using List.find?_some hfind
    rw [h other (List.mem_of_find?_eq_some hfind) hid.symm]
  | none =>
    dsimp
    cases hname : t.rows.find? fun other => other.name == row.name with
    | none =>
      rw [List.find?_eq_none] at hname
      simpa using hname row hrow
    | some other =>
      have heq : other.name = row.name := by simpa using List.find?_some hname
      rw [eq_of_name (List.mem_of_find?_eq_some hname) hrow heq]

theorem ownedBy_dirName {row : Session} {key : String} :
    OwnedBy t row engine (dirName engine key) ↔ owner t key = some row := by
  constructor
  . rintro ⟨key', heq, howner⟩
    rwa [dirName_inj.mp heq]
  . intro howner
    exact ⟨key, rfl, howner⟩

section Migration

/--
What keeps a foreign directory out of reach: it never appears under the id of the other row, and
not under its name either, without the entry that blocks the rename.
-/
structure Blocked (t : SessionTable) (engine : Engine) (entries : List String) : Prop where
  id : ∀ row ∈ t.rows, ∀ other ∈ t.rows, row ≠ other → row.name = other.id →
    isSafeSessionName row.id = true → dirName engine other.id ∈ entries →
    dirName engine row.id ∈ entries
  name : ∀ row ∈ t.rows, ∀ other ∈ t.rows, row ≠ other → row.name = other.id →
    isSafeSessionName row.id = true → dirName engine other.name ∈ entries →
    dirName engine row.id ∈ entries

theorem NoForeignKey.blocked {entries : List String} (h : NoForeignKey t engine entries) :
    Blocked t engine entries where
  id row hrow other hother hne hname hsafe hmem :=
    absurd hmem (h row hrow other hother hne hname hsafe).1
  name row hrow other hother hne hname hsafe := (h row hrow other hother hne hname hsafe).2

/-- The walk keeps foreign directories out of reach and has renamed only its own so far. -/
structure WalkInv (t : SessionTable) (engine : Engine) (w : Walk) : Prop where
  blocked : Blocked t engine w.entries
  own : ∀ a ∈ w.actions, ActsOnOwn t a

theorem Blocked.rename {entries : List String} {session : Session} (h : Blocked t engine entries)
    (hsession : session ∈ t.rows)
    (hown : ∀ other ∈ t.rows, session.name = other.id → session = other)
    (hlegacy : dirName engine session.name ∈ entries)
    (hne : dirName engine session.name ≠ dirName engine session.id) :
    Blocked t engine
      (entries.filter (· != dirName engine session.name) ++ [dirName engine session.id]) := by
  have hkept {row other : Session} (hrow : row ∈ t.rows) (hother : other ∈ t.rows)
      (hne' : row ≠ other) (hname : row.name = other.id) (hmem : dirName engine row.id ∈ entries) :
      dirName engine row.id
        ∈ entries.filter (· != dirName engine session.name) ++ [dirName engine session.id] := by
    have hdiff : row.id ≠ session.name := by
      intro heq
      have hsame := hown row hrow heq.symm
      subst hsame
      exact hne' (eq_of_id hrow hother (heq.trans hname))
    simp [hmem, dirName_inj, hdiff]
  constructor
  . intro row hrow other hother hne' hname hsafe hmem
    simp only [List.mem_append, List.mem_filter, List.mem_singleton, dirName_inj] at hmem
    rcases hmem with ⟨hmem, _⟩ | hid
    . exact hkept hrow hother hne' hname (h.id row hrow other hother hne' hname hsafe hmem)
    . have hsame := eq_of_id hother hsession hid
      subst hsame
      exact hkept hrow hother hne' hname (h.name row hrow other hother hne' hname hsafe hlegacy)
  . intro row hrow other hother hne' hname hsafe hmem
    simp only [List.mem_append, List.mem_filter, List.mem_singleton, dirName_inj] at hmem
    rcases hmem with ⟨hmem, _⟩ | hid
    . exact hkept hrow hother hne' hname (h.name row hrow other hother hne' hname hsafe hmem)
    . -- the other row is itself named after `session`: chain the two blocking entries
      have hother_ne : other ≠ session := by
        intro heq
        subst heq
        exact hne (by rw [hid])
      have hother_safe : isSafeSessionName other.id = true := by
        rw [← hname]
        exact isSafe_of_accepts (t.accepted row hrow)
      have hmem' := h.name other hother session hsession hother_ne hid hother_safe hlegacy
      exact hkept hrow hother hne' hname (h.id row hrow other hother hne' hname hsafe hmem')

theorem WalkInv.migrateSession {w : Walk} {session : Session} (renameFails : String → Bool)
    (h : WalkInv t engine w) (hsession : session ∈ t.rows)
    (hsafe : isSafeSessionName session.id = true) :
    WalkInv t engine (migrateSession engine renameFails w session) := by
  unfold AuthDir.migrateSession
  dsimp only
  split
  . exact h
  . next hskip =>
    push Not at hskip
    rcases hskip with ⟨hne, hlegacy⟩
    split
    . exact ⟨h.blocked, h.own⟩
    . next htarget =>
      split
      . exact ⟨h.blocked, h.own⟩
      . have hown : ∀ other ∈ t.rows, session.name = other.id → session = other := by
          intro other hother hname
          by_contra hne'
          apply htarget
          apply h.blocked.id session hsession other hother hne' hname hsafe
          rwa [← hname]
        refine ⟨h.blocked.rename hsession hown hlegacy hne, ?_⟩
        intro a ha
        rw [List.mem_append, List.mem_singleton] at ha
        rcases ha with ha | rfl
        . exact h.own a ha
        . exact ⟨ownedBy_dirName.mpr (owner_name hsession hown),
            ownedBy_dirName.mpr (owner_id hsession)⟩

theorem WalkInv.foldl {w : Walk} {sessions : List Session} (renameFails : String → Bool)
    (h : WalkInv t engine w)
    (hsessions : ∀ session ∈ sessions, session ∈ t.rows ∧ isSafeSessionName session.id = true) :
    WalkInv t engine (sessions.foldl (AuthDir.migrateSession engine renameFails) w) := by
  induction sessions generalizing w with
  | nil => exact h
  | cons session sessions ih =>
    have hhead := hsessions session (by simp)
    apply ih
    . exact h.migrateSession renameFails hhead.1 hhead.2
    . intro session' hmem
      exact hsessions session' (by simp [hmem])

theorem migrateBase_actsOnOwn {entries : Option (List String)} {sessions : List Session}
    (renameFails : String → Bool)
    (h : ∀ listed, entries = some listed → NoForeignKey t engine listed)
    (hsessions : ∀ session ∈ sessions, session ∈ t.rows ∧ isSafeSessionName session.id = true) :
    ∀ a ∈ (migrateBase engine renameFails sessions entries).actions, ActsOnOwn t a := by
  unfold migrateBase
  cases entries with
  | none => simp
  | some listed =>
    have hinit : WalkInv t engine ⟨listed, [], []⟩ := ⟨(h listed rfl).blocked, by simp⟩
    exact (hinit.foldl renameFails hsessions).own

theorem onModuleInit_actsOnOwn {bases : Bases} {rows : List Session}
    (renameFails : Engine → String → Bool)
    (h : ∀ engine entries, bases engine = some entries → NoForeignKey t engine entries)
    (hrows : rows.Perm t.rows) :
    ∀ a ∈ onModuleInit renameFails rows bases, ActsOnOwn t a := by
  have hsessions : ∀ session ∈
      rows.filter fun row => isSafeSessionName row.name && isSafeSessionName row.id,
      session ∈ t.rows ∧ isSafeSessionName session.id = true := by
    intro session hmem
    simp only [List.mem_filter, Bool.and_eq_true] at hmem
    exact ⟨hrows.mem_iff.mp hmem.1, hmem.2.2⟩
  intro a ha
  unfold onModuleInit at ha
  rw [List.mem_append] at ha
  rcases ha with ha | ha
  . exact migrateBase_actsOnOwn _ (h .wwebjs) hsessions a ha
  . exact migrateBase_actsOnOwn _ (h .baileys) hsessions a ha

end Migration

section Purge

theorem mem_purgeSessionData {row : Session} {bases : Bases} {a : DirAction} :
    a ∈ purgeSessionData row bases ↔ isSafeSessionName row.id = true ∧ ∃ engine,
      a = .rm row engine (dirName engine row.id) ∨
      isSafeSessionName row.name = true ∧ authDirExists bases engine (dirName engine row.name) = true ∧
        a = .rm row engine (dirName engine row.name) := by
  unfold purgeSessionData
  cases hid : isSafeSessionName row.id with
  | false => simp
  | true =>
    simp only [Bool.not_true, Bool.false_eq_true, ↓reduceIte, List.mem_map, List.mem_append,
      true_and]
    constructor
    . rintro ⟨⟨engine, dir⟩, hdir, rfl⟩
      grind
    . rintro ⟨engine, rfl | ⟨hname, hexists, rfl⟩⟩
      . exact ⟨(engine, dirName engine row.id), by cases engine <;> simp, rfl⟩
      . refine ⟨(engine, dirName engine row.name), .inr ?_, rfl⟩
        cases engine <;> simp [hname, hexists]

theorem purge_actsOnOwn {bases : Bases} {row : Session}
    (h : ∀ engine entries, bases engine = some entries → NoForeignKey t engine entries)
    (hrow : row ∈ t.rows) : ∀ a ∈ purgeSessionData row bases, ActsOnOwn t a := by
  intro a ha
  rw [mem_purgeSessionData] at ha
  rcases ha with ⟨hsafe, engine, rfl | ⟨_, hexists, rfl⟩⟩
  . exact ownedBy_dirName.mpr (owner_id hrow)
  . apply ownedBy_dirName.mpr
    apply owner_name hrow
    intro other hother hname
    by_contra hne
    unfold authDirExists at hexists
    split at hexists
    . next entries heq =>
      apply (h engine entries heq row hrow other hother hne hname hsafe).1
      rw [← hname]
      simpa using hexists
    . contradiction

end Purge

section Exactness

/-- A row whose name is the id of another row does not own the directories under its name. -/
theorem not_owner_name {row other : Session} (hother : other ∈ t.rows) (hne : row ≠ other)
    (hname : row.name = other.id) : owner t row.name ≠ some row := by
  rw [hname, owner_id hother]
  simpa using hne.symm

theorem not_mem_of_purge {bases : Bases} {entries : List String} {row other : Session}
    (hpurge : ∀ a ∈ purgeSessionData row bases, ActsOnOwn t a) (hbase : bases engine = some entries)
    (hrow : row ∈ t.rows) (hother : other ∈ t.rows) (hne : row ≠ other) (hname : row.name = other.id)
    (hsafe : isSafeSessionName row.id = true) : dirName engine other.id ∉ entries := by
  intro hmem
  have hrm : .rm row engine (dirName engine row.name) ∈ purgeSessionData row bases := by
    rw [mem_purgeSessionData]
    refine ⟨hsafe, engine, .inr ⟨isSafe_of_accepts (t.accepted row hrow), ?_, rfl⟩⟩
    simp [authDirExists, hbase, hname, hmem]
  exact not_owner_name hother hne hname (ownedBy_dirName.mp (hpurge _ hrm))

theorem actions_migrateSession (renameFails : String → Bool) (w : Walk) (session : Session) :
    w.actions ⊆ (migrateSession engine renameFails w session).actions := by
  unfold migrateSession
  dsimp only
  split
  . simp
  . split
    . simp
    . split <;> simp

theorem actions_foldl (renameFails : String → Bool) (w : Walk) (sessions : List Session) :
    w.actions ⊆ (sessions.foldl (migrateSession engine renameFails) w).actions := by
  induction sessions generalizing w with
  | nil => simp
  | cons session sessions ih =>
    exact List.Subset.trans (actions_migrateSession renameFails w session) (ih _)

theorem migrateSession_rename {w : Walk} {session : Session}
    (hne : session.name ≠ session.id) (hlegacy : dirName engine session.name ∈ w.entries)
    (htarget : dirName engine session.id ∉ w.entries) :
    migrateSession engine (fun _ => false) w session = {
      entries :=
        w.entries.filter (· != dirName engine session.name) ++ [dirName engine session.id]
      found := w.found ++ [session.name]
      actions := w.actions ++ [.rename session engine (dirName engine session.name)
        (dirName engine session.id)]
    } := by
  simp [migrateSession, dirName_inj, hne, hlegacy, htarget]

/-- Migrating `other` first puts its directory where `row` picks it up under its own name. -/
theorem rename_mem_of_order {entries : List String} {row other : Session} (rest : List Session)
    (hne : row.id ≠ other.id) (hname : row.name = other.id)
    (hlegacy : dirName engine other.name ∈ entries) (hid : dirName engine other.id ∉ entries)
    (htarget : dirName engine row.id ∉ entries) :
    .rename row engine (dirName engine row.name) (dirName engine row.id) ∈
      (migrateBase engine (fun _ => false) (other :: row :: rest) (some entries)).actions := by
  have hother : other.name ≠ other.id := by
    intro heq
    rw [heq] at hlegacy
    exact hid hlegacy
  unfold migrateBase
  simp only [List.foldl_cons]
  rw [migrateSession_rename hother hlegacy hid, migrateSession_rename]
  . apply actions_foldl
    simp
  . rw [hname]
    exact hne.symm
  . simp [hname]
  . simp [dirName_inj, hne, htarget]

theorem noForeignKey_of_keepsOwnership {bases : Bases} (h : KeepsOwnership t bases)
    {entries : List String} (hbase : bases engine = some entries) :
    NoForeignKey t engine entries := by
  intro row hrow other hother hne hname hsafe
  have hid := not_mem_of_purge (h.purge row hrow) hbase hrow hother hne hname hsafe
  refine ⟨hid, ?_⟩
  intro hlegacy
  by_contra htarget
  have hids : row.id ≠ other.id := fun heq => hne (eq_of_id hrow hother heq)
  have hperm : (other :: row :: (t.rows.erase other).erase row).Perm t.rows := by
    apply List.Perm.trans (List.Perm.cons other (List.perm_cons_erase _).symm)
    . exact (List.perm_cons_erase hother).symm
    . exact (List.mem_erase_of_ne hne).mpr hrow
  have hmem : .rename row engine (dirName engine row.name) (dirName engine row.id) ∈
      onModuleInit (fun _ _ => false) (other :: row :: (t.rows.erase other).erase row) bases := by
    have hrename := fun rest => rename_mem_of_order rest hids hname hlegacy hid htarget
    have hother_name := isSafe_of_accepts (t.accepted other hother)
    have hrow_name := isSafe_of_accepts (t.accepted row hrow)
    have hother_id : isSafeSessionName other.id = true := hname ▸ hrow_name
    unfold onModuleInit
    rw [List.filter_cons_of_pos (by simp [hother_name, hother_id]),
      List.filter_cons_of_pos (by simp [hrow_name, hsafe]), List.mem_append]
    cases engine with
    | wwebjs => exact .inl (hbase ▸ hrename _)
    | baileys => exact .inr (hbase ▸ hrename _)
  have hacts := h.migration _ _ hperm _ hmem
  exact not_owner_name hother hne hname (ownedBy_dirName.mp hacts.1)

/--
The migration and the purges stay with the directories of their row if and only if no directory is
reached through a name that is the id of another row.
-/
theorem keepsOwnership_iff_noForeignKey (t : SessionTable) (bases : Bases) :
    KeepsOwnership t bases ↔
      ∀ engine entries, bases engine = some entries → NoForeignKey t engine entries := by
  constructor
  . intro h engine entries hbase
    exact noForeignKey_of_keepsOwnership h hbase
  . intro h
    constructor
    . intro rows renameFails hrows
      exact onModuleInit_actsOnOwn renameFails h hrows
    . intro row hrow
      exact purge_actsOnOwn h hrow

/-- Two rows, the second one named after the id of the first. -/
def namesakes : SessionTable where
  rows := [⟨"8f5b1d9e-0c4a-4e21-9d6b-2a7c3f0e1b44", "alice"⟩,
    ⟨"1c2d3e4f-5a6b-4c7d-8e9f-0a1b2c3d4e5f", "8f5b1d9e-0c4a-4e21-9d6b-2a7c3f0e1b44"⟩]
  nodup_ids := by decide +kernel
  nodup_names := by decide +kernel
  accepted := by decide +kernel

/-- With the first row already migrated, the next boot hands its login to the second one. -/
theorem not_keepsOwnership_namesakes :
    ¬KeepsOwnership namesakes fun
      | .wwebjs => none
      | .baileys => some ["8f5b1d9e-0c4a-4e21-9d6b-2a7c3f0e1b44"] := by
  intro h
  have hacts := h.migration namesakes.rows (fun _ _ => false) (List.Perm.refl _)
    (.rename ⟨"1c2d3e4f-5a6b-4c7d-8e9f-0a1b2c3d4e5f", "8f5b1d9e-0c4a-4e21-9d6b-2a7c3f0e1b44"⟩ .baileys
      "8f5b1d9e-0c4a-4e21-9d6b-2a7c3f0e1b44" "1c2d3e4f-5a6b-4c7d-8e9f-0a1b2c3d4e5f") (by decide +kernel)
  rcases hacts.1 with ⟨key, rfl, howner⟩
  revert howner
  decide +kernel

end Exactness
end OpenWA.AuthDir
