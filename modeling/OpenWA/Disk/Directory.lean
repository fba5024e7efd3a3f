import Mathlib.Algebra.GroupWithZero.Nat
import Mathlib.Data.List.Nodup
import Mathlib.Data.List.Perm.Basic

/-!
This module contains directories with finitely many named entries: the files below them, the walk over these that is
breadth-first and bounded in depth, and the changes of a single file.
-/

namespace OpenWA.Disk

/-- The entries of a directory in the order in which it is read. -/
inductive Directory (κ β : Type) where
  | nil
  | file (name : κ) (data : β) (rest : Directory κ β)
  | dir (name : κ) (sub : Directory κ β) (rest : Directory κ β)
deriving DecidableEq

namespace Directory

variable {κ β : Type}

def names (d : Directory κ β) : List κ :=
  match d with
  | nil => []
  | file name _ rest => name :: rest.names
  | dir name _ rest => name :: rest.names

/-- No directory has two entries of one name. -/
def Distinct (d : Directory κ β) : Prop :=
  match d with
  | nil => True
  | file name _ rest => name ∉ rest.names ∧ rest.Distinct
  | dir name sub rest => name ∉ rest.names ∧ sub.Distinct ∧ rest.Distinct

def size (d : Directory κ β) : Nat :=
  match d with
  | nil => 1
  | file _ _ rest => rest.size + 1
  | dir _ sub rest => sub.size + rest.size + 1

section Walk

/-- A directory that is to be read, with its path and its depth. -/
structure Pending (κ β : Type) where
  path : List κ
  depth : Nat
  entries : Directory κ β

def filesIn (path : List κ) (d : Directory κ β) : List (List κ) :=
  match d with
  | nil => []
  | file name _ rest => (path ++ [name]) :: filesIn path rest
  | dir _ _ rest => filesIn path rest

def subdirs (path : List κ) (depth : Nat) (d : Directory κ β) : List (Pending κ β) :=
  match d with
  | nil => []
  | file _ _ rest => subdirs path depth rest
  | dir name sub rest => ⟨path ++ [name], depth + 1, sub⟩ :: subdirs path depth rest

def sizeAll (queue : List (Pending κ β)) : Nat := (queue.map fun pending => pending.entries.size).sum

theorem size_pos (d : Directory κ β) : 0 < d.size := by
  cases d <;> exact Nat.succ_pos _

theorem sizeAll_cons (pending : Pending κ β) (queue : List (Pending κ β)) :
    sizeAll (pending :: queue) = pending.entries.size + sizeAll queue := by
  rw [sizeAll, List.map_cons, List.sum_cons]
  rfl

theorem sizeAll_subdirs_lt (path : List κ) (depth : Nat) (d : Directory κ β) :
    sizeAll (subdirs path depth d) < d.size := by
  induction d with
  | nil => exact Nat.zero_lt_one
  | file name data rest ih =>
    rw [subdirs, size]
    omega
  | dir name sub rest _ ih =>
    rw [subdirs, size, sizeAll_cons]
    dsimp only
    omega

theorem sizeAll_append (queue queue' : List (Pending κ β)) :
    sizeAll (queue ++ queue') = sizeAll queue + sizeAll queue' := by
  rw [sizeAll, List.map_append, List.sum_append]
  rfl

/-- The files below the directories of a queue, down to depth `max`. -/
def walk (max : Nat) (queue : List (Pending κ β)) : List (List κ) :=
  match queue with
  | [] => []
  | pending :: queue =>
    if pending.depth ≥ max then walk max queue
    else
      filesIn pending.path pending.entries ++
        walk max (queue ++ subdirs pending.path pending.depth pending.entries)
termination_by sizeAll queue
decreasing_by
  . rw [sizeAll_cons]
    have := size_pos pending.entries
    omega
  . rw [sizeAll_append, sizeAll_cons]
    have := sizeAll_subdirs_lt pending.path pending.depth pending.entries
    omega

/-- The paths of at most `max` names that lead to files. -/
def paths (max : Nat) (d : Directory κ β) : List (List κ) :=
  match d with
  | nil => []
  | file name _ rest => (if max = 0 then [] else [[name]]) ++ paths max rest
  | dir name sub rest => (paths (max - 1) sub).map (name :: ·) ++ paths max rest

theorem paths_zero (d : Directory κ β) : d.paths 0 = [] := by
  induction d with
  | nil => rfl
  | file name data rest ih => rw [paths, if_pos rfl, ih, List.append_nil]
  | dir name sub rest hsub ih => rw [paths, hsub, ih, List.map_nil, List.append_nil]

/-- What the walk is to find below a directory of its queue. -/
def Pending.paths (max : Nat) (pending : Pending κ β) : List (List κ) :=
  (pending.entries.paths (max - pending.depth)).map (pending.path ++ ·)

/-- The files of a directory and what is below its subdirectories. -/
theorem filesIn_subdirs_perm {max depth : Nat} (h : depth < max) (path : List κ) (d : Directory κ β) :
    (filesIn path d ++ (subdirs path depth d).flatMap (Pending.paths max)).Perm
      (Pending.paths max ⟨path, depth, d⟩) := by
  induction d with
  | nil => exact List.Perm.refl _
  | file name data rest ih =>
    rw [filesIn, subdirs, Pending.paths, Directory.paths, if_neg (by dsimp only; omega), List.cons_append,
      List.map_append]
    exact ih.cons _
  | dir name sub rest _ ih =>
    have hsub : Pending.paths max ⟨path ++ [name], depth + 1, sub⟩ =
        ((Directory.paths (max - depth - 1) sub).map (name :: ·)).map (path ++ ·) := by
      rw [Pending.paths, List.map_map, Nat.sub_add_eq]
      apply List.map_congr_left
      intro rest' _
      rw [List.append_assoc]
      rfl
    rw [filesIn, subdirs, List.flatMap_cons, hsub, Pending.paths, Directory.paths, List.map_append]
    exact (List.perm_append_comm_assoc _ _ _).trans (ih.append_left _)

theorem walk_perm (max : Nat) (queue : List (Pending κ β)) :
    (walk max queue).Perm (queue.flatMap (Pending.paths max)) := by
  fun_induction walk max queue with
  | case1 => exact List.Perm.refl _
  | case2 pending queue hdeep ih =>
    have hnone : pending.paths max = [] := by
      rw [Pending.paths, Nat.sub_eq_zero_of_le hdeep, paths_zero, List.map_nil]
    rw [List.flatMap_cons, hnone]
    exact ih
  | case3 pending queue hdepth ih =>
    rw [List.flatMap_append] at ih
    rw [List.flatMap_cons]
    refine (ih.append_left _).trans ?_
    refine (List.perm_append_comm_assoc _ _ _).trans ?_
    refine List.perm_append_comm.trans ?_
    exact (filesIn_subdirs_perm (Nat.lt_of_not_ge hdepth) _ _).append_right _

/-- The walk from the top. -/
theorem walk_root_perm (max : Nat) (d : Directory κ β) : (walk max [⟨[], 0, d⟩]).Perm (d.paths max) := by
  have hperm := walk_perm max [⟨[], 0, d⟩]
  rw [List.flatMap_singleton, Pending.paths] at hperm
  simpa using hperm

end Walk

section Files

variable [DecidableEq κ]

def fileAt (d : Directory κ β) (path : List κ) : Option β :=
  match d with
  | nil => none
  | file name data rest => if path = [name] then some data else rest.fileAt path
  | dir name sub rest =>
    match path with
    | [] => rest.fileAt []
    | n :: tail => if n = name then sub.fileAt tail else rest.fileAt (n :: tail)

theorem fileAt_nil (d : Directory κ β) : d.fileAt [] = none := by
  induction d with
  | nil => rfl
  | file name data rest ih => rw [fileAt, if_neg (by simp), ih]
  | dir name sub rest _ ih => exact ih

theorem fileAt_of_head {d : Directory κ β} {name : κ} (h : name ∉ d.names) (tail : List κ) :
    d.fileAt (name :: tail) = none := by
  induction d with
  | nil => rfl
  | file name' data rest ih =>
    rw [names, List.mem_cons, not_or] at h
    rw [fileAt, if_neg (by simp [h.1]), ih h.2]
  | dir name' sub rest _ ih =>
    rw [names, List.mem_cons, not_or] at h
    rw [fileAt, if_neg h.1, ih h.2]

theorem mem_paths {d : Directory κ β} (h : d.Distinct) {max : Nat} {path : List κ} :
    path ∈ d.paths max ↔ (d.fileAt path).isSome ∧ path.length ≤ max := by
  induction d generalizing max path with
  | nil => simp [paths, fileAt]
  | file name data rest ih =>
    rw [paths, List.mem_append, ih h.2, fileAt]
    by_cases heq : path = [name]
    . rw [if_pos heq, heq, fileAt_of_head h.1]
      by_cases hmax : max = 0
      . simp [hmax]
      . rw [if_neg hmax, List.length_singleton]
        simp only [List.mem_singleton, Option.isSome_some, true_or, true_and, true_iff]
        omega
    . have hnot : path ∉ (if max = 0 then [] else [[name]]) := by
        split
        . exact List.not_mem_nil
        . rwa [List.mem_singleton]
      rw [if_neg heq, or_iff_right hnot]
  | dir name sub rest ihsub ih =>
    rw [paths, List.mem_append, ih h.2.2, List.mem_map]
    cases path with
    | nil => simp [fileAt_nil]
    | cons n tail =>
      rw [fileAt]
      split
      . next heq =>
        subst heq
        have hmem : (∃ tail', tail' ∈ paths (max - 1) sub ∧ n :: tail' = n :: tail) ↔ tail ∈ paths (max - 1) sub := by
          simp
        rw [hmem, ihsub h.2.1, fileAt_of_head h.1]
        cases tail with
        | nil => simp [fileAt_nil]
        | cons n' tail =>
          simp only [List.length_cons, Option.isSome_none, Bool.false_eq_true, false_and, or_false]
          exact and_congr_right fun _ => by omega
      . next hne =>
        have hnot : ¬∃ tail', tail' ∈ paths (max - 1) sub ∧ name :: tail' = n :: tail := by
          rintro ⟨tail', _, heq⟩
          exact hne (List.cons.inj heq).1.symm
        rw [or_iff_right hnot]

theorem nodup_paths {d : Directory κ β} (h : d.Distinct) (max : Nat) : (d.paths max).Nodup := by
  have hhead : ∀ (d : Directory κ β) (name : κ), d.Distinct → name ∉ d.names → ∀ max tail,
      name :: tail ∉ d.paths max := by
    intro d name hd hname max tail hmem
    rw [mem_paths hd, fileAt_of_head hname] at hmem
    nomatch hmem.1
  induction d generalizing max with
  | nil => exact List.nodup_nil
  | file name data rest ih =>
    rw [paths]
    split
    . exact ih h.2 max
    . exact List.nodup_cons.mpr ⟨hhead rest name h.2 h.1 max [], ih h.2 max⟩
  | dir name sub rest ihsub ih =>
    rw [paths, List.nodup_append]
    refine ⟨(ihsub h.2.1 _).map (List.cons_injective), ih h.2.2 max, ?_⟩
    rintro _ hmem _ hmem' rfl
    rcases List.mem_map.mp hmem with ⟨tail, _, rfl⟩
    exact hhead rest name h.2.2 h.1 max tail hmem'

/-- The walk finds each file that is not too deep, once. -/
theorem count_walk [BEq (List κ)] [LawfulBEq (List κ)] {d : Directory κ β} (h : d.Distinct) (max : Nat) (path : List κ) :
    (walk max [⟨[], 0, d⟩]).count path = if (d.fileAt path).isSome ∧ path.length ≤ max then 1 else 0 := by
  rw [(walk_root_perm max d).count_eq, (nodup_paths h max).count]
  simp only [mem_paths h]

end Files

section Changes

variable [DecidableEq κ]

/-- A file below directories that are not there yet. -/
def fresh (path : List κ) (data : β) : Option (Directory κ β) :=
  match path with
  | [] => none
  | [name] => some (file name data nil)
  | name :: tail => (fresh tail data).map fun sub => dir name sub nil

/-- `mkdir` of the parent, `{ recursive: true }`, and `writeFile` -/
def put (d : Directory κ β) (path : List κ) (data : β) : Option (Directory κ β) :=
  match d with
  | nil => fresh path data
  | file name old rest =>
    if path = [name] then some (file name data rest)
    else if path.head? = some name then none
    else (rest.put path data).map (file name old)
  | dir name sub rest =>
    match path with
    | [] => none
    | n :: tail =>
      if n = name then (sub.put tail data).map fun sub => dir name sub rest
      else (rest.put (n :: tail) data).map (dir name sub)

/-- `unlink`, where a file that is not there is no error -/
def unlink (d : Directory κ β) (path : List κ) : Option (Directory κ β) :=
  match d with
  | nil => some nil
  | file name old rest =>
    if path = [name] then some rest
    else if path.head? = some name then none
    else (rest.unlink path).map (file name old)
  | dir name sub rest =>
    match path with
    | [] => none
    | n :: tail =>
      if n = name then if tail = [] then none else (sub.unlink tail).map fun sub => dir name sub rest
      else (rest.unlink (n :: tail)).map (dir name sub)

variable {d d' : Directory κ β} {path : List κ} {data : β}

theorem fresh_spec (h : fresh path data = some d) :
    d.Distinct ∧ (∀ name ∈ d.names, path.head? = some name) ∧
      ∀ path', d.fileAt path' = if path' = path then some data else none := by
  induction path generalizing d with
  | nil => nomatch h
  | cons name tail ih =>
    cases tail with
    | nil =>
      rcases h with ⟨⟩
      refine ⟨⟨List.not_mem_nil, trivial⟩, ?_, fun path' => rfl⟩
      intro name' hname'
      rw [List.mem_singleton.mp hname']
      rfl
    | cons name' tail =>
      rcases Option.map_eq_some_iff.mp h with ⟨sub, hsub, rfl⟩
      rcases ih hsub with ⟨hdistinct, _, hfile⟩
      refine ⟨⟨List.not_mem_nil, hdistinct, trivial⟩, ?_, ?_⟩
      . intro name'' hname''
        rw [List.mem_singleton.mp hname'']
        rfl
      . intro path'
        cases path' with
        | nil => rfl
        | cons n rest =>
          rw [fileAt]
          split
          . next heq => simp only [hfile, heq, List.cons.injEq, true_and]
          . next hne =>
            rw [if_neg fun heq => hne (List.cons.inj heq).1]
            rfl

/-- The second directory is the first one with `written` in the place of the file of a path. -/
inductive Changed (written : Option β) : List κ → Directory κ β → Directory κ β → Prop where
  | fresh {path : List κ} {data : β} {d : Directory κ β} (hwritten : written = some data)
      (h : fresh path data = some d) : Changed written path nil d
  | missing {path : List κ} (hwritten : written = none) : Changed written path nil nil
  | replaced {name : κ} {old data : β} {rest : Directory κ β} (hwritten : written = some data) :
      Changed written [name] (file name old rest) (file name data rest)
  | removed {name : κ} {old : β} {rest : Directory κ β} (hwritten : written = none) :
      Changed written [name] (file name old rest) rest
  | afterFile {path : List κ} {name : κ} {old : β} {rest rest' : Directory κ β} (hne : path.head? ≠ some name)
      (h : Changed written path rest rest') : Changed written path (file name old rest) (file name old rest')
  | inside {name : κ} {tail : List κ} {sub sub' rest : Directory κ β} (h : Changed written tail sub sub') :
      Changed written (name :: tail) (dir name sub rest) (dir name sub' rest)
  | afterDir {n name : κ} {tail : List κ} {sub rest rest' : Directory κ β} (hne : n ≠ name)
      (h : Changed written (n :: tail) rest rest') :
      Changed written (n :: tail) (dir name sub rest) (dir name sub rest')

theorem changed_of_put (h : d.put path data = some d') : Changed (some data) path d d' := by
  induction d generalizing d' path with
  | nil => exact .fresh rfl h
  | file name old rest ih =>
    unfold put at h
    split at h
    . next heq =>
      rcases h with ⟨⟩
      exact heq ▸ .replaced rfl
    . split at h
      . contradiction
      . next hne =>
        rcases Option.map_eq_some_iff.mp h with ⟨rest', hrest, rfl⟩
        exact .afterFile hne (ih hrest)
  | dir name sub rest ihsub ih =>
    unfold put at h
    split at h
    . contradiction
    . split at h
      . next heq =>
        rcases Option.map_eq_some_iff.mp h with ⟨sub', hsub, rfl⟩
        exact heq ▸ .inside (ihsub hsub)
      . next hne =>
        rcases Option.map_eq_some_iff.mp h with ⟨rest', hrest, rfl⟩
        exact .afterDir hne (ih hrest)

theorem changed_of_unlink (h : d.unlink path = some d') : Changed none path d d' := by
  induction d generalizing d' path with
  | nil =>
    rcases h with ⟨⟩
    exact .missing rfl
  | file name old rest ih =>
    unfold unlink at h
    split at h
    . next heq =>
      rcases h with ⟨⟩
      exact heq ▸ .removed rfl
    . split at h
      . contradiction
      . next hne =>
        rcases Option.map_eq_some_iff.mp h with ⟨rest', hrest, rfl⟩
        exact .afterFile hne (ih hrest)
  | dir name sub rest ihsub ih =>
    unfold unlink at h
    split at h
    . contradiction
    . split at h
      . next heq =>
        split at h
        . contradiction
        . rcases Option.map_eq_some_iff.mp h with ⟨sub', hsub, rfl⟩
          exact heq ▸ .inside (ihsub hsub)
      . next hne =>
        rcases Option.map_eq_some_iff.mp h with ⟨rest', hrest, rfl⟩
        exact .afterDir hne (ih hrest)

theorem Changed.names {written : Option β} (h : Changed written path d d') :
    ∀ name ∈ d'.names, name ∈ d.names ∨ path.head? = some name := by
  induction h with
  | fresh _ h => exact fun name hname => .inr ((fresh_spec h).2.1 name hname)
  | missing _ => exact fun name hname => .inl hname
  | replaced _ => exact fun name hname => .inl hname
  | removed _ => exact fun name hname => .inl (List.mem_cons_of_mem _ hname)
  | afterFile _ _ ih =>
    intro name hname
    rcases List.mem_cons.mp hname with rfl | hname
    . exact .inl List.mem_cons_self
    . exact (ih name hname).imp_left (List.mem_cons_of_mem _)
  | inside _ _ => exact fun name hname => .inl hname
  | afterDir _ _ ih =>
    intro name hname
    rcases List.mem_cons.mp hname with rfl | hname
    . exact .inl List.mem_cons_self
    . exact (ih name hname).imp_left (List.mem_cons_of_mem _)

theorem Changed.distinct {written : Option β} (h : Changed written path d d') (hd : d.Distinct) : d'.Distinct := by
  induction h with
  | fresh _ h => exact (fresh_spec h).1
  | missing _ => exact hd
  | replaced _ => exact hd
  | removed _ => exact hd.2
  | afterFile hne h ih => exact ⟨fun hmem => (h.names _ hmem).elim hd.1 hne, ih hd.2⟩
  | inside _ ih => exact ⟨hd.1, ih hd.2.1, hd.2.2⟩
  | afterDir hne h ih =>
    exact ⟨fun hmem => (h.names _ hmem).elim hd.1 fun heq => hne (Option.some.inj heq), hd.2.1, ih hd.2.2⟩

/-- The file of the path is changed and no other one. -/
theorem Changed.fileAt {written : Option β} (h : Changed written path d d') (hd : d.Distinct) (path' : List κ) :
    d'.fileAt path' = if path' = path then written else d.fileAt path' := by
  induction h generalizing path' with
  | fresh hwritten h =>
    rw [(fresh_spec h).2.2, hwritten]
    rfl
  | missing hwritten =>
    rw [hwritten, Directory.fileAt, ite_self]
  | replaced hwritten =>
    rw [Directory.fileAt, Directory.fileAt, hwritten]
    split <;> rfl
  | removed hwritten =>
    rw [Directory.fileAt, hwritten]
    split
    . next heq => rw [heq, fileAt_of_head hd.1]
    . rfl
  | afterFile hne _ ih =>
    rw [Directory.fileAt, Directory.fileAt, ih hd.2]
    split
    . next heq =>
      rw [if_neg]
      rintro rfl
      exact hne (heq ▸ rfl)
    . rfl
  | @inside name tail _ _ _ _ ih =>
    cases path' with
    | nil => rw [fileAt_nil, fileAt_nil, if_neg (by simp)]
    | cons n' tail' =>
      rw [Directory.fileAt, Directory.fileAt]
      by_cases hn : n' = name
      . rw [if_pos hn, if_pos hn, ih hd.2.1]
        simp only [hn, List.cons.injEq, true_and]
      . rw [if_neg hn, if_neg hn, if_neg fun heq => hn (List.cons.inj heq).1]
  | @afterDir n name tail _ _ _ hne _ ih =>
    cases path' with
    | nil => rw [fileAt_nil, fileAt_nil, if_neg (by simp)]
    | cons n' tail' =>
      rw [Directory.fileAt, Directory.fileAt, ih hd.2.2]
      by_cases hn : n' = name
      . rw [if_pos hn, if_pos hn, if_neg fun heq => hne ((List.cons.inj heq).1.symm.trans hn)]
      . rw [if_neg hn, if_neg hn]

end Changes

end Directory
end OpenWA.Disk
