import OpenWA.Async.Machine
import OpenWA.Disk.Directory
import OpenWA.Disk.PosixPath
import OpenWA.Js.Map
import Mathlib.Data.List.Count

/-!
This module contains the media storage: the bucket, the local fallback directory, and what a process reads and
enumerates across an outage of the bucket.
-/

namespace OpenWA.Storage

open Async Disk Js

/-! ### Keys -/

/-- A name that can stand in a directory. -/
abbrev Name := { t : Text // Posix.Ordinary t }

def textOf (path : List Name) : Text := join ['/'] (path.map (·.val))

def isSafeStorageKey (key : Text) : Bool :=
  !key.isEmpty && key.all (fun c => 0x20 ≤ c.toNat) && !Posix.isAbsolute key &&
    !(key.splitOnP fun c => c = '/' || c = '\\').contains Posix.parent

/-- A safe key that is normalised: below the directory it is the path of its own names. -/
@[ext]
structure Key where
  path : List Name
  ne_nil : path ≠ []
  safe : isSafeStorageKey (textOf path) = true

def Key.text (k : Key) : Text := textOf k.path

theorem textOf_injective : Function.Injective textOf := by
  have hslash : ∀ path : List Name, ∀ t ∈ path.map (·.val), '/' ∉ t := by
    intro path t ht
    rcases List.mem_map.mp ht with ⟨name, _, rfl⟩
    exact name.2.no_slash
  have hsplit : ∀ path : List Name, path ≠ [] → (textOf path).splitOn '/' = path.map (·.val) := by
    intro path hne
    exact List.splitOn_intercalate '/' (hslash path) (mt List.map_eq_nil_iff.mp hne)
  have hempty : ∀ path : List Name, path ≠ [] → textOf path ≠ textOf [] := by
    intro path hne
    apply Posix.join_ne_nil
    . intro t ht
      rcases List.mem_map.mp ht with ⟨name, _, rfl⟩
      exact name.2
    . exact mt List.map_eq_nil_iff.mp hne
  intro path path' h
  by_cases hnil : path = []
  . by_contra hne
    exact hempty path' (fun hnil' => hne (hnil.trans hnil'.symm)) (by rw [← h, hnil])
  . by_cases hnil' : path' = []
    . exact absurd (hnil' ▸ h) (hempty path hnil)
    . have hmap : path.map (·.val) = path'.map (·.val) := by rw [← hsplit path hnil, ← hsplit path' hnil', h]
      exact (List.map_injective_iff.mpr Subtype.val_injective) hmap

theorem Key.text_eq_iff {k k' : Key} : k.text = k'.text ↔ k.path = k'.path := textOf_injective.eq_iff

theorem Key.text_inj {k k' : Key} : k.text = k'.text ↔ k = k' :=
  Key.text_eq_iff.trans Key.ext_iff.symm

/-! ### The service -/

/-- A service with S3 storage: the objects of the bucket, the local fallback directory, and whether S3 is in use. -/
structure StorageService (β : Type) where
  bucket : Map Text β
  files : Directory Name β
  distinct : files.Distinct
  s3Available : Bool

def LOCAL_TRAVERSAL_MAX_DEPTH : Nat := 20

def mediaPrefix : Text := "media/".toList

def objectKey (key : Text) : Text := mediaPrefix ++ key

namespace StorageService

variable {β : Type}

/-- `refreshS3Availability`, when the bucket answers -/
def recover (s : StorageService β) : StorageService β := { s with s3Available := true }

def getLocalFile (s : StorageService β) (k : Key) : Option β := s.files.fileAt k.path

def getS3File (s : StorageService β) (k : Key) : Option β :=
  match s.bucket.get? (objectKey k.text) with
  | some data => some data
  -- `NoSuchKey`
  | none => s.getLocalFile k

/-- `none` when it fails. -/
def getFile (s : StorageService β) (k : Key) : Option β :=
  if s.s3Available then s.getS3File k else s.getLocalFile k

def putS3File (s : StorageService β) (k : Key) (data : β) : StorageService β :=
  { s with bucket := s.bucket.set (objectKey k.text) data }

def putLocalFile (s : StorageService β) (k : Key) (data : β) : Option (StorageService β) :=
  match h : s.files.put k.path data with
  | none => none
  | some files => some { s with files := files, distinct := (Directory.changed_of_put h).distinct s.distinct }

def putFile (s : StorageService β) (k : Key) (data : β) : Option (StorageService β) :=
  if s.s3Available then some (s.putS3File k data) else s.putLocalFile k data

def deleteS3File (s : StorageService β) (k : Key) : StorageService β :=
  { s with bucket := s.bucket.delete (objectKey k.text) }

def deleteLocalFile (s : StorageService β) (k : Key) : Option (StorageService β) :=
  match h : s.files.unlink k.path with
  | none => none
  | some files => some { s with files := files, distinct := (Directory.changed_of_unlink h).distinct s.distinct }

def deleteFile (s : StorageService β) (k : Key) : Option (StorageService β) :=
  (if s.s3Available then s.deleteS3File k else s).deleteLocalFile k

/-- All pages of the listing; `key.replace(/^media\//, '')` -/
def iterateS3Files (s : StorageService β) : List Text :=
  (s.bucket.keys.filter fun key => mediaPrefix.isPrefixOf key).map (·.drop mediaPrefix.length)

def iterateLocalFiles (s : StorageService β) : List Text :=
  (Directory.walk LOCAL_TRAVERSAL_MAX_DEPTH [⟨[], 0, s.files⟩]).map textOf

def iterateFiles (s : StorageService β) : List Text :=
  if s.s3Available then
    let seen := s.iterateS3Files
    seen ++ s.iterateLocalFiles.filter (· ∉ seen)
  else s.iterateLocalFiles

end StorageService

/-! ### Runs -/

inductive StorageEvent (β : Type) where
  | putFile (k : Key) (data : β)
  | getFile (k : Key)
  | deleteFile (k : Key)
  | iterateFiles
  | recover

/-- What the last put or delete of a key left, `none` for a delete. -/
structure Write (β : Type) where
  data : Option β
  -- made in the local fallback alone, with a copy of the key in the bucket
  shadowed : Bool

/-- A service with the puts and deletes of its run, the last first. -/
structure Run (β : Type) where
  service : StorageService β
  log : List (Text × Write β)

section Machine

variable {β : Type}

/-- One more put or delete. -/
def Run.note (r : Run β) (k : Key) (data : Option β) (service : StorageService β) : Run β where
  service := service
  log := (k.text, ⟨data, !r.service.s3Available && r.service.bucket.has (objectKey k.text)⟩) :: r.log

def storageMachine (β : Type) : Machine (Run β) (StorageEvent β) where
  step r e :=
    match e with
    | .putFile k data => (r.service.putFile k data).map (r.note k (some data))
    | .getFile _ => some r
    | .deleteFile k => (r.service.deleteFile k).map (r.note k none)
    | .iterateFiles => some r
    | .recover => some { r with service := r.service.recover }

def Run.start (service : StorageService β) : Run β := ⟨service, []⟩

/-- Each key reads as it was written last. -/
def ReadsBack (r : Run β) : Prop :=
  ∀ k write, r.log.lookup k.text = some write → r.service.getFile k = write.data

/-- A full iteration yields each key that can be read once, and no other. -/
def Enumerates (r : Run β) : Prop :=
  ∀ k, r.service.iterateFiles.count k.text = if (r.service.getFile k).isSome then 1 else 0

/-- The local walk comes to the key, or the bucket lists it. -/
def WithinReach (s : StorageService β) (k : Key) : Prop :=
  k.path.length ≤ LOCAL_TRAVERSAL_MAX_DEPTH ∨ s.s3Available = true ∧ s.bucket.has (objectKey k.text) = true

instance (s : StorageService β) (k : Key) : Decidable (WithinReach s k) :=
  inferInstanceAs (Decidable (_ ∨ _))

end Machine

section Enumeration

variable {β : Type} (s : StorageService β) (k : Key)

namespace StorageService

theorem mem_iterateS3Files (t : Text) : t ∈ s.iterateS3Files ↔ s.bucket.has (objectKey t) = true := by
  rw [iterateS3Files, List.mem_map, Map.has_eq, Map.get?_isSome_iff]
  refine ⟨?_, ?_⟩
  . rintro ⟨key, hkey, rfl⟩
    rcases List.mem_filter.mp hkey with ⟨hmem, hstart⟩
    rcases List.isPrefixOf_iff_prefix.mp hstart with ⟨rest, rfl⟩
    rw [List.drop_left]
    exact hmem
  . intro hmem
    exact ⟨objectKey t, List.mem_filter.mpr ⟨hmem, List.isPrefixOf_iff_prefix.mpr (List.prefix_append _ _)⟩,
      List.drop_left⟩

theorem nodup_iterateS3Files : s.iterateS3Files.Nodup := by
  apply List.Nodup.map_on _ (s.bucket.nodup.filter _)
  intro key hkey key' hkey' h
  rcases List.isPrefixOf_iff_prefix.mp (List.mem_filter.mp hkey).2 with ⟨rest, rfl⟩
  rcases List.isPrefixOf_iff_prefix.mp (List.mem_filter.mp hkey').2 with ⟨rest', rfl⟩
  rw [List.drop_left, List.drop_left] at h
  rw [h]

theorem count_iterateLocalFiles : s.iterateLocalFiles.count k.text =
    if (s.getLocalFile k).isSome ∧ k.path.length ≤ LOCAL_TRAVERSAL_MAX_DEPTH then 1 else 0 := by
  rw [iterateLocalFiles, Key.text, List.count_map_of_injective _ _ textOf_injective,
    Directory.count_walk s.distinct]
  rfl

theorem getFile_up (h : s.s3Available = true) :
    s.getFile k = (s.bucket.get? (objectKey k.text)).or (s.getLocalFile k) := by
  rw [getFile, if_pos h, getS3File]
  cases s.bucket.get? (objectKey k.text) <;> rfl

theorem getFile_down (h : s.s3Available = false) : s.getFile k = s.getLocalFile k := by
  rw [getFile, h]
  rfl

theorem nodup_iterateLocalFiles : s.iterateLocalFiles.Nodup :=
  ((Directory.walk_root_perm _ _).nodup_iff.mpr (Directory.nodup_paths s.distinct _)).map textOf_injective

theorem nodup_iterateFiles : s.iterateFiles.Nodup := by
  unfold iterateFiles
  split
  . refine List.nodup_append'.mpr ⟨s.nodup_iterateS3Files, s.nodup_iterateLocalFiles.filter _, ?_⟩
    intro t hseen hlocal
    exact of_decide_eq_true (List.mem_filter.mp hlocal).2 hseen
  . exact s.nodup_iterateLocalFiles

/-- A full iteration yields a key once if it can be read and is within reach. -/
theorem count_iterateFiles : s.iterateFiles.count k.text =
    if (s.getFile k).isSome ∧ WithinReach s k then 1 else 0 := by
  unfold iterateFiles
  by_cases havailable : s.s3Available = true
  . rw [if_pos havailable, List.count_append, s.nodup_iterateS3Files.count, getFile_up s k havailable]
    by_cases hheld : s.bucket.has (objectKey k.text) = true
    . have hnot : k.text ∉ s.iterateLocalFiles.filter (· ∉ s.iterateS3Files) := by
        intro hmem
        have hnot := (List.mem_filter.mp hmem).2
        rw [decide_eq_true_eq, mem_iterateS3Files] at hnot
        exact hnot hheld
      have hreach : WithinReach s k := .inr ⟨havailable, hheld⟩
      rw [if_pos ((s.mem_iterateS3Files _).mpr hheld), List.count_eq_zero.mpr hnot]
      rw [Map.has_eq, Option.isSome_iff_exists] at hheld
      rcases hheld with ⟨data, hdata⟩
      rw [hdata, if_pos ⟨rfl, hreach⟩]
    . have hpass : (decide (k.text ∉ s.iterateS3Files)) = true := by
        rw [decide_eq_true_eq, mem_iterateS3Files]
        exact hheld
      have hreach : WithinReach s k ↔ k.path.length ≤ LOCAL_TRAVERSAL_MAX_DEPTH :=
        or_iff_left fun hand => hheld hand.2
      have hlocal : (s.iterateLocalFiles.filter (· ∉ s.iterateS3Files)).count k.text = s.iterateLocalFiles.count k.text :=
        List.count_filter hpass
      rw [if_neg (mt (s.mem_iterateS3Files _).mp hheld), Nat.zero_add, hlocal, count_iterateLocalFiles]
      rw [Map.has_eq, Bool.not_eq_true, Option.isSome_eq_false_iff, Option.isNone_iff_eq_none] at hheld
      rw [hheld, Option.none_or]
      simp only [hreach]
  . have hreach : WithinReach s k ↔ k.path.length ≤ LOCAL_TRAVERSAL_MAX_DEPTH :=
      or_iff_left fun hand => havailable hand.1
    rw [if_neg havailable, count_iterateLocalFiles, getFile_down s k (Bool.not_eq_true _ ▸ havailable)]
    simp only [hreach]

end StorageService

end Enumeration

section Invariant

variable {β : Type} {r r' : Run β}

/--
During the outage the last write of a key is in the directory, and the bucket has no copy unless the write was shadowed;
afterwards the two backends read as the last write, unless it was shadowed.
-/
def Holds (r : Run β) : Prop :=
  ∀ k write, r.log.lookup k.text = some write →
    (r.service.s3Available = false → r.service.getLocalFile k = write.data) ∧
      (write.shadowed = false →
        (r.service.bucket.get? (objectKey k.text)).or (r.service.getLocalFile k) = write.data)

theorem holds_start (service : StorageService β) : Holds (Run.start service) :=
  fun _ _ hlog => nomatch hlog

theorem objectKey_inj {t t' : Text} : objectKey t = objectKey t' ↔ t = t' := List.append_right_inj _

/-- What a put or a delete of `k` makes of the two backends. -/
structure Wrote (s s' : StorageService β) (k : Key) (data : Option β) : Prop where
  available : s'.s3Available = s.s3Available
  down : s.s3Available = false → s'.getLocalFile k = data
  both : s.s3Available = true ∨ s.bucket.has (objectKey k.text) = false →
    (s'.bucket.get? (objectKey k.text)).or (s'.getLocalFile k) = data
  other : ∀ k', k' ≠ k → s'.getLocalFile k' = s.getLocalFile k' ∧
    s'.bucket.get? (objectKey k'.text) = s.bucket.get? (objectKey k'.text)

section Calls

variable {s s' : StorageService β} {k : Key} {data : β}

theorem getLocalFile_put (h : s.putLocalFile k data = some s') :
    (∀ k', s'.getLocalFile k' = if k'.path = k.path then some data else s.getLocalFile k') ∧ s'.bucket = s.bucket ∧
      s'.s3Available = s.s3Available := by
  unfold StorageService.putLocalFile at h
  split at h
  . contradiction
  . next files hput =>
    rcases h with ⟨⟩
    exact ⟨fun k' => (Directory.changed_of_put hput).fileAt s.distinct k'.path, rfl, rfl⟩

theorem getLocalFile_delete (h : s.deleteLocalFile k = some s') :
    (∀ k', s'.getLocalFile k' = if k'.path = k.path then none else s.getLocalFile k') ∧ s'.bucket = s.bucket ∧
      s'.s3Available = s.s3Available := by
  unfold StorageService.deleteLocalFile at h
  split at h
  . contradiction
  . next files hunlink =>
    rcases h with ⟨⟩
    exact ⟨fun k' => (Directory.changed_of_unlink hunlink).fileAt s.distinct k'.path, rfl, rfl⟩

theorem wrote_putS3File (h : s.s3Available = true) : Wrote s (s.putS3File k data) k (some data) where
  available := rfl
  down hdown := absurd (h.symm.trans hdown) nofun
  both _ := by
    rw [StorageService.putS3File, Map.get?_set, if_pos rfl]
    rfl
  other k' hne := by
    refine ⟨rfl, ?_⟩
    rw [StorageService.putS3File, Map.get?_set, if_neg (mt objectKey_inj.mp (mt Key.text_inj.mp hne))]

/-- A change of the directory alone, during the outage -/
theorem wrote_of_local {written : Option β} (hdown : s.s3Available = false)
    (h : (∀ k', s'.getLocalFile k' = if k'.path = k.path then written else s.getLocalFile k') ∧ s'.bucket = s.bucket ∧
      s'.s3Available = s.s3Available) : Wrote s s' k written := by
  rcases h with ⟨hlocal, hbucket, havailable⟩
  have hself : s'.getLocalFile k = written := by rw [hlocal, if_pos rfl]
  refine ⟨havailable, fun _ => hself, ?_, ?_⟩
  . rintro (hup | hfree)
    . exact absurd (hup.symm.trans hdown) nofun
    . rw [Map.has_eq, Option.isSome_eq_false_iff, Option.isNone_iff_eq_none] at hfree
      rw [hbucket, hfree, hself]
      rfl
  . intro k' hne
    rw [hlocal, if_neg (mt Key.ext hne), hbucket]
    exact ⟨rfl, rfl⟩

theorem wrote_putFile (h : s.putFile k data = some s') : Wrote s s' k (some data) := by
  unfold StorageService.putFile at h
  split at h
  . next hup =>
    rcases h with ⟨⟩
    exact wrote_putS3File hup
  . next hdown => exact wrote_of_local (Bool.eq_false_iff.mpr hdown) (getLocalFile_put h)

theorem wrote_deleteFile (h : s.deleteFile k = some s') : Wrote s s' k none := by
  unfold StorageService.deleteFile at h
  split at h
  . next hup =>
    -- the object is deleted first, then the file
    rcases getLocalFile_delete h with ⟨hlocal, hbucket, havailable⟩
    have hself : s'.getLocalFile k = none := by rw [hlocal, if_pos rfl]
    refine ⟨havailable, fun _ => hself, fun _ => ?_, ?_⟩
    . rw [hbucket, StorageService.deleteS3File, Map.get?_delete, if_pos rfl, hself]
      rfl
    . intro k' hne
      rw [hlocal, if_neg (mt Key.ext hne), hbucket, StorageService.deleteS3File, Map.get?_delete,
        if_neg (mt objectKey_inj.mp (mt Key.text_inj.mp hne))]
      exact ⟨rfl, rfl⟩
  . next hdown => exact wrote_of_local (Bool.eq_false_iff.mpr hdown) (getLocalFile_delete h)

end Calls

theorem Holds.note (h : Holds r) {k : Key} {data : Option β} {service : StorageService β}
    (hwrote : Wrote r.service service k data) : Holds (r.note k data service) := by
  intro k' write hlog
  rw [Run.note, List.lookup_cons] at hlog
  by_cases hk : k' = k
  . subst hk
    rw [beq_self_eq_true] at hlog
    rcases hlog with ⟨⟩
    refine ⟨fun hdown => hwrote.down (hwrote.available ▸ hdown), fun hshadowed => hwrote.both ?_⟩
    rwa [Bool.and_eq_false_iff, Bool.not_eq_false'] at hshadowed
  . rw [beq_eq_false_iff_ne.mpr (mt Key.text_inj.mp hk)] at hlog
    rcases hwrote.other k' hk with ⟨hlocal, hbucket⟩
    have hprev := h k' write hlog
    rw [← hlocal, ← hbucket, ← hwrote.available] at hprev
    exact hprev

theorem Holds.run (h : Holds r) {e : StorageEvent β} (hstep : (storageMachine β).step r e = some r') : Holds r' := by
  cases e with
  | putFile k data =>
    rcases Option.map_eq_some_iff.mp hstep with ⟨service, hput, rfl⟩
    exact h.note (wrote_putFile hput)
  | getFile k =>
    rcases hstep with ⟨⟩
    exact h
  | deleteFile k =>
    rcases Option.map_eq_some_iff.mp hstep with ⟨service, hdelete, rfl⟩
    exact h.note (wrote_deleteFile hdelete)
  | iterateFiles =>
    rcases hstep with ⟨⟩
    exact h
  | recover =>
    rcases hstep with ⟨⟩
    exact fun k write hlog => ⟨nofun, (h k write hlog).2⟩

/--
Across an outage each key reads as it was written last, but for a write in the local fallback that a copy in the bucket
shadows; a full iteration yields the keys that can be read and are within reach, each once.
-/
theorem oneStore_of_reach {service : StorageService β} (h : (storageMachine β).Reach Machine.anyStep (Run.start service) r) :
    (∀ k write, r.log.lookup k.text = some write → r.service.s3Available = false ∨ write.shadowed = false →
      r.service.getFile k = write.data) ∧
    r.service.iterateFiles.Nodup ∧
    ∀ k, r.service.iterateFiles.count k.text =
      if (r.service.getFile k).isSome ∧ WithinReach r.service k then 1 else 0 := by
  have hholds : Holds r := h.invariant (holds_start service) fun _ _ _ hprev _ hstep => hprev.run hstep
  refine ⟨?_, r.service.nodup_iterateFiles, r.service.count_iterateFiles⟩
  intro k write hlog hcase
  rcases hholds k write hlog with ⟨hdown, hboth⟩
  by_cases havailable : r.service.s3Available = true
  . rw [StorageService.getFile_up _ k havailable]
    exact hboth (hcase.resolve_left (Bool.not_eq_false _ ▸ havailable))
  . rw [Bool.not_eq_true] at havailable
    rw [StorageService.getFile_down _ k havailable]
    exact hdown havailable

end Invariant

section Examples

def sampleName : Name := ⟨['a'], by decide, by decide, by decide, by decide⟩

def sampleKey : Key := ⟨[sampleName], by decide, by decide⟩

/-- One more name than the local walk goes down. -/
def deepKey : Key := ⟨List.replicate 21 sampleName, by decide, by decide⟩

/-- A service that starts with S3 down and an empty local fallback directory. -/
def outage (bucket : Map Text Nat) : StorageService Nat := ⟨bucket, .nil, trivial, false⟩

theorem oneStore_of_reach_readThrough : ∃ r, (storageMachine Nat).Reach Machine.anyStep (Run.start (outage .empty)) r ∧
    r.service.s3Available = true ∧ r.service.getFile sampleKey = some 1 ∧
    r.service.iterateFiles.count sampleKey.text = 1 := by
  have hrun : ((storageMachine Nat).exec Machine.anyStep (Run.start (outage .empty))
      [.putFile sampleKey 1, .recover]).map (fun r =>
        (r.service.s3Available, (r.log.lookup sampleKey.text).map fun write => (write.data, write.shadowed))) =
      some (true, some (some 1, false)) := by decide
  rcases Machine.reach_of_exec_map hrun with ⟨r, hreach, hr⟩
  rcases Prod.mk.inj hr with ⟨havailable, hlog⟩
  rcases Option.map_eq_some_iff.mp hlog with ⟨write, hlog, hwrite⟩
  rcases Prod.mk.inj hwrite with ⟨hdata, hshadowed⟩
  rcases oneStore_of_reach hreach with ⟨hreads, _, hcount⟩
  have hget : r.service.getFile sampleKey = some 1 := (hreads sampleKey write hlog (.inr hshadowed)).trans hdata
  refine ⟨r, hreach, havailable, hget, ?_⟩
  rw [hcount, hget, if_pos ⟨rfl, .inl (by decide)⟩]

/--
A put during the outage reads as what the bucket held before, and the walk of the local fallback directory stops above
a deep key.
-/
theorem outage_reverts_and_hides :
    (∃ service r, (storageMachine Nat).Reach Machine.anyStep (Run.start service) r ∧ ¬ReadsBack r) ∧
      ∃ service r, (storageMachine Nat).Reach Machine.anyStep (Run.start service) r ∧ ¬Enumerates r := by
  refine ⟨?_, ?_⟩
  . have hrun : ((storageMachine Nat).exec Machine.anyStep
        (Run.start (outage (Map.empty.set (objectKey sampleKey.text) 0))) [.putFile sampleKey 1, .recover]).map (fun r =>
          (r.service.getFile sampleKey, (r.log.lookup sampleKey.text).map (·.data))) =
        some (some 0, some (some 1)) := by decide
    rcases Machine.reach_of_exec_map hrun with ⟨r, hreach, hr⟩
    rcases Prod.mk.inj hr with ⟨hget, hlog⟩
    rcases Option.map_eq_some_iff.mp hlog with ⟨write, hlog, hdata⟩
    refine ⟨_, r, hreach, fun hreads => ?_⟩
    have hback := hreads sampleKey write hlog
    rw [hget, hdata] at hback
    contradiction
  . have hrun : ((storageMachine Nat).exec Machine.anyStep (Run.start (outage .empty)) [.putFile deepKey 1]).map (fun r =>
        (r.service.getFile deepKey, r.service.s3Available)) = some (some 1, false) := by decide
    rcases Machine.reach_of_exec_map hrun with ⟨r, hreach, hr⟩
    rcases Prod.mk.inj hr with ⟨hget, hdown⟩
    refine ⟨_, r, hreach, fun heach => ?_⟩
    have hcount := heach deepKey
    have hfar : ¬WithinReach r.service deepKey := by
      rintro (hshort | ⟨hup, _⟩)
      . exact absurd hshort (by decide)
      . exact absurd (hup.symm.trans hdown) nofun
    rw [StorageService.count_iterateFiles, if_neg fun hread => hfar hread.2, hget] at hcount
    exact absurd hcount (by decide)

end Examples

end OpenWA.Storage
