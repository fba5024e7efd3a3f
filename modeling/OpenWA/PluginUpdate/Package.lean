import OpenWA.Disk.PosixPath
import OpenWA.Js.Encoding
import OpenWA.Js.JsonParse
import OpenWA.PluginUpdate.Install

/-!
This module contains the reading of an uploaded plugin archive, and when the files written from it are
the package that was validated.
-/

namespace OpenWA.PluginPackage

open Js Disk PluginInstall Posix

/-! ### The manifest -/

def requiredFields : List String := ["id", "name", "version", "type", "main"]

def reservedPluginIds : List Text :=
  ["whatsapp-web.js".toList, "baileys".toList, "auto-reply".toList, "translation".toList]

def installableTypes : List Text := ["extension".toList]

/-- The field, if it is a string that is not empty. -/
def stringField (manifest : Fields) (field : String) : Option Text :=
  match manifest.get? field with
  | some (.string s) => if s.toList.isEmpty then none else some s.toList
  | _ => none

def includes (t sub : Text) : Bool := t.tails.any (sub.isPrefixOf ·)

/-- `SAFE_ID` -/
def isSafeId (id : Text) : Bool :=
  match id with
  | [] => false
  | c :: rest => c.isAlphanum && rest.all fun c => c.isAlphanum || c ∈ ['.', '_', '-']

def ensure (b : Bool) (message : String) : Except String Unit := if b then .ok () else .error message

def orThrow {α : Type} (x : Option α) (message : String) : Except String α :=
  match x with
  | some x => .ok x
  | none => .error message

def assertMainContained (main : Text) : Except String Unit :=
  let normalized := normalize main
  ensure (!(isAbsolute main || normalized = parent || (parent ++ ['/']).isPrefixOf normalized ||
      '\\' ∈ main))
    ("manifest.json main escapes the plugin directory: \"" ++ String.ofList main ++ "\"")

def field (manifest : Fields) (name : String) : Text := (stringField manifest name).getD []

def validatePluginManifest (manifest : Json) : Except String Fields :=
  match manifest with
  | .object m => do
    let _ ← requiredFields.forM fun field =>
      ensure (stringField m field).isSome
        ("manifest.json is missing or has an invalid required field: " ++ field)
    let id := field m "id"
    let type := field m "type"
    let _ ← ensure (isSafeId id && !includes id parent)
      ("Invalid plugin id: \"" ++ String.ofList id ++ "\"")
    let _ ← ensure (id.map Char.toLower ∉ reservedPluginIds)
      ("Plugin id \"" ++ String.ofList id ++ "\" is reserved by a built-in plugin")
    let _ ← ensure (type ∈ installableTypes)
      ("Plugin type \"" ++ String.ofList type ++ "\" is not installable — only extension plugins can be " ++
        "installed (engines and other tiers are built-in).")
    let _ ← assertMainContained (field m "main")
    .ok m
  | _ => .error "manifest.json must be a JSON object"

/-! ### The archive -/

/-- An entry with what the archive's reader answers for it; `getData` is none if that throws. -/
structure ZipEntry where
  entryName : Text
  isDirectory : Bool
  size : Nat
  compressedSize : Nat
  getCompressedData : Bytes
  getData : Option Bytes
deriving DecidableEq

structure PackageLimits where
  maxEntries : Nat
  maxTotalBytes : Nat

def defaultPackageLimits : PackageLimits := ⟨200, 20 * 1024 * 1024⟩

structure Entry where
  relPath : Text
  data : Bytes
deriving DecidableEq

structure ParsedPackage where
  manifest : Fields
  entries : List Entry
deriving DecidableEq

section Params

-- inflate to at most so many bytes, none if there are more or the data is corrupt
variable (inflateRawSync : Bytes → Nat → Option Bytes)

def readEntryData (entry : ZipEntry) (maxBytes : Nat) : Option Bytes :=
  if entry.size = 0 && 0 < entry.compressedSize then
    if entry.getCompressedData.isEmpty then some []
    else inflateRawSync entry.getCompressedData maxBytes
  else entry.getData

/-- The shallowest `manifest.json`, the first of them. -/
def manifestEntry (files : List ZipEntry) : Option ZipEntry :=
  ((files.filter fun e => basename e.entryName = "manifest.json".toList).insertionSort fun a b =>
    (segments a.entryName).length ≤ (segments b.entryName).length).head?

def rootOf (entry : ZipEntry) : Text :=
  let dir := dirname entry.entryName
  if dir = here then [] else dir ++ ['/']

def packaged (root : Text) (files : List ZipEntry) : List ZipEntry :=
  files.filter fun e => root.isEmpty || root.isPrefixOf e.entryName

/-- `JSON.parse(data.toString('utf-8'))` -/
def parseManifest (data : Bytes) : Option Json := parse (utf8Decode none (data.map (·.toNat)))

/-- The loop over the packaged files, after so many bytes. -/
def readEntries (limits : PackageLimits) (root : Text) (files : List ZipEntry) (actualBytes : Nat) :
    Except String (List Entry) :=
  match files with
  | [] => .ok []
  | e :: files =>
    let relPath := e.entryName.drop root.length
    if relPath.isEmpty then readEntries limits root files actualBytes
    else do
      let norm := normalize relPath
      let _ ← ensure (!('\\' ∈ relPath || parent.isPrefixOf norm || isAbsolute norm))
        ("Unsafe path in archive: " ++ String.ofList e.entryName)
      let data ← orThrow (readEntryData inflateRawSync e limits.maxTotalBytes)
        "Plugin package is corrupt or too large to extract"
      let actualBytes := actualBytes + data.length
      let _ ← ensure (actualBytes ≤ limits.maxTotalBytes) "Plugin package is too large to extract"
      let entries ← readEntries limits root files actualBytes
      .ok (⟨norm, data⟩ :: entries)

/-- None is an archive that cannot be read. -/
def parsePluginPackage (archive : Option (List ZipEntry)) (limits : PackageLimits) :
    Except String ParsedPackage := do
  let all ← orThrow archive "Uploaded file is not a valid .zip archive"
  let files := all.filter (!·.isDirectory)
  let _ ← ensure (!files.isEmpty) "The archive is empty"
  let _ ← ensure (files.length ≤ limits.maxEntries) "The archive has too many files"
  let entry ← orThrow (manifestEntry files) "The archive has no manifest.json"
  let root := rootOf entry
  let manifestRaw ← orThrow (readEntryData inflateRawSync entry limits.maxTotalBytes)
    "Plugin package is corrupt or too large to extract"
  let parsed ← orThrow (parseManifest manifestRaw) "manifest.json is not valid JSON"
  let manifest ← validatePluginManifest parsed
  let declared := ((packaged root files).map (·.size)).sum
  let _ ← ensure (declared ≤ limits.maxTotalBytes) "The archive contents exceed the size limit"
  let entries ← readEntries inflateRawSync limits root (packaged root files) 0
  let mainRel := normalize (field manifest "main")
  let _ ← ensure (entries.any (·.relPath = mainRel))
    ("The archive is missing its main file: " ++ String.ofList (field manifest "main"))
  .ok ⟨manifest, entries⟩

end Params

/-! ### Writing the entries -/

/-- The loop of `install`, and of an update into its staging directory but for the list it keeps. No file
can be opened under a path that ends in a slash. -/
def writeEntries (id : Text) (entries : List Entry) : Cmd :=
  .forEach entries fun entry =>
    let dest := joinBelow [id] entry.relPath
    .seq (mkdirSync dest.dropLast)
      (.seq (if endsWithSlash entry.relPath then .raise else writeFileSync dest entry.data) (push dest))

/-- What the last of the entries at the path holds. -/
def lastAt (package : Package) (p : Path Text) : Option Bytes :=
  (package.reverse.find? (·.1 = p)).map (·.2)

/-- No file is in the way of another, be it from before or one of the package's own. -/
structure Fits (t : Files) (id : Text) (package : Package) : Prop where
  apart : ∀ entry ∈ package, ∀ other ∈ package, entry.1 <+: other.1 → entry.1 = other.1
  free : ∀ entry ∈ package, ∀ q, q <+: id :: entry.1 → q ≠ id :: entry.1 → isFile t q = false
  place : ∀ entry ∈ package, t.node (id :: entry.1) ≠ some .dir

section Write

variable {id : Text} {entry : Path Text × Bytes} {entries written : Package} {t : Files} {s s' : State}
  {p q : Path Text} {data : Bytes} {o : Outcome}

theorem appends_data {old : Bytes} (hold : s.tree.node p = some (.file old))
    (h : Ends throws (.forEach data fun byte => onTree .append fun t => t.append p byte) s .finished s') :
    s'.tree.node p = some (.file (old ++ data)) := by
  induction data generalizing s old with
  | nil =>
    cases h
    rw [hold, List.append_nil]
  | cons byte data ih =>
    cases h with
    | seq hp hps =>
      rcases ends_onTree hp with ⟨_, t', ht', rfl⟩ | ⟨hthrown, _⟩
      . have hnode : t'.node p = some (.file (old ++ [byte])) := by
          unfold Tree.append at ht'
          rw [hold] at ht'
          rw [Tree.put_node ht', Function.update_self]
        rw [ih hnode hps, List.append_assoc, List.singleton_append]
      . contradiction

/-- A file that could be written holds its data, and there was no directory in its place. -/
theorem writeFileSync_data (h : Ends throws (writeFileSync p data) s .finished s') :
    s'.tree.node p = some (.file data) ∧ s.tree.node p ≠ some .dir := by
  cases h with
  | seq hp hps =>
    rcases ends_onTree hp with ⟨_, t', ht', rfl⟩ | ⟨hthrown, _⟩
    . have hnode : t'.node p = some (.file []) := by rw [Tree.put_node ht', Function.update_self]
      have hdata : s'.tree.node p = some (.file ([] ++ data)) := appends_data hnode hps
      exact ⟨hdata, Tree.put_not_dir ht'⟩
    . contradiction

theorem above_iff : q ∈ levels [] (id :: p).dropLast ↔ q <+: id :: p ∧ q ≠ id :: p := by
  refine ⟨levels_above, fun ⟨hpre, hne⟩ => mem_levels.mpr ⟨List.nil_prefix, ?_⟩⟩
  rw [← List.dropLast_append_getLast (List.cons_ne_nil id p)] at hpre hne
  exact (List.prefix_concat_iff.mp hpre).resolve_left hne

/-- The tree once the entries have been written in their order. -/
structure Laid (t : Files) (id : Text) (written : Package) (s : State) : Prop where
  files : ∀ p data, lastAt written p = some data → s.tree.node (id :: p) = some (.file data)
  rest : ∀ q, (∀ entry ∈ written, q ≠ id :: entry.1) → s.tree.node q = t.node q ∨
    t.node q = none ∧ s.tree.node q = some .dir ∧ ∃ entry ∈ written, q <+: id :: entry.1
  places : ∀ entry ∈ written, t.node (id :: entry.1) ≠ some .dir

theorem lastAt_concat (p : Path Text) :
    lastAt (written ++ [entry]) p = if entry.1 = p then some entry.2 else lastAt written p := by
  unfold lastAt
  rw [List.reverse_append, List.reverse_singleton, List.singleton_append, List.find?_cons]
  split <;> simp_all

theorem lastAt_of_mem (h : entry ∈ written) : ∃ data, lastAt written entry.1 = some data := by
  have hfound : (written.reverse.find? (·.1 = entry.1)).isSome = true := by
    rw [List.find?_isSome]
    exact ⟨entry, List.mem_reverse.mpr h, decide_eq_true rfl⟩
  rcases Option.isSome_iff_exists.mp hfound with ⟨last, hlast⟩
  exact ⟨last.2, by rw [lastAt, hlast]; rfl⟩

/-- The steps of writing an entry that finishes. -/
theorem writeEntry_finished (h : Ends throws (writeEntry id entry) s .finished s') :
    ∃ s₁, Made s s₁ (fun q => q <+: id :: entry.1 ∧ q ≠ id :: entry.1) ∧
      (∀ q, q <+: id :: entry.1 → q ≠ id :: entry.1 → s₁.tree.node q = some .dir) ∧
      s₁.tree.node (id :: entry.1) ≠ some .dir ∧
      (∀ q, q ≠ id :: entry.1 → s'.tree.node q = s₁.tree.node q) ∧
      s'.tree.node (id :: entry.1) = some (.file entry.2) := by
  rcases writeEntry_cases h with ⟨_, ho⟩ | ⟨s₁, hmk, ⟨_, ho⟩ | ⟨s₂, hwrite, rfl⟩⟩
  . contradiction
  . contradiction
  . rcases mkdirs_made hmk with ⟨hmade, hdirs⟩
    rcases writeFileSync_data hwrite with ⟨hdata, hdir⟩
    refine ⟨s₁, ⟨hmade.1, fun q => ?_⟩, fun q hq hne => hdirs rfl q (above_iff.mpr ⟨hq, hne⟩), hdir,
      (writeFileSync_wrote hwrite).1.2.1, hdata⟩
    exact (hmade.2 q).imp_right fun ⟨hnone, hnew, hq⟩ => ⟨hnone, hnew, above_iff.mp hq⟩

/-- What lets one more entry be written after others. -/
structure Fit (t : Files) (id : Text) (written : Package) (entry : Path Text × Bytes) : Prop where
  apart : ∀ other ∈ written, (entry.1 <+: other.1 ∨ other.1 <+: entry.1) → entry.1 = other.1
  free : ∀ q, q <+: id :: entry.1 → q ≠ id :: entry.1 → isFile t q = false
  place : t.node (id :: entry.1) ≠ some .dir

theorem Laid.fit (hs : Laid t id written s) (h : Ends throws (writeEntry id entry) s .finished s') :
    Fit t id written entry := by
  rcases writeEntry_finished h with ⟨s₁, hmade, hdirs, hplace, _, _⟩
  -- what was there before stayed, so a file is not where a directory had to be
  have hkept {q : Path Text} {data : Bytes} (hq : s.tree.node q = some (.file data)) :
      s₁.tree.node q = some (.file data) := by
    rcases hmade.2 q with heq | ⟨hnone, _⟩
    . rw [heq, hq]
    . rw [hq] at hnone
      contradiction
  have hfile {other : Path Text × Bytes} (hother : other ∈ written) :
      ∃ data, s.tree.node (id :: other.1) = some (.file data) := by
    rcases lastAt_of_mem hother with ⟨data, hlast⟩
    exact ⟨data, hs.files _ _ hlast⟩
  have hnotAbove {q : Path Text} {data : Bytes} (hq : s.tree.node q = some (.file data))
      (hpre : q <+: id :: entry.1) : q = id :: entry.1 := by
    refine Classical.byContradiction fun hne => ?_
    have hdir := hdirs q hpre hne
    rw [hkept hq] at hdir
    cases hdir
  constructor
  . intro other hother hpre
    rcases hfile hother with ⟨data, hdata⟩
    rcases hpre with hpre | hpre
    . refine Classical.byContradiction fun hne => ?_
      -- the other file lies below, so there is a directory in the entry's place
      have hdir := Tree.dir_above (t := s₁.tree) (p := id :: entry.1) (q := id :: other.1)
        (by rw [hkept hdata]; exact nofun) (List.cons_prefix_cons.mpr ⟨rfl, hpre⟩)
        (fun heq => hne (List.cons.inj heq).2)
      exact hplace hdir
    . exact (List.cons.inj (hnotAbove hdata (List.cons_prefix_cons.mpr ⟨rfl, hpre⟩))).2.symm
  . intro q hpre hne
    rw [Bool.eq_false_iff]
    intro hfile'
    rcases isFile_iff.mp hfile' with ⟨data, hdata⟩
    by_cases hq : ∀ other ∈ written, q ≠ id :: other.1
    . rcases hs.rest q hq with heq | ⟨hnone, _⟩
      . exact hne (hnotAbove (heq.trans hdata) hpre)
      . rw [hdata] at hnone
        contradiction
    . simp only [not_forall, not_not] at hq
      rcases hq with ⟨other, hother, rfl⟩
      rcases hfile hother with ⟨data', hdata'⟩
      exact hne (hnotAbove hdata' hpre)
  . intro hdir
    by_cases hq : ∀ other ∈ written, id :: entry.1 ≠ id :: other.1
    . have hdir' : s.tree.node (id :: entry.1) = some .dir := by
        rcases hs.rest _ hq with heq | ⟨hnone, _⟩
        . rw [heq, hdir]
        . rw [hdir] at hnone
          contradiction
      rcases hmade.2 (id :: entry.1) with heq | ⟨hnone, _⟩
      . exact hplace (heq.trans hdir')
      . rw [hdir'] at hnone
        contradiction
    . simp only [not_forall, not_not] at hq
      rcases hq with ⟨other, hother, heq⟩
      exact hs.places other hother (heq ▸ hdir)

theorem Laid.step (hs : Laid t id written s) (h : Ends throws (writeEntry id entry) s .finished s') :
    Laid t id (written ++ [entry]) s' := by
  rcases writeEntry_finished h with ⟨s₁, hmade, _, _, hsame, hdata⟩
  constructor
  . intro p data hlast
    rw [lastAt_concat] at hlast
    split at hlast
    . next heq =>
      rw [← heq, hdata, Option.some.inj hlast]
    . next hne =>
      have hold := hs.files p data hlast
      rw [hsame _ fun heq => hne (List.cons.inj heq).2.symm]
      rcases hmade.2 (id :: p) with heq | ⟨hnone, _⟩
      . rw [heq, hold]
      . rw [hold] at hnone
        contradiction
  . intro q hq
    have hne := hq entry (by simp)
    have hold := hs.rest q fun other hother => hq other (List.mem_append_left _ hother)
    rw [hsame q hne]
    rcases hmade.2 q with heq | ⟨hnone, hnew, habove⟩
    . rw [heq]
      refine hold.imp_right fun ⟨hnone, hnew, other, hother, hpre⟩ => ⟨hnone, hnew, other, ?_, hpre⟩
      exact List.mem_append_left _ hother
    . refine .inr ⟨?_, hnew, entry, by simp, habove.1⟩
      rcases hold with heq | ⟨hnone, _⟩
      . rw [← heq, hnone]
      . exact hnone
  . intro other hother
    rcases List.mem_append.mp hother with hother | hother
    . exact hs.places other hother
    . rw [List.mem_singleton.mp hother]
      exact (hs.fit h).place

theorem Laid.finish (hs : Laid t id written s) (h : Fit t id written entry) :
    ∃ s', Ends throws (writeEntry id entry) s .finished s' := by
  -- what is above the entry or in its place is not one of the files already written
  have hnode {q : Path Text} (hq : q <+: id :: entry.1) :
      (∃ data, s.tree.node q = some (.file data) ∧ q = id :: entry.1) ∨ s.tree.node q = t.node q ∨
        t.node q = none ∧ s.tree.node q = some .dir ∧ ∃ other ∈ written, q <+: id :: other.1 ∧
          ∀ another ∈ written, q ≠ id :: another.1 := by
    by_cases hne : ∀ other ∈ written, q ≠ id :: other.1
    . refine .inr ((hs.rest q hne).imp_right fun ⟨hnone, hdir, other, hother, hpre⟩ => ?_)
      exact ⟨hnone, hdir, other, hother, hpre, hne⟩
    . simp only [not_forall, not_not] at hne
      rcases hne with ⟨other, hother, rfl⟩
      have heq := h.apart other hother (.inr (List.cons_prefix_cons.mp hq).2)
      rcases lastAt_of_mem hother with ⟨data, hlast⟩
      exact .inl ⟨data, hs.files _ _ hlast, by rw [heq]⟩
  have hopen : ∀ q ∈ levels [] (id :: entry.1).dropLast, isFile s.tree q = false := by
    intro q hq
    rcases above_iff.mp hq with ⟨hpre, hne⟩
    rcases hnode hpre with ⟨_, _, heq⟩ | heq | ⟨_, hdir, _⟩
    . exact absurd heq hne
    . have hfree := h.free q hpre hne
      unfold isFile at hfree ⊢
      rwa [heq]
    . simp [isFile, hdir]
  have hmk : ∃ s₁, Ends throws (mkdirSync (id :: entry.1).dropLast) s .finished s₁ :=
    mkdirs_finish rfl hopen
  rcases hmk with ⟨s₁, hmk⟩
  rcases mkdirs_made hmk with ⟨hmade, hdirs⟩
  have hparent : s₁.tree.hasParent (id :: entry.1) = true := by
    have hlast := hdirs rfl _ (mem_levels.mpr ⟨List.nil_prefix, List.prefix_rfl⟩)
    rw [List.nil_append] at hlast
    simp [Tree.hasParent, hlast]
  have hplace : s₁.tree.node (id :: entry.1) ≠ some .dir := by
    rcases hmade.2 (id :: entry.1) with heq | ⟨_, _, hmem⟩
    . rw [heq]
      rcases hnode List.prefix_rfl with ⟨data, hdata, _⟩ | heq | ⟨_, _, other, hother, hpre, hne⟩
      . simp [hdata]
      . rw [heq]
        exact h.place
      . have heq := h.apart other hother (.inl (List.cons_prefix_cons.mp hpre).2)
        exact absurd (by rw [heq]) (hne other hother)
    . exact absurd rfl (above_iff.mp hmem).2
  have hwrite : ∃ s₂, Ends throws (writeFileSync (id :: entry.1) entry.2) s₁ .finished s₂ :=
    writeFileSync_finishes hparent hplace
  rcases hwrite with ⟨s₂, hwrite⟩
  exact ⟨_, writeEntry_finish hmk hwrite⟩

theorem laid_init (t : Files) (id : Text) : Laid t id [] ⟨t, []⟩ where
  files _ _ h := nomatch h
  rest _ _ := .inl rfl
  places _ h := nomatch h

theorem Laid.run (hs : Laid t id written s)
    (h : Ends throws (.forEach entries (writeEntry id)) s .finished s') :
    Laid t id (written ++ entries) s' := by
  induction entries generalizing s written with
  | nil =>
    cases h
    rwa [List.append_nil]
  | cons entry entries ih =>
    cases h with
    | seq hentry hrest =>
      have hrest := ih (hs.step hentry) hrest
      rwa [List.append_assoc, List.singleton_append] at hrest

/-- Each entry fits with those written before it, just when no two of them and no file are in the way. -/
theorem Laid.finishes_iff (hs : Laid t id written s) :
    (∃ s', Ends throws (.forEach entries (writeEntry id)) s .finished s') ↔
      ∀ before entry after, entries = before ++ entry :: after → Fit t id (written ++ before) entry := by
  induction entries generalizing s written with
  | nil =>
    refine ⟨fun _ before entry after h => ?_, fun _ => ⟨s, .done⟩⟩
    simp at h
  | cons first entries ih =>
    constructor
    . rintro ⟨s', h⟩
      cases h with
      | seq hfirst hrest =>
        intro before entry after heq
        cases before with
        | nil =>
          rw [List.nil_append, List.cons.injEq] at heq
          rw [List.append_nil, ← heq.1]
          exact hs.fit hfirst
        | cons first' before =>
          rw [List.cons_append, List.cons.injEq] at heq
          have hfit := (ih (hs.step hfirst)).mp ⟨s', hrest⟩ before entry after heq.2
          rwa [List.append_assoc, List.singleton_append, heq.1] at hfit
    . intro hall
      have hfirst := hall [] first entries rfl
      rw [List.append_nil] at hfirst
      rcases hs.finish hfirst with ⟨s₁, hfirst⟩
      have hrest : ∃ s', Ends throws (.forEach entries (writeEntry id)) s₁ .finished s' := by
        refine (ih (hs.step hfirst)).mpr fun before entry after heq => ?_
        have hfit := hall (first :: before) entry after (by rw [heq, List.cons_append])
        rwa [List.append_assoc, List.singleton_append]
      rcases hrest with ⟨s', hrest⟩
      exact ⟨s', .seq hfirst hrest⟩

theorem fits_iff :
    (∀ before entry after, entries = before ++ entry :: after → Fit t id before entry) ↔
      Fits t id entries := by
  constructor
  . intro hall
    constructor
    . intro entry hentry other hother hpre
      rcases List.append_of_mem hother with ⟨before, after, heq⟩
      rw [heq, List.mem_append, List.mem_cons] at hentry
      rcases hentry with hentry | rfl | hentry
      . exact ((hall _ _ _ heq).apart entry hentry (.inr hpre)).symm
      . rfl
      . rcases List.append_of_mem hentry with ⟨between, rest, rfl⟩
        exact (hall (before ++ other :: between) entry rest (by simp [heq])).apart other (by simp) (.inl hpre)
    . intro entry hentry
      rcases List.append_of_mem hentry with ⟨before, after, heq⟩
      exact (hall _ _ _ heq).free
    . intro entry hentry
      rcases List.append_of_mem hentry with ⟨before, after, heq⟩
      exact (hall _ _ _ heq).place
  . intro h before entry after heq
    have hentry : entry ∈ entries := by simp [heq]
    constructor
    . intro other hother hpre
      have hother : other ∈ entries := by simp [heq, hother]
      rcases hpre with hpre | hpre
      . exact h.apart entry hentry other hother hpre
      . exact (h.apart other hother entry hentry hpre).symm
    . exact h.free entry hentry
    . exact h.place entry hentry

theorem finishes_iff_fits :
    (∃ s', Ends throws (.forEach entries (writeEntry id)) ⟨t, []⟩ .finished s') ↔ Fits t id entries :=
  (laid_init t id).finishes_iff.trans fits_iff

/-- Beside the files of the entries at most directories are new, however the writing ends. -/
def Framed (id : Text) (entries : Package) (s s' : State) : Prop :=
  (∀ q, (∀ entry ∈ entries, q ≠ id :: entry.1) → s'.tree.node q = s.tree.node q ∨
    s.tree.node q = none ∧ s'.tree.node q = some .dir) ∧
  ∀ dest ∈ s'.written, dest ∈ s.written ∨ ∃ entry ∈ entries, dest = id :: entry.1

theorem framed_of_made {P : Path Text → Prop} (h : Made s s' P) : Framed id entries s s' :=
  ⟨fun q _ => (h.2 q).imp_right fun hnew => ⟨hnew.1, hnew.2.1⟩, fun _ hdest => .inl (h.1 ▸ hdest)⟩

theorem Framed.wrote {s₁ : State} (h : Framed id entries s s₁) (hentry : entry ∈ entries)
    (hwrote : Wrote (id :: entry.1) s₁ s') : Framed id entries s s' := by
  refine ⟨fun q hq => ?_, fun dest hdest => h.2 dest (hwrote.1 ▸ hdest)⟩
  rw [hwrote.2.1 q (hq entry hentry)]
  exact h.1 q hq

theorem writeEntry_framed (hentry : entry ∈ entries) (h : Ends throws (writeEntry id entry) s o s') :
    Framed id entries s s' := by
  rcases writeEntry_cases h with ⟨hmk, _⟩ | ⟨s₁, hmk, ⟨hwrite, _⟩ | ⟨s₂, hwrite, rfl⟩⟩
  . exact framed_of_made (mkdirs_made hmk).1
  . exact (framed_of_made (mkdirs_made hmk).1).wrote hentry (writeFileSync_wrote hwrite).1
  . have hframed : Framed id entries s s₂ :=
      (framed_of_made (mkdirs_made hmk).1).wrote hentry (writeFileSync_wrote hwrite).1
    refine ⟨hframed.1, fun dest hdest => ?_⟩
    rcases List.mem_append.mp hdest with hdest | hdest
    . exact hframed.2 dest hdest
    . exact .inr ⟨entry, hentry, List.mem_singleton.mp hdest⟩

theorem Framed.trans {s₁ : State} (h : Framed id entries s s₁) (h' : Framed id entries s₁ s') :
    Framed id entries s s' := by
  constructor
  . intro q hq
    rcases h'.1 q hq with heq | ⟨hnone, hdir⟩
    . rw [heq]
      exact h.1 q hq
    . rcases h.1 q hq with heq | ⟨hnone', _⟩
      . exact .inr ⟨heq ▸ hnone, hdir⟩
      . exact .inr ⟨hnone', hdir⟩
  . intro dest hdest
    rcases h'.2 dest hdest with hdest | hdest
    . exact h.2 dest hdest
    . exact .inr hdest

theorem writeEntries_framed {rest : Package} (hsub : rest ⊆ entries)
    (h : Ends throws (.forEach rest (writeEntry id)) s o s') : Framed id entries s s' := by
  induction rest generalizing s with
  | nil =>
    cases h
    exact ⟨fun _ _ => .inl rfl, fun _ => .inl⟩
  | cons entry rest ih =>
    rw [List.cons_subset] at hsub
    cases h with
    | seq hentry hrest => exact (writeEntry_framed hsub.1 hentry).trans (ih hsub.2 hrest)
    | seqThrown hentry => exact writeEntry_framed hsub.1 hentry

end Write

/-! ### What the archive is read as -/

def relPathOf (root : Text) (e : ZipEntry) : Text := e.entryName.drop root.length

/-- The files written, by the components of their names below the root. -/
def placed (inflateRawSync : Bytes → Nat → Option Bytes) (limits : PackageLimits) (root : Text)
    (files : List ZipEntry) : Package :=
  (files.filter fun e => !(relPathOf root e).isEmpty).map fun e =>
    (components true (relPathOf root e), (readEntryData inflateRawSync e limits.maxTotalBytes).getD [])

section Read

variable {inflateRawSync : Bytes → Nat → Option Bytes} {limits : PackageLimits} {root : Text}
  {files : List ZipEntry} {entries : List Entry} {pkg : ParsedPackage} {α β : Type}

theorem bind_ok {x : Except String α} {f : α → Except String β} {b : β} (h : x >>= f = .ok b) :
    ∃ a, x = .ok a ∧ f a = .ok b := by
  cases x with
  | error e => contradiction
  | ok a => exact ⟨a, rfl, h⟩

theorem ensure_ok {b : Bool} {message : String} {u : Unit} (h : ensure b message = .ok u) : b = true := by
  unfold ensure at h
  split at h
  . assumption
  . contradiction

theorem orThrow_ok {x : Option α} {message : String} {a : α} (h : orThrow x message = .ok a) :
    x = some a := by
  unfold orThrow at h
  split at h
  . rw [Except.ok.injEq] at h
    rw [h]
  . contradiction

/-- What the loop returns, of names that are all safe. -/
structure Read (inflateRawSync : Bytes → Nat → Option Bytes) (limits : PackageLimits) (root : Text)
    (files : List ZipEntry) (actualBytes : Nat) (entries : List Entry) : Prop where
  safe : ∀ e ∈ files, relPathOf root e ≠ [] → Safe (relPathOf root e)
  entries_eq : entries = (files.filter fun e => !(relPathOf root e).isEmpty).map fun e =>
    ⟨normalize (relPathOf root e), (readEntryData inflateRawSync e limits.maxTotalBytes).getD []⟩
  bytes : entries = [] ∨ actualBytes + (entries.map (·.data.length)).sum ≤ limits.maxTotalBytes

theorem readEntries_ok {actualBytes : Nat}
    (h : readEntries inflateRawSync limits root files actualBytes = .ok entries) :
    Read inflateRawSync limits root files actualBytes entries := by
  induction files generalizing actualBytes entries with
  | nil =>
    rw [readEntries, Except.ok.injEq] at h
    subst h
    exact ⟨nofun, rfl, .inl rfl⟩
  | cons e files ih =>
    unfold readEntries at h
    dsimp only at h
    split at h
    . next hempty =>
      have hnil : relPathOf root e = [] := List.isEmpty_iff.mp hempty
      have hrest := ih h
      refine ⟨fun e' he' hne => ?_, ?_, hrest.bytes⟩
      . rcases List.mem_cons.mp he' with rfl | he'
        . contradiction
        . exact hrest.safe e' he' hne
      . rw [List.filter_cons_of_neg (by simp [hnil])]
        exact hrest.entries_eq
    . next hempty =>
      rcases bind_ok h with ⟨_, hsafe, h⟩
      rcases bind_ok h with ⟨data, hdata, h⟩
      rcases bind_ok h with ⟨_, hbytes, h⟩
      rcases bind_ok h with ⟨rest, hreads, h⟩
      have hsafe := ensure_ok hsafe
      have hdata := orThrow_ok hdata
      have hbytes := of_decide_eq_true (ensure_ok hbytes)
      have hrest := ih hreads
      rw [Except.ok.injEq] at h
      subst h
      have hne : relPathOf root e ≠ [] := by
        intro hnil
        exact hempty (List.isEmpty_iff.mpr hnil)
      constructor
      . intro e' he' hne'
        rcases List.mem_cons.mp he' with rfl | he'
        . simp only [Bool.not_eq_true', Bool.or_eq_false_iff] at hsafe
          refine ⟨hne, hsafe.2, fun hpre => ?_⟩
          have hpre' := List.isPrefixOf_iff_prefix.mpr hpre
          rw [relPathOf, hsafe.1.2] at hpre'
          contradiction
        . exact hrest.safe e' he' hne'
      . rw [List.filter_cons_of_pos (by simp [hne]), List.map_cons, ← hrest.entries_eq, hdata]
        rfl
      . right
        rcases hrest.bytes with rfl | hsum
        . simpa using hbytes
        . simp only [List.map_cons, List.sum_cons]
          omega

theorem forM_ok {f : α → Except String Unit} {l : List α} {u : Unit} (h : l.forM f = .ok u) :
    ∀ a ∈ l, f a = .ok () := by
  induction l with
  | nil => exact nofun
  | cons a l ih =>
    have hcons : (f a >>= fun _ => l.forM f) = .ok u := h
    rcases bind_ok hcons with ⟨_, ha, hrest⟩
    intro b hb
    rcases List.mem_cons.mp hb with rfl | hb
    . exact ha
    . exact ih hrest b hb

theorem field_ne_nil {manifest : Fields} {name : String} (h : (stringField manifest name).isSome = true) :
    field manifest name ≠ [] := by
  unfold field
  unfold stringField at h ⊢
  split
  . next s _ =>
    split
    . simp_all
    . next hne => simpa using hne
  . simp_all

theorem validatePluginManifest_ok {parsed : Json} {manifest : Fields}
    (h : validatePluginManifest parsed = .ok manifest) :
    parsed = .object manifest ∧ field manifest "main" ≠ [] := by
  unfold validatePluginManifest at h
  split at h
  . next m =>
    rcases bind_ok h with ⟨_, hfields, h⟩
    rcases bind_ok h with ⟨_, _, h⟩
    rcases bind_ok h with ⟨_, _, h⟩
    rcases bind_ok h with ⟨_, _, h⟩
    rcases bind_ok h with ⟨_, _, h⟩
    rw [Except.ok.injEq] at h
    subst h
    exact ⟨rfl, field_ne_nil (ensure_ok (forM_ok hfields "main" (by simp [requiredFields])))⟩
  . contradiction

/-- What is known of an archive that was accepted. -/
structure Parsed (inflateRawSync : Bytes → Nat → Option Bytes) (limits : PackageLimits)
    (files : List ZipEntry) (pkg : ParsedPackage) (entry : ZipEntry) : Prop where
  shallowest : manifestEntry files = some entry
  manifest : (readEntryData inflateRawSync entry limits.maxTotalBytes).bind parseManifest =
    some (.object pkg.manifest)
  main : field pkg.manifest "main" ≠ []
  read : Read inflateRawSync limits (rootOf entry) (packaged (rootOf entry) files) 0 pkg.entries
  hasMain : ∃ en ∈ pkg.entries, en.relPath = normalize (field pkg.manifest "main")

theorem parsePluginPackage_ok {archive : Option (List ZipEntry)}
    (h : parsePluginPackage inflateRawSync archive limits = .ok pkg) :
    ∃ all entry, archive = some all ∧
      Parsed inflateRawSync limits (all.filter (!·.isDirectory)) pkg entry := by
  rcases bind_ok h with ⟨all, hall, h⟩
  rcases bind_ok h with ⟨_, _, h⟩
  rcases bind_ok h with ⟨_, _, h⟩
  rcases bind_ok h with ⟨entry, hentry, h⟩
  rcases bind_ok h with ⟨raw, hraw, h⟩
  rcases bind_ok h with ⟨parsed, hparsed, h⟩
  rcases bind_ok h with ⟨manifest, hmanifest, h⟩
  rcases bind_ok h with ⟨_, _, h⟩
  rcases bind_ok h with ⟨entries, hentries, h⟩
  rcases bind_ok h with ⟨_, hmain, h⟩
  rw [Except.ok.injEq] at h
  subst h
  rcases validatePluginManifest_ok hmanifest with ⟨rfl, hne⟩
  refine ⟨all, entry, orThrow_ok hall, orThrow_ok hentry, ?_, hne, readEntries_ok hentries, ?_⟩
  . rw [orThrow_ok hraw]
    exact orThrow_ok hparsed
  . rcases List.any_eq_true.mp (ensure_ok hmain) with ⟨en, hen, heq⟩
    exact ⟨en, hen, of_decide_eq_true heq⟩

end Read

/-! ### The package that was validated -/

/-- Only what lies strictly inside the directory is touched, but for directories on the way to it. -/
def Within (id : Text) (t : Files) (s : State) : Prop :=
  (∀ q, ¬ ([id] <+: q ∧ q ≠ [id]) → s.tree.node q = t.node q ∨
    t.node q = none ∧ s.tree.node q = some .dir) ∧
  ∀ dest ∈ s.written, [id] <+: dest ∧ dest ≠ [id]

def manifestPath : Path Text := ["manifest.json".toList]

/-- The manifest that was validated lies in the directory, and a file where it says `main`. -/
structure Installed (id : Text) (manifest : Fields) (s : State) : Prop where
  manifestFile : ∃ data, s.tree.node (id :: manifestPath) = some (.file data) ∧
    parseManifest data = some (.object manifest)
  mainFile : ∃ data, s.tree.node (joinBelow [id] (field manifest "main")) = some (.file data)

structure Installs (limits : PackageLimits) (id : Text) (t : Files) (pkg : ParsedPackage) : Prop where
  finishes : ∃ s, Ends throws (writeEntries id pkg.entries) ⟨t, []⟩ .finished s
  within : ∀ o s, Ends throws (writeEntries id pkg.entries) ⟨t, []⟩ o s → Within id t s
  installed : ∀ s, Ends throws (writeEntries id pkg.entries) ⟨t, []⟩ .finished s →
    Installed id pkg.manifest s
  bytes : (pkg.entries.map (·.data.length)).sum ≤ limits.maxTotalBytes

def fileAt (t : Files) (p : Path Text) : Option Bytes :=
  match t.node p with
  | some (.file data) => some data
  | _ => none

/-- The files fit together and into what is there, and the last that comes to lie at `manifest.json`, or for
want of one what lies there, reads as the entry that was validated. -/
def Coherent (inflateRawSync : Bytes → Nat → Option Bytes) (limits : PackageLimits) (id : Text) (t : Files)
    (files : List ZipEntry) (entry : ZipEntry) : Prop :=
  let root := rootOf entry
  let package := placed inflateRawSync limits root (packaged root files)
  (∀ e ∈ packaged root files, endsWithSlash (relPathOf root e) = false) ∧ Fits t id package ∧
    ∃ data, (lastAt package manifestPath).or (fileAt t (id :: manifestPath)) = some data ∧
      parseManifest data = (readEntryData inflateRawSync entry limits.maxTotalBytes).bind parseManifest

section Installation

variable {inflateRawSync : Bytes → Nat → Option Bytes} {limits : PackageLimits} {root id : Text}
  {files : List ZipEntry} {entries : List Entry} {pkg : ParsedPackage} {t : Files} {s s' : State}
  {entry : ZipEntry} {n : Nat}

/-- Every file is written where its name leads, or the path ends in a slash. -/
theorem writeEntries_eq (h : Read inflateRawSync limits root files n entries)
    (hslash : ∀ e ∈ files, endsWithSlash (relPathOf root e) = false) :
    writeEntries id entries = .forEach (placed inflateRawSync limits root files) (writeEntry id) := by
  have hbody : ∀ l : List ZipEntry, (∀ e ∈ l, Safe (relPathOf root e)) →
      (∀ e ∈ l, endsWithSlash (relPathOf root e) = false) →
      writeEntries id (l.map fun e =>
        ⟨normalize (relPathOf root e), (readEntryData inflateRawSync e limits.maxTotalBytes).getD []⟩) =
      .forEach (l.map fun e => (components true (relPathOf root e),
        (readEntryData inflateRawSync e limits.maxTotalBytes).getD [])) (writeEntry id) := by
    intro l hsafe hslash
    induction l with
    | nil => rfl
    | cons e l ih =>
      have he := hsafe e List.mem_cons_self
      have hrest := ih (fun e h => hsafe e (List.mem_cons_of_mem _ h))
        fun e h => hslash e (List.mem_cons_of_mem _ h)
      unfold writeEntries at hrest ⊢
      simp only [List.map_cons, Prog.forEach, hrest, he.joinBelow_normalize, he.endsWithSlash_normalize,
        hslash e List.mem_cons_self, Bool.false_eq_true, if_false, List.singleton_append]
      rfl
  rw [h.entries_eq]
  exact hbody _ (fun e he => h.safe e (List.mem_filter.mp he).1 (by simpa using (List.mem_filter.mp he).2))
    fun e he => hslash e (List.mem_filter.mp he).1

theorem forEach_finished {α : Type} {l : List α} {f : α → Cmd}
    (h : Ends throws (.forEach l f) s .finished s') : ∀ a ∈ l, ∃ s₁ s₂, Ends throws (f a) s₁ .finished s₂ := by
  induction l generalizing s with
  | nil => exact nofun
  | cons a l ih =>
    cases h with
    | seq ha hrest =>
      intro b hb
      rcases List.mem_cons.mp hb with rfl | hb
      . exact ⟨_, _, ha⟩
      . exact ih hrest b hb

/-- No path that ends in a slash could be written. -/
theorem no_slash_of_finished (h : Read inflateRawSync limits root files n entries)
    (hends : Ends throws (writeEntries id entries) s .finished s') :
    ∀ e ∈ files, endsWithSlash (relPathOf root e) = false := by
  intro e he
  by_cases hnil : relPathOf root e = []
  . rw [hnil]
    rfl
  . have hsafe := h.safe e he hnil
    rw [← hsafe.endsWithSlash_normalize, Bool.eq_false_iff]
    intro hslash
    have hmem : (⟨normalize (relPathOf root e),
        (readEntryData inflateRawSync e limits.maxTotalBytes).getD []⟩ : Entry) ∈ entries := by
      rw [h.entries_eq, List.mem_map]
      exact ⟨e, List.mem_filter.mpr ⟨he, by simpa using hnil⟩, rfl⟩
    rcases forEach_finished hends _ hmem with ⟨s₁, s₂, hbody⟩
    dsimp only at hbody
    rw [if_pos hslash] at hbody
    cases hbody with
    | seq _ hrest =>
      cases hrest with
      | seq hraise _ => cases hraise

theorem bytes_of_read (h : Read inflateRawSync limits root files 0 entries) :
    (entries.map (·.data.length)).sum ≤ limits.maxTotalBytes := by
  rcases h.bytes with rfl | hsum
  . exact Nat.zero_le _
  . omega

theorem mem_of_lastAt {package : Package} {p : Path Text} {data : Bytes} (h : lastAt package p = some data) :
    ∃ entry ∈ package, entry.1 = p := by
  rcases Option.map_eq_some_iff.mp h with ⟨entry, hfind, _⟩
  have hp := List.find?_some hfind
  exact ⟨entry, List.mem_reverse.mp (List.mem_of_find?_eq_some hfind), of_decide_eq_true hp⟩

theorem mainFile_of_laid (h : Parsed inflateRawSync limits files pkg entry)
    (hs : Laid t id (placed inflateRawSync limits (rootOf entry) (packaged (rootOf entry) files)) s) :
    ∃ data, s.tree.node (joinBelow [id] (field pkg.manifest "main")) = some (.file data) := by
  rcases h.hasMain with ⟨en, hen, hmain⟩
  rw [h.read.entries_eq, List.mem_map] at hen
  rcases hen with ⟨e, he, rfl⟩
  have hmem := List.mem_filter.mp he
  have hsafe := h.read.safe e hmem.1 (by simpa using hmem.2)
  -- the manifest's own path is safe because its normal form is that of an entry
  have hsafeMain : Safe (field pkg.manifest "main") :=
    ⟨h.main, hmain ▸ hsafe.relative, hmain ▸ hsafe.down⟩
  have heq : components true (field pkg.manifest "main") =
      components true (relPathOf (rootOf entry) e) := by
    have hjoin := hsafeMain.joinBelow_normalize []
    rw [← hmain] at hjoin
    exact (hjoin.symm.trans (hsafe.joinBelow_normalize []))
  have hplaced : (components true (relPathOf (rootOf entry) e),
      (readEntryData inflateRawSync e limits.maxTotalBytes).getD []) ∈
      placed inflateRawSync limits (rootOf entry) (packaged (rootOf entry) files) :=
    List.mem_map.mpr ⟨e, he, rfl⟩
  rcases lastAt_of_mem hplaced with ⟨data, hlast⟩
  refine ⟨data, ?_⟩
  rw [hsafeMain.joinBelow_eq, heq]
  exact hs.files _ _ hlast

theorem within_of_framed {package : Package} (h : Framed id package ⟨t, []⟩ s)
    (hne : ∀ entry ∈ package, entry.1 ≠ []) : Within id t s := by
  constructor
  . intro q hq
    refine h.1 q fun entry hentry heq => hq ?_
    subst heq
    exact ⟨List.cons_prefix_cons.mpr ⟨rfl, List.nil_prefix⟩, fun heq => hne entry hentry (List.cons.inj heq).2⟩
  . intro dest hdest
    rcases h.2 dest hdest with hnone | ⟨entry, hentry, rfl⟩
    . contradiction
    . exact ⟨List.cons_prefix_cons.mpr ⟨rfl, List.nil_prefix⟩,
        fun heq => hne entry hentry (List.cons.inj heq).2⟩

theorem fileAt_eq {p : Path Text} {data : Bytes} : fileAt t p = some data ↔ t.node p = some (.file data) := by
  unfold fileAt
  split <;> simp_all

/-- The manifest that lies there once the files have been written. -/
theorem Laid.manifest {package : Package} {data : Bytes} (hs : Laid t id package s) :
    s.tree.node (id :: manifestPath) = some (.file data) ↔
      (lastAt package manifestPath).or (fileAt t (id :: manifestPath)) = some data := by
  cases hlast : lastAt package manifestPath with
  | some last =>
    rw [hs.files _ _ hlast]
    simp
  | none =>
    rw [Option.none_or, fileAt_eq]
    have hnot : ∀ entry ∈ package, id :: manifestPath ≠ id :: entry.1 := by
      intro entry hentry heq
      rcases lastAt_of_mem hentry with ⟨data, hdata⟩
      rw [← (List.cons.inj heq).2, hlast] at hdata
      contradiction
    rcases hs.rest _ hnot with heq | ⟨hnone, hdir, _⟩
    . rw [heq]
    . rw [hnone, hdir]
      simp

/-- With a manifest in it the directory is no file of the package. -/
theorem Fits.ne_nil {package : Package} {data : Bytes} (h : Fits t id package)
    (hmanifest : (lastAt package manifestPath).or (fileAt t (id :: manifestPath)) = some data) :
    ∀ entry ∈ package, entry.1 ≠ [] := by
  intro entry hentry hnil
  rcases Option.or_eq_some_iff.mp hmanifest with hlast | ⟨_, hfile⟩
  . rcases mem_of_lastAt hlast with ⟨other, hother, heq⟩
    have happart := h.apart entry hentry other hother (hnil ▸ List.nil_prefix)
    rw [hnil, heq] at happart
    contradiction
  . have hsome : t.node ([id] ++ manifestPath) ≠ none := by
      rw [List.singleton_append, fileAt_eq.mp hfile]
      exact nofun
    exact h.place entry hentry (hnil ▸ t.closed [id] _ hsome)

theorem Parsed.coherent (h : Parsed inflateRawSync limits files pkg entry)
    (hinstalls : Installs limits id t pkg) : Coherent inflateRawSync limits id t files entry := by
  rcases hinstalls.finishes with ⟨s, hs⟩
  have hslash := no_slash_of_finished h.read hs
  rcases (hinstalls.installed s hs).manifestFile with ⟨data, hnode, hparse⟩
  rw [writeEntries_eq h.read hslash] at hs
  have hlaid := (laid_init t id).run hs
  rw [List.nil_append] at hlaid
  exact ⟨hslash, finishes_iff_fits.mp ⟨s, hs⟩, data, hlaid.manifest.mp hnode, hparse.trans h.manifest.symm⟩

theorem Parsed.installs (h : Parsed inflateRawSync limits files pkg entry)
    (hcoherent : Coherent inflateRawSync limits id t files entry) : Installs limits id t pkg := by
  rcases hcoherent with ⟨hslash, hfits, data, hlast, hparse⟩
  rw [h.manifest] at hparse
  have hwrite : writeEntries id pkg.entries = .forEach (placed inflateRawSync limits (rootOf entry)
      (packaged (rootOf entry) files)) (writeEntry id) := writeEntries_eq h.read hslash
  constructor
  . rw [hwrite]
    exact finishes_iff_fits.mpr hfits
  . intro o s hs
    rw [hwrite] at hs
    exact within_of_framed (writeEntries_framed (List.Subset.refl _) hs) (hfits.ne_nil hlast)
  . intro s hs
    rw [hwrite] at hs
    have hlaid := (laid_init t id).run hs
    rw [List.nil_append] at hlaid
    exact ⟨⟨data, hlaid.manifest.mpr hlast, hparse⟩, mainFile_of_laid h hlaid⟩
  . exact bytes_of_read h.read

/-- Writing an accepted archive installs the package that was validated just when its files fit and the
manifest that comes to lie there reads as that one. -/
theorem installs_iff_coherent (t : Files) (id : Text) {archive : List ZipEntry} {entry : ZipEntry}
    (h : parsePluginPackage inflateRawSync (some archive) limits = .ok pkg)
    (hentry : manifestEntry (archive.filter (!·.isDirectory)) = some entry) :
    Installs limits id t pkg ↔
      Coherent inflateRawSync limits id t (archive.filter (!·.isDirectory)) entry := by
  rcases parsePluginPackage_ok h with ⟨all, entry', hall, hparsed⟩
  obtain rfl := Option.some.inj hall
  obtain rfl := Option.some.inj (hentry.symm.trans hparsed.shallowest)
  exact ⟨hparsed.coherent, hparsed.installs⟩

/-- A file of the archive as it is stored. -/
def stored (name : String) (data : Text) : ZipEntry :=
  ⟨name.toList, false, data.length, data.length, data.map fun c => UInt8.ofNat c.toNat,
    some (data.map fun c => UInt8.ofNat c.toNat)⟩

def manifestFields (id : String) : Fields :=
  .cons "id" (.string id) (.cons "name" (.string "p") (.cons "version" (.string "1")
    (.cons "type" (.string "extension") (.cons "main" (.string "m") .nil))))

def manifestText (id : String) : Text := stringify (.object (manifestFields id))

/-- A package in a folder of its own. -/
def plainArchive : List ZipEntry :=
  [stored "p/manifest.json" (manifestText "a"), stored "p/m" ['1']]

/-- One more name for the manifest comes after it. -/
def aliasedArchive : List ZipEntry :=
  [stored "manifest.json" (manifestText "a"), stored "m" ['1'],
    stored "./manifest.json" (manifestText "b")]

def packageOf (archive : List ZipEntry) : ParsedPackage :=
  (parsePluginPackage (fun _ _ => none) (some archive) defaultPackageLimits).toOption.getD ⟨.nil, []⟩

theorem parse_packageOf {archive : List ZipEntry}
    (h : (packageOf archive).entries ≠ []) :
    parsePluginPackage (fun _ _ => none) (some archive) defaultPackageLimits = .ok (packageOf archive) := by
  unfold packageOf at h ⊢
  cases hparse : parsePluginPackage (fun _ _ => none) (some archive) defaultPackageLimits with
  | error message =>
    rw [hparse] at h
    contradiction
  | ok pkg => rfl

theorem installs_iff_coherent_plainArchive :
    Installs defaultPackageLimits "a".toList .empty (packageOf plainArchive) ↔
      Coherent (fun _ _ => none) defaultPackageLimits "a".toList .empty plainArchive
        (stored "p/manifest.json" (manifestText "a")) :=
  installs_iff_coherent .empty "a".toList (parse_packageOf (by decide +kernel)) (by decide +kernel)

/-- The manifest of the plugin `a` is validated and that of `b` is what lies in its directory. -/
theorem alias_replaces_manifest :
    parsePluginPackage (fun _ _ => none) (some aliasedArchive) defaultPackageLimits =
        .ok (packageOf aliasedArchive) ∧
      (packageOf aliasedArchive).manifest = manifestFields "a" ∧
      ¬ Installs defaultPackageLimits "a".toList .empty (packageOf aliasedArchive) := by
  have hparse : parsePluginPackage (fun _ _ => none) (some aliasedArchive) defaultPackageLimits =
      .ok (packageOf aliasedArchive) := parse_packageOf (by decide +kernel)
  refine ⟨hparse, by decide +kernel, fun hinstalls => ?_⟩
  rcases parsePluginPackage_ok hparse with ⟨all, entry, hall, hparsed⟩
  obtain rfl := Option.some.inj hall
  have hentry : manifestEntry (aliasedArchive.filter (!·.isDirectory)) =
      some (stored "manifest.json" (manifestText "a")) := by decide +kernel
  obtain rfl := Option.some.inj (hparsed.shallowest.symm.trans hentry)
  rcases hparsed.coherent hinstalls with ⟨_, _, data, hlast, hdata⟩
  have hwritten : parseManifest data ≠ some (.object (manifestFields "a")) := by
    have hlaid : ((lastAt (placed (fun _ _ => none) defaultPackageLimits
        (rootOf (stored "manifest.json" (manifestText "a")))
        (packaged (rootOf (stored "manifest.json" (manifestText "a")))
          (aliasedArchive.filter (!·.isDirectory)))) manifestPath).or
        (fileAt .empty ("a".toList :: manifestPath))).map parseManifest ≠
          some (some (.object (manifestFields "a"))) := by decide +kernel
    rw [hlast] at hlaid
    exact fun heq => hlaid (congrArg some heq)
  have hread : (readEntryData (fun _ _ => none) (stored "manifest.json" (manifestText "a"))
      defaultPackageLimits.maxTotalBytes).bind parseManifest = some (.object (manifestFields "a")) := by
    decide +kernel
  exact hwritten (hdata.trans hread)

end Installation
end OpenWA.PluginPackage
