import OpenWA.Storage.Service
import OpenWA.Storage.Transfer

/-!
This module proves that a store which is exported and then imported elsewhere is all there: each file that
the export came to reads in the other store as it did in the first, and no other file has changed.
-/

namespace OpenWA.Storage

open Async Disk Js

/-! ### What an export has taken -/

section Export

variable {read : Text → Option Content} {files : List Text} {s s' : Export} {e : ExportEvent}

/-- The files do not change, and one that can be read is opened with all it holds. -/
def Faithful (read : Text → Option Content) (s : Export) (e : ExportEvent) : Prop :=
  match e with
  | .opened source => ∀ file ∈ s.files.head?, read file = source.map (·.2)
  | _ => True

instance (read : Text → Option Content) (s : Export) (e : ExportEvent) : Decidable (Faithful read s e) :=
  match e with
  | .opened _ => inferInstanceAs (Decidable (∀ _ ∈ _, _))
  | .chunk _ | .ended | .failed | .finalize => inferInstanceAs (Decidable True)

structure Export.Sound (read : Text → Option Content) (files : List Text) (s : Export) : Prop where
  order : (s.archive.map (·.1) ++ s.appending.toList.map (·.file) ++ s.files).Sublist files
  archived : ∀ entry ∈ s.archive, read entry.1 = some entry.2
  appending : ∀ a ∈ s.appending, read a.file = some (a.seen ++ a.unread)
  -- no file that can be read is passed over
  covered : s.destroyed = false → ∀ file ∈ files, ∀ data, read file = some data →
    file ∈ s.files ∨ file ∈ s.appending.toList.map (·.file) ∨ file ∈ s.archive.map (·.1)
  finalized : s.finalized = true → s.files = [] ∧ s.appending = none ∧ s.destroyed = false

namespace Export

theorem sound_start (read : Text → Option Content) (files : List Text) :
    (Export.start files).Sound read files where
  order := List.Sublist.refl _
  archived := by simp [Export.start]
  appending := by simp [Export.start]
  covered _ file hfile _ _ := .inl hfile
  finalized h := by simp [Export.start] at h

namespace Sound

variable (h : s.Sound read files)
include h

theorem destroy (hfinalized : s.finalized = false) : s.destroy.Sound read files where
  order := by
    refine List.Sublist.trans ?_ h.order
    simp only [Export.destroy, Option.toList_none, List.map_nil, List.append_nil]
    exact ((List.sublist_append_left _ _).append (List.Sublist.refl _))
  archived := h.archived
  appending := by simp [Export.destroy]
  covered := by simp [Export.destroy]
  finalized hfinal := by simp [Export.destroy, hfinalized] at hfinal

/-- A file that cannot be read is skipped. -/
theorem unopened {file : Text} {rest : List Text} (hfiles : s.files = file :: rest)
    (happending : s.appending = none) (hfinalized : s.finalized = false) (hread : read file = none) :
    Export.Sound read files { s with files := rest, skipped := s.skipped ++ [file] } := by
  have horder := h.order
  rw [happending, hfiles] at horder
  refine ⟨?_, h.archived, h.appending, ?_, fun hfinal => by simp [hfinalized] at hfinal⟩
  . rw [happending]
    refine List.Sublist.trans ?_ horder
    exact (List.Sublist.refl _).append (List.sublist_cons_self _ _)
  . intro hdestroyed f hf data hdata
    rcases h.covered hdestroyed f hf data hdata with hin | hin | hin
    . rw [hfiles] at hin
      rcases List.mem_cons.mp hin with rfl | hin
      . rw [hread] at hdata
        contradiction
      . exact .inl hin
    . exact .inr (.inl hin)
    . exact .inr (.inr hin)

theorem opened {file : Text} {rest : List Text} {size : Option Nat} {content : Content}
    (hfiles : s.files = file :: rest) (happending : s.appending = none) (hfinalized : s.finalized = false)
    (hread : read file = some content) :
    Export.Sound read files { s with files := rest, appending := some ⟨file, size, [], content⟩ } := by
  have horder := h.order
  rw [happending, hfiles] at horder
  refine ⟨by simpa using horder, h.archived, ?_, ?_, fun hfinal => by simp [hfinalized] at hfinal⟩
  . intro a ha
    rw [Option.mem_def, Option.some.injEq] at ha
    subst ha
    simpa using hread
  . intro hdestroyed f hf data hdata
    rcases h.covered hdestroyed f hf data hdata with hin | hin | hin
    . rw [hfiles] at hin
      rcases List.mem_cons.mp hin with rfl | hin
      . exact .inr (.inl (by simp))
      . exact .inl hin
    . simp [happending] at hin
    . exact .inr (.inr hin)

theorem chunk {a : Appending} (happending : s.appending = some a) (hfinalized : s.finalized = false)
    (n : Nat) :
    Export.Sound read files
      { s with appending := some { a with seen := a.seen ++ a.unread.take n, unread := a.unread.drop n } } where
  order := by simpa [happending] using h.order
  archived := h.archived
  appending b hb := by
    rw [Option.mem_def, Option.some.injEq] at hb
    subst hb
    simpa using h.appending a happending
  covered hdestroyed := by simpa [happending] using h.covered hdestroyed
  finalized hfinal := by simp [hfinalized] at hfinal

theorem ended {a : Appending} (happending : s.appending = some a) (hfinalized : s.finalized = false)
    (hunread : a.unread = []) :
    Export.Sound read files { s with appending := none, archive := s.archive ++ [(a.file, a.seen)] } where
  order := by simpa [happending] using h.order
  archived entry hentry := by
    rcases List.mem_append.mp hentry with hentry | hentry
    . exact h.archived entry hentry
    . rw [List.mem_singleton.mp hentry]
      simpa [hunread] using h.appending a happending
  appending := by simp
  covered hdestroyed f hf data hdata := by
    rcases h.covered hdestroyed f hf data hdata with hin | hin | hin
    . exact .inl hin
    . refine .inr (.inr ?_)
      simp only [happending, Option.toList_some, List.map_cons, List.map_nil, List.mem_singleton] at hin
      simp [hin]
    . exact .inr (.inr (by simp only [List.map_append, List.mem_append]; exact .inl hin))
  finalized hfinal := by simp [hfinalized] at hfinal

theorem finalize (hfiles : s.files = []) (happending : s.appending = none) (hdestroyed : s.destroyed = false) :
    Export.Sound read files { s with finalized := true } :=
  ⟨h.order, h.archived, h.appending, h.covered, fun _ => ⟨hfiles, happending, hdestroyed⟩⟩

theorem step (hok : Faithful read s e) (hstep : exportMachine.step s e = some s') : s'.Sound read files := by
  simp only [exportMachine] at hstep
  split at hstep
  . contradiction
  . next hlive =>
    simp only [Bool.or_eq_true, not_or, Bool.not_eq_true] at hlive
    rcases hlive with ⟨hdestroyed, hfinalized⟩
    split at hstep
    . next happending =>
      split at hstep
      . contradiction
      . next hfiles =>
        cases hstep
        exact h.unopened hfiles happending hfinalized (hok _ (by simp [hfiles]))
      . next hfiles =>
        cases hstep
        exact h.opened hfiles happending hfinalized (hok _ (by simp [hfiles]))
    . next happending =>
      split at hstep
      . cases hstep
        exact h.destroy hfinalized
      . cases hstep
        exact h.chunk happending hfinalized _
    . next happending =>
      split at hstep
      . contradiction
      . next hunread =>
        split at hstep
        . cases hstep
          exact h.destroy hfinalized
        . cases hstep
          exact h.ended happending hfinalized (not_not.mp hunread)
    . cases hstep
      exact h.destroy hfinalized
    . next happending =>
      split at hstep
      . next hfiles =>
        cases hstep
        exact h.finalize hfiles happending hdestroyed
      . contradiction
    . contradiction

end Sound

/-- The archive of a finished export holds the files that can be read, each once, and nothing else. -/
theorem Sound.complete (h : s.Sound read files) (hfinalized : s.finalized = true) {file : Text}
    {data : Content} : (file, data) ∈ s.archive ↔ file ∈ files ∧ read file = some data := by
  rcases h.finalized hfinalized with ⟨hfiles, happending, hdestroyed⟩
  have horder := h.order
  rw [hfiles, happending] at horder
  constructor
  . intro hmem
    refine ⟨horder.subset ?_, h.archived _ hmem⟩
    simpa using ⟨data, hmem⟩
  . rintro ⟨hfile, hread⟩
    rcases h.covered hdestroyed file hfile data hread with hin | hin | hin
    . simp [hfiles] at hin
    . simp [happending] at hin
    . rcases List.mem_map.mp hin with ⟨⟨name, found⟩, hmem, rfl⟩
      have hfound := h.archived _ hmem
      rw [hread, Option.some.injEq] at hfound
      exact hfound ▸ hmem

theorem Sound.sublist (h : s.Sound read files) (hfinalized : s.finalized = true) :
    (s.archive.map (·.1)).Sublist files := by
  rcases h.finalized hfinalized with ⟨hfiles, happending, -⟩
  have horder := h.order
  rw [hfiles, happending] at horder
  simpa using horder

end Export
end Export

/-! ### What an import has stored -/

section Import

variable {σ : Type}

/-- The names of a kind that a store keeps apart: a put is read back, and changes no other of them. -/
def KeepsApart (plain : Text → Prop) (get : σ → Text → Option Content)
    (putFile : σ → Text → Content → Option σ) : Prop :=
  ∀ store store' name data, plain name → putFile store name data = some store' →
    ∀ name', plain name' → get store' name' = if name' = name then some data else get store name'

/-- The streams end well, and no put fails. -/
def Clean (_s : Import σ) (e : ImportEvent σ) : Prop :=
  match e with
  | .error _ | .putRejected _ => False
  | _ => True

instance (s : Import σ) (e : ImportEvent σ) : Decidable (Clean s e) :=
  match e with
  | .error _ | .putRejected _ => inferInstanceAs (Decidable False)
  | .entry | .data _ | .ended | .putResolved | .finish => inferInstanceAs (Decidable True)

variable {maxEntries maxEntryBytes : Nat} {putFile : σ → Text → Content → Option σ}
  {plain : Text → Prop} {get : σ → Text → Option Content} {archive : List Entry} {store : σ}
  {s s' : Import σ} {e : ImportEvent σ}

/-- A clean import of an archive within the caps. -/
structure Import.Clear (plain : Text → Prop) (get : σ → Text → Option Content) (store : σ)
    (s : Import σ) : Prop where
  accepted : ¬ s.Rejected
  calls : s.puts = s.stored ++ s.putting.toList
  read : ∀ name, plain name → get s.store name = (s.stored.reverse.lookup name).or (get store name)

namespace Import.Clear

theorem start (archive : List Entry) (store : σ) : (Import.start archive store).Clear plain get store where
  accepted := by simp [Import.Rejected, Import.start]
  calls := rfl
  read _ _ := rfl

variable (hentries : archive.length ≤ maxEntries) (hsizes : ∀ entry ∈ archive, entry.2.length ≤ maxEntryBytes)
  (hplain : ∀ entry ∈ archive, plain entry.1) (hstore : KeepsApart plain get putFile)
  (hsound : s.Sound maxEntries maxEntryBytes archive) (h : s.Clear plain get store)
include h

theorem going (hsound : s.Sound maxEntries maxEntryBytes archive) : s.Going archive :=
  hsound.going.resolve_left h.accepted

include hsound

include hentries in
theorem onEntry {entry : Entry} {rest : List Entry} (harchive : s.archive = entry :: rest)
    (hreading : s.reading = none) :
    (Import.onEntry maxEntries { s with archive := rest } entry).Clear plain get store := by
  have hgoing := h.going hsound
  have hcounted := hgoing.counted
  have hlength := congrArg List.length hgoing.rest
  simp only [hreading, harchive, Option.toList_none, List.length_nil, Nat.add_zero, List.map_nil,
    List.append_nil, List.length_append, List.length_cons] at hcounted hlength
  unfold Import.onEntry
  split
  . exact ⟨h.accepted, h.calls, h.read⟩
  . dsimp only
    rw [if_neg (by omega)]
    exact ⟨h.accepted, h.calls, h.read⟩

include hsizes in
theorem onData {r : Reading} (hreading : s.reading = some r) (n : Nat) :
    (s.onData maxEntryBytes r n).Clear plain get store := by
  have hmem : (r.name, r.chunks ++ r.unread) ∈ archive := by
    rw [(h.going hsound).rest, hreading]
    simp
  have hsize := hsizes _ hmem
  simp only [List.length_append] at hsize
  unfold Import.onData
  dsimp only
  split
  . exact ⟨h.accepted, h.calls, h.read⟩
  . rw [if_neg (by rw [List.length_take]; omega)]
    exact ⟨h.accepted, h.calls, h.read⟩

theorem onEnd {r : Reading} (hreading : s.reading = some r) : (s.onEnd r).Clear plain get store := by
  have hputting : s.putting = none := by
    cases hsome : s.putting with
    | none => rfl
    | some data =>
      have hnone := hsound.within.alone (by rw [hsome]; rfl)
      rw [hreading] at hnone
      contradiction
  unfold Import.onEnd
  dsimp only
  split
  . exact ⟨h.accepted, h.calls, h.read⟩
  . refine ⟨h.accepted, ?_, h.read⟩
    simp [h.calls, hputting]

include hplain hstore in
theorem putResolved {name : Text} {data : Content} (hputting : s.putting = some (name, data)) {store' : σ}
    (hput : putFile s.store name data = some store') :
    Import.Clear plain get store
      {
        s with
        store := store'
        putting := none
        importedCount := s.importedCount + 1
        stored := s.stored ++ [(name, data)]
      } where
  accepted := h.accepted
  calls := by simp [h.calls, hputting]
  read name' hname' := by
    have hmem : (name, data) ∈ archive := hsound.within.put.subset (by simp [h.calls, hputting])
    simp only [hstore _ _ _ _ (hplain _ hmem) hput _ hname', List.reverse_append, List.reverse_singleton,
      List.singleton_append, List.lookup_cons]
    by_cases heq : name' = name
    . simp [heq]
    . rw [if_neg heq, beq_eq_false_iff_ne.mpr heq]
      exact h.read name' hname'

include hentries hsizes hplain hstore in
theorem step (hok : Clean s e) (hstep : (importMachine maxEntries maxEntryBytes putFile).step s e = some s') :
    s'.Clear plain get store := by
  simp only [importMachine] at hstep
  split at hstep
  . next hreading hputting =>
    split at hstep
    . contradiction
    . next harchive =>
      cases hstep
      exact h.onEntry hentries hsound harchive hreading
  . next hreading =>
    cases hstep
    exact h.onData hsizes hsound hreading _
  . next hreading =>
    split at hstep
    . cases hstep
      exact h.onEnd hsound hreading
    . contradiction
  . next name data hputting =>
    rcases Option.map_eq_some_iff.mp hstep with ⟨store', hput, rfl⟩
    exact h.putResolved hplain hstore hsound hputting hput
  . exact hok.elim
  . split at hstep
    . cases hstep
      refine ⟨?_, h.calls, h.read⟩
      rintro ⟨error, herror⟩
      refine h.accepted ⟨error, ?_⟩
      cases hsettled : s.settled with
      | none => simp [hsettled] at herror
      | some outcome => simpa [hsettled] using herror
    . contradiction
  . exact hok.elim
  . contradiction

end Import.Clear

theorem clear_of_reach (hentries : archive.length ≤ maxEntries)
    (hsizes : ∀ entry ∈ archive, entry.2.length ≤ maxEntryBytes) (hplain : ∀ entry ∈ archive, plain entry.1)
    (hstore : KeepsApart plain get putFile)
    (h : (importMachine maxEntries maxEntryBytes putFile).Reach Clean (Import.start archive store) s) :
    s.Sound maxEntries maxEntryBytes archive ∧ s.Clear plain get store :=
  h.invariant (P := fun s => s.Sound maxEntries maxEntryBytes archive ∧ s.Clear plain get store)
    ⟨Import.sound_start archive store, Import.Clear.start archive store⟩
    fun _ _ _ hs hok hstep =>
      ⟨hs.1.step hstep, hs.2.step hentries hsizes hplain hstore hs.1 hok hstep⟩

theorem lookup_eq_get? (hnodup : (archive.map (·.1)).Nodup) (name : Text) :
    archive.lookup name = (⟨archive, hnodup⟩ : Map Text Content).get? name := by
  unfold Map.get?
  congr!

/-- Where the names differ, the order of the entries does not matter. -/
theorem lookup_reverse (hnodup : (archive.map (·.1)).Nodup) (name : Text) :
    archive.reverse.lookup name = archive.lookup name := by
  have hreverse : (archive.reverse.map (·.1)).Nodup := by
    rw [List.map_reverse, List.nodup_reverse]
    exact hnodup
  have hperm : (⟨archive.reverse, hreverse⟩ : Map Text Content).entries.Perm
      (⟨archive, hnodup⟩ : Map Text Content).entries := List.reverse_perm archive
  rw [lookup_eq_get? hreverse, lookup_eq_get? hnodup, Map.get?_eq_of_perm hperm]

/-- When a clean import resolves, the store reads as the archive, and elsewhere as it did. -/
theorem read_of_resolved (hnodup : (archive.map (·.1)).Nodup) (hsound : s.Sound maxEntries maxEntryBytes archive)
    (hclear : s.Clear plain get store) {n : Nat} (hresolved : s.settled = some (.resolved n)) {name : Text}
    (hname : plain name) : get s.store name = (archive.lookup name).or (get store name) := by
  have hgoing := hclear.going hsound
  rcases hgoing.outcome with hnone | ⟨-, harchive, hreading, hputting⟩
  . rw [hresolved] at hnone
    contradiction
  . have hstored : s.stored = archive := by
      have hputs := hclear.calls
      rw [hputting, Option.toList_none, List.append_nil] at hputs
      rw [← hputs]
      simpa [hreading, harchive] using hgoing.rest.symm
    rw [hclear.read name hname, hstored, lookup_reverse hnodup]

end Import

/-! ### From one service to another -/

section Service

instance (c : Text) : Decidable (Posix.Ordinary c) :=
  decidable_of_iff (c ≠ [] ∧ c ≠ Posix.here ∧ c ≠ Posix.parent ∧ '/' ∉ c)
    ⟨fun ⟨hnil, hhere, hparent, hslash⟩ => ⟨hnil, hhere, hparent, hslash⟩,
      fun h => ⟨h.ne_nil, h.ne_here, h.ne_parent, h.no_slash⟩⟩

def namesOf (pieces : List Text) : Option (List Name) :=
  match pieces with
  | [] => some []
  | piece :: pieces => if h : Posix.Ordinary piece then (namesOf pieces).map (⟨piece, h⟩ :: ·) else none

theorem namesOf_eq_some_iff {pieces : List Text} {path : List Name} :
    namesOf pieces = some path ↔ path.map (·.val) = pieces := by
  induction pieces generalizing path with
  | nil =>
    rw [namesOf, Option.some.injEq, List.map_eq_nil_iff]
    exact eq_comm
  | cons piece pieces ih =>
    unfold namesOf
    split
    . next hordinary =>
      simp only [Option.map_eq_some_iff, ih, List.map_eq_cons_iff]
      constructor
      . rintro ⟨names, hnames, rfl⟩
        exact ⟨⟨piece, hordinary⟩, names, rfl, rfl, hnames⟩
      . rintro ⟨name, names, rfl, rfl, hnames⟩
        exact ⟨names, hnames, rfl⟩
    . next hordinary =>
      simp only [reduceCtorEq, false_iff, List.map_eq_cons_iff, not_exists, not_and]
      rintro name _ rfl rfl
      exact absurd name.2 hordinary

instance : DecidableEq Key := fun k k' => decidable_of_iff (k.text = k'.text) Key.text_inj

/-- The key that a text denotes, if it is safe and normalised. -/
def Key.ofText? (t : Text) : Option Key :=
  match namesOf (t.splitOn '/') with
  | none => none
  | some path =>
    if h : path ≠ [] ∧ isSafeStorageKey (textOf path) = true then some ⟨path, h.1, h.2⟩ else none

theorem Key.ofText?_eq_some_iff {t : Text} {k : Key} : Key.ofText? t = some k ↔ k.text = t := by
  constructor
  . intro h
    unfold Key.ofText? at h
    split at h
    . contradiction
    . next path hpath =>
      split at h
      . cases h
        rw [Key.text, textOf, namesOf_eq_some_iff.mp hpath]
        exact List.intercalate_splitOn '/'
      . contradiction
  . rintro rfl
    have hslash : ∀ t ∈ k.path.map (·.val), '/' ∉ t := by
      intro t ht
      rcases List.mem_map.mp ht with ⟨name, _, rfl⟩
      exact name.2.no_slash
    have hpieces : k.text.splitOn '/' = k.path.map (·.val) :=
      List.splitOn_intercalate '/' hslash (mt List.map_eq_nil_iff.mp k.ne_nil)
    have hpath : namesOf (k.text.splitOn '/') = some k.path := namesOf_eq_some_iff.mpr hpieces.symm
    unfold Key.ofText?
    rw [hpath]
    simp only
    rw [dif_pos ⟨k.ne_nil, k.safe⟩]

namespace StorageService

/-- `getFile` and `putFile` of a text -/
def getText (s : StorageService Content) (t : Text) : Option Content := (Key.ofText? t).bind s.getFile

def putText (s : StorageService Content) (t : Text) (data : Content) : Option (StorageService Content) :=
  (Key.ofText? t).bind fun k => s.putFile k data

theorem getText_text (s : StorageService Content) (k : Key) : s.getText k.text = s.getFile k := by
  rw [getText, Key.ofText?_eq_some_iff.mpr rfl, Option.bind_some]

theorem getFile_putFile {s s' : StorageService Content} {k : Key} {data : Content}
    (h : s.putFile k data = some s') (k' : Key) :
    s'.getFile k' = if k' = k then some data else s.getFile k' := by
  have hwrote := wrote_putFile h
  cases havailable : s.s3Available with
  | true =>
    have havailable' : s'.s3Available = true := hwrote.available.trans havailable
    rw [getFile_up s' k' havailable', getFile_up s k' havailable]
    split
    . next heq => exact heq ▸ hwrote.both (.inl havailable)
    . next hne => rw [(hwrote.other k' hne).1, (hwrote.other k' hne).2]
  | false =>
    have havailable' : s'.s3Available = false := hwrote.available.trans havailable
    rw [getFile_down s' k' havailable', getFile_down s k' havailable]
    split
    . next heq => exact heq ▸ hwrote.down havailable
    . next hne => exact (hwrote.other k' hne).1

theorem keepsApart_putText : KeepsApart (fun t => (Key.ofText? t).isSome = true) getText putText := by
  intro s s' t data hplain hput t' hplain'
  rcases Option.isSome_iff_exists.mp hplain with ⟨k, hk⟩
  rcases Option.isSome_iff_exists.mp hplain' with ⟨k', hk'⟩
  have hkey : t' = t ↔ k' = k := by
    rw [← Key.ofText?_eq_some_iff.mp hk, ← Key.ofText?_eq_some_iff.mp hk', Key.text_inj]
  rw [putText, hk, Option.bind_some] at hput
  rw [getText, getText, hk', Option.bind_some, Option.bind_some, getFile_putFile hput, if_congr hkey rfl rfl]

end StorageService

variable {src tgt : StorageService Content} {maxEntries maxEntryBytes : Nat} {x : Export}
  {s : Import (StorageService Content)}

theorem mem_iterateFiles (src : StorageService Content) (k : Key) :
    k.text ∈ src.iterateFiles ↔ (src.getFile k).isSome = true ∧ WithinReach src k := by
  rw [← List.count_pos_iff, src.count_iterateFiles k]
  split
  . next h => simp [h]
  . next h => simp [h]

theorem lookup_archive (hx : x.Sound src.getText src.iterateFiles) (hfinalized : x.finalized = true)
    (k : Key) : x.archive.lookup k.text = if WithinReach src k then src.getFile k else none := by
  have hnodup := (hx.sublist hfinalized).nodup src.nodup_iterateFiles
  refine Option.ext fun data => ?_
  have hentry := Map.mem_entries_iff ⟨x.archive, hnodup⟩ (k.text, data)
  rw [hx.complete hfinalized, mem_iterateFiles, StorageService.getText_text] at hentry
  rw [lookup_eq_get? hnodup, ← hentry]
  split
  . next hreach =>
    refine ⟨fun h => h.2, fun h => ⟨⟨?_, hreach⟩, h⟩⟩
    rw [h, Option.isSome_some]
  . next hfar => exact ⟨fun h => absurd h.1.2 hfar, fun h => nomatch h⟩

/-- Two stores with the bucket in use, and their local directories empty. -/
def bucketOf (bucket : Map Text Content) : StorageService Content := ⟨bucket, .nil, trivial, true⟩

theorem getFile_bucketOf {bucket : Map Text Content} {k : Key} :
    (bucketOf bucket).getFile k = bucket.get? (objectKey k.text) := by
  have hlocal : (bucketOf bucket).getLocalFile k = none := by
    rw [StorageService.getLocalFile, ← List.cons_head_tail k.ne_nil]
    exact Directory.fileAt_of_head (by simp [bucketOf, Directory.names]) _
  rw [StorageService.getFile_up _ _ rfl, hlocal, Option.or_none]
  rfl

end Service

end OpenWA.Storage
