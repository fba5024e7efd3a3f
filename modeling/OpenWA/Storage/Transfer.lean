import OpenWA.Async.Machine
import OpenWA.Js.Text

/-!
This module contains the transfer of a store of files as an archive: the export, which appends one file
after the other while it reads them, and the import, which follows the events of the unpacking streams.
-/

namespace OpenWA.Storage

open Async Js

abbrev Content := List UInt8

/-- An entry of an archive. -/
abbrev Entry := Text × Content

/-! ### Export -/

/-- A file between its header in the archive and its end. -/
structure Appending where
  file : Text
  -- the size that the header declares
  size : Option Nat
  seen : Content
  -- what its stream has still to yield
  unread : Content
deriving DecidableEq

/-- An export, with the files that are still to be opened, and those that could not be. -/
structure Export where
  files : List Text
  appending : Option Appending
  archive : List Entry
  skipped : List Text
  destroyed : Bool
  finalized : Bool
deriving DecidableEq

inductive ExportEvent where
  -- `openFile` of the next file settles; it gives a size, and a stream of some content
  | opened (source : Option (Option Nat × Content))
  -- the next bytes of the stream, or its end
  | chunk (n : Nat)
  | ended
  -- an error of the stream, or of the archive, or the consumer is gone
  | failed
  | finalize
deriving DecidableEq

def Export.start (files : List Text) : Export := ⟨files, none, [], [], false, false⟩

def Export.destroy (s : Export) : Export := { s with appending := none, destroyed := true }

/-- `appendEntries`, with the check of `enforceSize` -/
def exportMachine : Machine Export ExportEvent where
  step s e :=
    if s.destroyed || s.finalized then none
    else
      match e, s.appending with
      | .opened source, none =>
        match s.files, source with
        | [], _ => none
        | file :: files, none => some { s with files, skipped := s.skipped ++ [file] }
        | file :: files, some (size, content) =>
          some { s with files, appending := some ⟨file, size, [], content⟩ }
      | .chunk n, some a =>
        let seen := a.seen ++ a.unread.take n
        if a.size.any (· < seen.length) then some s.destroy
        else some { s with appending := some { a with seen, unread := a.unread.drop n } }
      | .ended, some a =>
        if a.unread ≠ [] then none
        else if a.size.any (a.seen.length < ·) then some s.destroy
        else some { s with appending := none, archive := s.archive ++ [(a.file, a.seen)] }
      | .failed, _ => some s.destroy
      | .finalize, none => if s.files = [] then some { s with finalized := true } else none
      | _, _ => none

/-! ### Import -/

inductive ImportError where
  | tooManyEntries (maxEntries : Nat)
  | tooLarge (name : Text) (maxEntryBytes : Nat)
  -- of the input, of its decompression, or of the archive
  | stream (message : String)
deriving DecidableEq

inductive ImportOutcome where
  | resolved (importedCount : Nat)
  | rejected (error : ImportError)
deriving DecidableEq

/-- The entry whose stream flows. -/
structure Reading where
  name : Text
  chunks : Content
  unread : Content
deriving DecidableEq

/-- An import into a store of type `σ`, with the entries that are still to be unpacked. -/
structure Import (σ : Type) where
  archive : List Entry
  reading : Option Reading
  putting : Option Entry
  entryCount : Nat
  importedCount : Nat
  settled : Option ImportOutcome
  store : σ
  -- all calls of `putFile`, and those that succeeded
  puts : List Entry
  stored : List Entry

inductive ImportEvent (σ : Type) where
  | entry
  | data (n : Nat)
  | ended
  | putResolved
  -- whatever the call has left in the store
  | putRejected (store : σ)
  | finish
  | error (message : String)

section Import

variable {σ : Type}

def Import.start (archive : List Entry) (store : σ) : Import σ :=
  ⟨archive, none, none, 0, 0, none, store, [], []⟩

/-- `fail`: the first outcome stays. -/
def Import.fail (s : Import σ) (error : ImportError) : Import σ :=
  { s with settled := s.settled.or (some (.rejected error)) }

variable (maxEntries maxEntryBytes : Nat) (putFile : σ → Text → Content → Option σ)

def Import.onEntry (s : Import σ) (entry : Entry) : Import σ :=
  if s.settled.isSome then s
  else
    let s := { s with entryCount := s.entryCount + 1 }
    if s.entryCount > maxEntries then s.fail (.tooManyEntries maxEntries)
    else { s with reading := some ⟨entry.1, [], entry.2⟩ }

def Import.onData (s : Import σ) (r : Reading) (n : Nat) : Import σ :=
  let chunk := r.unread.take n
  let s := { s with reading := some { r with unread := r.unread.drop n } }
  if s.settled.isSome then s
  else if r.chunks.length + chunk.length > maxEntryBytes then s.fail (.tooLarge r.name maxEntryBytes)
  else { s with reading := some ⟨r.name, r.chunks ++ chunk, r.unread.drop n⟩ }

def Import.onEnd (s : Import σ) (r : Reading) : Import σ :=
  let s := { s with reading := none }
  if s.settled.isSome then s
  else { s with putting := some (r.name, r.chunks), puts := s.puts ++ [(r.name, r.chunks)] }

/-- `importFromStream`, with the unpacking streams in the order that they keep -/
def importMachine : Machine (Import σ) (ImportEvent σ) where
  step s e :=
    match e, s.reading, s.putting with
    | .entry, none, none =>
      match s.archive with
      | [] => none
      | entry :: archive => some ({ s with archive }.onEntry maxEntries entry)
    | .data n, some r, _ => some (s.onData maxEntryBytes r n)
    | .ended, some r, _ => if r.unread = [] then some (s.onEnd r) else none
    | .putResolved, _, some (name, data) =>
      (putFile s.store name data).map fun store =>
        {
          s with
          store
          putting := none
          importedCount := s.importedCount + 1
          stored := s.stored ++ [(name, data)]
        }
    | .putRejected store, _, some _ => some { s with store, putting := none }
    | .finish, none, none =>
      if s.archive = [] then
        some { s with settled := s.settled.or (some (.resolved s.importedCount)) }
      else none
    | .error message, _, _ => some (s.fail (.stream message))
    | _, _, _ => none

/-! ### What an import has done -/

variable {maxEntries maxEntryBytes : Nat} {putFile : σ → Text → Content → Option σ}

namespace Import

def Rejected (s : Import σ) : Prop := ∃ error, s.settled = some (.rejected error)

/-- What an import has put and what it holds, whatever has become of it. -/
structure Within (maxEntries maxEntryBytes : Nat) (archive : List Entry) (s : Import σ) : Prop where
  put : s.puts <+: archive
  admitted : s.puts.length + s.reading.toList.length ≤ maxEntries
  small : ∀ p ∈ s.puts, p.2.length ≤ maxEntryBytes
  buffered : ∀ r ∈ s.reading, r.chunks.length ≤ maxEntryBytes
  alone : s.putting.isSome = true → s.reading = none
  imported : s.importedCount = s.stored.length

/-- The import goes on, or has come to the end of the archive. -/
structure Going (archive : List Entry) (s : Import σ) : Prop where
  rest : archive = s.puts ++ s.reading.toList.map (fun r => (r.name, r.chunks ++ r.unread)) ++ s.archive
  counted : s.entryCount = s.puts.length + s.reading.toList.length
  outcome : s.settled = none ∨ s.settled = some (.resolved s.importedCount) ∧ s.archive = [] ∧
    s.reading = none ∧ s.putting = none

/-- An import of an archive, in any state that it comes to. -/
structure Sound (maxEntries maxEntryBytes : Nat) (archive : List Entry) (s : Import σ) : Prop where
  within : s.Within maxEntries maxEntryBytes archive
  going : s.Rejected ∨ s.Going archive

variable {archive : List Entry} {s : Import σ}

theorem sound_start (archive : List Entry) (store : σ) :
    (start archive store).Sound maxEntries maxEntryBytes archive where
  within := {
    put := List.nil_prefix
    admitted := Nat.zero_le _
    small := by simp [start]
    buffered := by simp [start]
    alone := by simp [start]
    imported := rfl }
  going := .inr ⟨rfl, rfl, .inl rfl⟩

theorem rejected_fail (hsettled : s.settled = none) (error : ImportError) : (s.fail error).Rejected :=
  ⟨error, by rw [fail, hsettled, Option.none_or]⟩

theorem fail_of_settled {outcome : ImportOutcome} (hsettled : s.settled = some outcome)
    (error : ImportError) : s.fail error = s := by
  unfold fail
  rw [hsettled, Option.some_or, ← hsettled]

namespace Sound

theorem fail (h : s.Sound maxEntries maxEntryBytes archive) (error : ImportError) :
    (s.fail error).Sound maxEntries maxEntryBytes archive := by
  cases hsettled : s.settled with
  | none =>
    exact ⟨⟨h.within.put, h.within.admitted, h.within.small, h.within.buffered, h.within.alone,
      h.within.imported⟩, .inl (rejected_fail hsettled error)⟩
  | some outcome => rwa [fail_of_settled hsettled]

/-- While there is more to read, the import is given up or not settled. -/
theorem live (h : s.Sound maxEntries maxEntryBytes archive) (hmore : s.archive ≠ [] ∨ s.reading ≠ none) :
    (s.Rejected ∧ s.settled.isSome = true) ∨ (s.Going archive ∧ s.settled = none) := by
  rcases h.going with hrejected | hgoing
  . exact .inl ⟨hrejected, by rcases hrejected with ⟨error, herror⟩; rw [herror]; rfl⟩
  . rcases hgoing.outcome with hnone | ⟨_, harchive, hreading, _⟩
    . exact .inr ⟨hgoing, hnone⟩
    . rcases hmore with hmore | hmore <;> contradiction

theorem onEntry (h : s.Sound maxEntries maxEntryBytes archive) {entry : Entry} {rest : List Entry}
    (harchive : s.archive = entry :: rest) (hreading : s.reading = none) (hputting : s.putting = none) :
    (Import.onEntry maxEntries { s with archive := rest } entry).Sound maxEntries maxEntryBytes archive := by
  have hwithin := h.within
  unfold Import.onEntry
  rcases h.live (.inl (by simp [harchive])) with ⟨hrejected, hsettled⟩ | ⟨hgoing, hsettled⟩
  . simp only [hsettled, if_true]
    exact ⟨⟨hwithin.put, hwithin.admitted, hwithin.small, hwithin.buffered, hwithin.alone,
      hwithin.imported⟩, .inl hrejected⟩
  . simp only [hsettled, Option.isSome_none, Bool.false_eq_true, if_false]
    have hcounted := hgoing.counted
    have hrest := hgoing.rest
    simp only [hreading, harchive, Option.toList_none, List.length_nil, Nat.add_zero, List.map_nil,
      List.append_nil] at hcounted hrest
    split
    . exact ⟨⟨hwithin.put, hwithin.admitted, hwithin.small, hwithin.buffered, hwithin.alone,
        hwithin.imported⟩, .inl (rejected_fail rfl _)⟩
    . next hfew =>
      refine ⟨⟨hwithin.put, ?_, hwithin.small, ?_, ?_, hwithin.imported⟩, .inr ⟨?_, ?_, .inl rfl⟩⟩
      . simp only [Option.toList_some, List.length_singleton]
        omega
      . simp
      . simp [hputting]
      . simpa using hrest
      . simp [hcounted]

theorem onData (h : s.Sound maxEntries maxEntryBytes archive) {r : Reading} (hreading : s.reading = some r)
    (n : Nat) : (s.onData maxEntryBytes r n).Sound maxEntries maxEntryBytes archive := by
  have hwithin := h.within
  have hadmitted := hwithin.admitted
  have hbuffered := hwithin.buffered r hreading
  rw [hreading] at hadmitted
  have hputting : s.putting.isSome = true → False := by
    intro hsome
    have hnone := hwithin.alone hsome
    rw [hreading] at hnone
    contradiction
  unfold Import.onData
  rcases h.live (.inr (by simp [hreading])) with ⟨hrejected, hsettled⟩ | ⟨hgoing, hsettled⟩
  . simp only [hsettled, if_true]
    exact ⟨⟨hwithin.put, hadmitted, hwithin.small, by simpa using hbuffered,
      fun hsome => (hputting hsome).elim, hwithin.imported⟩, .inl hrejected⟩
  . simp only [hsettled, Option.isSome_none, Bool.false_eq_true, if_false]
    split
    . exact ⟨⟨hwithin.put, hadmitted, hwithin.small, by simpa [Import.fail] using hbuffered,
        fun hsome => (hputting hsome).elim, hwithin.imported⟩, .inl (rejected_fail rfl _)⟩
    . next hfits =>
      have hrest := hgoing.rest
      have hcounted := hgoing.counted
      rw [hreading] at hrest hcounted
      refine ⟨⟨hwithin.put, hadmitted, hwithin.small, ?_, fun hsome => (hputting hsome).elim,
        hwithin.imported⟩, .inr ⟨?_, hcounted, .inl rfl⟩⟩
      . simp only [Option.mem_def, Option.some.injEq, forall_eq', List.length_append]
        omega
      . simpa using hrest

theorem onEnd (h : s.Sound maxEntries maxEntryBytes archive) {r : Reading} (hreading : s.reading = some r)
    (hunread : r.unread = []) : (s.onEnd r).Sound maxEntries maxEntryBytes archive := by
  have hwithin := h.within
  have hadmitted := hwithin.admitted
  have hbuffered := hwithin.buffered r hreading
  simp only [hreading, Option.toList_some, List.length_singleton] at hadmitted
  unfold Import.onEnd
  rcases h.live (.inr (by simp [hreading])) with ⟨hrejected, hsettled⟩ | ⟨hgoing, hsettled⟩
  . simp only [hsettled, if_true]
    exact ⟨⟨hwithin.put, by simp; omega, hwithin.small, by simp, fun _ => rfl, hwithin.imported⟩,
      .inl hrejected⟩
  . simp only [hsettled, Option.isSome_none, Bool.false_eq_true, if_false]
    have hrest := hgoing.rest
    have hcounted := hgoing.counted
    simp only [hreading, hunread, Option.toList_some, List.map_cons, List.map_nil, List.append_nil,
      List.length_singleton] at hrest hcounted
    refine ⟨⟨⟨s.archive, hrest.symm⟩, by simpa using hadmitted, ?_, by simp, fun _ => rfl,
      hwithin.imported⟩, .inr ⟨by simpa using hrest, by simpa using hcounted, .inl rfl⟩⟩
    intro p hp
    rcases List.mem_append.mp hp with hp | hp
    . exact hwithin.small p hp
    . rw [List.mem_singleton.mp hp]
      exact hbuffered

/-- The call of `putFile` that is under way settles. -/
theorem settle (h : s.Sound maxEntries maxEntryBytes archive) {data : Entry}
    (hputting : s.putting = some data) (store : σ) (stored : List Entry) :
    Sound maxEntries maxEntryBytes archive
      {
        s with
        store
        putting := none
        importedCount := stored.length
        stored
      } := by
  have hwithin := h.within
  refine ⟨⟨hwithin.put, hwithin.admitted, hwithin.small, hwithin.buffered, by simp, rfl⟩, ?_⟩
  rcases h.going with hrejected | hgoing
  . exact .inl hrejected
  . rcases hgoing.outcome with hnone | ⟨_, _, _, hnot⟩
    . exact .inr ⟨hgoing.rest, hgoing.counted, .inl hnone⟩
    . rw [hputting] at hnot
      contradiction

theorem finish (h : s.Sound maxEntries maxEntryBytes archive) (harchive : s.archive = [])
    (hreading : s.reading = none) (hputting : s.putting = none) :
    Sound maxEntries maxEntryBytes archive
      { s with settled := s.settled.or (some (.resolved s.importedCount)) } := by
  have hwithin := h.within
  refine ⟨⟨hwithin.put, hwithin.admitted, hwithin.small, hwithin.buffered, hwithin.alone,
    hwithin.imported⟩, ?_⟩
  rcases h.going with ⟨error, herror⟩ | hgoing
  . exact .inl ⟨error, by rw [herror, Option.some_or]⟩
  . refine .inr ⟨hgoing.rest, hgoing.counted, .inr ⟨?_, harchive, hreading, hputting⟩⟩
    rcases hgoing.outcome with hnone | ⟨hresolved, -⟩
    . rw [hnone, Option.none_or]
    . rw [hresolved, Option.some_or]

theorem step {s' : Import σ} {e : ImportEvent σ} (h : s.Sound maxEntries maxEntryBytes archive)
    (hstep : (importMachine maxEntries maxEntryBytes putFile).step s e = some s') :
    s'.Sound maxEntries maxEntryBytes archive := by
  simp only [importMachine] at hstep
  split at hstep
  . next hreading hputting =>
    split at hstep
    . contradiction
    . next harchive =>
      cases hstep
      exact h.onEntry harchive hreading hputting
  . next hreading =>
    cases hstep
    exact h.onData hreading _
  . next hreading =>
    split at hstep
    . next hunread =>
      cases hstep
      exact h.onEnd hreading hunread
    . contradiction
  . next name data hputting =>
    rcases Option.map_eq_some_iff.mp hstep with ⟨store, -, rfl⟩
    have hsettle := h.settle hputting store (s.stored ++ [(name, data)])
    rwa [List.length_append, ← h.within.imported] at hsettle
  . next store _ hputting =>
    cases hstep
    have hsettle := h.settle hputting store s.stored
    rwa [← h.within.imported] at hsettle
  . next hreading hputting =>
    split at hstep
    . next harchive =>
      cases hstep
      exact h.finish harchive hreading hputting
    . contradiction
  . cases hstep
    exact h.fail _
  . contradiction

end Sound

/-- The first outcome stays, and no call of `putFile` begins after it. -/
theorem settled_step {s' : Import σ} {e : ImportEvent σ} {outcome : ImportOutcome}
    (hsettled : s.settled = some outcome)
    (hstep : (importMachine maxEntries maxEntryBytes putFile).step s e = some s') :
    s'.settled = some outcome ∧ s'.puts = s.puts := by
  simp only [importMachine] at hstep
  split at hstep
  . split at hstep
    . contradiction
    . cases hstep
      simp [onEntry, hsettled]
  . cases hstep
    simp [onData, hsettled]
  . split at hstep
    . cases hstep
      simp [onEnd, hsettled]
    . contradiction
  . rcases Option.map_eq_some_iff.mp hstep with ⟨store, -, rfl⟩
    exact ⟨hsettled, rfl⟩
  . cases hstep
    exact ⟨hsettled, rfl⟩
  . split at hstep
    . cases hstep
      simp [hsettled]
    . contradiction
  . cases hstep
    simp [fail, hsettled]
  . contradiction

end Import

variable {archive : List Entry} {store : σ} {s : Import σ}

theorem sound_of_reach (h : (importMachine maxEntries maxEntryBytes putFile).Reach Machine.anyStep
    (Import.start archive store) s) : s.Sound maxEntries maxEntryBytes archive :=
  h.invariant (Import.sound_start archive store) fun _ _ _ hs _ hstep => hs.step hstep

/--
However the streams cut the archive, and whatever fails: what an import puts is the beginning of the
archive, within the caps, and so is what it holds of an entry; an import that resolves has put all of it,
and counts what was stored; and nothing is put after the outcome.
-/
theorem import_of_reach (maxEntries maxEntryBytes : Nat) (putFile : σ → Text → Content → Option σ)
    (archive : List Entry) (store : σ) (h : (importMachine maxEntries maxEntryBytes putFile).Reach
      Machine.anyStep (Import.start archive store) s) :
    s.puts <+: archive ∧ s.puts.length ≤ maxEntries ∧ (∀ p ∈ s.puts, p.2.length ≤ maxEntryBytes) ∧
    (∀ r ∈ s.reading, r.chunks.length ≤ maxEntryBytes) ∧
    (∀ n, s.settled = some (.resolved n) → s.puts = archive ∧ n = s.stored.length) ∧
    ∀ outcome s', s.settled = some outcome →
      (importMachine maxEntries maxEntryBytes putFile).Reach Machine.anyStep s s' →
        s'.settled = some outcome ∧ s'.puts = s.puts := by
  have hsound := sound_of_reach h
  have hadmitted := hsound.within.admitted
  refine ⟨hsound.within.put, by omega, hsound.within.small, hsound.within.buffered, ?_, ?_⟩
  . intro n hn
    rcases hsound.going with ⟨error, herror⟩ | hgoing
    . simp [hn] at herror
    . rcases hgoing.outcome with hnone | ⟨hresolved, harchive, hreading, -⟩
      . simp [hn] at hnone
      . rw [hn, Option.some.injEq, ImportOutcome.resolved.injEq] at hresolved
        refine ⟨?_, hresolved.trans hsound.within.imported⟩
        simpa [hreading, harchive] using hgoing.rest.symm
  . intro outcome s' hsettled hrun
    exact hrun.invariant (P := fun s₁ => s₁.settled = some outcome ∧ s₁.puts = s.puts) ⟨hsettled, rfl⟩
      fun _ _ _ hs₁ _ hstep =>
        (Import.settled_step hs₁.1 hstep).imp id fun hputs => hputs.trans hs₁.2

end Import

/-- An import whose second entry is too large: it has put the first, and is given up. -/
theorem import_of_reach_sample : ∃ s : Import (List Entry),
    s.settled = some (.rejected (.tooLarge ['b'] 2)) ∧ s.puts = [(['a'], [1, 2])] ∧
    s.puts <+: [(['a'], [1, 2]), (['b'], [1, 2, 3])] := by
  have hrun : (((importMachine 10 2 fun store name data => some (store ++ [(name, data)])).exec
      Machine.anyStep (Import.start [(['a'], [1, 2]), (['b'], [1, 2, 3])] [])
      [.entry, .data 1, .data 1, .ended, .putResolved, .entry, .data 3]).map fun s =>
        (s.settled, s.puts)) = some (some (.rejected (.tooLarge ['b'] 2)), [(['a'], [1, 2])]) := by
    decide +kernel
  rcases Machine.reach_of_exec_map hrun with ⟨s, hreach, hs⟩
  rw [Prod.mk.injEq] at hs
  exact ⟨s, hs.1, hs.2, (import_of_reach 10 2 _ _ _ hreach).1⟩

end OpenWA.Storage
