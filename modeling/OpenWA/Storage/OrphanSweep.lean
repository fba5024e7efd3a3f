import Mathlib.Logic.Function.Basic
import OpenWA.Async.Machine
import OpenWA.Js.Map
import OpenWA.Js.Text

/-!
This module contains the sweep that deletes files no row references, its passes interleaved with the
writers of files and rows.
-/

namespace OpenWA.OrphanSweep

open Async Js

structure Sweep where
  keyPrefix : Text
  graceMs : Int

structure Pass where
  now : Int
  /-- `none` is `undefined`. -/
  chunkSize : Option Int
  stillOrphaned : List Text
  removed : Nat

/-- Where the pass is; `more` tells the `flush` in the loop from the last one. -/
inductive Phase where
  | idle
  | listing (p : Pass) (chunk : List Text)
  | querying (p : Pass) (chunk : List Text) (more : Bool)
  | settling (p : Pass) (chunk referenced : List Text) (more : Bool)

def Phase.chunk (phase : Phase) : List Text :=
  match phase with
  | .idle => []
  | .listing _ chunk | .querying _ chunk _ | .settling _ chunk _ _ => chunk

def Phase.pass? (phase : Phase) : Option Pass :=
  match phase with
  | .idle => none
  | .listing p _ | .querying p _ _ | .settling p _ _ _ => some p

inductive Verdict where
  | referenced
  | kept
  | deleted
deriving DecidableEq

structure State where
  clock : Int
  /-- The files that were ever in the store. -/
  existed : List Text
  /-- When the archive wrote a file. -/
  written : Js.Map Text Int
  /-- The files that a row references, and since when. -/
  rows : Js.Map Text Int
  firstSeenAt : Js.Map Text Int
  phase : Phase
  passes : Nat
  /-- The timestamp that each pass ran at. -/
  nowOf : Nat → Int
  /-- What each pass found of a file, the latest first. -/
  log : List ((Nat × Text) × Verdict)

def State.init : State where
  clock := 0
  existed := []
  written := .empty
  rows := .empty
  firstSeenAt := .empty
  phase := .idle
  passes := 0
  nowOf _ := 0
  log := []

inductive Event where
  | tick (ms : Nat)
  /-- a file appears that the archive did not write -/
  | put (key : Text)
  /-- `putFile` of `archive`, under a random key -/
  | archive (key : Text)
  /-- the row update of `archive` -/
  | land (key : Text)
  /-- a row loses its pointer -/
  | clear (key : Text)
  | begin (now : Int) (chunkSize : Option Int)
  /-- `iterateFiles` yields a file -/
  | list (key : Text)
  | listed
  | query
  /-- the next file of the chunk is settled; its delete may fail -/
  | settle (fails : Bool)
deriving DecidableEq

/-- The pass in which `examine` runs. -/
def State.current (s : State) : Nat := s.passes - 1

/-- The body of the loop over a chunk. -/
def examine (l : Sweep) (p : Pass) (referenced : List Text) (file : Text) (fails : Bool) (s : State) :
    Pass × State :=
  let noted (v : Verdict) : State := { s with log := ((s.current, file), v) :: s.log }
  if file ∈ referenced then
    (p, { noted .referenced with firstSeenAt := s.firstSeenAt.delete file })
  else
    let stillOrphaned := p.stillOrphaned ++ [file]
    let firstSeen := (s.firstSeenAt.get? file).getD p.now
    let firstSeenAt := s.firstSeenAt.set file firstSeen
    if p.now - firstSeen < l.graceMs || fails then
      ({ p with stillOrphaned := stillOrphaned }, { noted .kept with firstSeenAt := firstSeenAt })
    else
      ({ p with stillOrphaned := stillOrphaned.filter (· ≠ file), removed := p.removed + 1 },
        { noted .deleted with firstSeenAt := firstSeenAt.delete file })

/-- What is not orphaned any more loses its bookkeeping. -/
def prune (stillOrphaned : List Text) (firstSeenAt : Js.Map Text Int) : Js.Map Text Int :=
  firstSeenAt.keys.foldl (fun m key => if key ∈ stillOrphaned then m else m.delete key) firstSeenAt

def finish (p : Pass) (s : State) : State :=
  { s with firstSeenAt := prune p.stillOrphaned s.firstSeenAt, phase := .idle }

/-- After a file of the chunk comes the next one, the rest of the listing or the end. -/
def proceed (p : Pass) (chunk referenced : List Text) (more : Bool) (s : State) : State :=
  match chunk with
  | _ :: _ => { s with phase := .settling p chunk referenced more }
  | [] => if more then { s with phase := .listing p [] } else finish p s

/-- What the pass does next. -/
def sweepStep (l : Sweep) (s : State) (e : Event) : Option State :=
  match s.phase, e with
  | .idle, .begin now chunkSize =>
    some { s with
      phase := .listing ⟨now, chunkSize, [], 0⟩ []
      passes := s.passes + 1
      nowOf := Function.update s.nowOf s.passes now }
  | .listing p chunk, .list file =>
    if file ∈ s.existed then
      if l.keyPrefix.isPrefixOf file then
        let chunk := chunk ++ [file]
        if p.chunkSize.any fun (n : Int) => decide (n ≤ chunk.length) then
          some { s with phase := .querying p chunk true }
        else some { s with phase := .listing p chunk }
      else some s
    else none
  | .listing p chunk, .listed =>
    match chunk with
    | [] => some (finish p s)
    | _ :: _ => some { s with phase := .querying p chunk false }
  | .querying p chunk more, .query => some { s with phase := .settling p chunk s.rows.keys more }
  | .settling p (file :: chunk) referenced more, .settle fails =>
    let (p, s) := examine l p referenced file fails s
    some (proceed p chunk referenced more s)
  | _, _ => none

def machine (l : Sweep) : Machine State Event where
  step s e :=
    match e with
    | .tick ms => some { s with clock := s.clock + ms }
    | .put key => some { s with existed := s.existed ++ [key] }
    | .archive key =>
      if key ∈ s.existed then none
      else some { s with existed := s.existed ++ [key], written := s.written.set key s.clock }
    | .land key =>
      if s.written.has key && !s.rows.has key then some { s with rows := s.rows.set key s.clock }
      else none
    | .clear key => some { s with rows := s.rows.delete key }
    | e => sweepStep l s e

variable {l : Sweep} {s s' : State} {e : Event} {p : Pass} {k file : Text} {t : Int} {m n : Nat}
  {files refs : List Text} {more fails : Bool}

/-! ### What a sighting stands for -/

def Unreferenced (s : State) (n : Nat) (k : Text) : Prop :=
  ((n, k), .kept) ∈ s.log ∨ ((n, k), .deleted) ∈ s.log

/-- Since a pass that ran at `t`, every pass before `m` listed the file and found it unreferenced. -/
def Sighted (l : Sweep) (s : State) (k : Text) (t : Int) (m : Nat) : Prop :=
  l.keyPrefix <+: k ∧ ∃ i < m, s.nowOf i = t ∧ ∀ j, i ≤ j → j < m → Unreferenced s j k

/-- A deleted file was sighted at least the grace window before. -/
def Graced (l : Sweep) (s : State) : Prop :=
  ∀ n k, ((n, k), .deleted) ∈ s.log → ∃ t, Sighted l s k t (n + 1) ∧ t + l.graceMs ≤ s.nowOf n

/-- Between the passes the map holds the orphans that the last one left. -/
structure Rested (l : Sweep) (s : State) : Prop where
  sighted : ∀ k t, s.firstSeenAt.get? k = some t → Sighted l s k t s.passes
  left : ∀ k, s.firstSeenAt.has k = true ↔
    0 < s.passes ∧ s.log.lookup (s.current, k) = some .kept

/-- Within a pass the map holds what the last one left of the files not listed yet. -/
structure Within (l : Sweep) (p : Pass) (s : State) : Prop where
  passes : s.passes = s.current + 1
  now : s.nowOf s.current = p.now
  before : ∀ k t, s.firstSeenAt.get? k = some t → s.log.lookup (s.current, k) = none →
    Sighted l s k t s.current
  kept : ∀ k t, s.firstSeenAt.get? k = some t → s.log.lookup (s.current, k) = some .kept →
    Sighted l s k t s.passes
  still : ∀ k, s.log.lookup (s.current, k) = some .kept →
    k ∈ p.stillOrphaned ∧ s.firstSeenAt.has k = true
  dropped : ∀ k v, s.log.lookup (s.current, k) = some v → v ≠ .kept → s.firstSeenAt.has k = false
  listed : ∀ k ∈ p.stillOrphaned, s.log.lookup (s.current, k) ≠ none

structure Tracked (l : Sweep) (s : State) : Prop where
  graced : Graced l s
  logged : ∀ n k v, ((n, k), v) ∈ s.log → n < s.passes
  owned : ∀ k ∈ s.phase.chunk, l.keyPrefix <+: k
  rested : s.phase.pass? = none → Rested l s
  within : ∀ p, s.phase.pass? = some p → Within l p s

theorem tracked_init (l : Sweep) : Tracked l .init where
  graced _ _ h := nomatch h
  logged _ _ _ h := nomatch h
  owned _ h := nomatch h
  rested _ := ⟨nofun, fun k => by simp [State.init, Map.has_eq]⟩
  within _ h := nomatch h

/-! ### A pass begins -/

theorem Sighted.of_log {log : List ((Nat × Text) × Verdict)} (h : Sighted l s k t m)
    (hlog : ∀ x ∈ s.log, x ∈ log) : Sighted l { s with log := log } k t m := by
  rcases h with ⟨hunder, i, hi, ht, hall⟩
  exact ⟨hunder, i, hi, ht, fun j hj hjm => (hall j hj hjm).imp (hlog _) (hlog _)⟩

theorem Sighted.begin {now : Int} (h : Sighted l s k t m) (hm : m ≤ s.passes) {s' : State}
    (hnow : s'.nowOf = Function.update s.nowOf s.passes now) (hlog : s'.log = s.log) :
    Sighted l s' k t m := by
  rcases h with ⟨hunder, i, hi, ht, hall⟩
  refine ⟨hunder, i, hi, ?_, fun j hj hjm => ?_⟩
  . rw [hnow, Function.update_of_ne (by omega)]
    exact ht
  . unfold Unreferenced
    rw [hlog]
    exact hall j hj hjm

theorem lookup_none_of_logged (hlog : ∀ n k v, ((n, k), v) ∈ s.log → n < s.passes) (hn : s.passes ≤ n) :
    s.log.lookup (n, k) = none := by
  rw [List.lookup_eq_none_iff]
  rintro ⟨⟨j, k'⟩, v⟩ hmem
  have := hlog j k' v hmem
  rw [bne_iff_ne]
  intro heq
  cases heq
  omega

theorem Tracked.begin {now : Int} {chunkSize : Option Int} (hs : Tracked l s)
    (hidle : s.phase = .idle) : Tracked l { s with
      phase := .listing ⟨now, chunkSize, [], 0⟩ []
      passes := s.passes + 1
      nowOf := Function.update s.nowOf s.passes now } := by
  have hrested := hs.rested (by rw [hidle]; rfl)
  have hnone (k : Text) : s.log.lookup (s.passes, k) = none :=
    lookup_none_of_logged hs.logged (Nat.le_refl _)
  refine ⟨?_, fun n k v h => Nat.lt_succ_of_lt (hs.logged n k v h), nofun, nofun, ?_⟩
  . intro n k hdel
    have hn := hs.logged n k _ hdel
    rcases hs.graced n k hdel with ⟨t, hsight, hgrace⟩
    refine ⟨t, hsight.begin hn rfl rfl, ?_⟩
    show t + l.graceMs ≤ Function.update s.nowOf s.passes now n
    rw [Function.update_of_ne (by omega)]
    exact hgrace
  . intro p hp
    cases hp
    refine ⟨rfl, Function.update_self _ _ _, fun k t hk _ => ?_, fun k t _ h => ?_, fun k h => ?_,
      fun k v h => ?_, nofun⟩
    . exact (hrested.sighted k t hk).begin (Nat.le_refl _) rfl rfl
    . exact absurd (h.symm.trans (hnone k)) nofun
    . exact absurd (h.symm.trans (hnone k)) nofun
    . exact absurd (h.symm.trans (hnone k)) nofun

/-! ### A file is examined -/

def State.noted (s : State) (file : Text) (v : Verdict) : State :=
  { s with log := ((s.current, file), v) :: s.log }

theorem lookup_noted (s : State) (v : Verdict) :
    (s.noted file v).log.lookup (s.current, k) =
      if k = file then some v else s.log.lookup (s.current, k) := by
  unfold State.noted
  rw [List.lookup_cons]
  by_cases hk : k = file
  . simp [hk]
  . have hne : ((s.current, k) == (s.current, file)) = false :=
      beq_eq_false_iff_ne.mpr fun heq => hk (Prod.mk.inj heq).2
    rw [hne, if_neg hk]

/-- What the map says of a file that is found unreferenced now. -/
theorem Within.sight (hw : Within l p s) (hown : l.keyPrefix <+: file) {v : Verdict}
    (hv : v = .kept ∨ v = .deleted) :
    Sighted l (s.noted file v) file ((s.firstSeenAt.get? file).getD p.now) s.passes := by
  have hnew : Unreferenced (s.noted file v) s.current file := by
    rcases hv with rfl | rfl
    . exact .inl List.mem_cons_self
    . exact .inr List.mem_cons_self
  have hcurrent := hw.passes
  cases hfirst : s.firstSeenAt.get? file with
  | none =>
    refine ⟨hown, s.current, by omega, hw.now, fun j hj hjm => ?_⟩
    have hj' : j = s.current := by omega
    exact hj' ▸ hnew
  | some t =>
    have hhas : s.firstSeenAt.has file = true := by rw [Map.has_eq, hfirst]; rfl
    have hlog : ∀ x ∈ s.log, x ∈ (s.noted file v).log := fun x hx => List.mem_cons_of_mem _ hx
    cases hlookup : s.log.lookup (s.current, file) with
    | none =>
      rcases (hw.before file t hfirst hlookup).of_log hlog with ⟨_, i, hi, ht, hall⟩
      refine ⟨hown, i, by omega, ht, fun j hj hjm => ?_⟩
      by_cases hj' : j = s.current
      . exact hj' ▸ hnew
      . exact hall j hj (by omega)
    | some v' =>
      by_cases hkept : v' = .kept
      . exact (hw.kept file t hfirst (hkept ▸ hlookup)).of_log hlog
      . rw [hw.dropped file v' hlookup hkept] at hhas
        contradiction

theorem Within.noted (hw : Within l p s) (v : Verdict) {still : List Text} {removed : Nat}
    {seen : Js.Map Text Int} (hseen : ∀ k, k ≠ file → seen.get? k = s.firstSeenAt.get? k)
    (hstill : ∀ k, k ≠ file → (k ∈ still ↔ k ∈ p.stillOrphaned))
    (hkept : v = .kept → file ∈ still ∧
      ∃ t, seen.get? file = some t ∧ Sighted l (s.noted file v) file t s.passes)
    (hdropped : v ≠ .kept → seen.get? file = none) :
    Within l { p with stillOrphaned := still, removed := removed }
      { s.noted file v with firstSeenAt := seen } := by
  have hlog : ∀ x ∈ s.log, x ∈ (s.noted file v).log := fun x hx => List.mem_cons_of_mem _ hx
  refine ⟨hw.passes, hw.now, fun k t hk hl => ?_, fun k t hk hl => ?_, fun k hl => ?_,
    fun k v' hl hv' => ?_, fun k hk => ?_⟩
  . have hl' : (s.noted file v).log.lookup (s.current, k) = none := hl
    rw [lookup_noted] at hl'
    split at hl'
    . contradiction
    . next hne => exact (hw.before k t (hseen k hne ▸ hk) hl').of_log hlog
  . have hl' : (s.noted file v).log.lookup (s.current, k) = some .kept := hl
    rw [lookup_noted] at hl'
    split at hl'
    . next heq =>
      subst heq
      rcases (hkept (Option.some.inj hl')).2 with ⟨t', ht', hsight⟩
      have hk' : seen.get? k = some t := hk
      rw [ht', Option.some.injEq] at hk'
      exact hk' ▸ hsight
    . next hne => exact (hw.kept k t (hseen k hne ▸ hk) hl').of_log hlog
  . have hl' : (s.noted file v).log.lookup (s.current, k) = some .kept := hl
    rw [lookup_noted] at hl'
    show k ∈ still ∧ seen.has k = true
    rw [Map.has_eq]
    split at hl'
    . next heq =>
      subst heq
      rcases hkept (Option.some.inj hl') with ⟨hmem, t', ht', _⟩
      exact ⟨hmem, by rw [ht']; rfl⟩
    . next hne =>
      rw [hstill k hne, hseen k hne]
      exact hw.still k hl'
  . have hl' : (s.noted file v).log.lookup (s.current, k) = some v' := hl
    rw [lookup_noted] at hl'
    show seen.has k = false
    rw [Map.has_eq]
    split at hl'
    . next heq =>
      subst heq
      rw [hdropped (by rw [Option.some.inj hl']; exact hv')]
      rfl
    . next hne =>
      rw [hseen k hne]
      exact hw.dropped k v' hl' hv'
  . have hgoal : (s.noted file v).log.lookup (s.current, k) ≠ none := by
      rw [lookup_noted]
      split
      . nofun
      . next hne => exact hw.listed k ((hstill k hne).mp hk)
    exact hgoal

theorem Graced.noted (hg : Graced l s) {v : Verdict} (hv : v ≠ .deleted) :
    Graced l (s.noted file v) := by
  intro n k hdel
  rcases List.mem_cons.mp hdel with heq | hdel
  . exact absurd (Prod.mk.inj heq).2.symm hv
  . rcases hg n k hdel with ⟨t, hsight, hgrace⟩
    exact ⟨t, hsight.of_log fun x hx => List.mem_cons_of_mem _ hx, hgrace⟩

theorem Graced.deleted (hg : Graced l s) (hw : Within l p s) (hown : l.keyPrefix <+: file)
    (hdue : (s.firstSeenAt.get? file).getD p.now + l.graceMs ≤ p.now) :
    Graced l (s.noted file .deleted) := by
  intro n k hdel
  rcases List.mem_cons.mp hdel with heq | hdel
  . cases heq
    refine ⟨(s.firstSeenAt.get? file).getD p.now, ?_, ?_⟩
    . rw [← hw.passes]
      exact hw.sight hown (.inr rfl)
    . show _ ≤ s.nowOf s.current
      rw [hw.now]
      exact hdue
  . rcases hg n k hdel with ⟨t, hsight, hgrace⟩
    exact ⟨t, hsight.of_log fun x hx => List.mem_cons_of_mem _ hx, hgrace⟩

theorem examine_spec (hw : Within l p s) (hg : Graced l s) (hown : l.keyPrefix <+: file)
    (refs : List Text) (fails : Bool) :
    ∃ p' s' v, examine l p refs file fails s = (p', s') ∧ Within l p' s' ∧ Graced l s' ∧
      s' = { s.noted file v with firstSeenAt := s'.firstSeenAt } := by
  unfold examine
  split
  . next href =>
    have hwithin : Within l p
        { s.noted file .referenced with firstSeenAt := s.firstSeenAt.delete file } :=
      hw.noted .referenced (fun k hk => by rw [Map.get?_delete, if_neg hk]) (fun _ _ => .rfl) (by rintro ⟨⟩)
        (fun _ => by rw [Map.get?_delete, if_pos rfl])
    exact ⟨_, _, .referenced, rfl, hwithin, hg.noted (by simp), rfl⟩
  . next href =>
    dsimp only
    split
    . next hkeep =>
      have hwithin : Within l { p with stillOrphaned := p.stillOrphaned ++ [file] }
          { s.noted file .kept with
            firstSeenAt := s.firstSeenAt.set file ((s.firstSeenAt.get? file).getD p.now) } := by
        refine hw.noted .kept (fun k hk => by rw [Map.get?_set, if_neg hk]) (fun k hk => by simp [hk])
          (fun _ => ⟨by simp, _, by rw [Map.get?_set, if_pos rfl], hw.sight hown (.inl rfl)⟩) ?_
        exact fun hne => absurd rfl hne
      exact ⟨_, _, .kept, rfl, hwithin, hg.noted (by simp), rfl⟩
    . next hdelete =>
      have hdue : (s.firstSeenAt.get? file).getD p.now + l.graceMs ≤ p.now := by
        simp only [Bool.or_eq_true, decide_eq_true_eq, not_or, Int.not_lt] at hdelete
        omega
      have hwithin : Within l
          { p with
            stillOrphaned := (p.stillOrphaned ++ [file]).filter (· ≠ file)
            removed := p.removed + 1 }
          { s.noted file .deleted with
            firstSeenAt := (s.firstSeenAt.set file
              ((s.firstSeenAt.get? file).getD p.now)).delete file } := by
        refine hw.noted .deleted (fun k hk => ?_) (fun k hk => by simp [hk]) (by rintro ⟨⟩) (fun _ => ?_)
        . rw [Map.get?_delete, if_neg hk, Map.get?_set, if_neg hk]
        . rw [Map.get?_delete, if_pos rfl]
      exact ⟨_, _, .deleted, rfl, hwithin, hg.deleted hw hown hdue, rfl⟩

/-! ### A pass ends -/

theorem get?_prune (still : List Text) (seen : Js.Map Text Int) (k : Text) :
    (prune still seen).get? k = if k ∈ still then seen.get? k else none := by
  have hfold (ks : List Text) (m : Js.Map Text Int) :
      (ks.foldl (fun m key => if key ∈ still then m else m.delete key) m).get? k =
        if k ∈ ks ∧ k ∉ still then none else m.get? k := by
    induction ks generalizing m with
    | nil => simp
    | cons key ks ih =>
      rw [List.foldl_cons, ih]
      by_cases hkey : key ∈ still
      . by_cases hk : k = key
        . simp [hk, hkey]
        . simp [hk, hkey]
      . by_cases hk : k = key
        . simp [hk, hkey]
        . simp [hk, hkey]
  unfold prune
  rw [hfold]
  by_cases hk : k ∈ still
  . simp [hk]
  . by_cases hmem : k ∈ seen.keys
    . simp [hk, hmem]
    . have hnone : seen.get? k = none := by
        rw [← Option.not_isSome_iff_eq_none, Map.get?_isSome_iff]
        exact hmem
      simp [hk, hnone]

theorem Within.finish (hw : Within l p s) : Rested l (finish p s) := by
  have hpasses := hw.passes
  have hkept (k : Text) (hk : k ∈ p.stillOrphaned) (hhas : s.firstSeenAt.has k = true) :
      s.log.lookup (s.current, k) = some .kept := by
    cases hlookup : s.log.lookup (s.current, k) with
    | none => exact absurd hlookup (hw.listed k hk)
    | some v =>
      by_cases hv : v = .kept
      . rw [hv]
      . rw [hw.dropped k v hlookup hv] at hhas
        contradiction
  constructor
  . intro k t hk
    have hk' : (prune p.stillOrphaned s.firstSeenAt).get? k = some t := hk
    rw [get?_prune] at hk'
    split at hk'
    . next hmem =>
      exact hw.kept k t hk' (hkept k hmem (by rw [Map.has_eq, hk']; rfl))
    . contradiction
  . intro k
    show (prune p.stillOrphaned s.firstSeenAt).has k = true ↔ 0 < s.passes ∧ _
    rw [Map.has_eq, get?_prune]
    constructor
    . intro hhas
      split at hhas
      . next hmem => exact ⟨by omega, hkept k hmem hhas⟩
      . contradiction
    . intro hand
      rcases hw.still k hand.2 with ⟨hmem, hhas⟩
      rw [if_pos hmem]
      exact hhas

/-! ### Runs -/

/-- The bookkeeping is the same; clock, files, rows and phase need not be. -/
structure Same (s s' : State) : Prop where
  firstSeenAt : s'.firstSeenAt = s.firstSeenAt
  passes : s'.passes = s.passes
  nowOf : s'.nowOf = s.nowOf
  log : s'.log = s.log

theorem Same.within (h : Same s s') (hw : Within l p s) : Within l p s' := by
  cases s
  cases s'
  rcases h with ⟨rfl, rfl, rfl, rfl⟩
  exact ⟨hw.passes, hw.now, hw.before, hw.kept, hw.still, hw.dropped, hw.listed⟩

theorem Same.rested (h : Same s s') (hr : Rested l s) : Rested l s' := by
  cases s
  cases s'
  rcases h with ⟨rfl, rfl, rfl, rfl⟩
  exact ⟨hr.sighted, hr.left⟩

theorem Tracked.same (hs : Tracked l s) (h : Same s s') (hphase : s'.phase = s.phase) :
    Tracked l s' := by
  have hrested := hs.rested
  have hwithin := hs.within
  have howned := hs.owned
  rw [← hphase] at hrested hwithin howned
  refine ⟨?_, ?_, howned, fun hp => h.rested (hrested hp), fun p hp => h.within (hwithin p hp)⟩
  . have hg := hs.graced
    unfold Graced Sighted Unreferenced at hg ⊢
    rw [h.log, h.nowOf]
    exact hg
  . rw [h.log, h.passes]
    exact hs.logged

theorem tracked_of_within {phase : Phase} (hg : Graced l s)
    (hlog : ∀ n k v, ((n, k), v) ∈ s.log → n < s.passes) (hw : Within l p s)
    (hphase : phase.pass? = some p) (hown : ∀ k ∈ phase.chunk, l.keyPrefix <+: k) :
    Tracked l { s with phase := phase } where
  graced := hg
  logged := hlog
  owned := hown
  rested h := by
    rw [hphase] at h
    contradiction
  within p' h := by
    rw [hphase, Option.some.injEq] at h
    have hsame : Same s { s with phase := phase } := ⟨rfl, rfl, rfl, rfl⟩
    exact h ▸ hsame.within hw

theorem tracked_finish (hg : Graced l s) (hlog : ∀ n k v, ((n, k), v) ∈ s.log → n < s.passes)
    (hw : Within l p s) : Tracked l (finish p s) where
  graced := hg
  logged := hlog
  owned _ h := nomatch h
  rested _ := hw.finish
  within _ h := nomatch h

theorem Tracked.settle (hs : Tracked l s)
    (hphase : s.phase = .settling p (file :: files) refs more) :
    Tracked l (proceed (examine l p refs file fails s).1 files refs more
      (examine l p refs file fails s).2) := by
  have hw := hs.within p (by rw [hphase]; rfl)
  have hown : ∀ k ∈ file :: files, l.keyPrefix <+: k := by
    have howned := hs.owned
    rw [hphase] at howned
    exact howned
  rcases examine_spec hw hs.graced (hown file List.mem_cons_self) refs fails with
    ⟨p', s', v, heq, hw', hg', hs'⟩
  have hlog : ∀ n k v, ((n, k), v) ∈ s'.log → n < s'.passes := by
    rw [hs']
    intro n k v' hmem
    rcases List.mem_cons.mp hmem with hnew | hmem
    . have hpasses := hw.passes
      rw [(Prod.mk.inj (Prod.mk.inj hnew).1).1]
      show s.current < s.passes
      omega
    . exact hs.logged n k v' hmem
  rw [heq]
  cases files with
  | cons k files => exact tracked_of_within hg' hlog hw' rfl fun k' hk' => hown k' (.tail _ hk')
  | nil =>
    cases more with
    | true => exact tracked_of_within hg' hlog hw' rfl nofun
    | false => exact tracked_finish hg' hlog hw'

theorem Tracked.listing (hs : Tracked l s) (hphase : s.phase = .listing p files)
    (h : sweepStep l s (.list file) = some s') : Tracked l s' := by
  have hw := hs.within p (by rw [hphase]; rfl)
  have hown := hs.owned
  rw [hphase] at hown
  simp only [sweepStep, hphase] at h
  split at h
  . split at h
    . next hunder =>
      have hown' : ∀ k ∈ files ++ [file], l.keyPrefix <+: k := by
        intro k hk
        rcases List.mem_append.mp hk with hk | hk
        . exact hown k hk
        . rw [List.mem_singleton.mp hk]
          exact List.isPrefixOf_iff_prefix.mp hunder
      split at h
      . cases h
        exact tracked_of_within hs.graced hs.logged hw rfl hown'
      . cases h
        exact tracked_of_within hs.graced hs.logged hw rfl hown'
    . cases h
      exact hs
  . contradiction

theorem Tracked.sweepStep (hs : Tracked l s) (h : sweepStep l s e = some s') : Tracked l s' := by
  cases hphase : s.phase with
  | idle =>
    cases e with
    | begin now chunkSize =>
      simp only [OrphanSweep.sweepStep, hphase] at h
      cases h
      exact hs.begin hphase
    | _ => simp [OrphanSweep.sweepStep, hphase] at h
  | listing p files =>
    have hw := hs.within p (by rw [hphase]; rfl)
    have hown := hs.owned
    rw [hphase] at hown
    cases e with
    | list file => exact hs.listing hphase h
    | listed =>
      simp only [OrphanSweep.sweepStep, hphase] at h
      split at h
      . cases h
        exact tracked_finish hs.graced hs.logged hw
      . cases h
        exact tracked_of_within hs.graced hs.logged hw rfl hown
    | _ => simp [OrphanSweep.sweepStep, hphase] at h
  | querying p files more =>
    have hw := hs.within p (by rw [hphase]; rfl)
    have hown := hs.owned
    rw [hphase] at hown
    cases e with
    | query =>
      simp only [OrphanSweep.sweepStep, hphase] at h
      cases h
      exact tracked_of_within hs.graced hs.logged hw rfl hown
    | _ => simp [OrphanSweep.sweepStep, hphase] at h
  | settling p files refs more =>
    cases files with
    | nil => cases e <;> simp [OrphanSweep.sweepStep, hphase] at h
    | cons file files =>
      cases e with
      | settle fails =>
        simp only [OrphanSweep.sweepStep, hphase] at h
        cases h
        exact hs.settle hphase
      | _ => simp [OrphanSweep.sweepStep, hphase] at h

theorem Tracked.step (hs : Tracked l s) (h : (machine l).step s e = some s') : Tracked l s' := by
  cases e with
  | tick ms =>
    cases h
    exact hs.same ⟨rfl, rfl, rfl, rfl⟩ rfl
  | put key =>
    cases h
    exact hs.same ⟨rfl, rfl, rfl, rfl⟩ rfl
  | archive key =>
    simp only [machine] at h
    split at h
    . contradiction
    . cases h
      exact hs.same ⟨rfl, rfl, rfl, rfl⟩ rfl
  | land key =>
    simp only [machine] at h
    split at h
    . cases h
      exact hs.same ⟨rfl, rfl, rfl, rfl⟩ rfl
    . contradiction
  | clear key =>
    cases h
    exact hs.same ⟨rfl, rfl, rfl, rfl⟩ rfl
  | begin now chunkSize => exact hs.sweepStep h
  | list file => exact hs.sweepStep h
  | listed => exact hs.sweepStep h
  | query => exact hs.sweepStep h
  | settle fails => exact hs.sweepStep h

theorem tracked_of_reach {ok : State → Event → Prop} (h : (machine l).Reach ok .init s) : Tracked l s :=
  h.invariant (tracked_init l) fun _ _ _ hs _ hstep => hs.step hstep

/-! ### What is not deleted -/

/--
The passes run at the time they begin, and none lists a file that the archive wrote in or after that
millisecond.
-/
def Timely (s : State) (e : Event) : Prop :=
  match e with
  | .begin now _ => now = s.clock
  | .list k =>
    match s.phase with
    | .listing p _ => ∀ w ∈ s.written.get? k, w < p.now
    | _ => True
  | _ => True

instance (s : State) (e : Event) : Decidable (Timely s e) := by
  unfold Timely
  split
  . infer_instance
  . split <;> infer_instance
  . infer_instance

/-- What the writers and the passes of timely runs keep to. -/
structure Protected (l : Sweep) (s : State) : Prop where
  written : ∀ k w, s.written.get? k = some w → k ∈ s.existed ∧ w ≤ s.clock
  rows : ∀ k r, s.rows.get? k = some r → r ≤ s.clock
  now : ∀ p, s.phase.pass? = some p → p.now ≤ s.clock
  chunk : ∀ p, s.phase.pass? = some p → ∀ k ∈ s.phase.chunk,
    k ∈ s.existed ∧ ∀ w, s.written.get? k = some w → w < p.now
  seen : ∀ k t, s.firstSeenAt.get? k = some t →
    k ∈ s.existed ∧ ∀ w, s.written.get? k = some w → w < t
  /-- A row that the lookup did not find landed after the pass began. -/
  looked : ∀ p files refs more, s.phase = .settling p files refs more →
    ∀ k r, s.rows.get? k = some r → k ∈ refs ∨ p.now ≤ r
  deleted : ∀ n k, ((n, k), .deleted) ∈ s.log → k ∈ s.existed ∧
    ∀ w, s.written.get? k = some w →
      w + l.graceMs < s.clock ∧ ∀ r, s.rows.get? k = some r → w + l.graceMs < r

theorem protected_init (l : Sweep) : Protected l .init where
  written _ _ h := nomatch h
  rows _ _ h := nomatch h
  now _ h := nomatch h
  chunk _ h := nomatch h
  seen _ _ h := nomatch h
  looked _ _ _ _ h := nomatch h
  deleted _ _ h := nomatch h

/-- What examining a file does to the map, and when it deletes. -/
theorem examine_cases (l : Sweep) (p : Pass) (refs : List Text) (file : Text) (fails : Bool)
    (s : State) : ∃ p' seen v,
      examine l p refs file fails s = (p', { s.noted file v with firstSeenAt := seen }) ∧
      p'.now = p.now ∧
      (v = .deleted → file ∉ refs ∧ (s.firstSeenAt.get? file).getD p.now + l.graceMs ≤ p.now) ∧
      ∀ k t, seen.get? k = some t → s.firstSeenAt.get? k = some t ∨
        k = file ∧ t = (s.firstSeenAt.get? file).getD p.now := by
  have hset (k : Text) (t first : Int) (h : (s.firstSeenAt.set file first).get? k = some t) :
      s.firstSeenAt.get? k = some t ∨ k = file ∧ t = first := by
    rw [Map.get?_set] at h
    split at h
    . next heq => exact .inr ⟨heq, (Option.some.inj h).symm⟩
    . exact .inl h
  have hdelete (m : Js.Map Text Int) (k : Text) (t : Int) (h : (m.delete file).get? k = some t) :
      m.get? k = some t := by
    rw [Map.get?_delete] at h
    split at h
    . contradiction
    . exact h
  unfold examine
  split
  . exact ⟨_, _, .referenced, rfl, rfl, nofun, fun k t h => .inl (hdelete _ k t h)⟩
  . next href =>
    dsimp only
    split
    . exact ⟨_, _, .kept, rfl, rfl, nofun, fun k t h => hset k t _ h⟩
    . next hgo =>
      simp only [Bool.or_eq_true, decide_eq_true_eq, not_or, Int.not_lt] at hgo
      exact ⟨_, _, .deleted, rfl, rfl, fun _ => ⟨href, by omega⟩,
        fun k t h => hset k t _ (hdelete _ k t h)⟩

theorem Protected.finish (hs : Protected l s) : Protected l (finish p s) where
  written := hs.written
  rows := hs.rows
  now _ h := nomatch h
  chunk _ h := nomatch h
  seen k t h := by
    have h' : (prune p.stillOrphaned s.firstSeenAt).get? k = some t := h
    rw [get?_prune] at h'
    split at h'
    . exact hs.seen k t h'
    . contradiction
  looked _ _ _ _ h := nomatch h
  deleted := hs.deleted

theorem Protected.rephase {phase : Phase} (hs : Protected l s)
    (hnow : ∀ p, phase.pass? = some p → p.now ≤ s.clock)
    (hchunk : ∀ p, phase.pass? = some p → ∀ k ∈ phase.chunk,
      k ∈ s.existed ∧ ∀ w, s.written.get? k = some w → w < p.now)
    (hlooked : ∀ p files refs more, phase = .settling p files refs more →
      ∀ k r, s.rows.get? k = some r → k ∈ refs ∨ p.now ≤ r) :
    Protected l { s with phase := phase } :=
  ⟨hs.written, hs.rows, hnow, hchunk, hs.seen, hlooked, hs.deleted⟩

theorem Protected.settle (hs : Protected l s)
    (hphase : s.phase = .settling p (file :: files) refs more) :
    Protected l (proceed (examine l p refs file fails s).1 files refs more
      (examine l p refs file fails s).2) := by
  have hnow := hs.now p (by rw [hphase]; rfl)
  have hchunk := hs.chunk p (by rw [hphase]; rfl)
  rw [hphase] at hchunk
  have hlooked := hs.looked p _ _ _ hphase
  rcases examine_cases l p refs file fails s with ⟨p', seen, v, heq, hp', hdel, hseen⟩
  have hfirst (w : Int) (hw : s.written.get? file = some w) :
      w < (s.firstSeenAt.get? file).getD p.now := by
    cases hold : s.firstSeenAt.get? file with
    | none => exact (hchunk file List.mem_cons_self).2 w hw
    | some t => exact (hs.seen file t hold).2 w hw
  have hseen' : ∀ k t, seen.get? k = some t →
      k ∈ s.existed ∧ ∀ w, s.written.get? k = some w → w < t := by
    intro k t hk
    rcases hseen k t hk with hold | ⟨rfl, rfl⟩
    . exact hs.seen k t hold
    . exact ⟨(hchunk k List.mem_cons_self).1, hfirst⟩
  have hdeleted : ∀ n k, ((n, k), .deleted) ∈ (s.noted file v).log → k ∈ s.existed ∧
      ∀ w, s.written.get? k = some w →
        w + l.graceMs < s.clock ∧ ∀ r, s.rows.get? k = some r → w + l.graceMs < r := by
    intro n k hmem
    rcases List.mem_cons.mp hmem with hnew | hmem
    . cases hnew
      rcases hdel rfl with ⟨hrefs, hdue⟩
      refine ⟨(hchunk file List.mem_cons_self).1, fun w hw => ?_⟩
      have hlt := hfirst w hw
      refine ⟨by omega, fun r hr => ?_⟩
      have := (hlooked file r hr).resolve_left hrefs
      omega
    . exact hs.deleted n k hmem
  have hnoted : Protected l { s.noted file v with firstSeenAt := seen, phase := .idle } :=
    ⟨hs.written, hs.rows, nofun, nofun, hseen', nofun, hdeleted⟩
  have hrest : ∀ k ∈ files, k ∈ s.existed ∧ ∀ w, s.written.get? k = some w → w < p'.now :=
    fun k hk => hp' ▸ hchunk k (List.mem_cons_of_mem _ hk)
  rw [heq]
  cases files with
  | cons k files =>
    refine hnoted.rephase (fun q hq => ?_) (fun q hq => ?_) (fun q files' refs' more' hq => ?_)
    . cases hq
      exact hp' ▸ hnow
    . cases hq
      exact hrest
    . cases hq
      exact hp' ▸ hlooked
  | nil =>
    cases more with
    | true =>
      refine hnoted.rephase (fun q hq => ?_) (fun q hq => ?_) nofun
      . cases hq
        exact hp' ▸ hnow
      . cases hq
        nofun
    | false =>
      have hfinish := hnoted.finish (p := p')
      exact ⟨hfinish.written, hfinish.rows, hfinish.now, hfinish.chunk, hfinish.seen, hfinish.looked,
        hfinish.deleted⟩

theorem Protected.list (hs : Protected l s) (htimely : Timely s (.list file))
    (hphase : s.phase = .listing p files) (h : OrphanSweep.sweepStep l s (.list file) = some s') :
    Protected l s' := by
  have hnow := hs.now p (by rw [hphase]; rfl)
  have hchunk := hs.chunk p (by rw [hphase]; rfl)
  rw [hphase] at hchunk
  have hwritten : ∀ w, s.written.get? file = some w → w < p.now := by
    simp only [Timely, hphase] at htimely
    exact fun w hw => htimely w hw
  simp only [OrphanSweep.sweepStep, hphase] at h
  split at h
  . next hexists =>
    have hchunk' : ∀ k ∈ files ++ [file], k ∈ s.existed ∧ ∀ w, s.written.get? k = some w → w < p.now := by
      intro k hk
      rcases List.mem_append.mp hk with hk | hk
      . exact hchunk k hk
      . rw [List.mem_singleton.mp hk]
        exact ⟨hexists, hwritten⟩
    split at h
    . split at h
      . cases h
        refine hs.rephase (fun q hq => ?_) (fun q hq => ?_) (by simp)
        . cases hq
          exact hnow
        . cases hq
          exact hchunk'
      . cases h
        refine hs.rephase (fun q hq => ?_) (fun q hq => ?_) (by simp)
        . cases hq
          exact hnow
        . cases hq
          exact hchunk'
    . cases h
      exact hs
  . contradiction

theorem Protected.sweepStep (hs : Protected l s) (htimely : Timely s e)
    (h : OrphanSweep.sweepStep l s e = some s') : Protected l s' := by
  cases hphase : s.phase with
  | idle =>
    cases e with
    | begin now chunkSize =>
      simp only [OrphanSweep.sweepStep, hphase] at h
      cases h
      refine ⟨hs.written, hs.rows, fun q hq => ?_, fun q _ => by simp [Phase.chunk], hs.seen, by simp, hs.deleted⟩
      cases hq
      exact Int.le_of_eq htimely
    | _ => simp [OrphanSweep.sweepStep, hphase] at h
  | listing p files =>
    cases e with
    | list file => exact hs.list htimely hphase h
    | listed =>
      have hnow := hs.now p (by rw [hphase]; rfl)
      have hchunk := hs.chunk p (by rw [hphase]; rfl)
      rw [hphase] at hchunk
      simp only [OrphanSweep.sweepStep, hphase] at h
      split at h
      . cases h
        exact hs.finish
      . cases h
        refine hs.rephase (fun q hq => ?_) (fun q hq => ?_) (by simp)
        . cases hq
          exact hnow
        . cases hq
          exact hchunk
    | _ => simp [OrphanSweep.sweepStep, hphase] at h
  | querying p files more =>
    cases e with
    | query =>
      have hnow := hs.now p (by rw [hphase]; rfl)
      have hchunk := hs.chunk p (by rw [hphase]; rfl)
      rw [hphase] at hchunk
      simp only [OrphanSweep.sweepStep, hphase] at h
      cases h
      refine hs.rephase (fun q hq => ?_) (fun q hq => ?_) (fun q _ refs _ hq k r hr => ?_)
      . cases hq
        exact hnow
      . cases hq
        exact hchunk
      . cases hq
        exact .inl ((Map.get?_isSome_iff _ _).mp (by rw [hr]; rfl))
    | _ => simp [OrphanSweep.sweepStep, hphase] at h
  | settling p files refs more =>
    cases files with
    | nil => cases e <;> simp [OrphanSweep.sweepStep, hphase] at h
    | cons file files =>
      cases e with
      | settle fails =>
        simp only [OrphanSweep.sweepStep, hphase] at h
        cases h
        exact hs.settle hphase
      | _ => simp [OrphanSweep.sweepStep, hphase] at h

theorem Protected.archive (hs : Protected l s) (hnew : k ∉ s.existed) : Protected l
    { s with existed := s.existed ++ [k], written := s.written.set k s.clock } := by
  have hold {k' : Text} (hk' : k' ∈ s.existed) {w : Int}
      (hw : (s.written.set k s.clock).get? k' = some w) : s.written.get? k' = some w := by
    have hne : k' ≠ k := by
      rintro rfl
      exact hnew hk'
    rw [Map.get?_set, if_neg hne] at hw
    exact hw
  refine ⟨fun k' w hw => ?_, hs.rows, hs.now, fun p hp k' hk' => ?_, fun k' t hk' => ?_, hs.looked,
    fun n k' hk' => ?_⟩
  . have hw' : (s.written.set k s.clock).get? k' = some w := hw
    rw [Map.get?_set] at hw'
    split at hw'
    . next heq =>
      subst heq
      cases hw'
      exact ⟨List.mem_append_right _ List.mem_cons_self, Int.le_refl _⟩
    . exact (hs.written k' w hw').imp_left (List.mem_append_left _)
  . rcases hs.chunk p hp k' hk' with ⟨hmem, hall⟩
    exact ⟨List.mem_append_left _ hmem, fun w hw => hall w (hold hmem hw)⟩
  . rcases hs.seen k' t hk' with ⟨hmem, hall⟩
    exact ⟨List.mem_append_left _ hmem, fun w hw => hall w (hold hmem hw)⟩
  . rcases hs.deleted n k' hk' with ⟨hmem, hall⟩
    exact ⟨List.mem_append_left _ hmem, fun w hw => hall w (hold hmem hw)⟩

theorem Protected.land (hs : Protected l s) : Protected l { s with rows := s.rows.set k s.clock } := by
  have hold {k' : Text} {r : Int} (hr : (s.rows.set k s.clock).get? k' = some r) :
      s.rows.get? k' = some r ∨ r = s.clock := by
    rw [Map.get?_set] at hr
    split at hr
    . exact .inr (Option.some.inj hr).symm
    . exact .inl hr
  refine ⟨hs.written, fun k' r hr => ?_, hs.now, hs.chunk, hs.seen,
    fun p files refs more hphase k' r hr => ?_, fun n k' hk' => ?_⟩
  . rcases hold hr with hr | rfl
    . exact hs.rows k' r hr
    . exact Int.le_refl _
  . rcases hold hr with hr | rfl
    . exact hs.looked p files refs more hphase k' r hr
    . have hphase' : s.phase = .settling p files refs more := hphase
      exact .inr (hs.now p (by rw [hphase']; rfl))
  . rcases hs.deleted n k' hk' with ⟨hmem, hall⟩
    refine ⟨hmem, fun w hw => ⟨(hall w hw).1, fun r hr => ?_⟩⟩
    rcases hold hr with hr | rfl
    . exact (hall w hw).2 r hr
    . exact (hall w hw).1

theorem Protected.step (hs : Protected l s) (htimely : Timely s e)
    (h : (machine l).step s e = some s') : Protected l s' := by
  cases e with
  | tick ms =>
    cases h
    have hlate {x : Int} (hx : x ≤ s.clock) : x ≤ s.clock + ms := by omega
    refine ⟨fun k w hw => (hs.written k w hw).imp_right hlate, fun k r hr => hlate (hs.rows k r hr),
      fun p hp => hlate (hs.now p hp), hs.chunk, hs.seen, hs.looked, fun n k hk => ?_⟩
    rcases hs.deleted n k hk with ⟨hmem, hall⟩
    refine ⟨hmem, fun w hw => ⟨?_, (hall w hw).2⟩⟩
    have := (hall w hw).1
    show w + l.graceMs < s.clock + ms
    omega
  | put key =>
    cases h
    exact ⟨fun k w hw => (hs.written k w hw).imp_left (List.mem_append_left _), hs.rows, hs.now,
      fun p hp k hk => (hs.chunk p hp k hk).imp_left (List.mem_append_left _),
      fun k t hk => (hs.seen k t hk).imp_left (List.mem_append_left _), hs.looked,
      fun n k hk => (hs.deleted n k hk).imp_left (List.mem_append_left _)⟩
  | archive key =>
    simp only [machine] at h
    split at h
    . contradiction
    . next hnew =>
      cases h
      exact hs.archive hnew
  | land key =>
    simp only [machine] at h
    split at h
    . cases h
      exact hs.land
    . contradiction
  | clear key =>
    cases h
    have hold {k : Text} {r : Int} (hr : (s.rows.delete key).get? k = some r) :
        s.rows.get? k = some r := by
      rw [Map.get?_delete] at hr
      split at hr
      . contradiction
      . exact hr
    exact ⟨hs.written, fun k r hr => hs.rows k r (hold hr), hs.now, hs.chunk, hs.seen,
      fun p files refs more hphase k r hr => hs.looked p files refs more hphase k r (hold hr),
      fun n k hk => (hs.deleted n k hk).imp_right fun hall w hw =>
        (hall w hw).imp_right fun hrow r hr => hrow r (hold hr)⟩
  | begin now chunkSize => exact hs.sweepStep htimely h
  | list file => exact hs.sweepStep htimely h
  | listed => exact hs.sweepStep htimely h
  | query => exact hs.sweepStep htimely h
  | settle fails => exact hs.sweepStep htimely h

theorem protected_of_reach (h : (machine l).Reach Timely .init s) : Protected l s :=
  h.invariant (protected_init l) fun _ _ _ hs htimely hstep => hs.step htimely hstep

/-- What the sightings and deletions of a run amount to. -/
structure Swept (l : Sweep) (s : State) : Prop where
  deleted : ∀ n k, ((n, k), .deleted) ∈ s.log → l.keyPrefix <+: k ∧
    ∃ i ≤ n, s.nowOf i + l.graceMs ≤ s.nowOf n ∧ ∀ j, i ≤ j → j ≤ n → Unreferenced s j k
  /-- Between passes a recorded time is that of a pass since which all found the file unreferenced. -/
  recorded : s.phase = .idle → ∀ k t, s.firstSeenAt.get? k = some t → Sighted l s k t s.passes
  left : s.phase = .idle → ∀ n, s.passes = n + 1 →
    ∀ k, s.firstSeenAt.has k = true ↔ s.log.lookup (n, k) = some .kept

/-- A file of the archive whose row landed within the grace window and is still there. -/
def Kept (l : Sweep) (s : State) : Prop :=
  ∀ k w r, s.written.get? k = some w → s.rows.get? k = some r → r ≤ w + l.graceMs →
    ∀ n, ((n, k), .deleted) ∉ s.log

theorem Tracked.swept (hs : Tracked l s) : Swept l s := by
  refine ⟨fun n k hdel => ?_, fun hidle => (hs.rested (by rw [hidle]; rfl)).sighted,
    fun hidle n hn k => ?_⟩
  . rcases hs.graced n k hdel with ⟨t, ⟨hunder, i, hi, ht, hall⟩, hgrace⟩
    exact ⟨hunder, i, Nat.le_of_lt_succ hi, ht ▸ hgrace,
      fun j hj hjn => hall j hj (Nat.lt_succ_of_le hjn)⟩
  . have hcurrent : s.current = n := by
      unfold State.current
      omega
    have hleft := (hs.rested (by rw [hidle]; rfl)).left k
    rw [hcurrent] at hleft
    rw [hleft]
    exact and_iff_right (by omega)

theorem Protected.kept (hs : Protected l s) : Kept l s := by
  intro k w r hw hr hle n hdel
  have := ((hs.deleted n k hdel).2 w hw).2 r hr
  omega

theorem sweeps_keep (l : Sweep) : (∀ s, (machine l).Reach Machine.anyStep .init s → Swept l s) ∧
    ∀ s, (machine l).Reach Timely .init s → Kept l s :=
  ⟨fun _ h => (tracked_of_reach h).swept, fun _ h => (protected_of_reach h).kept⟩

/-- The passes run at the time they begin. -/
def AtClock (s : State) (e : Event) : Prop :=
  match e with
  | .begin now _ => now = s.clock
  | _ => True

instance (s : State) (e : Event) : Decidable (AtClock s e) := by
  unfold AtClock
  split <;> infer_instance

def chatMedia : Sweep := ⟨"chat-media/".toList, 10⟩

def blob : Text := "chat-media/s/1.jpg".toList

/-- One pass that lists the file and settles it. -/
def passAt (now : Int) : List Event :=
  [.begin now (some 2), .list blob, .listed, .query, .settle false]

/-- The file is written before the first pass, and its row lands before the grace window is over. -/
def timelyRun : List Event :=
  [.archive blob, .tick 1] ++ passAt 1 ++ [.tick 9, .land blob, .tick 1] ++ passAt 11

theorem sweeps_keep_blob :
    (∃ s, (machine chatMedia).Reach Timely .init s ∧
      (s.rows.get? blob, s.firstSeenAt.has blob) = (some 10, false) ∧ Kept chatMedia s) ∧
    ∃ s, (machine chatMedia).Reach Machine.anyStep .init s ∧
      s.rows.get? blob = some 10 ∧ Swept chatMedia s := by
  have htimely : ((machine chatMedia).exec Timely .init timelyRun).map
      (fun s => (s.rows.get? blob, s.firstSeenAt.has blob)) = some (some 10, false) := by
    decide +kernel
  have hany : ((machine chatMedia).exec Machine.anyStep .init timelyRun).map
      (fun s => s.rows.get? blob) = some (some 10) := by
    decide +kernel
  rcases Machine.reach_of_exec_map htimely with ⟨s, hreach, heq⟩
  rcases Machine.reach_of_exec_map hany with ⟨s', hreach', heq'⟩
  exact ⟨⟨s, hreach, heq, (sweeps_keep chatMedia).2 s hreach⟩,
    s', hreach', heq', (sweeps_keep chatMedia).1 s' hreach'⟩

/-- A slow pass lists a file that was written after it began. -/
def slowPass : List Event :=
  [.begin 0 none, .tick 5, .archive blob, .list blob, .listed, .query, .settle false, .tick 5] ++
    passAt 10 ++ [.tick 2, .land blob]

theorem slowPass_deletes : ¬ ∀ l s, (machine l).Reach AtClock .init s → Kept l s := by
  intro hall
  have hrun : ((machine chatMedia).exec AtClock .init slowPass).map
      (fun s => (s.written.get? blob, s.rows.get? blob,
        decide (((1, blob), Verdict.deleted) ∈ s.log))) = some (some 5, some 12, true) := by
    decide +kernel
  rcases Machine.reach_of_exec_map hrun with ⟨s, hreach, heq⟩
  simp only [Prod.mk.injEq, decide_eq_true_eq] at heq
  exact hall chatMedia s hreach blob 5 12 heq.1 heq.2.1 (by decide) 1 heq.2.2

end OpenWA.OrphanSweep
