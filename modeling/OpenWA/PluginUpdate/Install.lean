import OpenWA.Disk.Crash
import OpenWA.Disk.Tree
import OpenWA.Js.Text

/-!
This module contains the installation of a plugin package with its rollback, and when a failed
installation leaves the plugins directory as it was.
-/

namespace OpenWA.PluginInstall

open Js Disk

abbrev Bytes := List UInt8

/-- What the plugins directory holds, and where it is itself at `[]`. -/
abbrev Files := Tree Text UInt8

/-- The validated entries in their order, by their paths relative to the package's root. -/
abbrev Package := List (Path Text × Bytes)

/-- What `install` asks the loader, and whether the plugin's directory is a link. -/
structure Context where
  loaded : Bool
  registered : Bool
  linked : Bool
deriving DecidableEq

structure State where
  tree : Files
  written : List (Path Text)

inductive Call where
  | mkdir
  | openFile
  | append
  | push
  | loadPlugin
  | rm
deriving DecidableEq

/-- The calls that may fail for reasons of their own. -/
def throws (l : Call) : Bool :=
  match l with
  | .mkdir | .openFile | .append | .loadPlugin => true
  | .push | .rm => false

abbrev Cmd := Prog State Call

def onTree (l : Call) (f : Files → Option Files) : Cmd :=
  .call l fun s => (f s.tree).map fun tree => { s with tree := tree }

/-- The path `p` and the levels below it on the way along `rest`. -/
def levels (p rest : Path Text) : List (Path Text) :=
  match rest with
  | [] => [p]
  | name :: rest => p :: levels (p ++ [name]) rest

/-- `mkdirSync(p, { recursive: true })` -/
def mkdirSync (p : Path Text) : Cmd := .forEach (levels [] p) fun q => onTree .mkdir fun t => t.mkdir q

/-- The bytes reach the disk one after the other. -/
def writeFileSync (p : Path Text) (data : Bytes) : Cmd :=
  .seq (onTree .openFile fun t => t.openTruncated p)
    (.forEach data fun byte => onTree .append fun t => t.append p byte)

def push (dest : Path Text) : Cmd := .call .push fun s => some { s with written := s.written ++ [dest] }

def writeEntry (id : Text) (entry : Path Text × Bytes) : Cmd :=
  let dest := id :: entry.1
  .seq (mkdirSync dest.dropLast) (.seq (writeFileSync dest entry.2) (push dest))

def writeAndLoad (id : Text) (entries : Package) : Cmd :=
  .seq (.forEach entries (writeEntry id)) (.call .loadPlugin some)

/-- `rmSync` of the files written, or of the whole directory. -/
def rollback (id : Text) (dirExisted : Bool) : Cmd :=
  .read fun s =>
    if dirExisted then .forEach s.written fun dest => onTree .rm fun t => t.unlink dest
    else onTree .rm fun t => some (t.prune [id])

/-- The checks before the first write. -/
def refuses (c : Context) (id : Text) (entries : Package) (t : Files) : Bool :=
  c.loaded || ((t.node [id]).isSome && (!c.registered || (c.linked ||
    entries.any fun entry => t.node (id :: entry.1) = some .dir)))

def install (c : Context) (id : Text) (entries : Package) : Cmd :=
  .read fun s =>
    let dirExisted := (s.tree.node [id]).isSome
    if refuses c id entries s.tree then .raise
    else .attempt (writeAndLoad id entries) (.seq (rollback id dirExisted) .raise)

/-! ### What a failed installation leaves -/

/-- Every file is what it was and the plugin's directory has no further ones in it. -/
def Restored (id : Text) (t t' : Files) : Prop :=
  (∀ p data, t.node p = some (.file data) → t'.node p = some (.file data)) ∧
    ∀ p, [id] <+: p → t'.node p = some .dir → t.node p = some .dir

def isFile (t : Files) (p : Path Text) : Bool :=
  match t.node p with
  | some (.file _) => true
  | _ => false

/-- A file is in the way of the entry, from before or one of those just written. -/
def blocked (t : Files) (own : List (Path Text)) (dest : Path Text) : Bool :=
  (levels [] dest.dropLast).any fun q => decide (q ∈ own) || isFile t q

/--
Up to the first entry that cannot be written because a file is in the way, the entries come to lie in
directories that exist and in the place of no file.
-/
def restorable (t : Files) (id : Text) (own : List (Path Text)) (entries : Package) : Bool :=
  match entries with
  | [] => true
  | entry :: entries =>
    let dest := id :: entry.1
    blocked t own dest ||
      ((levels [] dest.dropLast).all (fun q => t.node q = some .dir) && (!isFile t dest &&
        restorable t id (own ++ [dest]) entries))

variable {id : Text} {entry : Path Text × Bytes} {entries : Package} {t : Files} {s s' : State}
  {p q r dest : Path Text} {data : Bytes} {l : Call} {o : Outcome} {own : List (Path Text)}

theorem ends_onTree {f : Files → Option Files} (h : Ends throws (onTree l f) s o s') :
    (o = .finished ∧ ∃ t', f s.tree = some t' ∧ s' = { s with tree := t' }) ∨
    (o = .thrown ∧ s' = s ∧ (throws l = true ∨ f s.tree = none)) := by
  cases h with
  | call h =>
    rcases Option.map_eq_some_iff.mp h with ⟨t', ht', rfl⟩
    exact .inl ⟨rfl, t', ht', rfl⟩
  | refused h => exact .inr ⟨rfl, rfl, .inr (Option.map_eq_none_iff.mp h)⟩
  | fault h => exact .inr ⟨rfl, rfl, .inl h⟩

theorem onTree_ends {f : Files → Option Files} {t' : Files} (h : f s.tree = some t') :
    Ends throws (onTree l f) s .finished { s with tree := t' } :=
  .call (by rw [h]; rfl)

/-! ### Making directories -/

theorem mem_levels {rest : Path Text} : q ∈ levels p rest ↔ p <+: q ∧ q <+: p ++ rest := by
  induction rest generalizing p with
  | nil =>
    simp only [levels, List.mem_singleton, List.append_nil]
    constructor
    . rintro rfl
      exact ⟨List.prefix_rfl, List.prefix_rfl⟩
    . exact fun h => (h.2.eq_of_length_le h.1.length_le)
  | cons name rest ih =>
    have happend : p ++ name :: rest = p ++ [name] ++ rest := by simp
    rw [levels, List.mem_cons, ih, happend]
    constructor
    . rintro (rfl | ⟨hq, hrest⟩)
      . exact ⟨List.prefix_rfl, (List.prefix_append q [name]).trans (List.prefix_append _ rest)⟩
      . exact ⟨(List.prefix_append p [name]).trans hq, hrest⟩
    . rintro ⟨hq, hrest⟩
      rcases List.prefix_or_prefix_of_prefix hrest (List.prefix_append (p ++ [name]) rest) with h | h
      . rcases List.prefix_concat_iff.mp h with heq | hle
        . exact .inr ⟨heq ▸ List.prefix_rfl, hrest⟩
        . exact .inl (hle.eq_of_length_le hq.length_le)
      . exact .inr ⟨h, hrest⟩

/-- The directories `mkdirSync` made, where there was nothing before. -/
def Made (s s' : State) (rest : Path Text → Prop) : Prop :=
  s'.written = s.written ∧
    ∀ q, s'.tree.node q = s.tree.node q ∨
      (s.tree.node q = none ∧ s'.tree.node q = some .dir ∧ rest q)

theorem mkdir_made {t' : Files} (h : s.tree.mkdir p = some t') :
    Made s { s with tree := t' } (· = p) ∧ t'.node p = some .dir := by
  cases hp : s.tree.node p with
  | none =>
    rw [Tree.mkdir_of_none hp] at h
    have hnode := Tree.put_node h
    refine ⟨⟨rfl, fun q => ?_⟩, by rw [hnode, Function.update_self]⟩
    by_cases hq : q = p
    . subst hq
      exact .inr ⟨hp, by rw [hnode, Function.update_self], rfl⟩
    . exact .inl (by rw [hnode, Function.update_of_ne hq])
  | some x =>
    cases x with
    | file data =>
      rw [Tree.mkdir_of_file hp] at h
      contradiction
    | dir =>
      rw [Tree.mkdir_of_dir hp] at h
      cases h
      exact ⟨⟨rfl, fun q => .inl rfl⟩, hp⟩

theorem mkdirs_made {ps : List (Path Text)}
    (h : Ends throws (.forEach ps fun q => onTree .mkdir fun t => t.mkdir q) s o s') :
    Made s s' (· ∈ ps) ∧ (o = .finished → ∀ q ∈ ps, s'.tree.node q = some .dir) := by
  induction ps generalizing s with
  | nil =>
    cases h
    exact ⟨⟨rfl, fun q => .inl rfl⟩, fun _ q hq => nomatch hq⟩
  | cons p ps ih =>
    cases h with
    | seq hp hps =>
      rcases ends_onTree hp with ⟨_, t', ht', rfl⟩ | ⟨hthrown, _⟩
      . rcases mkdir_made ht' with ⟨hmade, hdir⟩
        rcases ih hps with ⟨hmades, hdirs⟩
        have hkept : s'.tree.node p = some .dir := by
          rcases hmades.2 p with heq | ⟨hnone, _⟩
          . rw [heq]
            exact hdir
          . rw [hdir] at hnone
            contradiction
        refine ⟨⟨hmades.1, fun q => ?_⟩, fun ho q hq => ?_⟩
        . rcases hmades.2 q with heq | ⟨hnone, hq, hmem⟩
          . rw [heq]
            rcases hmade.2 q with heq' | ⟨hnone, hq, rfl⟩
            . exact .inl heq'
            . exact .inr ⟨hnone, hq, List.mem_cons_self⟩
          . rcases hmade.2 q with heq | ⟨hnone', _⟩
            . exact .inr ⟨heq ▸ hnone, hq, List.mem_cons_of_mem _ hmem⟩
            . exact .inr ⟨hnone', hq, List.mem_cons_of_mem _ hmem⟩
        . rcases List.mem_cons.mp hq with rfl | hq
          . exact hkept
          . exact hdirs ho q hq
      . contradiction
    | seqThrown hp =>
      rcases ends_onTree hp with ⟨ho, _⟩ | ⟨_, rfl, _⟩
      . contradiction
      . exact ⟨⟨rfl, fun q => .inl rfl⟩, nofun⟩

theorem mkdir_finishes (hparent : t.hasParent p = true) (hfile : isFile t p = false) :
    ∃ t', t.mkdir p = some t' := by
  cases hp : t.node p with
  | none =>
    rw [Tree.mkdir_of_none hp]
    exact Tree.put_isSome hparent (.inl rfl)
  | some x =>
    cases x with
    | file data => simp [isFile, hp] at hfile
    | dir => exact ⟨_, Tree.mkdir_of_dir hp⟩

/-- Where no file is in the way, the directories can be made. -/
theorem mkdirs_finish {rest : Path Text} (hparent : s.tree.hasParent p = true)
    (hfree : ∀ q ∈ levels p rest, isFile s.tree q = false) :
    ∃ s', Ends throws (.forEach (levels p rest) fun q => onTree .mkdir fun t => t.mkdir q) s
      .finished s' := by
  have hhead : p ∈ levels p rest := mem_levels.mpr ⟨List.prefix_rfl, List.prefix_append p rest⟩
  rcases mkdir_finishes hparent (hfree p hhead) with ⟨t', ht'⟩
  have hstep : Ends throws (onTree .mkdir fun t => t.mkdir p) s .finished { s with tree := t' } :=
    onTree_ends ht'
  induction rest generalizing p s t' with
  | nil => exact ⟨_, .seq hstep .done⟩
  | cons name rest ih =>
    rcases mkdir_made ht' with ⟨hmade, hdir⟩
    have hparent' : t'.hasParent (p ++ [name]) = true := by simp [Tree.hasParent, hdir]
    have hfree' : ∀ q ∈ levels (p ++ [name]) rest, isFile t' q = false := by
      intro q hq
      rcases hmade.2 q with heq | ⟨_, hq', _⟩
      . have hold := hfree q (List.mem_cons_of_mem _ hq)
        unfold isFile at hold ⊢
        rw [← heq] at hold
        exact hold
      . have hq'' : t'.node q = some .dir := hq'
        unfold isFile
        rw [hq'']
    have hhead' : p ++ [name] ∈ levels (p ++ [name]) rest :=
      mem_levels.mpr ⟨List.prefix_rfl, List.prefix_append _ rest⟩
    rcases mkdir_finishes hparent' (hfree' _ hhead') with ⟨t'', ht''⟩
    rcases ih (s := { s with tree := t' }) hparent' hfree' hhead' t'' ht'' (onTree_ends ht'') with
      ⟨s', hs'⟩
    exact ⟨s', .seq hstep hs'⟩

/-! ### Writing a file -/

/-- At most the file at `p` is another one. -/
def Wrote (p : Path Text) (s s' : State) : Prop :=
  s'.written = s.written ∧ (∀ q, q ≠ p → s'.tree.node q = s.tree.node q) ∧
    (s'.tree.node p = s.tree.node p ∨
      s.tree.node p ≠ some .dir ∧ ∃ data, s'.tree.node p = some (.file data))

theorem put_wrote {t' : Files} (h : s.tree.put p (.file data) = some t') :
    Wrote p s { s with tree := t' } := by
  have hnode := Tree.put_node h
  refine ⟨rfl, fun q hq => by rw [hnode, Function.update_of_ne hq], .inr ⟨Tree.put_not_dir h, data, ?_⟩⟩
  rw [hnode, Function.update_self]

theorem Wrote.trans {s₁ s₂ : State} (h : Wrote p s s₁) (h' : Wrote p s₁ s₂) : Wrote p s s₂ := by
  refine ⟨h'.1.trans h.1, fun q hq => (h'.2.1 q hq).trans (h.2.1 q hq), ?_⟩
  rcases h'.2.2 with heq | ⟨hne, data, hdata⟩
  . rw [heq]
    exact h.2.2
  . rcases h.2.2 with heq | ⟨hne', _⟩
    . exact .inr ⟨heq ▸ hne, data, hdata⟩
    . exact .inr ⟨hne', data, hdata⟩

theorem append_wrote {t' : Files} {byte : UInt8} (h : s.tree.append p byte = some t') :
    Wrote p s { s with tree := t' } := by
  unfold Tree.append at h
  split at h
  . exact put_wrote h
  . contradiction

theorem appends_wrote (h : Ends throws (.forEach data fun byte =>
    onTree .append fun t => t.append p byte) s o s') : Wrote p s s' := by
  induction data generalizing s with
  | nil =>
    cases h
    exact ⟨rfl, fun _ _ => rfl, .inl rfl⟩
  | cons byte data ih =>
    cases h with
    | seq hp hps =>
      rcases ends_onTree hp with ⟨_, t', ht', rfl⟩ | ⟨hthrown, _⟩
      . exact (append_wrote ht').trans (ih hps)
      . contradiction
    | seqThrown hp =>
      rcases ends_onTree hp with ⟨ho, _⟩ | ⟨_, rfl, _⟩
      . contradiction
      . exact ⟨rfl, fun _ _ => rfl, .inl rfl⟩

theorem writeFileSync_wrote (h : Ends throws (writeFileSync p data) s o s') :
    Wrote p s s' ∧ (o = .finished → ∃ data, s'.tree.node p = some (.file data)) := by
  have hopened {t' : Files} (ht' : s.tree.openTruncated p = some t') :
      t'.node p = some (.file []) := by
    rw [Tree.put_node ht', Function.update_self]
  cases h with
  | seq hp hps =>
    rcases ends_onTree hp with ⟨_, t', ht', rfl⟩ | ⟨hthrown, _⟩
    . have happends := appends_wrote hps
      refine ⟨(put_wrote ht').trans happends, fun _ => ?_⟩
      rcases happends.2.2 with heq | ⟨_, hdata⟩
      . exact ⟨[], heq.trans (hopened ht')⟩
      . exact hdata
    . contradiction
  | seqThrown hp =>
    rcases ends_onTree hp with ⟨ho, _⟩ | ⟨_, rfl, _⟩
    . contradiction
    . exact ⟨⟨rfl, fun _ _ => rfl, .inl rfl⟩, nofun⟩

theorem put_finishes (data : Bytes) (hparent : t.hasParent p = true) (hdir : t.node p ≠ some .dir) :
    ∃ t', t.put p (.file data) = some t' ∧ t'.hasParent p = true ∧ t'.node p = some (.file data) := by
  rcases Tree.put_isSome hparent (.inr hdir) with ⟨t', ht'⟩
  have hnode := Tree.put_node ht'
  refine ⟨t', ht', ?_, by rw [hnode, Function.update_self]⟩
  by_cases hp : p = []
  . simp [Tree.hasParent, hp]
  . have hne : p.dropLast ≠ p := by
      intro heq
      have hlen := congrArg List.length heq
      have hpos := List.length_pos_iff.mpr hp
      rw [List.length_dropLast] at hlen
      omega
    rw [Tree.hasParent, hnode, Function.update_of_ne hne]
    exact hparent

theorem appends_finish {old : Bytes} (hparent : s.tree.hasParent p = true)
    (h : s.tree.node p = some (.file old)) :
    ∃ s', Ends throws (.forEach data fun byte => onTree .append fun t => t.append p byte) s
      .finished s' := by
  induction data generalizing s old with
  | nil => exact ⟨s, .done⟩
  | cons byte data ih =>
    rcases put_finishes (old ++ [byte]) hparent (by rw [h]; exact nofun) with
      ⟨t', ht', hparent', hnode⟩
    have happend : s.tree.append p byte = some t' := by
      unfold Tree.append
      rw [h]
      exact ht'
    rcases ih (s := { s with tree := t' }) hparent' hnode with ⟨s', hs'⟩
    exact ⟨s', .seq (onTree_ends happend) hs'⟩

theorem writeFileSync_finishes (hparent : s.tree.hasParent p = true)
    (hdir : s.tree.node p ≠ some .dir) : ∃ s', Ends throws (writeFileSync p data) s .finished s' := by
  rcases put_finishes [] hparent hdir with ⟨t', ht', hparent', hnode⟩
  have happends : ∃ s', Ends throws (.forEach data fun byte => onTree .append fun t => t.append p byte)
      { s with tree := t' } .finished s' := appends_finish hparent' hnode
  rcases happends with ⟨s', hs'⟩
  exact ⟨s', .seq (onTree_ends ht') hs'⟩

/-! ### Writing the package over what is there -/

/-- All that is new are files where there was nothing. -/
structure Grown (t : Files) (s : State) : Prop where
  nodes : ∀ q, s.tree.node q = t.node q ∨
    t.node q = none ∧ ∃ data, s.tree.node q = some (.file data)
  written : ∀ q ∈ s.written, t.node q = none

/-- Between two entries the new files are those written. -/
structure Between (t : Files) (own : List (Path Text)) (s : State) : Prop where
  nodes : ∀ q, q ∉ own → s.tree.node q = t.node q
  files : ∀ q ∈ own, t.node q = none ∧ ∃ data, s.tree.node q = some (.file data)
  written : s.written = own

theorem Between.grown (hs : Between t own s) : Grown t s where
  nodes q := by
    by_cases hq : q ∈ own
    . exact .inr (hs.files q hq)
    . exact .inl (hs.nodes q hq)
  written q hq := (hs.files q (hs.written ▸ hq)).1

theorem Between.file_iff (hs : Between t own s) :
    isFile s.tree q = true ↔ q ∈ own ∨ isFile t q = true := by
  by_cases hq : q ∈ own
  . rcases (hs.files q hq).2 with ⟨data, hdata⟩
    simp [PluginInstall.isFile, hdata, hq]
  . simp [PluginInstall.isFile, hs.nodes q hq, hq]

theorem isFile_iff : isFile t q = true ↔ ∃ data, t.node q = some (.file data) := by
  unfold isFile
  split
  . next data h => exact ⟨fun _ => ⟨data, h⟩, fun _ => rfl⟩
  . next h =>
    constructor
    . nofun
    . rintro ⟨data, hdata⟩
      exact absurd hdata (h data)

theorem blocked_iff (hs : Between t own s) :
    blocked t own dest = true ↔ ∃ q ∈ levels [] dest.dropLast, isFile s.tree q = true := by
  simp only [blocked, List.any_eq_true, Bool.or_eq_true, decide_eq_true_eq, hs.file_iff]

/-- With a file in the way no directory is made. -/
theorem mkdirSync_blocked (hq : q ∈ levels [] p) (hfile : isFile s.tree q = true)
    (h : Ends throws (mkdirSync p) s o s') :
    o = .thrown ∧ s'.written = s.written ∧ s'.tree.node = s.tree.node := by
  rcases mkdirs_made h with ⟨hmade, hdirs⟩
  rcases isFile_iff.mp hfile with ⟨data, hdata⟩
  have hkept : s'.tree.node q = some (.file data) := by
    rcases hmade.2 q with heq | ⟨hnone, _⟩
    . rw [heq, hdata]
    . rw [hdata] at hnone
      contradiction
  refine ⟨?_, hmade.1, funext fun r => ?_⟩
  . cases o with
    | thrown => rfl
    | finished =>
      have hdir := hdirs rfl q hq
      rw [hkept] at hdir
      cases hdir
  . rcases hmade.2 r with heq | ⟨hnone, hdir, hr⟩
    . exact heq
    . -- `r` is above the file, where there are directories, or below it, where there is nothing
      have hqp := (mem_levels.mp hq).2
      have hrp := (mem_levels.mp hr).2
      have hne : r ≠ q := by
        rintro rfl
        rw [hdata] at hnone
        contradiction
      rcases List.prefix_or_prefix_of_prefix hqp hrp with hqr | hrq
      . have hnot : s'.tree.node q ≠ some .dir := by
          rw [hkept]
          exact nofun
        have hnothing := Tree.none_below hnot hqr hne.symm
        rw [hdir] at hnothing
        contradiction
      . have hsome : s.tree.node q ≠ none := by
          rw [hdata]
          exact nofun
        have hdir' := Tree.dir_above hsome hrq hne
        rw [hnone] at hdir'
        contradiction

theorem mkdirSync_same (hdirs : ∀ q ∈ levels [] p, s.tree.node q = some .dir)
    (h : Ends throws (mkdirSync p) s o s') : s'.written = s.written ∧ s'.tree.node = s.tree.node := by
  rcases mkdirs_made h with ⟨hmade, _⟩
  refine ⟨hmade.1, funext fun q => ?_⟩
  rcases hmade.2 q with heq | ⟨hnone, _, hq⟩
  . exact heq
  . rw [hdirs q hq] at hnone
    contradiction

theorem writeEntry_cases (h : Ends throws (writeEntry id entry) s o s') :
    Ends throws (mkdirSync (id :: entry.1).dropLast) s .thrown s' ∧ o = .thrown ∨
    ∃ s₁, Ends throws (mkdirSync (id :: entry.1).dropLast) s .finished s₁ ∧
      (Ends throws (writeFileSync (id :: entry.1) entry.2) s₁ .thrown s' ∧ o = .thrown ∨
        ∃ s₂, Ends throws (writeFileSync (id :: entry.1) entry.2) s₁ .finished s₂ ∧
          s' = { s₂ with written := s₂.written ++ [id :: entry.1] }) := by
  cases h with
  | seqThrown hmk => exact .inl ⟨hmk, rfl⟩
  | seq hmk hrest =>
    refine .inr ⟨_, hmk, ?_⟩
    cases hrest with
    | seqThrown hwrite => exact .inl ⟨hwrite, rfl⟩
    | seq hwrite hpush =>
      refine .inr ⟨_, hwrite, ?_⟩
      cases hpush with
      | call h => exact (Option.some.inj h).symm
      | refused h => contradiction
      | fault h => contradiction

theorem Between.wrote {s₁ s₂ : State} (hs : Between t own s) (hnone : t.node dest = none)
    (hsame : s₁.written = s.written ∧ s₁.tree.node = s.tree.node) (hwrote : Wrote dest s₁ s₂) :
    Grown t s₂ := by
  have hgrown := hs.grown
  refine ⟨fun q => ?_, fun q hq => hgrown.written q ?_⟩
  . by_cases hq : q = dest
    . subst hq
      rcases hwrote.2.2 with heq | ⟨_, hdata⟩
      . rw [heq, hsame.2]
        exact hgrown.nodes q
      . exact .inr ⟨hnone, hdata⟩
    . rw [hwrote.2.1 q hq, hsame.2]
      exact hgrown.nodes q
  . rw [hwrote.1, hsame.1] at hq
    exact hq

theorem Between.pushed {s₁ s₂ : State} (hs : Between t own s) (hnone : t.node dest = none)
    (hsame : s₁.written = s.written ∧ s₁.tree.node = s.tree.node) (hwrote : Wrote dest s₁ s₂)
    (hdata : ∃ data, s₂.tree.node dest = some (.file data)) :
    Between t (own ++ [dest]) { s₂ with written := s₂.written ++ [dest] } := by
  refine ⟨fun q hq => ?_, fun q hq => ?_, ?_⟩
  . rw [List.mem_append, List.mem_singleton, not_or] at hq
    show s₂.tree.node q = t.node q
    rw [hwrote.2.1 q hq.2, hsame.2, hs.nodes q hq.1]
  . by_cases hdest : q = dest
    . subst hdest
      exact ⟨hnone, hdata⟩
    . have hmem : q ∈ own := by simpa [hdest] using hq
      rcases hs.files q hmem with ⟨hq', data, hdata⟩
      exact ⟨hq', data, by rw [hwrote.2.1 q hdest, hsame.2, hdata]⟩
  . show s₂.written ++ [dest] = own ++ [dest]
    rw [hwrote.1, hsame.1, hs.written]

/-- What an entry leaves that has a file in its way, or its directories and no file in its place. -/
theorem Between.step (hs : Between t own s) (h : Ends throws (writeEntry id entry) s o s')
    (hentry : blocked t own (id :: entry.1) = true ∨
      (∀ q ∈ levels [] (id :: entry.1).dropLast, t.node q = some .dir) ∧ t.node (id :: entry.1) = none) :
    Grown t s' ∧ (o = .finished → blocked t own (id :: entry.1) = false ∧
      Between t (own ++ [id :: entry.1]) s') := by
  by_cases hblocked : blocked t own (id :: entry.1) = true
  . rcases (blocked_iff hs).mp hblocked with ⟨q, hq, hfile⟩
    rcases writeEntry_cases h with ⟨hmk, rfl⟩ | ⟨s₁, hmk, _⟩
    . have hsame := (mkdirSync_blocked hq hfile hmk).2
      have hgrown := hs.grown
      exact ⟨⟨fun r => by rw [hsame.2]; exact hgrown.nodes r, fun r hr => hgrown.written r (hsame.1 ▸ hr)⟩,
        nofun⟩
    . exact absurd (mkdirSync_blocked hq hfile hmk).1 nofun
  . rcases hentry.resolve_left hblocked with ⟨hdirs, hnone⟩
    have hdirs' : ∀ q ∈ levels [] (id :: entry.1).dropLast, s.tree.node q = some .dir := by
      intro q hq
      have hnot : q ∉ own := by
        intro hown
        have hdir := hdirs q hq
        rw [(hs.files q hown).1] at hdir
        contradiction
      rw [hs.nodes q hnot, hdirs q hq]
    rcases writeEntry_cases h with ⟨hmk, rfl⟩ | ⟨s₁, hmk, ⟨hwrite, rfl⟩ | ⟨s₂, hwrite, rfl⟩⟩
    . have hsame := mkdirSync_same hdirs' hmk
      have hgrown := hs.grown
      exact ⟨⟨fun r => by rw [hsame.2]; exact hgrown.nodes r, fun r hr => hgrown.written r (hsame.1 ▸ hr)⟩,
        nofun⟩
    . exact ⟨hs.wrote hnone (mkdirSync_same hdirs' hmk) (writeFileSync_wrote hwrite).1, nofun⟩
    . have hsame := mkdirSync_same hdirs' hmk
      rcases writeFileSync_wrote hwrite with ⟨hwrote, hdata⟩
      have hpushed := hs.pushed hnone hsame hwrote (hdata rfl)
      exact ⟨hpushed.grown, fun _ => ⟨Bool.not_eq_true _ ▸ hblocked, hpushed⟩⟩

theorem none_of_free (hfile : isFile t p = false) (hdir : t.node p ≠ some .dir) : t.node p = none := by
  cases hp : t.node p with
  | none => rfl
  | some x =>
    cases x with
    | file data => simp [isFile, hp] at hfile
    | dir => exact absurd hp hdir

theorem restorable_cons (entry : Path Text × Bytes) :
    restorable t id own (entry :: entries) = true ↔ blocked t own (id :: entry.1) = true ∨
      (∀ q ∈ levels [] (id :: entry.1).dropLast, t.node q = some .dir) ∧
        isFile t (id :: entry.1) = false ∧
        restorable t id (own ++ [id :: entry.1]) entries = true := by
  simp [restorable, List.all_eq_true]

theorem entries_grown (hs : Between t own s) (hrest : restorable t id own entries = true)
    (hdirs : ∀ entry ∈ entries, t.node (id :: entry.1) ≠ some .dir)
    (h : Ends throws (.forEach entries (writeEntry id)) s o s') : Grown t s' := by
  induction entries generalizing own s with
  | nil =>
    cases h
    exact hs.grown
  | cons entry entries ih =>
    have hentry := (restorable_cons entry).mp hrest
    have hcond := hentry.imp_right fun hand =>
      (⟨hand.1, none_of_free hand.2.1 (hdirs entry List.mem_cons_self)⟩ :
        (∀ q ∈ levels [] (id :: entry.1).dropLast, t.node q = some .dir) ∧
          t.node (id :: entry.1) = none)
    cases h with
    | seqThrown hw => exact (hs.step hw hcond).1
    | seq hw hws =>
      rcases (hs.step hw hcond).2 rfl with ⟨hfree, hs'⟩
      have hleft := hentry.resolve_left (by rw [hfree]; exact Bool.false_ne_true)
      exact ih hs' hleft.2.2 (fun entry' h => hdirs entry' (List.mem_cons_of_mem _ h)) hws

theorem Grown.unlinked {rs : List (Path Text)} (hs : Grown t s) (hrs : ∀ r ∈ rs, t.node r = none)
    (h : Ends throws (.forEach rs fun r => onTree .rm fun t => t.unlink r) s o s') : Grown t s' := by
  induction rs generalizing s with
  | nil =>
    cases h
    exact hs
  | cons r rs ih =>
    have hnone : t.node r = none := hrs r List.mem_cons_self
    have hrs' := fun r' hr' => hrs r' (List.mem_cons_of_mem r hr')
    cases h with
    | seqThrown hr =>
      rcases ends_onTree hr with ⟨ho, _⟩ | ⟨_, rfl, _⟩
      . contradiction
      . exact hs
    | seq hr hrest =>
      rcases ends_onTree hr with ⟨_, t', ht', rfl⟩ | ⟨ho, _⟩
      . refine ih (s := { s with tree := t' }) ⟨fun q => ?_, hs.written⟩ hrs' hrest
        rw [(Tree.unlink_eq ht').2]
        show (s.tree.prune r).node q = _ ∨ _ ∧ ∃ data, (s.tree.prune r).node q = _
        rw [Tree.prune_node]
        split
        . next hunder =>
          left
          by_cases heq : r = q
          . rw [← heq, hnone]
          . exact (Tree.none_below (by rw [hnone]; exact nofun) hunder heq).symm
        . exact hs.nodes q
      . contradiction

theorem Grown.restored (hs : Grown t s) : Restored id t s.tree := by
  refine ⟨fun p data hp => ?_, fun p _ hp => ?_⟩
  . rcases hs.nodes p with heq | ⟨hnone, _⟩
    . rw [heq, hp]
    . rw [hp] at hnone
      contradiction
  . rcases hs.nodes p with heq | ⟨_, data, hdata⟩
    . rw [← heq, hp]
    . rw [hp] at hdata
      cases hdata

/-! ### What the rollback cannot restore -/

/-- A directory is there that was not, or a file was overwritten that the rollback then removes. -/
def Damaged (id : Text) (t : Files) (s : State) : Prop :=
  (∀ r ∈ s.written, isFile s.tree r = true) ∧
    ((∃ q, [id] <+: q ∧ t.node q = none ∧ s.tree.node q = some .dir ∧ ∀ r ∈ s.written, ¬ r <+: q) ∨
      ∃ p ∈ s.written, isFile t p = true)

/-- The rest of the installation can fail before it changes anything. -/
theorem rest_throws (entries : Package) (s : State) :
    Ends throws (writeAndLoad id entries) s .thrown s := by
  cases entries with
  | nil => exact .seq .done (.fault rfl)
  | cons entry entries =>
    apply Ends.seqThrown
    apply Ends.seqThrown
    apply Ends.seqThrown
    have hfault : Ends throws (onTree .mkdir fun t => t.mkdir []) s .thrown s := .fault rfl
    have hhead : ∃ ps, levels [] (id :: entry.1).dropLast = [] :: ps := by
      cases (id :: entry.1).dropLast with
      | nil => exact ⟨_, rfl⟩
      | cons name rest => exact ⟨_, rfl⟩
    rcases hhead with ⟨ps, hps⟩
    unfold mkdirSync
    rw [hps]
    exact .seqThrown hfault

theorem writeAndLoad_cons {s₁ : State} (hentry : Ends throws (writeEntry id entry) s .finished s₁)
    (hrest : Ends throws (writeAndLoad id entries) s₁ .thrown s') :
    Ends throws (writeAndLoad id (entry :: entries)) s .thrown s' := by
  cases hrest with
  | seq hws hload => exact .seq (.seq hentry hws) hload
  | seqThrown hws => exact .seqThrown (.seq hentry hws)

theorem writeEntry_finish {s₁ s₂ : State}
    (hmk : Ends throws (mkdirSync (id :: entry.1).dropLast) s .finished s₁)
    (hwrite : Ends throws (writeFileSync (id :: entry.1) entry.2) s₁ .finished s₂) :
    Ends throws (writeEntry id entry) s .finished
      { s₂ with written := s₂.written ++ [id :: entry.1] } :=
  .seq hmk (.seq hwrite (.call rfl))

theorem levels_above (hp : q ∈ levels [] (id :: p).dropLast) : q <+: id :: p ∧ q ≠ id :: p := by
  have hunder := (mem_levels.mp hp).2
  rw [List.nil_append] at hunder
  refine ⟨hunder.trans (List.dropLast_prefix _), fun heq => ?_⟩
  have hlen := hunder.length_le
  rw [heq, List.length_dropLast, List.length_cons] at hlen
  omega

theorem Between.entry_finishes (hs : Between t own s)
    (hdirs : ∀ q ∈ levels [] (id :: entry.1).dropLast, t.node q = some .dir)
    (hdir : t.node (id :: entry.1) ≠ some .dir) :
    ∃ s₁ s₂, (s₁.written = s.written ∧ s₁.tree.node = s.tree.node) ∧
      Ends throws (mkdirSync (id :: entry.1).dropLast) s .finished s₁ ∧
      Ends throws (writeFileSync (id :: entry.1) entry.2) s₁ .finished s₂ := by
  have hdirs' : ∀ q ∈ levels [] (id :: entry.1).dropLast, s.tree.node q = some .dir := by
    intro q hq
    rcases hs.grown.nodes q with heq | ⟨hnone, _⟩
    . rw [heq, hdirs q hq]
    . rw [hdirs q hq] at hnone
      contradiction
  have hopen : ∀ q ∈ levels [] (id :: entry.1).dropLast, isFile s.tree q = false := by
    intro q hq
    simp [isFile, hdirs' q hq]
  have hmk : ∃ s₁, Ends throws (mkdirSync (id :: entry.1).dropLast) s .finished s₁ :=
    mkdirs_finish rfl hopen
  rcases hmk with ⟨s₁, hmk⟩
  have hsame := mkdirSync_same hdirs' hmk
  have hlast : (id :: entry.1).dropLast ∈ levels [] (id :: entry.1).dropLast :=
    mem_levels.mpr ⟨List.nil_prefix, List.prefix_rfl⟩
  have hparent : s₁.tree.hasParent (id :: entry.1) = true := by
    simp [Tree.hasParent, hsame.2, hdirs' _ hlast]
  have hdest : s₁.tree.node (id :: entry.1) ≠ some .dir := by
    rw [hsame.2]
    rcases hs.grown.nodes (id :: entry.1) with heq | ⟨_, data, hdata⟩
    . rw [heq]
      exact hdir
    . rw [hdata]
      exact nofun
  have hwrite : ∃ s₂, Ends throws (writeFileSync (id :: entry.1) entry.2) s₁ .finished s₂ :=
    writeFileSync_finishes hparent hdest
  rcases hwrite with ⟨s₂, hwrite⟩
  exact ⟨s₁, s₂, hsame, hmk, hwrite⟩

/-- A directory that is made stays when the next call fails. -/
theorem Between.damage_of_made (hs : Between t own s) (hid : t.node [id] ≠ none)
    (hfree : blocked t own (id :: entry.1) = false)
    (hq : q ∈ levels [] (id :: entry.1).dropLast) (hqdir : t.node q ≠ some .dir) :
    ∃ s', Ends throws (writeAndLoad id (entry :: entries)) s .thrown s' ∧ Damaged id t s' := by
  have hopen : ∀ q ∈ levels [] (id :: entry.1).dropLast, isFile s.tree q = false := by
    intro q hq
    rw [Bool.eq_false_iff]
    intro hfile
    rw [(blocked_iff hs).mpr ⟨q, hq, hfile⟩] at hfree
    contradiction
  have hnot (r : Path Text) (hr : r ∈ levels [] (id :: entry.1).dropLast) :
      r ∉ own ∧ isFile t r = false := by
    have hor := mt hs.file_iff.mpr (by rw [hopen r hr]; exact Bool.false_ne_true)
    rw [not_or, Bool.not_eq_true] at hor
    exact hor
  have hmk : ∃ s₁, Ends throws (mkdirSync (id :: entry.1).dropLast) s .finished s₁ :=
    mkdirs_finish rfl hopen
  rcases hmk with ⟨s₁, hmk⟩
  rcases mkdirs_made hmk with ⟨hmade, hdirs⟩
  have hthrown : Ends throws (writeFileSync (id :: entry.1) entry.2) s₁ .thrown s₁ :=
    .seqThrown (.fault rfl)
  refine ⟨s₁, .seqThrown (.seqThrown (.seq hmk (.seqThrown hthrown))), ?_, .inl ⟨q, ?_, ?_, ?_, ?_⟩⟩
  . intro r hr
    rw [hmade.1, hs.written] at hr
    rcases (hs.files r hr).2 with ⟨data, hdata⟩
    rcases hmade.2 r with heq | ⟨hnone, _⟩
    . exact isFile_iff.mpr ⟨data, by rw [heq, hdata]⟩
    . rw [hdata] at hnone
      contradiction
  . cases q with
    | nil => exact absurd (Tree.dir_above hid List.nil_prefix nofun) hqdir
    | cons name q =>
      rw [(List.cons_prefix_cons.mp (levels_above hq).1).1]
      exact List.cons_prefix_cons.mpr ⟨rfl, List.nil_prefix⟩
  . exact none_of_free (hnot q hq).2 hqdir
  . exact hdirs rfl q hq
  . intro r hr hrq
    rw [hmade.1, hs.written] at hr
    exact (hnot r (mem_levels.mpr ⟨List.nil_prefix, hrq.trans (mem_levels.mp hq).2⟩)).1 hr

/-- A file that is overwritten is lost when a later call fails. -/
theorem Between.damage_of_file (hs : Between t own s)
    (hdirs : ∀ q ∈ levels [] (id :: entry.1).dropLast, t.node q = some .dir)
    (hfile : isFile t (id :: entry.1) = true) :
    ∃ s', Ends throws (writeAndLoad id (entry :: entries)) s .thrown s' ∧ Damaged id t s' := by
  have hdir : t.node (id :: entry.1) ≠ some .dir := by
    rcases isFile_iff.mp hfile with ⟨data, hdata⟩
    rw [hdata]
    exact nofun
  rcases hs.entry_finishes hdirs hdir with ⟨s₁, s₂, hsame, hmk, hwrite⟩
  refine ⟨_, writeAndLoad_cons (writeEntry_finish hmk hwrite) (rest_throws entries _), ?_,
    .inr ⟨id :: entry.1, List.mem_append_right _ List.mem_cons_self, hfile⟩⟩
  rcases writeFileSync_wrote hwrite with ⟨hwrote, hdata⟩
  intro r hr
  rw [isFile_iff]
  by_cases heq : r = id :: entry.1
  . exact heq ▸ hdata rfl
  . have hmem : r ∈ own := by
      rw [hwrote.1, hsame.1, hs.written] at hr
      simpa [heq] using hr
    rcases (hs.files r hmem).2 with ⟨data, hdata⟩
    exact ⟨data, by rw [hwrote.2.1 r heq, hsame.2, hdata]⟩

theorem Between.damage (hs : Between t own s) (hid : t.node [id] ≠ none)
    (hdirs : ∀ entry ∈ entries, t.node (id :: entry.1) ≠ some .dir)
    (hrest : restorable t id own entries = false) :
    ∃ s', Ends throws (writeAndLoad id entries) s .thrown s' ∧ Damaged id t s' := by
  induction entries generalizing own s with
  | nil => contradiction
  | cons entry entries ih =>
    have hentry := mt (restorable_cons entry).mpr (by rw [hrest]; exact Bool.false_ne_true)
    rw [not_or, Bool.not_eq_true] at hentry
    rcases hentry with ⟨hfree, hentry⟩
    have hdir := hdirs entry List.mem_cons_self
    by_cases hlevels : ∀ q ∈ levels [] (id :: entry.1).dropLast, t.node q = some .dir
    . cases hfile : isFile t (id :: entry.1) with
      | true => exact hs.damage_of_file hlevels hfile
      | false =>
        have hrest' : restorable t id (own ++ [id :: entry.1]) entries = false := by
          rw [Bool.eq_false_iff]
          exact fun hrest => hentry ⟨hlevels, hfile, hrest⟩
        rcases hs.entry_finishes hlevels hdir with ⟨s₁, s₂, hsame, hmk, hwrite⟩
        have hfinish := writeEntry_finish hmk hwrite
        have hs' := ((hs.step hfinish (.inr ⟨hlevels, none_of_free hfile hdir⟩)).2 rfl).2
        rcases ih hs' (fun entry' h => hdirs entry' (List.mem_cons_of_mem _ h)) hrest' with
          ⟨s', hends, hdamaged⟩
        exact ⟨s', writeAndLoad_cons hfinish hends, hdamaged⟩
    . simp only [not_forall] at hlevels
      rcases hlevels with ⟨q, hq, hqdir⟩
      exact hs.damage_of_made hid hfree hq hqdir

/-- The rollback removes what lies at the paths and below them, and all else stays. -/
theorem unlinks_finish {rs : List (Path Text)} (hrs : ∀ r ∈ rs, s.tree.node r ≠ some .dir) :
    ∃ s', Ends throws (.forEach rs fun r => onTree .rm fun t => t.unlink r) s .finished s' ∧
      (∀ q, (∃ r ∈ rs, r <+: q) → s'.tree.node q = none) ∧
      ∀ q, (∀ r ∈ rs, ¬ r <+: q) → s'.tree.node q = s.tree.node q := by
  induction rs generalizing s with
  | nil => exact ⟨s, .done, nofun, fun _ _ => rfl⟩
  | cons r rs ih =>
    have hunlink : s.tree.unlink r = some (s.tree.prune r) :=
      Tree.unlink_of_ne (hrs r List.mem_cons_self)
    have hrs' : ∀ r' ∈ rs, (s.tree.prune r).node r' ≠ some .dir := by
      intro r' hr'
      rw [Tree.prune_node]
      split
      . nofun
      . exact hrs r' (List.mem_cons_of_mem _ hr')
    rcases ih (s := { s with tree := s.tree.prune r }) hrs' with ⟨s', hends, hgone, hkept⟩
    refine ⟨s', .seq (onTree_ends hunlink) hends, fun q hq => ?_, fun q hq => ?_⟩
    . by_cases hrest : ∃ r' ∈ rs, r' <+: q
      . exact hgone q hrest
      . have hrest' : ∀ r' ∈ rs, ¬ r' <+: q := fun r' hr' h => hrest ⟨r', hr', h⟩
        rcases hq with ⟨r', hr', hunder⟩
        rcases List.mem_cons.mp hr' with rfl | hr'
        . rw [hkept q hrest']
          show (s.tree.prune r').node q = none
          rw [Tree.prune_node, if_pos hunder]
        . exact absurd hunder (hrest' r' hr')
    . rw [hkept q fun r' hr' => hq r' (List.mem_cons_of_mem _ hr')]
      show (s.tree.prune r).node q = _
      rw [Tree.prune_node, if_neg (hq r List.mem_cons_self)]

theorem Damaged.rollback (hs : Damaged id t s) :
    ∃ s', Ends throws (rollback id true) s .finished s' ∧ ¬ Restored id t s'.tree := by
  have hrs : ∀ r ∈ s.written, s.tree.node r ≠ some .dir := by
    intro r hr
    rcases isFile_iff.mp (hs.1 r hr) with ⟨data, hdata⟩
    rw [hdata]
    exact nofun
  have hfinish : ∃ s', Ends throws (.forEach s.written fun r => onTree .rm fun t => t.unlink r) s
      .finished s' ∧ (∀ q, (∃ r ∈ s.written, r <+: q) → s'.tree.node q = none) ∧
      ∀ q, (∀ r ∈ s.written, ¬ r <+: q) → s'.tree.node q = s.tree.node q := unlinks_finish hrs
  rcases hfinish with ⟨s', hends, hgone, hkept⟩
  refine ⟨s', .read hends, fun hrestored => ?_⟩
  rcases hs.2 with ⟨q, hid, hnone, hdir, hfree⟩ | ⟨p, hp, hfile⟩
  . have hold := hrestored.2 q hid (by rw [hkept q hfree, hdir])
    rw [hnone] at hold
    contradiction
  . rcases isFile_iff.mp hfile with ⟨data, hdata⟩
    have hnew := hrestored.1 p data hdata
    rw [hgone p ⟨p, hp, List.prefix_rfl⟩] at hnew
    contradiction

/-! ### A new directory -/

/-- Outside the plugin's directory at most the plugins directory itself is new. -/
def Outside (id : Text) (t : Files) (s : State) : Prop :=
  ∀ q, ¬ [id] <+: q → s.tree.node q = t.node q ∨ t.node q = none ∧ s.tree.node q = some .dir

theorem Outside.made {ps : List (Path Text)} (hs : Outside id t s) (h : Made s s' (· ∈ ps)) :
    Outside id t s' := by
  intro q hq
  rcases h.2 q with heq | ⟨hnone, hdir, _⟩
  . rw [heq]
    exact hs q hq
  . rcases hs q hq with heq | ⟨hnone', _⟩
    . exact .inr ⟨heq ▸ hnone, hdir⟩
    . exact .inr ⟨hnone', hdir⟩

theorem Outside.wrote (hs : Outside id t s) (h : Wrote (id :: p) s s') : Outside id t s' := by
  intro q hq
  have hne : q ≠ id :: p := by
    rintro rfl
    exact hq (List.cons_prefix_cons.mpr ⟨rfl, List.nil_prefix⟩)
  rw [h.2.1 q hne]
  exact hs q hq

theorem Outside.forEach (hs : Outside id t s)
    (h : Ends throws (.forEach entries (writeEntry id)) s o s') : Outside id t s' := by
  have hstep {s s' : State} {o : Outcome} {entry : Path Text × Bytes} (hs : Outside id t s)
      (h : Ends throws (writeEntry id entry) s o s') : Outside id t s' := by
    rcases writeEntry_cases h with ⟨hmk, _⟩ | ⟨s₁, hmk, ⟨hwrite, _⟩ | ⟨s₂, hwrite, rfl⟩⟩
    . exact hs.made (mkdirs_made hmk).1
    . exact (hs.made (mkdirs_made hmk).1).wrote (writeFileSync_wrote hwrite).1
    . have hwrote : Outside id t s₂ :=
        (hs.made (mkdirs_made hmk).1).wrote (writeFileSync_wrote hwrite).1
      exact hwrote
  induction entries generalizing s with
  | nil =>
    cases h
    exact hs
  | cons entry entries ih =>
    cases h with
    | seqThrown hw => exact hstep hs hw
    | seq hw hws => exact ih (hstep hs hw) hws

theorem Outside.restored (hs : Outside id t s) (hnew : t.node [id] = none) :
    Restored id t (s.tree.prune [id]) := by
  refine ⟨fun p data hp => ?_, fun p hp hdir => ?_⟩
  . have hnot : ¬ [id] <+: p := by
      intro hunder
      by_cases heq : [id] = p
      . rw [← heq, hnew] at hp
        contradiction
      . rw [Tree.none_below (by rw [hnew]; exact nofun) hunder heq] at hp
        contradiction
    rw [Tree.prune_node, if_neg hnot]
    rcases hs p hnot with heq | ⟨hnone, _⟩
    . rw [heq, hp]
    . rw [hp] at hnone
      contradiction
  . rw [Tree.prune_node, if_pos hp] at hdir
    contradiction

/-! ### The installation -/

theorem between_init (t : Files) : Between t [] ⟨t, []⟩ where
  nodes _ _ := rfl
  files _ h := nomatch h
  written := rfl

theorem writeAndLoad_ends (h : Ends throws (writeAndLoad id entries) s o s') :
    ∃ o', Ends throws (.forEach entries (writeEntry id)) s o' s' := by
  cases h with
  | seqThrown hws => exact ⟨_, hws⟩
  | seq hws hload =>
    cases hload with
    | call h => exact ⟨_, Option.some.inj h ▸ hws⟩
    | refused h => contradiction
    | fault h => exact ⟨_, hws⟩

theorem install_thrown {c : Context}
    (h : Ends throws (install c id entries) s .thrown s') :
    (refuses c id entries s.tree = true ∧ s' = s) ∨
    (refuses c id entries s.tree = false ∧ ∃ s₁ o, Ends throws (writeAndLoad id entries) s .thrown s₁ ∧
      Ends throws (rollback id (s.tree.node [id]).isSome) s₁ o s') := by
  cases h with
  | read h =>
    dsimp only at h
    split at h
    . next hrefused =>
      cases h
      exact .inl ⟨hrefused, rfl⟩
    . next hgo =>
      rw [Bool.not_eq_true] at hgo
      refine .inr ⟨hgo, ?_⟩
      cases h with
      | caught hbody hhandler =>
        cases hhandler with
        | seqThrown hroll => exact ⟨_, _, hbody, hroll⟩
        | seq hroll hraise =>
          cases hraise
          exact ⟨_, _, hbody, hroll⟩

theorem install_throws {c : Context} {s₁ s₂ : State} (hgo : refuses c id entries s.tree = false)
    (hbody : Ends throws (writeAndLoad id entries) s .thrown s₁)
    (hroll : Ends throws (rollback id (s.tree.node [id]).isSome) s₁ .finished s₂) :
    Ends throws (install c id entries) s .thrown s₂ := by
  apply Ends.read
  dsimp only
  rw [hgo]
  exact .caught hbody (.seq hroll .raise)

theorem not_dir_of_not_refused {c : Context} (hgo : refuses c id entries t = false)
    (hid : t.node [id] ≠ none) : ∀ entry ∈ entries, t.node (id :: entry.1) ≠ some .dir := by
  intro entry hentry hdir
  have hany : (entries.any fun entry => t.node (id :: entry.1) = some .dir) = true :=
    List.any_eq_true.mpr ⟨entry, hentry, decide_eq_true hdir⟩
  have hsome : (t.node [id]).isSome = true := Option.isSome_iff_ne_none.mpr hid
  simp [refuses, hany, hsome] at hgo

theorem rollback_new (h : Ends throws (rollback id false) s o s') :
    s'.tree = s.tree.prune [id] := by
  cases h with
  | read h =>
    have h' : Ends throws (onTree .rm fun t => some (t.prune [id])) s o s' := h
    rcases ends_onTree h' with ⟨_, t', ht', rfl⟩ | ⟨_, _, hfault | hnone⟩
    . exact (Option.some.inj ht').symm
    . contradiction
    . contradiction

theorem rollback_merged (hs : Grown t s) (h : Ends throws (rollback id true) s o s') : Grown t s' := by
  cases h with
  | read h => exact hs.unlinked hs.written h

/--
Every way in which the installation fails leaves the files and directories as they were if and only
if it is refused, the plugin had no directory, or the package comes to lie beside what is there.
-/
theorem install_restores_iff (c : Context) (id : Text) (entries : Package) (t : Files) :
    (∀ s', Ends throws (install c id entries) ⟨t, []⟩ .thrown s' → Restored id t s'.tree) ↔
      refuses c id entries t = true ∨ t.node [id] = none ∨ restorable t id [] entries = true := by
  constructor
  . intro hall
    by_cases hrefused : refuses c id entries t = true
    . exact .inl hrefused
    . rw [Bool.not_eq_true] at hrefused
      by_cases hid : t.node [id] = none
      . exact .inr (.inl hid)
      . refine .inr (.inr ?_)
        rw [← Bool.not_eq_false]
        intro hrest
        rcases (between_init t).damage hid (not_dir_of_not_refused hrefused hid) hrest with
          ⟨s₁, hbody, hdamaged⟩
        rcases hdamaged.rollback with ⟨s₂, hroll, hnot⟩
        have hsome : (t.node [id]).isSome = true := Option.isSome_iff_ne_none.mpr hid
        exact hnot (hall s₂ (install_throws hrefused hbody (hsome.symm ▸ hroll)))
  . intro hcond s' h
    rcases install_thrown h with ⟨_, rfl⟩ | ⟨hgo, s₁, o, hbody, hroll⟩
    . exact ⟨fun _ _ hp => hp, fun _ _ hp => hp⟩
    . rcases writeAndLoad_ends hbody with ⟨o', hws⟩
      by_cases hid : t.node [id] = none
      . have hnew : (t.node [id]).isSome = false := by rw [hid]; rfl
        have houtside : Outside id t s₁ :=
          Outside.forEach (fun q _ => .inl rfl) hws
        rw [rollback_new (hnew ▸ hroll)]
        exact houtside.restored hid
      . have hrest : restorable t id [] entries = true := by
          rcases hcond with hrefused | hnone | hrest
          . exact absurd hrefused (by rw [hgo]; exact Bool.false_ne_true)
          . exact absurd hnone hid
          . exact hrest
        have hgrown := entries_grown (between_init t) hrest (not_dir_of_not_refused hgo hid) hws
        have hsome : (t.node [id]).isSome = true := Option.isSome_iff_ne_none.mpr hid
        exact (rollback_merged hgrown (hsome ▸ hroll)).restored

/-- The directory of a plugin whose registry entry survives, with a file of its previous version. -/
def previousVersion : Files :=
  (((Tree.empty.mkdir []).bind fun t => t.mkdir ["svc-plg".toList]).bind fun t =>
    t.put ["svc-plg".toList, "index.js".toList] (.file [0])).getD .empty

def nextVersion : Package := [(["index.js".toList], [1]), (["manifest.json".toList], [2])]

/-- Both files of the next version are written and it cannot be loaded. -/
def failedLoad : Run State Call :=
  exec throws (install ⟨false, true, false⟩ "svc-plg".toList nextVersion)
    (List.replicate 10 false ++ [true]) ⟨previousVersion, []⟩

theorem install_loses_file : ¬ ∀ (c : Context) (id : Text) (entries : Package) (t : Files) (s' : State),
    Ends throws (install c id entries) ⟨t, []⟩ .thrown s' → Restored id t s'.tree := by
  intro hall
  have hthrown : failedLoad.outcome = .thrown := by decide +kernel
  have hold : previousVersion.node ["svc-plg".toList, "index.js".toList] = some (.file [0]) := by
    decide +kernel
  have hgone : failedLoad.final.tree.node ["svc-plg".toList, "index.js".toList] = none := by
    decide +kernel
  have hends : Ends throws (install ⟨false, true, false⟩ "svc-plg".toList nextVersion)
      ⟨previousVersion, []⟩ failedLoad.outcome failedLoad.final := ends_exec _ _ _
  rw [hthrown] at hends
  have hrestored := (hall _ _ _ _ _ hends).1 _ _ hold
  rw [hgone] at hrestored
  contradiction

end OpenWA.PluginInstall
