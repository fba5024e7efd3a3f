import OpenWA.PluginStorage.Storage
import Mathlib.Data.List.Dedup

/-!
This module contains the finite map that a plugin's storage is meant to be, and the runs in which the
files of the plugin's directory implement it.
-/

namespace OpenWA.PluginStorage

open Js

section Names

theorem safe_base64Char {n : Nat} (h : n < 64) :
    urlSafe (base64Char n) ≠ '=' ∧ urlPlain (urlSafe (base64Char n)) = base64Char n ∧
      urlSafe (base64Char n) ≠ '/' := by
  unfold base64Char
  rw [base64Alphabet_eq]
  revert n
  decide +kernel

theorem rdropWhile_digits {ss : List Nat} (h : ∀ s ∈ ss, s < 64) (n : Nat) :
    ((ss.map base64Char ++ List.replicate n '=').map urlSafe).rdropWhile (· = '=') =
      (ss.map base64Char).map urlSafe := by
  induction n with
  | zero =>
    rw [List.replicate_zero, List.append_nil]
    cases ss using List.reverseRecOn with
    | nil => rfl
    | append_singleton ss s =>
      rw [List.map_append, List.map_append, List.map_singleton, List.map_singleton,
        List.rdropWhile_concat_neg]
      have := (safe_base64Char (h s (by simp))).1
      simpa using this
  | succ n ih =>
    rw [List.replicate_succ', ← List.append_assoc, List.map_append, List.map_singleton,
      List.rdropWhile_concat_pos _ _ _ (by decide), ih]

theorem encodeStorageKey_eq (key : JsString) : encodeStorageKey key =
    encodedKeyPrefix ++ ((sextets (utf8 (fromUtf16 key))).map base64Char).map urlSafe := by
  have hlt := lt_of_mem_sextets fun b hb => lt_of_mem_utf8 (t := fromUtf16 key) hb
  rw [encodeStorageKey, base64, rdropWhile_digits hlt]

theorem decode_encode {key : JsString} (h : isWellFormed key = true) :
    decodeStorageFileName (encodeStorageKey key) = some key := by
  have hlt := lt_of_mem_sextets fun b hb => lt_of_mem_utf8 (t := fromUtf16 key) hb
  have hplain : (((sextets (utf8 (fromUtf16 key))).map base64Char).map urlSafe).map urlPlain =
      (sextets (utf8 (fromUtf16 key))).map base64Char := by
    rw [List.map_map, List.map_map]
    apply List.map_congr_left
    intro s hs
    exact (safe_base64Char (hlt s hs)).2.1
  have hkey : toUtf16 (fromUtf16 key) = key := by simpa [isWellFormed] using h
  have hdecoded (n : Nat) : toUtf16 (utf8Decode none (base64Decode
      ((sextets (utf8 (fromUtf16 key))).map base64Char ++ List.replicate n '='))) = key := by
    rw [base64Decode_digits fun b hb => lt_of_mem_utf8 hb, utf8Decode_utf8, hkey]
  have hstem := encodeStorageKey_eq key
  rw [decodeStorageFileName, if_pos]
  . dsimp only
    rw [hstem, List.drop_left, hplain, hdecoded, if_pos hstem]
  . rw [hstem, List.isPrefixOf_iff_prefix]
    exact List.prefix_append _ _

theorem decode_some {stem : Text} {key : JsString} (h : decodeStorageFileName stem = some key) :
    encodeStorageKey key = stem ∧ isWellFormed key = true := by
  unfold decodeStorageFileName at h
  split at h
  . dsimp only at h
    split at h
    . next heq =>
      simp only [Option.some.injEq] at h
      rw [← h]
      exact ⟨heq, isWellFormed_toUtf16 _⟩
    . contradiction
  . contradiction

theorem isWellFormed_of_listedKey {name : Text} {key : JsString} (h : listedKey name = some key) :
    isWellFormed key = true := by
  unfold listedKey at h
  split at h
  . simp only [Option.some.injEq] at h
    subst h
    cases hstem : decodeStorageFileName (name.take (name.length - jsonSuffix.length)) with
    | none => exact isWellFormed_toUtf16 _
    | some key => exact (decode_some hstem).2
  . contradiction

/-- The key a path is listed as. -/
def named (p : Path) : Option JsString :=
  match p with
  | [name] => listedKey name
  | _ => none

theorem listedKey_encoded {key : JsString} (h : isWellFormed key = true) :
    listedKey (encodeStorageKey key ++ jsonSuffix) = some key := by
  have hsuffix : jsonSuffix.isSuffixOf (encodeStorageKey key ++ jsonSuffix) = true := by
    rw [List.isSuffixOf_iff_suffix]
    exact List.suffix_append _ _
  have hstem : (encodeStorageKey key ++ jsonSuffix).take
      ((encodeStorageKey key ++ jsonSuffix).length - jsonSuffix.length) = encodeStorageKey key := by
    rw [List.length_append, Nat.add_sub_cancel, List.take_left]
  rw [listedKey, if_pos hsuffix]
  dsimp only
  rw [hstem, decode_encode h]
  rfl

theorem resolve_encoded (key : JsString) :
    resolve (encodeStorageKey key ++ jsonSuffix) = some [encodeStorageKey key ++ jsonSuffix] := by
  have hlt := lt_of_mem_sextets fun b hb => lt_of_mem_utf8 (t := fromUtf16 key) hb
  have hslash : '/' ∉ encodeStorageKey key ++ jsonSuffix := by
    rw [encodeStorageKey_eq, List.mem_append, List.mem_append]
    rintro ((hin | hin) | hin)
    . exact absurd hin (by decide)
    . rcases List.mem_map.mp hin with ⟨c, hc, hslash⟩
      rcases List.mem_map.mp hc with ⟨s, hs, rfl⟩
      exact (safe_base64Char (hlt s hs)).2.2 hslash
    . exact absurd hin (by decide)
  rw [resolve, List.splitOn_eq_singleton hslash, encodeStorageKey_eq]
  rfl

theorem resolveKeyPath_some {key : JsString} {p : Path} (h : resolveKeyPath key = some p) :
    p = [encodeStorageKey key ++ jsonSuffix] := by
  unfold resolveKeyPath at h
  split at h
  . rw [resolve_encoded, Option.some.injEq] at h
    exact h.symm
  . contradiction

theorem candidates_some {key : JsString} {paths : List Path} (h : candidates key = some paths) :
    resolveKeyPath key = some [encodeStorageKey key ++ jsonSuffix] ∧
      (paths = [[encodeStorageKey key ++ jsonSuffix]] ∨
        ∃ legacy, paths = [[encodeStorageKey key ++ jsonSuffix], legacy]) := by
  unfold candidates at h
  split at h
  . contradiction
  . next filePath hpath =>
    have heq := resolveKeyPath_some hpath
    subst heq
    refine ⟨hpath, ?_⟩
    split at h
    . next legacy _ =>
      simp only [Option.some.injEq] at h
      split at h
      . exact .inr ⟨legacy, h.symm⟩
      . exact .inl h.symm
    . simp only [Option.some.injEq] at h
      exact .inl h.symm

theorem candidates_of_path {key : JsString} {p : Path} (h : resolveKeyPath key = some p) :
    ∃ paths, candidates key = some paths := by
  unfold candidates
  rw [h]
  dsimp only
  split <;> exact ⟨_, rfl⟩

end Names

/-! ### The finite map -/

variable {V : Type}

inductive Op (V : Type) where
  | get (key : JsString)
  | set (key : JsString) (value : V)
  | delete (key : JsString)
  | list (keyPrefix : Option JsString)

/-- What an operation answers: a value, whether the promise was fulfilled, or the keys. -/
inductive Answer (V : Type) where
  | value (value : Option V)
  | done (fulfilled : Bool)
  | keys (keys : List JsString)
deriving DecidableEq

/-- A finite map from keys to values; `none` is a key that is not set. -/
abbrev FiniteMap (V : Type) := JsString → Option V

def FiniteMap.insert (m : FiniteMap V) (key : JsString) (value : V) : FiniteMap V :=
  fun k => if k = key then some value else m k

def FiniteMap.erase (m : FiniteMap V) (key : JsString) : FiniteMap V :=
  fun k => if k = key then none else m k

/-- An operation on the map: a rejected one changes nothing. -/
inductive FiniteMap.Step : FiniteMap V → Op V → Answer V → FiniteMap V → Prop where
  | get (m : FiniteMap V) (key : JsString) : Step m (.get key) (.value (m key)) m
  | set (m : FiniteMap V) (key : JsString) (value : V) :
      Step m (.set key value) (.done true) (m.insert key value)
  | setRejected (m : FiniteMap V) (key : JsString) (value : V) :
      Step m (.set key value) (.done false) m
  | delete (m : FiniteMap V) (key : JsString) : Step m (.delete key) (.done true) (m.erase key)
  | deleteRejected (m : FiniteMap V) (key : JsString) : Step m (.delete key) (.done false) m
  | list (m : FiniteMap V) (keyPrefix : Option JsString) (keys : List JsString)
      (h : ∀ key, key ∈ keys ↔ (m key).isSome ∧ ∀ p ∈ keyPrefix, p <+: key) :
      Step m (.list keyPrefix) (.keys keys) m

/-- A history of operations and their answers that a finite map can have. -/
inductive FiniteMap.Obeys : FiniteMap V → List (Op V × Answer V) → Prop where
  | nil (m : FiniteMap V) : Obeys m []
  | cons {m m' : FiniteMap V} {op : Op V} {answer : Answer V} {history : List (Op V × Answer V)}
      (hstep : m.Step op answer m') (hrest : Obeys m' history) : Obeys m ((op, answer) :: history)

theorem FiniteMap.Step.value_of_get {m m' : FiniteMap V} {key : JsString} {v : Option V}
    (h : m.Step (.get key) (.value v) m') : v = m key := by
  cases h
  rfl

/-! ### Runs -/

def step (host : Host V) (d : Dir V) (op : Op V) : Dir V × Answer V :=
  match op with
  | .get key => (d, .value (get d key))
  | .set key value =>
    let (d, done) := set host d key value
    (d, .done done)
  | .delete key =>
    let (d, done) := delete d key
    (d, .done done)
  | .list keyPrefix => (d, .keys (list d keyPrefix))

/-- The answers of a sequence of operations. -/
def history (host : Host V) (d : Dir V) (ops : List (Op V)) : List (Op V × Answer V) :=
  match ops with
  | [] => []
  | op :: ops => (op, (step host d op).2) :: history host (step host d op).1 ops

/-- The file that is read for a key is its own: it is listed as that key. -/
def ReadsOwn (d : Dir V) (key : JsString) : Prop :=
  ∀ paths ∈ candidates key, ∀ found ∈ d.first paths, named found.1 = some key

/-- Every file that a deletion of the key removes is a file of its own. -/
def RemovesOwn (d : Dir V) (key : JsString) : Prop :=
  ∀ paths ∈ candidates key, ∀ p ∈ paths, ∀ e ∈ d.entryAt p,
    named p = some key ∧ ∀ n, e ≠ .folder n

/-- What is read for a key is a file of its own with a JSON value. -/
def Readable (d : Dir V) (key : JsString) : Prop :=
  ∃ paths ∈ candidates key, ∃ p v, d.first paths = some (p, .json v) ∧ named p = some key

/--
The operation stays with the files of its key: it reads and removes no file that is listed as another
key, a key that is set is well-formed Unicode, and what is listed can be read.
-/
def StaysWithin (d : Dir V) (op : Op V) : Prop :=
  match op with
  | .get key => ReadsOwn d key
  | .set key _ => resolveKeyPath key ≠ none → isWellFormed key = true
  | .delete key => RemovesOwn d key
  | .list _ => ∀ name ∈ d.names, ∀ key ∈ listedKey name, Readable d key

/-- Every step of the run stays within the files of its key. -/
def Separate (host : Host V) (d : Dir V) (ops : List (Op V)) : Prop :=
  match ops with
  | [] => True
  | op :: ops => StaysWithin d op ∧ Separate host (step host d op).1 ops

/-- The map that a directory holds. A legacy file is there for its key until the key is set. -/
def contents (d : Dir V) : FiniteMap V := fun key =>
  match candidates key with
  | none => none
  | some paths =>
    match d.first paths with
    | some (p, .json v) => if named p = some key then some v else none
    | _ => none

section Lookup

variable (d : Dir V)

@[simp]
theorem entryAt_remove (p q : Path) :
    (d.remove p).entryAt q = if q = p then none else d.entryAt q := by
  unfold Dir.entryAt Dir.remove
  induction d with
  | nil => simp
  | cons file d ih => by_cases hp : file.1 = p <;> by_cases hq : file.1 = q <;> simp_all

@[simp]
theorem entryAt_write (p q : Path) (e : Entry V) :
    (d.write p e).entryAt q = if q = p then some e else d.entryAt q := by
  have hremove := entryAt_remove d p q
  unfold Dir.write
  simp only [Dir.entryAt, List.find?_append, List.find?_singleton] at hremove ⊢
  by_cases hq : q = p
  . subst hq
    have hnone : (d.remove q).find? (fun file => decide (file.1 = q)) = none := by
      simpa using hremove
    simp [hnone]
  . have hne : ¬p = q := fun h => hq h.symm
    simpa [hq, hne] using hremove

theorem mem_names {name : Text} : name ∈ d.names ↔ d.entryAt [name] ≠ none := by
  unfold Dir.names Dir.entryAt
  rw [List.mem_filterMap, ne_eq, Option.map_eq_none_iff, List.find?_eq_none]
  constructor
  . rintro ⟨⟨path, e⟩, hmem, hname⟩ hnone
    have hpath : path = [name] := by
      revert hname
      dsimp only
      split
      . intro h
        rw [Option.some.inj h]
      . intro h
        contradiction
    exact hnone _ hmem (by simp [hpath])
  . intro h
    by_contra hno
    apply h
    intro file hmem hpath
    simp only [decide_eq_true_eq] at hpath
    exact hno ⟨file, hmem, by rw [hpath]⟩

theorem first_some {paths : List Path} {p : Path} {e : Entry V} (h : d.first paths = some (p, e)) :
    p ∈ paths ∧ d.entryAt p = some e := by
  rcases List.exists_of_findSome?_eq_some h with ⟨q, hq, hentry⟩
  rcases Option.map_eq_some_iff.mp hentry with ⟨e', he, heq⟩
  simp only [Prod.mk.injEq] at heq
  rw [← heq.1, ← heq.2]
  exact ⟨hq, he⟩

theorem first_congr {d d' : Dir V} {paths : List Path}
    (h : ∀ p ∈ paths, d'.entryAt p = d.entryAt p) : d'.first paths = d.first paths := by
  unfold Dir.first
  induction paths with
  | nil => rfl
  | cons p paths ih =>
    simp only [List.forall_mem_cons] at h
    rw [List.findSome?_cons, List.findSome?_cons, h.1, ih h.2]

theorem contents_some {d : Dir V} {key : JsString} {v : V} : contents d key = some v ↔
    ∃ paths, candidates key = some paths ∧ ∃ p, d.first paths = some (p, .json v) ∧
      named p = some key := by
  unfold contents
  constructor
  . intro h
    split at h
    . contradiction
    . next paths hpaths =>
      split at h
      . next p v' hfirst =>
        split at h
        . next hnamed =>
          simp only [Option.some.injEq] at h
          exact ⟨paths, hpaths, p, h ▸ hfirst, hnamed⟩
        . contradiction
      . contradiction
  . rintro ⟨paths, hpaths, p, hfirst, hnamed⟩
    simp only [hpaths, hfirst, hnamed, if_true]

theorem isWellFormed_of_contents {d : Dir V} {key : JsString} (h : contents d key ≠ none) :
    isWellFormed key = true := by
  rcases Option.ne_none_iff_exists'.mp h with ⟨v, hv⟩
  rcases contents_some.mp hv with ⟨_, _, p, _, hnamed⟩
  match p, hnamed with
  | [_], hlisted => exact isWellFormed_of_listedKey hlisted

end Lookup

section Steps

variable {d : Dir V} {key : JsString}

theorem get_eq (h : ReadsOwn d key) : get d key = contents d key := by
  unfold get contents
  cases hpaths : candidates key with
  | none => rfl
  | some paths =>
    dsimp only
    cases hfirst : d.first paths with
    | none => rfl
    | some found =>
      have hnamed := h paths hpaths found hfirst
      match found, hnamed with
      | (p, .json v), hnamed => simp only [hnamed, if_true]
      | (p, .other n), _ => rfl
      | (p, .folder n), _ => rfl

theorem contents_list (h : ∀ name ∈ d.names, ∀ key ∈ listedKey name, Readable d key)
    (keyPrefix : Option JsString) (key : JsString) :
    key ∈ list d keyPrefix ↔ (contents d key).isSome ∧ ∀ p ∈ keyPrefix, p <+: key := by
  have hlisted : key ∈ (d.names.filterMap listedKey).dedup ↔ (contents d key).isSome := by
    rw [List.mem_dedup, List.mem_filterMap, Option.isSome_iff_exists]
    constructor
    . rintro ⟨name, hname, hkey⟩
      rcases h name hname key hkey with ⟨paths, hpaths, p, v, hfirst, hnamed⟩
      exact ⟨v, contents_some.mpr ⟨paths, hpaths, p, hfirst, hnamed⟩⟩
    . rintro ⟨v, hv⟩
      rcases contents_some.mp hv with ⟨paths, _, p, hfirst, hnamed⟩
      have hentry := (first_some d hfirst).2
      match p, hnamed with
      | [name], hname =>
        refine ⟨name, (mem_names d).mpr ?_, hname⟩
        rw [hentry]
        simp
  unfold list
  cases keyPrefix with
  | none => simpa using hlisted
  | some p =>
    simp only [List.mem_filter, List.isPrefixOf_iff_prefix, hlisted, Option.mem_def,
      Option.some.injEq, forall_eq']

theorem named_encoded (h : isWellFormed key = true) :
    named [encodeStorageKey key ++ jsonSuffix] = some key :=
  listedKey_encoded h

theorem contents_of_not_wellFormed {d : Dir V} (h : isWellFormed key = false) :
    contents d key = none := by
  by_contra hne
  rw [isWellFormed_of_contents hne] at h
  contradiction

theorem contents_congr {d d' : Dir V} {key k : JsString} (hne : k ≠ key)
    (h : ∀ p, named p ≠ some key → d'.entryAt p = d.entryAt p) : contents d' k = contents d k := by
  have hkey : some k ≠ some key := fun heq => hne (Option.some.inj heq)
  cases hwell : isWellFormed k with
  | false => rw [contents_of_not_wellFormed hwell, contents_of_not_wellFormed hwell]
  | true =>
    have hfile : d'.entryAt [encodeStorageKey k ++ jsonSuffix] =
        d.entryAt [encodeStorageKey k ++ jsonSuffix] := h _ (by rw [named_encoded hwell]; exact hkey)
    unfold contents
    cases hpaths : candidates k with
    | none => rfl
    | some paths =>
      dsimp only
      rcases (candidates_some hpaths).2 with rfl | ⟨legacy, rfl⟩
      . have hfirst : d'.first [[encodeStorageKey k ++ jsonSuffix]] =
            d.first [[encodeStorageKey k ++ jsonSuffix]] :=
          first_congr fun p hp => by rw [List.mem_singleton.mp hp, hfile]
        rw [hfirst]
      . by_cases hlegacy : named legacy = some key
        . -- the legacy file is not listed as `k`, so it counts for nothing
          have hother : named legacy ≠ some k := fun heq => hkey (heq ▸ hlegacy)
          simp only [Dir.first, List.findSome?_cons, List.findSome?_nil, hfile]
          cases d.entryAt [encodeStorageKey k ++ jsonSuffix] with
          | some e => rfl
          | none =>
            rcases d.entryAt legacy with _ | (_ | _ | _) <;>
              rcases d'.entryAt legacy with _ | (_ | _ | _) <;> simp [hother]
        . have hrest := h _ hlegacy
          rw [first_congr]
          intro p hp
          simp only [List.mem_cons, List.not_mem_nil, or_false] at hp
          rcases hp with rfl | rfl
          . exact hfile
          . exact hrest

theorem first_encoded {d : Dir V} {paths : List Path} {e : Entry V}
    (hpaths : candidates key = some paths)
    (h : d.entryAt [encodeStorageKey key ++ jsonSuffix] = some e) :
    d.first paths = some ([encodeStorageKey key ++ jsonSuffix], e) := by
  rcases (candidates_some hpaths).2 with rfl | ⟨legacy, rfl⟩ <;>
    simp [Dir.first, List.findSome?_cons, h]

theorem contents_write {p : Path} (v : V) (hpath : resolveKeyPath key = some p)
    (hwell : isWellFormed key = true) :
    contents (d.write p (.json v)) = (contents d).insert key v := by
  have hp := resolveKeyPath_some hpath
  subst hp
  funext k
  unfold FiniteMap.insert
  split
  . next heq =>
    subst heq
    rcases candidates_of_path hpath with ⟨paths, hpaths⟩
    refine contents_some.mpr ⟨paths, hpaths, _, first_encoded hpaths ?_, named_encoded hwell⟩
    rw [entryAt_write, if_pos rfl]
  . next hne =>
    apply contents_congr hne
    intro q hq
    rw [entryAt_write, if_neg]
    rintro rfl
    exact hq (named_encoded hwell)

theorem unlinkAll_spec {d : Dir V} {paths : List Path}
    (h : ∀ p ∈ paths, ∀ n, d.entryAt p ≠ some (.folder n)) :
    (unlinkAll d paths).2 = true ∧
      ∀ q, (unlinkAll d paths).1.entryAt q = if q ∈ paths then none else d.entryAt q := by
  induction paths generalizing d with
  | nil => exact ⟨rfl, fun q => by simp [unlinkAll]⟩
  | cons p paths ih =>
    simp only [List.forall_mem_cons] at h
    unfold unlinkAll
    split
    . next hnone =>
      refine ⟨(ih h.2).1, ?_⟩
      intro q
      rw [(ih h.2).2 q]
      by_cases hq : q = p
      . subst hq
        simp [hnone]
      . simp [hq]
    . next n hfolder => exact absurd hfolder (h.1 n)
    . have hrest : ∀ q ∈ paths, ∀ n, (d.remove p).entryAt q ≠ some (.folder n) := by
        intro q hq n
        rw [entryAt_remove]
        split
        . simp
        . exact h.2 q hq n
      refine ⟨(ih hrest).1, ?_⟩
      intro q
      rw [(ih hrest).2 q, entryAt_remove]
      by_cases hq : q = p <;> simp [hq]

theorem contents_delete (h : RemovesOwn d key) :
    candidates key = none ∧ delete d key = (d, false) ∨
      (delete d key).2 = true ∧ contents (delete d key).1 = (contents d).erase key := by
  unfold delete
  cases hpaths : candidates key with
  | none => exact .inl ⟨rfl, rfl⟩
  | some paths =>
    have hown := h paths hpaths
    have hfolders : ∀ p ∈ paths, ∀ n, d.entryAt p ≠ some (.folder n) :=
      fun p hp n hfolder => (hown p hp _ hfolder).2 n rfl
    rcases unlinkAll_spec hfolders with ⟨hdone, hentry⟩
    refine .inr ⟨hdone, ?_⟩
    funext k
    by_cases hk : k = key
    . subst hk
      have hnone : (unlinkAll d paths).1.first paths = none := by
        rw [Dir.first, List.findSome?_eq_none_iff]
        intro p hp
        rw [hentry, if_pos hp]
        rfl
      simp only [contents, hpaths, hnone, FiniteMap.erase, if_true]
    . simp only [FiniteMap.erase, if_neg hk]
      apply contents_congr hk
      intro q hq
      rw [hentry]
      split
      . next hmem =>
        cases hfile : d.entryAt q with
        | none => rfl
        | some e => exact absurd (hown q hmem e hfile).1 hq
      . rfl

theorem step_of_staysWithin (host : Host V) {op : Op V} (h : StaysWithin d op) :
    (contents d).Step op (step host d op).2 (contents (step host d op).1) := by
  cases op with
  | get key =>
    change (contents d).Step _ (.value (get d key)) _
    rw [get_eq h]
    exact .get _ _
  | set key value =>
    unfold step set
    dsimp only
    cases hpath : resolveKeyPath key with
    | none => exact .setRejected _ _ _
    | some p =>
      dsimp only
      split_ifs
      . exact .setRejected _ _ _
      . exact .setRejected _ _ _
      . split
        . exact .setRejected _ _ _
        . dsimp only
          rw [contents_write value hpath (h (by rw [hpath]; simp))]
          exact .set _ _ _
  | delete key =>
    change (contents d).Step _ (.done (delete d key).2) (contents (delete d key).1)
    rcases contents_delete h with ⟨_, heq⟩ | ⟨hdone, heq⟩
    . rw [heq]
      exact .deleteRejected _ _
    . rw [hdone, heq]
      exact .delete _ _
  | list keyPrefix => exact .list _ _ _ fun key => contents_list h keyPrefix key

/-- Runs whose operations stay within the files of their keys are runs of a finite map. -/
theorem obeys_of_separate (host : Host V) (d : Dir V) (ops : List (Op V))
    (h : Separate host d ops) : (contents d).Obeys (history host d ops) := by
  induction ops generalizing d with
  | nil => exact .nil _
  | cons op ops ih =>
    have hstep := step_of_staysWithin host h.1
    exact .cons hstep (ih _ h.2)

end Steps

section Plain

/-- The key is well-formed, and its legacy file name is listed as the key itself. -/
def Plain (key : JsString) : Prop :=
  isWellFormed key = true ∧ ∀ p ∈ resolveLegacyKeyPath key, named p = some key

instance (key : JsString) : Decidable (Plain key) :=
  inferInstanceAs (Decidable (_ ∧ _))

def Op.keys (op : Op V) : List JsString :=
  match op with
  | .get key | .set key _ | .delete key => [key]
  | .list _ => []

/-- The directory holds encoded files of well-formed keys and nothing else. -/
def Encoded (d : Dir V) : Prop :=
  ∀ p, ∀ e ∈ d.entryAt p, ∃ key v, isWellFormed key = true ∧ resolveKeyPath key = some p ∧ e = .json v

variable {d : Dir V} {key : JsString}

theorem named_of_candidates {paths : List Path} {p : Path} (hplain : Plain key)
    (h : candidates key = some paths) (hp : p ∈ paths) : named p = some key := by
  unfold candidates at h
  split at h
  . contradiction
  . next filePath hpath =>
    have hfile : named filePath = some key := by
      rw [resolveKeyPath_some hpath]
      exact named_encoded hplain.1
    split at h
    . next legacy hlegacy =>
      simp only [Option.some.injEq] at h
      subst h
      split at hp
      . simp only [List.mem_cons, List.not_mem_nil, or_false] at hp
        rcases hp with rfl | rfl
        . exact hfile
        . exact hplain.2 _ hlegacy
      . rw [List.mem_singleton.mp hp]
        exact hfile
    . simp only [Option.some.injEq] at h
      subst h
      rw [List.mem_singleton.mp hp]
      exact hfile

theorem staysWithin_of_plain {op : Op V} (hd : Encoded d) (h : ∀ key ∈ op.keys, Plain key) :
    StaysWithin d op := by
  cases op with
  | get key =>
    intro paths hpaths found hfirst
    exact named_of_candidates (h key (by simp [Op.keys])) hpaths (first_some d hfirst).1
  | set key value =>
    intro _
    exact (h key (by simp [Op.keys])).1
  | delete key =>
    intro paths hpaths p hp e he
    refine ⟨named_of_candidates (h key (by simp [Op.keys])) hpaths hp, ?_⟩
    rintro n rfl
    rcases hd p _ he with ⟨_, _, _, _, heq⟩
    contradiction
  | list keyPrefix =>
    intro name hname k hk
    rw [mem_names] at hname
    rcases Option.ne_none_iff_exists'.mp hname with ⟨e, he⟩
    rcases hd _ e he with ⟨k', v, hwell, hpath, rfl⟩
    rcases candidates_of_path hpath with ⟨paths, hpaths⟩
    have hp := resolveKeyPath_some hpath
    have hkey : k = k' := by
      have hnamed := named_encoded hwell
      rw [← hp] at hnamed
      exact Option.some.inj (hk.symm.trans hnamed)
    subst hkey
    rw [hp] at he
    exact ⟨paths, hpaths, _, v, first_encoded hpaths he, named_encoded hwell⟩

theorem encoded_unlinkAll (hd : Encoded d) (paths : List Path) : Encoded (unlinkAll d paths).1 := by
  fun_induction unlinkAll d paths with
  | case1 => exact hd
  | case2 d p paths hnone ih => exact ih hd
  | case3 => exact hd
  | case4 d p paths e hfolder hentry ih =>
    apply ih
    intro q e' he'
    rw [entryAt_remove] at he'
    split at he'
    . contradiction
    . exact hd q e' he'

theorem encoded_step (host : Host V) {op : Op V} (hd : Encoded d)
    (h : ∀ key ∈ op.keys, Plain key) : Encoded (step host d op).1 := by
  cases op with
  | get key => exact hd
  | set key value =>
    unfold step set
    dsimp only
    cases hpath : resolveKeyPath key with
    | none => exact hd
    | some p =>
      dsimp only
      split_ifs
      . exact hd
      . exact hd
      . split
        . exact hd
        . intro q e he
          rw [entryAt_write] at he
          split at he
          . next heq =>
            subst heq
            exact ⟨key, value, (h key (by simp [Op.keys])).1, hpath, (Option.some.inj he).symm⟩
          . exact hd q e he
  | delete key =>
    change Encoded (delete d key).1
    unfold delete
    split
    . exact hd
    . exact encoded_unlinkAll hd _
  | list keyPrefix => exact hd

theorem separate_of_plain (host : Host V) (ops : List (Op V)) (hd : Encoded d)
    (h : ∀ op ∈ ops, ∀ key ∈ op.keys, Plain key) : Separate host d ops := by
  induction ops generalizing d with
  | nil => trivial
  | cons op ops ih =>
    simp only [List.forall_mem_cons] at h
    exact ⟨staysWithin_of_plain hd h.1, ih (encoded_step host hd h.1) h.2⟩

theorem encoded_empty : Encoded ([] : Dir V) := by
  intro p e he
  contradiction

end Plain

section Samples

def sampleHost : Host Nat where
  size _ := 1
  maxPluginStorageBytes := 50
  takes _ := true

def keyX : JsString := toUtf16 "x".toList

/-- The name of the encoded file of `keyX`, as a key. -/
def keySpelled : JsString := toUtf16 "key-eA".toList

theorem obeys_of_separate_sample : (contents []).Obeys (history sampleHost []
    [.set keyX 1, .get keyX, .list none, .delete keyX, .get keyX]) := by
  apply obeys_of_separate sampleHost []
  apply separate_of_plain sampleHost _ encoded_empty
  have hplain : Plain keyX := by decide +kernel
  simp [Op.keys, hplain]

/-- The deletion of a key removes the file of the key whose encoded name it spells. -/
theorem spelled_key_deletes : ¬(contents []).Obeys (history sampleHost []
    [.set keyX 1, .delete keySpelled, .get keyX]) := by
  have hhistory : (history sampleHost [] [.set keyX 1, .delete keySpelled, .get keyX]).map (·.2) =
      [.done true, .done true, .value none] := by decide +kernel
  intro hobeys
  simp only [history, List.map_cons, List.map_nil, List.cons.injEq, and_true] at hhistory
  rcases hhistory with ⟨hset, hdelete, hget⟩
  cases hobeys with
  | cons hstep hrest =>
    rw [hset] at hstep
    cases hstep
    cases hrest with
    | cons hstep hrest =>
      rw [hdelete] at hstep
      cases hstep
      cases hrest with
      | cons hstep hrest =>
        rw [hget] at hstep
        have hread := hstep.value_of_get
        have hne : keyX ≠ keySpelled := by decide
        simp [FiniteMap.erase, FiniteMap.insert, hne] at hread

end Samples

end OpenWA.PluginStorage
