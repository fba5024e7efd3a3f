import OpenWA.Js.Split

/-!
This module contains the functions on slash-separated paths, and that a path that does not climb comes
to lie below the directory it is joined to.
-/

namespace OpenWA.Disk.Posix

open Js

/-- `.` -/
def here : Text := ['.']

/-- `..` -/
def parent : Text := ['.', '.']

/-- One more segment after the components kept so far; `above` lets `..` stay at the front. -/
def resolve (above : Bool) (kept : List Text) (segment : Text) : List Text :=
  if segment = [] || segment = here then kept
  else if segment = parent then
    if kept = [] || kept.getLast? = some parent then if above then kept ++ [parent] else kept
    else kept.dropLast
  else kept ++ [segment]

def segments (t : Text) : List Text := t.splitOn '/'

def components (above : Bool) (t : Text) : List Text := (segments t).foldl (resolve above) []

def isAbsolute (t : Text) : Bool := t.head? = some '/'

def endsWithSlash (t : Text) : Bool := t.getLast? = some '/'

/-- `path.posix.normalize` -/
def normalize (t : Text) : Text :=
  if t.isEmpty then here
  else
    let path := join ['/'] (components (!isAbsolute t) t)
    if path.isEmpty then
      if isAbsolute t then ['/'] else if endsWithSlash t then here ++ ['/'] else here
    else
      let path := if endsWithSlash t then path ++ ['/'] else path
      if isAbsolute t then '/' :: path else path

/-- `path.posix.basename` -/
def basename (t : Text) : Text := (t.rdropWhile (· = '/')).rtakeWhile (· ≠ '/')

/-- `path.posix.dirname`; of the slashes before the last name only one is dropped. -/
def dirname (t : Text) : Text :=
  let above := (t.rdropWhile (· = '/')).rdropWhile (· ≠ '/')
  if above.length ≤ 1 then if isAbsolute t then ['/'] else here
  else if isAbsolute t && above.length = 2 then ['/', '/']
  else above.dropLast

/-- `path.join` of the directory with those components and a path. -/
def joinBelow (dir : List Text) (t : Text) : List Text := (segments t).foldl (resolve true) dir

structure Ordinary (c : Text) : Prop where
  ne_nil : c ≠ []
  ne_here : c ≠ here
  ne_parent : c ≠ parent
  no_slash : '/' ∉ c

variable {above : Bool} {kept cs : List Text} {c t : Text}

theorem resolve_ordinary (h : Ordinary c) : resolve above kept c = kept ++ [c] := by
  simp [resolve, h.ne_nil, h.ne_here, h.ne_parent]

theorem foldl_resolve_ordinary (h : ∀ c ∈ cs, Ordinary c) :
    cs.foldl (resolve above) kept = kept ++ cs := by
  induction cs generalizing kept with
  | nil => simp
  | cons c cs ih =>
    rw [List.foldl_cons, resolve_ordinary (h c List.mem_cons_self),
      ih fun c hc => h c (List.mem_cons_of_mem _ hc), List.append_assoc, List.singleton_append]

/-- Any `..` stand before all else. -/
def Climbing (cs : List Text) : Prop :=
  ∃ n names, cs = List.replicate n parent ++ names ∧ ∀ c ∈ names, Ordinary c

theorem Climbing.resolve (h : Climbing kept) (hslash : '/' ∉ c) : Climbing (resolve true kept c) := by
  rcases h with ⟨n, names, rfl, hnames⟩
  unfold Posix.resolve
  split
  . exact ⟨n, names, rfl, hnames⟩
  . next hne =>
    simp only [Bool.or_eq_true, decide_eq_true_eq, not_or] at hne
    split
    . rcases List.eq_nil_or_concat names with rfl | ⟨names, name, rfl⟩
      . -- nothing but `..` so far
        rw [List.append_nil, if_pos (by cases n <;> simp [List.getLast?_replicate]), if_pos rfl]
        exact ⟨n + 1, [], by rw [List.append_nil, List.replicate_succ'], by simp⟩
      . rw [List.concat_eq_append] at hnames ⊢
        have hname := hnames name (by simp)
        rw [← List.append_assoc, if_neg (by simp [hname.ne_parent]), List.dropLast_concat]
        exact ⟨n, names, rfl, fun c hc => hnames c (by simp [hc])⟩
    . next hparent =>
      refine ⟨n, names ++ [c], by rw [List.append_assoc], fun c' hc' => ?_⟩
      rcases List.mem_append.mp hc' with hc' | hc'
      . exact hnames c' hc'
      . rw [List.mem_singleton.mp hc']
        exact ⟨hne.1, hne.2, hparent, hslash⟩

theorem resolve_head (h : kept.head? = some parent) : (resolve true kept c).head? = some parent := by
  cases kept with
  | nil => contradiction
  | cons first kept =>
    rw [List.head?_cons, Option.some.injEq] at h
    subst h
    unfold resolve
    split
    . rfl
    . split
      . split
        . rfl
        . next hlast =>
          cases kept with
          | nil => simp at hlast
          | cons => rfl
      . rfl

/-- Below a directory the components are the same, unless they climb. -/
theorem foldl_resolve_below (dir : List Text)
    (hdown : (cs.foldl (resolve true) kept).head? ≠ some parent) :
    cs.foldl (resolve true) (dir ++ kept) = dir ++ cs.foldl (resolve true) kept := by
  induction cs generalizing kept with
  | nil => rfl
  | cons c cs ih =>
    rw [List.foldl_cons] at hdown
    have hstep : resolve true (dir ++ kept) c = dir ++ resolve true kept c := by
      have hhead : (resolve true kept c).head? ≠ some parent := by
        have hrest : ∀ cs kept : List Text, kept.head? = some parent →
            (cs.foldl (resolve true) kept).head? = some parent := by
          intro cs
          induction cs with
          | nil => exact fun _ hkept => hkept
          | cons c cs ih => exact fun _ hkept => ih _ (resolve_head hkept)
        exact fun hhead => hdown (hrest cs _ hhead)
      unfold resolve at hhead ⊢
      by_cases hskip : c = [] || c = here
      . rw [if_pos hskip, if_pos hskip]
      . rw [if_neg hskip, if_neg hskip]
        rw [if_neg hskip] at hhead
        by_cases hparent : c = parent
        . rw [if_pos hparent] at hhead
          rw [if_pos hparent, if_pos hparent]
          rcases List.eq_nil_or_concat kept with rfl | ⟨front, last, rfl⟩
          . simp at hhead
          . rw [List.concat_eq_append]
            by_cases hlast : last = parent <;> simp [hlast, ← List.append_assoc]
        . rw [if_neg hparent, if_neg hparent, List.append_assoc]
    rw [List.foldl_cons, List.foldl_cons, hstep]
    exact ih hdown

theorem no_slash_of_mem_segments (h : c ∈ segments t) : '/' ∉ c := by
  induction t generalizing c with
  | nil =>
    rw [List.mem_singleton.mp h]
    exact List.not_mem_nil
  | cons d t ih =>
    rw [segments, List.splitOn_cons_eq_if_modifyHead] at h
    split at h
    . rcases List.mem_cons.mp h with rfl | h
      . exact List.not_mem_nil
      . exact ih h
    . next hd =>
      cases hsegments : t.splitOn '/' with
      | nil => exact absurd hsegments (List.splitOn_ne_nil _ _)
      | cons first rest =>
        rw [hsegments, List.modifyHead_cons] at h
        have hfirst : '/' ∉ first := ih (by rw [segments, hsegments]; exact List.mem_cons_self)
        rcases List.mem_cons.mp h with rfl | h
        . rw [List.mem_cons, not_or]
          exact ⟨fun heq => hd (beq_iff_eq.mpr heq.symm), hfirst⟩
        . exact ih (by rw [segments, hsegments]; exact List.mem_cons_of_mem _ h)

theorem climbing_components (t : Text) : Climbing (components true t) := by
  have hfold : ∀ cs kept : List Text, Climbing kept → (∀ c ∈ cs, '/' ∉ c) →
      Climbing (cs.foldl (resolve true) kept) := by
    intro cs
    induction cs with
    | nil => exact fun kept hkept _ => hkept
    | cons c cs ih =>
      intro kept hkept hcs
      exact ih _ (hkept.resolve (hcs c List.mem_cons_self)) fun c hc => hcs c (List.mem_cons_of_mem _ hc)
  exact hfold _ _ ⟨0, [], rfl, nofun⟩ fun c hc => no_slash_of_mem_segments hc

theorem join_ne_nil (h : ∀ c ∈ cs, Ordinary c) (hne : cs ≠ []) : join ['/'] cs ≠ [] := by
  cases cs with
  | nil => contradiction
  | cons c cs =>
    have hc := (h c List.mem_cons_self).ne_nil
    cases cs with
    | nil => simpa [join, List.intercalate] using hc
    | cons c' cs =>
      rw [join_cons (by simp)]
      simp [hc]

theorem join_last (h : ∀ c ∈ cs, Ordinary c) : endsWithSlash (join ['/'] cs) = false := by
  induction cs with
  | nil => rfl
  | cons c cs ih =>
    cases cs with
    | nil =>
      have hc := (h c List.mem_cons_self).no_slash
      simp only [join, List.intercalate, endsWithSlash, List.intersperse, List.flatten_cons,
        List.flatten_nil, List.append_nil, decide_eq_false_iff_not]
      exact fun heq => hc (List.mem_of_getLast? heq)
    | cons c' cs =>
      have hrest : ∀ c ∈ c' :: cs, Ordinary c := fun c hc => h c (List.mem_cons_of_mem _ hc)
      have hlast := ih hrest
      rw [join_cons (by simp)]
      unfold endsWithSlash at hlast ⊢
      rwa [List.getLast?_append_of_ne_nil _ (join_ne_nil hrest (by simp))]

section Safe

/-- What an archive's path is checked for. -/
structure Safe (t : Text) : Prop where
  ne_nil : t ≠ []
  relative : isAbsolute (normalize t) = false
  down : ¬ parent <+: normalize t

theorem isAbsolute_normalize (h : isAbsolute t = true) : isAbsolute (normalize t) = true := by
  have hne : t.isEmpty = false := by
    cases t with
    | nil => contradiction
    | cons => rfl
  unfold normalize
  simp only [hne, h, if_true, Bool.false_eq_true, if_false]
  split <;> rfl

variable (h : Safe t)

include h

theorem Safe.not_absolute : isAbsolute t = false := by
  cases ht : isAbsolute t with
  | false => rfl
  | true => exact absurd (isAbsolute_normalize ht) (by rw [h.relative]; exact Bool.false_ne_true)

theorem Safe.normalize_eq : normalize t =
    if (join ['/'] (components true t)).isEmpty then if endsWithSlash t then here ++ ['/'] else here
    else if endsWithSlash t then join ['/'] (components true t) ++ ['/']
    else join ['/'] (components true t) := by
  have hne : t.isEmpty = false := List.isEmpty_eq_false_iff.mpr h.ne_nil
  unfold normalize
  simp [hne, h.not_absolute]

theorem Safe.ordinary : ∀ c ∈ components true t, Ordinary c := by
  rcases climbing_components t with ⟨n, names, heq, hnames⟩
  cases n with
  | zero => simpa [heq] using hnames
  | succ n =>
    -- the path starts with the first `..`
    have hpre : parent <+: join ['/'] (components true t) := by
      rw [heq, List.replicate_succ, List.cons_append]
      cases hrest : List.replicate n parent ++ names with
      | nil => simp [join, List.intercalate]
      | cons c cs =>
        rw [join_cons (by simp), List.append_assoc]
        exact List.prefix_append _ _
    have hne : (join ['/'] (components true t)).isEmpty = false := by
      rcases hpre with ⟨rest, hrest⟩
      rw [← hrest]
      rfl
    refine absurd ?_ h.down
    rw [h.normalize_eq, hne]
    simp only [Bool.false_eq_true, if_false]
    split
    . exact hpre.trans (List.prefix_append _ _)
    . exact hpre

theorem Safe.endsWithSlash_normalize : endsWithSlash (normalize t) = endsWithSlash t := by
  rw [h.normalize_eq]
  have hjoin := join_last h.ordinary
  split <;> split <;> simp_all [endsWithSlash, here]

/-- Below a directory a path that does not climb leads to its own components. -/
theorem Safe.joinBelow_normalize (dir : List Text) :
    joinBelow dir (normalize t) = dir ++ components true t := by
  rw [h.normalize_eq]
  by_cases hnil : components true t = []
  . rw [hnil]
    unfold joinBelow
    split
    . split <;> simp [segments, here, resolve, List.splitOn_cons_eq_if_modifyHead]
    . contradiction
  . have hsegments : segments (join ['/'] (components true t)) = components true t :=
      List.splitOn_intercalate '/' (fun c hc => (h.ordinary c hc).no_slash) hnil
    have hfold : (components true t).foldl (resolve true) dir = dir ++ components true t :=
      foldl_resolve_ordinary h.ordinary
    rw [if_neg (by simpa using join_ne_nil h.ordinary hnil)]
    unfold joinBelow
    split
    . have hslash : segments (join ['/'] (components true t) ++ ['/']) = components true t ++ [[]] := by
        have hsplit : segments (join ['/'] (components true t) ++ ['/']) =
            segments (join ['/'] (components true t)) ++ [[]] := List.splitOn_append_cons_self _ []
        rw [hsplit, hsegments]
      rw [hslash, List.foldl_append, hfold]
      rfl
    . rw [hsegments, hfold]

theorem Safe.joinBelow_eq (dir : List Text) : joinBelow dir t = dir ++ components true t := by
  have hdown : (components true t).head? ≠ some parent := by
    intro hhead
    exact (h.ordinary parent (List.mem_of_head? hhead)).ne_parent rfl
  have hbelow : (segments t).foldl (resolve true) (dir ++ []) = dir ++ components true t :=
    foldl_resolve_below dir hdown
  rwa [List.append_nil] at hbelow

end Safe

end OpenWA.Disk.Posix
