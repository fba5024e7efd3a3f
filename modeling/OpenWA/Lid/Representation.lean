import OpenWA.Async.Machine
import OpenWA.Lid.Inverse

/-!
This module contains the steps that change the maps of the lid mirror, what the maps have to be after each, and
which steps leave a phone without a lid.
-/

namespace OpenWA.Lid

open Async Js

inductive MapStep where
  | index (lid : Text) (phone : Option Text)
  | noteAbsent (lid : Text)
  | evict
  /-- a hit of `getCached` -/
  | touch (lid : Text)
  /-- the start of a `reload` -/
  | clear
deriving DecidableEq

/-- An absence is noted of a lid that is not held only, which its caller checks. -/
def MapStep.run (v : MapStep) (s : LidStore) : Option LidStore :=
  match v with
  | .index lid phone => some (s.index lid phone)
  | .noteAbsent lid => if (s.cached lid).isNone then some (s.noteAbsent lid) else none
  | .evict => some s.evictIfOverCap
  | .touch lid => (s.cached lid).map fun phone => s.touch lid phone
  | .clear => some { s with lidToPhone := [], phoneToLids := [], absentFromTable := [] }

def mapMachine : Machine LidStore MapStep where
  step s v := v.run s

/-- What the maps are to be; the phone of an entry may be null or empty, which files it under none. -/
structure Represents (s : LidStore) : Prop where
  forward : s.maxCachedLids ≠ 0 → s.lidToPhone.length ≤ s.maxCachedLids
  reverse : ∀ lid phone, phone ≠ [] → (lid ∈ lidsForPhone phone s ↔ s.cached lid = some (some phone))
  noEmpty : ∀ entry ∈ s.phoneToLids, entry.2 ≠ []
  disjoint : ∀ lid ∈ s.absentFromTable, s.cached lid = none
  absent : s.absentFromTable.length ≤ s.maxCachedLids

/-- The lid is the only one of its phone. -/
def alone (s : LidStore) (lid : Text) : Bool :=
  (phoneIn s.lidToPhone lid).any fun phone => (lidsForPhone phone s).all (· = lid)

/-- The entry that makes room for a lid that is not held yet. -/
def evicted (s : LidStore) (lid : Text) : Option (Text × Option Text) :=
  if (s.cached lid).isNone && s.maxCachedLids ≠ 0 && s.maxCachedLids ≤ s.lidToPhone.length then
    s.lidToPhone.head?
  else none

/--
The step takes the only lid of a phone away, by giving it another phone or by evicting it for a lid of
another.
-/
def strands (s : LidStore) (v : MapStep) : Bool :=
  match v with
  | .index lid phone =>
    alone s lid && phoneIn s.lidToPhone lid ≠ truthy phone ||
      (evicted s lid).any fun entry => alone s entry.1 && phoneIn s.lidToPhone entry.1 ≠ truthy phone
  | .noteAbsent _ | .evict | .touch _ | .clear => false

def KeepsPhones (s : LidStore) (v : MapStep) : Prop := strands s v = false

instance (s : LidStore) (v : MapStep) : Decidable (KeepsPhones s v) := inferInstanceAs (Decidable (_ = false))

section Invariant

variable {s : LidStore} {lid : Text} {phone : Option Text}

structure Aligned (s : LidStore) : Prop where
  paired : Paired s
  keys : (s.phoneToLids.map (·.1)).Nodup
  filed : ∀ phone ∈ s.phoneToLids.map (·.1), ∃ lid, phoneIn s.lidToPhone lid = some phone
  disjoint : ∀ lid ∈ s.absentFromTable, s.cached lid = none
  absent : s.absentFromTable.length ≤ s.maxCachedLids

/-- The invariant of a run whose steps strand no phone. -/
structure Bounded (s : LidStore) : Prop extends Aligned s where
  forward : s.maxCachedLids ≠ 0 → s.lidToPhone.length ≤ s.maxCachedLids

theorem truthy_eq_some {p : Text} : truthy phone = some p ↔ phone = some p ∧ p ≠ [] := by
  unfold truthy
  rw [Option.filter_eq_some_iff]
  simp

theorem Bounded.represents (h : Bounded s) : Represents s where
  forward := h.forward
  reverse lid phone hne := by
    have hmem : lid ∈ lidsForPhone phone s ↔ phoneIn s.lidToPhone lid = some phone := h.paired.mem lid phone
    rw [hmem, phoneIn, truthy_eq_some, and_iff_left hne]
    change (s.cached lid).getD none = some phone ↔ s.cached lid = some (some phone)
    cases s.cached lid <;> simp
  noEmpty entry hentry := by
    rcases h.filed entry.1 (List.mem_map_of_mem hentry) with ⟨lid, hlid⟩
    have hmem : lid ∈ lidsIn s.phoneToLids entry.1 := (h.paired.mem lid entry.1).mpr hlid
    have hlookup : s.phoneToLids.lookup entry.1 = some entry.2 := by
      convert Map.lookup_eq_some_of_mem h.keys hentry
    rw [lidsIn, hlookup] at hmem
    exact List.ne_nil_of_mem hmem
  disjoint := h.disjoint
  absent := h.absent

theorem keys_dropLid (phoneToLids : List (Text × List Text)) :
    (dropLid phoneToLids phone lid).map (·.1) = phoneToLids.map (·.1) := by
  unfold dropLid
  cases truthy phone with
  | none => rfl
  | some set =>
    rw [List.map_map]
    apply List.map_congr_left
    intro entry _
    dsimp only [Function.comp]
    split <;> rfl

theorem keys_addLid (phoneToLids : List (Text × List Text)) :
    (addLid phoneToLids phone lid).map (·.1) = phoneToLids.map (·.1) ∨
      ∃ set, truthy phone = some set ∧ set ∉ phoneToLids.map (·.1) ∧
        (addLid phoneToLids phone lid).map (·.1) = phoneToLids.map (·.1) ++ [set] := by
  unfold addLid
  cases truthy phone with
  | none => exact .inl rfl
  | some set =>
    dsimp only
    cases hlids : phoneToLids.lookup set with
    | some lids =>
      left
      dsimp only
      rw [List.map_map]
      apply List.map_congr_left
      intro entry _
      dsimp only [Function.comp]
      split <;> rfl
    | none =>
      refine .inr ⟨set, rfl, ?_, by rw [List.map_append, List.map_singleton]⟩
      intro hmem
      rcases List.mem_map.mp hmem with ⟨entry, hentry, hset⟩
      have hne := List.lookup_eq_none_iff.mp hlids entry hentry
      simp [hset] at hne

theorem keys_dropped (s : LidStore) (lid : Text) (phone : Option Text) :
    List.map (fun entry : Text × List Text => entry.1) (match s.cached lid with
      | some prev => if prev ≠ phone then dropLid s.phoneToLids prev lid else s.phoneToLids
      | none => s.phoneToLids) = s.phoneToLids.map (·.1) := by
  split
  . split
    . exact keys_dropLid _
    . rfl
  . rfl

/-- The keys of the reverse map before an `index` and after it. -/
theorem keys_indexed (s : LidStore) (lid : Text) (phone : Option Text) :
    (indexed s lid phone).phoneToLids.map (·.1) = s.phoneToLids.map (·.1) ∨
      ∃ set, truthy phone = some set ∧ set ∉ s.phoneToLids.map (·.1) ∧
        (indexed s lid phone).phoneToLids.map (·.1) = s.phoneToLids.map (·.1) ++ [set] := by
  rw [← keys_dropped s lid phone]
  exact keys_addLid _

theorem evictOver_of_le {cap : Nat} {entries : List (Text × Option Text)} (h : entries.length ≤ cap)
    (phoneToLids : List (Text × List Text)) : evictOver cap entries phoneToLids = (entries, phoneToLids) := by
  cases entries with
  | nil => rfl
  | cons entry entries => rw [evictOver, if_neg (Nat.not_lt.mpr h)]

theorem evictIfOverCap_of_le (h : s.maxCachedLids ≠ 0 → s.lidToPhone.length ≤ s.maxCachedLids) :
    s.evictIfOverCap = s := by
  unfold LidStore.evictIfOverCap
  split
  . rfl
  . next hcap => rw [evictOver_of_le (h hcap)]

/-- Another lid of the phone, where there is one. -/
theorem exists_other (h : Paired s) {p : Text} (hphone : phoneIn s.lidToPhone lid = some p)
    (halone : alone s lid = false) : ∃ other, other ≠ lid ∧ phoneIn s.lidToPhone other = some p := by
  unfold alone at halone
  rw [hphone, Option.any_some, List.all_eq_false] at halone
  rcases halone with ⟨other, hmem, hne⟩
  exact ⟨other, by simpa using hne, (h.mem other p).mp hmem⟩

theorem phoneIn_indexed (other : Text) : phoneIn (indexed s lid phone).lidToPhone other =
    if other = lid then truthy phone else phoneIn s.lidToPhone other := phoneIn_touch other

/-- Before the eviction every phone has a lid. -/
theorem filed_indexed (h : Aligned s)
    (hkeeps : alone s lid = true → phoneIn s.lidToPhone lid = truthy phone) :
    ∀ p ∈ (indexed s lid phone).phoneToLids.map (·.1),
      ∃ other, phoneIn (indexed s lid phone).lidToPhone other = some p := by
  intro p hp
  by_cases hnew : truthy phone = some p
  . exact ⟨lid, by rw [phoneIn_indexed, if_pos rfl, hnew]⟩
  have hold : p ∈ s.phoneToLids.map (·.1) := by
    rcases keys_indexed s lid phone with hkeys | ⟨set, hset, _, hkeys⟩
    . rwa [hkeys] at hp
    . rw [hkeys, List.mem_append, List.mem_singleton] at hp
      exact hp.resolve_right fun heq => hnew (heq ▸ hset)
  rcases h.filed p hold with ⟨other, hother⟩
  by_cases heq : other = lid
  . rw [heq] at hother
    have halone : alone s lid = false := by
      rw [Bool.eq_false_iff]
      intro halone
      exact hnew ((hkeeps halone).symm.trans hother)
    rcases exists_other h.paired hother halone with ⟨another, hne, hanother⟩
    exact ⟨another, by rw [phoneIn_indexed, if_neg hne, hanother]⟩
  . exact ⟨other, by rw [phoneIn_indexed, if_neg heq, hother]⟩

theorem length_touch (h : s.cached lid ≠ none) : (s.touch lid phone).lidToPhone.length ≤ s.lidToPhone.length := by
  have hheld : ∃ entry ∈ s.lidToPhone, entry.1 = lid := by
    refine Classical.byContradiction fun hnone => h ?_
    apply List.lookup_eq_none_iff.mpr
    intro entry hentry
    have hne : lid ≠ entry.1 := fun heq => hnone ⟨entry, hentry, heq.symm⟩
    simpa using hne
  rcases hheld with ⟨entry, hentry, hlid⟩
  have hlt : (s.lidToPhone.filter (fun entry => entry.1 ≠ lid)).length < s.lidToPhone.length :=
    List.length_filter_lt_length_iff_exists.mpr ⟨entry, hentry, by simp [hlid]⟩
  change (s.lidToPhone.filter (fun entry => entry.1 ≠ lid) ++ [(lid, phone)]).length ≤ _
  rw [List.length_append, List.length_singleton]
  exact hlt

theorem touch_of_new (h : s.cached lid = none) :
    (s.touch lid phone).lidToPhone = s.lidToPhone ++ [(lid, phone)] := by
  change s.lidToPhone.filter (fun entry => entry.1 ≠ lid) ++ [(lid, phone)] = _
  rw [List.filter_eq_self.mpr]
  intro entry hentry
  have hne : lid ≠ entry.1 := bne_iff_ne.mp (List.lookup_eq_none_iff.mp h entry hentry)
  simpa using Ne.symm hne

theorem cached_indexed (other : Text) : (indexed s lid phone).cached other =
    if other = lid then some phone else s.cached other := cached_touch other

theorem Aligned.indexed (h : Aligned s)
    (hkeeps : alone s lid = true → phoneIn s.lidToPhone lid = truthy phone) :
    Aligned (Lid.indexed s lid phone) where
  paired := h.paired.indexed
  keys := by
    rcases keys_indexed s lid phone with hkeys | ⟨set, _, hnew, hkeys⟩
    . rw [hkeys]
      exact h.keys
    . rw [hkeys, List.nodup_append]
      refine ⟨h.keys, List.nodup_singleton _, ?_⟩
      intro key hkey other hother
      rw [List.mem_singleton] at hother
      rintro rfl
      exact hnew (hother ▸ hkey)
  filed := filed_indexed h hkeeps
  disjoint := by
    intro other hother
    have hmem : other ∈ s.absentFromTable ∧ other ≠ lid := by simpa using List.mem_filter.mp hother
    rw [cached_indexed, if_neg hmem.2]
    exact h.disjoint other hmem.1
  absent := Nat.le_trans (List.length_filter_le _ _) h.absent

/-- The least recently used entry is evicted, whose phone has another lid. -/
theorem Aligned.tail {entry : Text × Option Text} {rest : List (Text × Option Text)} (h : Aligned s)
    (hentries : s.lidToPhone = entry :: rest)
    (hother : ∀ p, phoneIn s.lidToPhone entry.1 = some p →
      ∃ other, other ≠ entry.1 ∧ phoneIn s.lidToPhone other = some p) :
    Aligned { s with lidToPhone := rest, phoneToLids := dropLid s.phoneToLids entry.2 entry.1 } := by
  have hpaired : Inverse (entry :: rest) s.phoneToLids := hentries ▸ h.paired
  have hphone (other : Text) : phoneIn rest other =
      if other = entry.1 then none else phoneIn s.lidToPhone other := by
    rw [hentries]
    exact phoneIn_tail hpaired.nodup other
  refine ⟨hpaired.tail, ?_, ?_, ?_, h.absent⟩
  . dsimp only
    rw [keys_dropLid]
    exact h.keys
  . intro p hp
    dsimp only at hp ⊢
    rw [keys_dropLid] at hp
    rcases h.filed p hp with ⟨other, hfiled⟩
    by_cases heq : other = entry.1
    . rcases hother p (heq ▸ hfiled) with ⟨another, hne, hanother⟩
      exact ⟨another, by rw [hphone, if_neg hne, hanother]⟩
    . exact ⟨other, by rw [hphone, if_neg heq, hfiled]⟩
  . intro other habsent
    have hnone : s.lidToPhone.lookup other = none := h.disjoint other habsent
    rw [hentries] at hnone
    apply List.lookup_eq_none_iff.mpr
    intro entry' hentry'
    exact List.lookup_eq_none_iff.mp hnone entry' (List.mem_cons_of_mem _ hentry')

theorem Bounded.index (h : Bounded s) (hkeeps : KeepsPhones s (.index lid phone)) :
    Bounded (s.index lid phone) := by
  have hstrands : strands s (.index lid phone) = false := hkeeps
  simp only [strands, Bool.or_eq_false_iff, Bool.and_eq_false_imp, decide_eq_false_iff_not, ne_eq, not_not]
    at hstrands
  have haligned := h.toAligned.indexed hstrands.1
  have hcap : (Lid.indexed s lid phone).maxCachedLids = s.maxCachedLids := rfl
  rw [index_eq]
  by_cases hfits : s.maxCachedLids ≠ 0 → (Lid.indexed s lid phone).lidToPhone.length ≤ s.maxCachedLids
  . rw [evictIfOverCap_of_le hfits]
    exact ⟨haligned, hfits⟩
  -- the map is full and the lid is new
  simp only [Classical.not_imp, Nat.not_le] at hfits
  have hnew : s.cached lid = none := by
    refine Classical.byContradiction fun hheld => ?_
    have hle : (Lid.indexed s lid phone).lidToPhone.length ≤ s.lidToPhone.length := length_touch hheld
    have hwithin := h.forward hfits.1
    omega
  have htouched : (Lid.indexed s lid phone).lidToPhone = s.lidToPhone ++ [(lid, phone)] := touch_of_new hnew
  have hfull : s.lidToPhone.length = s.maxCachedLids := by
    have hlength := hfits.2
    rw [htouched, List.length_append, List.length_singleton] at hlength
    have hwithin := h.forward hfits.1
    omega
  rcases List.exists_cons_of_length_pos (by omega : 0 < s.lidToPhone.length) with ⟨entry, rest, hentries⟩
  have hevicted : evicted s lid = some entry := by
    unfold evicted
    rw [if_pos (by simp [hnew, hfits.1, hfull]), hentries, List.head?_cons]
  have hgone : alone s entry.1 = true → phoneIn s.lidToPhone entry.1 = truthy phone := by
    have hfalse := hstrands.2
    rw [hevicted, Option.any_some] at hfalse
    simpa using hfalse
  have hne : entry.1 ≠ lid := by
    intro heq
    have hlookup := List.lookup_eq_none_iff.mp hnew entry (hentries ▸ List.mem_cons_self)
    simp [heq] at hlookup
  have hlong : (Lid.indexed s lid phone).lidToPhone = entry :: (rest ++ [(lid, phone)]) := by
    rw [htouched, hentries, List.cons_append]
  have hrest : (rest ++ [(lid, phone)]).length = s.maxCachedLids := by
    rw [hentries, List.length_cons] at hfull
    rw [List.length_append, List.length_singleton, hfull]
  have hevict : (Lid.indexed s lid phone).evictIfOverCap = { Lid.indexed s lid phone with
      lidToPhone := rest ++ [(lid, phone)]
      phoneToLids := dropLid (Lid.indexed s lid phone).phoneToLids entry.2 entry.1 } := by
    unfold LidStore.evictIfOverCap
    rw [hcap, if_neg hfits.1, hlong, evictOver, if_pos (by rw [List.length_cons, hrest]; exact Nat.lt_succ_self _),
      evictOver_of_le (Nat.le_of_eq hrest)]
    rfl
  rw [hevict]
  refine ⟨haligned.tail hlong ?_, fun _ => Nat.le_of_eq (hrest.trans hcap.symm)⟩
  intro p hp
  rw [phoneIn_indexed, if_neg hne] at hp
  by_cases hphone : truthy phone = some p
  . exact ⟨lid, Ne.symm hne, by rw [phoneIn_indexed, if_pos rfl, hphone]⟩
  . have halone : alone s entry.1 = false := by
      rw [Bool.eq_false_iff]
      intro halone
      exact hphone ((hgone halone).symm.trans hp)
    rcases exists_other h.paired hp halone with ⟨other, hother, hfiled⟩
    have hheld : other ≠ lid := by
      rintro rfl
      have hlookup : s.lidToPhone.lookup other = none := hnew
      simp [phoneIn, hlookup, truthy] at hfiled
    exact ⟨other, hother, by rw [phoneIn_indexed, if_neg hheld, hfiled]⟩

theorem Bounded.noteAbsent (h : Bounded s) (hnew : s.cached lid = none) : Bounded (s.noteAbsent lid) := by
  unfold LidStore.noteAbsent
  split
  . exact h
  . refine ⟨⟨h.paired, h.keys, h.filed, ?_, ?_⟩, h.forward⟩
    . intro other hother
      have hmem := List.mem_of_mem_drop hother
      split at hmem
      . exact h.disjoint other hmem
      . rcases List.mem_append.mp hmem with hmem | hmem
        . exact h.disjoint other hmem
        . rw [List.mem_singleton] at hmem
          exact hmem ▸ hnew
    . dsimp only
      rw [List.length_drop]
      omega

theorem Bounded.touch (h : Bounded s) (hheld : s.cached lid = some phone) : Bounded (s.touch lid phone) := by
  have hsame (other : Text) : phoneIn (s.touch lid phone).lidToPhone other = phoneIn s.lidToPhone other := by
    have hlookup : s.lidToPhone.lookup lid = some phone := hheld
    rw [phoneIn_touch]
    split
    . next hother => simp [phoneIn, hother, hlookup]
    . rfl
  refine ⟨⟨h.paired.touch hheld, h.keys, ?_, ?_, h.absent⟩, ?_⟩
  . intro p hp
    rcases h.filed p hp with ⟨other, hother⟩
    exact ⟨other, (hsame other).trans hother⟩
  . intro other hother
    have hnone := h.disjoint other hother
    have hne : other ≠ lid := by
      rintro rfl
      rw [hheld] at hnone
      contradiction
    rw [cached_touch, if_neg hne, hnone]
  . intro hcap
    have hlength : (s.touch lid phone).lidToPhone.length ≤ s.lidToPhone.length :=
      length_touch (by simp [hheld])
    exact Nat.le_trans hlength (h.forward hcap)

theorem bounded_empty (h : s.lidToPhone = [] ∧ s.phoneToLids = [] ∧ s.absentFromTable = []) : Bounded s where
  paired := by
    unfold Paired
    rw [h.1, h.2.1]
    exact inverse_nil
  forward := by simp [h.1]
  keys := by simp [h.2.1]
  filed := by simp [h.2.1]
  disjoint := by simp [h.2.2]
  absent := by simp [h.2.2]

theorem Bounded.run {v : MapStep} {s' : LidStore} (h : Bounded s) (hkeeps : KeepsPhones s v)
    (hstep : v.run s = some s') : Bounded s' := by
  cases v with
  | index lid phone =>
    have heq : s.index lid phone = s' := Option.some.inj hstep
    exact heq ▸ h.index hkeeps
  | noteAbsent lid =>
    have hnoted : (if (s.cached lid).isNone then some (s.noteAbsent lid) else none) = some s' := hstep
    split at hnoted
    . next hnew => exact Option.some.inj hnoted ▸ h.noteAbsent (Option.isNone_iff_eq_none.mp hnew)
    . contradiction
  | evict =>
    have heq : s.evictIfOverCap = s' := Option.some.inj hstep
    rw [evictIfOverCap_of_le h.forward] at heq
    exact heq ▸ h
  | touch lid =>
    rcases Option.map_eq_some_iff.mp hstep with ⟨phone, hheld, heq⟩
    exact heq ▸ h.touch hheld
  | clear =>
    rw [← Option.some.inj hstep]
    exact bounded_empty ⟨rfl, rfl, rfl⟩

end Invariant

section Runs

/-- The maps of a process before its first step. -/
def noMaps (cap : Nat) : LidStore := ⟨[], [], [], [], [], [], cap⟩

/-- In a run whose steps strand no phone the maps are what they are to be. -/
theorem represents_of_reach {cap : Nat} {s : LidStore} (h : mapMachine.Reach KeepsPhones (noMaps cap) s) :
    Represents s := by
  have hbounded : Bounded s :=
    h.invariant (bounded_empty ⟨rfl, rfl, rfl⟩) fun _ _ _ hb hkeeps hstep => hb.run hkeeps hstep
  exact hbounded.represents

/-- One lid of a phone is evicted and the other one stays. -/
theorem represents_of_reach_evicted :
    ∃ s : LidStore, s.lidToPhone = [(['b'], some ['1']), (['c'], some ['2'])] ∧ Represents s := by
  have hrun : (mapMachine.exec KeepsPhones (noMaps 2)
      [.index ['a'] (some ['1']), .index ['b'] (some ['1']), .index ['c'] (some ['2']), .noteAbsent ['d']]).map
      (fun s => s.lidToPhone) = some [(['b'], some ['1']), (['c'], some ['2'])] := by
    decide +kernel
  rcases Machine.reach_of_exec_map hrun with ⟨s, hreach, hs⟩
  exact ⟨s, hs, represents_of_reach hreach⟩

/-- A phone keeps an empty set when its only lid is evicted. -/
theorem evicted_phone_stays :
    ∃ s, mapMachine.Reach Machine.anyStep (noMaps 1) s ∧ ¬Represents s := by
  have hrun : (mapMachine.exec Machine.anyStep (noMaps 1)
      [.index ['a'] (some ['1']), .index ['b'] (some ['2'])]).map (fun s => s.phoneToLids) =
      some [(['1'], []), (['2'], [['b']])] := by
    decide +kernel
  rcases Machine.reach_of_exec_map hrun with ⟨s, hreach, hs⟩
  refine ⟨s, hreach, ?_⟩
  intro h
  exact h.noEmpty (['1'], []) (by rw [hs]; exact List.mem_cons_self) rfl

end Runs

end OpenWA.Lid
