import OpenWA.Async.Outline
import OpenWA.Js.Map
import OpenWA.Lid.LidMappingStore

/-!
This module contains the agreement of the two maps of the lid mirror: a lid is filed under a phone just when
it resolves to it, after every step of a process that also loads its table anew.
-/

namespace OpenWA.Lid

open Async Js

/-- The phone that is set for the lid. -/
def phoneIn (entries : List (Text × Option Text)) (lid : Text) : Option Text :=
  truthy ((entries.lookup lid).getD none)

def lidsIn (phoneToLids : List (Text × List Text)) (phone : Text) : List Text :=
  (phoneToLids.lookup phone).getD []

structure Inverse (entries : List (Text × Option Text)) (phoneToLids : List (Text × List Text)) : Prop where
  nodup : (entries.map (·.1)).Nodup
  mem : ∀ lid phone, lid ∈ lidsIn phoneToLids phone ↔ phoneIn entries lid = some phone

section Maps

variable {entries : List (Text × Option Text)} {phoneToLids : List (Text × List Text)}
  {lid other phone' : Text} {phone : Option Text}

theorem lookup_map_at (f : List Text → List Text) (k k' : Text) :
    (phoneToLids.map fun entry => if entry.1 = k then (entry.1, f entry.2) else entry).lookup k' =
      if k' = k then (phoneToLids.lookup k').map f else phoneToLids.lookup k' := by
  induction phoneToLids with
  | nil => simp
  | cons entry rest ih =>
    rw [List.map_cons, List.lookup_cons, List.lookup_cons, ih]
    by_cases hentry : entry.1 = k
    . rw [if_pos hentry]
      by_cases hk : k' = k
      . subst hk
        simp [hentry]
      . have hne : (k' == entry.1) = false := by simpa [hentry] using hk
        simp [hk, hne]
    . rw [if_neg hentry]
      by_cases hk : k' = k
      . have hne : k' ≠ entry.1 := by
          rw [hk]
          exact Ne.symm hentry
        simp [hk, beq_eq_false_iff_ne.mpr (hk ▸ hne)]
      . simp [hk]

theorem mem_lidsIn_dropLid : other ∈ lidsIn (dropLid phoneToLids phone lid) phone' ↔
    other ∈ lidsIn phoneToLids phone' ∧ ¬(truthy phone = some phone' ∧ other = lid) := by
  unfold dropLid
  cases truthy phone with
  | none => simp
  | some set =>
    unfold lidsIn
    dsimp only
    rw [lookup_map_at (fun lids => lids.filter (· ≠ lid))]
    by_cases hset : phone' = set
    . subst hset
      rw [if_pos rfl]
      cases phoneToLids.lookup phone' <;> simp
    . rw [if_neg hset]
      simp [Ne.symm hset]

theorem mem_lidsIn_addLid : other ∈ lidsIn (addLid phoneToLids phone lid) phone' ↔
    other ∈ lidsIn phoneToLids phone' ∨ truthy phone = some phone' ∧ other = lid := by
  unfold addLid
  cases truthy phone with
  | none => simp
  | some set =>
    unfold lidsIn
    dsimp only
    cases hlids : phoneToLids.lookup set with
    | none =>
      rw [List.lookup_append, List.lookup_cons, List.lookup_nil]
      by_cases hset : phone' = set
      . subst hset
        simp [hlids]
      . simp [beq_eq_false_iff_ne.mpr hset, Ne.symm hset]
    | some lids =>
      dsimp only
      rw [lookup_map_at (fun _ => if lid ∈ lids then lids else lids ++ [lid])]
      by_cases hset : phone' = set
      . subst hset
        rw [if_pos rfl, hlids]
        by_cases hlid : lid ∈ lids
        . simp only [Option.map_some, Option.getD_some, if_pos hlid, true_and]
          exact ⟨.inl, fun h => h.elim id fun heq => heq ▸ hlid⟩
        . simp [hlid]
      . rw [if_neg hset]
        simp [Ne.symm hset]

theorem inverse_nil : Inverse [] [] where
  nodup := List.nodup_nil
  mem := by simp [lidsIn, phoneIn, truthy]

theorem phoneIn_tail (hnodup : (((lid, phone) :: entries).map (·.1)).Nodup) (other : Text) :
    phoneIn entries other = if other = lid then none else phoneIn ((lid, phone) :: entries) other := by
  have hkeys := List.nodup_cons.mp hnodup
  by_cases hother : other = lid
  . have hnone : entries.lookup lid = none := by
      rw [List.lookup_eq_none_iff]
      intro entry hentry
      have hne : lid ≠ entry.1 := by
        intro heq
        exact hkeys.1 (List.mem_map.mpr ⟨entry, hentry, heq.symm⟩)
      simpa using hne
    subst hother
    simp [phoneIn, hnone, truthy]
  . simp [phoneIn, List.lookup_cons, beq_eq_false_iff_ne.mpr hother, hother]

/-- The forward map forgets a lid, and the reverse map with it. -/
theorem Inverse.tail (h : Inverse ((lid, phone) :: entries) phoneToLids) :
    Inverse entries (dropLid phoneToLids phone lid) := by
  refine ⟨(List.nodup_cons.mp h.nodup).2, ?_⟩
  intro other phone'
  rw [mem_lidsIn_dropLid, h.mem, phoneIn_tail h.nodup]
  by_cases hother : other = lid
  . subst hother
    simp [phoneIn]
  . simp [hother]

theorem Inverse.evictOver {cap : Nat} (h : Inverse entries phoneToLids) :
    Inverse (Lid.evictOver cap entries phoneToLids).1 (Lid.evictOver cap entries phoneToLids).2 := by
  induction entries generalizing phoneToLids with
  | nil => exact h
  | cons entry entries ih =>
    unfold Lid.evictOver
    split
    . exact ih h.tail
    . exact h

end Maps

section Steps

variable {s : LidStore} {lid : Text} {phone : Option Text}

/-- The two maps of a state. -/
def Paired (s : LidStore) : Prop := Inverse s.lidToPhone s.phoneToLids

theorem cached_touch (other : Text) :
    (s.touch lid phone).cached other = if other = lid then some phone else s.cached other := by
  change List.lookup other (s.lidToPhone.filter (fun entry => entry.1 ≠ lid) ++ [(lid, phone)]) = _
  have hfilter : (s.lidToPhone.filter fun entry => entry.1 ≠ lid).lookup other =
      if other = lid then none else s.lidToPhone.lookup other := by
    convert Map.lookup_filter_ne s.lidToPhone lid other
  rw [List.lookup_append, hfilter, List.lookup_cons, List.lookup_nil]
  by_cases hother : other = lid
  . simp [hother]
  . simp [hother, beq_eq_false_iff_ne.mpr hother, LidStore.cached]

theorem nodup_touch (h : (s.lidToPhone.map (·.1)).Nodup) :
    ((s.touch lid phone).lidToPhone.map (·.1)).Nodup := by
  change ((s.lidToPhone.filter (fun entry => entry.1 ≠ lid) ++ [(lid, phone)]).map (·.1)).Nodup
  rw [List.map_append, List.nodup_append]
  refine ⟨h.sublist (List.filter_sublist.map _), List.nodup_singleton _, ?_⟩
  intro key hkey other hother
  rcases List.mem_map.mp hkey with ⟨entry, hentry, rfl⟩
  rw [List.map_singleton, List.mem_singleton] at hother
  rw [hother]
  simpa using (List.mem_filter.mp hentry).2

theorem Paired.evictIfOverCap (h : Paired s) : Paired s.evictIfOverCap := by
  unfold LidStore.evictIfOverCap
  split
  . exact h
  . exact Inverse.evictOver h

theorem phoneIn_touch (other : Text) : phoneIn (s.touch lid phone).lidToPhone other =
    if other = lid then truthy phone else phoneIn s.lidToPhone other := by
  have htouch : (s.touch lid phone).lidToPhone.lookup other = _ := cached_touch other
  unfold phoneIn
  rw [htouch]
  split <;> rfl

/-- What `index` makes of the maps before it evicts. -/
def indexed (s : LidStore) (lid : Text) (phone : Option Text) : LidStore :=
  { s.touch lid phone with
    phoneToLids := addLid
      (match s.cached lid with
        | some prev => if prev ≠ phone then dropLid s.phoneToLids prev lid else s.phoneToLids
        | none => s.phoneToLids) phone lid
    absentFromTable := s.absentFromTable.filter (· ≠ lid) }

theorem index_eq (s : LidStore) (lid : Text) (phone : Option Text) :
    s.index lid phone = (indexed s lid phone).evictIfOverCap := rfl

theorem Paired.indexed (h : Paired s) : Paired (Lid.indexed s lid phone) := by
  refine ⟨nodup_touch h.nodup, ?_⟩
  intro other phone'
  have htouched : (Lid.indexed s lid phone).lidToPhone = (s.touch lid phone).lidToPhone := rfl
  rw [htouched, phoneIn_touch]
  unfold Lid.indexed
  rw [mem_lidsIn_addLid]
  have hold := h.mem other phone'
  cases hcached : s.cached lid with
  | none =>
    have hnone : phoneIn s.lidToPhone lid = none := by
      have hlookup : s.lidToPhone.lookup lid = none := hcached
      simp [phoneIn, hlookup, truthy]
    dsimp only
    by_cases hother : other = lid
    . subst hother
      simp [hold, hnone]
    . simp [hother, hold]
  | some prev =>
    have hprev : phoneIn s.lidToPhone lid = truthy prev := by
      have hlookup : s.lidToPhone.lookup lid = some prev := hcached
      simp [phoneIn, hlookup]
    dsimp only
    by_cases hsame : prev = phone
    . rw [if_neg (not_not_intro hsame)]
      by_cases hother : other = lid
      . subst hother
        simp [hold, hprev, hsame]
      . simp [hother, hold]
    . rw [if_pos hsame, mem_lidsIn_dropLid]
      by_cases hother : other = lid
      . subst hother
        simp [hold, hprev]
      . simp [hother, hold]

theorem Paired.index (h : Paired s) : Paired (s.index lid phone) := h.indexed.evictIfOverCap

/-- A hit moves its entry, which changes no answer. -/
theorem Paired.touch (h : Paired s) (hcached : s.cached lid = some phone) : Paired (s.touch lid phone) := by
  refine ⟨nodup_touch h.nodup, ?_⟩
  intro other phone'
  have hlookup : s.lidToPhone.lookup lid = some phone := hcached
  rw [phoneIn_touch]
  by_cases hother : other = lid
  . subst hother
    rw [if_pos rfl]
    exact (h.mem other phone').trans (by simp [phoneIn, hlookup])
  . rw [if_neg hother]
    exact h.mem other phone'

theorem Paired.answer (h : Paired s) (row : Option LidMapping) (writeInFlight : Bool) :
    Paired (Lid.answer lid row writeInFlight s) := by
  unfold Lid.answer
  cases row with
  | some row =>
    dsimp only
    split
    . exact h.index
    . exact h
  | none =>
    dsimp only
    split
    . unfold LidStore.noteAbsent
      split <;> exact h
    . exact h

theorem Paired.getCached (h : Paired s) : Paired (Lid.getCached lid s).1 := by
  unfold Lid.getCached
  split
  . next phone hcached => exact h.touch hcached
  . unfold warmFromTable
    split <;> exact h

theorem cached_getCached (lid other : Text) : (Lid.getCached lid s).1.cached other = s.cached other := by
  unfold Lid.getCached
  split
  . next phone hcached =>
    rw [cached_touch]
    split
    . next hother => rw [hother, hcached]
    . rfl
  . unfold warmFromTable
    split <;> rfl

theorem phoneToLids_getCached (lid : Text) : (Lid.getCached lid s).1.phoneToLids = s.phoneToLids := by
  unfold Lid.getCached
  split
  . rfl
  . unfold warmFromTable
    split <;> rfl

theorem Paired.remember (h : Paired s) (row : LidMapping) : Paired (Lid.remember row s).1 := by
  unfold Lid.remember
  split
  . exact h.index
  . exact h

theorem paired_reload (s : LidStore) : Paired (Lid.reload s) := by
  have hfold (rows : List LidMapping) (s : LidStore) (h : Paired s) :
      Paired (rows.foldl (fun s row => s.index row.lid row.phone) s) := by
    induction rows generalizing s with
    | nil => exact h
    | cons row rows ih => exact ih _ h.index
  exact hfold _ _ inverse_nil

end Steps

section Runs

/-- The calls of a process, and what reaches its table and its mirror by other ways. -/
inductive MirrorEvent where
  | call (v : LidEvent)
  /-- `reload`, whose query found these rows -/
  | reload (found : List LidMapping)
  /-- the table is replaced, by a restore or another process -/
  | table (rows : List LidMapping)

def MirrorEvent.run (v : MirrorEvent) (s : LidStore) : LidStore × LidTask Unit :=
  match v with
  | .call v => v.run s
  | .reload found => ({ Lid.reload { s with table := found } with table := s.table }, pure ())
  | .table rows => ({ s with table := rows }, pure ())

def mirrorSystem : System LidStore Answer Place QueryError MirrorEvent Unit where
  event v s := some (v.run s)
  note _ _ _ hist := hist

abbrev MirrorConfig := Config LidStore Answer Place QueryError Unit

/-- A process whose mirror is empty yet. -/
def started (table : List LidMapping) (cap : Nat) : MirrorConfig where
  st := ⟨table, [], [], [], [], [], cap⟩
  hist := ()
  pool := []

def pairing : Outline mirrorSystem where
  ok := System.anyStep
  inv w := Paired w.st
  rely _ _ _ := True
  chk _ _ _ := True
  post _ _ _ := True

variable {i : Nat} {w : World LidStore Unit}

theorem pairing_atomic {α : Type} {pt : Place} {f : Answer → LidStore → LidStore × Except QueryError α}
    (h : ∀ x s, Paired s → Paired (f x s).1) : pairing.Steady i (.atomic pt f) := by
  intro w
  apply Outline.safe_atomic
  intro w' x _ hinv _ _
  refine ⟨⟨trivial, h x _ hinv, fun _ _ _ => trivial⟩, ?_⟩
  apply Outline.safe_ofExcept <;> intros <;> trivial

theorem pairing_lookup (lid : Text) (writeInFlight : Bool) : pairing.Steady i (lookup lid writeInFlight) := by
  have htrans : ∀ i w₁ w₂ w₃, pairing.rely i w₁ w₂ → pairing.rely i w₂ w₃ → pairing.rely i w₁ w₃ :=
    fun _ _ _ _ _ _ => trivial
  apply Outline.Steady.andFinally htrans
  . apply Outline.Steady.catch' htrans
    . apply Outline.Steady.bind htrans
      . exact pairing_atomic fun _ _ h => h
      . intro row
        exact pairing_atomic fun _ _ h => h.answer row writeInFlight
    . intro _
      exact Outline.steady_pure (fun _ _ => trivial) ()
  . exact pairing_atomic fun _ _ h => h

theorem pairing_persist (row : LidMapping) : pairing.Steady i (persist row) := by
  apply Outline.Steady.bind fun _ _ _ _ _ _ => trivial
  . exact pairing_atomic fun _ _ h => h
  . intro _
    exact pairing_atomic fun _ _ h => h

theorem pairing_event (v : MirrorEvent) {s : LidStore} (h : Paired s) :
    Paired (v.run s).1 ∧ pairing.Steady i (v.run s).2 := by
  have hpure : pairing.Steady i (pure () : LidTask Unit) := Outline.steady_pure (fun _ _ => trivial) ()
  cases v with
  | call v =>
    cases v with
    | getCached lid =>
      refine ⟨h.getCached, ?_⟩
      unfold MirrorEvent.run LidEvent.run Lid.getCached warmFromTable
      dsimp only
      split
      . exact hpure
      . split
        . exact hpure
        . exact pairing_lookup _ _
    | remember row =>
      refine ⟨h.remember row, ?_⟩
      unfold MirrorEvent.run LidEvent.run Lid.remember
      dsimp only
      split
      . exact pairing_persist row
      . exact hpure
  | reload found => exact ⟨paired_reload _, hpure⟩
  | table rows => exact ⟨h, hpure⟩

theorem pairing_valid : pairing.Valid where
  refl _ _ := trivial
  trans _ _ _ _ _ _ := trivial
  event w v s t hinv _ hevent := by
    have hrun : v.run w.st = (s, t) := Option.some.inj hevent
    have hpaired := pairing_event (i := w.started) v hinv
    rw [hrun] at hpaired
    exact ⟨⟨trivial, hpaired.1, fun _ _ _ => trivial⟩, hpaired.2 _⟩

theorem paired_of_reach {table : List LidMapping} {cap : Nat} {c : MirrorConfig}
    (h : mirrorSystem.Reach System.anyStep (started table cap) c) : Paired c.st := by
  have hinit : pairing.inv (started table cap).world := inverse_nil
  exact pairing_valid.inv_of_reach hinit rfl h

end Runs

end OpenWA.Lid
