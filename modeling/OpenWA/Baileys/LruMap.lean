import Mathlib.Data.List.Induction
import OpenWA.Js.Map

/-!
This module contains the bounded map of the session store, whose eviction may not take pinned entries.
-/

namespace OpenWA.Baileys.Lru

open Js

variable {κ α : Type} [DecidableEq κ]

structure LruMap (κ α : Type) where
  map : Map κ α
  /-- The entries the predicate does not protect, counted beside the map. -/
  unpinned : Int
  max : Nat
  pinned : Option (α → Bool)

namespace LruMap

def new (max : Nat) (pinned : Option (α → Bool)) : LruMap κ α := ⟨.empty, 0, max, pinned⟩

def isPinned (m : LruMap κ α) (value : α) : Bool :=
  match m.pinned with
  | some pinned => pinned value
  | none => false

def drop (m : LruMap κ α) (key : κ) : LruMap κ α :=
  match m.map.get? key with
  | none => m
  | some value =>
    { m with
      unpinned := if m.isPinned value then m.unpinned else m.unpinned - 1
      map := m.map.delete key }

/-- A hit moves its entry to the most recent end. -/
def get (m : LruMap κ α) (key : κ) : LruMap κ α × Option α :=
  match m.map.get? key with
  | none => (m, none)
  | some value => ({ m with map := (m.map.delete key).set key value }, some value)

/-- The map head where there is no predicate. -/
def oldestEvictable (m : LruMap κ α) : Option κ :=
  match m.pinned with
  | none => m.map.keys.head?
  | some pinned => (m.map.entries.find? fun entry => !pinned entry.2).map (·.1)

omit [DecidableEq κ] in
theorem oldestEvictable_eq (m : LruMap κ α) :
    m.oldestEvictable = (m.map.entries.find? fun entry => !m.isPinned entry.2).map (·.1) := by
  unfold oldestEvictable isPinned
  cases m.pinned with
  | none => cases h : m.map.entries <;> simp [Map.keys, h]
  | some pinned => rfl

theorem drop_of_mem {m : LruMap κ α} {entry : κ × α} (h : entry ∈ m.map.entries) :
    m.drop entry.1 = { m with
      unpinned := if m.isPinned entry.2 then m.unpinned else m.unpinned - 1
      map := m.map.delete entry.1 } := by
  have hget : m.map.get? entry.1 = some entry.2 := Map.lookup_eq_some_of_mem m.map.nodup h
  unfold drop
  rw [hget]

omit [DecidableEq κ] in
theorem mem_of_oldestEvictable {m : LruMap κ α} {key : κ} (h : m.oldestEvictable = some key) :
    ∃ value, (key, value) ∈ m.map.entries ∧ m.isPinned value = false := by
  rw [oldestEvictable_eq, Option.map_eq_some_iff] at h
  rcases h with ⟨⟨key', value⟩, hfind, rfl⟩
  exact ⟨value, List.mem_of_find?_eq_some hfind, by simpa using List.find?_some hfind⟩

theorem size_drop_lt {m : LruMap κ α} {key : κ} (h : m.oldestEvictable = some key) :
    (m.drop key).map.size < m.map.size := by
  rcases mem_of_oldestEvictable h with ⟨value, hmem, _⟩
  rw [drop_of_mem hmem]
  exact List.length_filter_lt_length_iff_exists.mpr ⟨(key, value), hmem, by simp⟩

/-- The loop of `set`. -/
def evict (m : LruMap κ α) : LruMap κ α :=
  if (m.max : Int) < m.unpinned then
    match _h : m.oldestEvictable with
    | none => m
    | some victim => (m.drop victim).evict
  else m
termination_by m.map.size
decreasing_by exact size_drop_lt _h

/-- The entry is added at the most recent end. -/
def put (m : LruMap κ α) (key : κ) (value : α) : LruMap κ α :=
  let m := m.drop key
  { m with
    map := m.map.set key value
    unpinned := if m.isPinned value then m.unpinned else m.unpinned + 1 }

def set (m : LruMap κ α) (key : κ) (value : α) : LruMap κ α :=
  let m := m.put key value
  if m.max = 0 then m else m.evict

end LruMap

inductive Op (κ α : Type) where
  | get (key : κ)
  | set (key : κ) (value : α)

def Op.key (op : Op κ α) : κ :=
  match op with
  | .get key => key
  | .set key _ => key

def LruMap.step (m : LruMap κ α) (op : Op κ α) : LruMap κ α :=
  match op with
  | .get key => (m.get key).1
  | .set key value => m.set key value

/-- A new map after a sequence of operations. -/
def run (max : Nat) (pinned : Option (α → Bool)) (ops : List (Op κ α)) : LruMap κ α :=
  ops.foldl LruMap.step (.new max pinned)

/-- The number of the last operation that names the key, from one on. -/
def lastUse (ops : List (Op κ α)) (key : κ) : Nat :=
  (ops.zipIdx 1).foldl (fun last entry => if entry.1.key = key then entry.2 else last) 0

theorem lastUse_concat (ops : List (Op κ α)) (op : Op κ α) (key : κ) :
    lastUse (ops ++ [op]) key = if op.key = key then ops.length + 1 else lastUse ops key := by
  simp [lastUse, List.zipIdx_append, Nat.add_comm]

theorem lastUse_le (ops : List (Op κ α)) (key : κ) : lastUse ops key ≤ ops.length := by
  induction ops using List.reverseRecOn with
  | nil => exact Nat.le_refl 0
  | append_singleton ops op ih =>
    rw [lastUse_concat, List.length_append, List.length_singleton]
    split <;> omega

section Counting

/-- The entries of a list that its predicate does not protect. -/
def LruMap.rejected (m : LruMap κ α) : Nat := m.map.entries.countP fun entry => !m.isPinned entry.2

theorem countP_delete {entries : List (κ × α)} (hnodup : (entries.map (·.1)).Nodup) {entry : κ × α}
    (h : entry ∈ entries) (p : κ × α → Bool) :
    entries.countP p = (entries.filter (·.1 ≠ entry.1)).countP p + if p entry then 1 else 0 := by
  induction entries with
  | nil => nomatch h
  | cons first rest ih =>
    rw [List.map_cons, List.nodup_cons] at hnodup
    rcases List.mem_cons.mp h with rfl | hrest
    . have hself : rest.filter (·.1 ≠ entry.1) = rest := by
        apply List.filter_eq_self.mpr
        intro other hother
        have hne : other.1 ≠ entry.1 := fun heq => hnodup.1 (heq ▸ List.mem_map_of_mem hother)
        simpa using hne
      rw [List.filter_cons_of_neg (by simp), hself, List.countP_cons]
    . have hne : first.1 ≠ entry.1 := fun heq => hnodup.1 (heq ▸ List.mem_map_of_mem hrest)
      rw [List.filter_cons_of_pos (by simpa using hne), List.countP_cons, List.countP_cons, ih hnodup.2 hrest]
      omega

/-- The counter is right. -/
def Counted (m : LruMap κ α) : Prop := m.unpinned = m.rejected

variable {m : LruMap κ α}

theorem drop_of_get?_none {key : κ} (h : m.map.get? key = none) : m.drop key = m := by
  unfold LruMap.drop
  rw [h]

theorem drop_config (m : LruMap κ α) (key : κ) :
    (m.drop key).max = m.max ∧ (m.drop key).pinned = m.pinned := by
  unfold LruMap.drop
  cases m.map.get? key <;> exact ⟨rfl, rfl⟩

theorem ne_of_get?_none {key : κ} (h : m.map.get? key = none) : ∀ entry ∈ m.map.entries, entry.1 ≠ key := by
  rintro entry hentry rfl
  have hsome : m.map.get? entry.1 = some entry.2 := (Map.mem_entries_iff m.map entry).mp hentry
  rw [h] at hsome
  contradiction

theorem entries_drop (m : LruMap κ α) (key : κ) :
    (m.drop key).map.entries = m.map.entries.filter (·.1 ≠ key) := by
  cases hget : m.map.get? key with
  | none =>
    rw [drop_of_get?_none hget, eq_comm, List.filter_eq_self]
    intro entry hentry
    simpa using ne_of_get?_none hget entry hentry
  | some value =>
    have hmem : (key, value) ∈ m.map.entries := (Map.mem_entries_iff m.map (key, value)).mpr hget
    rw [LruMap.drop_of_mem hmem]
    rfl

theorem Counted.drop (h : Counted m) (key : κ) : Counted (m.drop key) := by
  cases hget : m.map.get? key with
  | none => rwa [drop_of_get?_none hget]
  | some value =>
    have hmem : (key, value) ∈ m.map.entries := (Map.mem_entries_iff m.map (key, value)).mpr hget
    have hcount := countP_delete m.map.nodup hmem fun entry => !m.isPinned entry.2
    rw [LruMap.drop_of_mem hmem]
    unfold Counted LruMap.rejected at *
    change (if m.isPinned value then m.unpinned else m.unpinned - 1) =
      (((m.map.entries.filter (·.1 ≠ key)).countP fun entry => !m.isPinned entry.2 : Nat) : Int)
    split
    . next hpinned =>
      simp only [hpinned, Bool.not_true, Bool.false_eq_true, if_false, Nat.add_zero] at hcount
      omega
    . next hpinned =>
      simp only [Bool.eq_false_iff.mpr hpinned, Bool.not_false, if_true] at hcount
      omega

/-- The entries of a map in which one was moved to, or put at, the most recent end. -/
theorem entries_delete_set (map : Map κ α) (key : κ) (value : α) :
    ((map.delete key).set key value).entries = map.entries.filter (·.1 ≠ key) ++ [(key, value)] := by
  apply Map.setEntries_of_notMem
  intro hmem
  rcases List.mem_map.mp hmem with ⟨entry, hentry, hkey⟩
  simpa [hkey] using (List.mem_filter.mp hentry).2

theorem entries_put (m : LruMap κ α) (key : κ) (value : α) :
    (m.put key value).map.entries = m.map.entries.filter (·.1 ≠ key) ++ [(key, value)] := by
  have hentries : (m.put key value).map.entries = Map.setEntries (m.drop key).map.entries key value := rfl
  rw [hentries, entries_drop]
  exact entries_delete_set m.map key value

theorem put_config (m : LruMap κ α) (key : κ) (value : α) :
    (m.put key value).max = m.max ∧ (m.put key value).pinned = m.pinned := drop_config m key

theorem Counted.put (h : Counted m) (key : κ) (value : α) : Counted (m.put key value) := by
  have hdrop : (m.drop key).unpinned = (m.drop key).rejected := h.drop key
  have hentries : (m.put key value).map.entries = (m.drop key).map.entries ++ [(key, value)] := by
    rw [entries_put, entries_drop]
  have hpin : (m.put key value).isPinned = (m.drop key).isPinned := rfl
  unfold Counted LruMap.rejected
  rw [hentries, hpin, List.countP_append, List.countP_singleton]
  change (if (m.drop key).isPinned value then (m.drop key).unpinned else (m.drop key).unpinned + 1) = _
  rw [hdrop, LruMap.rejected]
  cases (m.drop key).isPinned value <;> simp

/-- The loop of a `set` takes at most one entry. -/
theorem evict_spec (h : Counted m) (hover : m.unpinned ≤ m.max + 1) :
    (m.unpinned ≤ m.max ∧ m.evict = m) ∨
      ∃ victim, m.unpinned = m.max + 1 ∧ m.oldestEvictable = some victim ∧ m.evict = m.drop victim := by
  by_cases hle : m.unpinned ≤ m.max
  . refine .inl ⟨hle, ?_⟩
    rw [LruMap.evict, if_neg (Int.not_lt.mpr hle)]
  . have hfull : m.unpinned = m.max + 1 := by omega
    have hsome : ∃ victim, m.oldestEvictable = some victim := by
      have hpos : 0 < m.map.entries.countP fun entry => !m.isPinned entry.2 := by
        have hcounted : m.unpinned = (m.map.entries.countP fun entry => !m.isPinned entry.2 : Nat) := h
        omega
      rcases List.countP_pos_iff.mp hpos with ⟨entry, hentry, hrejected⟩
      rw [LruMap.oldestEvictable_eq]
      cases hfind : m.map.entries.find? fun entry => !m.isPinned entry.2 with
      | some first => exact ⟨first.1, rfl⟩
      | none => exact absurd hrejected (List.find?_eq_none.mp hfind entry hentry)
    rcases hsome with ⟨victim, hvictim⟩
    refine .inr ⟨victim, hfull, hvictim, ?_⟩
    rcases LruMap.mem_of_oldestEvictable hvictim with ⟨value, hmem, hunpinned⟩
    have hdropped : ¬ ((m.drop victim).max : Int) < (m.drop victim).unpinned := by
      rw [LruMap.drop_of_mem hmem]
      simp only [hunpinned, Bool.false_eq_true, if_false]
      omega
    rw [LruMap.evict, if_pos (by omega)]
    split
    . next hnone =>
      rw [hvictim] at hnone
      contradiction
    . next other hother =>
      rw [hvictim, Option.some.injEq] at hother
      rw [← hother, LruMap.evict, if_neg hdropped]

end Counting

section Runs

variable {max : Nat} {pinned : α → Bool} {ops : List (Op κ α)} {m : LruMap κ α}

/-- The entries stand in the order of their last use. -/
def Ordered (ops : List (Op κ α)) (entries : List (κ × α)) : Prop :=
  entries.Pairwise fun a b => lastUse ops a.1 < lastUse ops b.1

theorem Ordered.kept {entries : List (κ × α)} {op : Op κ α} (h : Ordered ops entries)
    (hother : ∀ entry ∈ entries, entry.1 ≠ op.key) : Ordered (ops ++ [op]) entries := by
  have hsame {entry : κ × α} (hentry : entry ∈ entries) :
      lastUse (ops ++ [op]) entry.1 = lastUse ops entry.1 := by
    rw [lastUse_concat, if_neg (Ne.symm (hother entry hentry))]
  apply List.Pairwise.imp_of_mem _ h
  intro a b ha hb hlt
  rwa [hsame ha, hsame hb]

theorem Ordered.moved {entries : List (κ × α)} (h : Ordered ops entries) (op : Op κ α) (value : α) :
    Ordered (ops ++ [op]) (entries.filter (·.1 ≠ op.key) ++ [(op.key, value)]) := by
  have hother : ∀ entry ∈ entries.filter (·.1 ≠ op.key), entry.1 ≠ op.key := by
    intro entry hentry
    simpa using (List.mem_filter.mp hentry).2
  apply List.pairwise_append.mpr
  refine ⟨Ordered.kept (h.filter _) hother, List.pairwise_singleton _ _, ?_⟩
  intro a ha b hb
  rw [List.mem_singleton] at hb
  rw [hb, lastUse_concat, lastUse_concat, if_neg (Ne.symm (hother a ha)), if_pos rfl]
  exact Nat.lt_succ_of_le (lastUse_le ops a.1)

structure Sound (max : Nat) (pinned : α → Bool) (ops : List (Op κ α)) (m : LruMap κ α) : Prop where
  cap : m.max = max
  predicate : m.pinned = some pinned
  counted : Counted m
  within : m.unpinned ≤ max
  ordered : Ordered ops m.map.entries

omit [DecidableEq κ] in
theorem isPinned_eq (h : m.pinned = some pinned) : m.isPinned = pinned := by
  funext value
  unfold LruMap.isPinned
  rw [h]

theorem sound_new : Sound max pinned ([] : List (Op κ α)) (.new max (some pinned)) where
  cap := rfl
  predicate := rfl
  counted := rfl
  within := Int.natCast_nonneg max
  ordered := List.Pairwise.nil

/-- A hit changes the order alone. -/
theorem Sound.get (h : Sound max pinned ops m) (key : κ) :
    Sound max pinned (ops ++ [.get key]) (m.get key).1 := by
  unfold LruMap.get
  cases hget : m.map.get? key with
  | none =>
    exact ⟨h.cap, h.predicate, h.counted, h.within, h.ordered.kept (ne_of_get?_none hget)⟩
  | some value =>
    have hmem : (key, value) ∈ m.map.entries := (Map.mem_entries_iff m.map (key, value)).mpr hget
    refine ⟨h.cap, h.predicate, ?_, h.within, ?_⟩
    . have hcount := countP_delete m.map.nodup hmem fun entry => !m.isPinned entry.2
      have hcounted : m.unpinned = m.rejected := h.counted
      change m.unpinned = (((m.map.delete key).set key value).entries.countP fun entry => !m.isPinned entry.2 : Nat)
      rw [hcounted, LruMap.rejected, hcount, entries_delete_set, List.countP_append, List.countP_singleton]
    . change Ordered _ ((m.map.delete key).set key value).entries
      rw [entries_delete_set]
      exact h.ordered.moved (.get key) value

theorem unpinned_drop_le (m : LruMap κ α) (key : κ) : (m.drop key).unpinned ≤ m.unpinned := by
  unfold LruMap.drop
  cases m.map.get? key with
  | none => exact Int.le_refl _
  | some value =>
    dsimp only
    split <;> omega

theorem unpinned_put_le (m : LruMap κ α) (key : κ) (value : α) : (m.put key value).unpinned ≤ m.unpinned + 1 := by
  have hdrop := unpinned_drop_le m key
  unfold LruMap.put
  dsimp only
  split <;> omega

/-- The entry that was just set is not the one to go while there are others that may. -/
theorem oldest_ne_of_put {key victim : κ} {value : α} (hmany : 2 ≤ (m.put key value).rejected)
    (hvictim : (m.put key value).oldestEvictable = some victim) : victim ≠ key := by
  rintro rfl
  rw [LruMap.oldestEvictable_eq, entries_put, List.find?_append, Option.map_eq_some_iff] at hvictim
  rcases hvictim with ⟨entry, hfind, hkey⟩
  cases hearlier : (m.map.entries.filter (·.1 ≠ victim)).find? fun entry => !(m.put victim value).isPinned entry.2 with
  | some other =>
    rw [hearlier, Option.some_or, Option.some.injEq] at hfind
    have hne := (List.mem_filter.mp (List.mem_of_find?_eq_some hearlier)).2
    simp [hfind, hkey] at hne
  | none =>
    have hzero := List.countP_eq_zero.mpr (List.find?_eq_none.mp hearlier)
    unfold LruMap.rejected at hmany
    rw [entries_put, List.countP_append, hzero, List.countP_singleton] at hmany
    split at hmany <;> omega

/-- What a `set` does: its entry comes last, and at most one other one is taken. -/
theorem set_cases (h : Sound max pinned ops m) (hmax : 1 ≤ max) (key : κ) (value : α) :
    Sound max pinned (ops ++ [.set key value]) (m.set key value) ∧
      ((m.set key value).map.entries = (m.put key value).map.entries ∨
        ∃ victim, (m.put key value).oldestEvictable = some victim ∧ victim ≠ key ∧
          (m.set key value).map.entries = (m.put key value).map.entries.filter (·.1 ≠ victim)) := by
  rcases put_config m key value with ⟨hcap, hpredicate⟩
  rw [h.cap] at hcap
  rw [h.predicate] at hpredicate
  have hcounted : Counted (m.put key value) := h.counted.put key value
  have hordered : Ordered (ops ++ [.set key value]) (m.put key value).map.entries := by
    rw [entries_put]
    exact h.ordered.moved (.set key value) value
  have hover : (m.put key value).unpinned ≤ (m.put key value).max + 1 := by
    have hle := unpinned_put_le m key value
    have hwithin := h.within
    omega
  have hset : m.set key value = (m.put key value).evict := by
    unfold LruMap.set
    rw [if_neg (by omega)]
  rw [hset]
  rcases evict_spec hcounted hover with ⟨hle, heq⟩ | ⟨victim, hfull, hvictim, heq⟩
  . rw [heq]
    exact ⟨⟨hcap, hpredicate, hcounted, hcap ▸ hle, hordered⟩, .inl rfl⟩
  . rcases LruMap.mem_of_oldestEvictable hvictim with ⟨value', hmem, hunpinned⟩
    have hmany : 2 ≤ (m.put key value).rejected := by
      have hcounter : (m.put key value).unpinned = (m.put key value).rejected := hcounted
      omega
    rcases drop_config (m.put key value) victim with ⟨hcap', hpredicate'⟩
    rw [heq, entries_drop]
    refine ⟨⟨hcap'.trans hcap, hpredicate'.trans hpredicate, hcounted.drop victim, ?_, ?_⟩,
      .inr ⟨victim, hvictim, oldest_ne_of_put hmany hvictim, rfl⟩⟩
    . rw [LruMap.drop_of_mem hmem]
      simp only [hunpinned, Bool.false_eq_true, if_false]
      omega
    . rw [entries_drop]
      exact hordered.filter _

theorem Sound.step (h : Sound max pinned ops m) (hmax : 1 ≤ max) (op : Op κ α) :
    Sound max pinned (ops ++ [op]) (m.step op) := by
  cases op with
  | get key => exact h.get key
  | set key value => exact (set_cases h hmax key value).1

theorem sound_run (hmax : 1 ≤ max) (pinned : α → Bool) (ops : List (Op κ α)) :
    Sound max pinned ops (run max (some pinned) ops) := by
  induction ops using List.reverseRecOn with
  | nil => exact sound_new
  | append_singleton ops op ih =>
    unfold run
    rw [List.foldl_append]
    exact ih.step hmax op

/-- The key holds an entry that is not pinned, and all others like it were used later. -/
def OldestUnpinned (pinned : α → Bool) (ops : List (Op κ α)) (map : Map κ α) (victim : κ) : Prop :=
  ∃ value, map.get? victim = some value ∧ pinned value = false ∧
    ∀ other value', map.get? other = some value' → pinned value' = false → other ≠ victim →
      lastUse ops victim < lastUse ops other

theorem oldestUnpinned_of_evictable {victim : κ} (hpredicate : m.pinned = some pinned)
    (hordered : Ordered ops m.map.entries) (hvictim : m.oldestEvictable = some victim) :
    OldestUnpinned pinned ops m.map victim := by
  rw [LruMap.oldestEvictable_eq, isPinned_eq hpredicate, Option.map_eq_some_iff] at hvictim
  rcases hvictim with ⟨entry, hfind, rfl⟩
  rcases List.find?_eq_some_iff_append.mp hfind with ⟨hunpinned, before, after, hentries, hpinned⟩
  have hmem : entry ∈ m.map.entries := List.mem_of_find?_eq_some hfind
  refine ⟨entry.2, (Map.mem_entries_iff m.map entry).mp hmem, by simpa using hunpinned, ?_⟩
  intro other value' hget hfree hne
  have hother : (other, value') ∈ before ++ entry :: after :=
    hentries ▸ (Map.mem_entries_iff m.map (other, value')).mpr hget
  have hlater : (entry :: after).Pairwise fun a b => lastUse ops a.1 < lastUse ops b.1 := by
    have hall : (before ++ entry :: after).Pairwise _ := hentries ▸ hordered
    exact (List.pairwise_append.mp hall).2.1
  rcases List.mem_append.mp hother with hbefore | hafter
  . have hkept := hpinned _ hbefore
    simp [hfree] at hkept
  . rcases List.mem_cons.mp hafter with heq | hafter
    . exact absurd (congrArg Prod.fst heq) hne
    . exact List.rel_of_pairwise_cons hlater hafter

theorem get?_put (m : LruMap κ α) (key other : κ) (value : α) :
    (m.put key value).map.get? other = if other = key then some value else m.map.get? other := by
  have hput : (m.put key value).map = (m.drop key).map.set key value := rfl
  have hdrop : (m.drop key).map.get? other = (m.map.delete key).get? other :=
    congrArg (List.lookup other) (entries_drop m key)
  rw [hput, Map.get?_set, hdrop, Map.get?_delete]
  split <;> rfl

/-- An operation removes nothing, or the oldest entry that is not pinned to make room for another. -/
theorem step_entries (h : Sound max pinned ops m) (hmax : 1 ≤ max) (op : Op κ α) :
    (∃ key, op = .get key ∧ ∀ other, (m.step op).map.get? other = m.map.get? other) ∨
    ∃ key value, op = .set key value ∧
      ((∀ other, (m.step op).map.get? other = (m.put key value).map.get? other) ∨
        ∃ victim, victim ≠ key ∧ OldestUnpinned pinned (ops ++ [op]) (m.put key value).map victim ∧
          ∀ other, (m.step op).map.get? other =
            if other = victim then none else (m.put key value).map.get? other) := by
  cases op with
  | get key =>
    refine .inl ⟨key, rfl, ?_⟩
    intro other
    change (m.get key).1.map.get? other = _
    unfold LruMap.get
    cases hget : m.map.get? key with
    | none => rfl
    | some value =>
      change ((m.map.delete key).set key value).get? other = _
      rw [Map.get?_set, Map.get?_delete]
      split
      . next hother => rw [hother, hget]
      . rfl
  | set key value =>
    refine .inr ⟨key, value, rfl, ?_⟩
    rcases (set_cases h hmax key value).2 with heq | ⟨victim, hvictim, hne, heq⟩
    . exact .inl fun other => congrArg (List.lookup other) heq
    . have hordered : Ordered (ops ++ [.set key value]) (m.put key value).map.entries := by
        rw [entries_put]
        exact h.ordered.moved (.set key value) value
      refine .inr ⟨victim, hne,
        oldestUnpinned_of_evictable ((put_config m key value).2.trans h.predicate) hordered hvictim, ?_⟩
      intro other
      have hlookup : (m.set key value).map.get? other = ((m.put key value).map.delete victim).get? other :=
        congrArg (List.lookup other) heq
      exact hlookup.trans (Map.get?_delete _ _ _)

/--
The counter counts the entries the predicate rejects, which stay within the cap; a pinned entry is only
replaced, an entry that was just set stays, and a victim is the unpinned entry whose last use is oldest.
-/
theorem pinned_eviction (hmax : 1 ≤ max) (pinned : α → Bool) (ops : List (Op κ α)) :
    let m := run max (some pinned) ops
    m.unpinned = (m.map.entries.countP fun entry => !pinned entry.2 : Nat) ∧ m.unpinned ≤ max ∧
    ∀ op : Op κ α,
      (∀ key value, m.map.get? key = some value → pinned value = true →
        (m.step op).map.get? key = some value ∨ ∃ value', op = .set key value') ∧
      (∀ key value, op = .set key value → (m.step op).map.get? key = some value) ∧
      ∀ victim, m.map.has victim = true → (m.step op).map.has victim = false →
        ∃ key value, op = .set key value ∧ victim ≠ key ∧
          OldestUnpinned pinned (ops ++ [op]) (m.put key value).map victim := by
  intro m
  have hsound : Sound max pinned ops m := sound_run hmax pinned ops
  refine ⟨?_, hsound.within, ?_⟩
  . have hcounted : m.unpinned = m.rejected := hsound.counted
    rw [hcounted, LruMap.rejected, isPinned_eq hsound.predicate]
  intro op
  rcases step_entries hsound hmax op with ⟨key₀, rfl, hsame⟩ | ⟨key₀, value₀, rfl, heq | ⟨gone, hne, holdest, heq⟩⟩
  . refine ⟨?_, nofun, ?_⟩
    . intro key value hget _
      exact .inl ((hsame key).trans hget)
    . intro victim hheld hgone
      rw [Map.has_eq, hsame, ← Map.has_eq, hheld] at hgone
      contradiction
  . refine ⟨?_, ?_, ?_⟩
    . intro key value hget _
      by_cases hkey : key = key₀
      . exact .inr ⟨value₀, by rw [hkey]⟩
      . exact .inl (by rw [heq, get?_put, if_neg hkey, hget])
    . rintro key value ⟨⟩
      rw [heq, get?_put, if_pos rfl]
    . intro victim hheld hgone
      rw [Map.has_eq, heq, get?_put] at hgone
      rw [Map.has_eq] at hheld
      split at hgone
      . contradiction
      . rw [hheld] at hgone
        contradiction
  . refine ⟨?_, ?_, ?_⟩
    . intro key value hget hpinned
      by_cases hkey : key = key₀
      . exact .inr ⟨value₀, by rw [hkey]⟩
      . have hkept : key ≠ gone := by
          rintro rfl
          rcases holdest with ⟨value', hget', hfree, _⟩
          rw [get?_put, if_neg hkey, hget, Option.some.injEq] at hget'
          rw [← hget', hpinned] at hfree
          contradiction
        exact .inl (by rw [heq, if_neg hkept, get?_put, if_neg hkey, hget])
    . rintro key value ⟨⟩
      rw [heq, if_neg (Ne.symm hne), get?_put, if_pos rfl]
    . intro victim hheld hgone
      by_cases hvictim : victim = gone
      . exact ⟨key₀, value₀, rfl, hvictim ▸ hne, hvictim ▸ holdest⟩
      . rw [Map.has_eq, heq, if_neg hvictim, get?_put] at hgone
        rw [Map.has_eq] at hheld
        split at hgone
        . contradiction
        . rw [hheld] at hgone
          contradiction

/-- A value that is not pinned takes the only place of another. -/
theorem pinned_eviction_onePlace :
    ((run 1 (some fun n : Nat => n == 0) [.set 'a' 5]).step (.set 'b' 7)).map.get? 'b' = some 7 :=
  ((pinned_eviction (Nat.le_refl 1) (fun n : Nat => n == 0) [.set 'a' 5]).2.2 (.set 'b' 7)).2.1 'b' 7 rfl

end Runs

end OpenWA.Baileys.Lru
