import OpenWA.ChatState.NoLostPatch
import OpenWA.Lid.LidMappingStore

/-!
This module contains what a committed import does about the mirrors of the `lid_mappings` and `chat_states`
tables, and when these agree with the restored rows afterwards.
-/

namespace OpenWA.Backup.MirroredTables

open Async Js Sqlite Lid ChatStates

/-- The services that mirror a table, with their tables. -/
structure Services where
  lids : LidStore
  chats : ChatStates.State

/-- The rows that an import restores; each table has its primary key. -/
structure Restored where
  lidMappings : List LidMapping
  chatStates : List ChatState
  lidKeys : (lidMappings.map (·.lid)).Nodup
  chatKeys : (chatStates.map (·.chat)).Nodup

/-- `commitTransaction`: the tables hold the restored rows. -/
def commitTransaction (services : Services) (restored : Restored) : Services where
  lids := { services.lids with table := restored.lidMappings }
  chats := { services.chats with rows := restored.chatStates }

/-- What `runImport` does about the mirrors after the commit. -/
def reconcile (services : Services) : Services := { services with lids := Lid.reload services.lids }

def afterImport (services : Services) (restored : Restored) : Services :=
  reconcile (commitTransaction services restored)

/-- A `remember` with nothing else in flight, run to its end. -/
def remembered (s : ChatStates.State) (chat : Chat) (patch : Patch) (now : Nat) : ChatStates.State :=
  let s := ChatStates.remember s chat patch now
  (machine.step s (.merged 0 now)).getD s

/-- What is served from memory is the row that was restored, and so is what later writes merge onto. -/
structure Agrees (restored : Restored) (services : Services) : Prop where
  lids : ∀ lid phone, services.lids.cached lid = some phone →
    (Lid.rowOf restored.lidMappings lid).map (·.phone) = some phone
  reverse : ∀ phone lid, lid ∈ lidsForPhone phone services.lids →
    (Lid.rowOf restored.lidMappings lid).map (·.phone) = some (some phone)
  chats : ∀ chat value, services.chats.states.get? (key chat) = some value →
    (ChatStates.rowOf restored.chatStates chat).map (·.toChatStateValue) = some value
  merges : ∀ chat patch now,
    rowValue (remembered services.chats chat patch now).rows chat =
      (rowValue restored.chatStates chat).merge patch

/-- The chat mirror holds restored rows only. -/
def ChatsCurrent (restored : Restored) (chats : ChatStates.State) : Prop :=
  ∀ chat value, chats.states.get? (key chat) = some value →
    (ChatStates.rowOf restored.chatStates chat).map (·.toChatStateValue) = some value

section Lids

variable {table : List LidMapping} {s : LidStore} {lid : Text} {phone : Option Text}

def IsRow (table : List LidMapping) (lid : Text) (phone : Option Text) : Prop :=
  ∃ row ∈ table, row.lid = lid ∧ row.phone = phone

/-- The sets of the reverse map hold rows only. -/
def ReverseRows (table : List LidMapping) (phoneToLids : List (Text × List Text)) : Prop :=
  ∀ entry ∈ phoneToLids, ∀ lid ∈ entry.2, IsRow table lid (some entry.1)

/-- Both maps hold rows of the table only. -/
structure HoldsRows (table : List LidMapping) (s : LidStore) : Prop where
  forward : ∀ entry ∈ s.lidToPhone, IsRow table entry.1 entry.2
  reverse : ReverseRows table s.phoneToLids

theorem ReverseRows.dropLid {phoneToLids : List (Text × List Text)} (h : ReverseRows table phoneToLids)
    (phone : Option Text) (lid : Text) : ReverseRows table (dropLid phoneToLids phone lid) := by
  unfold Lid.dropLid
  split
  . next p _ =>
    intro entry hentry l hl
    rcases List.mem_map.mp hentry with ⟨old, hold, rfl⟩
    by_cases hkey : old.1 = p
    . rw [if_pos hkey] at hl ⊢
      exact h old hold l (List.mem_of_mem_filter hl)
    . rw [if_neg hkey] at hl ⊢
      exact h old hold l hl
  . exact h

theorem ReverseRows.addLid {phoneToLids : List (Text × List Text)} (h : ReverseRows table phoneToLids)
    (hrow : IsRow table lid phone) : ReverseRows table (addLid phoneToLids phone lid) := by
  unfold Lid.addLid
  split
  . next p hp =>
    have hphone : phone = some p := Option.eq_some_of_filter_eq_some hp
    rw [hphone] at hrow
    split
    . next lids hlids =>
      rcases List.lookup_eq_some_iff.mp hlids with ⟨before, after, heq, -⟩
      have hset : ∀ l ∈ lids, IsRow table l (some p) := h (p, lids) (by simp [heq])
      have hadded : ∀ l ∈ (if lid ∈ lids then lids else lids ++ [lid]), IsRow table l (some p) := by
        split
        . exact hset
        . intro l hl
          rcases List.mem_append.mp hl with hl | hl
          . exact hset l hl
          . rw [List.mem_singleton.mp hl]
            exact hrow
      intro entry hentry l hl
      rcases List.mem_map.mp hentry with ⟨old, hold, rfl⟩
      by_cases hkey : old.1 = p
      . rw [if_pos hkey] at hl ⊢
        exact hkey ▸ hadded l hl
      . rw [if_neg hkey] at hl ⊢
        exact h old hold l hl
    . intro entry hentry l hl
      rcases List.mem_append.mp hentry with hentry | hentry
      . exact h entry hentry l hl
      . rw [List.mem_singleton.mp hentry] at hl ⊢
        rw [List.mem_singleton.mp hl]
        exact hrow
  . exact h

theorem evictOver_rows {entries : List (Text × Option Text)} {phoneToLids : List (Text × List Text)}
    (hforward : ∀ entry ∈ entries, IsRow table entry.1 entry.2) (hreverse : ReverseRows table phoneToLids)
    (cap : Nat) :
    (∀ entry ∈ (evictOver cap entries phoneToLids).1, IsRow table entry.1 entry.2) ∧
      ReverseRows table (evictOver cap entries phoneToLids).2 := by
  induction entries generalizing phoneToLids with
  | nil => exact ⟨hforward, hreverse⟩
  | cons entry rest ih =>
    unfold evictOver
    split
    . exact ih (fun e he => hforward e (List.mem_cons_of_mem _ he)) (hreverse.dropLid _ _)
    . exact ⟨hforward, hreverse⟩

theorem HoldsRows.evictIfOverCap (h : HoldsRows table s) : HoldsRows table s.evictIfOverCap := by
  unfold LidStore.evictIfOverCap
  split
  . exact h
  . have hevicted := evictOver_rows h.forward h.reverse s.maxCachedLids
    exact ⟨hevicted.1, hevicted.2⟩

theorem HoldsRows.dropped (h : HoldsRows table s) : ReverseRows table
    (match s.cached lid with
      | some prev => if prev ≠ phone then Lid.dropLid s.phoneToLids prev lid else s.phoneToLids
      | none => s.phoneToLids) := by
  split
  . split
    . exact h.reverse.dropLid _ _
    . exact h.reverse
  . exact h.reverse

theorem HoldsRows.index (h : HoldsRows table s) (hrow : IsRow table lid phone) :
    HoldsRows table (s.index lid phone) := by
  unfold LidStore.index
  refine HoldsRows.evictIfOverCap ⟨fun entry hentry => ?_, h.dropped.addLid hrow⟩
  rcases List.mem_append.mp hentry with hentry | hentry
  . exact h.forward entry (List.mem_of_mem_filter hentry)
  . rw [List.mem_singleton.mp hentry]
    exact hrow

theorem mem_newest {cap : Nat} {row : LidMapping} (h : row ∈ Lid.newest cap table) : row ∈ table := by
  unfold Lid.newest at h
  split at h
  . exact List.mem_mergeSort.mp (List.mem_of_mem_take h)
  . exact List.mem_mergeSort.mp h

theorem holdsRows_reload (s : LidStore) : HoldsRows s.table (Lid.reload s) := by
  have hfold : ∀ (rows : List LidMapping) (s' : LidStore), (∀ row ∈ rows, row ∈ s.table) →
      HoldsRows s.table s' →
      HoldsRows s.table (rows.foldl (fun s row => s.index row.lid row.phone) s') := by
    intro rows
    induction rows with
    | nil => exact fun _ _ h => h
    | cons row rows ih =>
      intro s' hrows h
      have hrow : IsRow s.table row.lid row.phone := ⟨row, hrows row (List.mem_cons_self ..), rfl, rfl⟩
      exact ih _ (fun r hr => hrows r (List.mem_cons_of_mem _ hr)) (h.index hrow)
  refine hfold _ _ (fun row hrow => mem_newest hrow) ⟨?_, ?_⟩
  . exact fun _ h => nomatch h
  . exact fun _ h => nomatch h

theorem IsRow.rowOf (h : IsRow table lid phone) (hkeys : (table.map (·.lid)).Nodup) :
    (Lid.rowOf table lid).map (·.phone) = some phone := by
  rcases h with ⟨row, hrow, rfl, rfl⟩
  rw [show Lid.rowOf table row.lid = some row from Keyed.find_of_mem hkeys hrow]
  rfl

end Lids

section Main

variable {services : Services} {restored : Restored}

theorem holdsRows_afterImport :
    HoldsRows restored.lidMappings (afterImport services restored).lids :=
  holdsRows_reload (commitTransaction services restored).lids

theorem ChatsCurrent.mirrors {s : ChatStates.State} (h : ChatsCurrent restored s)
    (hrows : s.rows = restored.chatStates) : ChatStates.Mirrors s.states s.rows := by
  intro chat value hvalue
  rw [hrows, rowValue, baseOf, h chat value hvalue, Option.getD_some]

/-- A write merges onto the restored row if the mirror holds nothing else. -/
theorem rowValue_remembered {s : ChatStates.State} (hmerges : s.merges = [])
    (h : ChatsCurrent restored s) (hrows : s.rows = restored.chatStates) (chat : Chat) (patch : Patch)
    (now : Nat) :
    rowValue (remembered s chat patch now).rows chat = (rowValue restored.chatStates chat).merge patch := by
  rw [← hrows]
  simp only [remembered, ChatStates.remember]
  cases hcached : s.states.get? (key chat) with
  | some existing =>
    have hbase : existing = rowValue s.rows chat := h.mirrors hrows chat existing hcached
    have hstore := store_spec (s := { s with calls := s.calls ++ [(chat, patch)] }) patch now
      (h.mirrors hrows) hbase
    have hnone : (store { s with calls := s.calls ++ [(chat, patch)] } chat existing patch now).merges[0]? =
        none := by
      rw [store_merges.1]
      simp [hmerges]
    simp only [machine, hnone, Option.getD_none]
    rw [hstore.2, if_pos rfl]
  | none =>
    simp only [machine, hmerges, List.nil_append, List.getElem?_cons_zero, Option.getD_some,
      List.eraseIdx_cons_zero]
    refine Eq.trans ((store_spec patch now ?_ ?_).2 chat) (if_pos rfl)
    . exact h.mirrors hrows
    . rfl

/--
After a committed import what is served from memory and what later writes merge onto is what was restored
if and only if the chat mirror held nothing else before.
-/
theorem mirrors_agree_iff (hquiet : services.chats.merges = []) :
    Agrees restored (afterImport services restored) ↔ ChatsCurrent restored services.chats := by
  refine ⟨fun h => h.chats, fun h => ?_⟩
  refine ⟨fun lid phone hcached => ?_, fun phone lid hlid => ?_, h, fun chat patch now => ?_⟩
  . rcases List.lookup_eq_some_iff.mp hcached with ⟨before, after, heq, -⟩
    have hrow := holdsRows_afterImport.forward (lid, phone) (by rw [heq]; simp)
    exact hrow.rowOf restored.lidKeys
  . unfold lidsForPhone at hlid
    cases hset : (afterImport services restored).lids.phoneToLids.lookup phone with
    | none => simp [hset] at hlid
    | some lids =>
      rcases List.lookup_eq_some_iff.mp hset with ⟨before, after, heq, -⟩
      rw [hset, Option.getD_some] at hlid
      have hrow := holdsRows_afterImport.reverse (phone, lids) (by rw [heq]; simp) lid hlid
      exact hrow.rowOf restored.lidKeys
  . exact rowValue_remembered (s := (afterImport services restored).chats) hquiet h rfl chat patch now

def group : Chat := ⟨⟨"main".toList, sep_notMem_main⟩, "120363@g.us".toList⟩

def mapping (lid phone : String) (updatedAt : Nat) : LidMapping :=
  ⟨lid.toList, some phone.toList, none, updatedAt⟩

/-- A gateway that knows other phones and one muted chat. -/
def running : Services where
  lids := ⟨[mapping "77" "49111" 1], [("77".toList, some "49111".toList)],
    [("49111".toList, ["77".toList])], [], ["88".toList], [], 100⟩
  chats := ⟨Map.empty.set (key group) ⟨some 9, false, false⟩, [], 5000,
    [⟨⟨some 9, false, false⟩, group, 1⟩], [], [], []⟩

/-- The backup has two mappings, and the chat with the given state. -/
def backup (value : ChatStateValue) : Restored where
  lidMappings := [mapping "88" "49222" 1, mapping "99" "49222" 2]
  chatStates := [⟨value, group, 1⟩]
  lidKeys := by decide
  chatKeys := by simp

theorem mirrors_agree_same_state :
    Agrees (backup ⟨some 9, false, false⟩) (afterImport running (backup ⟨some 9, false, false⟩)) := by
  refine (mirrors_agree_iff rfl).mpr fun chat value hvalue => ?_
  simp only [running, Map.get?_set, Map.get?_empty, Option.ite_none_right_eq_some, key_inj,
    Option.some.injEq] at hvalue
  rcases hvalue with ⟨rfl, rfl⟩
  rfl

/-- A restored chat that is not muted is still served as muted, and a pin writes the mute back. -/
theorem stale_chat_state_survives :
    (afterImport running (backup DEFAULT_STATE)).chats.states.get? (key group) = some ⟨some 9, false, false⟩ ∧
      rowValue (backup DEFAULT_STATE).chatStates group = DEFAULT_STATE ∧
      rowValue (remembered (afterImport running (backup DEFAULT_STATE)).chats group
        ⟨none, none, some true⟩ 5).rows group = ⟨some 9, false, true⟩ ∧
      ¬ Agrees (backup DEFAULT_STATE) (afterImport running (backup DEFAULT_STATE)) := by
  refine ⟨by decide +kernel, by decide +kernel, by decide +kernel, fun h => ?_⟩
  have hserved := h.chats group ⟨some 9, false, false⟩ (by decide +kernel)
  exact absurd hserved (by decide +kernel)

end Main
end OpenWA.Backup.MirroredTables
