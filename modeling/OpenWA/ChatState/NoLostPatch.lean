import OpenWA.ChatState.ChatStateStore

/-!
This module contains when the rows of the chats take all patches in the order of the calls, and the mirror
agrees with them.
-/

namespace OpenWA.ChatStates

open Async Js Sqlite

/-- The patches of a chat, in the order of the calls. -/
def patchesOf (calls : List (Chat × Patch)) (chat : Chat) : List Patch :=
  (calls.filter (·.1 = chat)).map (·.2)

/-- The patches of a chat that wait for their merge base. -/
def waiting (merges : List Merge) (chat : Chat) : List Patch :=
  (merges.filter (·.chat = chat)).map (·.patch)

/-- Every entry that a chat has in the mirror is the state of its row. -/
def Mirrors (states : Map Text ChatStateValue) (rows : List ChatState) : Prop :=
  ∀ chat value, states.get? (key chat) = some value → value = rowValue rows chat

/-- Nothing is in flight and the mirror agrees with the rows. -/
structure Quiet (s : State) : Prop where
  merges : s.merges = []
  calls : s.calls = []
  mirrors : Mirrors s.states s.rows

/-- Once nothing is in flight each row has taken all patches of its chat, and the mirror agrees. -/
def Settled (s₀ s : State) : Prop :=
  s.merges = [] → s.lookups = [] →
    (∀ chat, rowValue s.rows chat =
      (patchesOf s.calls chat).foldl ChatStateValue.merge (rowValue s₀.rows chat)) ∧
      Mirrors s.states s.rows

/--
A `remember` that finds its chat in the mirror is called while none of the chat waits; the answer for a
`remember` comes before those for later ones of the chat, and with the row as it is then; so does the row
that a lookup brings into the mirror.
-/
def current (s : State) (v : Event) : Prop :=
  match v with
  | .remember chat _ _ => s.states.has (key chat) = true → waiting s.merges chat = []
  | .get _ => True
  | .merged i _ =>
    match s.merges[i]? with
    | some m => waiting (s.merges.take i) m.chat = [] ∧ baseOf m.row = rowValue s.rows m.chat
    | none => True
  | .warmed i =>
    match s.lookups[i]? with
    | some lookup =>
      lookup.row.isSome = true → s.states.has (key lookup.chat) = false →
        baseOf lookup.row = rowValue s.rows lookup.chat
    | none => True

instance (s : State) (v : Event) : Decidable (current s v) :=
  match v with
  | .remember chat _ _ =>
    inferInstanceAs (Decidable (s.states.has (key chat) = true → waiting s.merges chat = []))
  | .get _ => inferInstanceAs (Decidable True)
  | .merged i now =>
    match h : s.merges[i]? with
    | some m =>
      decidable_of_iff (waiting (s.merges.take i) m.chat = [] ∧ baseOf m.row = rowValue s.rows m.chat)
        (by simp [current, h])
    | none => .isTrue (by simp [current, h])
  | .warmed i =>
    match h : s.lookups[i]? with
    | some lookup =>
      decidable_of_iff (lookup.row.isSome = true → s.states.has (key lookup.chat) = false →
        baseOf lookup.row = rowValue s.rows lookup.chat) (by simp [current, h])
    | none => .isTrue (by simp [current, h])

/-- The waiting patches of a chat are the last of its calls; its row has taken the others. -/
structure Inv (s₀ s : State) : Prop where
  rows : ∀ chat, (waiting s.merges chat).foldl ChatStateValue.merge (rowValue s.rows chat) =
    (patchesOf s.calls chat).foldl ChatStateValue.merge (rowValue s₀.rows chat)
  mirrors : Mirrors s.states s.rows

section Steps

variable {s₀ s s' : State} {v : Event} {chat chat' : Chat} {patch : Patch} {existing : ChatStateValue}
  {now : Nat}

theorem inv_quiet (h : Quiet s₀) : Inv s₀ s₀ where
  rows chat := by simp [h.merges, h.calls, waiting, patchesOf]
  mirrors := h.mirrors

theorem rowValue_upsertRow {rows : List ChatState} {row : ChatState} :
    rowValue (upsertRow rows row) chat =
      if chat = row.chat then row.toChatStateValue else rowValue rows chat := by
  have hrow : rowOf (upsertRow rows row) chat = if chat = row.chat then some row else rowOf rows chat :=
    Keyed.find_upsert
  rw [rowValue, hrow]
  split <;> rfl

theorem mirrors_index (h : Mirrors s.states s.rows) {value : ChatStateValue}
    (hvalue : value = rowValue s.rows chat) : Mirrors (index s (key chat) value).states s.rows := by
  intro c v hv
  have hget := get?_indexIn hv
  split at hget
  . next hk => rw [hget, hvalue, key_inj.mp hk]
  . exact h c v hget

theorem store_spec (patch : Patch) (now : Nat) (h : Mirrors s.states s.rows) (hbase : existing = rowValue s.rows chat) :
    Mirrors (store s chat existing patch now).states (store s chat existing patch now).rows ∧
      ∀ c, rowValue (store s chat existing patch now).rows c =
        if c = chat then (rowValue s.rows chat).merge patch else rowValue s.rows c := by
  subst hbase
  simp only [store]
  split
  . next hnoop =>
    refine ⟨mirrors_index h hnoop.symm, fun c => ?_⟩
    split
    . next hc => rw [hc, ← hnoop]; rfl
    . rfl
  . refine ⟨fun c v hv => ?_, fun c => rowValue_upsertRow⟩
    have hget := get?_indexIn hv
    change v = rowValue (upsertRow s.rows _) c
    rw [rowValue_upsertRow]
    split at hget
    . next hk => rw [if_pos (key_inj.mp hk), hget]
    . next hk => rw [if_neg fun hc => hk (key_inj.mpr hc), h c v hget]

theorem store_merges : (store s chat existing patch now).merges = s.merges ∧
    (store s chat existing patch now).calls = s.calls := by
  simp only [store]
  split <;> exact ⟨rfl, rfl⟩

theorem patchesOf_append {calls : List (Chat × Patch)} :
    patchesOf (calls ++ [(chat, patch)]) chat' =
      if chat' = chat then patchesOf calls chat' ++ [patch] else patchesOf calls chat' := by
  unfold patchesOf
  rw [List.filter_append, List.map_append]
  split
  . next hc => simp [hc]
  . next hc => simp [Ne.symm hc]

theorem waiting_append {merges : List Merge} {m : Merge} :
    waiting (merges ++ [m]) chat =
      if chat = m.chat then waiting merges chat ++ [m.patch] else waiting merges chat := by
  unfold waiting
  rw [List.filter_append, List.map_append]
  split
  . next hc => simp [hc]
  . next hc => simp [Ne.symm hc]

/-- The answer for the first of the waiting patches of a chat. -/
theorem waiting_eraseIdx {merges : List Merge} {i : Nat} {m : Merge} (hm : merges[i]? = some m)
    (hfirst : waiting (merges.take i) m.chat = []) :
    waiting merges chat =
      if chat = m.chat then m.patch :: waiting (merges.eraseIdx i) chat
      else waiting (merges.eraseIdx i) chat := by
  have hsplit : merges = merges.take i ++ m :: merges.drop (i + 1) := by
    rw [List.getElem?_eq_some_iff] at hm
    rcases hm with ⟨hi, rfl⟩
    rw [List.getElem_cons_drop, List.take_append_drop]
  have happend : ∀ ms ms' : List Merge, waiting (ms ++ ms') chat = waiting ms chat ++ waiting ms' chat := by
    intro ms ms'
    simp [waiting]
  rw [List.eraseIdx_eq_take_drop_succ, happend]
  conv_lhs => rw [hsplit, happend]
  split
  . next hc =>
    subst hc
    rw [hfirst]
    simp [waiting]
  . next hc => simp [waiting, Ne.symm hc]

theorem inv_remember (h : Inv s₀ s) (hok : current s (.remember chat patch now)) :
    Inv s₀ (remember s chat patch now) := by
  simp only [remember]
  split
  . next existing hexisting =>
    have hwaiting : waiting s.merges chat = [] := hok (by simp [Map.has_eq, hexisting])
    have hbase : existing = rowValue s.rows chat := h.mirrors chat existing hexisting
    obtain ⟨hmirrors, hrows⟩ := store_spec (s := { s with calls := s.calls ++ [(chat, patch)] })
      patch now h.mirrors hbase
    refine ⟨fun c => ?_, hmirrors⟩
    rw [store_merges.1, store_merges.2, hrows, patchesOf_append]
    split
    . next hc =>
      subst hc
      have hold := h.rows c
      rw [hwaiting, List.foldl_nil] at hold
      simp [hwaiting, hold]
    . exact h.rows c
  . refine ⟨fun c => ?_, h.mirrors⟩
    rw [waiting_append, patchesOf_append]
    split
    . rw [List.foldl_append, List.foldl_append, h.rows c]
    . exact h.rows c

theorem inv_merged (h : Inv s₀ s) {i : Nat} {m : Merge} (hm : s.merges[i]? = some m)
    (hfirst : waiting (s.merges.take i) m.chat = []) (hbase : baseOf m.row = rowValue s.rows m.chat) :
    Inv s₀ (store { s with merges := s.merges.eraseIdx i } m.chat (baseOf m.row) m.patch now) := by
  obtain ⟨hmirrors, hrows⟩ := store_spec (s := { s with merges := s.merges.eraseIdx i })
    m.patch now h.mirrors hbase
  refine ⟨fun c => ?_, hmirrors⟩
  have hold := h.rows c
  rw [waiting_eraseIdx hm hfirst] at hold
  rw [store_merges.1, store_merges.2, hrows]
  split
  . next hc =>
    subst hc
    rwa [if_pos rfl, List.foldl_cons] at hold
  . next hc => rwa [if_neg hc] at hold

theorem inv_get (h : Inv s₀ s) : Inv s₀ (get s chat) := by
  unfold get
  split
  . next value hvalue =>
    refine ⟨h.rows, fun c v hv => h.mirrors c v ?_⟩
    rw [Map.get?_set] at hv
    split at hv
    . next hk => rw [hk, hvalue, hv]
    . next hk => rwa [Map.get?_delete, if_neg hk] at hv
  . unfold warmFromTable
    split <;> exact ⟨h.rows, h.mirrors⟩

theorem inv_warmed (h : Inv s₀ s) {lookup : Lookup}
    (hok : lookup.row.isSome = true → s.states.has (key lookup.chat) = false →
      baseOf lookup.row = rowValue s.rows lookup.chat) : Inv s₀ (warmed s lookup) := by
  unfold warmed
  split
  . next row hrow =>
    split
    . exact h
    . next hmiss =>
      have hvalue := hok (by simp [hrow]) (by simpa using hmiss)
      rw [hrow] at hvalue
      exact ⟨h.rows, mirrors_index h.mirrors hvalue⟩
  . exact h

theorem inv_step (h : Inv s₀ s) (hok : current s v) (hstep : machine.step s v = some s') : Inv s₀ s' := by
  cases v with
  | remember chat patch now =>
    obtain rfl := Option.some.inj hstep
    exact inv_remember h hok
  | get chat =>
    obtain rfl := Option.some.inj hstep
    exact inv_get h
  | merged i now =>
    simp only [machine] at hstep
    split at hstep
    . next m hm =>
      obtain rfl := Option.some.inj hstep
      simp only [current, hm] at hok
      exact inv_merged h hm hok.1 hok.2
    . contradiction
  | warmed i =>
    simp only [machine] at hstep
    split at hstep
    . next lookup hlookup =>
      obtain rfl := Option.some.inj hstep
      simp only [current, hlookup] at hok
      have hrest : Inv s₀
          { s with
            lookups := s.lookups.eraseIdx i
            pendingLookups := s.pendingLookups.filter (· ≠ key lookup.chat) } := ⟨h.rows, h.mirrors⟩
      exact inv_warmed hrest hok
    . contradiction

end Steps

section Main

variable {s₀ s : State}

/-- In every run whose answers come in time no patch is lost. -/
theorem no_lost_patch (h₀ : Quiet s₀) (h : machine.Reach current s₀ s) : Settled s₀ s := by
  have hinv : Inv s₀ s :=
    Machine.Reach.invariant (inv_quiet h₀) (fun _ _ _ h hok hs => inv_step h hok hs) h
  intro hmerges _
  refine ⟨fun chat => ?_, hinv.mirrors⟩
  have hrow := hinv.rows chat
  rwa [hmerges, waiting, List.filter_nil, List.map_nil, List.foldl_nil] at hrow

def emptyStore (maxEntries : Nat) : State := ⟨.empty, [], maxEntries, [], [], [], []⟩

theorem quiet_emptyStore (maxEntries : Nat) : Quiet (emptyStore maxEntries) where
  merges := rfl
  calls := rfl
  mirrors _ _ h := nomatch h

theorem sep_notMem_main : SEP ∉ "main".toList := by decide

def family : Chat := ⟨⟨"main".toList, sep_notMem_main⟩, "120363@g.us".toList⟩

def friend : Chat := ⟨⟨"main".toList, sep_notMem_main⟩, "4915@s.whatsapp.net".toList⟩

/-- The mirror holds one chat; the entry of the first is evicted, warmed again and patched. -/
theorem no_lost_patch_evicted :
    ∃ s, machine.Reach current (emptyStore 1) s ∧
      (s.merges, s.lookups, rowValue s.rows family, rowValue s.rows friend) =
        ([], [], ⟨some 9, false, true⟩, ⟨none, true, false⟩) ∧
      Settled (emptyStore 1) s := by
  have hrun : (machine.exec current (emptyStore 1)
      [.remember family ⟨some (some 9), none, none⟩ 1, .merged 0 2, .remember friend ⟨none, some true, none⟩ 3,
        .get friend, .merged 0 4, .warmed 0, .get family, .warmed 0,
        .remember family ⟨none, none, some true⟩ 5]).map
      (fun s => (s.merges, s.lookups, rowValue s.rows family, rowValue s.rows friend)) =
      some ([], [], ⟨some 9, false, true⟩, ⟨none, true, false⟩) := by
    decide +kernel
  rcases Machine.reach_of_exec_map hrun with ⟨s, hreach, hs⟩
  exact ⟨s, hreach, hs, no_lost_patch (quiet_emptyStore 1) hreach⟩

/-- Two patches of a chat in one batch: both read that it has no row, and the second write drops the first. -/
theorem batched_patch_lost :
    Quiet (emptyStore 5000) ∧
      ∃ s, machine.Reach Machine.anyStep (emptyStore 5000) s ∧
        (patchesOf s.calls family, rowValue s.rows family) =
          ([⟨none, none, some true⟩, ⟨none, some true, none⟩], ⟨none, true, false⟩) ∧
        ¬ Settled (emptyStore 5000) s := by
  have hrun : (machine.exec Machine.anyStep (emptyStore 5000)
      [.remember family ⟨none, none, some true⟩ 1, .remember family ⟨none, some true, none⟩ 1,
        .merged 0 2, .merged 0 2]).map
      (fun s => (s.merges, s.lookups, patchesOf s.calls family, rowValue s.rows family)) =
      some ([], [], [⟨none, none, some true⟩, ⟨none, some true, none⟩], ⟨none, true, false⟩) := by
    decide +kernel
  rcases Machine.reach_of_exec_map hrun with ⟨s, hreach, hs⟩
  simp only [Prod.mk.injEq] at hs
  rcases hs with ⟨hmerges, hlookups, hcalls, hrow⟩
  refine ⟨quiet_emptyStore 5000, s, hreach, by rw [hcalls, hrow], fun hsettled => ?_⟩
  have hlost := (hsettled hmerges hlookups).1 family
  rw [hcalls, hrow] at hlost
  exact absurd hlost (by decide)

end Main
end OpenWA.ChatStates
