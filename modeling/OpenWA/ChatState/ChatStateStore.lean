import OpenWA.Async.Machine
import OpenWA.Js.Map
import OpenWA.Js.Text
import OpenWA.Sqlite.Keyed

/-!
This module contains the in-memory mirror of the `chat_states` table in one process: the reads, the merging
writes, and the queries that both leave in flight.
-/

namespace OpenWA.ChatStates

open Async Js Sqlite

structure ChatStateValue where
  muteEndTime : Option Int
  archived : Bool
  pinned : Bool
deriving DecidableEq

/-- `Partial<ChatStateValue>`; none is a key that is absent. -/
structure Patch where
  muteEndTime : Option (Option Int)
  archived : Option Bool
  pinned : Option Bool
deriving DecidableEq

def DEFAULT_STATE : ChatStateValue := ⟨none, false, false⟩

/-- `{ ...existing, ...patch }` -/
def ChatStateValue.merge (existing : ChatStateValue) (patch : Patch) : ChatStateValue where
  muteEndTime := patch.muteEndTime.getD existing.muteEndTime
  archived := patch.archived.getD existing.archived
  pinned := patch.pinned.getD existing.pinned

def SEP : Char := '\u0000'

/-- A session name never contains the separator. -/
structure SessionId where
  name : Text
  noSep : SEP ∉ name
deriving DecidableEq

structure Chat where
  sessionId : SessionId
  chatId : Text
deriving DecidableEq

def key (chat : Chat) : Text := chat.sessionId.name ++ SEP :: chat.chatId

structure ChatState extends ChatStateValue where
  chat : Chat
  updatedAt : Nat
deriving DecidableEq

section Table

def rowOf (rows : List ChatState) (chat : Chat) : Option ChatState := Keyed.find (·.chat) rows chat

/-- The upsert on the conflict columns `sessionId` and `chatId`. -/
def upsertRow (rows : List ChatState) (row : ChatState) : List ChatState :=
  Keyed.upsert (·.chat) rows row

/-- A chat without a row is in the default state. -/
def baseOf (row : Option ChatState) : ChatStateValue :=
  (row.map (·.toChatStateValue)).getD DEFAULT_STATE

def rowValue (rows : List ChatState) (chat : Chat) : ChatStateValue := baseOf (rowOf rows chat)

end Table

/-- A `remember` that waits for its `findOne`. -/
structure Merge where
  chat : Chat
  row : Option ChatState
  patch : Patch
deriving DecidableEq

/-- A `warmFromTable` that waits for its `findOne`. -/
structure Lookup where
  chat : Chat
  row : Option ChatState
deriving DecidableEq

structure State where
  states : Map Text ChatStateValue
  pendingLookups : List Text
  maxEntries : Nat
  rows : List ChatState
  merges : List Merge
  lookups : List Lookup
  /-- The calls of `remember`. -/
  calls : List (Chat × Patch)
deriving DecidableEq

inductive Event where
  | remember (chat : Chat) (patch : Patch) (now : Nat)
  | get (chat : Chat)
  /-- The answer for a `remember`, which then runs to its end at `now`. -/
  | merged (i : Nat) (now : Nat)
  | warmed (i : Nat)
deriving DecidableEq

section Cache

def evictEntries (maxEntries : Nat) (entries : List (Text × ChatStateValue)) :
    List (Text × ChatStateValue) :=
  match entries with
  | [] => []
  | entry :: rest =>
    if (entry :: rest).length > maxEntries then evictEntries maxEntries rest else entry :: rest

theorem evictEntries_suffix (maxEntries : Nat) (entries : List (Text × ChatStateValue)) :
    evictEntries maxEntries entries <:+ entries := by
  induction entries with
  | nil => exact List.suffix_refl []
  | cons entry rest ih =>
    unfold evictEntries
    split
    . exact ih.trans (List.suffix_cons entry rest)
    . exact List.suffix_refl _

def evictIfOverCap (maxEntries : Nat) (states : Map Text ChatStateValue) : Map Text ChatStateValue :=
  if maxEntries = 0 then states
  else
    ⟨evictEntries maxEntries states.entries,
      states.nodup.sublist ((evictEntries_suffix _ _).sublist.map _)⟩

/-- The entry moves to the most recent end. -/
def indexIn (maxEntries : Nat) (states : Map Text ChatStateValue) (k : Text) (value : ChatStateValue) :
    Map Text ChatStateValue :=
  evictIfOverCap maxEntries ((states.delete k).set k value)

end Cache

section Steps

variable (s : State)

def index (k : Text) (value : ChatStateValue) : State :=
  { s with states := indexIn s.maxEntries s.states k value }

/-- `remember` from the point where it has its merge base. -/
def store (chat : Chat) (existing : ChatStateValue) (patch : Patch) (now : Nat) : State :=
  let next := existing.merge patch
  let s := index s (key chat) next
  if existing = next then s
  else { s with rows := upsertRow s.rows { next with chat := chat, updatedAt := now } }

def remember (chat : Chat) (patch : Patch) (now : Nat) : State :=
  let s := { s with calls := s.calls ++ [(chat, patch)] }
  match s.states.get? (key chat) with
  | some existing => store s chat existing patch now
  | none => { s with merges := s.merges ++ [⟨chat, rowOf s.rows chat, patch⟩] }

def warmFromTable (chat : Chat) : State :=
  if key chat ∈ s.pendingLookups then s
  else
    { s with
      pendingLookups := s.pendingLookups ++ [key chat]
      lookups := s.lookups ++ [⟨chat, rowOf s.rows chat⟩] }

def get (chat : Chat) : State :=
  match s.states.get? (key chat) with
  | some value => { s with states := (s.states.delete (key chat)).set (key chat) value }
  | none => warmFromTable s chat

/-- The callback of a lookup. -/
def warmed (lookup : Lookup) : State :=
  match lookup.row with
  | some row =>
    if s.states.has (key lookup.chat) then s else index s (key lookup.chat) row.toChatStateValue
  | none => s

end Steps

def machine : Machine State Event where
  step s v :=
    match v with
    | .remember chat patch now => some (remember s chat patch now)
    | .get chat => some (get s chat)
    | .merged i now =>
      match s.merges[i]? with
      | some m =>
        some (store { s with merges := s.merges.eraseIdx i } m.chat (baseOf m.row) m.patch now)
      | none => none
    | .warmed i =>
      match s.lookups[i]? with
      | some lookup =>
        some (warmed
          { s with
            lookups := s.lookups.eraseIdx i
            pendingLookups := s.pendingLookups.filter (· ≠ key lookup.chat) } lookup)
      | none => none

section Reload

/-- `find` with the newest rows first. -/
def newest (maxEntries : Nat) (rows : List ChatState) : List ChatState :=
  let rows := rows.mergeSort fun a b => b.updatedAt ≤ a.updatedAt
  if maxEntries > 0 then rows.take maxEntries else rows

/-- `reload` when its query succeeds. -/
def reload (s : State) : State :=
  (newest s.maxEntries s.rows).foldl (fun s row => index s (key row.chat) row.toChatStateValue)
    { s with states := .empty }

end Reload

section Lemmas

variable {rows : List ChatState} {states : Map Text ChatStateValue} {maxEntries : Nat}
  {chat chat' : Chat} {row : ChatState} {k k' : Text} {value value' : ChatStateValue}

theorem key_inj : key chat = key chat' ↔ chat = chat' := by
  refine ⟨fun h => ?_, fun h => h ▸ rfl⟩
  -- the name ends at the first separator
  have hlength : ∀ c : Chat, (key c).idxOf SEP = c.sessionId.name.length := by
    intro c
    rw [key, List.idxOf_append_of_notMem c.sessionId.noSep]
    simp
  have hname : chat.sessionId.name.length = chat'.sessionId.name.length := by
    rw [← hlength chat, ← hlength chat', h]
  rcases chat with ⟨⟨name, noSep⟩, chatId⟩
  rcases chat' with ⟨⟨name', noSep'⟩, chatId'⟩
  obtain ⟨rfl, hrest⟩ := List.append_inj h hname
  obtain rfl := List.tail_eq_of_cons_eq hrest
  rfl

theorem lookup_of_suffix {κ α : Type} [DecidableEq κ] {entries entries' : List (κ × α)} {k : κ} {x : α}
    (hs : entries' <:+ entries) (hnodup : (entries.map (·.1)).Nodup) (h : entries'.lookup k = some x) :
    entries.lookup k = some x := by
  rcases hs with ⟨dropped, rfl⟩
  induction dropped with
  | nil => exact h
  | cons entry dropped ih =>
    rw [List.cons_append, List.map_cons, List.nodup_cons] at hnodup
    have hrest := ih hnodup.2
    have hmem : k ∈ (dropped ++ entries').map (·.1) := by
      rcases List.lookup_eq_some_iff.mp hrest with ⟨before, after, heq, -⟩
      simp [heq]
    have hne : k ≠ entry.1 := fun heq => hnodup.1 (heq ▸ hmem)
    rw [List.cons_append, List.lookup_cons, beq_eq_false_iff_ne.mpr hne]
    exact hrest

theorem get?_indexIn (h : (indexIn maxEntries states k value).get? k' = some value') :
    if k' = k then value' = value else states.get? k' = some value' := by
  have hset : ((states.delete k).set k value).get? k' = some value' := by
    unfold indexIn evictIfOverCap at h
    split at h
    . exact h
    . exact lookup_of_suffix (evictEntries_suffix maxEntries _) ((states.delete k).set k value).nodup h
  rw [Map.get?_set] at hset
  split at hset
  . next hk => rw [if_pos hk, Option.some.inj hset]
  . next hk =>
    rw [Map.get?_delete, if_neg hk] at hset
    rw [if_neg hk]
    exact hset

end Lemmas
end OpenWA.ChatStates
