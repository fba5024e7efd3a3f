import OpenWA.Js.Encoding
import OpenWA.Js.ExactNumber
import OpenWA.Message.Candidates
import OpenWA.Sqlite.Keyset
import Mathlib.Data.Prod.Lex
import Mathlib.Data.Sum.Order

/-!
This module contains the message list of a session and the walk over its pages by the cursor, while rows
come in and change.
-/

namespace OpenWA.Message

open Js Lid

/-- The media that a row carries. -/
structure InlineMedia where
  data : Option Text
  sizeBytes : Option Nat
  omitted : Bool
deriving DecidableEq

/-- The columns that the list reads. What `createdAt` and `id` are ordered by is up to the database. -/
structure HistoryRow (τ ι : Type) where
  id : ι
  /-- The insertion sequence that SQLite keeps. -/
  rowid : Nat
  createdAt : τ
  sessionId : Text
  chatId : Text
  «from» : Text
  author : Option Text
  status : Stored.MessageStatus
  media : Option InlineMedia
deriving DecidableEq

section Page

variable {τ ι : Type}

/-! ### Inline media -/

def startsWithIgnoringCase (start t : Text) : Bool := (t.take start.length).map Char.toLower = start

/-- The pattern `MEDIA_URL_POINTER` -/
def isUrlPointer (data : Text) : Bool :=
  startsWithIgnoringCase "http://".toList data || startsWithIgnoringCase "https://".toList data

/-- `Buffer.byteLength(data, 'base64')` -/
def base64ByteLength (data : Text) : Nat :=
  let n := (toUtf16 data).length
  let bytes := if data.getLast? = some '=' then n - 1 else n
  let bytes := if 1 < bytes && (toUtf16 data)[n - 2]? = some 61 then bytes - 1 else bytes
  bytes * 3 / 4

/-- The row with the budget that is left for the older ones. -/
def spendOn (budgetBytes spent : Nat) (row : HistoryRow τ ι) : Nat × HistoryRow τ ι :=
  match row.media with
  | some ⟨some data, sizeBytes, _⟩ =>
    if isUrlPointer data then (spent, row)
    else
      let encoded := (utf8 data).length
      -- The newest payload passes whatever its size, unless nothing is inlined at all.
      if spent + encoded ≤ budgetBytes || (spent = 0 && 0 < budgetBytes) then (spent + encoded, row)
      else (spent, { row with media := some ⟨none, some (sizeBytes.getD (base64ByteLength data)), true⟩ })
  | _ => (spent, row)

def spendFrom (budgetBytes spent : Nat) (rows : List (HistoryRow τ ι)) : List (HistoryRow τ ι) :=
  match rows with
  | [] => []
  | row :: rows =>
    (spendOn budgetBytes spent row).2 :: spendFrom budgetBytes (spendOn budgetBytes spent row).1 rows

def spendInlineMediaBudget (rows : List (HistoryRow τ ι)) (budgetBytes : Nat) : List (HistoryRow τ ι) :=
  spendFrom budgetBytes 0 rows

theorem map_spendFrom {α : Type} {f : HistoryRow τ ι → α}
    (hf : ∀ (row : HistoryRow τ ι) media, f { row with media := media } = f row) (budgetBytes spent : Nat)
    (rows : List (HistoryRow τ ι)) : (spendFrom budgetBytes spent rows).map f = rows.map f := by
  induction rows generalizing spent with
  | nil => rfl
  | cons row rows ih =>
    have hrow : f (spendOn budgetBytes spent row).2 = f row := by
      unfold spendOn
      split
      . split
        . rfl
        . dsimp only
          split
          . rfl
          . exact hf row _
      . rfl
    simp only [spendFrom, List.map_cons, ih, hrow]

/-! ### The query -/

inductive Dialect where
  | sqlite
  | postgres
deriving DecidableEq

/-- The second sort key; what the other dialect sorts by does not compare. -/
def orderTiebreak (dialect : Dialect) (row : HistoryRow τ ι) : ℕ ⊕ₗ ι :=
  match dialect with
  | .sqlite => Sum.inlₗ row.rowid
  | .postgres => Sum.inrₗ row.id

/-- What a list is ordered by and a cursor compares. -/
def sortKey (dialect : Dialect) (row : HistoryRow τ ι) : τ ×ₗ (ℕ ⊕ₗ ι) :=
  toLex (row.createdAt, orderTiebreak dialect row)

/-- The tables that a list is read from, as one request finds them. -/
structure HistoryDb (τ ι : Type) where
  rows : List (HistoryRow τ ι)
  lids : LidStore
  idsNodup : (rows.map (·.id)).Nodup
  rowidsNodup : (rows.map (·.rowid)).Nodup

theorem sortKey_media (dialect : Dialect) (row : HistoryRow τ ι) (media : Option InlineMedia) :
    sortKey dialect { row with media := media } = sortKey dialect row := by
  cases dialect <;> rfl

theorem nodup_sortKey (dialect : Dialect) (db : HistoryDb τ ι) : (db.rows.map (sortKey dialect)).Nodup := by
  apply List.Nodup.of_map fun key => (ofLex key).2
  cases dialect with
  | sqlite =>
    have hnodup := db.rowidsNodup.map (toLex.injective.comp (Sum.inl_injective (α := ℕ) (β := ι)))
    simpa [Function.comp_def, sortKey, orderTiebreak] using hnodup
  | postgres =>
    have hnodup := db.idsNodup.map (toLex.injective.comp (Sum.inr_injective (α := ℕ) (β := ι)))
    simpa [Function.comp_def, sortKey, orderTiebreak] using hnodup

structure GetMessagesOptions (ι : Type) where
  chatId : Option Text
  «from» : Option Text
  limit : Option ExactNumber
  offset : Option ExactNumber
  after : Option ι
  inlineMedia : Option Bool

/-- The answer 400 to a cursor that names no message of the session. -/
structure UnknownCursor (ι : Type) where
  after : ι
deriving DecidableEq

def ofNumber (raw : Option ExactNumber) (least other : Nat) : Nat :=
  match raw with
  -- Below zero the truncation rounds up, where the least value is taken anyway.
  | some (.finite x) => max ⌊x⌋.toNat least
  | _ => other

def clampLimit (raw : Option ExactNumber) : Nat := min (ofNumber raw 1 50) 100

def clampOffset (raw : Option ExactNumber) : Nat := ofNumber raw 0 0

variable (toLowerCase : Text → Text) (dialect : Dialect) (configuredBudget : Nat) (sessionId : Text)

/-- The filters of a request on a row. -/
def selects (lids : LidStore) (o : GetMessagesOptions ι) (row : HistoryRow τ ι) : Bool :=
  row.sessionId = sessionId &&
    (truthy o.chatId).all (fun chatId => row.chatId ∈ resolveJidCandidates toLowerCase lids chatId) &&
    (truthy o.from).all (fun «from» =>
      let froms := resolveJidCandidates toLowerCase lids «from»
      row.from ∈ froms || row.author.any (· ∈ froms))

/-- The keys of the rows that a request selects. -/
def keysOf (o : GetMessagesOptions ι) (db : HistoryDb τ ι) : List (τ ×ₗ (ℕ ⊕ₗ ι)) :=
  (db.rows.filter (selects toLowerCase sessionId db.lids o)).map (sortKey dialect)

theorem nodup_keysOf (o : GetMessagesOptions ι) (db : HistoryDb τ ι) :
    (keysOf toLowerCase dialect sessionId o db).Nodup :=
  (nodup_sortKey dialect db).sublist (List.filter_sublist.map _)

theorem nodup_tables (o : GetMessagesOptions ι) (dbs : List (HistoryDb τ ι)) :
    ∀ keys ∈ dbs.map (keysOf toLowerCase dialect sessionId o), keys.Nodup := by
  intro keys hkeys
  rcases List.mem_map.mp hkeys with ⟨db, -, rfl⟩
  exact nodup_keysOf toLowerCase dialect sessionId o db

/-- A message of an answer is a row of the table, up to its media. -/
def Shows (dialect : Dialect) (sessionId : Text) (db : HistoryDb τ ι) (message : HistoryRow τ ι) : Prop :=
  ∃ row ∈ db.rows, row.id = message.id ∧ row.sessionId = sessionId ∧
    sortKey dialect row = sortKey dialect message

theorem shows_of_mem_spend {db : HistoryDb τ ι} {rows : List (HistoryRow τ ι)} {budget : Nat}
    {message : HistoryRow τ ι} {dialect : Dialect} {sessionId : Text} (h : message ∈ spendInlineMediaBudget rows budget)
    (hrows : ∀ row ∈ rows, row ∈ db.rows ∧ row.sessionId = sessionId) :
    Shows dialect sessionId db message := by
  have hmap := map_spendFrom (f := fun row => (row.id, sortKey dialect row))
    (fun row media => by rw [sortKey_media]) budget 0 rows
  have hmem := List.mem_map_of_mem (f := fun row => (row.id, sortKey dialect row)) h
  rw [spendInlineMediaBudget, hmap] at hmem
  rcases List.mem_map.mp hmem with ⟨row, hrow, heq⟩
  simp only [Prod.mk.injEq] at heq
  exact ⟨row, (hrows row hrow).1, heq.1, (hrows row hrow).2, heq.2⟩

/-- Rows stay with their key and their session; the other columns may change, and rows may come in. -/
def Later (db db' : HistoryDb τ ι) : Prop :=
  ∀ row ∈ db.rows, ∃ row' ∈ db'.rows, row'.id = row.id ∧ row'.sessionId = row.sessionId ∧
    sortKey dialect row' = sortKey dialect row

theorem Later.trans {dialect : Dialect} {a b c : HistoryDb τ ι} (hab : Later dialect a b) (hbc : Later dialect b c) :
    Later dialect a c := by
  intro row hrow
  rcases hab row hrow with ⟨row', hrow', hid, hsession, hkey⟩
  rcases hbc row' hrow' with ⟨row'', hrow'', hid', hsession', hkey'⟩
  exact ⟨row'', hrow'', hid'.trans hid, hsession'.trans hsession, hkey'.trans hkey⟩

instance (dialect : Dialect) : Trans (Later (τ := τ) (ι := ι) dialect) (Later dialect) (Later dialect) := ⟨Later.trans⟩

theorem Shows.later {dialect : Dialect} {sessionId : Text} {db db' : HistoryDb τ ι}
    {message : HistoryRow τ ι} (h : Shows dialect sessionId db message) (hlater : Later dialect db db') :
    Shows dialect sessionId db' message := by
  rcases h with ⟨row, hrow, hid, hsession, hkey⟩
  rcases hlater row hrow with ⟨row', hrow', hid', hsession', hkey'⟩
  exact ⟨row', hrow', hid'.trans hid, hsession'.trans hsession, hkey'.trans hkey⟩

/-- The key of a row does not change during a walk. -/
theorem sortKey_of_id {dialect : Dialect} {dbs : List (HistoryDb τ ι)}
    (hdbs : dbs.Pairwise (Later dialect)) :
    ∀ db ∈ dbs, ∀ db' ∈ dbs, ∀ row ∈ db.rows, ∀ row' ∈ db'.rows, row.id = row'.id →
      sortKey dialect row = sortKey dialect row' := by
  apply List.Pairwise.forall_of_forall_of_flip
  . intro db _ row hrow row' hrow' hid
    rw [List.inj_on_of_nodup_map db.idsNodup hrow hrow' hid]
  . apply hdbs.imp
    intro db db' hlater row hrow row' hrow' hid
    rcases hlater row hrow with ⟨row'', hrow'', hid'', -, hkey⟩
    rw [← hkey, List.inj_on_of_nodup_map db'.idsNodup hrow'' hrow' (hid''.trans hid)]
  . apply hdbs.imp
    intro db db' hlater row hrow row' hrow' hid
    rcases hlater row' hrow' with ⟨row'', hrow'', hid'', -, hkey⟩
    rw [← hkey, List.inj_on_of_nodup_map db'.idsNodup hrow hrow'' (hid.trans hid''.symm)]

/-- The row that a cursor names, if the session has it. -/
def anchorOf [DecidableEq ι] (rows : List (HistoryRow τ ι)) (after : ι) : Option (HistoryRow τ ι) :=
  rows.find? fun anchor => anchor.id = after && anchor.sessionId = sessionId

theorem anchorOf_eq [DecidableEq ι] {db : HistoryDb τ ι} {row : HistoryRow τ ι} {sessionId : Text}
    (hmem : row ∈ db.rows) (hsession : row.sessionId = sessionId) : anchorOf sessionId db.rows row.id = some row := by
  have hfound : (anchorOf sessionId db.rows row.id).isSome := by
    rw [anchorOf, List.find?_isSome]
    exact ⟨row, hmem, by simp [hsession]⟩
  rcases Option.isSome_iff_exists.mp hfound with ⟨anchor, hanchor⟩
  have hid := List.find?_some hanchor
  simp only [Bool.and_eq_true, decide_eq_true_eq] at hid
  rw [hanchor, List.inj_on_of_nodup_map db.idsNodup (List.mem_of_find?_eq_some hanchor) hmem hid.1]

variable [LinearOrder τ] [LinearOrder ι]

def orderDesc (rows : List (HistoryRow τ ι)) : List (HistoryRow τ ι) :=
  rows.insertionSort fun a b => sortKey dialect b ≤ sortKey dialect a

/-- A comparison with the key of no row is NULL, which selects nothing. -/
def isBefore (anchor : Option (HistoryRow τ ι)) (row : HistoryRow τ ι) : Bool :=
  anchor.any fun anchor => sortKey dialect row < sortKey dialect anchor

/-- The page, and the number of rows that match the filters. -/
def getMessages (db : HistoryDb τ ι) (o : GetMessagesOptions ι) :
    Except (UnknownCursor ι) (List (HistoryRow τ ι) × Nat) :=
  let limit := clampLimit o.limit
  let selected := db.rows.filter (selects toLowerCase sessionId db.lids o)
  let total := selected.length
  let budget := if o.inlineMedia = some false then 0 else configuredBudget
  match o.after with
  | none =>
    let messages := ((orderDesc dialect selected).drop (clampOffset o.offset)).take limit
    .ok (spendInlineMediaBudget messages budget, total)
  | some after =>
    let anchor := anchorOf sessionId db.rows after
    let messages := (orderDesc dialect (selected.filter (isBefore dialect anchor))).take limit
    if messages.isEmpty && anchor.isNone then .error ⟨after⟩
    else .ok (spendInlineMediaBudget messages budget, total)

/-- The pages of a client that asks for what is after the last row until a page is empty. -/
def walkPages (o : GetMessagesOptions ι) (dbs : List (HistoryDb τ ι)) (after : Option ι) :
    Except (UnknownCursor ι) (List (List (HistoryRow τ ι))) :=
  match dbs with
  | [] => .ok []
  | db :: dbs =>
    match getMessages toLowerCase dialect configuredBudget sessionId db
        { o with after := after, offset := none } with
    | .error e => .error e
    | .ok (messages, _) =>
      match messages.getLast? with
      | none => .ok [messages]
      | some row => (walkPages o dbs (some row.id)).map (messages :: ·)

/-- A row of the session was there before, or is newer than all that were. -/
def NoneOlder (db db' : HistoryDb τ ι) : Prop :=
  ∀ row' ∈ db'.rows, row'.sessionId = sessionId →
    (∃ row ∈ db.rows, row.sessionId = sessionId ∧ sortKey dialect row = sortKey dialect row') ∨
      ∀ row ∈ db.rows, row.sessionId = sessionId → sortKey dialect row < sortKey dialect row'

/-- Of the session only rows that are newer than all it has come in. -/
def OnlyNewer (db db' : HistoryDb τ ι) : Prop :=
  Later dialect db db' ∧ NoneOlder dialect sessionId db db'

/-- The cursor names a row of the session with this key; no cursor is no bound. -/
def Anchored (dialect : Dialect) (sessionId : Text) (after : Option ι)
    (bound : Option (τ ×ₗ (ℕ ⊕ₗ ι))) (db : HistoryDb τ ι) : Prop :=
  match after, bound with
  | none, none => True
  | some id, some key => ∃ row ∈ db.rows, row.id = id ∧ row.sessionId = sessionId ∧ sortKey dialect row = key
  | _, _ => False

variable {toLowerCase dialect configuredBudget sessionId}

theorem map_orderDesc (rows : List (HistoryRow τ ι)) :
    (orderDesc dialect rows).map (sortKey dialect) =
      (rows.map (sortKey dialect)).insertionSort (· ≥ ·) := by
  apply List.map_insertionSort
  intro a _ b _
  rfl

section Request

variable {db : HistoryDb τ ι} {o : GetMessagesOptions ι} {bound : Option (τ ×ₗ (ℕ ⊕ₗ ι))}

/-- The answer over the rows below the bound is the page of their keys. -/
theorem page_of_selected (toLowerCase : Text → Text) (dialect : Dialect) (sessionId : Text)
    (db : HistoryDb τ ι) (o : GetMessagesOptions ι) (bound : Option (τ ×ₗ (ℕ ⊕ₗ ι))) (budget : Nat) :
    let rows := (db.rows.filter (selects toLowerCase sessionId db.lids o)).filter fun row =>
      Keyset.Below bound (sortKey dialect row)
    let messages := spendInlineMediaBudget ((orderDesc dialect rows).take (clampLimit o.limit)) budget
    messages.map (sortKey dialect) =
        Keyset.page (clampLimit o.limit) bound (keysOf toLowerCase dialect sessionId o db) ∧
      ∀ message ∈ messages, Shows dialect sessionId db message := by
  intro rows messages
  constructor
  . simp only [messages, spendInlineMediaBudget]
    rw [map_spendFrom (sortKey_media dialect), List.map_take, map_orderDesc, Keyset.page, keysOf, List.filter_map]
    rfl
  . intro message hmessage
    apply shows_of_mem_spend hmessage
    intro row hrow
    have hrow := (List.perm_insertionSort _ _).mem_iff.mp (List.mem_of_mem_take hrow)
    simp only [rows, List.mem_filter, selects, Bool.and_eq_true, decide_eq_true_eq] at hrow
    exact ⟨hrow.1.1, hrow.1.2.1.1⟩

/-- A request answers with the page of the keys below the one that its cursor stands for. -/
theorem getMessages_page (hoffset : o.offset = none) (hanchor : Anchored dialect sessionId o.after bound db) :
    ∃ messages total,
      getMessages toLowerCase dialect configuredBudget sessionId db o = .ok (messages, total) ∧
        messages.map (sortKey dialect) =
          Keyset.page (clampLimit o.limit) bound (keysOf toLowerCase dialect sessionId o db) ∧
        ∀ message ∈ messages, Shows dialect sessionId db message := by
  unfold getMessages
  cases hafter : o.after with
  | none =>
    cases bound with
    | some key => simp [hafter, Anchored] at hanchor
    | none =>
      refine ⟨_, _, rfl, ?_⟩
      have hall : ∀ rows : List (HistoryRow τ ι),
          (rows.filter fun row => Keyset.Below none (sortKey dialect row)) = rows := by
        simp [Keyset.Below]
      have hpage := page_of_selected toLowerCase dialect sessionId db o none
        (if o.inlineMedia = some false then 0 else configuredBudget)
      simpa only [hall, hoffset, clampOffset, ofNumber, List.drop_zero] using hpage
  | some after =>
    cases bound with
    | none => simp [hafter, Anchored] at hanchor
    | some key =>
      rw [hafter] at hanchor
      rcases hanchor with ⟨row, hmem, rfl, hsession, hkey⟩
      have hbefore : isBefore dialect (some row) =
          fun row' => decide (Keyset.Below (some key) (sortKey dialect row')) := by
        funext row'
        simp [isBefore, Keyset.Below, hkey]
      simp only [anchorOf_eq hmem hsession, hbefore, Option.isNone_some, Bool.and_false, Bool.false_eq_true,
        if_false]
      exact ⟨_, _, rfl, page_of_selected toLowerCase dialect sessionId db o (some key) _⟩

end Request

section Walk

variable {o : GetMessagesOptions ι} {dbs : List (HistoryDb τ ι)}

theorem walkPages_keys (toLowerCase : Text → Text) (configuredBudget : Nat) (o : GetMessagesOptions ι)
    (hdbs : dbs.Pairwise (Later dialect)) {after : Option ι}
    {bound : Option (τ ×ₗ (ℕ ⊕ₗ ι))} (hanchor : ∀ db ∈ dbs, Anchored dialect sessionId after bound db) :
    ∃ pages, walkPages toLowerCase dialect configuredBudget sessionId o dbs after = .ok pages ∧
      pages.map (·.map (sortKey dialect)) = Keyset.walk (clampLimit o.limit) bound
        (dbs.map (keysOf toLowerCase dialect sessionId o)) ∧
      ∀ page ∈ pages, ∀ message ∈ page, ∃ db ∈ dbs.take pages.length, Shows dialect sessionId db message := by
  induction dbs generalizing after bound with
  | nil => exact ⟨[], rfl, rfl, by simp⟩
  | cons db dbs ih =>
    rcases List.pairwise_cons.mp hdbs with ⟨hfirst, hrest⟩
    have hpage : ∃ messages total,
        getMessages toLowerCase dialect configuredBudget sessionId db
          { o with after := after, offset := none } = .ok (messages, total) ∧
        messages.map (sortKey dialect) =
          Keyset.page (clampLimit o.limit) bound (keysOf toLowerCase dialect sessionId o db) ∧
        ∀ message ∈ messages, Shows dialect sessionId db message :=
      getMessages_page rfl (hanchor db List.mem_cons_self)
    rcases hpage with ⟨messages, total, hget, hkeys, hshows⟩
    have hlast := congrArg List.getLast? hkeys
    rw [List.getLast?_map] at hlast
    cases hrow : messages.getLast? with
    | none =>
      rw [hrow] at hlast
      refine ⟨[messages], by simp [walkPages, hget, hrow], ?_, ?_⟩
      . rw [List.map_cons (l := dbs), Keyset.walk_cons_of_empty (List.getLast?_eq_none_iff.mp hlast.symm)]
        simp [List.getLast?_eq_none_iff.mp hrow]
      . simp [List.getLast?_eq_none_iff.mp hrow]
    | some row =>
      rw [hrow] at hlast
      have hshow := hshows row (List.mem_of_getLast? hrow)
      have hnext : ∀ db' ∈ dbs, Anchored dialect sessionId (some row.id) (some (sortKey dialect row)) db' :=
        fun db' hdb' => hshow.later (hfirst db' hdb')
      rcases ih hrest hnext with ⟨pages, hwalk, hpages, hall⟩
      refine ⟨messages :: pages, by simp [walkPages, hget, hrow, hwalk, Except.map], ?_, ?_⟩
      . rw [List.map_cons (l := dbs), Keyset.walk_cons_of_last hlast.symm, List.map_cons, hpages, hkeys]
      . intro page hpage message hmessage
        rcases List.mem_cons.mp hpage with rfl | hpage
        . exact ⟨db, by simp, hshows message hmessage⟩
        . rcases hall page hpage message hmessage with ⟨db', hdb', hshows'⟩
          exact ⟨db', by simpa using .inr hdb', hshows'⟩

theorem clampLimit_pos (raw : Option ExactNumber) : 0 < clampLimit raw := by
  unfold clampLimit ofNumber
  split <;> omega

/-- While only newer rows come in, a walk stays among the rows that it started with. -/
theorem walk_subset_first (toLowerCase : Text → Text) (o : GetMessagesOptions ι) {db : HistoryDb τ ι}
    (h : ∀ db' ∈ dbs, OnlyNewer dialect sessionId db db') :
    (Keyset.walk (clampLimit o.limit) none
        ((db :: dbs).map (keysOf toLowerCase dialect sessionId o))).flatten ⊆
      (db.rows.filter (·.sessionId = sessionId)).map (sortKey dialect) := by
  have hfirst : keysOf toLowerCase dialect sessionId o db ⊆
      (db.rows.filter (·.sessionId = sessionId)).map (sortKey dialect) := by
    apply List.map_subset
    intro row hrow
    simp only [List.mem_filter, selects, Bool.and_eq_true, decide_eq_true_eq] at hrow ⊢
    exact ⟨hrow.1, hrow.2.1.1⟩
  have hpage : Keyset.page (clampLimit o.limit) none (keysOf toLowerCase dialect sessionId o db) ⊆
      (db.rows.filter (·.sessionId = sessionId)).map (sortKey dialect) :=
    fun key hkey => hfirst (Keyset.mem_of_mem_page hkey).1
  rw [List.map_cons]
  cases hlast : (Keyset.page (clampLimit o.limit) none
      (keysOf toLowerCase dialect sessionId o db)).getLast? with
  | none =>
    rw [Keyset.walk_cons_of_empty (List.getLast?_eq_none_iff.mp hlast)]
    simp
  | some key =>
    rw [Keyset.walk_cons_of_last hlast, List.flatten_cons]
    apply List.append_subset.mpr
    refine ⟨hpage, Keyset.walk_subset ?_ (hpage (List.mem_of_getLast? hlast))⟩
    intro keys hkeys q hq l hl hle
    rcases List.mem_map.mp hkeys with ⟨db', hdb', rfl⟩
    rcases List.mem_map.mp hq with ⟨row', hrow', rfl⟩
    rcases List.mem_map.mp hl with ⟨row, hrow, rfl⟩
    simp only [List.mem_filter, selects, Bool.and_eq_true, decide_eq_true_eq] at hrow hrow'
    rcases (h db' hdb').2 row' hrow'.1 hrow'.2.1.1 with ⟨old, hold, hsession, hkey⟩ | habove
    . rw [← hkey]
      exact List.mem_map_of_mem (List.mem_filter.mpr ⟨hold, by simp [hsession]⟩)
    . exact absurd (habove row hrow.1 hrow.2) (not_lt_of_ge hle)

instance : Trans (OnlyNewer (τ := τ) (ι := ι) dialect sessionId) (OnlyNewer dialect sessionId)
    (OnlyNewer dialect sessionId) where
  trans := by
    intro a b c hab hbc
    refine ⟨hab.1.trans hbc.1, fun row'' hrow'' hsession => ?_⟩
    rcases hbc.2 row'' hrow'' hsession with ⟨row', hrow', hsession', hkey'⟩ | habove
    . rw [← hkey']
      exact hab.2 row' hrow' hsession'
    . right
      intro row hrow hrowsession
      rcases hab.1 row hrow with ⟨row', hrow', -, hsession', hkey⟩
      rw [← hkey]
      exact habove row' hrow' (hsession'.trans hrowsession)

/-- Two visits of one row would show it with one key. -/
theorem nodup_visited (hdbs : dbs.Pairwise (Later dialect)) {messages : List (HistoryRow τ ι)}
    (hsorted : messages.Pairwise fun a b => sortKey dialect b < sortKey dialect a)
    (hshows : ∀ message ∈ messages, ∃ db ∈ dbs, Shows dialect sessionId db message) :
    (messages.map (·.id)).Nodup := by
  apply List.pairwise_map.mpr
  apply hsorted.imp_of_mem
  intro a b ha hb hlt heq
  rcases hshows a ha with ⟨db, hdb, row, hrow, hrowid, -, hrowkey⟩
  rcases hshows b hb with ⟨db', hdb', row', hrow', hrowid', -, hrowkey'⟩
  have hsame := sortKey_of_id hdbs db hdb db' hdb' row hrow row' hrow'
    (hrowid.trans (heq.trans hrowid'.symm))
  rw [hrowkey, hrowkey'] at hsame
  exact absurd hlt (hsame ▸ lt_irrefl _)

/-- Once a page is not full, a row that all requests selected has been visited. -/
theorem mem_visited (toLowerCase : Text → Text) (hdbs : dbs.Pairwise (Later dialect))
    {pages : List (List (HistoryRow τ ι))}
    (hkeys : pages.map (·.map (sortKey dialect)) = Keyset.walk (clampLimit o.limit) none
      (dbs.map (keysOf toLowerCase dialect sessionId o)))
    (hshows : ∀ message ∈ pages.flatten, ∃ db ∈ dbs.take pages.length, Shows dialect sessionId db message)
    (hshort : ∃ page ∈ pages, page.length < clampLimit o.limit) {id : ι}
    (hid : ∀ db ∈ dbs.take pages.length, ∃ row ∈ db.rows, row.id = id ∧
      selects toLowerCase sessionId db.lids o row = true) :
    id ∈ pages.flatten.map (·.id) := by
  rcases hshort with ⟨page, hpage, hshort⟩
  have htake : ∀ db ∈ dbs.take pages.length, db ∈ dbs := fun _ => List.mem_of_mem_take
  have hlength : pages.length = (Keyset.walk (clampLimit o.limit) none
      (dbs.map (keysOf toLowerCase dialect sessionId o))).length := by
    rw [← hkeys, List.length_map]
  cases dbs with
  | nil =>
    rw [List.length_eq_zero_iff.mp hlength] at hpage
    contradiction
  | cons db dbs =>
    have hpos := List.length_pos_of_mem hpage
    have hdb : db ∈ (db :: dbs).take pages.length := by
      rw [List.take_cons hpos]
      exact List.mem_cons_self
    rcases hid db hdb with ⟨row, hrow, hrowid, -⟩
    have hkey : ∀ db' ∈ (db :: dbs).take pages.length, ∃ row' ∈ db'.rows, row'.id = id ∧
        selects toLowerCase sessionId db'.lids o row' = true ∧
        sortKey dialect row' = sortKey dialect row := by
      intro db' hdb'
      rcases hid db' hdb' with ⟨row', hrow', hrowid', hselects⟩
      exact ⟨row', hrow', hrowid', hselects, sortKey_of_id hdbs db' (htake db' hdb') db (htake db hdb)
        row' hrow' row hrow (hrowid'.trans hrowid.symm)⟩
    have hin : sortKey dialect row ∈ (Keyset.walk (clampLimit o.limit) none
        ((db :: dbs).map (keysOf toLowerCase dialect sessionId o))).flatten := by
      apply Keyset.mem_walk (nodup_tables toLowerCase dialect sessionId o (db :: dbs))
      . rw [← hlength, ← List.map_take]
        intro keys hkeysMem
        rcases List.mem_map.mp hkeysMem with ⟨db', hdb', rfl⟩
        rcases hkey db' hdb' with ⟨row', hrow', -, hselects, hsame⟩
        rw [← hsame]
        exact List.mem_map_of_mem (List.mem_filter.mpr ⟨hrow', hselects⟩)
      . simp [Keyset.Below]
      . rw [← hkeys]
        exact ⟨_, List.mem_map_of_mem hpage, by simpa using hshort⟩
    rw [← hkeys, ← List.map_flatten] at hin
    rcases List.mem_map.mp hin with ⟨message, hmem, hmessagekey⟩
    rcases hshows message hmem with ⟨db', hdb', row', hrow', hrowid', -, hrowkey'⟩
    rcases hkey db' hdb' with ⟨row'', hrow'', hrowid'', -, hsame⟩
    have heq := List.inj_on_of_nodup_map (nodup_sortKey dialect db') hrow' hrow''
      (hrowkey'.trans (hmessagekey.trans hsame.symm))
    apply List.mem_map.mpr
    exact ⟨message, hmem, by rw [← hrowid', heq, hrowid'']⟩

/-- While only newer rows come in, more requests than there are rows meet a page that is not full. -/
theorem exists_short_page (toLowerCase : Text → Text) {pages : List (List (HistoryRow τ ι))}
    (hkeys : pages.map (·.map (sortKey dialect)) = Keyset.walk (clampLimit o.limit) none
      (dbs.map (keysOf toLowerCase dialect sessionId o)))
    (hnewer : dbs.IsChain (OnlyNewer dialect sessionId))
    (hlength : ∃ db ∈ dbs.head?, db.rows.length < dbs.length) :
    ∃ page ∈ pages, page.length < clampLimit o.limit := by
  rcases hlength with ⟨first, hfirst, hlength⟩
  cases dbs with
  | nil => contradiction
  | cons db dbs =>
    cases hfirst
    have hsub := walk_subset_first toLowerCase o (List.pairwise_cons.mp hnewer.pairwise).1
    have hle := List.length_filter_le (fun row : HistoryRow τ ι => decide (row.sessionId = sessionId)) first.rows
    have hempty := Keyset.exists_nil_of_subset
      (nodup_tables toLowerCase dialect sessionId o (first :: dbs)) hsub (by
        simp only [List.length_map]
        omega)
    rw [← hkeys] at hempty
    rcases List.mem_map.mp hempty with ⟨page, hpage, hnil⟩
    refine ⟨page, hpage, ?_⟩
    rw [List.map_eq_nil_iff.mp hnil]
    exact clampLimit_pos o.limit

/--
A walk is never refused and goes down in the order of the list. Once a page is not full, every row that all
requests selected has been visited, once; and while only newer rows come in, there is such a page.
-/
theorem walkPages_visits (toLowerCase : Text → Text) (configuredBudget : Nat) (sessionId : Text)
    (o : GetMessagesOptions ι) (hdbs : dbs.IsChain (Later dialect)) :
    ∃ pages, walkPages toLowerCase dialect configuredBudget sessionId o dbs none = .ok pages ∧
      pages.flatten.Pairwise (fun a b => sortKey dialect b < sortKey dialect a) ∧
      ((∃ page ∈ pages, page.length < clampLimit o.limit) → ∀ id,
        (∀ db ∈ dbs.take pages.length, ∃ row ∈ db.rows, row.id = id ∧
          selects toLowerCase sessionId db.lids o row = true) →
        (pages.flatten.map (·.id)).count id = 1) ∧
      (dbs.IsChain (OnlyNewer dialect sessionId) → (∃ db ∈ dbs.head?, db.rows.length < dbs.length) →
        ∃ page ∈ pages, page.length < clampLimit o.limit) := by
  have hpairwise := hdbs.pairwise
  have hanchor : ∀ db ∈ dbs, Anchored dialect sessionId none none db := fun _ _ => trivial
  rcases walkPages_keys toLowerCase configuredBudget o hpairwise hanchor with ⟨pages, hwalk, hkeys, hshows⟩
  have hsorted : pages.flatten.Pairwise fun a b => sortKey dialect b < sortKey dialect a := by
    rw [← List.pairwise_map (R := fun a b => b < a), List.map_flatten, hkeys]
    exact Keyset.pairwise_walk (nodup_tables toLowerCase dialect sessionId o dbs)
  have hmessage : ∀ message ∈ pages.flatten, ∃ db ∈ dbs.take pages.length,
      Shows dialect sessionId db message := by
    intro message hmem
    rcases List.mem_flatten.mp hmem with ⟨page, hpage, hin⟩
    exact hshows page hpage message hin
  refine ⟨pages, hwalk, hsorted, fun hshort id hid => ?_, exists_short_page toLowerCase hkeys⟩
  apply List.count_eq_one_of_mem
  . apply nodup_visited hpairwise hsorted
    intro message hmem
    rcases hmessage message hmem with ⟨db, hdb, hshow⟩
    exact ⟨db, List.mem_of_mem_take hdb, hshow⟩
  . exact mem_visited toLowerCase hpairwise hkeys hmessage hshort hid

/-- Three messages of one second, and a fourth one that comes in during the walk. -/
def burstRow (rowid createdAt : Nat) : HistoryRow ℕ ℕ where
  id := rowid
  rowid := rowid
  createdAt := createdAt
  sessionId := "s".toList
  chatId := "628@c.us".toList
  «from» := "628@c.us".toList
  author := none
  status := .read
  media := none

def burst (rowids : List Nat) (h : rowids.Nodup) : HistoryDb ℕ ℕ where
  rows := rowids.map fun rowid => burstRow rowid 7
  lids := ⟨[], [], [], [], [], [], 1⟩
  idsNodup := by simpa [burstRow, Function.comp_def] using h
  rowidsNodup := by simpa [burstRow, Function.comp_def] using h

def burstDbs : List (HistoryDb ℕ ℕ) :=
  [burst [1, 2, 3] (by decide), burst [1, 2, 3, 4] (by decide), burst [4, 1, 2, 3] (by decide),
    burst [1, 2, 3, 4] (by decide)]

def byTwo : GetMessagesOptions ℕ := ⟨none, none, some (.finite 2), none, none, none⟩

instance (db db' : HistoryDb ℕ ℕ) : Decidable (Later .sqlite db db') :=
  inferInstanceAs (Decidable (∀ row ∈ db.rows, ∃ row' ∈ db'.rows, _ ∧ _ ∧ _))

instance (db db' : HistoryDb ℕ ℕ) : Decidable (NoneOlder .sqlite "s".toList db db') :=
  inferInstanceAs (Decidable (∀ row' ∈ db'.rows, _ → (∃ row ∈ db.rows, _ ∧ _) ∨ ∀ row ∈ db.rows, _ → _ < _))

instance (db db' : HistoryDb ℕ ℕ) : Decidable (OnlyNewer .sqlite "s".toList db db') :=
  inferInstanceAs (Decidable (_ ∧ _))

theorem walkPages_visits_burst :
    ∃ pages, walkPages id .sqlite 0 "s".toList byTwo burstDbs none = .ok pages ∧
      (pages.flatten.map (·.id)).count 1 = 1 := by
  have hnewer : burstDbs.IsChain (OnlyNewer .sqlite "s".toList) := by decide +kernel
  have hlater : burstDbs.IsChain (Later .sqlite) := hnewer.imp fun _ _ h => h.1
  rcases walkPages_visits id 0 "s".toList byTwo hlater with ⟨pages, hwalk, -, hvisits, hends⟩
  refine ⟨pages, hwalk, hvisits (hends hnewer ⟨_, rfl, by decide⟩) 1 ?_⟩
  have hall : ∀ db ∈ burstDbs, ∃ row ∈ db.rows, row.id = 1 ∧
      selects id "s".toList db.lids byTwo row = true := by decide +kernel
  intro db hdb
  exact hall db (List.mem_of_mem_take hdb)

end Walk

end Page
end OpenWA.Message
