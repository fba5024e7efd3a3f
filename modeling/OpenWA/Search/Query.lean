import OpenWA.Js.Text

/-!
This module contains the full-text search over the stored messages: the statements that are built for
the two dialects with their parameters, what a database answers to them, and the scope that the caller's
key puts on a query.
-/

namespace OpenWA.Search

open Js

inductive Dialect where
  | sqlite
  | postgres
deriving DecidableEq

/-- A stored message, as far as a search reads it; the timestamp is in seconds. -/
structure Row where
  id : String
  waMessageId : Option String
  sessionId : String
  chatId : String
  sender : String
  body : Option Text
  timestamp : Option Int
  type : String
  direction : String
deriving DecidableEq

/-- A query; the dates are in milliseconds. -/
structure SearchQuery where
  q : Text
  sessionIds : Option (List String)
  sessionId : Option String
  chatId : Option String
  direction : Option String
  type : Option String
  sender : Option String
  dateFrom : Option Int
  dateTo : Option Int
  limit : Option Nat
  offset : Option Nat

inductive Value where
  | string (s : String)
  | term (t : Text)
  | int (i : Int)
deriving DecidableEq

inductive Column where
  | sessionId
  | chatId
  | sender
  | direction
  | type
  | timestamp
deriving DecidableEq

/-- A cell of the row, unless it is `NULL`. -/
def Row.cell (row : Row) (column : Column) : Option Value :=
  match column with
  | .sessionId => some (.string row.sessionId)
  | .chatId => some (.string row.chatId)
  | .sender => some (.string row.sender)
  | .direction => some (.string row.direction)
  | .type => some (.string row.type)
  | .timestamp => row.timestamp.map .int

/-- A placeholder: `?`, or `$n`. -/
inductive Slot where
  | next
  | numbered (n : Nat)
deriving DecidableEq

inductive Operator where
  | eq
  | ge
  | le
deriving DecidableEq

/-- A condition of the `WHERE` clause. -/
inductive Condition where
  -- `messages_fts MATCH ?`
  | ftsMatch (slot : Slot)
  -- `m.body_ts @@ q.query`
  | tsMatch
  | compare (column : Column) (operator : Operator) (slot : Slot)
  -- `column IN (…)`
  | oneOf (column : Column) (slots : List Slot)
deriving DecidableEq

/-- A key of the `ORDER BY` clause. -/
inductive OrderKey where
  -- `rank`, or `score DESC`
  | relevance
  -- `m."timestamp" DESC`
  | timestamp
  -- `m."id" DESC`
  | id
deriving DecidableEq

/-- `ORDER BY … LIMIT … OFFSET …` -/
structure Page where
  keys : List OrderKey
  limit : Slot
  offset : Slot

/-- The parts of a statement, in the order they appear in its text. -/
structure Statement where
  -- `websearch_to_tsquery('simple', $1) AS q(query)`
  source : Option Slot
  conditions : List Condition
  page : Option Page

section Builder

/-- The conditions and parameters so far, and how many placeholders were handed out. -/
structure Builder where
  where_ : List Condition
  params : List Value
  placeholders : Nat

/-- The next `n` placeholders. -/
def Builder.ph (b : Builder) (dialect : Dialect) (n : Nat) : List Slot :=
  match dialect with
  | .sqlite => List.replicate n .next
  | .postgres => (List.range' (b.placeholders + 1) n).map .numbered

def Builder.push (b : Builder) (condition : List Slot → Condition) (dialect : Dialect)
    (values : List Value) : Builder where
  where_ := b.where_ ++ [condition (b.ph dialect values.length)]
  params := b.params ++ values
  placeholders := b.placeholders + values.length

def Builder.compare (dialect : Dialect) (column : Column) (operator : Operator) (value : Option Value)
    (b : Builder) : Builder :=
  match value with
  | none => b
  | some value => b.push (fun slots => .compare column operator (slots.headD .next)) dialect [value]

def Builder.oneOf (dialect : Dialect) (column : Column) (values : List Value) (b : Builder) : Builder :=
  if values.isEmpty then b else b.push (.oneOf column ·) dialect values

/-- A filter with a string that is not empty. -/
def given (value : Option String) : Option Value :=
  match value with
  | none => none
  | some s => if s.isEmpty then none else some (.string s)

/-- `Math.floor(date / 1000)` of a date that is not zero -/
def seconds (date : Option Int) : Option Value :=
  match date with
  | none => none
  | some ms => if ms = 0 then none else some (.int (ms / 1000))

def applyFilters (dialect : Dialect) (q : SearchQuery) (b : Builder) : Builder :=
  let b := b.oneOf dialect .sessionId ((q.sessionIds.getD []).map .string)
  let b := b.compare dialect .sessionId .eq (given q.sessionId)
  let b := b.compare dialect .chatId .eq (given q.chatId)
  let b := b.compare dialect .sender .eq (given q.sender)
  let b := b.compare dialect .direction .eq (given q.direction)
  let b := b.oneOf dialect .type (given q.type).toList
  let b := b.compare dialect .timestamp .ge (seconds q.dateFrom)
  b.compare dialect .timestamp .le (seconds q.dateTo)

/-- `raw.trim().split(/\s+/).filter(Boolean)` -/
def tokens (raw : Text) : List Text := (raw.splitOnP isWhiteSpace).filter fun token => !token.isEmpty

/-- A token between quotes, its own quotes doubled. -/
def quote (token : Text) : Text := '"' :: (token.flatMap fun c => if c = '"' then ['"', '"'] else [c]) ++ ['"']

def toFts5Query (raw : Text) : Text :=
  if (tokens raw).isEmpty then quote [] else [' '].intercalate ((tokens raw).map quote)

/-- The conditions of `search` and `count`, with the placeholder of the term where it is in `FROM`. -/
def buildConditions (dialect : Dialect) (q : SearchQuery) : Option Slot × Builder :=
  let b : Builder := ⟨[], [], 0⟩
  match dialect with
  | .sqlite =>
    let b := b.push (fun slots => .ftsMatch (slots.headD .next)) .sqlite [.term (toFts5Query q.q)]
    (none, applyFilters .sqlite q b)
  | .postgres =>
    (some (.numbered 1), applyFilters .postgres q ⟨[.tsMatch], [.term q.q], 1⟩)

/-- `buildSqlite` and `buildPostgres` -/
def build (dialect : Dialect) (q : SearchQuery) (limit offset : Nat) : Statement × List Value :=
  let (source, b) := buildConditions dialect q
  let slots := b.ph dialect 2
  let page : Page := ⟨[.relevance, .timestamp, .id], slots.headD .next, slots.getLastD .next⟩
  (⟨source, b.where_, some page⟩, b.params ++ [.int limit, .int offset])

def buildCount (dialect : Dialect) (q : SearchQuery) : Statement × List Value :=
  let (source, b) := buildConditions dialect q
  (⟨source, b.where_, none⟩, b.params)

end Builder

section Database

/--
The full-text engines: whether a body holds every phrase, or meets a web search, where a row stands by
relevance among those of a table, and how the rows of a page are brought into an order.
-/
structure Engine where
  phrases : List Text → Text → Bool
  websearch : Text → Text → Bool
  relevance : Dialect → Text → List Row → Row → Int
  sort : (limit offset : Nat) → (Row → Row → Bool) → List Row → List Row

/-- The rest of a string, from inside its quotes: the phrase, and what follows the closing quote. -/
def readPhrase (phrase : Text) (t : Text) : Option (Text × Text) :=
  match t with
  | [] => none
  | '"' :: '"' :: t => readPhrase (phrase ++ ['"']) t
  | '"' :: t => some (phrase, t)
  | c :: t => readPhrase (phrase ++ [c]) t

/-- The quoted strings of a `MATCH` expression, with spaces between; `none` is a syntax error. -/
def readPhrases (fuel : Nat) (t : Text) : Option (List Text) :=
  match fuel with
  | 0 => none
  | fuel + 1 =>
    match t with
    | [] => some []
    | ' ' :: t => readPhrases fuel t
    | '"' :: t =>
      match readPhrase [] t with
      | none => none
      | some (phrase, t) => (readPhrases fuel t).map (phrase :: ·)
    | _ => none

def nul : Char := Char.ofNat 0

/-- An expression is read up to the first NUL. -/
def cut (t : Text) : Text := t.takeWhile (· ≠ nul)

def Value.hasNul (value : Value) : Bool :=
  match value with
  | .string s => nul ∈ s.toList
  | .term t => nul ∈ t
  | .int _ => false

/-- What the placeholders stand for, in the order they appear: `?` the next parameter, `$n` the `n`th. -/
def bindSlots (params : List Value) (position : Nat) (slots : List Slot) : Option (List Value) :=
  match slots with
  | [] => some []
  | .next :: slots =>
    match params[position]?, bindSlots params (position + 1) slots with
    | some value, some values => some (value :: values)
    | _, _ => none
  | .numbered n :: slots =>
    match params[n - 1]?, bindSlots params position slots with
    | some value, some values => some (value :: values)
    | _, _ => none

def Condition.slots (condition : Condition) : List Slot :=
  match condition with
  | .ftsMatch slot | .compare _ _ slot => [slot]
  | .tsMatch => []
  | .oneOf _ slots => slots

def Statement.slots (statement : Statement) : List Slot :=
  statement.source.toList ++ statement.conditions.flatMap Condition.slots ++
    match statement.page with
    | some page => [page.limit, page.offset]
    | none => []

/-- Postgres takes no text with a NUL. -/
def Statement.bind (dialect : Dialect) (statement : Statement) (params : List Value) :
    Option (List Value) :=
  if dialect = .postgres && params.any Value.hasNul then none else bindSlots params 0 statement.slots

def Operator.holds (operator : Operator) (a b : Value) : Bool :=
  match operator, a, b with
  | .eq, a, b => a = b
  | .ge, .int a, .int b => b ≤ a
  | .le, .int a, .int b => a ≤ b
  | _, _, _ => false

/-- The rows that a condition holds of, for the values of its placeholders; a syntax error is `none`. -/
def Condition.meaning (engine : Engine) (query : Option Value) (condition : Condition)
    (values : List Value) : Option (Row → Bool) :=
  match condition, values with
  | .ftsMatch _, [.term t] =>
    (readPhrases (t.length + 1) (cut t)).map fun phrases row =>
      (row.body.map (engine.phrases phrases)).getD false
  | .tsMatch, [] =>
    match query with
    -- the index column is made of `coalesce(body, '')`
    | some (.term t) => some fun row => engine.websearch t (row.body.getD [])
    | _ => none
  | .compare column operator _, [value] => some fun row => (row.cell column).any (operator.holds · value)
  | .oneOf column _, values => some fun row => (row.cell column).any (· ∈ values)
  | _, _ => none

/-- Each condition takes the values of its own placeholders. -/
def conditionsMeaning (engine : Engine) (query : Option Value) (conditions : List Condition)
    (values : List Value) : Option (Row → Bool) :=
  match conditions with
  | [] => some fun _ => true
  | condition :: conditions =>
    let n := condition.slots.length
    match condition.meaning engine query (values.take n),
        conditionsMeaning engine query conditions (values.drop n) with
    | some p, some r => some fun row => p row && r row
    | _, _ => none

/-- The rows that a statement selects; `none` is an error of the database. -/
def Statement.meaning (engine : Engine) (statement : Statement) (values : List Value) :
    Option (Row → Bool) :=
  match statement.source, values with
  | none, values => conditionsMeaning engine none statement.conditions values
  | some _, value :: values => conditionsMeaning engine (some value) statement.conditions values
  | some _, [] => none

/-- Two rows by one key, of which the lower one comes first. -/
def OrderKey.compare (dialect : Dialect) (relevance : Row → Int) (key : OrderKey) : Row → Row → Ordering :=
  match key with
  | .relevance => compareOn relevance
  | .timestamp =>
    match dialect with
    -- `NULL` is lower than any number
    | .sqlite => fun a b => compareOn Row.timestamp b a
    -- `NULL` is greater than any number
    | .postgres => compareLex (compareOn (·.timestamp.isSome)) fun a b => compareOn Row.timestamp b a
  | .id => fun a b => compareOn Row.id b a

def compareKeys (dialect : Dialect) (relevance : Row → Int) (keys : List OrderKey) :
    Row → Row → Ordering :=
  match keys with
  | [] => fun _ _ => .eq
  | key :: keys => compareLex (key.compare dialect relevance) (compareKeys dialect relevance keys)

/-- `SELECT … ORDER BY … LIMIT … OFFSET …` -/
def query (engine : Engine) (dialect : Dialect) (term : Text) (statement : Statement)
    (params : List Value) (rows : List Row) : Option (List Row) :=
  match statement.bind dialect params with
  | none => none
  | some values =>
    match statement.meaning engine values, statement.page, values.reverse with
    | some p, some page, .int offset :: .int limit :: _ =>
      let comes a b := (compareKeys dialect (engine.relevance dialect term rows) page.keys a b).isLE
      let sorted := engine.sort limit.toNat offset.toNat comes (rows.filter p)
      some ((sorted.drop offset.toNat).take limit.toNat)
    | _, _, _ => none

/-- `SELECT count(*) …` -/
def queryCount (engine : Engine) (dialect : Dialect) (statement : Statement) (params : List Value)
    (rows : List Row) : Option Nat :=
  match statement.bind dialect params with
  | none => none
  | some values => (statement.meaning engine values).map fun p => (rows.filter p).length

end Database

section Service

def SEARCH_OFFSET_MAX : Nat := 100000

def SEARCH_DEFAULT_LIMIT : Nat := 50

structure SearchHit where
  messageId : String
  waMessageId : String
  sessionId : String
  chatId : String
  body : Text
  timestamp : Int
  type : String
  direction : String
  sender : String
deriving DecidableEq

def mapRow (r : Row) : SearchHit where
  messageId := r.id
  waMessageId := r.waMessageId.getD ""
  sessionId := r.sessionId
  chatId := r.chatId
  body := r.body.getD []
  timestamp := r.timestamp.getD 0
  type := r.type
  direction := r.direction
  sender := r.sender

structure SearchResults where
  hits : List SearchHit
  total : Nat
deriving DecidableEq

variable (engine : Engine) (dialect : Dialect) (SEARCH_LIMIT_MAX : Nat)

/-- `search` of the provider. The count is a second query, which may find other rows. -/
def search (q : SearchQuery) (rows later : List Row) : Option SearchResults :=
  let limit := max 1 (min (q.limit.getD 50) SEARCH_LIMIT_MAX)
  let offset := q.offset.getD 0
  let (sql, params) := build dialect q limit offset
  match query engine dialect q.q sql params rows with
  | none => none
  | some found =>
    let hits := found.map mapRow
    if found.length < limit ∧ offset = 0 then some ⟨hits, found.length⟩
    else
      let (sql, params) := buildCount dialect q
      (queryCount engine dialect sql params later).map (⟨hits, ·⟩)

/-- `search` of the service: the scope of the caller replaces whatever the query says of sessions. -/
def scopedSearch (q : SearchQuery) (callerSessionIds : Option (List String)) (rows later : List Row) :
    Option SearchResults :=
  let narrowed :=
    {
      q with
      sessionIds := callerSessionIds
      limit := some (min (q.limit.getD SEARCH_DEFAULT_LIMIT) SEARCH_LIMIT_MAX)
      offset := some (min (q.offset.getD 0) SEARCH_OFFSET_MAX)
    }
  search engine dialect SEARCH_LIMIT_MAX narrowed rows later

end Service

end OpenWA.Search
