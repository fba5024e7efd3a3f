import OpenWA.Paging.Sorted
import OpenWA.Search.Builder
import Mathlib.Data.List.Nodup
import Mathlib.Data.List.Sort
import Mathlib.Tactic.Choose

/-!
This module proves that a search answers with the rows that its term and its filters admit, in both
dialects, that it stays in the scope of the caller, and that a walk over its pages visits each row once.
-/

namespace OpenWA.Search

open Js Paging

section Statements

variable {engine : Engine} {dialect : Dialect}

/-- What the placeholder in `FROM` stands for. -/
def sourceValue (dialect : Dialect) (q : SearchQuery) : List Value :=
  match dialect with
  | .sqlite => []
  | .postgres => [.term q.q]

/-- The body of a row meets the term, in the way of the dialect. -/
def Engine.matched (engine : Engine) (dialect : Dialect) (term : Text) (row : Row) : Bool :=
  match dialect with
  | .sqlite => (row.body.map (engine.phrases (phrasesOf term))).getD false
  | .postgres => engine.websearch term (row.body.getD [])

def SearchQuery.selects (engine : Engine) (dialect : Dialect) (q : SearchQuery) (row : Row) : Bool :=
  engine.matched dialect q.q row && q.admits row

/-- The dialect takes the strings of a query: none that it reads holds a NUL. -/
def SearchQuery.plain (dialect : Dialect) (q : SearchQuery) : Bool :=
  match dialect with
  | .sqlite => nul ∉ q.q
  | .postgres => !(Value.term q.q :: q.values).any Value.hasNul

theorem means_buildConditions (engine : Engine) (dialect : Dialect) (q : SearchQuery) :
    (buildConditions dialect q).2.Means engine (sourceValue dialect q).head? dialect
      (sourceValue dialect q)
      (if dialect = .sqlite ∧ nul ∈ q.q then none else some (q.selects engine dialect)) := by
  cases dialect with
  | sqlite =>
    have hterm : ((⟨[], [], 0⟩ : Builder).push (fun slots => .ftsMatch (slots.headD .next)) .sqlite
        [.term (toFts5Query q.q)]).Means engine none .sqlite []
          (if nul ∈ q.q then none else some (engine.matched .sqlite q.q)) := by
      refine ⟨rfl, [.term (toFts5Query q.q)], rfl, rfl, ?_⟩
      have hread := readPhrases_toFts5Query q.q
      by_cases hnul : nul ∈ q.q
      . simp [Builder.push, conditionsMeaning, Condition.slots, Condition.meaning, hread, hnul]
      . simp [Builder.push, conditionsMeaning, Condition.slots, Condition.meaning, hread, hnul]
        rfl
    refine (means_applyFilters hterm q).congr ?_
    by_cases hnul : nul ∈ q.q
    . simp [hnul]
    . simp [hnul]
      rfl
  | postgres =>
    have hterm : (⟨[.tsMatch], [.term q.q], 1⟩ : Builder).Means engine (some (.term q.q)) .postgres
        [.term q.q] (some (engine.matched .postgres q.q)) := by
      refine ⟨rfl, [], rfl, rfl, ?_⟩
      simp [conditionsMeaning, Condition.meaning, Condition.slots]
      rfl
    exact (means_applyFilters hterm q).congr (by simp; rfl)

theorem params_buildConditions (dialect : Dialect) (q : SearchQuery) :
    ∃ term, (buildConditions dialect q).2.params = term :: q.values ∧
      (dialect = .postgres → term = .term q.q) := by
  cases dialect <;> exact ⟨_, params_applyFilters _ q _, fun h => by cases h <;> rfl⟩

/-- The statement of a query, with what may follow its conditions. -/
def statementOf (dialect : Dialect) (q : SearchQuery) (page : Option Page) : Statement :=
  ⟨(buildConditions dialect q).1, (buildConditions dialect q).2.where_, page⟩

theorem bindSlots_statementOf (dialect : Dialect) (q : SearchQuery) (page : Option Page)
    (rest : List Value)
    (hpage : (statementOf dialect q page).slots =
      (statementOf dialect q none).slots ++
        slotsFrom dialect (buildConditions dialect q).2.params.length rest.length) :
    bindSlots ((buildConditions dialect q).2.params ++ rest) 0 (statementOf dialect q page).slots =
      some ((buildConditions dialect q).2.params ++ rest) := by
  rcases (means_buildConditions ⟨fun _ _ => false, fun _ _ => false, fun _ _ _ _ => 0,
    fun _ _ _ rows => rows⟩ dialect q).prefixed with ⟨values, hparams, hslots, -⟩
  have hsource : (buildConditions dialect q).1.toList =
      slotsFrom dialect 0 (sourceValue dialect q).length := by
    cases dialect <;> rfl
  have hconditions := slotsFrom_add dialect 0 (sourceValue dialect q).length values.length
  have hall := slotsFrom_add dialect 0 ((sourceValue dialect q).length + values.length) rest.length
  rw [Nat.zero_add] at hconditions hall
  have hslots : (statementOf dialect q page).slots =
      slotsFrom dialect 0 ((buildConditions dialect q).2.params ++ rest).length := by
    rw [hpage, hparams, List.length_append, List.length_append, List.length_append, ← hall, ← hconditions]
    simp [statementOf, Statement.slots, hsource, hslots]
  rw [hslots, bindSlots_all]

theorem meaning_statementOf (engine : Engine) (dialect : Dialect) (q : SearchQuery) (page : Option Page)
    (rest : List Value) :
    (statementOf dialect q page).meaning engine ((buildConditions dialect q).2.params ++ rest) =
      if dialect = .sqlite ∧ nul ∈ q.q then none else some (q.selects engine dialect) := by
  rcases (means_buildConditions engine dialect q).prefixed with ⟨values, hparams, hslots, hmeans⟩
  have hall : conditionsMeaning engine (sourceValue dialect q).head? (buildConditions dialect q).2.where_
      (values ++ rest) = if dialect = .sqlite ∧ nul ∈ q.q then none else some (q.selects engine dialect) := by
    have hnone : conditionsMeaning engine (sourceValue dialect q).head? [] rest = some fun _ => true := rfl
    have happend := conditionsMeaning_append (by rw [hslots, length_slotsFrom]) hnone
    simpa [hmeans] using happend
  rw [hparams, List.append_assoc]
  cases dialect <;> exact hall

section Resolve

variable {q : SearchQuery} {page : Option Page} {rest : List Value}
  (hpage : (statementOf dialect q page).slots =
    (statementOf dialect q none).slots ++
      slotsFrom dialect (buildConditions dialect q).2.params.length rest.length)
include hpage

/-- A query without a NUL is bound to its parameters, and means what its term and filters say. -/
theorem resolve_of_plain (engine : Engine) (hrest : rest.any Value.hasNul = false)
    (h : q.plain dialect = true) :
    (statementOf dialect q page).bind dialect ((buildConditions dialect q).2.params ++ rest) =
        some ((buildConditions dialect q).2.params ++ rest) ∧
      (statementOf dialect q page).meaning engine ((buildConditions dialect q).2.params ++ rest) =
        some (q.selects engine dialect) := by
  rw [Statement.bind, bindSlots_statementOf dialect q page rest hpage, meaning_statementOf]
  cases dialect with
  | sqlite =>
    have hnul : nul ∉ q.q := by simpa [SearchQuery.plain] using h
    simp [hnul]
  | postgres =>
    have hparams : (buildConditions .postgres q).2.params = .term q.q :: q.values :=
      params_applyFilters .postgres q _
    have hany : ((buildConditions .postgres q).2.params ++ rest).any Value.hasNul = false := by
      rw [List.any_append, hrest, hparams, Bool.or_false]
      simpa [SearchQuery.plain] using h
    simp [hany]

/-- With a NUL it is refused, when it is bound or when it is read. -/
theorem refused_of_not_plain (engine : Engine) (h : q.plain dialect = false) {values : List Value}
    (hbind : (statementOf dialect q page).bind dialect ((buildConditions dialect q).2.params ++ rest) =
      some values) : (statementOf dialect q page).meaning engine values = none := by
  rw [Statement.bind, bindSlots_statementOf dialect q page rest hpage] at hbind
  cases dialect with
  | sqlite =>
    have hnul : nul ∈ q.q := by simpa [SearchQuery.plain] using h
    simp only [reduceCtorEq, decide_false, Bool.false_and, Bool.false_eq_true, if_false,
      Option.some.injEq] at hbind
    rw [← hbind, meaning_statementOf, if_pos ⟨rfl, hnul⟩]
  | postgres =>
    have hparams : (buildConditions .postgres q).2.params = .term q.q :: q.values :=
      params_applyFilters .postgres q _
    have hany : ((buildConditions .postgres q).2.params ++ rest).any Value.hasNul = true := by
      rw [List.any_append, hparams, Bool.or_eq_true]
      exact .inl (by simpa only [SearchQuery.plain, Bool.not_eq_false'] using h)
    simp [hany] at hbind

end Resolve

/-- `SELECT … ORDER BY …`, as its comparison of two rows. -/
def SearchQuery.comes (engine : Engine) (dialect : Dialect) (q : SearchQuery) (rows : List Row)
    (a b : Row) : Bool :=
  (compareKeys dialect (engine.relevance dialect q.q rows) [.relevance, .timestamp, .id] a b).isLE

theorem query_build (engine : Engine) (dialect : Dialect) (q : SearchQuery) (limit offset : Nat)
    (rows : List Row) :
    query engine dialect q.q (build dialect q limit offset).1 (build dialect q limit offset).2 rows =
      if q.plain dialect then
        some (((engine.sort limit offset (q.comes engine dialect rows)
          (rows.filter (q.selects engine dialect))).drop offset).take limit)
      else none := by
  have hstatement : (build dialect q limit offset).1 =
      statementOf dialect q (build dialect q limit offset).1.page := rfl
  have hparams : (build dialect q limit offset).2 =
      (buildConditions dialect q).2.params ++ [.int limit, .int offset] := rfl
  have hpage : (statementOf dialect q (build dialect q limit offset).1.page).slots =
      (statementOf dialect q none).slots ++
        slotsFrom dialect (buildConditions dialect q).2.params.length [Value.int limit, .int offset].length := by
    have hcounted := (means_buildConditions engine dialect q).counted
    rw [← hcounted]
    simp only [statementOf, Statement.slots, build, ph_eq, List.append_assoc, List.append_cancel_left_eq]
    cases dialect <;> rfl
  unfold query
  rw [hstatement, hparams]
  cases hplain : q.plain dialect with
  | true =>
    rcases resolve_of_plain hpage engine rfl hplain with ⟨hbind, hmeaning⟩
    simp only [hbind, hmeaning, List.reverse_append]
    rfl
  | false =>
    split
    . rfl
    . next values hbind =>
      simp only [refused_of_not_plain hpage engine hplain hbind]
      rfl

theorem queryCount_build (engine : Engine) (dialect : Dialect) (q : SearchQuery) (rows : List Row) :
    queryCount engine dialect (buildCount dialect q).1 (buildCount dialect q).2 rows =
      if q.plain dialect then some (rows.filter (q.selects engine dialect)).length else none := by
  have hstatement : (buildCount dialect q).1 = statementOf dialect q none := rfl
  have hparams : (buildCount dialect q).2 = (buildConditions dialect q).2.params ++ [] := by
    rw [List.append_nil]
    rfl
  have hpage : (statementOf dialect q none).slots = (statementOf dialect q none).slots ++
      slotsFrom dialect (buildConditions dialect q).2.params.length ([] : List Value).length := by
    cases dialect <;> simp [slotsFrom]
  unfold queryCount
  rw [hstatement, hparams]
  cases hplain : q.plain dialect with
  | true =>
    rcases resolve_of_plain hpage engine rfl hplain with ⟨hbind, hmeaning⟩
    simp only [hbind, hmeaning]
    rfl
  | false =>
    split
    . rfl
    . next values hbind => exact congrArg _ (refused_of_not_plain hpage engine hplain hbind)

end Statements

section Order

instance (dialect : Dialect) (relevance : Row → Int) (key : OrderKey) :
    Std.TransCmp (key.compare dialect relevance) := by
  cases key with
  | relevance => exact inferInstanceAs (Std.TransCmp (compareOn _))
  | timestamp =>
    cases dialect with
    | sqlite => exact inferInstanceAs (Std.TransCmp fun a b => compareOn _ b a)
    | postgres => exact inferInstanceAs (Std.TransCmp (compareLex _ fun a b => compareOn _ b a))
  | id => exact inferInstanceAs (Std.TransCmp fun a b => compareOn _ b a)

theorem transCmp_compareKeys (dialect : Dialect) (relevance : Row → Int) (keys : List OrderKey) :
    Std.TransCmp (compareKeys dialect relevance keys) := by
  induction keys with
  | nil =>
    exact {
      eq_swap := rfl
      isLE_trans := fun _ _ => rfl
    }
  | cons key keys ih => exact inferInstanceAs (Std.TransCmp (compareLex _ _))

/-- A database brings rows into any order that it is given. -/
def Engine.Sorts (engine : Engine) : Prop :=
  ∀ (limit offset : Nat) (le : Row → Row → Bool) (rows : List Row),
    (∀ a b c, le a b = true → le b c = true → le a c = true) → (∀ a b, (le a b || le b a) = true) →
      Arranged (fun a b => le a b = true) rows (engine.sort limit offset le rows)

variable {engine : Engine} {dialect : Dialect} {q : SearchQuery} {rows : List Row}

theorem arranged_sort (hsorts : engine.Sorts) (limit offset : Nat) (selected : List Row) :
    Arranged (fun a b => q.comes engine dialect rows a b = true) selected
      (engine.sort limit offset (q.comes engine dialect rows) selected) := by
  have htrans := transCmp_compareKeys dialect (engine.relevance dialect q.q rows) [.relevance, .timestamp, .id]
  apply hsorts limit offset
  . intro a b c
    exact htrans.isLE_trans
  . intro a b
    unfold SearchQuery.comes
    rw [htrans.eq_swap (a := b)]
    cases compareKeys dialect (engine.relevance dialect q.q rows) [.relevance, .timestamp, .id] a b <;> rfl

/-- The last key is the row's own. -/
theorem id_eq_of_comes {a b : Row} (h : q.comes engine dialect rows a b = true)
    (h' : q.comes engine dialect rows b a = true) : a.id = b.id := by
  have htrans := transCmp_compareKeys dialect (engine.relevance dialect q.q rows) [.relevance, .timestamp, .id]
  have heq := htrans.isLE_antisymm h h'
  simp only [compareKeys, compareLex_eq_eq, OrderKey.compare, compareOn, Std.compare_eq_iff_eq] at heq
  exact heq.2.2.1.symm

end Order

section Answers

variable {engine : Engine}

theorem search_eq (engine : Engine) (dialect : Dialect) (SEARCH_LIMIT_MAX : Nat) (q : SearchQuery)
    (rows later : List Row) :
    search engine dialect SEARCH_LIMIT_MAX q rows later =
      let limit := max 1 (min (q.limit.getD 50) SEARCH_LIMIT_MAX)
      let offset := q.offset.getD 0
      let page := ((engine.sort limit offset (q.comes engine dialect rows)
        (rows.filter (q.selects engine dialect))).drop offset).take limit
      if q.plain dialect then
        some ⟨page.map mapRow,
          if page.length < limit ∧ offset = 0 then page.length
          else (later.filter (q.selects engine dialect)).length⟩
      else none := by
  unfold search
  simp only [query_build, queryCount_build]
  cases q.plain dialect with
  | false => rfl
  | true =>
    simp only [if_true]
    split <;> rfl

/-- The query that the provider gets for a caller. -/
def SearchQuery.narrow (q : SearchQuery) (callerSessionIds : Option (List String)) : SearchQuery :=
  { q with sessionIds := callerSessionIds }

/-- The rows for a caller: of its sessions, if it is bound to any, with the term and the filters met. -/
def SearchQuery.answers (engine : Engine) (dialect : Dialect) (q : SearchQuery)
    (callerSessionIds : Option (List String)) (row : Row) : Bool :=
  ((callerSessionIds.getD []).isEmpty || row.sessionId ∈ callerSessionIds.getD []) &&
    (q.narrow none).selects engine dialect row

theorem selects_narrow (dialect : Dialect) (q : SearchQuery) (callerSessionIds : Option (List String)) (row : Row) :
    (q.narrow callerSessionIds).selects engine dialect row =
      q.answers engine dialect callerSessionIds row := by
  simp only [SearchQuery.answers, SearchQuery.selects, SearchQuery.admits, SearchQuery.narrow,
    Option.getD_none, List.isEmpty_nil, Bool.true_or, Bool.true_and, Bool.and_assoc]
  rw [Bool.and_left_comm]
  rfl

/-- A first page that is not full holds all there is. -/
theorem total_eq (sorted : List Row) (limit offset counted : Nat) :
    (if ((sorted.drop offset).take limit).length < limit ∧ offset = 0
      then ((sorted.drop offset).take limit).length else counted) =
      if sorted.length < limit ∧ offset = 0 then sorted.length else counted := by
  by_cases hfirst : offset = 0
  . subst hfirst
    by_cases hshort : sorted.length < limit
    . simp [hshort, Nat.min_eq_right hshort.le]
    . simp [hshort, Nat.min_eq_left (Nat.le_of_not_lt hshort)]
  . simp [hfirst]

section Sample

/-- An engine that looks for whole words, and holds all rows for equally relevant. -/
def wordEngine : Engine where
  phrases phrases body := phrases.all (· ∈ tokens body)
  websearch term body := (tokens term).all (· ∈ tokens body)
  relevance _ _ _ _ := 0
  sort _ _ le rows := rows.insertionSort fun a b => le a b = true

theorem sorts_wordEngine : wordEngine.Sorts := by
  intro _ _ le rows htrans htotal
  have := (⟨htrans⟩ : IsTrans Row fun a b => le a b = true)
  have : Std.Total fun a b : Row => le a b = true := ⟨fun a b => by simpa using htotal a b⟩
  exact ⟨List.perm_insertionSort _ rows, List.pairwise_insertionSort _ rows⟩

def sampleRow (id sessionId : String) : Row :=
  ⟨id, none, sessionId, "c1", "c1", some "a word".toList, some 1, "text", "incoming"⟩

def sampleRows : List Row := [sampleRow "1" "s1", sampleRow "2" "s2", sampleRow "3" "s1"]

/-- A query for a word, and for all sessions. -/
def sampleQuery : SearchQuery :=
  ⟨"word".toList, some ["s1", "s2"], none, none, none, none, none, none, none, none, none⟩

end Sample

/-- A page of a query. -/
def SearchQuery.page (q : SearchQuery) (size i : Nat) : SearchQuery :=
  { q with limit := some size, offset := some (i * size) }

end Answers

end OpenWA.Search
