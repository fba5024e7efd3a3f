import OpenWA.Search.Query

/-!
This module proves what the statements of a search mean: their placeholders stand for their parameters in
both dialects, the conditions are those of the filters, and the term is never read as query syntax.
-/

namespace OpenWA.Search

open Js

section Binding

/-- `n` placeholders, of which `start` were handed out before. -/
def slotsFrom (dialect : Dialect) (start n : Nat) : List Slot :=
  match dialect with
  | .sqlite => List.replicate n .next
  | .postgres => (List.range' (start + 1) n).map .numbered

theorem ph_eq (b : Builder) (dialect : Dialect) (n : Nat) :
    b.ph dialect n = slotsFrom dialect b.placeholders n := by
  cases dialect <;> rfl

theorem length_slotsFrom (dialect : Dialect) (start n : Nat) : (slotsFrom dialect start n).length = n := by
  cases dialect <;> simp [slotsFrom]

theorem slotsFrom_add (dialect : Dialect) (start n m : Nat) :
    slotsFrom dialect start n ++ slotsFrom dialect (start + n) m = slotsFrom dialect start (n + m) := by
  cases dialect with
  | sqlite => simp [slotsFrom]
  | postgres =>
    have hrange := List.range'_append_1 (s := start + 1) (m := n) (n := m)
    simp only [slotsFrom, ← List.map_append]
    rw [← hrange]
    congr 3
    omega

/-- Either dialect's placeholders stand for the parameters in their order. -/
theorem bindSlots_slotsFrom (dialect : Dialect) {params : List Value} {start n : Nat}
    (h : start + n ≤ params.length) :
    bindSlots params start (slotsFrom dialect start n) = some ((params.drop start).take n) := by
  cases dialect with
  | sqlite =>
    induction n generalizing start with
    | zero => rfl
    | succ n ih =>
      have hlt : start < params.length := by omega
      have ih := @ih (start + 1) (by omega)
      simp only [slotsFrom, List.replicate_succ] at ih ⊢
      simp only [bindSlots, ih, List.getElem?_eq_getElem hlt]
      rw [List.drop_eq_getElem_cons hlt, List.take_succ_cons]
  | postgres =>
    have hgen : ∀ (n s : Nat), s + n ≤ params.length → ∀ position,
        bindSlots params position ((List.range' (s + 1) n).map .numbered) =
          some ((params.drop s).take n) := by
      intro n
      induction n with
      | zero => intro s _ position; rfl
      | succ n ih =>
        intro s hs position
        have hlt : s < params.length := by omega
        have ih := ih (s + 1) (by omega) position
        simp only [List.range'_succ, List.map_cons, bindSlots, ih, Nat.add_sub_cancel,
          List.getElem?_eq_getElem hlt]
        rw [List.drop_eq_getElem_cons hlt, List.take_succ_cons]
    exact hgen n start h start

theorem bindSlots_all (dialect : Dialect) (params : List Value) :
    bindSlots params 0 (slotsFrom dialect 0 params.length) = some params := by
  rw [bindSlots_slotsFrom dialect (by omega)]
  simp

end Binding

section Conditions

variable {engine : Engine} {query : Option Value}

theorem conditionsMeaning_append {conditions conditions' : List Condition} {values values' : List Value}
    {r : Row → Bool} (hlength : (conditions.flatMap Condition.slots).length = values.length)
    (h : conditionsMeaning engine query conditions' values' = some r) :
    conditionsMeaning engine query (conditions ++ conditions') (values ++ values') =
      (conditionsMeaning engine query conditions values).map fun p row => p row && r row := by
  induction conditions generalizing values with
  | nil =>
    cases values with
    | nil => simpa [conditionsMeaning] using h
    | cons => simp at hlength
  | cons condition conditions ih =>
    simp only [List.flatMap_cons, List.length_append] at hlength
    simp only [conditionsMeaning, List.cons_append]
    rw [List.take_append_of_le_length (by omega), List.drop_append_of_le_length (by omega),
      ih (by rw [List.length_drop]; omega)]
    cases condition.meaning engine query (values.take condition.slots.length) with
    | none => rfl
    | some p =>
      cases conditionsMeaning engine query conditions (values.drop condition.slots.length) with
      | none => rfl
      | some p' => simp [Bool.and_assoc]

/-- What a builder has come to: its parameters after the first ones, and the rows that they admit. -/
structure Builder.Means (engine : Engine) (query : Option Value) (dialect : Dialect) (first : List Value)
    (p : Option (Row → Bool)) (b : Builder) : Prop where
  counted : b.placeholders = b.params.length
  prefixed : ∃ values, b.params = first ++ values ∧
    b.where_.flatMap Condition.slots = slotsFrom dialect first.length values.length ∧
    conditionsMeaning engine query b.where_ values = p

variable {dialect : Dialect} {first : List Value} {p : Option (Row → Bool)} {r : Row → Bool} {b : Builder}

theorem Builder.Means.push (h : b.Means engine query dialect first p) {condition : List Slot → Condition}
    {values : List Value} (hslots : ∀ slots, slots.length = values.length → (condition slots).slots = slots)
    (hmeans : ∀ slots, slots.length = values.length →
      (condition slots).meaning engine query values = some r) :
    (b.push condition dialect values).Means engine query dialect first
      (p.map fun p row => p row && r row) := by
  rcases h.prefixed with ⟨before, hparams, hbefore, hp⟩
  have hlength : (b.ph dialect values.length).length = values.length := by
    rw [ph_eq, length_slotsFrom]
  have hcounted : b.placeholders = first.length + before.length := by
    rw [h.counted, hparams, List.length_append]
  refine ⟨by simp [Builder.push, h.counted], before ++ values, by simp [Builder.push, hparams], ?_, ?_⟩
  . simp only [Builder.push, List.flatMap_append, List.flatMap_cons, List.flatMap_nil, List.append_nil,
      hslots _ hlength, hbefore, List.length_append]
    rw [ph_eq, hcounted, slotsFrom_add]
  . rw [← hp]
    refine conditionsMeaning_append ?_ ?_
    . rw [hbefore, length_slotsFrom]
    . simp [conditionsMeaning, hslots _ hlength, hlength, hmeans _ hlength]

end Conditions

section Filters

variable {engine : Engine} {query : Option Value} {dialect : Dialect} {first : List Value}
  {p : Option (Row → Bool)} {b : Builder}

theorem Builder.Means.congr {r : Option (Row → Bool)} (h : b.Means engine query dialect first p)
    (heq : p = r) : b.Means engine query dialect first r :=
  heq ▸ h

theorem Builder.Means.compare (h : b.Means engine query dialect first p) (column : Column)
    (operator : Operator) (value : Option Value) :
    (b.compare dialect column operator value).Means engine query dialect first
      (p.map fun p row => p row && value.all fun v => (row.cell column).any (operator.holds · v)) := by
  cases value with
  | none => simpa [Builder.compare] using h
  | some v =>
    have hpush : (b.push (fun slots => .compare column operator (slots.headD .next)) dialect [v]).Means
        engine query dialect first
          (p.map fun p row => p row && (row.cell column).any (operator.holds · v)) := by
      refine h.push ?_ fun _ _ => rfl
      intro slots hslots
      obtain ⟨slot, rfl⟩ := List.length_eq_one_iff.mp hslots
      rfl
    simpa [Builder.compare] using hpush

theorem Builder.Means.oneOf (h : b.Means engine query dialect first p) (column : Column)
    (values : List Value) :
    (b.oneOf dialect column values).Means engine query dialect first
      (p.map fun p row => p row && (values.isEmpty || (row.cell column).any (· ∈ values))) := by
  cases values with
  | nil => simpa [Builder.oneOf] using h
  | cons v values =>
    have hpush : (b.push (.oneOf column ·) dialect (v :: values)).Means engine query dialect first
        (p.map fun p row => p row && (row.cell column).any (· ∈ v :: values)) :=
      h.push (fun _ _ => rfl) fun _ _ => rfl
    simpa [Builder.oneOf] using hpush

/-- An optional filter with a string. -/
def is (value : Option String) (s : String) : Bool := value.all fun v => v.isEmpty || s = v

/-- The rows that the filters of a query let through. -/
def SearchQuery.admits (q : SearchQuery) (row : Row) : Bool :=
  ((q.sessionIds.getD []).isEmpty || row.sessionId ∈ q.sessionIds.getD []) &&
    is q.sessionId row.sessionId && is q.chatId row.chatId && is q.sender row.sender &&
    is q.direction row.direction && is q.type row.type &&
    (q.dateFrom.all fun ms => ms = 0 || row.timestamp.any (ms / 1000 ≤ ·)) &&
    (q.dateTo.all fun ms => ms = 0 || row.timestamp.any (· ≤ ms / 1000))

theorem all_given (value : Option String) (s : String) :
    ((given value).all fun v => (some (Value.string s)).any (Operator.eq.holds · v)) = is value s := by
  cases value with
  | none => rfl
  | some v =>
    unfold given is
    by_cases hempty : v.isEmpty = true
    . simp [hempty]
    . simp [hempty, Operator.holds]

theorem given_any (value : Option String) (s : String) :
    ((given value).toList.isEmpty || (some (Value.string s)).any (· ∈ (given value).toList)) =
      is value s := by
  cases value with
  | none => rfl
  | some v =>
    unfold given is
    by_cases hempty : v.isEmpty = true
    . simp [hempty]
    . simp [hempty]

theorem all_from (date : Option Int) (timestamp : Option Int) :
    ((seconds date).all fun v => (timestamp.map Value.int).any (Operator.ge.holds · v)) =
      date.all fun ms => ms = 0 || timestamp.any (ms / 1000 ≤ ·) := by
  cases date with
  | none => rfl
  | some ms =>
    unfold seconds
    by_cases hzero : ms = 0
    . simp [hzero]
    . cases timestamp <;> simp [hzero, Operator.holds]

theorem all_to (date : Option Int) (timestamp : Option Int) :
    ((seconds date).all fun v => (timestamp.map Value.int).any (Operator.le.holds · v)) =
      date.all fun ms => ms = 0 || timestamp.any (· ≤ ms / 1000) := by
  cases date with
  | none => rfl
  | some ms =>
    unfold seconds
    by_cases hzero : ms = 0
    . simp [hzero]
    . cases timestamp <;> simp [hzero, Operator.holds]

theorem means_applyFilters (h : b.Means engine query dialect first p) (q : SearchQuery) :
    (applyFilters dialect q b).Means engine query dialect first
      (p.map fun p row => p row && q.admits row) := by
  have hfilters := (((((((h.oneOf .sessionId ((q.sessionIds.getD []).map .string)).compare .sessionId .eq
    (given q.sessionId)).compare .chatId .eq (given q.chatId)).compare .sender .eq
    (given q.sender)).compare .direction .eq (given q.direction)).oneOf .type
    (given q.type).toList).compare .timestamp .ge (seconds q.dateFrom)).compare .timestamp .le
    (seconds q.dateTo)
  cases p with
  | none => exact hfilters
  | some p =>
    refine hfilters.congr (congrArg some (funext fun row => ?_))
    simp only [Row.cell, all_given, given_any, all_from, all_to, SearchQuery.admits, Bool.and_assoc]
    simp

/-- The values that the filters of a query add, in their order. -/
def SearchQuery.values (q : SearchQuery) : List Value :=
  (q.sessionIds.getD []).map .string ++
    [given q.sessionId, given q.chatId, given q.sender, given q.direction, given q.type, seconds q.dateFrom,
      seconds q.dateTo].flatMap Option.toList

@[simp]
theorem params_compare (b : Builder) (dialect : Dialect) (column : Column) (operator : Operator)
    (value : Option Value) : (b.compare dialect column operator value).params = b.params ++ value.toList := by
  cases value <;> simp [Builder.compare, Builder.push]

@[simp]
theorem params_oneOf (b : Builder) (dialect : Dialect) (column : Column) (values : List Value) :
    (b.oneOf dialect column values).params = b.params ++ values := by
  cases values <;> simp [Builder.oneOf, Builder.push]

theorem params_applyFilters (dialect : Dialect) (q : SearchQuery) (b : Builder) :
    (applyFilters dialect q b).params = b.params ++ q.values := by
  simp [applyFilters, SearchQuery.values]

end Filters

section Phrases

/-- The quotes of a token, doubled. -/
def escape (token : Text) : Text := token.flatMap fun c => if c = '"' then ['"', '"'] else [c]

theorem quote_eq (token rest : Text) : quote token ++ rest = '"' :: (escape token ++ '"' :: rest) := by
  simp [quote, escape]

theorem escape_cons (c : Char) (token : Text) :
    escape (c :: token) = (if c = '"' then ['"', '"'] else [c]) ++ escape token :=
  rfl

/-- From inside its quotes a token is read up to what follows them. -/
theorem readPhrase_escape (token phrase : Text) {rest : Text} (hrest : ∀ t, rest ≠ '"' :: t) :
    readPhrase phrase (escape token ++ '"' :: rest) = some (phrase ++ token, rest) := by
  induction token generalizing phrase with
  | nil =>
    have hstop : readPhrase phrase ('"' :: rest) = some (phrase, rest) := by
      unfold readPhrase
      split
      . contradiction
      . next t heq => exact absurd (List.cons.inj heq).2 (hrest t)
      . next heq => rw [(List.cons.inj heq).2]
      . next hquote heq => exact (hquote (List.cons.inj heq).1.symm).elim
    simpa [escape] using hstop
  | cons c token ih =>
    rw [escape_cons]
    by_cases hc : c = '"'
    . subst hc
      simpa [readPhrase] using ih (phrase ++ ['"'])
    . have hstep : readPhrase phrase (c :: (escape token ++ '"' :: rest)) =
          readPhrase (phrase ++ [c]) (escape token ++ '"' :: rest) := by
        rw [readPhrase]
        . intro t heq
          exact absurd heq hc
        . intro heq
          exact absurd heq hc
      simpa [hc] using hstep.trans (ih _)

/-- Quotes that are not closed. -/
theorem readPhrase_open (token phrase : Text) : readPhrase phrase (escape token) = none := by
  induction token generalizing phrase with
  | nil => rfl
  | cons c token ih =>
    rw [escape_cons]
    by_cases hc : c = '"'
    . subst hc
      simpa [readPhrase] using ih (phrase ++ ['"'])
    . have hstep : readPhrase phrase (c :: escape token) = readPhrase (phrase ++ [c]) (escape token) := by
        rw [readPhrase]
        . intro t heq
          exact absurd heq hc
        . intro heq
          exact absurd heq hc
      simpa [hc] using hstep.trans (ih _)

theorem nul_ne_quote : nul ≠ '"' := by decide

theorem nul_mem_escape {token : Text} : nul ∈ escape token ↔ nul ∈ token := by
  simp only [escape, List.mem_flatMap]
  constructor
  . rintro ⟨c, hc, hmem⟩
    split at hmem
    . simp [nul_ne_quote] at hmem
    . exact List.mem_singleton.mp hmem ▸ hc
  . intro h
    exact ⟨nul, h, by simp [nul_ne_quote]⟩

theorem cut_append {s : Text} (h : nul ∉ s) (t : Text) : cut (s ++ t) = s ++ cut t := by
  refine List.takeWhile_append_of_pos fun c hc => ?_
  simp only [decide_eq_true_eq]
  rintro rfl
  exact h hc

theorem cut_quote {phrase : Text} (h : nul ∉ phrase) (rest : Text) :
    cut (quote phrase ++ rest) = '"' :: (escape phrase ++ '"' :: cut rest) := by
  have hnul : nul ∉ quote phrase := by
    have hquote := quote_eq phrase []
    rw [List.append_nil] at hquote
    simp [hquote, nul_mem_escape, h, nul_ne_quote]
  rw [cut_append hnul, quote_eq]

/-- A NUL leaves the quotes open. -/
theorem cut_quote_of_nul {phrase : Text} (h : nul ∈ phrase) (rest : Text) :
    ∃ token, cut (quote phrase ++ rest) = '"' :: escape token := by
  obtain ⟨before, after, rfl, hbefore⟩ := List.eq_append_cons_of_mem h
  refine ⟨before, ?_⟩
  have hopen : nul ∉ '"' :: escape before := by simp [nul_mem_escape, hbefore, nul_ne_quote]
  have hsplit : quote (before ++ nul :: after) ++ rest =
      ('"' :: escape before) ++ nul :: (escape after ++ '"' :: rest) := by
    rw [quote_eq]
    simp [escape, nul_ne_quote]
  rw [hsplit, cut_append hopen]
  simp [cut]

theorem readPhrases_cut_quote {phrase rest : Text} (hrest : ∀ t, cut rest ≠ '"' :: t) (fuel : Nat) :
    readPhrases (fuel + 1) (cut (quote phrase ++ rest)) =
      if nul ∈ phrase then none else (readPhrases fuel (cut rest)).map (phrase :: ·) := by
  by_cases h : nul ∈ phrase
  . obtain ⟨token, htoken⟩ := cut_quote_of_nul h rest
    simp [h, htoken, readPhrases, readPhrase_open]
  . simp [h, cut_quote h, readPhrases, readPhrase_escape phrase [] hrest]

/-- An expression of quoted phrases is read back as them, none of which is query syntax. -/
theorem readPhrases_quote (phrases : List Text) {fuel : Nat}
    (h : ([' '].intercalate (phrases.map quote)).length < fuel) :
    readPhrases fuel (cut ([' '].intercalate (phrases.map quote))) =
      if ∃ phrase ∈ phrases, nul ∈ phrase then none else some phrases := by
  induction phrases generalizing fuel with
  | nil =>
    cases fuel with
    | zero => contradiction
    | succ fuel => rfl
  | cons phrase phrases ih =>
    cases fuel with
    | zero => contradiction
    | succ fuel =>
      cases phrases with
      | nil =>
        have htext : [' '].intercalate ([phrase].map quote) = quote phrase ++ [] := by simp
        rw [htext] at h ⊢
        rw [readPhrases_cut_quote (by simp [cut])]
        cases fuel with
        | zero => simp [quote] at h
        | succ fuel => simp [cut, readPhrases]
      | cons next phrases =>
        have htext : [' '].intercalate ((phrase :: next :: phrases).map quote) =
            quote phrase ++ ' ' :: [' '].intercalate ((next :: phrases).map quote) := by
          simp [List.intercalate]
        rw [htext] at h ⊢
        have hspace : ∀ t, cut (' ' :: t) = ' ' :: cut t := fun t => cut_append (s := [' ']) (by decide) t
        rw [readPhrases_cut_quote (by simp [hspace]), hspace]
        cases fuel with
        | zero => simp [quote] at h
        | succ fuel =>
          have ih := @ih fuel (by simp [quote] at h ⊢; omega)
          simp only [readPhrases, ih, List.mem_cons, exists_eq_or_imp]
          by_cases hphrase : nul ∈ phrase
          . simp [hphrase]
          . simp only [hphrase, if_false, false_or]
            split <;> simp

theorem flatten_splitOnP {α : Type} (p : α → Bool) (xs : List α) :
    (xs.splitOnP p).flatten = xs.filter fun x => !p x := by
  induction xs with
  | nil => simp
  | cons x xs ih =>
    rw [List.splitOnP_cons_eq_if_modifyHead]
    cases hp : p x with
    | true => simpa [hp] using ih
    | false =>
      obtain ⟨piece, pieces, heq⟩ := List.exists_cons_of_ne_nil (List.splitOnP_ne_nil p xs)
      rw [heq] at ih ⊢
      simpa [hp] using ih

/-- What a term is searched by. -/
def phrasesOf (term : Text) : List Text := if tokens term = [] then [[]] else tokens term

theorem toFts5Query_eq (raw : Text) : toFts5Query raw = [' '].intercalate ((phrasesOf raw).map quote) := by
  unfold toFts5Query phrasesOf
  by_cases hempty : tokens raw = []
  . simp [hempty]
  . simp [hempty]

theorem nul_mem_phrasesOf (raw : Text) : (∃ phrase ∈ phrasesOf raw, nul ∈ phrase) ↔ nul ∈ raw := by
  have htokens : (∃ token ∈ tokens raw, nul ∈ token) ↔ nul ∈ raw := by
    have hflat : nul ∈ (raw.splitOnP isWhiteSpace).flatten ↔ nul ∈ raw := by
      rw [flatten_splitOnP, List.mem_filter]
      exact and_iff_left (by decide)
    rw [← hflat, List.mem_flatten]
    simp only [tokens, List.mem_filter]
    constructor
    . rintro ⟨token, ⟨htoken, -⟩, hmem⟩
      exact ⟨token, htoken, hmem⟩
    . rintro ⟨token, htoken, hmem⟩
      refine ⟨token, ⟨htoken, ?_⟩, hmem⟩
      cases token with
      | nil => simp at hmem
      | cons => rfl
  rw [← htokens]
  unfold phrasesOf
  by_cases hempty : tokens raw = []
  . simp [hempty]
  . rw [if_neg hempty]

theorem readPhrases_toFts5Query (raw : Text) :
    readPhrases ((toFts5Query raw).length + 1) (cut (toFts5Query raw)) =
      if nul ∈ raw then none else some (phrasesOf raw) := by
  rw [toFts5Query_eq, readPhrases_quote _ (Nat.lt_succ_self _)]
  exact if_congr (nul_mem_phrasesOf raw) rfl rfl

end Phrases

end OpenWA.Search
