import OpenWA.Js.Text

/-!
This module contains the parser of formatted messages: the code segments, the spans between them, and that it
loses no character.
-/

namespace OpenWA.Dashboard

open Js

inductive Format where
  | bold
  | italic
  | strike
deriving DecidableEq

inductive MessageNode where
  | text (value : Text)
  | format (fmt : Format) (children : List MessageNode)
  | code (value : Text)
  | codeblock (value : Text)

/-- `FORMATS` -/
def formatOf (ch : Char) : Option Format :=
  if ch = '*' then some .bold
  else if ch = '_' then some .italic
  else if ch = '~' then some .strike
  else none

def Format.marker (fmt : Format) : Char :=
  match fmt with
  | .bold => '*'
  | .italic => '_'
  | .strike => '~'

/-- `BOUNDARY_CHAR` -/
def isBoundary (ch : Char) : Bool :=
  isWhiteSpace ch || ch ∈ ['.', ',', ';', ':', '!', '?', '(', ')', '[', ']', '\x7b', '\x7d', '\x27', '\x22', '<', '>']

/-- The character outside a marker is a boundary, or there is none. -/
def outside (ch : Option Char) : Bool := ch.all isBoundary

section Spans

structure Split where
  before : Text
  fmt : Format
  inner : Text
  after : Text
deriving DecidableEq

/-- The inner loop: what is before and after the first closing marker; `prev` is the character before. -/
def findCloser (ch prev : Char) (rest : Text) : Option (Text × Text) :=
  match rest with
  | [] => none
  | c :: tail =>
    if c = ch && !isWhiteSpace prev && outside tail.head? then some ([], tail)
    else (findCloser ch c tail).map fun (inner, after) => (c :: inner, after)

/-- The span that an opening marker at the start of `ch :: rest` begins. -/
def spanAt (prev : Option Char) (ch : Char) (rest : Text) : Option Split :=
  match formatOf ch with
  | none => none
  | some fmt =>
    if outside prev && rest.head?.any (fun inside => !isWhiteSpace inside) then
      (findCloser ch ch rest).map fun (inner, after) => ⟨[], fmt, inner, after⟩
    else none

/-- The outer loop. -/
def splitFrom (prev : Option Char) (input : Text) : Option Split :=
  match input with
  | [] => none
  | ch :: rest =>
    match spanAt prev ch rest with
    | some split => some split
    | none => (splitFrom (some ch) rest).map fun split => { split with before := ch :: split.before }

def splitFirstFormat (input : Text) : Option Split := splitFrom none input

/-- Neither end is white space. -/
def Trimmed (t : Text) : Prop :=
  (∀ c, t.head? = some c → isWhiteSpace c = false) ∧ ∀ c, t.getLast? = some c → isWhiteSpace c = false

theorem formatOf_marker {ch : Char} {fmt : Format} (h : formatOf ch = some fmt) : fmt.marker = ch := by
  unfold formatOf at h
  split at h
  . next hch => exact Option.some.inj h ▸ hch.symm
  . split at h
    . next hch => exact Option.some.inj h ▸ hch.symm
    . split at h
      . next hch => exact Option.some.inj h ▸ hch.symm
      . contradiction

theorem not_boundary_of_format {ch : Char} {fmt : Format} (h : formatOf ch = some fmt) : isBoundary ch = false := by
  rw [← formatOf_marker h]
  cases fmt <;> decide

theorem findCloser_cons (ch prev c : Char) (tail : Text) : findCloser ch prev (c :: tail) =
    if c = ch && !isWhiteSpace prev && outside tail.head? then some ([], tail)
    else (findCloser ch c tail).map fun (inner, after) => (c :: inner, after) := rfl

theorem findCloser_spec {ch prev : Char} {rest inner after : Text}
    (h : findCloser ch prev rest = some (inner, after)) :
    rest = inner ++ ch :: after ∧ ∀ c, (prev :: inner).getLast? = some c → isWhiteSpace c = false := by
  induction rest generalizing prev inner with
  | nil => nomatch h
  | cons c tail ih =>
    unfold findCloser at h
    split at h
    . next hclose =>
      simp only [Option.some.injEq, Prod.mk.injEq] at h
      rcases h with ⟨rfl, rfl⟩
      simp only [Bool.and_eq_true, decide_eq_true_eq, Bool.not_eq_true'] at hclose
      rw [hclose.1.1]
      refine ⟨rfl, ?_⟩
      rintro _ ⟨⟩
      exact hclose.1.2
    . rcases Option.map_eq_some_iff.mp h with ⟨⟨inner', after'⟩, hfound, heq⟩
      simp only [Prod.mk.injEq] at heq
      rcases heq with ⟨rfl, rfl⟩
      rcases ih hfound with ⟨htail, hlast⟩
      rw [htail]
      refine ⟨rfl, ?_⟩
      intro c' hc'
      rw [List.getLast?_cons_cons] at hc'
      exact hlast c' hc'

/-- A closing marker is not found in a part that ends before another marker, at a boundary. -/
theorem findCloser_part {ch prev : Char} {part rest : Text} (hch : isBoundary ch = false)
    (hpart : ∀ c, part.getLast? = some c → isBoundary c = true)
    (h : findCloser ch prev (part ++ rest) = none) : findCloser ch prev part = none := by
  induction part generalizing prev with
  | nil => rfl
  | cons c part ih =>
    rw [List.cons_append, findCloser_cons] at h
    rw [findCloser_cons]
    split at h
    . contradiction
    . next hopen =>
      rw [Option.map_eq_none_iff] at h
      have hne : ¬ ((c = ch && !isWhiteSpace prev && outside part.head?) = true) := by
        cases part with
        | nil =>
          have hboundary := hpart c rfl
          have hother : c ≠ ch := by
            rintro rfl
            rw [hch] at hboundary
            contradiction
          simp [hother]
        | cons c' part => exact hopen
      rw [if_neg hne, Option.map_eq_none_iff]
      apply ih _ h
      intro c' hc'
      apply hpart c'
      rw [List.getLast?_cons, hc', Option.getD_some]

theorem spanAt_spec {prev : Option Char} {ch : Char} {rest : Text} {split : Split}
    (h : spanAt prev ch rest = some split) :
    split.before = [] ∧ outside prev = true ∧ ch = split.fmt.marker ∧
      rest = split.inner ++ ch :: split.after ∧ Trimmed split.inner := by
  unfold spanAt at h
  split at h
  . contradiction
  . next fmt hfmt =>
    split at h
    . next hopen =>
      rcases Option.map_eq_some_iff.mp h with ⟨⟨inner, after⟩, hfound, rfl⟩
      rcases findCloser_spec hfound with ⟨hrest, hlast⟩
      simp only [Bool.and_eq_true] at hopen
      refine ⟨rfl, hopen.1, (formatOf_marker hfmt).symm, hrest, ?_, ?_⟩
      . intro c hc
        have hhead : rest.head? = some c := by
          rw [hrest, List.head?_append]
          dsimp only at hc
          rw [hc, Option.some_or]
        have hinside := hopen.2
        rw [hhead] at hinside
        simpa using hinside
      . intro c hc
        apply hlast c
        rw [List.getLast?_cons]
        dsimp only at hc
        rw [hc, Option.getD_some]
    . contradiction

theorem splitFrom_cons (prev : Option Char) (ch : Char) (rest : Text) : splitFrom prev (ch :: rest) =
    match spanAt prev ch rest with
    | some split => some split
    | none => (splitFrom (some ch) rest).map fun split => { split with before := ch :: split.before } := rfl

/-- What is before the span, the span and what is after it are the text. -/
theorem splitFrom_spec {prev : Option Char} {input : Text} {split : Split} (h : splitFrom prev input = some split) :
    input = split.before ++ split.fmt.marker :: split.inner ++ split.fmt.marker :: split.after ∧
      Trimmed split.inner ∧ outside (split.before.getLast?.or prev) = true := by
  induction input generalizing prev split with
  | nil => nomatch h
  | cons ch rest ih =>
    rw [splitFrom_cons] at h
    split at h
    . next found hfound =>
      simp only [Option.some.injEq] at h
      subst h
      rcases spanAt_spec hfound with ⟨hbefore, houtside, hmarker, hrest, htrimmed⟩
      rw [hbefore, ← hmarker, hrest]
      exact ⟨rfl, htrimmed, houtside⟩
    . rcases Option.map_eq_some_iff.mp h with ⟨found, hfound, rfl⟩
      rcases ih hfound with ⟨hrest, htrimmed, houtside⟩
      refine ⟨?_, htrimmed, ?_⟩
      . rw [hrest]
        simp
      . rw [List.getLast?_cons]
        cases hlast : found.before.getLast? with
        | none =>
          rw [hlast, Option.none_or] at houtside
          exact houtside
        | some c =>
          rw [hlast, Option.some_or] at houtside
          exact houtside

/-- There is no span in what is before the first one. -/
theorem splitFrom_before {prev : Option Char} {input : Text} {split : Split} (h : splitFrom prev input = some split) :
    splitFrom prev split.before = none := by
  induction input generalizing prev split with
  | nil => nomatch h
  | cons ch rest ih =>
    rw [splitFrom_cons] at h
    split at h
    . next found hfound =>
      simp only [Option.some.injEq] at h
      rw [← h, (spanAt_spec hfound).1]
      rfl
    . next hnone =>
      rcases Option.map_eq_some_iff.mp h with ⟨found, hfound, rfl⟩
      rcases splitFrom_spec hfound with ⟨hrest, _, houtside⟩
      have hspan : spanAt prev ch found.before = none := by
        unfold spanAt at hnone ⊢
        cases hfmt : formatOf ch with
        | none => rfl
        | some fmt =>
          rw [hfmt] at hnone
          dsimp only at hnone ⊢
          cases hbefore : found.before with
          | nil => exact if_neg (by simp)
          | cons c before =>
            have hpart : ∀ c, found.before.getLast? = some c → isBoundary c = true := by
              intro c hc
              rw [hc, Option.some_or] at houtside
              exact houtside
            rw [hrest, List.append_assoc, hbefore] at hnone
            rw [hbefore] at hpart
            by_cases hopen : (outside prev && (c :: before).head?.any fun inside => !isWhiteSpace inside) = true
            . rw [if_pos hopen, Option.map_eq_none_iff]
              rw [List.cons_append, List.head?_cons, ← List.head?_cons (a := c) (l := before), if_pos hopen,
                Option.map_eq_none_iff] at hnone
              exact findCloser_part (not_boundary_of_format hfmt) hpart hnone
            . exact if_neg hopen
      rw [splitFrom_cons, hspan, ih hfound]
      rfl

theorem splitFirstFormat_spec {input : Text} {split : Split} (h : splitFirstFormat input = some split) :
    input = split.before ++ split.fmt.marker :: split.inner ++ split.fmt.marker :: split.after ∧
      Trimmed split.inner ∧ splitFirstFormat split.before = none :=
  ⟨(splitFrom_spec h).1, (splitFrom_spec h).2.1, splitFrom_before h⟩

end Spans

section Parsing

def MAX_FORMAT_DEPTH : Nat := 20

theorem length_after_lt {rest : Text} {split : Split} (h : splitFirstFormat rest = some split) :
    split.after.length < rest.length := by
  rw [(splitFirstFormat_spec h).1]
  simp only [List.length_append, List.length_cons]
  omega

/-- The segments of one level; `children` parses the inside of a span. -/
def formatLoop (children : Text → List MessageNode) (rest : Text) : List MessageNode :=
  if rest.isEmpty then []
  else
    match _h : splitFirstFormat rest with
    | none => [.text rest]
    | some split =>
      (if split.before.isEmpty then [] else [.text split.before]) ++
        .format split.fmt (children split.inner) :: formatLoop children split.after
termination_by rest.length
decreasing_by exact length_after_lt _h

/-- `left` is the number of levels that are honoured yet, `MAX_FORMAT_DEPTH - depth`. -/
def parseFormatting (left : Nat) (input : Text) : List MessageNode :=
  match left with
  | 0 => if input.isEmpty then [] else [.text input]
  | left + 1 => formatLoop (parseFormatting left) input

def backtick : Char := '\x60'

def fence : Text := [backtick, backtick, backtick]

/-- `s.indexOf(part)` -/
def indexOf (part s : Text) : Option Nat :=
  if part.isPrefixOf s then some 0
  else
    match s with
    | [] => none
    | _ :: s => (indexOf part s).map (· + 1)

/-- The next single one from the start of `s` on, before which `prev` stands. -/
def findSingleBacktick (prev : Option Char) (s : Text) : Option Nat :=
  match s with
  | [] => none
  | [c] => if c = backtick then some 0 else none
  | c :: d :: rest =>
    if c = backtick then
      if fence.isPrefixOf (c :: d :: rest) then
        (findSingleBacktick (some backtick) (rest.drop 1)).map (· + 3)
      -- the middle of a fence
      else if prev = some backtick && d = backtick then (findSingleBacktick (some d) rest).map (· + 2)
      else some 0
    else (findSingleBacktick (some c) (d :: rest)).map (· + 1)
termination_by s.length
decreasing_by all_goals
  simp only [List.length_drop, List.length_cons]
  omega

inductive CodeKind where
  | triple
  | single

def CodeKind.mark (kind : CodeKind) : Text :=
  match kind with
  | .triple => fence
  | .single => [backtick]

def CodeKind.node (kind : CodeKind) (value : Text) : MessageNode :=
  match kind with
  | .triple => .codeblock value
  | .single => .code value

/-- The longer marker wins where they start together. -/
def nextCode (prev : Option Char) (rest : Text) : Option (CodeKind × Nat) :=
  match indexOf fence rest, findSingleBacktick prev rest with
  | some triple, some single => if single < triple then some (.single, single) else some (.triple, triple)
  | some triple, none => some (.triple, triple)
  | none, some single => some (.single, single)
  | none, none => none

theorem length_drop_lt {rest : Text} (h : ¬ rest.isEmpty = true) (kind : CodeKind) (next close : Nat) :
    ((rest.drop (next + kind.mark.length)).drop (close + kind.mark.length)).length < rest.length := by
  have hpos : 0 < rest.length := List.length_pos_of_ne_nil fun hnil => h (by rw [hnil]; rfl)
  have hmark : 0 < kind.mark.length := by cases kind <;> decide
  rw [List.length_drop, List.length_drop]
  omega

/-- The loop from a cursor on: `rest` is what is to be read, `prev` the character before. -/
def codeLoop (prev : Option Char) (rest : Text) : List MessageNode :=
  if rest.isEmpty then []
  else
    match nextCode prev rest with
    | none => parseFormatting MAX_FORMAT_DEPTH rest
    | some (kind, next) =>
      match indexOf kind.mark (rest.drop (next + kind.mark.length)) with
      | none => parseFormatting MAX_FORMAT_DEPTH rest
      | some close =>
        let body := rest.drop (next + kind.mark.length)
        parseFormatting MAX_FORMAT_DEPTH (rest.take next) ++
          kind.node (body.take close) :: codeLoop (some backtick) (body.drop (close + kind.mark.length))
termination_by rest.length
decreasing_by exact length_drop_lt ‹_› kind next close

def parseMessageBody (input : Text) : List MessageNode := codeLoop none input

end Parsing

section Writing

mutual

/-- A node with its markers. -/
def MessageNode.write (node : MessageNode) : Text :=
  match node with
  | .text value => value
  | .format fmt children => fmt.marker :: writeAll children ++ [fmt.marker]
  | .code value => backtick :: value ++ [backtick]
  | .codeblock value => fence ++ value ++ fence

def writeAll (nodes : List MessageNode) : Text :=
  match nodes with
  | [] => []
  | node :: nodes => node.write ++ writeAll nodes

end

theorem writeAll_append (nodes nodes' : List MessageNode) :
    writeAll (nodes ++ nodes') = writeAll nodes ++ writeAll nodes' := by
  induction nodes with
  | nil => rfl
  | cons node nodes ih => rw [List.cons_append, writeAll, writeAll, ih, List.append_assoc]

theorem writeAll_text (value : Text) :
    writeAll (if value.isEmpty then [] else [.text value]) = value := by
  cases value <;> simp [writeAll, MessageNode.write]

theorem writeAll_cons (node : MessageNode) (nodes : List MessageNode) :
    writeAll (node :: nodes) = node.write ++ writeAll nodes := by rw [writeAll]

theorem write_format (fmt : Format) (children : List MessageNode) :
    (MessageNode.format fmt children).write = fmt.marker :: writeAll children ++ [fmt.marker] := by
  rw [MessageNode.write]

theorem write_codeNode (kind : CodeKind) (value : Text) :
    (kind.node value).write = kind.mark ++ value ++ kind.mark := by
  cases kind <;> simp [CodeKind.node, CodeKind.mark, MessageNode.write]

theorem writeAll_formatLoop {children : Text → List MessageNode} (h : ∀ inner, writeAll (children inner) = inner)
    (rest : Text) : writeAll (formatLoop children rest) = rest := by
  fun_induction formatLoop children rest with
  | case1 rest hempty =>
    rw [List.isEmpty_iff.mp hempty]
    rfl
  | case2 rest hempty hnone => simp [writeAll, MessageNode.write]
  | case3 rest hempty split hsplit ih =>
    rw [writeAll_append, writeAll_text, writeAll_cons, write_format, h, ih]
    conv_rhs => rw [(splitFirstFormat_spec hsplit).1]
    simp

theorem writeAll_parseFormatting (left : Nat) (input : Text) : writeAll (parseFormatting left input) = input := by
  induction left generalizing input with
  | zero =>
    unfold parseFormatting
    exact writeAll_text input
  | succ left ih =>
    unfold parseFormatting
    exact writeAll_formatLoop ih input

theorem indexOf_spec {part s : Text} {k : Nat} (h : indexOf part s = some k) :
    s = s.take k ++ part ++ s.drop (k + part.length) := by
  induction s generalizing k with
  | nil =>
    unfold indexOf at h
    split at h
    . next hstart =>
      rw [List.isPrefixOf_iff_prefix, List.prefix_nil] at hstart
      simp [hstart]
    . contradiction
  | cons c s ih =>
    unfold indexOf at h
    split at h
    . next hstart =>
      rcases List.isPrefixOf_iff_prefix.mp hstart with ⟨after, hafter⟩
      rw [← Option.some.inj h, ← hafter]
      simp
    . rcases Option.map_eq_some_iff.mp h with ⟨k', hfound, rfl⟩
      have hs := ih hfound
      rw [Nat.add_right_comm, List.take_succ_cons, List.drop_succ_cons, List.cons_append, List.cons_append, ← hs]

theorem findSingleBacktick_spec {prev : Option Char} {s : Text} {k : Nat} (h : findSingleBacktick prev s = some k) :
    s[k]? = some backtick := by
  fun_induction findSingleBacktick prev s generalizing k with
  | case1 prev => nomatch h
  | case2 prev =>
    rw [← Option.some.inj h]
    rfl
  | case3 prev c hc => nomatch h
  | case4 prev d rest hfence ih =>
    rcases Option.map_eq_some_iff.mp h with ⟨k, hfound, rfl⟩
    have hat := ih hfound
    rw [List.getElem?_drop, Nat.add_comm] at hat
    exact hat
  | case5 prev d rest hmiddle hfence ih =>
    rcases Option.map_eq_some_iff.mp h with ⟨k, hfound, rfl⟩
    exact ih hfound
  | case6 prev d rest hmiddle hfence =>
    rw [← Option.some.inj h]
    rfl
  | case7 prev c d rest hc ih =>
    rcases Option.map_eq_some_iff.mp h with ⟨k, hfound, rfl⟩
    exact ih hfound

theorem nextCode_spec {prev : Option Char} {rest : Text} {kind : CodeKind} {next : Nat}
    (h : nextCode prev rest = some (kind, next)) :
    rest = rest.take next ++ kind.mark ++ rest.drop (next + kind.mark.length) := by
  have hsingle : ∀ single, findSingleBacktick prev rest = some single →
      rest = rest.take single ++ [backtick] ++ rest.drop (single + 1) := by
    intro single hfound
    rcases List.getElem?_eq_some_iff.mp (findSingleBacktick_spec hfound) with ⟨hlt, hat⟩
    rw [← hat, List.append_assoc, List.singleton_append, List.getElem_cons_drop, List.take_append_drop]
  unfold nextCode at h
  split at h
  . next triple single htriple hfound =>
    split at h
    . rcases h with ⟨⟩
      exact hsingle _ hfound
    . rcases h with ⟨⟩
      exact indexOf_spec htriple
  . next triple htriple _ =>
    rcases h with ⟨⟩
    exact indexOf_spec htriple
  . next single _ hfound =>
    rcases h with ⟨⟩
    exact hsingle _ hfound
  . contradiction

theorem writeAll_codeLoop (prev : Option Char) (rest : Text) : writeAll (codeLoop prev rest) = rest := by
  fun_induction codeLoop prev rest with
  | case1 prev rest hempty =>
    rw [List.isEmpty_iff.mp hempty]
    rfl
  | case2 prev rest hempty hnone => exact writeAll_parseFormatting _ rest
  | case3 prev rest hempty kind next hnext hclose => exact writeAll_parseFormatting _ rest
  | case4 prev rest hempty kind next hnext close hclose body ih =>
    rw [writeAll_append, writeAll_parseFormatting, writeAll_cons, write_codeNode, ih]
    conv_rhs => rw [nextCode_spec hnext]
    rw [List.append_assoc, List.append_assoc, List.append_assoc, ← List.append_assoc (body.take close),
      ← indexOf_spec hclose]

end Writing

section Nesting

/-- `node` is in the list, `depth` levels down. -/
def Occurs (nodes : List MessageNode) (depth : Nat) (node : MessageNode) : Prop :=
  match depth with
  | 0 => node ∈ nodes
  | depth + 1 => ∃ fmt children, .format fmt children ∈ nodes ∧ Occurs children depth node

theorem mem_formatLoop {children : Text → List MessageNode} {rest : Text} {node : MessageNode}
    (h : node ∈ formatLoop children rest) :
    (∃ value, node = .text value ∧ splitFirstFormat value = none) ∨
      ∃ fmt inner, node = .format fmt (children inner) ∧ Trimmed inner := by
  fun_induction formatLoop children rest with
  | case1 rest hempty => nomatch h
  | case2 rest hempty hnone => exact .inl ⟨rest, List.mem_singleton.mp h, hnone⟩
  | case3 rest hempty split hsplit ih =>
    rcases splitFirstFormat_spec hsplit with ⟨_, htrimmed, hbefore⟩
    rcases List.mem_append.mp h with h | h
    . split at h
      . nomatch h
      . exact .inl ⟨split.before, List.mem_singleton.mp h, hbefore⟩
    . rcases List.mem_cons.mp h with rfl | h
      . exact .inr ⟨split.fmt, split.inner, rfl, htrimmed⟩
      . exact ih h

/-- A node at a level is a text without a span, unless no level is left, or a trimmed span that was parsed again. -/
theorem occurs_parseFormatting {left depth : Nat} {input : Text} {node : MessageNode}
    (h : Occurs (parseFormatting left input) depth node) :
    (∃ value, node = .text value ∧ (depth < left → splitFirstFormat value = none)) ∨
      ∃ fmt inner, node = .format fmt (parseFormatting (left - 1 - depth) inner) ∧ depth < left ∧ Trimmed inner := by
  induction left generalizing depth input with
  | zero =>
    unfold parseFormatting at h
    cases depth with
    | zero =>
      unfold Occurs at h
      split at h
      . nomatch h
      . exact .inl ⟨input, List.mem_singleton.mp h, nofun⟩
    | succ depth =>
      rcases h with ⟨fmt, children, hmem, _⟩
      split at hmem
      . nomatch hmem
      . nomatch List.mem_singleton.mp hmem
  | succ left ih =>
    unfold parseFormatting at h
    cases depth with
    | zero =>
      rcases mem_formatLoop h with ⟨value, hnode, hnone⟩ | ⟨fmt, inner, hnode, htrimmed⟩
      . exact .inl ⟨value, hnode, fun _ => hnone⟩
      . exact .inr ⟨fmt, inner, hnode, Nat.succ_pos left, htrimmed⟩
    | succ depth =>
      rcases h with ⟨fmt, children, hmem, hinside⟩
      rcases mem_formatLoop hmem with ⟨value, hnode, _⟩ | ⟨fmt', inner, hnode, _⟩
      . nomatch hnode
      . rcases hnode with ⟨⟩
        rcases ih hinside with ⟨value, hnode, hnone⟩ | ⟨fmt', inner', hnode, hlt, htrimmed⟩
        . exact .inl ⟨value, hnode, fun hlt => hnone (Nat.lt_of_succ_lt_succ hlt)⟩
        . refine .inr ⟨fmt', inner', ?_, Nat.succ_lt_succ hlt, htrimmed⟩
          rw [hnode, show left + 1 - 1 - (depth + 1) = left - 1 - depth by omega]

theorem mem_codeLoop {prev : Option Char} {rest : Text} {node : MessageNode} (h : node ∈ codeLoop prev rest) :
    (∃ input, node ∈ parseFormatting MAX_FORMAT_DEPTH input) ∨ ∃ kind value, node = CodeKind.node kind value := by
  fun_induction codeLoop prev rest with
  | case1 prev rest hempty => nomatch h
  | case2 prev rest hempty hnone => exact .inl ⟨rest, h⟩
  | case3 prev rest hempty kind next hnext hclose => exact .inl ⟨rest, h⟩
  | case4 prev rest hempty kind next hnext close hclose body ih =>
    rcases List.mem_append.mp h with h | h
    . exact .inl ⟨_, h⟩
    . rcases List.mem_cons.mp h with rfl | h
      . exact .inr ⟨kind, _, rfl⟩
      . exact ih h

theorem occurs_codeLoop {prev : Option Char} {rest : Text} {depth : Nat} {node : MessageNode}
    (h : Occurs (codeLoop prev rest) depth node) :
    (∃ input, Occurs (parseFormatting MAX_FORMAT_DEPTH input) depth node) ∨
      ∃ kind value, node = CodeKind.node kind value := by
  cases depth with
  | zero => exact mem_codeLoop h
  | succ depth =>
    rcases h with ⟨fmt, children, hmem, hinside⟩
    rcases mem_codeLoop hmem with ⟨input, hmem⟩ | ⟨kind, value, hnode⟩
    . exact .inl ⟨input, fmt, children, hmem, hinside⟩
    . cases kind <;> nomatch hnode

theorem parseMessageBody_lossless (input : Text) :
    writeAll (parseMessageBody input) = input ∧
      (∀ depth fmt children, Occurs (parseMessageBody input) depth (.format fmt children) →
        depth < MAX_FORMAT_DEPTH ∧ Trimmed (writeAll children)) ∧
      ∀ depth value, Occurs (parseMessageBody input) depth (.text value) → depth < MAX_FORMAT_DEPTH →
        splitFirstFormat value = none := by
  refine ⟨writeAll_codeLoop none input, ?_, ?_⟩
  . intro depth fmt children h
    rcases occurs_codeLoop h with ⟨segment, h⟩ | ⟨kind, value, hnode⟩
    . rcases occurs_parseFormatting h with ⟨value, hnode, _⟩ | ⟨fmt', inner, hnode, hlt, htrimmed⟩
      . nomatch hnode
      . rcases hnode with ⟨⟩
        rw [writeAll_parseFormatting]
        exact ⟨hlt, htrimmed⟩
    . cases kind <;> nomatch hnode
  . intro depth value h hlt
    rcases occurs_codeLoop h with ⟨segment, h⟩ | ⟨kind, value', hnode⟩
    . rcases occurs_parseFormatting h with ⟨value', hnode, hnone⟩ | ⟨fmt, inner, hnode, _⟩
      . rcases hnode with ⟨⟩
        exact hnone hlt
      . nomatch hnode
    . cases kind <;> nomatch hnode

end Nesting

end OpenWA.Dashboard
