import OpenWA.Config.SaveConfig

/-!
This module contains the round trip of the generated configuration through its file: what `dotenv`
documents of the lines a save writes, which values come back unchanged, and what any number of saves
leaves of the others.
-/

namespace OpenWA.Config

open Js

section Reading

def isQuote (c : Char) : Bool := c ∈ ['\'', '"', '\x60']

def isLineSeparator (c : Char) : Bool := c = '\u2028' || c = '\u2029'

/-- A character of a key, `[\w.-]`. -/
def isKeyChar (c : Char) : Bool := c.isAlphanum || c ∈ ['_', '.', '-']

def isKey (key : Text) : Bool := !key.isEmpty && key.all isKeyChar

/-- `value.replace(/\\c/g, ch)`, for a letter `c`. -/
def expandEscape (c ch : Char) (value : Text) : Text :=
  match value with
  | '\\' :: x :: rest =>
    if x = c then ch :: expandEscape c ch rest else '\\' :: expandEscape c ch (x :: rest)
  | x :: rest => x :: expandEscape c ch rest
  | [] => []

/-- The quote and the body of a value whose quotation ends where the value ends. -/
def quotedBody (value : Text) : Option (Char × Text) :=
  match value with
  | q :: rest =>
    let body := rest.dropLast
    if isQuote q && rest.getLast? = some q && q ∉ body && body.getLast? ≠ some '\\' then some (q, body)
    else none
  | [] => none

/-- A value that begins with a quote. -/
def readQuoted (value : Text) : Option Text :=
  (quotedBody value).map fun (q, body) =>
    if q = '"' then expandEscape 'r' '\r' (expandEscape 'n' '\n' body) else body

/-- Other values end at a comment and are trimmed. -/
def readUnquoted (value : Text) : Option Text :=
  if value.any isLineSeparator && value.any (fun c => isQuote c || c = '#') then none
  else some (trim (value.takeWhile (· ≠ '#')))

/-- What is documented to be read for the raw value of an assignment on one line, if anything is. -/
def readValue (value : Text) : Option Text :=
  if value.any isLineBreak then none
  else if (trimStart value).head?.any isQuote then readQuoted value
  else readUnquoted value

/-- The rest of a file is at its end or begins with a key. -/
def startsAssignment (rest : Text) : Prop := ∀ c ∈ rest.head?, isKeyChar c = true

/-- The third-party parser, with what it documents of comments, blank lines and assignments. -/
structure Dotenv where
  parse : Text → Record
  keys : ∀ text, ∀ entry ∈ parse text, isKey entry.1 = true
  empty : parse [] = []
  blank : ∀ rest, parse ('\n' :: rest) = parse rest
  comment : ∀ text rest, (∀ c ∈ text, c ∉ ['\n', '\r', '\u2028', '\u2029']) →
    parse ('#' :: text ++ '\n' :: rest) = parse rest
  assignment : ∀ key value rest read, isKey key = true → readValue value = some read →
    startsAssignment rest → ∀ x, (parse (key ++ '=' :: value ++ '\n' :: rest)).lookup x =
      ((parse rest).lookup x).or (if x = key then some read else none)

end Reading

section Plain

/-- A value that a raw assignment brings back. -/
structure Plain (value : Text) : Prop where
  oneLine : value.any isLineBreak = false
  noComment : '#' ∉ value
  trimmed : trim value = value
  unquoted : ∀ q ∈ value.head?, isQuote q = false
  separators : value.any isLineSeparator = true → value.any isQuote = false

theorem length_trimEnd_le (t : Text) : (trimEnd t).length ≤ t.length :=
  (List.rdropWhile_prefix _ t).length_le

theorem length_trim_le (t : Text) : (trim t).length ≤ (trimStart t).length := length_trimEnd_le _

theorem trimStart_of_trim {t : Text} (h : trim t = t) : trimStart t = t := by
  have hsuffix : trimStart t <:+ t := List.dropWhile_suffix _
  apply hsuffix.eq_of_length
  apply Nat.le_antisymm hsuffix.length_le
  calc t.length = (trim t).length := by rw [h]
    _ ≤ (trimStart t).length := length_trim_le t

theorem length_expandEscape_le (c ch : Char) (value : Text) :
    (expandEscape c ch value).length ≤ value.length := by
  fun_induction expandEscape c ch value with
  | case1 rest ih => simp only [List.length_cons]; omega
  | case2 x rest _ ih => simp only [List.length_cons] at ih ⊢; omega
  | case3 x rest _ ih => simp only [List.length_cons]; omega
  | case4 => simp

theorem length_quotedBody_lt {value body : Text} {q : Char} (h : quotedBody value = some (q, body)) :
    body.length < value.length := by
  unfold quotedBody at h
  split at h
  . next q' rest =>
    dsimp only at h
    split at h
    . simp only [Option.some.injEq, Prod.mk.injEq] at h
      rw [← h.2, List.length_dropLast, List.length_cons]
      omega
    . contradiction
  . contradiction

theorem length_readQuoted_lt {value read : Text} (h : readQuoted value = some read) :
    read.length < value.length := by
  unfold readQuoted at h
  rw [Option.map_eq_some_iff] at h
  rcases h with ⟨⟨q, body⟩, hbody, hread⟩
  apply Nat.lt_of_le_of_lt _ (length_quotedBody_lt hbody)
  dsimp only at hread
  split at hread
  . rw [← hread]
    exact Nat.le_trans (length_expandEscape_le _ _ _) (length_expandEscape_le _ _ _)
  . rw [hread]

theorem readValue_of_plain {value : Text} (h : Plain value) : readValue value = some value := by
  have hstart : (trimStart value).head?.any isQuote = false := by
    rw [trimStart_of_trim h.trimmed]
    cases hhead : value.head? with
    | none => rfl
    | some q => simpa using h.unquoted q hhead
  have hcut : value.takeWhile (· ≠ '#') = value := by
    rw [List.takeWhile_eq_self_iff]
    intro c hc
    simp only [ne_eq, decide_eq_true_eq]
    rintro rfl
    exact h.noComment hc
  have hseparators :
      (value.any isLineSeparator && value.any fun c => isQuote c || c = '#') = false := by
    cases hsep : value.any isLineSeparator with
    | false => rfl
    | true =>
      have hquote := h.separators hsep
      simp only [List.any_eq_false] at hquote
      simp only [Bool.true_and, List.any_eq_false, Bool.or_eq_true, decide_eq_true_eq, not_or]
      intro c hc
      exact ⟨by simpa using hquote c hc, fun heq => h.noComment (heq ▸ hc)⟩
  unfold readValue readUnquoted
  simp only [h.oneLine, hstart, hseparators, hcut, h.trimmed]
  rfl

/-- The values that are documented to come back are the plain ones. -/
theorem plain_of_readValue {value : Text} (h : readValue value = some value) : Plain value := by
  unfold readValue at h
  split at h
  . contradiction
  . next hline =>
    split at h
    . exact absurd (length_readQuoted_lt h) (Nat.lt_irrefl _)
    . next hquote =>
      unfold readUnquoted at h
      split at h
      . contradiction
      . next hsep =>
        simp only [Option.some.injEq] at h
        have hprefix : value.takeWhile (· ≠ '#') <+: value := List.takeWhile_prefix _
        have hcut : value.takeWhile (· ≠ '#') = value := by
          apply hprefix.eq_of_length
          apply Nat.le_antisymm hprefix.length_le
          calc value.length = (trim (value.takeWhile (· ≠ '#'))).length := by rw [h]
            _ ≤ (trimStart (value.takeWhile (· ≠ '#'))).length := length_trim_le _
            _ ≤ (value.takeWhile (· ≠ '#')).length := (List.dropWhile_suffix _).length_le
        rw [hcut] at h
        have hnoComment : '#' ∉ value := by
          intro hmem
          have := List.takeWhile_eq_self_iff.mp hcut '#' hmem
          simp at this
        refine ⟨by simpa using hline, hnoComment, h, ?_, ?_⟩
        . intro q hq
          rw [trimStart_of_trim h, Option.mem_def.mp hq] at hquote
          simpa using hquote
        . intro hsome
          simp only [hsome, Bool.true_and, Bool.not_eq_true, List.any_eq_false, Bool.or_eq_true,
            not_or] at hsep
          rw [List.any_eq_false]
          intro c hc
          simpa using (hsep c hc).1

end Plain

section Records

variable {κ : Type} [BEq κ] [LawfulBEq κ] [DecidableEq κ]

theorem lookup_assign (record : List (κ × Text)) (key : κ) (value : Text)
    (x : κ) :
    (assign record key value).lookup x = if x = key then some value else record.lookup x := by
  unfold assign
  split
  . next hsome =>
    induction record with
    | nil => simp at hsome
    | cons entry record ih =>
      rcases entry with ⟨k, v⟩
      by_cases hk : k = key
      . subst hk
        by_cases hx : x = k
        . simp [hx]
        . have hne : (x == k) = false := by simpa using hx
          simp only [List.map_cons, if_true, List.lookup_cons, hne, if_neg hx]
          by_cases hrest : (record.lookup k).isSome = true
          . rw [ih hrest, if_neg hx]
          . have hmap : record.map (fun entry => if entry.1 = k then (k, value) else entry) = record := by
              conv_rhs => rw [← List.map_id record]
              apply List.map_congr_left
              intro entry hentry
              rw [lookup_isSome_iff] at hrest
              simp [show ¬entry.1 = k from fun heq => hrest (heq ▸ List.mem_map_of_mem hentry)]
            rw [hmap]
      . have hkey : (key == k) = false := by simpa using Ne.symm hk
        have hrest : (record.lookup key).isSome = true := by
          rwa [List.lookup_cons, hkey] at hsome
        simp only [List.map_cons, if_neg hk, List.lookup_cons]
        by_cases hx : x = k
        . have hne : ¬k = key := hk
          simp [hx, hne]
        . have hne : (x == k) = false := by simpa using hx
          rw [hne]
          exact ih hrest
  . next hnone =>
    rw [List.lookup_append]
    by_cases hx : x = key
    . subst hx
      simp only [Bool.not_eq_true, Option.isSome_eq_false_iff, Option.isNone_iff_eq_none] at hnone
      simp [hnone]
    . have hne : (x == key) = false := by simpa using hx
      simp [List.lookup_cons, hne, hx]

theorem lookup_filter_key (record : List (κ × Text)) (p : κ → Bool) (x : κ) :
    (record.filter fun entry => p entry.1).lookup x = if p x then record.lookup x else none := by
  induction record with
  | nil => simp
  | cons entry record ih =>
    rcases entry with ⟨k, v⟩
    rw [List.filter_cons]
    by_cases hx : x = k
    . subst hx
      cases hp : p x with
      | true => simp
      | false => simp [ih, hp]
    . have hne : (x == k) = false := by simpa using hx
      cases hp : p k with
      | true => simp [List.lookup_cons, hne, ih]
      | false => simp [List.lookup_cons, hne, ih]

theorem isKey_ofList {cs : Text} (h : isKey cs = true) : isKey (String.ofList cs).toList = true := by
  rw [String.toList_ofList]
  exact h

theorem isKey_name (key : EnvKey) : isKey key.name = true := by
  cases key <;> exact isKey_ofList (by decide)

def envKeys : List EnvKey :=
  [.databaseType, .postgresBuiltin, .databaseHost, .databasePort, .databaseUsername,
    .databasePassword, .databaseName, .postgresSchema, .databasePoolSize, .databaseSsl,
    .databaseSslRejectUnauthorized, .redisEnabled, .redisBuiltin, .redisHost, .redisPort,
    .redisPassword, .queueEnabled, .storageType, .minioBuiltin, .storageLocalPath, .s3Endpoint,
    .s3AccessKeyId, .s3SecretAccessKey, .s3Bucket, .s3Region, .engineType, .puppeteerHeadless,
    .sessionDataPath, .puppeteerArgs]

theorem mem_envKeys (key : EnvKey) : key ∈ envKeys := by
  cases key <;> decide

/-- The sum of the code points, which tells the names apart without comparing their characters. -/
def fingerprint (t : Text) : Nat := (t.map Char.toNat).sum

theorem fingerprint_ofList {cs : Text} {n : Nat} (h : fingerprint cs = n) :
    fingerprint (String.ofList cs).toList = n := by
  rw [String.toList_ofList]
  exact h

theorem fingerprint_envKeys : envKeys.map (fun key => fingerprint key.name) =
    [982, 1261, 978, 985, 1268, 1287, 949, 1159, 1384, 902, 2467, 961, 1005, 788, 795, 1097, 975, 950,
      1010, 1387, 838, 1227, 1540, 675, 681, 855, 1378, 1321, 1094] := by
  repeat' first
    | refine congrArg₂ List.cons (fingerprint_ofList (by decide)) ?_
    | rfl

theorem name_injective {key key' : EnvKey} (h : key.name = key'.name) : key = key' := by
  have hnodup : (envKeys.map fun key => fingerprint key.name).Nodup := by
    rw [fingerprint_envKeys]
    decide
  exact List.inj_on_of_nodup_map hnodup (mem_envKeys key) (mem_envKeys key') (congrArg fingerprint h)

/-- The key of a name. -/
def keyOfName (name : Text) : Option EnvKey := envKeys.find? (·.name = name)

theorem name_of_keyOfName {name : Text} {key : EnvKey} (h : keyOfName name = some key) :
    key.name = name := by
  simpa using List.find?_some h

theorem keyOfName_name (key : EnvKey) : keyOfName key.name = some key := by
  cases hfound : keyOfName key.name with
  | none =>
    have hnone := List.find?_eq_none.mp hfound key (mem_envKeys key)
    simp at hnone
  | some key' => rw [name_injective (name_of_keyOfName hfound)]

section Merge

theorem lookup_updates {updates : List (EnvKey × Text)} (hunique : (updates.map (·.1)).Nodup)
    (existing : Record) (x : Text) :
    (updates.foldl (fun m entry => assign m entry.1.name entry.2) existing).lookup x =
      ((keyOfName x).bind fun key => updates.lookup key).or (existing.lookup x) := by
  induction updates generalizing existing with
  | nil => simp
  | cons entry updates ih =>
    rcases entry with ⟨key, value⟩
    rw [List.map_cons, List.nodup_cons] at hunique
    rw [List.foldl_cons, ih hunique.2, lookup_assign]
    by_cases hx : x = key.name
    . have hnone : updates.lookup key = none := by
        rw [← Option.isNone_iff_eq_none, ← Option.isSome_eq_false_iff, Bool.eq_false_iff]
        intro hsome
        exact hunique.1 (lookup_isSome_iff.mp hsome)
      simp [hx, keyOfName_name, hnone]
    . cases hkey : keyOfName x with
      | none => simp [hx]
      | some key' =>
        have hne : (key' == key) = false := by
          rw [beq_eq_false_iff_ne]
          rintro rfl
          exact hx (name_of_keyOfName hkey).symm
        simp [hx, List.lookup_cons, hne]

variable {existing : Record} {ctx : ConfigSectionContext}

theorem lookup_merge_submitted (hunique : (ctx.updates.map (·.1)).Nodup) {key : EnvKey} {value : Text}
    (hvalue : ctx.updates.lookup key = some value) (hstale : key ∉ ctx.staleKeys) :
    (mergeWithExisting existing ctx).lookup key.name = some value := by
  have hkept : key.name ∉ ctx.staleKeys.map EnvKey.name := by
    intro hmem
    rcases List.mem_map.mp hmem with ⟨key', hkey', hname⟩
    exact hstale (name_injective hname ▸ hkey')
  unfold mergeWithExisting
  dsimp only
  rw [lookup_filter_key _ (fun k => k ∉ ctx.staleKeys.map EnvKey.name), lookup_updates hunique,
    keyOfName_name, if_pos (by simpa using hkept)]
  simp [hvalue]

theorem lookup_merge_untouched (hunique : (ctx.updates.map (·.1)).Nodup) {x : Text}
    (hupdates : ∀ key : EnvKey, key.name = x → key ∉ ctx.updates.map (·.1))
    (hstale : x ∉ ctx.staleKeys.map EnvKey.name) :
    (mergeWithExisting existing ctx).lookup x = existing.lookup x := by
  unfold mergeWithExisting
  dsimp only
  rw [lookup_filter_key _ (fun k => k ∉ ctx.staleKeys.map EnvKey.name), lookup_updates hunique,
    if_pos (by simpa using hstale)]
  cases hkey : keyOfName x with
  | none => simp
  | some key =>
    have hnone : ctx.updates.lookup key = none := by
      rw [← Option.isNone_iff_eq_none, ← Option.isSome_eq_false_iff, Bool.eq_false_iff]
      intro hsome
      exact hupdates key (name_of_keyOfName hkey) (lookup_isSome_iff.mp hsome)
    simp [hnone]

theorem key_of_merge (hunique : (ctx.updates.map (·.1)).Nodup) {x : Text}
    (h : ((mergeWithExisting existing ctx).lookup x).isSome = true) :
    (existing.lookup x).isSome = true ∨ ∃ key ∈ ctx.updates.map (·.1), key.name = x := by
  unfold mergeWithExisting at h
  dsimp only at h
  rw [lookup_filter_key _ (fun k => k ∉ ctx.staleKeys.map EnvKey.name), lookup_updates hunique] at h
  split at h
  . cases hkey : keyOfName x with
    | none =>
      rw [hkey, Option.bind_none, Option.none_or] at h
      exact .inl h
    | some key =>
      rw [hkey, Option.bind_some, Option.isSome_or, Bool.or_eq_true] at h
      rcases h with h | h
      . exact .inr ⟨key, lookup_isSome_iff.mp h, name_of_keyOfName hkey⟩
      . exact .inl h
  . contradiction

theorem isKey_merge (hexisting : ∀ entry ∈ existing, isKey entry.1 = true) :
    ∀ entry ∈ mergeWithExisting existing ctx, isKey entry.1 = true := by
  have hfold (updates : List (EnvKey × Text)) (record : Record)
      (hrecord : ∀ entry ∈ record, isKey entry.1 = true) :
      ∀ entry ∈ updates.foldl (fun m entry => assign m entry.1.name entry.2) record,
        isKey entry.1 = true := by
    induction updates generalizing record with
    | nil => exact hrecord
    | cons update updates ih =>
      apply ih
      intro entry hentry
      rcases mem_assign hentry with rfl | hold
      . exact isKey_name update.1
      . exact hrecord entry hold
  intro entry hentry
  exact hfold _ _ hexisting entry (List.mem_of_mem_filter hentry)

end Merge

end Records

section Rendering

/-- Lines that are each followed by a line feed. -/
def terminated (lines : List Text) : Text := lines.flatMap fun line => line ++ ['\n']

theorem joinLines_terminated (lines : List Text) : joinLines (lines ++ [[]]) = terminated lines := by
  induction lines with
  | nil => rfl
  | cons line lines ih =>
    have hcons : joinLines (line :: (lines ++ [[]])) = line ++ '\n' :: joinLines (lines ++ [[]]) := by
      unfold joinLines List.intercalate
      cases lines with
      | nil => simp
      | cons next lines => simp
    rw [List.cons_append, hcons, ih]
    simp [terminated]

variable (d : Dotenv)

theorem lookup_body (value read : Text → Text) {keys : List Text}
    (hkeys : ∀ key ∈ keys, isKey key = true)
    (hread : ∀ key ∈ keys, readValue (value key) = some (read key)) (x : Text) :
    (d.parse (terminated (keys.map fun key => key ++ '=' :: value key))).lookup x =
      if x ∈ keys then some (read x) else none := by
  induction keys with
  | nil => simp [terminated, d.empty]
  | cons key keys ih =>
    have hrest := ih (fun k hk => hkeys k (List.mem_cons_of_mem _ hk))
      (fun k hk => hread k (List.mem_cons_of_mem _ hk))
    have hstarts : startsAssignment (terminated (keys.map fun key => key ++ '=' :: value key)) := by
      cases keys with
      | nil => simp [startsAssignment, terminated]
      | cons next keys =>
        have hnext := hkeys next (by simp)
        intro c hc
        cases next with
        | nil => simp [isKey] at hnext
        | cons a next =>
          simp only [terminated, List.map_cons, List.flatMap_cons, List.cons_append, List.head?_cons,
            Option.mem_def, Option.some.injEq] at hc
          simp only [isKey, List.all_cons, Bool.and_eq_true] at hnext
          exact hc ▸ hnext.2.1
    have hline : terminated ((key :: keys).map fun key => key ++ '=' :: value key) =
        key ++ '=' :: value key ++ '\n' :: terminated (keys.map fun key => key ++ '=' :: value key) := by
      simp [terminated]
    rw [hline, d.assignment key (value key) _ (read key) (hkeys key List.mem_cons_self)
      (hread key List.mem_cons_self) hstarts, hrest]
    by_cases hx : x ∈ keys
    . simp [hx]
    . by_cases hkey : x = key
      . subst hkey
        simp [hx]
      . simp [hx, hkey]

end Rendering

section Saves

variable (d : Dotenv)

/-- The save answers that it saved. -/
def Saved (file : Option Text) (save : Save) : Prop :=
  ∃ response, (saveConfig d.parse file save).1 = .ok response ∧ response.saved = true

/-- The merged map the save computed. -/
def mergedOf (file : Option Text) (save : Save) : Record :=
  match computeMerged d.parse file save with
  | .ok (merged, _) => merged
  | .error _ => []

/-- What the payload and its mode switches write and drop. -/
def contextOf (file : Option Text) (save : Save) : ConfigSectionContext :=
  match applyConfigSections save.config (readGeneratedEnv d.parse file) save.host.availableEngines with
  | .ok ctx => ctx
  | .error _ => ⟨[], [], []⟩

def touches (file : Option Text) (save : Save) (key : Text) : Prop :=
  key ∈ (contextOf d file save).updates.map (·.1.name) ∨
  key ∈ (contextOf d file save).staleKeys.map EnvKey.name

def fileAfter (file : Option Text) (save : Save) : Option Text := (saveConfig d.parse file save).2

/-- The value the file holds for a key. -/
def stored (file : Option Text) (key : Text) : Option Text :=
  (readGeneratedEnv d.parse file).lookup key

/-- Parsing the written file yields the merged map. -/
def RoundTrips (file : Option Text) (save : Save) : Prop :=
  ∀ key, stored d (fileAfter d file save) key = (mergedOf d file save).lookup key

/-- Every value the save writes is plain. -/
def WritesPlain (file : Option Text) (save : Save) : Prop :=
  ∀ key value, (mergedOf d file save).lookup key = some value → Plain value

/-- Of every value the save writes it is documented how it is read. -/
def WritesDocumented (file : Option Text) (save : Save) : Prop :=
  ∀ key value, (mergedOf d file save).lookup key = some value → (readValue value).isSome = true

/-- `P` holds of every save of a sequence and the file it finds. -/
def Along (P : Option Text → Save → Prop) (file : Option Text) (saves : List Save) : Prop :=
  match saves with
  | [] => True
  | save :: saves => P file save ∧ Along P (fileAfter d file save) saves

/-- The file after a sequence of saves. -/
def fileAfterAll (file : Option Text) (saves : List Save) : Option Text :=
  match saves with
  | [] => file
  | save :: saves => fileAfterAll (fileAfter d file save) saves

variable {d}

theorem context_within (file : Option Text) (save : Save) :
    Within (fun key => save.config.carries key.owner = true) (contextOf d file save) := by
  unfold contextOf
  split
  . next ctx hctx => exact within_sections hctx
  . constructor <;> simp

theorem saveConfig_cases (file : Option Text) (save : Save) :
    (Saved d file save ∧
      mergedOf d file save =
        mergeWithExisting (readGeneratedEnv d.parse file) (contextOf d file save) ∧
      fileAfter d file save = some (contents save.generatedAt (mergedOf d file save))) ∨
    (¬Saved d file save ∧ fileAfter d file save = file) := by
  unfold Saved fileAfter saveConfig mergedOf
  cases hmerged : computeMerged d.parse file save with
  | error message => exact .inr ⟨by simp, rfl⟩
  | ok result =>
    rcases result with ⟨merged, profiles⟩
    cases hwrite : save.writeSecretFile with
    | error message => exact .inr ⟨by simp, rfl⟩
    | ok _ =>
      refine .inl ⟨⟨_, rfl, rfl⟩, ?_, rfl⟩
      unfold computeMerged at hmerged
      unfold contextOf
      cases hctx : applyConfigSections save.config (readGeneratedEnv d.parse file)
          save.host.availableEngines with
      | error message => simp [hctx, bind, Except.bind] at hmerged
      | ok ctx =>
        simp only [hctx, bind, Except.bind] at hmerged
        split at hmerged
        . contradiction
        . split at hmerged
          . contradiction
          . simp only [Except.ok.injEq, Prod.mk.injEq] at hmerged
            exact hmerged.1.symm

/-- A comment stays on its line; deciding it as a fact about all characters would enumerate them. -/
theorem oneLine_ofList {cs : Text}
    (h : (cs.all fun c => decide (c ∉ ['\n', '\r', '\u2028', '\u2029'])) = true) :
    ∀ c ∈ (String.ofList cs).toList, c ∉ ['\n', '\r', '\u2028', '\u2029'] := by
  rw [String.toList_ofList]
  intro c hc
  exact of_decide_eq_true (List.all_eq_true.mp h c hc)

theorem toList_cons (c : Char) (cs : Text) :
    (String.ofList (c :: cs)).toList = c :: (String.ofList cs).toList := by
  rw [String.toList_ofList, String.toList_ofList]

/-- The three comment lines and the blank line at the top of the file say nothing. -/
theorem parse_contents (generatedAt : Timestamp) (merged : Record) :
    d.parse (contents generatedAt merged) =
      d.parse (terminated (((merged.map (·.1)).insertionSort (keyLe · ·)).map fun key =>
        key ++ '=' :: (merged.lookup key).getD [])) := by
  have hskip {line : Text} (text : Text) (hline : line = '#' :: text)
      (htext : ∀ c ∈ text, c ∉ ['\n', '\r', '\u2028', '\u2029']) (lines : List Text) :
      d.parse (terminated (line :: lines)) = d.parse (terminated lines) := by
    have hcons : terminated (line :: lines) = '#' :: text ++ '\n' :: terminated lines := by
      simp [terminated, hline]
    rw [hcons, d.comment text _ htext]
  have hgenerated : ∀ c ∈ " Generated at ".toList ++ generatedAt.text,
      c ∉ ['\n', '\r', '\u2028', '\u2029'] := by
    intro c hc
    rcases List.mem_append.mp hc with hc | hc
    . exact oneLine_ofList (by decide) c hc
    . exact generatedAt.oneLine c hc
  have hstamp : "# Generated at ".toList ++ generatedAt.text =
      '#' :: (" Generated at ".toList ++ generatedAt.text) :=
    congrArg (· ++ generatedAt.text) (toList_cons '#' _)
  unfold contents
  dsimp only
  rw [joinLines_terminated, fileHeader]
  simp only [List.cons_append, List.nil_append]
  rw [hskip " OpenWA Configuration".toList (toList_cons '#' _) (oneLine_ofList (by decide)),
    hskip (" Generated at ".toList ++ generatedAt.text) hstamp hgenerated,
    hskip " Managed via Dashboard > Infrastructure. Values in process env or project .env take precedence.".toList
      (toList_cons '#' _) (oneLine_ofList (by decide))]
  exact d.blank _

theorem stored_contents {merged : Record} (generatedAt : Timestamp)
    (hkeys : ∀ entry ∈ merged, isKey entry.1 = true)
    (hread : ∀ key value, merged.lookup key = some value → (readValue value).isSome = true) (x : Text) :
    stored d (some (contents generatedAt merged)) x = (merged.lookup x).bind readValue := by
  have hmem (key : Text) :
      key ∈ (merged.map (·.1)).insertionSort (keyLe · ·) ↔ ∃ value, merged.lookup key = some value := by
    rw [List.mem_insertionSort, ← lookup_isSome_iff, Option.isSome_iff_exists]
  unfold stored readGeneratedEnv
  dsimp only
  rw [parse_contents, lookup_body d (fun key => (merged.lookup key).getD [])
    fun key => (readValue ((merged.lookup key).getD [])).getD []]
  . split
    . next hx =>
      rcases (hmem x).mp hx with ⟨value, hvalue⟩
      rcases Option.isSome_iff_exists.mp (hread x value hvalue) with ⟨read, hsome⟩
      simp [hvalue, hsome]
    . next hx =>
      cases hvalue : merged.lookup x with
      | none => rfl
      | some value => exact absurd ((hmem x).mpr ⟨value, hvalue⟩) hx
  . intro key hkey
    rw [List.mem_insertionSort, List.mem_map] at hkey
    rcases hkey with ⟨entry, hentry, rfl⟩
    exact hkeys entry hentry
  . intro key hkey
    rcases (hmem key).mp hkey with ⟨value, hvalue⟩
    rcases Option.isSome_iff_exists.mp (hread key value hvalue) with ⟨read, hsome⟩
    simp [hvalue, hsome]

theorem isKey_mergedOf {file : Option Text} {save : Save} (h : Saved d file save) :
    ∀ entry ∈ mergedOf d file save, isKey entry.1 = true := by
  rcases saveConfig_cases (d := d) file save with ⟨-, hmerged, -⟩ | ⟨hnot, -⟩
  . rw [hmerged]
    apply isKey_merge
    unfold readGeneratedEnv
    split
    . exact d.keys _
    . simp
  . exact absurd h hnot

theorem roundTrips_of_plain {file : Option Text} {save : Save} (hsaved : Saved d file save)
    (hplain : WritesPlain d file save) : RoundTrips d file save := by
  intro key
  rcases saveConfig_cases (d := d) file save with ⟨-, -, hfile⟩ | ⟨hnot, -⟩
  . have hread : ∀ key value, (mergedOf d file save).lookup key = some value →
        (readValue value).isSome = true := by
      intro key value hvalue
      simp [readValue_of_plain (hplain key value hvalue)]
    rw [hfile, stored_contents _ (isKey_mergedOf hsaved) hread]
    cases hvalue : (mergedOf d file save).lookup key with
    | none => rfl
    | some value => exact readValue_of_plain (hplain key value hvalue)
  . exact absurd hsaved hnot

theorem plain_of_roundTrips {file : Option Text} {save : Save} (hsaved : Saved d file save)
    (hdocumented : WritesDocumented d file save) (h : RoundTrips d file save) :
    WritesPlain d file save := by
  intro key value hvalue
  rcases saveConfig_cases (d := d) file save with ⟨-, -, hfile⟩ | ⟨hnot, -⟩
  . have hback := h key
    rw [hfile, stored_contents _ (isKey_mergedOf hsaved) hdocumented, hvalue] at hback
    exact plain_of_readValue hback
  . exact absurd hsaved hnot

/-- Every value a payload submits is stored as it was submitted. -/
def KeepsSubmitted (d : Dotenv) (file : Option Text) (save : Save) : Prop :=
  ∀ key value, (contextOf d file save).updates.lookup key = some value →
    key ∉ (contextOf d file save).staleKeys → stored d (fileAfter d file save) key.name = some value

theorem keepsSubmitted_of_plain {file : Option Text} {save : Save} (hsaved : Saved d file save)
    (hplain : WritesPlain d file save) : KeepsSubmitted d file save := by
  intro key value hvalue hstale
  rcases saveConfig_cases (d := d) file save with ⟨-, hmerged, -⟩ | ⟨hnot, -⟩
  . rw [roundTrips_of_plain hsaved hplain, hmerged]
    exact lookup_merge_submitted (context_within file save).unique hvalue hstale
  . exact absurd hsaved hnot

theorem stored_untouched {file : Option Text} {save : Save} {key : Text}
    (hplain : Saved d file save → WritesPlain d file save) (huntouched : ¬touches d file save key) :
    stored d (fileAfter d file save) key = stored d file key := by
  rcases saveConfig_cases (d := d) file save with ⟨hsaved, hmerged, -⟩ | ⟨-, hfile⟩
  . rw [roundTrips_of_plain hsaved (hplain hsaved), hmerged]
    apply lookup_merge_untouched (context_within file save).unique
    . intro k hname hk
      apply huntouched
      rcases List.mem_map.mp hk with ⟨entry, hentry, rfl⟩
      exact .inl (List.mem_map.mpr ⟨entry, hentry, hname⟩)
    . intro hmem
      exact huntouched (.inr hmem)
  . rw [hfile]

theorem key_of_save {file : Option Text} {save : Save} {key : Text}
    (hplain : Saved d file save → WritesPlain d file save)
    (h : (stored d (fileAfter d file save) key).isSome = true) :
    (stored d file key).isSome = true ∨
    ∃ k : EnvKey, k.name = key ∧ save.config.carries k.owner = true := by
  rcases saveConfig_cases (d := d) file save with ⟨hsaved, hmerged, -⟩ | ⟨-, hfile⟩
  . rw [roundTrips_of_plain hsaved (hplain hsaved), hmerged] at h
    rcases key_of_merge (context_within file save).unique h with hold | ⟨k, hk, hname⟩
    . exact .inl hold
    . rcases List.mem_map.mp hk with ⟨entry, hentry, rfl⟩
      exact .inr ⟨_, hname, (context_within file save).updates entry hentry⟩
  . rw [hfile] at h
    exact .inl h

end Saves

section Samples

/-- The lines of a text. -/
def linesOf (text : Text) : List Text :=
  match text with
  | [] => []
  | c :: text =>
    if c = '\n' then [] :: linesOf text
    else
      match linesOf text with
      | [] => [[c]]
      | line :: lines => (c :: line) :: lines

/-- The assignment on a line. -/
def readLine (line : Text) : Option (Text × Text) :=
  match line.dropWhile isKeyChar with
  | '=' :: value =>
    if line.takeWhile isKeyChar = [] then none
    else (readValue value).map fun read => (line.takeWhile isKeyChar, read)
  | _ => none

/-- A reader of files whose values end on their lines; a later assignment of a key wins. -/
def readLines (text : Text) : Record := ((linesOf text).filterMap readLine).reverse

theorem linesOf_line {line : Text} (h : '\n' ∉ line) (rest : Text) :
    linesOf (line ++ '\n' :: rest) = line :: linesOf rest := by
  induction line with
  | nil => simp [linesOf]
  | cons c line ih =>
    rw [List.mem_cons, not_or] at h
    rw [List.cons_append, linesOf, ih h.2]
    simp [Ne.symm h.1]

theorem isKey_readLine {line : Text} {entry : Text × Text} (h : readLine line = some entry) :
    isKey entry.1 = true := by
  unfold readLine at h
  split at h
  . split at h
    . contradiction
    . next hne =>
      rw [Option.map_eq_some_iff] at h
      rcases h with ⟨read, -, rfl⟩
      simp [isKey, hne]
  . contradiction

theorem readLine_assignment {key value read : Text} (hkey : isKey key = true)
    (hread : readValue value = some read) : readLine (key ++ '=' :: value) = some (key, read) := by
  simp only [isKey, Bool.and_eq_true, Bool.not_eq_true', List.isEmpty_eq_false_iff,
    List.all_eq_true] at hkey
  have htake : (key ++ '=' :: value).takeWhile isKeyChar = key := by
    rw [List.takeWhile_append_of_pos hkey.2]
    simp [isKeyChar]
  have hdrop : (key ++ '=' :: value).dropWhile isKeyChar = '=' :: value := by
    rw [List.dropWhile_append_of_pos hkey.2]
    simp [isKeyChar]
  simp [readLine, htake, hdrop, hkey.1, hread]

/-- The line reader does what is documented. -/
def lineReader : Dotenv where
  parse := readLines
  keys text entry hentry := by
    unfold readLines at hentry
    rw [List.mem_reverse, List.mem_filterMap] at hentry
    rcases hentry with ⟨line, -, hline⟩
    exact isKey_readLine hline
  empty := rfl
  blank rest := by simp [readLines, linesOf, readLine, List.filterMap_cons]
  comment text rest htext := by
    have hline : '\n' ∉ '#' :: text := by
      simp only [List.mem_cons, not_or]
      exact ⟨by decide, fun hmem => htext _ hmem (by simp)⟩
    simp only [readLines]
    rw [show '#' :: text ++ '\n' :: rest = ('#' :: text) ++ '\n' :: rest from rfl, linesOf_line hline]
    simp [readLine, isKeyChar]
  assignment key value rest read hkey hread _ x := by
    have hkeyLine : '\n' ∉ key := by
      intro hmem
      simp only [isKey, Bool.and_eq_true, List.all_eq_true] at hkey
      exact absurd (hkey.2 _ hmem) (by decide +kernel)
    have hvalueLine : '\n' ∉ value := by
      intro hmem
      have hbreak : value.any isLineBreak = true := List.any_eq_true.mpr ⟨_, hmem, by decide⟩
      simp [readValue, hbreak] at hread
    have hline : '\n' ∉ key ++ '=' :: value := by
      simp [hkeyLine, hvalueLine]
    simp only [readLines]
    rw [linesOf_line hline, List.filterMap_cons, readLine_assignment hkey hread]
    simp only [List.reverse_cons, List.lookup_append]
    congr 1
    by_cases hx : x = key
    . simp [hx]
    . have hne : (x == key) = false := by simpa using hx
      simp [List.lookup_cons, hne, hx]

def sampleHost : Host := ⟨[], fun _ => none, fun _ => none⟩

/-- A save of a password for an external Postgres. -/
def passwordSave (password : Text) : Save where
  config :=
    { database := some ⟨.postgres, none, none, none, none, some password, none, none, none, none, none⟩
      redis := none
      queue := none
      storage := none
      engine := none }
  host := sampleHost
  generatedAt := ⟨[], by simp⟩
  writeSecretFile := .ok ()

/-- A file with a key that no section owns. -/
def sampleFile : Option Text := some "LOG_FORMAT=json\n".toList

theorem saved_of_isSome {d : Dotenv} {file : Option Text} {save : Save}
    (h : ((saveConfig d.parse file save).1.toOption.map (·.saved)) = some true) : Saved d file save := by
  rw [Option.map_eq_some_iff] at h
  rcases h with ⟨response, hok, hsaved⟩
  refine ⟨response, ?_, hsaved⟩
  cases hresult : (saveConfig d.parse file save).1 with
  | error message => simp [hresult, Except.toOption] at hok
  | ok r =>
    rw [hresult] at hok
    simpa [Except.toOption] using hok

theorem writesPlain_of_all {d : Dotenv} {file : Option Text} {save : Save}
    (h : ((mergedOf d file save).all fun entry => readValue entry.2 = some entry.2) = true) :
    WritesPlain d file save := by
  intro key value hvalue
  rcases List.lookup_eq_some_iff.mp hvalue with ⟨before, behind, hsplit, -⟩
  rw [List.all_eq_true] at h
  have hread := h (key, value) (by simp [hsplit])
  exact plain_of_readValue (by simpa using hread)

/-- A save that only carries the queue section. -/
def queueSave : Save where
  config :=
    { database := none
      redis := none
      queue := some ⟨some true⟩
      storage := none
      engine := none }
  host := sampleHost
  generatedAt := ⟨[], by simp⟩
  writeSecretFile := .ok ()

/-- A file with a password that was quoted by hand. -/
def quotedFile : Option Text := some "DATABASE_PASSWORD=\"a#b\"\n".toList

end Samples

end OpenWA.Config
