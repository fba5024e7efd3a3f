import OpenWA.Js.Encoding

/-!
This module contains the choices of a business prompt: what is published of them, and the reply that a
click on one of them is answered with.
-/

namespace OpenWA.Baileys.Buttons

open Js

/-! ### The prompts -/

/-- A button; `nativeFlowInfo` is the name in that block, if there is one. -/
structure Button where
  buttonId : Option JsString
  displayText : Option JsString
  nativeFlowInfo : Option (Option JsString)

structure NativeFlowButton where
  name : Option JsString
  buttonParamsJson : Option JsString

structure QuickReplyButton where
  id : Option JsString
  displayText : Option JsString

structure HydratedTemplateButton where
  index : Option Int
  quickReplyButton : Option QuickReplyButton

structure Row where
  rowId : Option JsString
  title : Option JsString

/-- An array that is missing on the way to it is none. -/
structure ButtonsPromptContent where
  buttonsMessage : Option (List (Option Button))
  interactiveMessage : Option (List (Option NativeFlowButton))
  hydratedTemplate : Option (List (Option HydratedTemplateButton))
  hydratedFourRowTemplate : Option (List (Option HydratedTemplateButton))
  listMessage : Option (List (Option (List (Option Row))))

inductive ContentType where
  | buttonsMessage | templateMessage | listMessage | interactiveMessage
  | other (name : JsString)
deriving DecidableEq

structure ClickableChoice where
  id : JsString
  text : JsString
  index : Option Int
deriving DecidableEq

/-- `BUTTONS_MAX_ENTRIES` -/
def buttonsMaxEntries : Nat := 20

/-- `BUTTON_TEXT_MAX_LENGTH` -/
def buttonTextMaxLength : Nat := 256

/-- `CLICKABLE_NATIVE_FLOW_NAMES` -/
def clickableNativeFlowNames : List JsString :=
  [toUtf16 "quick_reply".toList, toUtf16 "button_click".toList]

/-- `a || b`, for a string that may be missing -/
def orElse (a : Option JsString) (b : JsString) : JsString :=
  match a with
  | none => b
  | some a => if a.isEmpty then b else a

/-- `text?.trim()`, none if that is empty -/
def label? (text : Option JsString) : Option JsString :=
  (text.map trimUnits).filter fun label => !label.isEmpty

section Params

-- the strings in the fields of what `JSON.parse` gives; none if it throws or gives `null`
variable (jsonParse : JsString → Option (String → Option JsString))

def pickNonEmptyString (obj : String → Option JsString) (keys : List String) : Option JsString :=
  keys.findSome? fun key => (obj key).filter fun value => !value.isEmpty

/-- The id and the text, without `requireId`. -/
def parseNativeFlowButtonParams (paramsJson : Option JsString) : Option (JsString × Option JsString) :=
  match paramsJson with
  | none => none
  | some paramsJson =>
    if paramsJson.isEmpty then none
    else
      match jsonParse paramsJson with
      | none => none
      | some params =>
        let text := pickNonEmptyString params ["display_text", "displayText", "title"]
        match pickNonEmptyString params ["id", "button_id", "buttonId"] with
        | some id => some (id, text)
        | none => text.map fun text => (text, some text)

/-! ### The choices -/

def choiceOfButton (position : Nat) (button : Option Button) : Option ClickableChoice :=
  match label? (button.bind (·.displayText)) with
  | none => none
  | some text =>
    match button.bind (·.nativeFlowInfo) with
    | some name =>
      if name.getD [] ∉ clickableNativeFlowNames then none
      else some ⟨orElse ((button.bind (·.buttonId)).map trimUnits) text, text, some position⟩
    | none => some ⟨orElse ((button.bind (·.buttonId)).map trimUnits) text, text, some position⟩

def choiceOfNativeFlow (position : Nat) (button : Option NativeFlowButton) : Option ClickableChoice :=
  let name := (button.bind (·.name)).getD (toUtf16 "quick_reply".toList)
  if name ∉ clickableNativeFlowNames then none
  else
    match parseNativeFlowButtonParams jsonParse (button.bind (·.buttonParamsJson)) with
    | none => none
    | some parsed =>
      let label := trimUnits (parsed.2.getD parsed.1)
      if label.isEmpty then none
      else some ⟨orElse (some (trimUnits parsed.1)) label, label, some position⟩

/-- A template that numbers one of its buttons numbers them all. -/
def choiceOfHydrated (numbered : Bool) (position : Nat) (entry : Option HydratedTemplateButton) :
    Option ClickableChoice :=
  match entry.bind (·.quickReplyButton) with
  | none => none
  | some quick =>
    match label? quick.displayText with
    | none => none
    | some label =>
      some ⟨orElse (quick.id.map trimUnits) label, label,
        if numbered then entry.bind (·.index) else some position⟩

def choiceOfRow (position : Nat) (row : Option Row) : Option ClickableChoice :=
  match label? (row.bind (·.title)) with
  | none => none
  | some text => some ⟨orElse ((row.bind (·.rowId)).map trimUnits) text, text, some position⟩

/-- The loop of `collectChoices`, after the choices so far. -/
def collect (choices : List ClickableChoice) (entries : List (Option ClickableChoice)) :
    List ClickableChoice :=
  match entries with
  | [] => choices
  | none :: entries => collect choices entries
  | some entry :: entries =>
    let text := entry.text.take buttonTextMaxLength
    if entry.id.isEmpty || buttonTextMaxLength < entry.id.length || text.isEmpty then
      collect choices entries
    else
      let choices := choices ++ [⟨entry.id, text, entry.index⟩]
      if buttonsMaxEntries ≤ choices.length then choices else collect choices entries

def collectChoices (entries : List (Option ClickableChoice)) : Option (List ClickableChoice) :=
  let choices := collect [] entries
  if 0 < choices.length then some choices else none

def extractBaileysClickableButtons (content : ButtonsPromptContent) (contentType : Option ContentType) :
    Option (List ClickableChoice) :=
  match contentType with
  | some .buttonsMessage => collectChoices ((content.buttonsMessage.getD []).mapIdx choiceOfButton)
  | some .interactiveMessage =>
    collectChoices ((content.interactiveMessage.getD []).mapIdx (choiceOfNativeFlow jsonParse))
  | some .templateMessage =>
    let hydrated := (content.hydratedTemplate.or content.hydratedFourRowTemplate).getD []
    let numbered := hydrated.any fun entry => (entry.bind (·.index)).isSome
    collectChoices (hydrated.mapIdx (choiceOfHydrated numbered))
  | some .listMessage =>
    let rows := (content.listMessage.getD []).flatMap (·.getD [])
    collectChoices (rows.mapIdx choiceOfRow)
  | some (.other _) | none => none

/-- What is published. -/
def extractBaileysButtons (content : ButtonsPromptContent) (contentType : Option ContentType) :
    Option (List (JsString × JsString)) :=
  (extractBaileysClickableButtons jsonParse content contentType).map
    (·.map fun choice => (choice.id, choice.text))

/-! ### The click -/

inductive ReplyType where
  | plain | template
deriving DecidableEq

inductive ReplyContent where
  | buttonReply (displayText id : JsString) (index : Option Int) (type : ReplyType)
  | listReply (title selectedRowId : JsString)
deriving DecidableEq

def toBaileysButtonClickContent (contentType : ContentType) (buttonId text : JsString)
    (index : Option Int) : ReplyContent :=
  match contentType with
  | .buttonsMessage => .buttonReply text buttonId index .plain
  | .listMessage => .listReply text buttonId
  | .templateMessage | .interactiveMessage | .other _ => .buttonReply text buttonId index .template

structure ButtonClickPayload where
  id : JsString
  text : JsString
  index : Option Int
  content : ReplyContent
deriving DecidableEq

inductive ButtonClickError where
  | notAPrompt | unknownButton
deriving DecidableEq

def resolveBaileysButtonClick (content : ButtonsPromptContent) (contentType : Option ContentType)
    (buttonId : JsString) (text : Option JsString) : Except ButtonClickError ButtonClickPayload :=
  match contentType with
  | none | some (.other _) => .error .notAPrompt
  | some contentType =>
    match extractBaileysClickableButtons jsonParse content contentType with
    | none | some [] => .error .notAPrompt
    | some choices =>
      let trimmedId := trimUnits buttonId
      let trimmedText := (text.map trimUnits).getD []
      let exactMatch :=
        if trimmedText.isEmpty then none
        else choices.find? fun choice => choice.id = trimmedId && choice.text = trimmedText
      match exactMatch.or (choices.find? fun choice => choice.id = trimmedId) with
      | none => .error .unknownButton
      | some choice =>
        let resolvedText := trimUnits (orElse (some trimmedText) (orElse (some choice.text) trimmedId))
        .ok {
          id := trimmedId
          text := resolvedText
          index := choice.index
          content := toBaileysButtonClickContent contentType trimmedId resolvedText choice.index }

end Params

/-! ### Published choices -/

section Published

variable {jsonParse : JsString → Option (String → Option JsString)} {content : ButtonsPromptContent}
  {contentType : Option ContentType} {choice : ClickableChoice}

/-- What a prompt offers has a trimmed id and a trimmed label. -/
def Trimmed (entry : ClickableChoice) : Prop :=
  trimUnits entry.id = entry.id ∧ trimUnits entry.text = entry.text

theorem trimUnits_orElse {label : JsString} (h : trimUnits label = label) (id : Option JsString) :
    trimUnits (orElse (id.map trimUnits) label) = orElse (id.map trimUnits) label := by
  cases id with
  | none => exact h
  | some id =>
    simp only [orElse, Option.map_some]
    split
    . exact h
    . exact trimUnits_trimUnits id

theorem trimUnits_label {text : Option JsString} {label : JsString} (h : label? text = some label) :
    trimUnits label = label := by
  rcases Option.map_eq_some_iff.mp (Option.filter_eq_some_iff.mp h).1 with ⟨text, -, rfl⟩
  exact trimUnits_trimUnits text

theorem trimmed_choiceOfButton {position : Nat} {button : Option Button}
    (h : choiceOfButton position button = some choice) : Trimmed choice := by
  unfold choiceOfButton at h
  split at h
  . contradiction
  . next text hlabel =>
    have htext := trimUnits_label hlabel
    split at h
    . split at h
      . contradiction
      . rw [Option.some.injEq] at h
        subst h
        exact ⟨trimUnits_orElse htext _, htext⟩
    . rw [Option.some.injEq] at h
      subst h
      exact ⟨trimUnits_orElse htext _, htext⟩

theorem trimmed_choiceOfNativeFlow {position : Nat} {button : Option NativeFlowButton}
    (h : choiceOfNativeFlow jsonParse position button = some choice) : Trimmed choice := by
  unfold choiceOfNativeFlow at h
  dsimp only at h
  split at h
  . contradiction
  . split at h
    . contradiction
    . split at h
      . contradiction
      . rw [Option.some.injEq] at h
        subst h
        exact ⟨trimUnits_orElse (trimUnits_trimUnits _) (some _), trimUnits_trimUnits _⟩

theorem trimmed_choiceOfHydrated {numbered : Bool} {position : Nat}
    {entry : Option HydratedTemplateButton}
    (h : choiceOfHydrated numbered position entry = some choice) : Trimmed choice := by
  unfold choiceOfHydrated at h
  split at h
  . contradiction
  . split at h
    . contradiction
    . next label hlabel =>
      rw [Option.some.injEq] at h
      subst h
      exact ⟨trimUnits_orElse (trimUnits_label hlabel) _, trimUnits_label hlabel⟩

theorem trimmed_choiceOfRow {position : Nat} {row : Option Row}
    (h : choiceOfRow position row = some choice) : Trimmed choice := by
  unfold choiceOfRow at h
  split at h
  . contradiction
  . next text hlabel =>
    rw [Option.some.injEq] at h
    subst h
    exact ⟨trimUnits_orElse (trimUnits_label hlabel) _, trimUnits_label hlabel⟩

theorem mem_collect {choices : List ClickableChoice} {entries : List (Option ClickableChoice)}
    (h : choice ∈ collect choices entries) :
    choice ∈ choices ∨ ∃ entry, some entry ∈ entries ∧ choice.id = entry.id ∧
      choice.text = entry.text.take buttonTextMaxLength ∧ choice.text ≠ [] := by
  fun_induction collect choices entries with
  | case1 => exact .inl h
  | case2 choices entries ih =>
    rcases ih h with h | ⟨entry, hentry, hchoice⟩
    . exact .inl h
    . exact .inr ⟨entry, .tail _ hentry, hchoice⟩
  | case3 choices entry entries text hskip ih =>
    rcases ih h with h | ⟨entry, hentry, hchoice⟩
    . exact .inl h
    . exact .inr ⟨entry, .tail _ hentry, hchoice⟩
  | case4 choices entry entries text hkeep choices' hfull =>
    rcases List.mem_append.mp h with h | h
    . exact .inl h
    . rw [List.mem_singleton] at h
      subst h
      exact .inr ⟨entry, .head _, rfl, rfl, by simp_all⟩
  | case5 choices entry entries text hkeep choices' hroom ih =>
    rcases ih h with h | ⟨entry', hentry, hchoice⟩
    . rcases List.mem_append.mp h with h | h
      . exact .inl h
      . rw [List.mem_singleton] at h
        subst h
        exact .inr ⟨entry, .head _, rfl, rfl, by simp_all⟩
    . exact .inr ⟨entry', .tail _ hentry, hchoice⟩

theorem mem_collectChoices {entries : List (Option ClickableChoice)} {choices : List ClickableChoice}
    (htrimmed : ∀ entry, some entry ∈ entries → Trimmed entry)
    (h : collectChoices entries = some choices) (hchoice : choice ∈ choices) :
    trimUnits choice.id = choice.id ∧ trimUnits choice.text ≠ [] := by
  unfold collectChoices at h
  dsimp only at h
  split at h
  . rw [Option.some.injEq] at h
    subst h
    rcases mem_collect hchoice with hnone | ⟨entry, hentry, hid, htext, hne⟩
    . contradiction
    . have hentry := htrimmed entry hentry
      refine ⟨hid ▸ hentry.1, ?_⟩
      exact trimUnits_ne_nil hentry.2 (htext ▸ List.take_prefix _ _) hne
  . contradiction

/-- An id is published trimmed, and a label, cut as it may be, is not all white space. -/
theorem mem_clickable {choices : List ClickableChoice}
    (h : extractBaileysClickableButtons jsonParse content contentType = some choices)
    (hchoice : choice ∈ choices) :
    trimUnits choice.id = choice.id ∧ trimUnits choice.text ≠ [] := by
  have hindexed {α : Type} {f : Nat → α → Option ClickableChoice} {l : List α}
      (hf : ∀ i a entry, f i a = some entry → Trimmed entry) :
      ∀ entry, some entry ∈ l.mapIdx f → Trimmed entry := by
    intro entry hentry
    rcases List.mem_mapIdx.mp hentry with ⟨i, hi, heq⟩
    exact hf i _ entry heq
  unfold extractBaileysClickableButtons at h
  split at h
  . exact mem_collectChoices (hindexed fun _ _ _ => trimmed_choiceOfButton) h hchoice
  . exact mem_collectChoices (hindexed fun _ _ _ => trimmed_choiceOfNativeFlow) h hchoice
  . exact mem_collectChoices (hindexed fun _ _ _ => trimmed_choiceOfHydrated) h hchoice
  . exact mem_collectChoices (hindexed fun _ _ _ => trimmed_choiceOfRow) h hchoice
  . contradiction
  . contradiction

end Published

/-! ### Clicks on published choices -/

/-- What of a reply says which choice it answers; a list reply has no index on the wire. -/
def ReplyContent.Carries (reply : ReplyContent) (id : JsString) (index : Option Int) : Prop :=
  match reply with
  | .buttonReply _ replyId replyIndex _ => replyId = id ∧ replyIndex = index
  | .listReply _ selectedRowId => selectedRowId = id

/-- One of the choices with exactly that id and that text has the index. -/
def IndexOf (choices : List ClickableChoice) (id text : JsString) (index : Option Int) : Prop :=
  ∃ entry ∈ choices, entry.id = id ∧ entry.text = text ∧ entry.index = index

section Clicks

variable (jsonParse : JsString → Option (String → Option JsString)) (content : ButtonsPromptContent)
  (contentType : Option ContentType) (id text : JsString)

def clickable : List ClickableChoice :=
  (extractBaileysClickableButtons jsonParse content contentType).getD []

/-- A click with that id and that text is answered in the name of such a choice. -/
def Clicks : Prop :=
  ∃ payload, resolveBaileysButtonClick jsonParse content contentType id (some text) = .ok payload ∧
    payload.id = id ∧ payload.content.Carries id payload.index ∧
    IndexOf (clickable jsonParse content contentType) id text payload.index

end Clicks

/-- The label ends in no white space, or stripping it does no harm: the first choice with the id and the
stripped label, or for want of one the first with the id, has the index of one with the label itself. -/
def LabelKept (choices : List ClickableChoice) (id text : JsString) : Prop :=
  trimUnits text = text ∨
    match choices.find? fun choice => choice.id = id && choice.text = trimUnits text with
    | some stripped => IndexOf choices id text stripped.index
    | none =>
      ∃ first, (choices.find? fun choice => choice.id = id) = some first ∧
        IndexOf choices id text first.index

section Clicks

variable {jsonParse : JsString → Option (String → Option JsString)} {content : ButtonsPromptContent}
  {contentType : Option ContentType} {id text : JsString}

theorem carries_toBaileysButtonClickContent (contentType : ContentType) (id text : JsString)
    (index : Option Int) : (toBaileysButtonClickContent contentType id text index).Carries id index := by
  cases contentType <;> simp [toBaileysButtonClickContent, ReplyContent.Carries]

theorem mem_extractBaileysButtons
    (h : (id, text) ∈ (extractBaileysButtons jsonParse content contentType).getD []) :
    ∃ choices, extractBaileysClickableButtons jsonParse content contentType = some choices ∧
      ∃ choice ∈ choices, choice.id = id ∧ choice.text = text := by
  unfold extractBaileysButtons at h
  cases hchoices : extractBaileysClickableButtons jsonParse content contentType with
  | none =>
    rw [hchoices] at h
    contradiction
  | some choices =>
    rw [hchoices] at h
    rcases List.mem_map.mp h with ⟨choice, hchoice, heq⟩
    rw [Prod.mk.injEq] at heq
    exact ⟨choices, rfl, choice, hchoice, heq⟩

/-- A click with a choice's own id is answered by the choice its stripped label leads to. -/
theorem resolve_of_mem {choices : List ClickableChoice}
    (h : extractBaileysClickableButtons jsonParse content contentType = some choices)
    (hmem : ∃ choice ∈ choices, choice.id = id) (hid : trimUnits id = id) (htext : trimUnits text ≠ []) :
    ∃ hit payload,
      ((choices.find? fun choice => choice.id = id && choice.text = trimUnits text).or
        (choices.find? fun choice => choice.id = id)) = some hit ∧
      resolveBaileysButtonClick jsonParse content contentType id (some text) = .ok payload ∧
      payload.id = id ∧ payload.index = hit.index ∧ payload.content.Carries id payload.index := by
  rcases hmem with ⟨choice, hchoice, hchoiceId⟩
  have hfound : ∃ hit,
      ((choices.find? fun choice => choice.id = id && choice.text = trimUnits text).or
        (choices.find? fun choice => choice.id = id)) = some hit := by
    rw [← Option.isSome_iff_exists, Option.isSome_or, Bool.or_eq_true]
    right
    rw [List.find?_isSome]
    exact ⟨choice, hchoice, decide_eq_true hchoiceId⟩
  rcases hfound with ⟨hit, hhit⟩
  have hempty : (trimUnits text).isEmpty = false := List.isEmpty_eq_false_iff.mpr htext
  cases choices with
  | nil => contradiction
  | cons head tail =>
    unfold resolveBaileysButtonClick
    split
    . contradiction
    . contradiction
    . next type hother =>
      let label := trimUnits (orElse (some (trimUnits text)) (orElse (some hit.text) id))
      refine ⟨hit, ⟨id, label, hit.index, toBaileysButtonClickContent type id label hit.index⟩, hhit, ?_⟩
      constructor
      . simp [h, hid, hempty, hhit, label]
      . exact ⟨rfl, rfl, carries_toBaileysButtonClickContent type id label hit.index⟩

/-- A published choice can be clicked just when the cut of its label left nothing to strip, or what
stripping it leads to has an index of its own. -/
theorem clicks_iff_labelKept
    (h : (id, text) ∈ (extractBaileysButtons jsonParse content contentType).getD []) :
    Clicks jsonParse content contentType id text ↔
      LabelKept (clickable jsonParse content contentType) id text := by
  rcases mem_extractBaileysButtons h with ⟨choices, hchoices, choice, hmem, rfl, rfl⟩
  rcases mem_clickable hchoices hmem with ⟨hid, htext⟩
  have hclickable : clickable jsonParse content contentType = choices := by
    rw [clickable, hchoices, Option.getD_some]
  rcases resolve_of_mem hchoices ⟨choice, hmem, rfl⟩ hid htext with
    ⟨hit, payload, hhit, hresolve, hpayload, hindex, hcarries⟩
  have hclicks : Clicks jsonParse content contentType choice.id choice.text ↔
      IndexOf choices choice.id choice.text hit.index := by
    unfold Clicks
    rw [hclickable, hresolve, ← hindex]
    constructor
    . rintro ⟨other, heq, -, -, hother⟩
      rw [Except.ok.injEq] at heq
      rwa [heq]
    . intro hother
      exact ⟨payload, rfl, hpayload, hcarries, hother⟩
  rw [hclicks, hclickable]
  unfold LabelKept
  cases hstripped : choices.find? fun other =>
      other.id = choice.id && other.text = trimUnits choice.text with
  | none =>
    rw [hstripped, Option.none_or] at hhit
    -- a label with nothing to strip would have been found
    have hpadded : trimUnits choice.text ≠ choice.text := by
      intro heq
      have := List.find?_eq_none.mp hstripped choice hmem
      simp [heq] at this
    simp [hpadded, hhit]
  | some stripped =>
    rw [hstripped, Option.some_or, Option.some.injEq] at hhit
    subst hhit
    have hexact : trimUnits choice.text = choice.text →
        IndexOf choices choice.id choice.text stripped.index := by
      intro heq
      have hp := List.find?_some hstripped
      simp only [Bool.and_eq_true, decide_eq_true_eq] at hp
      exact ⟨stripped, List.mem_of_find?_eq_some hstripped, hp.1, hp.2.trans heq, rfl⟩
    simp only
    constructor
    . exact .inr
    . rintro (heq | hother)
      . exact hexact heq
      . exact hother

/-- The second of two buttons, whose label the cut does not reach. -/
theorem clicks_iff_labelKept_shortLabel :
    Clicks (fun _ => none)
        { buttonsMessage := some [some ⟨some [120], some [65], none⟩, some ⟨some [121], some [66, 32], none⟩]
          interactiveMessage := none
          hydratedTemplate := none
          hydratedFourRowTemplate := none
          listMessage := none }
        (some .buttonsMessage) [121] [66] ↔
      LabelKept [⟨[120], [65], some 0⟩, ⟨[121], [66], some 1⟩] [121] [66] :=
  clicks_iff_labelKept (by decide +kernel)

/-- Two buttons have one id. The second's label is cut right after a space, so a click on it as it was
published is answered in the name of the first. -/
theorem padded_label_clicks_another :
    let content : ButtonsPromptContent :=
      { buttonsMessage := some
          [some ⟨some [120], some [65], none⟩,
            some ⟨some [120], some (List.replicate 255 66 ++ [32, 67]), none⟩]
        interactiveMessage := none
        hydratedTemplate := none
        hydratedFourRowTemplate := none
        listMessage := none }
    let label : JsString := List.replicate 255 66 ++ [32]
    extractBaileysButtons (fun _ => none) content (some .buttonsMessage) =
        some [([120], [65]), ([120], label)] ∧
      ¬ Clicks (fun _ => none) content (some .buttonsMessage) [120] label := by
  intro content label
  have hclickable : clickable (fun _ => none) content (some .buttonsMessage) =
      [⟨[120], [65], some 0⟩, ⟨[120], label, some 1⟩] := by decide +kernel
  have hresolve :
      (resolveBaileysButtonClick (fun _ => none) content (some .buttonsMessage) [120] (some label)).toOption.map
        (·.index) = some (some 0) := by decide +kernel
  refine ⟨by decide +kernel, ?_⟩
  rintro ⟨payload, hpayload, -, -, entry, hentry, -, htext, hindex⟩
  rw [hpayload] at hresolve
  have hfirst : payload.index = some 0 := Option.some.inj hresolve
  rw [hclickable, List.mem_cons, List.mem_singleton] at hentry
  rcases hentry with rfl | rfl
  . exact absurd htext (by decide +kernel)
  . exact absurd (hindex.trans hfirst) (by decide)

end Clicks

end OpenWA.Baileys.Buttons
