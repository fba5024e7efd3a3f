import OpenWA.Ingress.Ack
import OpenWA.Js.Double
import OpenWA.Js.Encoding
import OpenWA.Js.Map
import OpenWA.Js.Substituted

/-!
This module contains the check of the signature of an inbound webhook, and which inputs it treats as the
declared scheme says.
-/

namespace OpenWA.Ingress

open Js

inductive SignatureScheme where
  | hmacSha256
  | sharedSecret
  | standardWebhooks
  | none
deriving DecidableEq

inductive DigestEncoding where
  | hex
  | base64
deriving DecidableEq

/-- The `signature` of a route. -/
structure IngressSignatureSpec where
  scheme : SignatureScheme
  header : Option Text
  contentTemplate : Option Text
  encoding : Option DigestEncoding
  macPrefix : Option Text
  timestampHeader : Option Text
  toleranceSec : Option Rat

/-- The header names are in lower case; `now` is in milliseconds. -/
structure VerifyInput where
  rawBody : Text
  headers : Js.Map Text Text
  secret : Text
  now : Nat
  instanceId : Text

inductive Verdict where
  | accepted
  | rejected (reason : Text)
deriving DecidableEq

/-- The error of a hash that is fed something else than a string. -/
inductive TypeError where
  | invalidArgType
deriving DecidableEq

/-- `INGRESS_TIMESTAMP_TOLERANCE_SEC`, if it is set -/
def resolveIngressTimestampToleranceSec (raw : Option Text) : Rat :=
  match raw.map stringToNumber with
  | some (.finite parsed) => if parsed.isInt && 0 < parsed then parsed else 300
  | _ => 300

theorem resolveIngressTimestampToleranceSec_pos (raw : Option Text) :
    0 < resolveIngressTimestampToleranceSec raw := by
  unfold resolveIngressTimestampToleranceSec
  split
  . split
    . next h => simp only [Bool.and_eq_true, decide_eq_true_eq] at h; exact h.2
    . norm_num
  . norm_num

/-! ### Headers -/

/-- The names that a plain object answers to without having them. -/
def objectPrototype : List Text :=
  ["constructor", "__defineGetter__", "__defineSetter__", "hasOwnProperty", "__lookupGetter__",
    "__lookupSetter__", "isPrototypeOf", "propertyIsEnumerable", "toString", "valueOf", "__proto__",
    "toLocaleString"].map String.toList

/-- What a lookup in the header object yields. -/
inductive HeaderValue where
  | text (t : Text)
  /-- A function or an object. -/
  | inherited
deriving DecidableEq

variable (toLowerCase : Text → Text)

def header (headers : Js.Map Text Text) (name : Option Text) : Option HeaderValue :=
  match name with
  | none | some [] => none
  | some name =>
    match headers.get? (toLowerCase name) with
    | some t => some (.text t)
    | none => if toLowerCase name ∈ objectPrototype then some .inherited else none

/-- A header that is not empty. -/
def sent (headers : Js.Map Text Text) (name : String) : Option Text :=
  (headers.get? name.toList).filter fun t => !t.isEmpty

def safeEqualStr (a : HeaderValue) (b : Text) : Except TypeError Bool :=
  match a with
  | .text a => .ok (a = b)
  | .inherited => .error .invalidArgType

/-! ### Timestamps -/

def finite? (x : Js.Number) : Option Int :=
  match x with
  | .int negative v => some (if negative then -v else v)
  | _ => none

/-- The source text of an inherited function or object begins like no number. -/
def readTimestamp (value : Option HeaderValue) : Option Int :=
  match value with
  | some (.text t) => finite? (parseInt t)
  | _ => none

def skewSec (now : Nat) (ts : Int) : Rat := |(now : Rat) / 1000 - ts|

variable (hostToleranceSec : Rat)

/-- The reason to reject the timestamp. -/
def checkTimestamp (spec : IngressSignatureSpec) (now : Nat) (value : Option HeaderValue) (invalid : String) :
    Option Text :=
  match readTimestamp value with
  | none => some invalid.toList
  | some ts =>
    if spec.toleranceSec.getD hostToleranceSec < skewSec now ts then
      some "replay: timestamp outside tolerance".toList
    else none

/-! ### Digests -/

variable (hmac : List Nat → List Nat → List Nat)

def hexDigit (n : Nat) : Char := "0123456789abcdef".toList.getD n '0'

def encodeDigest (encoding : DigestEncoding) (digest : List Nat) : Text :=
  match encoding with
  | .hex => digest.flatMap fun b => [hexDigit (b / 16), hexDigit (b % 16)]
  | .base64 => base64 digest

def dropStart (start t : Text) : Text := if start.isPrefixOf t then t.drop start.length else t

def parseWebhookSecret (secret : Text) : Option Text :=
  let s := dropStart "whsec_".toList (dropStart "v1,".toList (trim secret))
  if 0 < s.length then some s else none

/-- A candidate of the list is `version,signature`. -/
def isMatch (expected candidate : Text) : Bool :=
  ',' ∈ candidate && candidate.takeWhile (· ≠ ',') = ['v', '1'] &&
    (candidate.dropWhile (· ≠ ',')).tail = expected

def standardContent (id tsRaw rawBody : Text) : Text := id ++ ['.'] ++ tsRaw ++ ['.'] ++ rawBody

def verifyStandardWebhooks (spec : IngressSignatureSpec) (input : VerifyInput) : Verdict :=
  match parseWebhookSecret input.secret with
  | none => .rejected "empty standard-webhooks secret".toList
  | some keyB64 =>
    let key := base64Decode keyB64
    if key.isEmpty then .rejected "standard-webhooks secret decodes to empty key".toList
    else
      match sent input.headers "webhook-id", sent input.headers "webhook-timestamp",
          sent input.headers "webhook-signature" with
      | some id, some tsRaw, some sigHeader =>
        match checkTimestamp hostToleranceSec spec input.now (some (.text tsRaw))
            "invalid webhook-timestamp" with
        | some reason => .rejected reason
        | none =>
          let expected := base64 (hmac key (utf8 (standardContent id tsRaw input.rawBody)))
          if (split [' '] sigHeader).any (isMatch expected) then .accepted
          else .rejected "webhook-signature mismatch".toList
      | _, _, _ =>
        .rejected "missing webhook-id/webhook-timestamp/webhook-signature header".toList

def textOf (value : Option HeaderValue) : Text :=
  match value with
  | some (.text t) => t
  | _ => []

def declared (name : Option Text) : Bool := name.any fun t => !t.isEmpty

/-- The template with its tokens replaced in one pass. -/
def signedContent (spec : IngressSignatureSpec) (input : VerifyInput) : Text :=
  singlePass (spec.contentTemplate.getD rawBodyKey)
    ⟨input.rawBody, textOf (header toLowerCase input.headers spec.timestampHeader), input.instanceId⟩

def verdictOf (equal : Except TypeError Bool) (mismatch : String) : Except TypeError Verdict :=
  equal.map fun b => if b then .accepted else .rejected mismatch.toList

def checkPresented (spec : IngressSignatureSpec) (input : VerifyInput) : Except TypeError Verdict :=
  match header toLowerCase input.headers spec.header with
  | none | some (.text []) => .ok (.rejected "missing signature header".toList)
  | some provided =>
    if spec.scheme = .sharedSecret then verdictOf (safeEqualStr provided input.secret) "shared-secret mismatch"
    else
      let digest := encodeDigest (spec.encoding.getD .hex)
        (hmac (utf8 input.secret) (utf8 (signedContent toLowerCase spec input)))
      verdictOf (safeEqualStr provided (spec.macPrefix.getD [] ++ digest)) "hmac mismatch"

def verifyIngressSignature (spec : IngressSignatureSpec) (input : VerifyInput) : Except TypeError Verdict :=
  if spec.scheme = .none then .ok .accepted
  else if input.secret.isEmpty then .ok (.rejected "empty ingress secret".toList)
  else if spec.scheme = .standardWebhooks then .ok (verifyStandardWebhooks hostToleranceSec hmac spec input)
  else if declared spec.timestampHeader then
    match checkTimestamp hostToleranceSec spec input.now
        (header toLowerCase input.headers spec.timestampHeader) "missing/invalid timestamp" with
    | some reason => .ok (.rejected reason)
    | none => checkPresented toLowerCase hmac spec input
  else checkPresented toLowerCase hmac spec input

/-! ### The declared scheme -/

section Scheme

/-- What a timestamp of decimal digits says. -/
def timestampOf (raw : Text) : Option Nat :=
  if raw ≠ [] ∧ raw.all Char.isDigit then toDouble (digitsValue raw) else none

/-- The timestamp that the scheme checks, if it checks one. -/
def timestampOfScheme (spec : IngressSignatureSpec) (input : VerifyInput) : Option (Option HeaderValue) :=
  match spec.scheme with
  | .none => none
  | .standardWebhooks => some ((sent input.headers "webhook-timestamp").map .text)
  | .hmacSha256 | .sharedSecret =>
    if declared spec.timestampHeader then some (header toLowerCase input.headers spec.timestampHeader)
    else none

def WithinTolerance (spec : IngressSignatureSpec) (input : VerifyInput) (ts : Int) : Prop :=
  skewSec input.now ts ≤ spec.toleranceSec.getD hostToleranceSec

/-- `read` takes a fresh timestamp from the header, where the scheme checks one. -/
def Timely (read : Text → Option Int) (spec : IngressSignatureSpec) (input : VerifyInput) : Prop :=
  ∀ value ∈ timestampOfScheme toLowerCase spec input, ∃ raw ts, value = some (.text raw) ∧
    read raw = some ts ∧ WithinTolerance hostToleranceSec spec input ts

/-- The text that the digest of an `hmac-sha256` route is taken of. -/
def SignedText (spec : IngressSignatureSpec) (input : VerifyInput) (content : Text) : Prop :=
  Substituted [(rawBodyKey, input.rawBody),
    (timestampKey, textOf (header toLowerCase input.headers spec.timestampHeader)),
    (idKey, input.instanceId)] (spec.contentTemplate.getD rawBodyKey) content

/-- A signature that the request presents is the one of the scheme. -/
def Signed (spec : IngressSignatureSpec) (input : VerifyInput) : Prop :=
  match spec.scheme with
  | .none => True
  | .sharedSecret =>
    input.secret ≠ [] ∧ header toLowerCase input.headers spec.header = some (.text input.secret)
  | .hmacSha256 =>
    input.secret ≠ [] ∧ ∃ provided content, provided ≠ [] ∧
      header toLowerCase input.headers spec.header = some (.text provided) ∧
      SignedText toLowerCase spec input content ∧
      provided = spec.macPrefix.getD [] ++
        encodeDigest (spec.encoding.getD .hex) (hmac (utf8 input.secret) (utf8 content))
  | .standardWebhooks =>
    input.secret ≠ [] ∧ ∃ keyB64 id tsRaw sigHeader, parseWebhookSecret input.secret = some keyB64 ∧
      base64Decode keyB64 ≠ [] ∧ sent input.headers "webhook-id" = some id ∧
      sent input.headers "webhook-timestamp" = some tsRaw ∧
      sent input.headers "webhook-signature" = some sigHeader ∧
      ['v', '1', ','] ++ base64 (hmac (base64Decode keyB64) (utf8 (standardContent id tsRaw input.rawBody))) ∈
        split [' '] sigHeader

/-- The scheme accepts the request. -/
def Valid (spec : IngressSignatureSpec) (input : VerifyInput) : Prop :=
  Signed toLowerCase hmac spec input ∧
    Timely toLowerCase hostToleranceSec (fun raw => (timestampOf raw).map Int.ofNat) spec input

/-- The request is answered, and accepted exactly if the scheme accepts it. -/
def FollowsScheme (spec : IngressSignatureSpec) (input : VerifyInput) : Prop :=
  ∃ verdict, verifyIngressSignature toLowerCase hostToleranceSec hmac spec input = .ok verdict ∧
    (verdict = .accepted ↔ Valid toLowerCase hostToleranceSec hmac spec input)

/-- The timestamp is no number, but starts with one that is fresh. -/
def StartsFresh (spec : IngressSignatureSpec) (input : VerifyInput) : Prop :=
  ∃ value ∈ timestampOfScheme toLowerCase spec input, ∃ raw ts, value = some (.text raw) ∧
    timestampOf raw = none ∧ finite? (parseInt raw) = some ts ∧ WithinTolerance hostToleranceSec spec input ts

/-- The declared signature header is missing and has a name that every object answers to. -/
def AsksPrototype (spec : IngressSignatureSpec) (input : VerifyInput) : Prop :=
  (spec.scheme = .hmacSha256 ∨ spec.scheme = .sharedSecret) ∧ input.secret ≠ [] ∧
    header toLowerCase input.headers spec.header = some .inherited

end Scheme

section Reading

variable {toLowerCase hostToleranceSec hmac} {spec : IngressSignatureSpec} {input : VerifyInput}

theorem parseInt_of_digits {raw : Text} (hne : raw ≠ []) (hdigits : raw.all Char.isDigit = true) :
    finite? (parseInt raw) = (toDouble (digitsValue raw)).map Int.ofNat := by
  cases raw with
  | nil => contradiction
  | cons c raw =>
    have hc : c.isDigit = true := by
      rw [List.all_cons, Bool.and_eq_true] at hdigits
      exact hdigits.1
    have htrim : trimStart (c :: raw) = c :: raw := by simp [trimStart, isWhiteSpace_of_isDigit hc]
    have hminus : c ≠ '-' := fun h => by simp [h] at hc
    have hplus : c ≠ '+' := fun h => by simp [h] at hc
    have htake : (c :: raw).takeWhile Char.isDigit = c :: raw :=
      List.takeWhile_eq_self_iff.mpr (List.all_eq_true.mp hdigits)
    unfold parseInt
    simp only [htrim, List.head?_cons, Option.some.injEq, hminus, hplus, decide_false, Bool.or_false,
      Bool.false_eq_true, if_false, htake]
    cases toDouble (digitsValue (c :: raw)) with
    | none => rfl
    | some v => simp [finite?]

/-- The code reads every proper timestamp, and some others. -/
theorem finite?_parseInt_of_timestampOf {raw : Text} {n : Nat} (h : timestampOf raw = some n) :
    finite? (parseInt raw) = some (n : Int) := by
  unfold timestampOf at h
  split at h
  . next hraw =>
    rw [parseInt_of_digits hraw.1 hraw.2, h]
    rfl
  . contradiction

theorem checkTimestamp_eq_none_iff {value : Option HeaderValue} {invalid : String} :
    checkTimestamp hostToleranceSec spec input.now value invalid = none ↔
      ∃ raw ts, value = some (.text raw) ∧ finite? (parseInt raw) = some ts ∧
        WithinTolerance hostToleranceSec spec input ts := by
  unfold checkTimestamp
  match value with
  | none => simp [readTimestamp]
  | some .inherited => simp [readTimestamp]
  | some (.text raw) =>
    simp only [readTimestamp, Option.some.injEq, HeaderValue.text.injEq]
    cases hread : finite? (parseInt raw) with
    | none =>
      constructor
      . intro h
        contradiction
      . rintro ⟨_, ts, rfl, hts, -⟩
        rw [hread] at hts
        contradiction
    | some ts =>
      dsimp only
      split
      . next hstale =>
        constructor
        . intro h
          contradiction
        . rintro ⟨_, ts', rfl, hts, hfresh⟩
          rw [hread, Option.some.injEq] at hts
          exact absurd (hts ▸ hfresh) (not_le_of_gt hstale)
      . next hfresh =>
        exact ⟨fun _ => ⟨raw, ts, rfl, hread, le_of_not_gt hfresh⟩, fun _ => rfl⟩

theorem isMatch_iff {expected candidate : Text} :
    isMatch expected candidate = true ↔ ['v', '1', ','] ++ expected = candidate := by
  simp only [isMatch, Bool.and_eq_true, decide_eq_true_eq]
  constructor
  . rintro ⟨⟨hmem, hversion⟩, hrest⟩
    have hsplit := List.takeWhile_append_dropWhile (p := fun c => decide (c ≠ ',')) (l := candidate)
    cases hdrop : candidate.dropWhile fun c => decide (c ≠ ',') with
    | nil =>
      have hall := List.dropWhile_eq_nil_iff.mp hdrop ',' hmem
      simp at hall
    | cons c rest =>
      have hc := List.head?_dropWhile_not (fun c => decide (c ≠ ',')) candidate
      simp only [hdrop, List.head?_cons, decide_eq_false_iff_not, not_not] at hc
      rw [hdrop, List.tail_cons] at hrest
      rw [hversion, hdrop, hc, hrest] at hsplit
      exact hsplit
  . rintro rfl
    simp

theorem distinguished_tokens (ctx : AckRenderCtx) :
    Distinguished [(rawBodyKey, ctx.rawBody), (timestampKey, ctx.timestamp), (idKey, ctx.id)] where
  ne_nil rule hrule := by
    have hkeys : ∀ key ∈ [rawBodyKey, timestampKey, idKey], key ≠ [] := by decide
    apply hkeys
    exact List.mem_map_of_mem (f := Prod.fst) hrule
  eq_of_prefix a ha b hb hpre := by
    have hkeys : [rawBodyKey, timestampKey, idKey].Pairwise fun a b => ¬ a <+: b ∧ ¬ b <+: a := by decide
    have hrules : [(rawBodyKey, ctx.rawBody), (timestampKey, ctx.timestamp), (idKey, ctx.id)].Pairwise
        fun a b => ¬ a.1 <+: b.1 ∧ ¬ b.1 <+: a.1 := List.Pairwise.of_map Prod.fst (fun _ _ h => h) hkeys
    by_contra hne
    rcases List.Pairwise.forall_of_forall_of_flip (R := fun a b => a ≠ b → ¬ a.1 <+: b.1)
      (fun _ _ h => absurd rfl h) (hrules.imp fun h _ => h.1) (hrules.imp fun h _ => h.2) ha hb hne hpre

theorem signedText_iff {content : Text} :
    SignedText toLowerCase spec input content ↔ signedContent toLowerCase spec input = content :=
  substituted_iff (distinguished_tokens ⟨input.rawBody,
    textOf (header toLowerCase input.headers spec.timestampHeader), input.instanceId⟩)

/-- What `checkPresented` compares the header with. -/
def expectedOf (toLowerCase : Text → Text) (hmac : List Nat → List Nat → List Nat)
    (spec : IngressSignatureSpec) (input : VerifyInput) : Text :=
  if spec.scheme = .sharedSecret then input.secret
  else spec.macPrefix.getD [] ++ encodeDigest (spec.encoding.getD .hex)
    (hmac (utf8 input.secret) (utf8 (signedContent toLowerCase spec input)))

theorem signed_iff (hscheme : spec.scheme = .hmacSha256 ∨ spec.scheme = .sharedSecret)
    (hsecret : input.secret ≠ []) :
    Signed toLowerCase hmac spec input ↔ ∃ provided, provided ≠ [] ∧
      header toLowerCase input.headers spec.header = some (.text provided) ∧
      provided = expectedOf toLowerCase hmac spec input := by
  unfold Signed expectedOf
  rcases hscheme with hscheme | hscheme
  . simp only [hscheme, signedText_iff, reduceCtorEq, if_false]
    constructor
    . rintro ⟨-, provided, _, hne, hheader, rfl, heq⟩
      exact ⟨provided, hne, hheader, heq⟩
    . rintro ⟨provided, hne, hheader, heq⟩
      exact ⟨hsecret, provided, _, hne, hheader, rfl, heq⟩
  . simp only [hscheme, if_true]
    constructor
    . rintro ⟨hne, hheader⟩
      exact ⟨input.secret, hne, hheader, rfl⟩
    . rintro ⟨provided, hne, hheader, rfl⟩
      exact ⟨hne, hheader⟩

theorem accepted_iff_of_verdictOf {b : Bool} {mismatch : String} {verdict : Verdict}
    (h : verdictOf (.ok b) mismatch = .ok verdict) : verdict = .accepted ↔ b = true := by
  cases h
  cases b
  . exact ⟨fun h => Verdict.noConfusion h, fun h => Bool.noConfusion h⟩
  . exact ⟨fun _ => rfl, fun _ => rfl⟩

/-- A declared header decides what becomes of the request. -/
theorem checkPresented_text {provided : Text} (hne : provided ≠ [])
    (hheader : header toLowerCase input.headers spec.header = some (.text provided)) :
    ∃ mismatch, checkPresented toLowerCase hmac spec input =
      verdictOf (.ok (decide (provided = expectedOf toLowerCase hmac spec input))) mismatch := by
  rcases List.exists_cons_of_ne_nil hne with ⟨c, t, rfl⟩
  simp only [checkPresented, hheader, expectedOf]
  split
  . exact ⟨_, rfl⟩
  . exact ⟨_, rfl⟩

theorem checkPresented_inherited
    (hheader : header toLowerCase input.headers spec.header = some .inherited) :
    checkPresented toLowerCase hmac spec input = .error .invalidArgType := by
  simp only [checkPresented, hheader]
  split <;> rfl

theorem checkPresented_missing
    (hheader : ∀ provided, provided ≠ [] → header toLowerCase input.headers spec.header ≠ some (.text provided))
    (hinherited : header toLowerCase input.headers spec.header ≠ some .inherited) :
    checkPresented toLowerCase hmac spec input = .ok (.rejected "missing signature header".toList) := by
  unfold checkPresented
  match header toLowerCase input.headers spec.header, hheader, hinherited with
  | none, _, _ => rfl
  | some (.text []), _, _ => rfl
  | some (.text (c :: t)), hheader, _ => exact absurd rfl (hheader (c :: t) (by simp))
  | some .inherited, _, hinherited => exact absurd rfl hinherited

theorem checkPresented_ok (hscheme : spec.scheme = .hmacSha256 ∨ spec.scheme = .sharedSecret)
    (hsecret : input.secret ≠ [])
    (hinherited : header toLowerCase input.headers spec.header ≠ some .inherited) :
    ∃ verdict, checkPresented toLowerCase hmac spec input = .ok verdict ∧
      (verdict = .accepted ↔ Signed toLowerCase hmac spec input) := by
  rw [signed_iff hscheme hsecret]
  by_cases hsent : ∃ provided, provided ≠ [] ∧
      header toLowerCase input.headers spec.header = some (.text provided)
  . rcases hsent with ⟨provided, hne, hheader⟩
    have hcheck : ∃ mismatch, checkPresented toLowerCase hmac spec input =
        verdictOf (.ok (decide (provided = expectedOf toLowerCase hmac spec input))) mismatch :=
      checkPresented_text hne hheader
    rcases hcheck with ⟨mismatch, hcheck⟩
    refine ⟨_, hcheck, ?_⟩
    rw [accepted_iff_of_verdictOf rfl, decide_eq_true_eq]
    constructor
    . exact fun heq => ⟨provided, hne, hheader, heq⟩
    . rintro ⟨provided', -, hheader', heq⟩
      rw [hheader, Option.some.injEq, HeaderValue.text.injEq] at hheader'
      rw [hheader', heq]
  . have hnone : ∀ provided, provided ≠ [] →
        header toLowerCase input.headers spec.header ≠ some (.text provided) :=
      fun provided hne hheader => hsent ⟨provided, hne, hheader⟩
    refine ⟨_, checkPresented_missing hnone hinherited, ?_⟩
    constructor
    . intro h
      contradiction
    . rintro ⟨provided, hne, hheader, -⟩
      exact absurd hheader (hnone provided hne)

theorem verifyStandardWebhooks_iff (hscheme : spec.scheme = .standardWebhooks) (hsecret : input.secret ≠ []) :
    verifyStandardWebhooks hostToleranceSec hmac spec input = .accepted ↔
      Signed toLowerCase hmac spec input ∧
        Timely toLowerCase hostToleranceSec (fun raw => finite? (parseInt raw)) spec input := by
  simp only [Signed, Timely, timestampOfScheme, hscheme, Option.mem_def, Option.some.injEq, forall_eq']
  unfold verifyStandardWebhooks
  constructor
  . intro h
    split at h
    . contradiction
    . next keyB64 hsecretB64 =>
      dsimp only at h
      split at h
      . contradiction
      . next hkey =>
        split at h
        . next id tsRaw sigHeader hid hts hsig =>
          split at h
          . contradiction
          . next hcheck =>
            split at h
            . next hany =>
              rcases List.any_eq_true.mp hany with ⟨candidate, hmem, hmatch⟩
              rw [← isMatch_iff.mp hmatch] at hmem
              rw [List.isEmpty_iff] at hkey
              refine ⟨⟨hsecret, keyB64, id, tsRaw, sigHeader, hsecretB64, hkey, hid, hts, hsig, hmem⟩, ?_⟩
              rw [hts]
              exact checkTimestamp_eq_none_iff.mp hcheck
            . contradiction
        . contradiction
  . rintro ⟨⟨-, keyB64, id, tsRaw, sigHeader, hsecretB64, hkey, hid, hts, hsig, hmem⟩, htimely⟩
    rw [hts] at htimely
    have hcheck : checkTimestamp hostToleranceSec spec input.now (some (.text tsRaw))
        "invalid webhook-timestamp" = none := checkTimestamp_eq_none_iff.mpr htimely
    have hany : (split [' '] sigHeader).any (isMatch (base64 (hmac (base64Decode keyB64)
        (utf8 (standardContent id tsRaw input.rawBody))))) = true :=
      List.any_eq_true.mpr ⟨_, hmem, isMatch_iff.mpr rfl⟩
    simp only [hsecretB64, List.isEmpty_eq_false_iff.mpr hkey, hid, hts, hsig, hcheck, hany,
      Bool.false_eq_true, if_false, if_true]

theorem timely_iff_of_header {read : Text → Option Int}
    (hscheme : spec.scheme = .hmacSha256 ∨ spec.scheme = .sharedSecret) :
    Timely toLowerCase hostToleranceSec read spec input ↔ (declared spec.timestampHeader = true →
      ∃ raw ts, header toLowerCase input.headers spec.timestampHeader = some (.text raw) ∧
        read raw = some ts ∧ WithinTolerance hostToleranceSec spec input ts) := by
  have hsource : timestampOfScheme toLowerCase spec input =
      if declared spec.timestampHeader then
        some (header toLowerCase input.headers spec.timestampHeader)
      else none := by
    unfold timestampOfScheme
    rcases hscheme with hscheme | hscheme <;> rw [hscheme]
  rw [Timely, hsource]
  cases declared spec.timestampHeader with
  | false => simp
  | true => simp

theorem verifyIngressSignature_of_header
    (hscheme : spec.scheme = .hmacSha256 ∨ spec.scheme = .sharedSecret) (hsecret : input.secret ≠ []) :
    (Timely toLowerCase hostToleranceSec (fun raw => finite? (parseInt raw)) spec input →
      verifyIngressSignature toLowerCase hostToleranceSec hmac spec input =
        checkPresented toLowerCase hmac spec input) ∧
    (¬ Timely toLowerCase hostToleranceSec (fun raw => finite? (parseInt raw)) spec input →
      ∃ reason, verifyIngressSignature toLowerCase hostToleranceSec hmac spec input =
        .ok (.rejected reason)) := by
  have hnone : spec.scheme ≠ .none := by rcases hscheme with h | h <;> rw [h] <;> decide
  have hstandard : spec.scheme ≠ .standardWebhooks := by rcases hscheme with h | h <;> rw [h] <;> decide
  rw [timely_iff_of_header hscheme]
  unfold verifyIngressSignature
  rw [if_neg hnone, if_neg (by simpa using hsecret), if_neg hstandard]
  cases hdeclared : declared spec.timestampHeader with
  | false => simp
  | true =>
    simp only [if_true, forall_const]
    have hread : checkTimestamp hostToleranceSec spec input.now
        (header toLowerCase input.headers spec.timestampHeader) "missing/invalid timestamp" = none ↔ _ :=
      checkTimestamp_eq_none_iff
    rw [← hread]
    cases checkTimestamp hostToleranceSec spec input.now
        (header toLowerCase input.headers spec.timestampHeader) "missing/invalid timestamp" with
    | none => exact ⟨fun _ => rfl, fun h => absurd rfl h⟩
    | some reason => exact ⟨fun h => by contradiction, fun _ => ⟨reason, rfl⟩⟩

/-- A header that every object answers to is hashed, which throws. -/
theorem verifyIngressSignature_error (hasks : AsksPrototype toLowerCase spec input)
    (htimely : Timely toLowerCase hostToleranceSec (fun raw => finite? (parseInt raw)) spec input) :
    verifyIngressSignature toLowerCase hostToleranceSec hmac spec input = .error .invalidArgType := by
  rcases hasks with ⟨hscheme, hsecret, hinherited⟩
  rw [(verifyIngressSignature_of_header hscheme hsecret).1 htimely, checkPresented_inherited hinherited]

theorem secret_ne_nil_of_signed (hscheme : spec.scheme ≠ .none)
    (h : Signed toLowerCase hmac spec input) : input.secret ≠ [] := by
  unfold Signed at h
  cases hspec : spec.scheme with
  | none => contradiction
  | hmacSha256 | sharedSecret | standardWebhooks =>
    rw [hspec] at h
    exact h.1

/-- Otherwise the code accepts what is signed and carries a timestamp that it reads as fresh. -/
theorem verifyIngressSignature_ok
    (h : ¬ (AsksPrototype toLowerCase spec input ∧
      Timely toLowerCase hostToleranceSec (fun raw => finite? (parseInt raw)) spec input)) :
    ∃ verdict, verifyIngressSignature toLowerCase hostToleranceSec hmac spec input = .ok verdict ∧
      (verdict = .accepted ↔ Signed toLowerCase hmac spec input ∧
        Timely toLowerCase hostToleranceSec (fun raw => finite? (parseInt raw)) spec input) := by
  by_cases hnone : spec.scheme = .none
  . refine ⟨.accepted, by simp [verifyIngressSignature, hnone], ?_⟩
    simp [Signed, Timely, timestampOfScheme, hnone]
  by_cases hsecret : input.secret = []
  . refine ⟨.rejected "empty ingress secret".toList, by simp [verifyIngressSignature, hnone, hsecret], ?_⟩
    constructor
    . intro h
      contradiction
    . intro h
      exact absurd hsecret (secret_ne_nil_of_signed hnone h.1)
  by_cases hstandard : spec.scheme = .standardWebhooks
  . refine ⟨_, ?_, verifyStandardWebhooks_iff hstandard hsecret⟩
    simp [verifyIngressSignature, hstandard, hsecret]
  have hscheme : spec.scheme = .hmacSha256 ∨ spec.scheme = .sharedSecret := by
    cases hspec : spec.scheme <;> simp_all
  by_cases htimely : Timely toLowerCase hostToleranceSec (fun raw => finite? (parseInt raw)) spec input
  . rw [(verifyIngressSignature_of_header hscheme hsecret).1 htimely]
    have hinherited : header toLowerCase input.headers spec.header ≠ some .inherited :=
      fun hinherited => h ⟨⟨hscheme, hsecret, hinherited⟩, htimely⟩
    rw [and_iff_left htimely]
    exact checkPresented_ok hscheme hsecret hinherited
  . rcases (verifyIngressSignature_of_header hscheme hsecret).2 htimely with ⟨reason, heq⟩
    refine ⟨_, heq, ?_⟩
    constructor
    . intro h
      contradiction
    . intro h
      exact absurd h.2 htimely

/-- The code reads more timestamps than there are, by the ones that start with a fresh number. -/
theorem timely_parseInt_iff :
    Timely toLowerCase hostToleranceSec (fun raw => finite? (parseInt raw)) spec input ↔
      Timely toLowerCase hostToleranceSec (fun raw => (timestampOf raw).map Int.ofNat) spec input ∨
        StartsFresh toLowerCase hostToleranceSec spec input := by
  unfold Timely StartsFresh
  cases timestampOfScheme toLowerCase spec input with
  | none => simp
  | some value =>
    simp only [Option.mem_def, Option.some.injEq, forall_eq', exists_eq_left', Option.map_eq_some_iff]
    constructor
    . rintro ⟨raw, ts, hvalue, hread, hfresh⟩
      cases hof : timestampOf raw with
      | none => exact .inr ⟨raw, ts, hvalue, hof, hread, hfresh⟩
      | some n =>
        rw [finite?_parseInt_of_timestampOf hof, Option.some.injEq] at hread
        exact .inl ⟨raw, ts, hvalue, ⟨n, hof, hread⟩, hfresh⟩
    . rintro (⟨raw, ts, hvalue, ⟨n, hof, rfl⟩, hfresh⟩ | ⟨raw, ts, hvalue, -, hread, hfresh⟩)
      . exact ⟨raw, n, hvalue, finite?_parseInt_of_timestampOf hof, hfresh⟩
      . exact ⟨raw, ts, hvalue, hread, hfresh⟩

theorem not_timely_of_startsFresh (h : StartsFresh toLowerCase hostToleranceSec spec input) :
    ¬ Timely toLowerCase hostToleranceSec (fun raw => (timestampOf raw).map Int.ofNat) spec input := by
  rcases h with ⟨value, hvalue, raw, ts, htext, hof, -, -⟩
  intro htimely
  rcases htimely value hvalue with ⟨raw', ts', htext', hof', -⟩
  rw [htext, Option.some.injEq, HeaderValue.text.injEq] at htext'
  simp [← htext', hof] at hof'

theorem not_followsScheme_of_startsFresh (hsigned : Signed toLowerCase hmac spec input)
    (h : StartsFresh toLowerCase hostToleranceSec spec input) :
    ¬ FollowsScheme toLowerCase hostToleranceSec hmac spec input := by
  rintro ⟨verdict, heq, hiff⟩
  have htimely := timely_parseInt_iff.mpr (.inr h)
  have hasks : ¬ (AsksPrototype toLowerCase spec input ∧
      Timely toLowerCase hostToleranceSec (fun raw => finite? (parseInt raw)) spec input) := by
    intro hasks
    rw [verifyIngressSignature_error hasks.1 hasks.2] at heq
    contradiction
  rcases verifyIngressSignature_ok hasks with ⟨verdict', heq', hiff'⟩
  rw [heq, Except.ok.injEq] at heq'
  have haccepted := hiff'.mpr ⟨hsigned, htimely⟩
  exact not_timely_of_startsFresh h (hiff.mp (heq'.trans haccepted)).2

/--
The code follows the declared scheme, unless a signed request carries a timestamp that only starts with a
fresh number, or the check comes to a signature header whose name every object answers to.
-/
theorem followsScheme_iff :
    FollowsScheme toLowerCase hostToleranceSec hmac spec input ↔
      ¬ (Signed toLowerCase hmac spec input ∧ StartsFresh toLowerCase hostToleranceSec spec input) ∧
      ¬ (AsksPrototype toLowerCase spec input ∧
        Timely toLowerCase hostToleranceSec (fun raw => finite? (parseInt raw)) spec input) := by
  constructor
  . intro h
    refine ⟨fun hlenient => not_followsScheme_of_startsFresh hlenient.1 hlenient.2 h, fun hasks => ?_⟩
    rcases h with ⟨verdict, heq, -⟩
    rw [verifyIngressSignature_error hasks.1 hasks.2] at heq
    contradiction
  . rintro ⟨hlenient, hasks⟩
    rcases verifyIngressSignature_ok hasks with ⟨verdict, heq, hiff⟩
    refine ⟨verdict, heq, hiff.trans ?_⟩
    rw [timely_parseInt_iff]
    constructor
    . rintro ⟨hsigned, htimely | hfresh⟩
      . exact ⟨hsigned, htimely⟩
      . exact absurd ⟨hsigned, hfresh⟩ hlenient
    . exact fun hvalid => ⟨hvalid.1, .inl hvalid.2⟩

/-- A route over the raw body with a timestamp that is not signed. -/
def unsignedTimestamp : IngressSignatureSpec where
  scheme := .hmacSha256
  header := some "x-sig".toList
  contentTemplate := none
  encoding := none
  macPrefix := some "sha256=".toList
  timestampHeader := some "x-ts".toList
  toleranceSec := none

def signedWithJunk (hmac : List Nat → List Nat → List Nat) : VerifyInput where
  rawBody := "\x7b\x7d".toList
  headers := (Js.Map.empty.set "x-ts".toList "1700000000, 1".toList).set "x-sig".toList
    ("sha256=".toList ++ encodeDigest .hex (hmac (utf8 "k".toList) (utf8 "\x7b\x7d".toList)))
  secret := "k".toList
  now := 1700000000000
  instanceId := "i".toList

/-- Two timestamp headers, which are joined before the check, pass for the first of them. -/
theorem followsScheme_two_timestamps :
    ¬∃ hmac : List Nat → List Nat → List Nat,
      FollowsScheme id 300 hmac unsignedTimestamp (signedWithJunk hmac) := by
  rintro ⟨hmac, hfollows⟩
  refine not_followsScheme_of_startsFresh ?_ ?_ hfollows
  . refine ⟨by simp [signedWithJunk], _, _, ?_, rfl, signedText_iff.mpr rfl, rfl⟩
    simp
  . refine ⟨_, rfl, "1700000000, 1".toList, 1700000000, rfl, by decide, by decide +kernel, ?_⟩
    simp only [WithinTolerance, skewSec, signedWithJunk, unsignedTimestamp]
    norm_num

end Reading

end OpenWA.Ingress
