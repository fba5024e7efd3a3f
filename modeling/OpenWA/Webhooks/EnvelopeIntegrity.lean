import OpenWA.Webhooks.Envelope

/-!
This module contains what the receiver can rely on in the requests of a delivery: the identity in the body,
the size, the reserved headers and the signature, on every path.
-/

namespace OpenWA.Webhooks.Envelope

open Js

section Headers

/-- The header names that are the server's, whatever their casing. -/
def isReserved (key : String) : Bool :=
  let name := key.toList.map Char.toLower
  name = "content-type".toList || "x-openwa-".toList.isPrefixOf name

def reserved (headers : Fields) : List (String × Json) :=
  headers.entries.filter fun entry => isReserved entry.1

/-- The reserved headers before a signature. -/
def identityHeaders (id : Identity) (retries : Nat) : List (String × Json) :=
  [("Content-Type", .string "application/json"),
    ("X-OpenWA-Event", .string id.event),
    ("X-OpenWA-Idempotency-Key", .string id.idempotencyKey),
    ("X-OpenWA-Delivery-Id", .string id.deliveryId),
    ("X-OpenWA-Retry-Count", .string (String.ofList (Nat.toDigits 10 retries)))]

theorem reserved_set_of_neg {key : String} (h : isReserved key = false) (headers : Fields) (value : Json) :
    reserved (headers.set key value) = reserved headers := by
  rw [reserved, Fields.entries_set, Map.filter_setEntries_of_neg h, reserved]

theorem reserved_set_of_pos {key : String} (h : isReserved key = true) (headers : Fields) (value : Json) :
    reserved (headers.set key value) = Map.setEntries (reserved headers) key value := by
  rw [reserved, Fields.entries_set, Map.filter_setEntries_of_pos h, reserved]

theorem get?_of_isReserved {key : String} (h : isReserved key = true) (headers : Fields) :
    headers.get? key = (reserved headers).lookup key := by
  rw [Fields.get?_eq_lookup, reserved, Map.lookup_filter_of_pos h]

theorem reserved_setRetryCount {headers : Fields} {id : Identity} {retries : Nat}
    {signed : List (String × Json)} (h : reserved headers = identityHeaders id retries ++ signed) (n : Nat) :
    reserved (setRetryCount headers n) = identityHeaders id n ++ signed := by
  rw [setRetryCount, reserved_set_of_pos (by decide), h]
  simp [identityHeaders, Map.setEntries]

theorem reserved_sign {headers : Fields} {id : Identity} {retries : Nat}
    (h : reserved headers = identityHeaders id retries) (value : Json) :
    reserved (headers.set "X-OpenWA-Signature" value) =
      identityHeaders id retries ++ [("X-OpenWA-Signature", value)] := by
  rw [reserved_set_of_pos (by decide), h]
  simp [identityHeaders, Map.setEntries]

theorem systemHeaders_eq (id : Identity) : systemHeaders id =
    .cons "Content-Type" (.string "application/json")
      (.cons "User-Agent" (.string "OpenWA-Webhook/1.0.0")
        (.cons "X-OpenWA-Event" (.string id.event)
          (.cons "X-OpenWA-Idempotency-Key" (.string id.idempotencyKey)
            (.cons "X-OpenWA-Delivery-Id" (.string id.deliveryId)
              (.cons "X-OpenWA-Retry-Count" (.string "0") .nil))))) := by
  simp [systemHeaders, Fields.ofList, Fields.set]

theorem reserved_spread_systemHeaders {headers : Fields} (h : reserved headers = []) (id : Identity) :
    reserved (headers.spread (systemHeaders id)) = identityHeaders id 0 := by
  rw [systemHeaders_eq]
  simp only [Fields.spread]
  rw [reserved_set_of_pos (by decide), reserved_set_of_pos (by decide), reserved_set_of_pos (by decide),
    reserved_set_of_pos (by decide), reserved_set_of_neg (by decide), reserved_set_of_pos (by decide), h]
  simp [identityHeaders, Map.setEntries]

theorem entries_headersObject {headers : List (Text × Text)}
    (h : (headers.map fun header => String.ofList header.1).Nodup) :
    (headersObject headers).entries =
      headers.map fun header => (String.ofList header.1, .string (String.ofList header.2)) := by
  have hnodup : (headers.map fun header => (String.ofList header.1,
      Json.string (String.ofList header.2))).map (·.1) |>.Nodup := by
    rw [List.map_map]
    exact h
  exact entries_foldl_set _ .nil hnodup

section Custom

variable (webhook : Subscription)

theorem safeHeaders_listed : ((sanitizeCustomHeaders webhook.headers).filter
    (fun header => header.1 ≠ "__proto__".toList) |>.map fun header => String.ofList header.1).Pairwise
      fun a b => a ≠ b ∧ keyBefore a b = true := by
  apply List.Pairwise.sublist _ webhook.headers_listed
  apply List.Sublist.map
  exact List.filter_sublist.trans List.filter_sublist

theorem entries_safeHeaders : (safeHeaders webhook.headers).entries =
    ((sanitizeCustomHeaders webhook.headers).filter fun header => header.1 ≠ "__proto__".toList).map
      fun header => (String.ofList header.1, .string (String.ofList header.2)) :=
  entries_headersObject ((safeHeaders_listed webhook).imp And.left)

theorem sound_safeHeaders : Sound (safeHeaders webhook.headers) where
  listed := by
    rw [Fields.Listed, Fields.keys, entries_safeHeaders, List.map_map]
    exact safeHeaders_listed webhook
  proper := by
    rw [Fields.proper_iff, entries_safeHeaders, List.forall_mem_map]
    intros
    trivial

theorem reserved_safeHeaders : reserved (safeHeaders webhook.headers) = [] := by
  rw [reserved, entries_safeHeaders, List.filter_eq_nil_iff, List.forall_mem_map]
  intro header hheader
  have hsafe := List.mem_of_mem_filter hheader
  rw [sanitizeCustomHeaders, List.mem_filter] at hsafe
  intro hreserved
  have hname : isReserved (String.ofList header.1) = true := hreserved
  simp only [isReserved, String.toList_ofList, Bool.or_eq_true, decide_eq_true_eq] at hname
  have hpassed := hsafe.2
  simp only [Bool.not_eq_eq_eq_not, Bool.not_true, Bool.or_eq_false_iff] at hpassed
  rcases hname with hname | hname
  . rw [hname] at hpassed
    exact absurd hpassed.1 (by decide)
  . rw [hname] at hpassed
    exact absurd hpassed.2 (by decide)

end Custom

end Headers

section Body

def Identified (id : Identity) (fields : Fields) : Prop :=
  ∀ entry ∈ id.entries, fields.get? entry.1 = some entry.2

theorem identified_assign (id : Identity) (fields : Fields) :
    Identified id (id.entries.foldl (fun fields entry => fields.set entry.1 entry.2) fields) := by
  unfold Identified
  simp [Identity.entries, Fields.get?_set]

theorem Identified.set_data {id : Identity} {fields : Fields} (h : Identified id fields) (value : Json) :
    Identified id (fields.set "data" value) := by
  intro entry hentry
  have hkey : entry.1 ≠ "data" := by
    revert entry
    simp [Identity.entries]
  rw [Fields.get?_set, if_neg hkey]
  exact h entry hentry

theorem sound_assign (id : Identity) {fields : Fields} (h : Sound fields) :
    Sound (id.entries.foldl (fun fields entry => fields.set entry.1 entry.2) fields) := by
  apply sound_foldl_set id.entries h
  simp only [Identity.entries, List.forall_mem_cons, Json.Proper, and_true]
  refine ⟨?_, ?_, ?_, ?_, ?_, List.forall_mem_nil _⟩ <;> decide

theorem ChainOutcome.chosenPayload_proper (outcome : ChainOutcome) : outcome.chosenPayload.Proper := by
  have hown : (Json.object outcome.payload.val).Proper :=
    ⟨outcome.payload.property.listed, outcome.payload.property.proper⟩
  unfold ChainOutcome.chosenPayload
  split
  . exact hown
  . exact hown
  . next payload _ hpayload =>
    rw [ChainOutcome.returnedPayload, Option.bind_eq_some_iff] at hpayload
    obtain ⟨⟨data, hproper⟩, _, hget⟩ := hpayload
    cases data with
    | object fields => exact Fields.Proper.get? fields hproper.2 hget
    | _ => contradiction

theorem base64ByteLength_lt (s : JsString) : base64ByteLength s < 2 ^ 53 := by
  unfold base64ByteLength
  dsimp only
  omega

theorem sound_omittedMedia {media : Fields} (h : media.Proper) {sizeBytes : Nat}
    (hsize : sizeBytes < 2 ^ 53) : Sound (omittedMedia media sizeBytes) := by
  apply sound_foldl_set _ sound_nil
  intro entry hentry
  simp only [List.mem_append, Option.mem_toList, Option.map_eq_some_iff, List.mem_cons,
    List.not_mem_nil, or_false] at hentry
  rcases hentry with (⟨value, hvalue, rfl⟩ | hfilename) | rfl | rfl
  . have hkey : arrayIndex "mimetype" = none := by decide
    exact ⟨hkey, Fields.Proper.get? media h hvalue⟩
  . have hkey : arrayIndex "filename" = none := by decide
    split at hfilename
    . cases hfilename
      exact ⟨hkey, trivial⟩
    . contradiction
  . have hkey : arrayIndex "omitted" = none := by decide
    exact ⟨hkey, trivial⟩
  . have hkey : arrayIndex "sizeBytes" = none := by decide
    exact ⟨hkey, nearestDouble_natCast hsize⟩

theorem sound_shedInlineMedia {fields shed : Fields} (hfields : fields.Proper) {maxBytes : Nat}
    (h : shedInlineMedia (fields.get? "data") maxBytes = some shed) : Sound shed := by
  unfold shedInlineMedia at h
  split at h
  . next data hdata =>
    have hdata := Fields.Proper.get? fields hfields hdata
    split at h
    . next media hmedia =>
      have hmedia := Fields.Proper.get? data hdata.2 hmedia
      split at h
      . next blob _ =>
        dsimp only at h
        split at h
        . contradiction
        . cases h
          have hsound := sound_omittedMedia hmedia.2 (base64ByteLength_lt (toUtf16 blob.toList))
          apply Sound.set ⟨hdata.1, hdata.2⟩ (by decide)
          exact ⟨hsound.listed, hsound.proper⟩
      . contradiction
    . contradiction
  . contradiction

/-- What passes the gate is its own text within the cap, and differs in what was shed at most. -/
theorem gateSize_ok {maxPayloadBytes : Nat} {payload finalPayload : Json} {body : Text}
    (h : gateSize maxPayloadBytes payload = .ok (finalPayload, body)) :
    body = stringify finalPayload ∧ byteLength body ≤ maxPayloadBytes ∧
      (finalPayload = payload ∨ ∃ fields shed, payload = .object fields ∧
        shedInlineMedia (fields.get? "data") 0 = some shed ∧
        finalPayload = .object (fields.set "data" (.object shed))) := by
  unfold gateSize at h
  dsimp only at h
  split at h
  . next hfits =>
    cases h
    exact ⟨rfl, hfits, .inl rfl⟩
  . split at h
    . next fields shed _ hshed =>
      split at h
      . next hfits =>
        cases h
        exact ⟨rfl, hfits, .inr ⟨fields, shed, rfl, hshed, rfl⟩⟩
      . contradiction
    . contradiction

end Body

/-- What preflight promises the delivery of a payload, whatever it is. -/
structure Prepared (d : Delivery) (p : Preflight) : Prop where
  text : p.body = stringify p.finalPayload
  proper : p.finalPayload.Proper
  headers : Sound p.headers
  reserved : reserved p.headers = identityHeaders d.identity 0

section Paths

variable (hmac : Text → Text → Text)

def signatureEntry (webhook : Webhook) (body : Text) : List (String × Json) :=
  match webhook.signingSecret with
  | some secret => [("X-OpenWA-Signature", signature hmac body secret)]
  | none => []

/-- The reserved headers of the request are the server's, each once, over the body that is sent. -/
def Dressed (d : Delivery) (req : Request) : Prop :=
  reserved req.headers =
    identityHeaders d.identity req.retries ++ signatureEntry hmac d.webhook.toWebhook req.body

theorem get?_signature {headers : Fields} {id : Identity} {retries : Nat} {signed : List (String × Json)}
    (h : reserved headers = identityHeaders id retries ++ signed) :
    headers.get? "X-OpenWA-Signature" = signed.lookup "X-OpenWA-Signature" := by
  rw [get?_of_isReserved (by decide), h]
  simp [identityHeaders, List.lookup_cons]

/-- A signature that is missing is added, and one that is there is that of the body already. -/
theorem reserved_attemptHeaders {webhook : Webhook} {headers : Fields} {body : Text} {id : Identity}
    {retries : Nat} {signed : List (String × Json)}
    (hsigned : signed = [] ∨ signed = signatureEntry hmac webhook body)
    (h : reserved headers = identityHeaders id retries ++ signed) (attempt : Nat) :
    reserved (attemptHeaders hmac webhook headers body attempt) =
      identityHeaders id (attempt - 1) ++ signatureEntry hmac webhook body := by
  have hcount := reserved_setRetryCount h (attempt - 1)
  unfold attemptHeaders
  unfold signatureEntry at hsigned ⊢
  cases hsecret : webhook.signingSecret with
  | none =>
    rw [hsecret] at hsigned
    have hnil : signed = [] := by
      rcases hsigned with hsigned | hsigned
      . exact hsigned
      . exact hsigned
    rw [hnil] at hcount
    exact hcount
  | some secret =>
    rw [hsecret] at hsigned
    dsimp only at hsigned ⊢
    rw [get?_signature hcount]
    rcases hsigned with rfl | rfl
    . have hmissing : isMissing none = true := by simp [isMissing]
      rw [List.lookup_nil, hmissing, if_pos rfl]
      rw [List.append_nil] at hcount
      exact reserved_sign hcount (signature hmac body secret)
    . have hpresent : isMissing ([("X-OpenWA-Signature", signature hmac body secret)].lookup
          "X-OpenWA-Signature") = false := by
        simp [isMissing, signature]
      rw [hpresent, if_neg Bool.false_ne_true]
      exact hcount

variable {d : Delivery} {p : Preflight}

theorem dressed_deliverWebhook {headers : Fields} {body : Text} {retries : Nat}
    {signed : List (String × Json)}
    (hsigned : signed = [] ∨ signed = signatureEntry hmac d.webhook.toWebhook body)
    (h : reserved headers = identityHeaders d.identity retries ++ signed) (attempt failures : Nat) :
    ∀ req ∈ deliverWebhook hmac d.webhook.toWebhook headers body attempt failures,
      req.body = body ∧ Dressed hmac d req := by
  have hattempt := reserved_attemptHeaders hmac hsigned h attempt
  induction failures generalizing headers retries signed attempt with
  | zero =>
    intro req hreq
    rw [deliverWebhook, List.mem_singleton] at hreq
    rw [hreq]
    exact ⟨rfl, hattempt⟩
  | succ failures ih =>
    intro req hreq
    unfold deliverWebhook at hreq
    rw [List.mem_cons] at hreq
    rcases hreq with hreq | hreq
    . rw [hreq]
      exact ⟨rfl, hattempt⟩
    . dsimp only at hreq
      split at hreq
      . have hnext := reserved_attemptHeaders hmac (.inr rfl) hattempt (attempt + 1)
        exact ih (.inr rfl) hattempt (attempt + 1) hnext req hreq
      . contradiction

theorem reserved_signedHeaders (h : Prepared d p) :
    reserved (signedHeaders hmac d.webhook.toWebhook p) =
      identityHeaders d.identity 0 ++ signatureEntry hmac d.webhook.toWebhook p.body := by
  unfold signedHeaders signatureEntry
  cases d.webhook.signingSecret with
  | none => rw [List.append_nil, h.reserved]
  | some secret => exact reserved_sign h.reserved (signature hmac p.body secret)

theorem sound_signedHeaders (h : Prepared d p) : Sound (signedHeaders hmac d.webhook.toWebhook p) := by
  unfold signedHeaders
  split
  . apply h.headers.set (by decide)
    trivial
  . exact h.headers

theorem sound_jobData (hpayload : p.finalPayload.Proper) {headers : Fields} (h : Sound headers) :
    Sound (jobData d p headers) := by
  have hone : IsDouble 1 := nearestDouble_natCast (n := 1) (by decide)
  have hretries : IsDouble (d.webhook.retryCount : Rat) := nearestDouble_natCast d.webhook.retryCount_lt
  apply sound_foldl_set _ sound_nil
  simp only [List.forall_mem_cons, Json.Proper, and_true]
  refine ⟨?_, ?_, ?_, ⟨?_, hpayload⟩, ⟨?_, h.listed, h.proper⟩, ⟨?_, hone⟩, ⟨?_, hretries⟩,
    List.forall_mem_nil _⟩ <;> decide

/-- The worker sends the text it would have been sent directly. -/
theorem process_jobData (hpayload : p.finalPayload.Proper) {headers : Fields} (h : Sound headers)
    (attemptsMade : Nat) :
    process (stringify (.object (jobData d p headers))) attemptsMade =
      some ⟨stringify p.finalPayload, setRetryCount headers attemptsMade, attemptsMade⟩ := by
  have hjob : (Json.object (jobData d p headers)).Proper :=
    ⟨(sound_jobData hpayload h).listed, (sound_jobData hpayload h).proper⟩
  have hget : (Json.object (jobData d p headers)).get? "payload" = some p.finalPayload := by
    simp [Json.get?, jobData, Fields.ofList, Fields.get?_set]
  have hheaders : (Json.object (jobData d p headers)).get? "headers" = some (.object headers) := by
    simp [Json.get?, jobData, Fields.ofList, Fields.get?_set]
  rw [process, parse_stringify hjob]
  dsimp only
  rw [hget, hheaders]

theorem dressed_requests (h : Prepared d p) (path : Path) :
    ∀ req ∈ requests hmac d p path, req.body = p.body ∧ Dressed hmac d req := by
  have hreserved := reserved_signedHeaders hmac h
  cases path with
  | direct failures =>
    apply dressed_deliverWebhook hmac (.inl rfl)
    rw [List.append_nil, h.reserved]
  | queued attemptsMade =>
    intro req hreq
    unfold requests at hreq
    dsimp only at hreq
    rw [process_jobData h.proper (sound_signedHeaders hmac h), ← h.text, Option.toList_some,
      List.mem_singleton] at hreq
    rw [hreq]
    constructor
    . rfl
    . exact reserved_setRetryCount hreserved attemptsMade
  | fallback failures =>
    exact dressed_deliverWebhook hmac (.inr rfl) hreserved 1 failures

theorem requests_ne_nil (h : Prepared d p) (path : Path) : requests hmac d p path ≠ [] := by
  cases path with
  | direct failures => cases failures <;> simp [requests, deliverWebhook]
  | queued attemptsMade =>
    unfold requests
    dsimp only
    rw [process_jobData h.proper (sound_signedHeaders hmac h)]
    simp
  | fallback failures => cases failures <;> simp [requests, deliverWebhook]

end Paths

section Preflight

variable {d : Delivery} {p : Preflight}

theorem sound_headers (d : Delivery) :
    Sound ((safeHeaders d.webhook.headers).spread (systemHeaders d.identity)) := by
  apply (sound_safeHeaders d.webhook).spread
  simp only [systemHeaders_eq, Fields.entries, List.forall_mem_cons, Json.Proper, and_true]
  refine ⟨?_, ?_, ?_, ?_, ?_, ?_, List.forall_mem_nil _⟩ <;> decide

theorem preflightDelivery_go (h : preflightDelivery d = .go p) :
    ∃ outcome payload, d.chain = .ok outcome ∧ outcome.shouldContinue = true ∧
      assertIdentity d.identity outcome.chosenPayload = .ok payload ∧
      gateSize d.maxPayloadBytes payload = .ok (p.finalPayload, p.body) ∧
      p.headers = (safeHeaders d.webhook.headers).spread (systemHeaders d.identity) := by
  unfold preflightDelivery at h
  split at h
  . contradiction
  . next outcome hchain =>
    split at h
    . next hcontinue =>
      cases hassert : assertIdentity d.identity outcome.chosenPayload with
      | error error =>
        rw [hassert] at h
        cases h
      | ok payload =>
        rw [hassert] at h
        simp only [bind, Except.bind] at h
        split at h
        . contradiction
        . next finalPayload body hgate =>
          cases h
          exact ⟨outcome, payload, hchain, hcontinue, hassert, hgate, rfl⟩
    . contradiction

/-- The payload is an object with the identity, or an array. -/
theorem assertIdentity_ok {id : Identity} {payload result : Json} (hproper : payload.Proper)
    (h : assertIdentity id payload = .ok result) :
    (∃ fields, result = .object fields ∧ Sound fields ∧ Identified id fields) ∨
      ∃ items, payload = .array items ∧ result = .array items := by
  cases payload with
  | object fields =>
    left
    cases h
    refine ⟨_, rfl, ?_, ?_⟩
    . exact sound_assign id ⟨hproper.1, hproper.2⟩
    . exact identified_assign id fields
  | array items =>
    right
    cases h
    exact ⟨items, rfl, rfl⟩
  | _ => contradiction

/-- The body is the text of an object that has the identity and fits, or of an array the hooks returned. -/
theorem preflightDelivery_prepared (h : preflightDelivery d = .go p) :
    Prepared d p ∧ byteLength p.body ≤ d.maxPayloadBytes ∧
      ((∃ fields, p.finalPayload = .object fields ∧ Identified d.identity fields) ∨
        ∃ outcome items, d.chain = .ok outcome ∧ outcome.shouldContinue = true ∧
          outcome.chosenPayload = .array items ∧ p.finalPayload = .array items) := by
  obtain ⟨outcome, payload, hchain, hcontinue, hassert, hgate, hheaders⟩ := preflightDelivery_go h
  obtain ⟨htext, hfits, hfinal⟩ := gateSize_ok hgate
  have hreserved := reserved_spread_systemHeaders (reserved_safeHeaders d.webhook) d.identity
  have hprepared (hproper : p.finalPayload.Proper) : Prepared d p :=
    ⟨htext, hproper, hheaders ▸ sound_headers d, hheaders ▸ hreserved⟩
  have hchosen := outcome.chosenPayload_proper
  rcases assertIdentity_ok hchosen hassert with ⟨fields, rfl, hsound, hid⟩ | ⟨items, hitems, rfl⟩
  . rcases hfinal with hfinal | ⟨fields', shed, hobject, hshed, hfinal⟩
    . refine ⟨hprepared ?_, hfits, .inl ⟨fields, hfinal, hid⟩⟩
      rw [hfinal]
      exact ⟨hsound.listed, hsound.proper⟩
    . cases hobject
      have hshed := sound_shedInlineMedia hsound.proper hshed
      have hset : Sound (fields.set "data" (.object shed)) :=
        hsound.set (by decide) ⟨hshed.listed, hshed.proper⟩
      refine ⟨hprepared ?_, hfits, .inl ⟨_, hfinal, hid.set_data (.object shed)⟩⟩
      rw [hfinal]
      exact ⟨hset.listed, hset.proper⟩
  . rcases hfinal with hfinal | ⟨fields, shed, hobject, _⟩
    . refine ⟨hprepared ?_, hfits, .inr ⟨outcome, items, hchain, hcontinue, hitems, hfinal⟩⟩
      rw [hfinal, ← hitems]
      exact hchosen
    . contradiction

end Preflight

section Integrity

variable (hmac : Text → Text → Text)

/-- A request with the identity in its body, a body within the cap and the server's headers. -/
structure Intact (d : Delivery) (req : Request) : Prop where
  identified : ∃ fields, parse req.body = some (.object fields) ∧ Identified d.identity fields
  fits : byteLength req.body ≤ d.maxPayloadBytes
  dressed : Dressed hmac d req

/-- The delivery is cancelled, recorded as undelivered, or sends intact requests on every path. -/
def EnvelopeIntegrity (d : Delivery) : Prop :=
  match preflightDelivery d with
  | .cancelled => True
  | .undelivered _ => True
  | .go p => ∀ path, requests hmac d p path ≠ [] ∧ ∀ req ∈ requests hmac d p path, Intact hmac d req

/-- The hooks let the delivery go on with an array as its payload, which fits. -/
def SendsArray (d : Delivery) : Prop :=
  ∃ outcome items, d.chain = .ok outcome ∧ outcome.shouldContinue = true ∧
    outcome.returnedPayload = some (.array items) ∧
    byteLength (stringify (.array items)) ≤ d.maxPayloadBytes

theorem chosenPayload_array_iff (outcome : ChainOutcome) (items : Items) :
    outcome.chosenPayload = .array items ↔ outcome.returnedPayload = some (.array items) := by
  unfold ChainOutcome.chosenPayload
  split
  . next h => simp [h]
  . next h => simp [h]
  . next h => simp [h]

theorem intact_of_object {d : Delivery} {p : Preflight} (hprepared : Prepared d p)
    (hfits : byteLength p.body ≤ d.maxPayloadBytes) {fields : Fields}
    (hobject : p.finalPayload = .object fields) (hid : Identified d.identity fields) (path : Path) :
    ∀ req ∈ requests hmac d p path, Intact hmac d req := by
  intro req hreq
  obtain ⟨hbody, hdressed⟩ := dressed_requests hmac hprepared path req hreq
  have hparse : parse req.body = some (.object fields) := by
    rw [hbody, hprepared.text, parse_stringify hprepared.proper, hobject]
  exact ⟨⟨fields, hparse, hid⟩, hbody ▸ hfits, hdressed⟩

theorem sends_array {d : Delivery} (h : SendsArray d) : ∃ p items, preflightDelivery d = .go p ∧
    p.finalPayload = .array items := by
  obtain ⟨outcome, items, hchain, hcontinue, hreturned, hfits⟩ := h
  have hchosen := (chosenPayload_array_iff outcome items).mpr hreturned
  have hgate : gateSize d.maxPayloadBytes (.array items) = .ok (.array items, stringify (.array items)) := by
    unfold gateSize
    dsimp only
    rw [if_pos hfits]
  let headers := (safeHeaders d.webhook.headers).spread (systemHeaders d.identity)
  refine ⟨⟨.array items, stringify (.array items), headers⟩, items, ?_, rfl⟩
  rw [preflightDelivery, hchain]
  dsimp only
  rw [if_pos hcontinue, hchosen, assertIdentity]
  simp only [bind, Except.bind, hgate]
  rfl

theorem envelopeIntegrity_iff (d : Delivery) : EnvelopeIntegrity hmac d ↔ ¬SendsArray d := by
  unfold EnvelopeIntegrity
  constructor
  . intro hintact harray
    obtain ⟨p, items, hgo, hitems⟩ := sends_array harray
    have hprepared := (preflightDelivery_prepared hgo).1
    rw [hgo] at hintact
    obtain ⟨hsome, hall⟩ := hintact (.direct 0)
    obtain ⟨req, hreq⟩ := List.exists_mem_of_ne_nil _ hsome
    obtain ⟨fields, hparse, _⟩ := (hall req hreq).identified
    have hbody := (dressed_requests hmac hprepared (.direct 0) req hreq).1
    rw [hbody, hprepared.text, parse_stringify hprepared.proper, hitems] at hparse
    cases hparse
  . intro harray
    split
    . trivial
    . trivial
    . next p hgo =>
      intro path
      obtain ⟨hprepared, hfits, hobject | hitems⟩ := preflightDelivery_prepared hgo
      . obtain ⟨fields, hobject, hid⟩ := hobject
        exact ⟨requests_ne_nil hmac hprepared path,
          intact_of_object hmac hprepared hfits hobject hid path⟩
      . obtain ⟨outcome, items, hchain, hcontinue, hchosen, hfinal⟩ := hitems
        exfalso
        apply harray
        rw [hprepared.text, hfinal] at hfits
        exact ⟨outcome, items, hchain, hcontinue,
          (chosenPayload_array_iff outcome items).mp hchosen, hfits⟩

end Integrity

/-- The hook of a plugin replaces the payload by an empty array. -/
def emptied : Delivery where
  webhook :=
    { id := "w1".toList
      url := "https://receiver.example/hook".toList
      secret := none
      headers := []
      retryCount := 3
      active := true
      headers_listed := List.Pairwise.nil
      retryCount_lt := by decide }
  identity := ⟨"message.received", "s1", "2026-01-01T00:00:00.000Z", "msg_s1_m1_w1", "d1"⟩
  baseData := .ok ⟨.nil, sound_nil⟩
  before := fun payload =>
    { shouldContinue := true
      data := some ⟨.object (.cons "payload" (.array .nil) .nil),
        List.pairwise_singleton _ _, trivial, trivial⟩
      payload := payload }
  maxPayloadBytes := 1048576

theorem envelope_emptied : ¬EnvelopeIntegrity (fun _ _ => []) emptied := by
  intro h
  have hparse : parse "[]".toList = some (.array .nil) := by decide +kernel
  have hsent := (h (.direct 0)).2 _ (List.mem_singleton_self _)
  obtain ⟨fields, hobject, _⟩ := hsent.identified
  have harray := hobject.symm.trans hparse
  cases harray

end OpenWA.Webhooks.Envelope
