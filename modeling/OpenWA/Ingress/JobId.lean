import OpenWA.Ingress.Records

/-!
This module contains the comparison of the queue's dedup by job id with the database's dedup by
`(pluginId, instanceId, providerDeliveryId)`.
-/

namespace OpenWA.Ingress

open Js

/-- The two callers that enqueue a recorded delivery under its own id. -/
inductive Enqueued where
  | live (req : IngressRequest)
  | replay (row : IngressEvent) (payload : IngressPayload) (providerConversationId : Option Text)

section

variable (sha256 : Text → Text)

def Enqueued.key (e : Enqueued) : IngressEventKey :=
  match e with
  | .live req => ⟨req.pluginId, req.instanceId, deliveryId sha256 req⟩
  | .replay row _ _ => row.key

/-- The job id the caller's `enqueue` passes to `queue.add`. -/
def Enqueued.jobId (e : Enqueued) : Text :=
  match e with
  | .live req => queueJobId sha256 (jobData sha256 req) (deliveryId sha256 req)
  | .replay row payload conversationId =>
    queueJobId sha256 (jobDataFor row payload conversationId) row.providerDeliveryId

/-- The job id of a delivery, from its key. -/
def IngressEventKey.jobId (key : IngressEventKey) : Text :=
  sanitizeIngressJobId sha256 key.providerDeliveryId
    (key.pluginId.val ++ nul :: key.instanceId.val)

/-- What is hashed for an id that BullMQ refuses. -/
def IngressEventKey.hashInput (key : IngressEventKey) : Text :=
  (key.pluginId.val ++ nul :: key.instanceId.val) ++ nul :: key.providerDeliveryId

/-- Both deliveries carry the same provider id, and it is one BullMQ takes as it is. -/
def SharesPlainId (k k' : IngressEventKey) : Prop :=
  k.providerDeliveryId = k'.providerDeliveryId ∧ refusedJobId k.providerDeliveryId = false

instance (k k' : IngressEventKey) : Decidable (SharesPlainId k k') :=
  inferInstanceAs (Decidable (_ ∧ _))

theorem Enqueued.jobId_eq (e : Enqueued) : e.jobId sha256 = (e.key sha256).jobId sha256 := by
  cases e <;> rfl

theorem sanitizeIngressJobId_plain {raw ns : Text} (h : refusedJobId raw = false) :
    sanitizeIngressJobId sha256 raw ns = raw := by
  simp_all [sanitizeIngressJobId, refusedJobId]

theorem sanitizeIngressJobId_refused {raw ns : Text} (h : refusedJobId raw = true) :
    sanitizeIngressJobId sha256 raw ns = ingPrefix ++ (sha256 (ns ++ nul :: raw)).take 40 := by
  unfold sanitizeIngressJobId
  rw [if_neg]
  simp only [refusedJobId, Bool.or_eq_true] at h
  rcases h with (h | h) | h <;> simp [h]

end

theorem nul_notMem_safeId {t : Text} (h : isSafeId t = true) : nul ∉ t := by
  cases t with
  | nil => simp
  | cons c cs =>
    simp only [isSafeId, Bool.and_eq_true, List.all_eq_true] at h
    rcases h with ⟨⟨hc, hcs⟩, -⟩
    intro hmem
    rcases List.mem_cons.mp hmem with rfl | hmem
    . exact absurd hc (by decide)
    . exact absurd (hcs nul hmem) (by decide)

theorem nul_notMem_instanceId {t : Text} (h : isInstanceId t = true) : nul ∉ t := by
  simp only [isInstanceId, Bool.and_eq_true, List.all_eq_true] at h
  intro hmem
  exact absurd (h.1.1 nul hmem) (by decide)

/-- A text without the separator can be read back from the front. -/
theorem append_sep_inj {c : Char} {xs xs' ys ys' : Text} (h : c ∉ xs) (h' : c ∉ xs')
    (heq : xs ++ c :: ys = xs' ++ c :: ys') : xs = xs' ∧ ys = ys' := by
  induction xs generalizing xs' with
  | nil =>
    cases xs' with
    | nil => simpa using heq
    | cons x xs' =>
      simp only [List.nil_append, List.cons_append, List.cons.injEq] at heq
      exact absurd heq.1 (by simp at h'; exact h'.1)
  | cons x xs ih =>
    cases xs' with
    | nil =>
      simp only [List.nil_append, List.cons_append, List.cons.injEq] at heq
      exact absurd heq.1.symm (by simp at h; exact h.1)
    | cons x' xs' =>
      simp only [List.cons_append, List.cons.injEq] at heq
      simp only [List.mem_cons, not_or] at h h'
      rcases ih h.2 h'.2 heq.2 with ⟨rfl, rfl⟩
      exact ⟨by rw [heq.1], rfl⟩

/-- The hash input determines the key: plugin and instance ids carry no NUL. -/
theorem IngressEventKey.hashInput_inj {k k' : IngressEventKey} (h : k.hashInput = k'.hashInput) :
    k = k' := by
  rcases k with ⟨⟨plugin, hp⟩, ⟨inst, hi⟩, raw⟩
  rcases k' with ⟨⟨plugin', hp'⟩, ⟨inst', hi'⟩, raw'⟩
  simp only [hashInput, List.append_assoc, List.cons_append] at h
  rcases append_sep_inj (nul_notMem_safeId hp) (nul_notMem_safeId hp') h with ⟨rfl, hrest⟩
  rcases append_sep_inj (nul_notMem_instanceId hi) (nul_notMem_instanceId hi') hrest with ⟨rfl, rfl⟩
  rfl

section

variable {sha256 : Text → Text} {k k' : IngressEventKey}

/-- Two deliveries of different keys get the same job id exactly when they share a plain id. -/
theorem IngressEventKey.jobId_eq_iff (hne : k ≠ k')
    (hpre : ¬ingPrefix <+: k.providerDeliveryId) (hpre' : ¬ingPrefix <+: k'.providerDeliveryId)
    (hsha : (sha256 k.hashInput).take 40 = (sha256 k'.hashInput).take 40 →
      k.hashInput = k'.hashInput) :
    k.jobId sha256 = k'.jobId sha256 ↔ SharesPlainId k k' := by
  unfold jobId SharesPlainId
  cases hr : refusedJobId k.providerDeliveryId with
  | false =>
    rw [sanitizeIngressJobId_plain sha256 hr]
    cases hr' : refusedJobId k'.providerDeliveryId with
    | false =>
      rw [sanitizeIngressJobId_plain sha256 hr']
      simp
    | true =>
      rw [sanitizeIngressJobId_refused sha256 hr']
      constructor
      . intro heq
        exact absurd ⟨_, heq.symm⟩ hpre
      . rintro ⟨heq, -⟩
        rw [heq, hr'] at hr
        contradiction
  | true =>
    rw [sanitizeIngressJobId_refused sha256 hr]
    cases hr' : refusedJobId k'.providerDeliveryId with
    | false =>
      rw [sanitizeIngressJobId_plain sha256 hr']
      constructor
      . intro heq
        exact absurd ⟨_, heq⟩ hpre'
      . simp
    | true =>
      rw [sanitizeIngressJobId_refused sha256 hr', List.append_cancel_left_eq]
      constructor
      . intro heq
        exact absurd (hashInput_inj (hsha heq)) hne
      . simp

end

/--
Among the live path and the replays of the reconciler, job ids coincide exactly where the keys do,
unless two deliveries of different plugins or instances share a provider id that is not hashed.
-/
theorem jobId_dedups_as_key_iff {sha256 : Text → Text} (a b : Enqueued)
    (ha : ¬ingPrefix <+: (a.key sha256).providerDeliveryId)
    (hb : ¬ingPrefix <+: (b.key sha256).providerDeliveryId)
    (hsha : (sha256 (a.key sha256).hashInput).take 40 = (sha256 (b.key sha256).hashInput).take 40 →
      (a.key sha256).hashInput = (b.key sha256).hashInput) :
    (a.jobId sha256 = b.jobId sha256 ↔ a.key sha256 = b.key sha256) ↔
      (SharesPlainId (a.key sha256) (b.key sha256) → a.key sha256 = b.key sha256) := by
  rw [Enqueued.jobId_eq, Enqueued.jobId_eq]
  by_cases hkey : a.key sha256 = b.key sha256
  . simp [hkey]
  . rw [IngressEventKey.jobId_eq_iff hkey ha hb hsha]
    simp [hkey]

/-- A request to one of two instances of the plugin `chatwoot`, with its dedup header. -/
def chatwootRequest (inst : InstanceId) (headerId : Text) : IngressRequest where
  pluginId := ⟨"chatwoot".toList, by decide⟩
  instanceId := inst
  route := "events".toList
  method := "POST".toList
  dedupOnBody := false
  headerId := some headerId
  sessionScope := none
  providerConversationId := none
  payload := ⟨[], [], "{}".toList, "{}".toList⟩

def instanceA : InstanceId := ⟨['a'], by decide⟩

def instanceB : InstanceId := ⟨['b'], by decide⟩

/-- The digests of the two hash inputs below; no other text is hashed there. -/
def sampleDigest (t : Text) : Text :=
  if t = "chatwoot\x00a\x0012345".toList then
    "d8d5a39e2417d958ea8c4dbc609396b813c0d77ebc9dcff7b9c9f4aa808208ea".toList
  else if t = "chatwoot\x00b\x0012345".toList then
    "5b709fd48f2897ea7c4249bec776a3bec382a0b2cc8505d1aae86bea761aeba2".toList
  else []

/-- A numeric provider id, which is hashed, at both instances. -/
def numeric (inst : InstanceId) : Enqueued := .live (chatwootRequest inst "12345".toList)

theorem jobId_dedups_as_key_numeric :
    ((numeric instanceA).jobId sampleDigest = (numeric instanceB).jobId sampleDigest ↔
      (numeric instanceA).key sampleDigest = (numeric instanceB).key sampleDigest) ↔
    (SharesPlainId ((numeric instanceA).key sampleDigest) ((numeric instanceB).key sampleDigest) →
      (numeric instanceA).key sampleDigest = (numeric instanceB).key sampleDigest) :=
  jobId_dedups_as_key_iff (numeric instanceA) (numeric instanceB) (by decide +kernel)
    (by decide +kernel) (by decide +kernel)

/-- A provider id that is no integer and has no colon, at both instances. -/
def plain (inst : InstanceId) : Enqueued := .live (chatwootRequest inst "evt_abc".toList)

theorem instances_share_jobId :
    (plain instanceA).key sampleDigest ≠ (plain instanceB).key sampleDigest ∧
      ¬ingPrefix <+: ((plain instanceA).key sampleDigest).providerDeliveryId ∧
      ¬ingPrefix <+: ((plain instanceB).key sampleDigest).providerDeliveryId ∧
      (plain instanceA).jobId sampleDigest = (plain instanceB).jobId sampleDigest := by
  have hplain : refusedJobId "evt_abc".toList = false := by decide
  have hid (inst : InstanceId) : ((plain inst).key sampleDigest).providerDeliveryId = "evt_abc".toList :=
    rfl
  have hjob (inst : InstanceId) : (plain inst).jobId sampleDigest = "evt_abc".toList := by
    rw [Enqueued.jobId_eq, IngressEventKey.jobId, hid, sanitizeIngressJobId_plain sampleDigest hplain]
  refine ⟨?_, ?_, ?_, ?_⟩
  . intro h
    have hinst : instanceA = instanceB := congrArg IngressEventKey.instanceId h
    exact absurd hinst (by decide)
  . rw [hid]
    decide
  . rw [hid]
    decide
  . rw [hjob, hjob]

end OpenWA.Ingress
