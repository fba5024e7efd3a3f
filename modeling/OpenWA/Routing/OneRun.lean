import OpenWA.Routing.Cluster

/-!
This module proves that a call which is not idempotent is acted on at most once, whatever the nodes, the
network and the retries of the client do.
-/

namespace OpenWA.Routing

open Js

/-- The handler was started for the exchange and did not answer that it declined to act. -/
def Stage.Acted (stage : Stage) : Prop :=
  match stage with
  | .running => True
  | .ran response => response.status ∉ backpressureStatuses
  | _ => False

/-- The exchange was not acted on and never will be. -/
def Stage.Over (stage : Stage) : Prop :=
  match stage with
  | .sent | .running => False
  | .ran response => response.status ∈ backpressureStatuses
  | .lost | .relaying .. | .turned _ => True

/-- The node that received the exchange sent it on, or could have. -/
def Stage.Passed (stage : Stage) : Prop :=
  match stage with
  | .relaying .. | .turned _ => True
  | _ => False

theorem Stage.Over.not_acted {stage : Stage} (h : stage.Over) : ¬ stage.Acted := by
  intro hacted
  cases stage with
  | ran response => exact hacted h
  | running => exact h
  | sent | lost | relaying | turned => exact hacted

theorem Stage.Passed.not_acted {stage : Stage} (h : stage.Passed) : ¬ stage.Acted := by
  intro hacted
  cases stage with
  | relaying | turned => exact hacted
  | sent | lost | running | ran => exact h

theorem Stage.Over.of_response {stage : Stage} {response : Response}
    (h : stage.response = some response) (hstatus : response.status ∈ backpressureStatuses) :
    stage.Over := by
  cases stage with
  | ran =>
    cases h
    exact hstatus
  | turned => trivial
  | sent | lost | relaying | running => cases h

/-- The request carries the marker of a forwarding node. -/
def Request.Marked (request : Request) : Prop := request.headers.given FORWARDED_HEADER = true

theorem marked_forwardRequest {self : Ownership} {arrival : Arrival} (h : arrival.ownership = some self)
    (request : Request) (target : Url) : (forwardRequest arrival request target).Marked := by
  have hnamed := self.named
  unfold Request.Marked Headers.given forwardRequest forwardHeaders
  simp only [h, List.cons_append, List.lookup_cons_self, Option.any_some]
  simpa using hnamed

/-- The stages an exchange of key `k` goes through without another one being touched. -/
inductive Cluster.Advance (s : Cluster) (k : Key) : Stage → Stage → Prop where
  | lose : Advance s k .sent .lost
  | handle : Advance s k .sent .running
  | turn (response : Response) : Advance s k .sent (.turned response)
  | pass (ownerNodeId : Text) (timeoutMs : Nat) : Advance s k .sent (.relaying ownerNodeId timeoutMs)
  | finish (response : Response) : Advance s k .running (.ran response)
  | relay (ownerNodeId : Text) (timeoutMs : Nat) (response : Response)
      (h : response.status ∈ backpressureStatuses →
        ∀ child, s.exchanges k.next = some child → child.stage.Over) :
      Advance s k (.relaying ownerNodeId timeoutMs) (.turned response)

variable {s s' : Cluster} {k : Key} {x y : Exchange}

theorem Cluster.Advance.over {stage stage' : Stage} (h : s.Advance k stage stage') (hover : stage.Over) :
    stage'.Over := by
  cases h with
  | relay => trivial
  | lose | handle | turn | pass | finish => exact absurd hover not_false

theorem Cluster.Advance.passed {stage stage' : Stage} (h : s.Advance k stage stage')
    (hpassed : stage.Passed) : stage'.Passed := by
  cases h with
  | relay => trivial
  | lose | handle | turn | pass | finish => exact absurd hpassed not_false

/-- What a step does to the calls and the exchanges. -/
inductive Cluster.Change (api : UrlApi) (s : Cluster) : Cluster → Prop where
  | environment (rows : Text → Option Owner) (tables : List (Text → Option Owner)) (now : Int)
      (h : ∀ t ∈ s.tables, t ∈ tables) (hrows : rows = s.sessions ∨ rows ∈ tables) :
      Change api s { s with sessions := rows, tables := tables, now := now }
  | advance (k : Key) (x : Exchange) (stage : Stage) (hk : s.exchanges k = some x)
      (h : s.Advance k x.stage stage) : Change api s (s.put k { x with stage := stage })
  | forward (k : Key) (x : Exchange) (arrival : Arrival) (ownerNodeId ownerNodeUrl : Text)
      (target : Url) (hk : s.exchanges k = some x) (hsent : x.stage = .sent)
      (hunmarked : ¬ x.request.Marked)
      (hmarked : (forwardRequest arrival x.request target).Marked)
      (howner : ∃ (sessionId : Text) (owner : Owner),
        s.sessions sessionId = some owner ∧ owner.nodeUrl = some ownerNodeUrl)
      (htarget : forwardTarget api x.request.originalUrl ownerNodeUrl = some target) :
      Change api s
        ((s.put k { x with stage := .relaying ownerNodeId arrival.proxyTimeoutMs }).put k.next
          ⟨target, forwardRequest arrival x.request target, .sent⟩)
  | undeliver (k : Key) (x child : Exchange) (ownerNodeId : Text) (timeoutMs : Nat)
      (response : Response) (hk : s.exchanges k = some x) (hchild : s.exchanges k.next = some child)
      (hstage : x.stage = .relaying ownerNodeId timeoutMs) (hsent : child.stage = .sent) :
      Change api s
        ((s.put k { x with stage := .turned response }).put k.next { child with stage := .lost })
  | call (url : Url) (request : Request) (retry : Option RetryPolicy) :
      Change api s
        (({ s with calls := s.calls ++ [⟨url, request, retry, .waiting 0⟩] } : Cluster).put
          ⟨s.calls.length, 0, 0⟩ ⟨url, request, .sent⟩)
  | settle (c : Nat) (call : Call) (attempt : Nat) (result : RoundTrip) (hc : s.calls[c]? = some call)
      (hphase : call.phase = .waiting attempt)
      (hresult : ∀ status, result = .response status → ∃ x response,
        s.exchanges ⟨c, attempt, 0⟩ = some x ∧ x.stage.response = some response ∧
          response.status = status) :
      Change api s { s with calls := s.calls.set c (call.settle attempt result) }
  | resume (c : Nat) (call : Call) (attempt : Nat) (hc : s.calls[c]? = some call)
      (hphase : call.phase = .pausing attempt) :
      Change api s
        (({ s with calls := s.calls.set c { call with phase := .waiting (attempt + 1) } } : Cluster).put
          ⟨c, attempt + 1, 0⟩ ⟨call.url, call.request, .sent⟩)
  | cancel (c : Nat) (call : Call) (attempt : Nat) (hc : s.calls[c]? = some call)
      (hphase : call.phase = .pausing attempt) :
      Change api s
        { s with calls := s.calls.set c { call with phase := .finished attempt (.error true) } }

section Inversion

variable {isUUID : Text → Bool} {api : UrlApi}

/-- What a verdict to forward says about the request and the stored row. -/
theorem of_intercept_forward {arrival : Arrival} {headers : Headers} {sessions : Text → Option Owner}
    {now : Int} {ownerNodeId ownerNodeUrl : Text}
    (h : intercept isUUID arrival headers sessions now = .forward ownerNodeId ownerNodeUrl) :
    headers.given FORWARDED_HEADER = false ∧ arrival.ownership.isSome ∧
      ∃ (sessionId : Text) (owner : Owner),
        sessions sessionId = some owner ∧ owner.nodeUrl = some ownerNodeUrl := by
  unfold intercept at h
  split at h
  . contradiction
  . next self hself =>
    split at h
    . contradiction
    . split at h
      . contradiction
      . next sessionId _ =>
        split at h
        . contradiction
        . split at h
          . contradiction
          . next id url howner =>
            split at h
            . contradiction
            . next hmarked =>
              split at h
              . contradiction
              . next hurl =>
                cases h
                refine ⟨by simpa using hmarked, by simp [hself], sessionId, ?_⟩
                unfold liveOwner at howner
                split at howner
                . contradiction
                . next owner hrow =>
                  refine ⟨owner, hrow, ?_⟩
                  dsimp only at howner
                  split at howner
                  . contradiction
                  . split at howner
                    . contradiction
                    . split at howner
                      . simp only [Option.some.injEq, Prod.mk.injEq] at howner
                        cases hnode : owner.nodeUrl with
                        | none => simp [hnode] at howner; simp [← howner.2] at hurl
                        | some url => simpa [hnode] using howner.2
                      . contradiction

theorem change_receive {arrival : Arrival} (hk : s.exchanges k = some x) (hsent : x.stage = .sent) :
    Cluster.Change api s (s.receive isUUID api k x arrival) := by
  unfold Cluster.receive
  split
  . exact .advance k x _ hk (hsent ▸ .handle)
  . exact .advance k x _ hk (hsent ▸ .turn _)
  . next ownerNodeId ownerNodeUrl hverdict =>
    rcases of_intercept_forward hverdict with ⟨hunmarked, hself, howner⟩
    split
    . exact .advance k x _ hk (hsent ▸ .turn _)
    . next target htarget =>
      rcases Option.isSome_iff_exists.mp hself with ⟨self, hself⟩
      refine .forward k x arrival ownerNodeId ownerNodeUrl target hk hsent ?_
        (marked_forwardRequest hself _ _) howner htarget
      simp [Request.Marked, hunmarked]

/-- A rejection after the request left is never reported as one before. -/
theorem status_rejected {ownerNodeId : Text} {timeoutMs : Nat} {name code : Option String}
    (h : (rejected ownerNodeId timeoutMs name code).status ∈ backpressureStatuses) :
    code.any (· ∈ NOT_DISPATCHED_CODES) = true := by
  unfold rejected at h
  split at h
  . assumption
  . split at h <;> simp [failed, backpressureStatuses] at h

theorem change_reject {child : Exchange} {ownerNodeId : Text} {timeoutMs : Nat}
    {name code : Option String} {dispatched : Bool} (hk : s.exchanges k = some x)
    (hchild : s.exchanges k.next = some child) (hstage : x.stage = .relaying ownerNodeId timeoutMs)
    (hok : code.any (· ∈ NOT_DISPATCHED_CODES) → dispatched = false)
    (h : s.reject k x child (rejected ownerNodeId timeoutMs name code) dispatched = some s') :
    Cluster.Change api s s' := by
  unfold Cluster.reject at h
  dsimp only at h
  split at h
  . next hdispatched =>
    cases h
    refine .advance k x _ hk (hstage ▸ .relay _ _ _ ?_)
    intro hstatus
    simp [hok (status_rejected hstatus)] at hdispatched
  . split at h
    . next hsent =>
      cases h
      exact .undeliver k x child ownerNodeId timeoutMs _ hk hchild hstage hsent
    . contradiction

theorem change_relay {child : Exchange} {ownerNodeId : Text} {timeoutMs : Nat} {upstream : Response}
    (hk : s.exchanges k = some x) (hchild : s.exchanges k.next = some child)
    (hstage : x.stage = .relaying ownerNodeId timeoutMs) (hup : child.stage.response = some upstream) :
    Cluster.Change api s (s.put k { x with stage := .turned (relayed ownerNodeId upstream) }) := by
  refine .advance k x _ hk (hstage ▸ .relay _ _ _ ?_)
  intro hstatus child' hchild'
  rw [hchild, Option.some.injEq] at hchild'
  exact hchild' ▸ .of_response hup hstatus

theorem change_of_step {e : Event} (hok : e.Reported) (h : s.step isUUID api e = some s') :
    Cluster.Change api s s' := by
  cases e with
  | sessions rows =>
    cases h
    exact .environment rows (rows :: s.tables) s.now (fun t => List.mem_cons_of_mem rows)
      (.inr List.mem_cons_self)
  | clock now =>
    cases h
    exact .environment s.sessions s.tables now (fun _ ht => ht) (.inl rfl)
  | call url request retry =>
    cases h
    exact .call url request retry
  | lose k =>
    simp only [Cluster.step] at h
    split at h
    . next x hk =>
      split at h
      . next hsent =>
        cases h
        exact .advance k x _ hk (hsent ▸ .lose)
      . contradiction
    . contradiction
  | arrive k arrival =>
    simp only [Cluster.step] at h
    split at h
    . next x hk =>
      split at h
      . next hsent =>
        cases h
        exact change_receive hk hsent
      . contradiction
    . contradiction
  | refuse k response =>
    simp only [Cluster.step] at h
    split at h
    . next x hk =>
      split at h
      . next hsent =>
        cases h
        exact .advance k x _ hk (hsent ▸ .turn response)
      . contradiction
    . contradiction
  | finish k response =>
    simp only [Cluster.step] at h
    split at h
    . next x hk =>
      split at h
      . next hrunning =>
        cases h
        exact .advance k x _ hk (hrunning ▸ .finish response)
      . contradiction
    . contradiction
  | relay k =>
    simp only [Cluster.step] at h
    split at h
    . next x child hk hchild =>
      split at h
      . next hstage hup =>
        cases h
        exact change_relay hk hchild hstage hup
      . contradiction
    . contradiction
  | reject k name code dispatched =>
    simp only [Cluster.step] at h
    split at h
    . next x child hk hchild =>
      split at h
      . next hstage => exact change_reject hk hchild hstage hok h
      . contradiction
    . contradiction
  | answer c =>
    simp only [Cluster.step] at h
    split at h
    . next call hc =>
      split at h
      . next attempt response hphase hresponse =>
        cases h
        rcases Option.bind_eq_some_iff.mp hresponse with ⟨x, hk, hx⟩
        rw [hphase] at hk
        exact .settle c call attempt _ hc hphase (by rintro _ ⟨⟩; exact ⟨x, response, hk, hx, rfl⟩)
      . contradiction
    . contradiction
  | fail c cancelled =>
    simp only [Cluster.step] at h
    split at h
    . next call hc =>
      split at h
      . next attempt hphase =>
        cases h
        exact .settle c call attempt _ hc hphase (by rintro _ ⟨⟩)
      . contradiction
    . contradiction
  | resume c =>
    simp only [Cluster.step] at h
    split at h
    . next call hc =>
      split at h
      . next attempt hphase =>
        cases h
        exact .resume c call attempt hc hphase
      . contradiction
    . contradiction
  | cancel c =>
    simp only [Cluster.step] at h
    split at h
    . next call hc =>
      split at h
      . next attempt hphase =>
        cases h
        exact .cancel c call attempt hc hphase
      . contradiction
    . contradiction

end Inversion

/-- The attempt with this number is behind the call, or the call is done and reports it declined. -/
def Call.Past (call : Call) (attempt : Nat) : Prop :=
  attempt < call.phase.attempt ∨ call.phase = .pausing attempt ∨
    ∃ status ∈ backpressureStatuses, call.phase = .finished attempt (.response status)

/-- How often the middleware tries again at most. -/
def Call.retries (call : Call) : Nat := (call.retry.elim 0 (·.maxRetries)).toNat

/-- The invariant of the exchanges and of the calls they are made for. -/
structure Cluster.Sound (s : Cluster) : Prop where
  started : ∀ k x, s.exchanges k = some x →
    ∃ call, s.calls[k.call]? = some call ∧ k.attempt ≤ call.phase.attempt
  chained : ∀ k x, s.exchanges k.next = some x → x.request.Marked ∧
    ∃ parent, s.exchanges k = some parent ∧ ¬ parent.request.Marked ∧ parent.stage.Passed
  honest : ∀ k parent child response, s.exchanges k = some parent →
    parent.stage = .turned response → response.status ∈ backpressureStatuses →
      s.exchanges k.next = some child → child.stage.Over
  past : ∀ k x call, s.exchanges k = some x → s.calls[k.call]? = some call →
    isIdempotent call.request.method = false → call.Past k.attempt → x.stage.Over
  bounded : ∀ (c : Nat) (call : Call), s.calls[c]? = some call →
    call.phase.attempt ≤ call.retries ∧
      ∀ attempt, call.phase = .pausing attempt → attempt < call.retries

@[simp] theorem Key.next_call (k : Key) : k.next.call = k.call := rfl
@[simp] theorem Key.next_attempt (k : Key) : k.next.attempt = k.attempt := rfl

theorem Key.next_ne (k : Key) : k.next ≠ k := by
  intro h
  have := congrArg Key.hop h
  simp [next] at this

theorem Key.next_inj {k k' : Key} (h : k.next = k'.next) : k = k' := by
  cases k
  cases k'
  simp_all [next]

theorem Key.eq_next {k : Key} (h : k.hop ≠ 0) : ∃ k' : Key, k = k'.next := by
  cases k with
  | mk call attempt hop =>
    cases hop with
    | zero => exact absurd rfl h
    | succ hop => exact ⟨⟨call, attempt, hop⟩, rfl⟩

@[simp] theorem Cluster.calls_put (s : Cluster) (k : Key) (x : Exchange) : (s.put k x).calls = s.calls :=
  rfl

theorem Cluster.exchanges_put (s : Cluster) (k k' : Key) (x : Exchange) :
    (s.put k x).exchanges k' = if k' = k then some x else s.exchanges k' := by
  simp [put, Function.update_apply]

namespace Cluster.Sound

/-- A request is forwarded once at most. -/
theorem hop_le (hs : s.Sound) (hk : s.exchanges k = some x) : k.hop ≤ 1 := by
  by_contra hhop
  obtain ⟨k₁, rfl⟩ := Key.eq_next (k := k) (by omega)
  obtain ⟨k₀, rfl⟩ := Key.eq_next (k := k₁) (by simp [Key.next] at hhop; omega)
  rcases hs.chained k₀.next x hk with ⟨-, parent, hparent, hunmarked, -⟩
  exact hunmarked (hs.chained k₀ parent hparent).1

theorem no_child_of_not_passed (hs : s.Sound) (hk : s.exchanges k = some x) (h : ¬ x.stage.Passed) :
    s.exchanges k.next = none := by
  cases hchild : s.exchanges k.next with
  | none => rfl
  | some child =>
    rcases hs.chained k child hchild with ⟨-, parent, hparent, -, hpassed⟩
    rw [hk, Option.some.injEq] at hparent
    exact absurd (hparent ▸ hpassed) h

/-- When the client is told that an attempt was declined, the attempt was and no part of it is left. -/
theorem over_of_declined (hs : s.Sound) {c attempt : Nat} {response : Response}
    (hk : s.exchanges ⟨c, attempt, 0⟩ = some x) (hresponse : x.stage.response = some response)
    (hstatus : response.status ∈ backpressureStatuses) {k : Key} (hc : k.call = c)
    (hattempt : k.attempt = attempt) (hy : s.exchanges k = some y) : y.stage.Over := by
  have hhop := hs.hop_le hy
  obtain ⟨call, attempt', hop⟩ := k
  simp only at hc hattempt hhop
  subst hc hattempt
  rcases Nat.le_one_iff_eq_zero_or_eq_one.mp hhop with rfl | rfl
  . rw [hk, Option.some.injEq] at hy
    exact hy ▸ .of_response hresponse hstatus
  . cases hstage : x.stage with
    | turned response' =>
      rw [hstage] at hresponse
      cases hresponse
      exact hs.honest _ x y response hk hstage hstatus hy
    | ran response' =>
      have hnone := hs.no_child_of_not_passed hk (by simp [hstage, Stage.Passed])
      rw [show Key.next ⟨call, attempt', 0⟩ = ⟨call, attempt', 1⟩ from rfl, hy] at hnone
      contradiction
    | sent | lost | relaying | running => simp [hstage, Stage.response] at hresponse

theorem advance (hs : s.Sound) {stage : Stage} (hk : s.exchanges k = some x)
    (h : s.Advance k x.stage stage) : (s.put k { x with stage := stage }).Sound where
  started k' x' hk' := by
    rw [exchanges_put] at hk'
    split at hk'
    . next heq => exact heq ▸ hs.started k x hk
    . exact hs.started k' x' hk'
  chained k' x' hk' := by
    rw [exchanges_put] at hk'
    have hchained : x'.request.Marked ∧ ∃ parent, s.exchanges k' = some parent ∧
        ¬ parent.request.Marked ∧ parent.stage.Passed := by
      split at hk'
      . next heq =>
        cases hk'
        exact hs.chained k' x (heq ▸ hk)
      . exact hs.chained k' x' hk'
    rcases hchained with ⟨hmarked, parent, hparent, hunmarked, hpassed⟩
    refine ⟨hmarked, ?_⟩
    rw [exchanges_put]
    split
    . next heq =>
      subst heq
      rw [hk, Option.some.injEq] at hparent
      subst hparent
      exact ⟨_, rfl, hunmarked, h.passed hpassed⟩
    . exact ⟨parent, hparent, hunmarked, hpassed⟩
  honest k' parent child response hparent hturned hstatus hchild := by
    have hover : ∀ child', s.exchanges k'.next = some child' → child'.stage.Over →
        child.stage.Over := by
      intro child' hchild' hover
      rw [exchanges_put] at hchild
      split at hchild
      . next heq =>
        rw [heq, hk, Option.some.injEq] at hchild'
        cases hchild
        exact h.over (hchild' ▸ hover)
      . rw [hchild', Option.some.injEq] at hchild
        exact hchild ▸ hover
    have hsome : ∃ child', s.exchanges k'.next = some child' := by
      rw [exchanges_put] at hchild
      split at hchild
      . next heq => exact ⟨x, heq ▸ hk⟩
      . exact ⟨child, hchild⟩
    rcases hsome with ⟨child', hchild'⟩
    refine hover child' hchild' ?_
    rw [exchanges_put] at hparent
    split at hparent
    . next heq =>
      subst heq
      cases hparent
      -- only a node that relays turns an exchange with a child
      cases hstage : x.stage with
      | relaying ownerNodeId timeoutMs =>
        rw [hstage] at h
        cases h with
        | relay _ _ response' hhonest =>
          cases hturned
          exact hhonest hstatus child' hchild'
      | sent | lost | running | ran | turned =>
        rcases hs.chained k' child' hchild' with ⟨-, parent, hparent, -, hpassed⟩
        rw [hk, Option.some.injEq] at hparent
        subst hparent
        simp only [hstage] at h hpassed
        first | exact absurd hpassed not_false | cases h
    . exact hs.honest k' parent child' response hparent hturned hstatus hchild'
  past k' x' call hk' hc hm hpast := by
    rw [exchanges_put] at hk'
    split at hk'
    . next heq =>
      subst heq
      cases hk'
      exact h.over (hs.past k' x call hk hc hm hpast)
    . exact hs.past k' x' call hk' hc hm hpast
  bounded := hs.bounded

/-- The node that received a request sends it on. -/
theorem adopt (hs : s.Sound) {ownerNodeId : Text} {timeoutMs : Nat} (hk : s.exchanges k = some x)
    (hstage : x.stage = .relaying ownerNodeId timeoutMs) (hunmarked : ¬ x.request.Marked)
    (hfresh : s.exchanges k.next = none) (hmarked : y.request.Marked)
    (hpast : ∀ call, s.calls[k.call]? = some call → isIdempotent call.request.method = false →
      ¬ call.Past k.attempt) : (s.put k.next y).Sound where
  started k' x' hk' := by
    rw [exchanges_put] at hk'
    split at hk'
    . next heq =>
      subst heq
      exact hs.started k x hk
    . exact hs.started k' x' hk'
  chained k' x' hk' := by
    rw [exchanges_put] at hk'
    rw [exchanges_put]
    split at hk'
    . next heq =>
      cases hk'
      cases Key.next_inj heq
      rw [if_neg (Key.next_ne k).symm]
      exact ⟨hmarked, x, hk, hunmarked, by simp [hstage, Stage.Passed]⟩
    . rcases hs.chained k' x' hk' with ⟨hmarked, parent, hparent, hrest⟩
      refine ⟨hmarked, parent, ?_, hrest⟩
      split
      . next heq => simp [heq, hfresh] at hparent
      . exact hparent
  honest k' parent child response hparent hturned hstatus hchild := by
    rw [exchanges_put] at hparent hchild
    split at hparent
    . next heq =>
      -- the new exchange has no child of its own
      subst heq
      rw [if_neg (Key.next_ne _)] at hchild
      rcases hs.chained _ child hchild with ⟨-, parent, hparent, -⟩
      simp [hfresh] at hparent
    . split at hchild
      . next heq =>
        cases Key.next_inj heq
        rw [hk, Option.some.injEq] at hparent
        subst hparent
        simp [hstage] at hturned
      . exact hs.honest k' parent child response hparent hturned hstatus hchild
  past k' x' call hk' hc hm hpast' := by
    rw [exchanges_put] at hk'
    split at hk'
    . next heq =>
      subst heq
      exact absurd hpast' (hpast call hc hm)
    . exact hs.past k' x' call hk' hc hm hpast'
  bounded := hs.bounded

/-- An attempt begins. -/
theorem root (hs : s.Sound) {c attempt : Nat} {call : Call} (hc : s.calls[c]? = some call)
    (hphase : call.phase = .waiting attempt)
    (hfresh : ∀ k, k.call = c → k.attempt = attempt → s.exchanges k = none) :
    (s.put ⟨c, attempt, 0⟩ y).Sound where
  started k' x' hk' := by
    rw [exchanges_put] at hk'
    split at hk'
    . next heq =>
      subst heq
      exact ⟨call, hc, by simp [hphase]⟩
    . exact hs.started k' x' hk'
  chained k' x' hk' := by
    rw [exchanges_put] at hk'
    rw [exchanges_put]
    split at hk'
    . next heq => simp [Key.next] at heq
    . rcases hs.chained k' x' hk' with ⟨hmarked, parent, hparent, hrest⟩
      refine ⟨hmarked, parent, ?_, hrest⟩
      split
      . next heq => simp [heq, hfresh] at hparent
      . exact hparent
  honest k' parent child response hparent hturned hstatus hchild := by
    rw [exchanges_put] at hparent hchild
    split at hchild
    . next heq => simp [Key.next] at heq
    . split at hparent
      . next heq =>
        rw [hfresh k'.next (by simp [heq]) (by simp [heq])] at hchild
        contradiction
      . exact hs.honest k' parent child response hparent hturned hstatus hchild
  past k' x' call' hk' hc' hm hpast := by
    rw [exchanges_put] at hk'
    split at hk'
    . next heq =>
      subst heq
      rw [calls_put, hc, Option.some.injEq] at hc'
      subst hc'
      simp [Call.Past, hphase] at hpast
    . exact hs.past k' x' call' hk' hc' hm hpast
  bounded := hs.bounded

/-- The loop of a call moves on. -/
theorem setCall (hs : s.Sound) {c : Nat} {call : Call} (phase : Phase) (hc : s.calls[c]? = some call)
    (hle : call.phase.attempt ≤ phase.attempt)
    (hover : isIdempotent call.request.method = false → ∀ attempt,
      Call.Past { call with phase := phase } attempt → call.Past attempt ∨
        ∀ k x, k.call = c → k.attempt = attempt → s.exchanges k = some x → x.stage.Over)
    (hbound : phase.attempt ≤ call.retries ∧
      ∀ attempt, phase = .pausing attempt → attempt < call.retries) :
    Cluster.Sound { s with calls := s.calls.set c { call with phase := phase } } where
  started k' x' hk' := by
    rcases hs.started k' x' hk' with ⟨call', hc', hattempt⟩
    by_cases heq : c = k'.call
    . subst heq
      rw [hc, Option.some.injEq] at hc'
      subst hc'
      refine ⟨{ call with phase := phase }, ?_, Nat.le_trans hattempt hle⟩
      simp [List.getElem?_set_self (List.getElem?_eq_some_iff.mp hc).1]
    . exact ⟨call', by simpa [List.getElem?_set_ne heq] using hc', hattempt⟩
  chained := hs.chained
  honest := hs.honest
  past k' x' call' hk' hc' hm hpast := by
    by_cases heq : c = k'.call
    . subst heq
      simp only [List.getElem?_set_self (List.getElem?_eq_some_iff.mp hc).1,
        Option.some.injEq] at hc'
      subst hc'
      rcases hover hm k'.attempt hpast with hold | hnew
      . exact hs.past k' x' call hk' hc hm hold
      . exact hnew k' x' rfl rfl hk'
    . rw [List.getElem?_set_ne heq] at hc'
      exact hs.past k' x' call' hk' hc' hm hpast
  bounded c' call' hc' := by
    by_cases heq : c = c'
    . subst heq
      simp only [List.getElem?_set_self (List.getElem?_eq_some_iff.mp hc).1,
        Option.some.injEq] at hc'
      exact hc' ▸ hbound
    . rw [List.getElem?_set_ne heq] at hc'
      exact hs.bounded c' call' hc'

theorem addCall (hs : s.Sound) (url : Url) (request : Request) (retry : Option RetryPolicy) :
    Cluster.Sound { s with calls := s.calls ++ [⟨url, request, retry, .waiting 0⟩] } where
  started k' x' hk' := by
    rcases hs.started k' x' hk' with ⟨call, hc, hattempt⟩
    refine ⟨call, ?_, hattempt⟩
    rw [List.getElem?_append_left (List.getElem?_eq_some_iff.mp hc).1, hc]
  chained := hs.chained
  honest := hs.honest
  past k' x' call hk' hc hm hpast := by
    rcases hs.started k' x' hk' with ⟨call', hc', -⟩
    rw [List.getElem?_append_left (List.getElem?_eq_some_iff.mp hc').1] at hc
    exact hs.past k' x' call hk' hc hm hpast
  bounded c call hc := by
    rw [List.getElem?_append] at hc
    split at hc
    . exact hs.bounded c call hc
    . rw [List.getElem?_singleton] at hc
      split at hc
      . cases hc
        exact ⟨Nat.zero_le _, by simp⟩
      . contradiction

theorem settle (hs : s.Sound) {c attempt : Nat} {call : Call} {result : RoundTrip}
    (hc : s.calls[c]? = some call) (hphase : call.phase = .waiting attempt)
    (hresult : ∀ status, result = .response status → ∃ x response,
      s.exchanges ⟨c, attempt, 0⟩ = some x ∧ x.stage.response = some response ∧
        response.status = status) :
    Cluster.Sound { s with calls := s.calls.set c (call.settle attempt result) } := by
  have hover : ∀ status ∈ backpressureStatuses, result = .response status → ∀ k x,
      k.call = c → k.attempt = attempt → s.exchanges k = some x → x.stage.Over := by
    intro status hstatus hres k x hkc hka hk
    rcases hresult status hres with ⟨root, response, hroot, hresponse, rfl⟩
    exact hs.over_of_declined hroot hresponse hstatus hkc hka hk
  have hattempt : call.phase.attempt = attempt := by simp [hphase]
  have hbounded := (hs.bounded c call hc).1
  rw [hattempt] at hbounded
  unfold Call.settle
  split
  . next hagain =>
    rcases (Option.any_eq_true _ _).mp hagain with ⟨p, hp, hagain⟩
    refine hs.setCall _ hc (by simp [hattempt]) ?_ ?_
    . intro hm n hpast
      rcases RetryPolicy.declined_of_again hm hagain with ⟨status, hstatus, hres⟩
      rcases hpast with hlt | heq | ⟨_, _, heq⟩
      . exact .inl (.inl (by simpa [hattempt] using hlt))
      . cases heq
        exact .inr (hover status hstatus hres)
      . cases heq
    . refine ⟨hbounded, ?_⟩
      rintro n ⟨⟩
      have hlt := RetryPolicy.lt_of_again hagain
      simp only [Call.retries, hp, Option.elim_some]
      omega
  . refine hs.setCall _ hc (by simp [hattempt]) ?_ ⟨hbounded, by simp⟩
    intro hm n hpast
    rcases hpast with hlt | heq | ⟨status, hstatus, heq⟩
    . exact .inl (.inl (by simpa [hattempt] using hlt))
    . cases heq
    . cases heq
      exact .inr (hover status hstatus rfl)

theorem step {api : UrlApi} (hs : s.Sound) (h : Cluster.Change api s s') : s'.Sound := by
  cases h with
  | environment rows tables now => exact ⟨hs.started, hs.chained, hs.honest, hs.past, hs.bounded⟩
  | advance k x stage hk h => exact hs.advance hk h
  | forward k x arrival ownerNodeId ownerNodeUrl target hk hsent hunmarked hmarked =>
    have hfresh := hs.no_child_of_not_passed hk (by simp [hsent, Stage.Passed])
    have hrelaying := hs.advance hk (hsent ▸ Advance.pass ownerNodeId arrival.proxyTimeoutMs)
    have hk' : (s.put k { x with stage := .relaying ownerNodeId arrival.proxyTimeoutMs }).exchanges k =
        some { x with stage := .relaying ownerNodeId arrival.proxyTimeoutMs } := by
      simp [exchanges_put]
    refine hrelaying.adopt hk' rfl hunmarked (by simpa [exchanges_put, Key.next_ne] using hfresh) hmarked ?_
    intro call hc hm hpast
    have := hs.past k x call hk hc hm hpast
    simp [hsent, Stage.Over] at this
  | undeliver k x child ownerNodeId timeoutMs response hk hchild hstage hsent =>
    have hlost := hs.advance hchild (hsent ▸ Advance.lose)
    have hk' : (s.put k.next { child with stage := .lost }).exchanges k = some x := by
      simpa [exchanges_put, (Key.next_ne k).symm] using hk
    have hrelay : (s.put k.next { child with stage := .lost }).Advance k x.stage (.turned response) :=
      hstage ▸ .relay _ _ _ (by simp [exchanges_put, Stage.Over])
    have hturned := hlost.advance hk' hrelay
    simpa [put, Function.update_comm (Key.next_ne k)] using hturned
  | call url request retry =>
    have hc : (s.calls ++ [(⟨url, request, retry, .waiting 0⟩ : Call)])[s.calls.length]? =
        some ⟨url, request, retry, .waiting 0⟩ := by simp
    refine (hs.addCall url request retry).root hc rfl ?_
    intro k hkc _
    cases hk : s.exchanges k with
    | none => rfl
    | some x =>
      rcases hs.started k x hk with ⟨call, hc, -⟩
      simp [hkc] at hc
  | settle c call attempt result hc hphase hresult => exact hs.settle hc hphase hresult
  | resume c call attempt hc hphase =>
    have hattempt : call.phase.attempt = attempt := by simp [hphase]
    have hlt := (hs.bounded c call hc).2 attempt hphase
    have hwaiting := hs.setCall (.waiting (attempt + 1)) hc
      (by simp [hattempt]) ?_ ⟨hlt, by simp⟩
    . have hset : (s.calls.set c { call with phase := .waiting (attempt + 1) })[c]? =
          some { call with phase := .waiting (attempt + 1) } :=
        List.getElem?_set_self (List.getElem?_eq_some_iff.mp hc).1
      refine hwaiting.root hset rfl ?_
      intro k hkc hka
      cases hk : s.exchanges k with
      | none => rfl
      | some x =>
        rcases hs.started k x hk with ⟨call', hc', hle⟩
        rw [hkc, hc, Option.some.injEq] at hc'
        subst hc'
        omega
    . intro _ n hpast
      rcases hpast with hlt | heq | ⟨_, _, heq⟩
      . rcases Nat.lt_succ_iff_lt_or_eq.mp hlt with hlt | rfl
        . exact .inl (.inl (by simpa [hattempt] using hlt))
        . exact .inl (.inr (.inl hphase))
      . cases heq
      . cases heq
  | cancel c call attempt hc hphase =>
    have hattempt : call.phase.attempt = attempt := by simp [hphase]
    refine hs.setCall _ hc (by simp [hattempt]) ?_
      ⟨by simpa [hattempt] using (hs.bounded c call hc).1, by simp⟩
    intro _ n hpast
    rcases hpast with hlt | heq | ⟨_, _, heq⟩
    . exact .inl (.inl (by simpa [hattempt] using hlt))
    . cases heq
    . cases heq

end Cluster.Sound

namespace Cluster

/-- No client has called yet. -/
def Idle (s : Cluster) : Prop := s.calls = [] ∧ ∀ k, s.exchanges k = none

variable {isUUID : Text → Bool} {api : UrlApi} {init : Cluster}

theorem Sound.of_idle (h : init.Idle) : init.Sound where
  started k x hk := by simp [h.2 k] at hk
  chained k x hk := by simp [h.2 k.next] at hk
  honest k parent child response hk := by simp [h.2 k] at hk
  past k x call hk := by simp [h.2 k] at hk
  bounded c call hc := by simp [h.1] at hc

theorem sound_of_reach (hidle : init.Idle) (h : Cluster.Reach isUUID api init s) : s.Sound := by
  induction h with
  | init => exact .of_idle hidle
  | step e _ hok hstep ih => exact ih.step (change_of_step hok hstep)

/-- Of the exchanges of a call that is not idempotent, one at most is acted on. -/
theorem Sound.acted_unique (hs : s.Sound) {k k' : Key} {x x' : Exchange} {call : Call}
    (hc : s.calls[k.call]? = some call) (hm : isIdempotent call.request.method = false)
    (hk : s.exchanges k = some x) (hk' : s.exchanges k' = some x') (hcall : k'.call = k.call)
    (hacted : x.stage.Acted) (hacted' : x'.stage.Acted) : k = k' := by
  -- an attempt that was acted on is the last one
  have hlast : ∀ k x, s.exchanges k = some x → s.calls[k.call]? = some call → x.stage.Acted →
      k.attempt = call.phase.attempt := by
    intro k x hk hc hacted
    rcases hs.started k x hk with ⟨call', hc', hle⟩
    rw [hc, Option.some.injEq] at hc'
    subst hc'
    by_contra hne
    exact (hs.past k x call hk hc hm (.inl (by omega))).not_acted hacted
  have hattempt : k.attempt = k'.attempt :=
    (hlast k x hk hc hacted).trans (hlast k' x' hk' (hcall ▸ hc) hacted').symm
  -- and a node that sent it on does not act on it
  have hparent : ∀ k x x', s.exchanges k = some x → s.exchanges k.next = some x' → ¬ x.stage.Acted := by
    intro k x x' hk hk'
    rcases hs.chained k x' hk' with ⟨-, parent, hparent, -, hpassed⟩
    rw [hk, Option.some.injEq] at hparent
    exact (hparent ▸ hpassed).not_acted
  have hhop := hs.hop_le hk
  have hhop' := hs.hop_le hk'
  obtain ⟨c, attempt, hop⟩ := k
  obtain ⟨c', attempt', hop'⟩ := k'
  simp only at hcall hattempt hhop hhop'
  subst hcall hattempt
  rcases Nat.le_one_iff_eq_zero_or_eq_one.mp hhop with rfl | rfl <;>
    rcases Nat.le_one_iff_eq_zero_or_eq_one.mp hhop' with rfl | rfl
  . rfl
  . exact absurd hacted (hparent _ x x' hk hk')
  . exact absurd hacted' (hparent _ x' x hk' hk)
  . rfl

/--
A call that is not idempotent is acted on at most once, over all its attempts and all the nodes they
reach, and when the client is told in the end that it was declined, then it was not acted on and will not
be.
-/
theorem one_run_of_reach (hidle : init.Idle) (h : Cluster.Reach isUUID api init s) {c : Nat} {call : Call}
    (hc : s.calls[c]? = some call) (hm : isIdempotent call.request.method = false) :
    (∀ k k' x x', k.call = c → k'.call = c → s.exchanges k = some x → s.exchanges k' = some x' →
      x.stage.Acted → x'.stage.Acted → k = k') ∧
    ∀ attempt, ∀ status ∈ backpressureStatuses, call.phase = .finished attempt (.response status) →
      ∀ k x, k.call = c → s.exchanges k = some x → x.stage.Over := by
  have hs := sound_of_reach hidle h
  constructor
  . intro k k' x x' hkc hkc' hk hk' hacted hacted'
    exact hs.acted_unique (hkc ▸ hc) hm hk hk' (hkc'.trans hkc.symm) hacted hacted'
  . intro attempt status hstatus hphase k x hkc hk
    rcases hs.started k x hk with ⟨call', hc', hle⟩
    rw [hkc, hc, Option.some.injEq] at hc'
    subst hc'
    refine hs.past k x call hk (hkc ▸ hc) hm ?_
    rw [hphase, Phase.attempt_finished] at hle
    rcases Nat.lt_or_eq_of_le hle with hlt | heq
    . exact .inl (by simpa [hphase] using hlt)
    . exact .inr (.inr ⟨status, hstatus, heq ▸ hphase⟩)

end Cluster

namespace Sample

/-- The URL parser, as it does on an origin and on a plain path. -/
def plainUrls : UrlApi where
  parse t := some ⟨t, ['/'], []⟩
  resolve t base := some { base with pathname := t, search := [] }
  setPathname t := t
  setSearch t := t

def arrivalAt (nodeId nodeUrl : Text) (h : headerValue nodeId ≠ []) : Arrival where
  ownership := some ⟨nodeId, nodeUrl, h⟩
  params := [("sessionId", ['1'])]
  sessionScoped := false
  remoteAddress := some ['p']
  ip := none
  proxyTimeoutMs := 60000

def heldByB (_sessionId : Text) : Option Owner := some ⟨some ['b'], some ['u'], some 10⟩

def idle : Cluster where
  sessions := heldByB
  tables := [heldByB]
  now := 0
  calls := []
  exchanges _ := none

theorem idle_idle : idle.Idle := ⟨rfl, fun _ => rfl⟩

def post : Request := ⟨"POST", ['/', 's'], [("x-api-key", ['k'])], none⟩

/-- The owner is out of reach at first; the second attempt is forwarded to it and carried out. -/
def secondAttempt : List Event :=
  [.call ⟨['v'], ['/'], []⟩ post (some DefaultRetryPolicy),
    .arrive ⟨0, 0, 0⟩ (arrivalAt ['a'] ['v'] (by decide)),
    .reject ⟨0, 0, 0⟩ none (some "ECONNREFUSED") false, .answer 0, .resume 0,
    .arrive ⟨0, 1, 0⟩ (arrivalAt ['a'] ['v'] (by decide)),
    .arrive ⟨0, 1, 1⟩ (arrivalAt ['b'] ['u'] (by decide)), .finish ⟨0, 1, 1⟩ ⟨201, [], .bytes []⟩,
    .relay ⟨0, 1, 0⟩, .answer 0]

theorem reported_secondAttempt : ∀ e ∈ secondAttempt, e.Reported := by
  intro e he
  simp only [secondAttempt, List.mem_cons, List.not_mem_nil, or_false] at he
  rcases he with rfl | rfl | rfl | rfl | rfl | rfl | rfl | rfl | rfl | rfl
  all_goals first | trivial | exact fun _ => rfl

end Sample

open Sample in
/-- `Cluster.one_run_of_reach` where the second attempt of a call is the one that is acted on. -/
theorem Cluster.one_run_of_reach_sample :
    ∃ (s : Cluster) (x : Exchange), s.exchanges ⟨0, 1, 1⟩ = some x ∧ x.stage.Acted ∧
      ∀ k x', k.call = 0 → s.exchanges k = some x' → x'.stage.Acted → ⟨0, 1, 1⟩ = k := by
  have hrun : ∃ s x call, idle.run (· = ['1']) plainUrls secondAttempt = some s ∧
      s.exchanges ⟨0, 1, 1⟩ = some x ∧ x.stage = .ran ⟨201, [], .bytes []⟩ ∧
      s.calls[0]? = some call ∧ call.request.method = "POST" := ⟨_, _, _, rfl, rfl, rfl, rfl, rfl⟩
  rcases hrun with ⟨s, x, call, hrun, hx, hstage, hc, hmethod⟩
  have hacted : x.stage.Acted := by simp [hstage, Stage.Acted, backpressureStatuses]
  have hunique := (Cluster.one_run_of_reach idle_idle
    (Cluster.reach_of_run hrun reported_secondAttempt) hc (by rw [hmethod]; decide)).1
  refine ⟨s, x, hx, hacted, ?_⟩
  intro k x' hk hx' hacted'
  exact hunique _ k x x' rfl hk hx hx' hacted hacted'

end OpenWA.Routing
