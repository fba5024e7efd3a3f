import OpenWA.Ssrf.SafeFetch

/-!
This module contains the safety of the guarded fetch: whatever the servers answer, the requests of one
call go to vetted URLs, they are few, they do not leave https, and they carry credentials no further than
the origin of the first one.
-/

namespace OpenWA.Ssrf

open Js

variable {I : Type} (P : Platform I)

def Event.fetch? (e : Event I) : Option (Fetch I) :=
  match e with
  | .fetched f => some f
  | _ => none

/-- The requests of a run, in order. -/
def fetches (events : List (Event I)) : List (Fetch I) := events.filterMap Event.fetch?

def protocolOf (url : Text) : Option Text := (P.parseUrl url).map (·.protocol)

def originOf (url : Text) : Option Text := (P.parseUrl url).map (·.origin)

def isHttps (url : Text) : Prop := protocolOf P url = some "https:".toList

def isHttp (url : Text) : Prop := protocolOf P url = some "http:".toList

/-- A request carries the `authorization` or the `cookie` header. -/
def sendsCredentials (init : RequestInit I) : Bool :=
  match init.headers with
  | some h => P.sends h "authorization".toList || P.sends h "cookie".toList
  | none => false

structure SafeChain (world : Nat → HopWorld I) (proxyUrl : Option Text) (rawUrl : Text)
    (events : List (Event I)) : Prop where
  /-- What the guard lets through is vetted in the world of that hop. -/
  vetted : ∀ hop url target, .validated hop url target ∈ events → Vetted P (world hop) url target
  /-- A request is sent after the guard let its URL through, and to the addresses the guard saw. -/
  validated : ∀ before f after, events = before ++ .fetched f :: after →
    ∃ target, .validated f.hop f.url target ∈ before ∧ f.dispatcher = requestDispatcher proxyUrl target
  guarded : ∀ url init follow, .unguarded url init follow ∉ events
  bounded : (fetches events).length ≤ MAX_REDIRECT_HOPS + 1
  noDowngrade : (fetches events).Pairwise fun f g =>
    isHttps P f.url → isHttp P g.url → isInsecureRedirectHopAllowed (world g.hop) = true
  /-- No request before one with credentials went to another origin, and it does not either. -/
  credentials : ∀ before f after, fetches events = before ++ f :: after →
    sendsCredentials P f.init = true → ∀ g ∈ before ++ [f], originOf P g.url = originOf P rawUrl

section Snoc

theorem append_singleton_eq {α : Type} {xs before after : List α} {x y : α}
    (h : xs ++ [x] = before ++ y :: after) :
    (after = [] ∧ xs = before ∧ x = y) ∨ ∃ mid, after = mid ++ [x] ∧ xs = before ++ y :: mid := by
  cases after using List.reverseRecOn with
  | nil =>
    have hboth := List.append_inj' h rfl
    exact .inl ⟨rfl, hboth.1, List.singleton_inj.mp hboth.2⟩
  | append_singleton mid z =>
    rw [← List.cons_append, ← List.append_assoc] at h
    have hboth := List.append_inj' h rfl
    exact .inr ⟨mid, by rw [List.singleton_inj.mp hboth.2], hboth.1⟩

variable {P} {world : Nat → HopWorld I} {proxyUrl : Option Text} {rawUrl : Text}
  {events : List (Event I)}

theorem safeChain_nil : SafeChain P world proxyUrl rawUrl [] where
  vetted := by simp
  validated := by simp
  guarded := by simp
  bounded := by simp [fetches]
  noDowngrade := by simp [fetches]
  credentials := by simp [fetches]

theorem fetches_snoc_validated (hop : Nat) (url : Text) (target : Option (List LookupAddress)) :
    fetches (events ++ [.validated hop url target]) = fetches events := by
  simp [fetches, List.filterMap_append, Event.fetch?]

theorem fetches_snoc_fetched (f : Fetch I) :
    fetches (events ++ [.fetched f]) = fetches events ++ [f] := by
  simp [fetches, List.filterMap_append, Event.fetch?]

theorem SafeChain.snoc_validated (h : SafeChain P world proxyUrl rawUrl events) {hop : Nat}
    {url : Text} {target : Option (List LookupAddress)} (hvetted : Vetted P (world hop) url target) :
    SafeChain P world proxyUrl rawUrl (events ++ [.validated hop url target]) where
  vetted := by
    intro hop' url' target' hmem
    rcases List.mem_append.mp hmem with hold | hnew
    . exact h.vetted hop' url' target' hold
    . cases List.mem_singleton.mp hnew
      exact hvetted
  validated := by
    intro before f after heq
    rcases append_singleton_eq heq with ⟨_, _, hbad⟩ | ⟨mid, _, hevents⟩
    . cases hbad
    . exact h.validated before f mid hevents
  guarded := by
    intro url' init follow hmem
    rcases List.mem_append.mp hmem with hold | hnew
    . exact h.guarded url' init follow hold
    . cases List.mem_singleton.mp hnew
  bounded := by
    rw [fetches_snoc_validated]
    exact h.bounded
  noDowngrade := by
    rw [fetches_snoc_validated]
    exact h.noDowngrade
  credentials := by
    rw [fetches_snoc_validated]
    exact h.credentials

theorem SafeChain.snoc_fetched (h : SafeChain P world proxyUrl rawUrl events) {f : Fetch I}
    (hvalidated : ∃ target, .validated f.hop f.url target ∈ events ∧
      f.dispatcher = requestDispatcher proxyUrl target)
    (hcount : (fetches events).length ≤ MAX_REDIRECT_HOPS)
    (hdowngrade : isHttp P f.url → isInsecureRedirectHopAllowed (world f.hop) = false →
      ∀ g ∈ fetches events, ¬isHttps P g.url)
    (hcredentials : sendsCredentials P f.init = true →
      (∀ g ∈ fetches events, originOf P g.url = originOf P rawUrl) ∧
        originOf P f.url = originOf P rawUrl) :
    SafeChain P world proxyUrl rawUrl (events ++ [.fetched f]) where
  vetted := by
    intro hop url target hmem
    rcases List.mem_append.mp hmem with hold | hnew
    . exact h.vetted hop url target hold
    . cases List.mem_singleton.mp hnew
  validated := by
    intro before g after heq
    rcases append_singleton_eq heq with ⟨_, hevents, hf⟩ | ⟨mid, _, hevents⟩
    . cases hf
      rw [← hevents]
      exact hvalidated
    . exact h.validated before g mid hevents
  guarded := by
    intro url init follow hmem
    rcases List.mem_append.mp hmem with hold | hnew
    . exact h.guarded url init follow hold
    . cases List.mem_singleton.mp hnew
  bounded := by
    rw [fetches_snoc_fetched, List.length_append, List.length_singleton]
    omega
  noDowngrade := by
    rw [fetches_snoc_fetched, List.pairwise_append]
    refine ⟨h.noDowngrade, List.pairwise_singleton _ _, ?_⟩
    intro g hg f' hf' hsecure hplain
    cases List.mem_singleton.mp hf'
    by_contra hno
    exact hdowngrade hplain (by simpa using hno) g hg hsecure
  credentials := by
    intro before g after heq hsends g' hg'
    rw [fetches_snoc_fetched] at heq
    rcases append_singleton_eq heq with ⟨_, hfetches, hf⟩ | ⟨mid, _, hfetches⟩
    . cases hf
      have hboth := hcredentials hsends
      rcases List.mem_append.mp hg' with hold | hnew
      . exact hboth.1 g' (hfetches ▸ hold)
      . cases List.mem_singleton.mp hnew
        exact hboth.2
    . exact h.credentials before g mid hfetches hsends g' hg'

end Snoc

section Headers

variable {P}

theorem sendsCredentials_rewrittenMethod (init : RequestInit I) (status : Nat) :
    sendsCredentials P (rewrittenMethod init status) = sendsCredentials P init := by
  unfold rewrittenMethod
  split <;> rfl

/-- Headers that still carry credentials were not taken from them, so that the hop is on the origin. -/
theorem sendsCredentials_of_next (hP : P.LawfulHeaders) {init next : RequestInit I} {status : Nat}
    {nextUrl initialOrigin : Text}
    (h : nextRedirectHopInit P init status nextUrl initialOrigin = some next)
    (hsends : sendsCredentials P next = true) :
    sendsCredentials P init = true ∧ originOf P nextUrl = some initialOrigin := by
  unfold nextRedirectHopInit at h
  dsimp only at h
  obtain ⟨url, hurl, hnext⟩ := Option.map_eq_some_iff.mp h
  rw [← sendsCredentials_rewrittenMethod init status]
  cases hheaders : (rewrittenMethod init status).headers with
  | none =>
    rw [hheaders] at hnext
    dsimp only at hnext
    rw [← hnext] at hsends
    simp [sendsCredentials, hheaders] at hsends
  | some headers =>
    rw [hheaders] at hnext
    dsimp only at hnext
    split at hnext
    . rw [← hnext] at hsends
      simp [sendsCredentials, hP.sends_deleteHeader] at hsends
    . next horigin =>
      rw [← hnext] at hsends
      refine ⟨hsends, ?_⟩
      rw [originOf, hurl, Option.map_some, not_not.mp horigin]

end Headers

section Loop

variable {P} {world : Nat → HopWorld I} {proxyUrl : Option Text} {rawUrl : Text}

/-- What holds at the head of the redirect loop, after the requests of the turns before. -/
structure LoopInv (P : Platform I) (world : Nat → HopWorld I) (proxyUrl : Option Text) (rawUrl : Text)
    (events : List (Event I)) (hop : Nat) (s : LoopState I) : Prop where
  safe : SafeChain P world proxyUrl rawUrl events
  count : (fetches events).length = hop
  bound : hop ≤ MAX_REDIRECT_HOPS
  start : s.initialOrigin = none → s.currentUrl = rawUrl
  origin : ∀ o, s.initialOrigin = some o → originOf P rawUrl = some o
  secure : s.sawSecureHop = false → ∀ f ∈ fetches events, ¬isHttps P f.url
  credentials : sendsCredentials P s.hopInit = true →
    (∀ f ∈ fetches events, originOf P f.url = originOf P rawUrl) ∧
      originOf P s.currentUrl = originOf P rawUrl

theorem loopInv_start (init : RequestInit I) : LoopInv P world proxyUrl rawUrl [] 0
    ⟨rawUrl, none, init, false⟩ where
  safe := safeChain_nil
  count := rfl
  bound := Nat.zero_le _
  start _ := rfl
  origin := by simp
  secure := by simp [fetches]
  credentials := by simp [fetches]

theorem answered_redirect {hop : Nat} {s s' : LoopState I} {initialOrigin : Text} {sawSecureHop : Bool}
    {response : Response}
    (h : answered P rawUrl hop s initialOrigin sawSecureHop response = .redirect s') :
    ∃ nextUrl next, nextRedirectHopInit P s.hopInit response.status nextUrl initialOrigin = some next ∧
      s' = ⟨nextUrl, some initialOrigin, next, sawSecureHop⟩ := by
  unfold answered at h
  split at h
  . cases h
  . split at h
    . cases h
    . cases h
    . split at h
      . cases h
      . split at h
        . cases h
        . next nextUrl hresolve =>
          split at h
          . cases h
          . next next hnext =>
            cases h
            exact ⟨nextUrl, next, hnext, rfl⟩

/-- What a turn does: nothing, a validation, or a validation and the request it allows. -/
theorem turn_cases (w : HopWorld I) (proxyUrl : Option Text) (rawUrl : Text) (hop : Nat)
    (s : LoopState I) :
    (∃ e, turn P w proxyUrl rawUrl hop s = ([], .stop (.error e))) ∨
    ∃ target, Vetted P w s.currentUrl target ∧
      ((∃ e, turn P w proxyUrl rawUrl hop s =
        ([.validated hop s.currentUrl target], .stop (.error e))) ∨
      ∃ current, P.parseUrl s.currentUrl = some current ∧
        (current.protocol = "http:".toList → s.sawSecureHop = true →
          isInsecureRedirectHopAllowed w = true) ∧
        (turn P w proxyUrl rawUrl hop s).1 = [.validated hop s.currentUrl target,
          .fetched ⟨hop, s.currentUrl, s.hopInit, requestDispatcher proxyUrl target⟩] ∧
        ∀ s', (turn P w proxyUrl rawUrl hop s).2 = .redirect s' →
          ∃ response nextUrl next, nextRedirectHopInit P s.hopInit response nextUrl
              (s.initialOrigin.getD current.origin) = some next ∧
            s' = ⟨nextUrl, some (s.initialOrigin.getD current.origin), next,
              current.protocol = "https:".toList || s.sawSecureHop⟩) := by
  unfold turn
  split
  . next e he => exact .inl ⟨e, rfl⟩
  . next target htarget =>
    refine .inr ⟨target, vetted_of_resolve P htarget, ?_⟩
    split
    . exact .inl ⟨_, rfl⟩
    . next current hcurrent =>
      dsimp only
      split
      . exact .inl ⟨_, rfl⟩
      . next hplain =>
        have hplain' : current.protocol = "http:".toList → s.sawSecureHop = true →
            isInsecureRedirectHopAllowed w = true := by
          intro hhttp hsaw
          simpa [hhttp, hsaw] using hplain
        refine .inr ⟨current, hcurrent, hplain', ?_⟩
        split
        . exact ⟨rfl, fun s' hs' => by cases hs'⟩
        . next response _ =>
          refine ⟨rfl, fun s' hs' => ?_⟩
          obtain ⟨nextUrl, next, hnext, heq⟩ := answered_redirect hs'
          exact ⟨response.status, nextUrl, next, hnext, heq⟩

theorem LoopInv.originOf_rawUrl {events : List (Event I)} {hop : Nat} {s : LoopState I} {current : Url}
    (inv : LoopInv P world proxyUrl rawUrl events hop s)
    (hcurrent : P.parseUrl s.currentUrl = some current) :
    originOf P rawUrl = some (s.initialOrigin.getD current.origin) := by
  cases horigin : s.initialOrigin with
  | none => rw [← inv.start horigin, originOf, hcurrent, Option.map_some, Option.getD_none]
  | some o => rw [inv.origin o horigin, Option.getD_some]

theorem LoopInv.turn (hP : P.LawfulHeaders) {events : List (Event I)} {hop : Nat} {s : LoopState I}
    (inv : LoopInv P world proxyUrl rawUrl events hop s) :
    SafeChain P world proxyUrl rawUrl
        (events ++ (Ssrf.turn P (world hop) proxyUrl rawUrl hop s).1) ∧
      ∀ s', (Ssrf.turn P (world hop) proxyUrl rawUrl hop s).2 = .redirect s' →
        LoopInv P world proxyUrl rawUrl (events ++ (Ssrf.turn P (world hop) proxyUrl rawUrl hop s).1)
          (hop + 1) s' := by
  rcases turn_cases (P := P) (world hop) proxyUrl rawUrl hop s with
    ⟨e, hturn⟩ | ⟨target, hvetted, ⟨e, hturn⟩ | ⟨current, hcurrent, hplain, hevents, hnext⟩⟩
  . rw [hturn]
    exact ⟨by simpa using inv.safe, fun s' hs' => by cases hs'⟩
  . rw [hturn]
    exact ⟨inv.safe.snoc_validated hvetted, fun s' hs' => by cases hs'⟩
  . have hpair (x y : Event I) : events ++ [x, y] = events ++ [x] ++ [y] := by simp
    have hraw := inv.originOf_rawUrl hcurrent
    rw [hevents, hpair]
    generalize hf : (⟨hop, s.currentUrl, s.hopInit, requestDispatcher proxyUrl target⟩ : Fetch I) = f
    have hold : fetches (events ++ [.validated hop s.currentUrl target]) = fetches events :=
      fetches_snoc_validated hop s.currentUrl target
    have hsafe : SafeChain P world proxyUrl rawUrl
        (events ++ [.validated hop s.currentUrl target] ++ [.fetched f]) := by
      apply (inv.safe.snoc_validated hvetted).snoc_fetched
      . exact ⟨target, by rw [← hf]; simp, by rw [← hf]⟩
      . rw [hold, inv.count]
        exact inv.bound
      . intro hhttp hno
        rw [hold]
        apply inv.secure
        cases hsaw : s.sawSecureHop with
        | false => rfl
        | true =>
          rw [← hf] at hhttp hno
          have hprotocol : current.protocol = "http:".toList := by
            simpa [isHttp, protocolOf, hcurrent] using hhttp
          exact absurd (hplain hprotocol hsaw) (Bool.eq_false_iff.mp hno)
      . rw [hold, ← hf]
        exact inv.credentials
    refine ⟨hsafe, fun s' hs' => ?_⟩
    obtain ⟨status, nextUrl, next, hinit, rfl⟩ := hnext s' hs'
    have hlt := lt_of_turn_redirect P hs'
    exact {
      safe := hsafe
      count := by rw [fetches_snoc_fetched, hold, List.length_append, inv.count, List.length_singleton]
      bound := hlt
      start := by simp
      origin := by
        intro o ho
        rw [← ho]
        exact hraw
      secure := by
        intro hsaw g hg
        simp only [Bool.or_eq_false_iff, decide_eq_false_iff_not] at hsaw
        rw [fetches_snoc_fetched, hold] at hg
        rcases List.mem_append.mp hg with hpast | hnew
        . exact inv.secure hsaw.2 g hpast
        . rw [List.mem_singleton.mp hnew, ← hf]
          simpa [isHttps, protocolOf, hcurrent] using hsaw.1
      credentials := by
        intro hsends
        obtain ⟨hpast, hcurrentOrigin⟩ := sendsCredentials_of_next hP hinit hsends
        refine ⟨?_, by rw [hraw]; exact hcurrentOrigin⟩
        intro g hg
        rw [fetches_snoc_fetched, hold] at hg
        rcases List.mem_append.mp hg with hold' | hnew
        . exact (inv.credentials hpast).1 g hold'
        . rw [List.mem_singleton.mp hnew, ← hf]
          exact (inv.credentials hpast).2
    }

/-- Every run of the loop, by induction on the hops that are left. -/
theorem safeChain_follow (hP : P.LawfulHeaders) (hop : Nat) (s : LoopState I) (events : List (Event I))
    (inv : LoopInv P world proxyUrl rawUrl events hop s) :
    SafeChain P world proxyUrl rawUrl (events ++ (follow P world proxyUrl rawUrl hop s).1) := by
  fun_induction follow P world proxyUrl rawUrl hop s generalizing events with
  | case1 hop s result h => exact (inv.turn hP).1
  | case2 hop s s' h hlt rest ih =>
    dsimp only
    rw [← List.append_assoc]
    exact ih _ ((inv.turn hP).2 s' h)

end Loop

theorem safeChain_fetchOnce (world : Nat → HopWorld I) (proxyUrl : Option Text) (rawUrl : Text)
    (init : RequestInit I) :
    SafeChain P world proxyUrl rawUrl (fetchOnce P (world 0) proxyUrl rawUrl init).1 := by
  unfold fetchOnce
  split
  . exact safeChain_nil
  . next target htarget =>
    have hvalidated : SafeChain P world proxyUrl rawUrl [.validated 0 rawUrl target] :=
      safeChain_nil.snoc_validated (vetted_of_resolve P htarget)
    have hsafe : SafeChain P world proxyUrl rawUrl [.validated 0 rawUrl target,
        .fetched ⟨0, rawUrl, init, requestDispatcher proxyUrl target⟩] := by
      apply hvalidated.snoc_fetched
      . exact ⟨target, by simp, rfl⟩
      . exact Nat.zero_le _
      . simp [fetches, Event.fetch?]
      . simp [fetches, Event.fetch?]
    dsimp only
    split
    . exact hsafe
    . exact hsafe

/--
Whatever the servers, the resolvers and the environment answer at every hop, a guarded fetch is a safe
chain of requests.
-/
theorem safeChain_withSafeFetch (hP : P.LawfulHeaders) (world : Nat → HopWorld I) (rawUrl : Text)
    (init : RequestInit I) (opts : SafeFetchOptions) (hguard : opts.guard ≠ some false) :
    SafeChain P world opts.proxyUrl rawUrl (withSafeFetch P world rawUrl init opts).1 := by
  have hguarded : ¬(opts.guard.getD true = false) := by
    cases hopt : opts.guard with
    | none => simp
    | some guard =>
      cases guard with
      | true => simp
      | false => exact absurd hopt hguard
  unfold withSafeFetch
  rw [if_neg hguarded]
  split
  . exact safeChain_follow hP 0 _ [] (loopInv_start init)
  . exact safeChain_fetchOnce P world opts.proxyUrl rawUrl init

/-- A client whose headers are pairs with names in lower case, and which knows two hosts. -/
def twoHosts : Platform (List (Text × Text)) where
  parseUrl t :=
    if "https://a.example/".toList.isPrefixOf t then
      some ⟨"https:".toList, "a.example".toList, "https://a.example".toList⟩
    else if "https://b.example/".toList.isPrefixOf t then
      some ⟨"https:".toList, "b.example".toList, "https://b.example".toList⟩
    else
      none
  resolveUrl location _ := some location
  toLowerCase t := t.map Char.toLower
  newHeaders h := h
  deleteHeader name h := h.filter fun pair => pair.1 ≠ name
  sends h name := h.any fun pair => pair.1 = name

theorem twoHosts_lawful : twoHosts.LawfulHeaders where
  sends_newHeaders _ _ := rfl
  sends_deleteHeader h name deleted := by
    rw [Bool.eq_iff_iff]
    simp only [twoHosts, List.any_eq_true, List.mem_filter, Bool.and_eq_true, decide_eq_true_eq]
    constructor
    . rintro ⟨pair, ⟨hmem, hne⟩, heq⟩
      exact ⟨⟨pair, hmem, heq⟩, heq ▸ hne⟩
    . rintro ⟨⟨pair, hmem, heq⟩, hne⟩
      exact ⟨pair, ⟨hmem, heq ▸ hne⟩, heq⟩

/-- The first host redirects to the second one, at every hop. -/
def redirectingWorld (_ : Nat) : HopWorld (List (Text × Text)) where
  SSRF_ALLOWED_HOSTS := none
  PLUGIN_DOWNLOAD_ALLOW_INSECURE_REDIRECTS := none
  WEBHOOK_SSRF_REDIRECTS := none
  lookup _ := .answered [⟨"93.184.216.34".toList, 4⟩]
  respond url _ _ :=
    if url = "https://a.example/x".toList then .ok ⟨302, false, some "https://b.example/y".toList⟩
    else .ok ⟨200, false, none⟩

theorem safeChain_twoHosts :
    SafeChain twoHosts redirectingWorld none "https://a.example/x".toList
      (withSafeFetch twoHosts redirectingWorld "https://a.example/x".toList
        ⟨none, some [("authorization".toList, "t".toList)], none⟩ ⟨none, true, none⟩).1 :=
  safeChain_withSafeFetch twoHosts twoHosts_lawful redirectingWorld _ _ ⟨none, true, none⟩ (by simp)

end OpenWA.Ssrf
