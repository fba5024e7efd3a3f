import OpenWA.Ssrf.SsrfGuard

/-!
This module contains the guarded fetch: the validation of a URL, and the loop that follows redirects and
validates every hop.
-/

namespace OpenWA.Ssrf

open Js

/-- Redirect hops followed before the chain is refused. -/
def MAX_REDIRECT_HOPS : Nat := 5

def REDIRECT_STATUSES : List Nat := [301, 302, 303, 307, 308]

inductive FetchError where
  | ssrfBlocked (message : Text)
  | error (message : Text)
  -- what a parser, the signal of the caller or the request itself threw
  | thrown (reason : Text)

/-- What the code reads of a parsed URL. -/
structure Url where
  protocol : Text
  hostname : Text
  origin : Text

structure LookupAddress where
  address : Text
  family : Nat

/-- How a lookup under the deadline ends. -/
inductive Lookup where
  | answered (addresses : List LookupAddress)
  | failed (code : Option Text)
  | timedOut
  | aborted (reason : Text)

structure Response where
  status : Nat
  opaqueRedirect : Bool
  location : Option Text

/-- The options of a request; `I` are the ways to give its headers. -/
structure RequestInit (I : Type) where
  method : Option Text
  headers : Option I
  body : Option Text

inductive Dispatcher where
  | default
  | pinned (addresses : List LookupAddress)
  | proxy (proxyUrl : Text) (addresses : Option (List LookupAddress))

/-- The parts of the platform and of its HTTP client that the code calls. -/
structure Platform (I : Type) where
  /-- `new URL(t)` -/
  parseUrl : Text → Option Url
  /-- `new URL(location, base).toString()` -/
  resolveUrl : Text → Text → Option Text
  toLowerCase : Text → Text
  /-- `new Headers(h)` -/
  newHeaders : I → I
  /-- `headers.delete(name)` -/
  deleteHeader : Text → I → I
  /-- A request with these headers carries one of this name, in lower case. -/
  sends : I → Text → Bool

/-- What a header of a request depends on. -/
structure Platform.LawfulHeaders {I : Type} (P : Platform I) : Prop where
  sends_newHeaders : ∀ h name, P.sends (P.newHeaders h) name = P.sends h name
  sends_deleteHeader : ∀ h name deleted,
    P.sends (P.deleteHeader deleted h) name = (P.sends h name && name ≠ deleted)

/-- The environment and the answers of the outside world during one hop. -/
structure HopWorld (I : Type) where
  SSRF_ALLOWED_HOSTS : Option Text
  PLUGIN_DOWNLOAD_ALLOW_INSECURE_REDIRECTS : Option Text
  WEBHOOK_SSRF_REDIRECTS : Option Text
  lookup : Text → Lookup
  respond : Text → RequestInit I → Dispatcher → Except Text Response

/-- `t.replace(/^\[|\]$/g, '')` -/
def stripBrackets (t : Text) : Text :=
  let t := if t.head? = some '[' then t.tail else t
  if t.getLast? = some ']' then t.dropLast else t

section Guard

variable {I : Type} (P : Platform I)

def getAllowedHosts (w : HopWorld I) : List Text :=
  (((w.SSRF_ALLOWED_HOSTS.getD []).splitOn ',').map fun h =>
    P.toLowerCase (stripBrackets (trim h))).filter fun h => !h.isEmpty

def isInsecureRedirectHopAllowed (w : HopWorld I) : Bool :=
  w.PLUGIN_DOWNLOAD_ALLOW_INSECURE_REDIRECTS = some "true".toList

def lookupWithDeadline (w : HopWorld I) (host : Text) : Except FetchError (List LookupAddress) :=
  match w.lookup host with
  | .answered addresses => .ok addresses
  | .aborted reason => .error (.thrown reason)
  | .timedOut => .error (.ssrfBlocked ("Timed out resolving host: ".toList ++ host))
  | .failed none => .error (.ssrfBlocked ("Could not resolve host: ".toList ++ host))
  | .failed (some code) =>
    .error (.ssrfBlocked ("Could not resolve host: ".toList ++ host ++ " (".toList ++ code ++ [')']))

def resolveSafeFetchTarget (w : HopWorld I) (rawUrl : Text) :
    Except FetchError (Option (List LookupAddress)) :=
  match P.parseUrl rawUrl with
  | none => .error (.ssrfBlocked ("Invalid URL: ".toList ++ rawUrl))
  | some url =>
    if url.protocol ≠ "http:".toList && url.protocol ≠ "https:".toList then
      .error (.ssrfBlocked ("Blocked URL scheme: ".toList ++ url.protocol))
    else
      let host := stripBrackets url.hostname
      if P.toLowerCase host ∈ getAllowedHosts P w then (lookupWithDeadline w host).map some
      else if isIPv4 host || isIPv6 host then
        if isBlockedAddress host then .error (.ssrfBlocked ("Blocked internal address: ".toList ++ host))
        else .ok none
      else
        match lookupWithDeadline w host with
        | .error e => .error e
        | .ok resolved =>
          if resolved.isEmpty then .error (.ssrfBlocked ("Could not resolve host: ".toList ++ host))
          else
            match resolved.find? fun a => isBlockedAddress a.address with
            | some a =>
              .error (.ssrfBlocked ("Host ".toList ++ host ++
                " resolves to a blocked internal address: ".toList ++ a.address))
            | none => .ok (some resolved)

/-- A URL that a request may be sent to, and the addresses it is pinned to. -/
structure Vetted (w : HopWorld I) (rawUrl : Text) (target : Option (List LookupAddress)) : Prop where
  scheme : ∃ url, P.parseUrl rawUrl = some url ∧
    (url.protocol = "http:".toList ∨ url.protocol = "https:".toList) ∧
    (P.toLowerCase (stripBrackets url.hostname) ∈ getAllowedHosts P w ∨
      target = none ∧ isBlockedAddress (stripBrackets url.hostname) = false ∨
      ∃ addresses, target = some addresses ∧ addresses ≠ [] ∧
        ∀ a ∈ addresses, isBlockedAddress a.address = false)

theorem vetted_of_resolve {w : HopWorld I} {rawUrl : Text} {target : Option (List LookupAddress)}
    (h : resolveSafeFetchTarget P w rawUrl = .ok target) : Vetted P w rawUrl target := by
  unfold resolveSafeFetchTarget at h
  split at h
  . cases h
  . next url hurl =>
    split at h
    . cases h
    . next hscheme =>
      have hscheme' : url.protocol = "http:".toList ∨ url.protocol = "https:".toList := by
        by_contra hnot
        rw [not_or] at hnot
        simp only [Bool.and_eq_true, decide_eq_true_eq] at hscheme
        exact hscheme hnot
      refine ⟨url, hurl, hscheme', ?_⟩
      dsimp only at h
      split at h
      . next hallowed => exact .inl hallowed
      . split at h
        . split at h
          . cases h
          . next hblocked =>
            cases h
            exact .inr (.inl ⟨rfl, by simpa using hblocked⟩)
        . split at h
          . cases h
          . next resolved hlookup =>
            split at h
            . cases h
            . next hne =>
              split at h
              . cases h
              . next hfind =>
                cases h
                refine .inr (.inr ⟨resolved, rfl, by simpa using hne, ?_⟩)
                intro a ha
                simpa using List.find?_eq_none.mp hfind a ha

end Guard

section Redirects

variable {I : Type} (P : Platform I)

/-- `status` is read for a redirect only. -/
def rewrittenMethod (init : RequestInit I) (status : Nat) : RequestInit I :=
  if status ≠ 307 && status ≠ 308 && init.method ≠ none && init.method ≠ some "GET".toList &&
      init.method ≠ some "HEAD".toList then
    { init with method := some "GET".toList, body := none }
  else
    init

/-- `none` where the URL cannot be parsed. -/
def nextRedirectHopInit (init : RequestInit I) (status : Nat) (nextUrl initialOrigin : Text) :
    Option (RequestInit I) :=
  let next := rewrittenMethod init status
  (P.parseUrl nextUrl).map fun url =>
    match next.headers with
    | some headers =>
      if url.origin ≠ initialOrigin then
        { next with headers := some (P.deleteHeader "cookie".toList
            (P.deleteHeader "authorization".toList (P.newHeaders headers))) }
      else
        next
    | none => next

/-- A proxy that cannot be used makes the request fail. -/
def requestDispatcher (proxyUrl : Option Text) (target : Option (List LookupAddress)) : Dispatcher :=
  match proxyUrl, target with
  | some [], none | none, none => .default
  | some [], some addresses | none, some addresses => .pinned addresses
  | some proxyUrl, target => .proxy proxyUrl target

/-- A request that was sent. -/
structure Fetch (I : Type) where
  hop : Nat
  url : Text
  init : RequestInit I
  dispatcher : Dispatcher

inductive Event (I : Type) where
  | validated (hop : Nat) (url : Text) (target : Option (List LookupAddress))
  | fetched (f : Fetch I)
  | unguarded (url : Text) (init : RequestInit I) (follow : Bool)

/-- The variables of the redirect loop. -/
structure LoopState (I : Type) where
  currentUrl : Text
  initialOrigin : Option Text
  hopInit : RequestInit I
  sawSecureHop : Bool

/-- How a turn of the redirect loop ends. -/
inductive Turn (I : Type) where
  | stop (result : Except FetchError Response)
  | redirect (s : LoopState I)

/-- What is done with the answer to a request; a response that is no redirect goes to the caller. -/
def answered (rawUrl : Text) (hop : Nat) (s : LoopState I) (initialOrigin : Text) (sawSecureHop : Bool)
    (response : Response) : Turn I :=
  if response.status ∉ REDIRECT_STATUSES then .stop (.ok response)
  else
    match response.location with
    | none | some [] =>
      .stop (.error (.ssrfBlocked ("Redirect from ".toList ++ s.currentUrl ++
        " carried no Location header".toList)))
    | some location =>
      if hop ≥ MAX_REDIRECT_HOPS then
        .stop (.error (.error ("Too many redirects while fetching ".toList ++ rawUrl)))
      else
        match P.resolveUrl location s.currentUrl with
        | none => .stop (.error (.thrown "Invalid URL".toList))
        | some nextUrl =>
          match nextRedirectHopInit P s.hopInit response.status nextUrl initialOrigin with
          | none => .stop (.error (.thrown "Invalid URL".toList))
          | some hopInit =>
            .redirect {
              currentUrl := nextUrl
              initialOrigin := some initialOrigin
              hopInit := hopInit
              sawSecureHop := sawSecureHop
            }

/-- One turn of the redirect loop, with what it does on the way. -/
def turn (w : HopWorld I) (proxyUrl : Option Text) (rawUrl : Text) (hop : Nat) (s : LoopState I) :
    List (Event I) × Turn I :=
  match resolveSafeFetchTarget P w s.currentUrl with
  | .error e => ([], .stop (.error e))
  | .ok target =>
    match P.parseUrl s.currentUrl with
    -- parsed already by `resolveSafeFetchTarget`
    | none => ([.validated hop s.currentUrl target], .stop (.error (.thrown "Invalid URL".toList)))
    | some current =>
      let initialOrigin := s.initialOrigin.getD current.origin
      if current.protocol = "http:".toList && s.sawSecureHop && !isInsecureRedirectHopAllowed w then
        ([.validated hop s.currentUrl target],
          .stop (.error (.error
            ("Refusing redirect that downgrades from https to http: ".toList ++ s.currentUrl))))
      else
        let sawSecureHop := current.protocol = "https:".toList || s.sawSecureHop
        let dispatcher := requestDispatcher proxyUrl target
        let events :=
          [.validated hop s.currentUrl target, .fetched ⟨hop, s.currentUrl, s.hopInit, dispatcher⟩]
        match w.respond s.currentUrl s.hopInit dispatcher with
        | .error reason => (events, .stop (.error (.thrown reason)))
        | .ok response => (events, answered P rawUrl hop s initialOrigin sawSecureHop response)

theorem lt_of_answered_redirect {rawUrl : Text} {hop : Nat} {s s' : LoopState I} {initialOrigin : Text}
    {sawSecureHop : Bool} {response : Response}
    (h : answered P rawUrl hop s initialOrigin sawSecureHop response = .redirect s') :
    hop < MAX_REDIRECT_HOPS := by
  unfold answered at h
  split at h
  . cases h
  . split at h
    . cases h
    . cases h
    . split at h
      . cases h
      . next hlt => exact not_le.mp hlt

theorem lt_of_turn_redirect {w : HopWorld I} {proxyUrl : Option Text} {rawUrl : Text} {hop : Nat}
    {s s' : LoopState I} (h : (turn P w proxyUrl rawUrl hop s).2 = .redirect s') :
    hop < MAX_REDIRECT_HOPS := by
  unfold turn at h
  split at h
  . cases h
  . split at h
    . cases h
    . dsimp only at h
      split at h
      . cases h
      . split at h
        . cases h
        . exact lt_of_answered_redirect P h

/-- The redirect loop from a hop on; the world may be another one at every hop. -/
def follow (world : Nat → HopWorld I) (proxyUrl : Option Text) (rawUrl : Text) (hop : Nat)
    (s : LoopState I) : List (Event I) × Except FetchError Response :=
  match h : (turn P (world hop) proxyUrl rawUrl hop s).2 with
  | .stop result => ((turn P (world hop) proxyUrl rawUrl hop s).1, result)
  | .redirect s' =>
    have := lt_of_turn_redirect P h
    let rest := follow world proxyUrl rawUrl (hop + 1) s'
    ((turn P (world hop) proxyUrl rawUrl hop s).1 ++ rest.1, rest.2)
termination_by MAX_REDIRECT_HOPS - hop

structure SafeFetchOptions where
  guard : Option Bool
  followRedirects : Bool
  proxyUrl : Option Text

def assertNoRedirect (response : Response) (url : Text) : Except FetchError Response :=
  if response.opaqueRedirect || (response.status ≥ 300 && response.status < 400) then
    .error (.ssrfBlocked ("Refusing to follow redirect from ".toList ++ url))
  else
    .ok response

/-- The guarded fetch of one URL, whose answer must not be a redirect. -/
def fetchOnce (w : HopWorld I) (proxyUrl : Option Text) (rawUrl : Text) (init : RequestInit I) :
    List (Event I) × Except FetchError Response :=
  match resolveSafeFetchTarget P w rawUrl with
  | .error e => ([], .error e)
  | .ok target =>
    let dispatcher := requestDispatcher proxyUrl target
    let events := [.validated 0 rawUrl target, .fetched ⟨0, rawUrl, init, dispatcher⟩]
    match w.respond rawUrl init dispatcher with
    | .error reason => (events, .error (.thrown reason))
    | .ok response => (events, assertNoRedirect response rawUrl)

/-- What is done on the way, and the response that `use` is given. -/
def withSafeFetch (world : Nat → HopWorld I) (rawUrl : Text) (init : RequestInit I)
    (opts : SafeFetchOptions) : List (Event I) × Except FetchError Response :=
  if opts.guard.getD true = false then
    let w := world 0
    let follow := w.WEBHOOK_SSRF_REDIRECTS = some "true".toList
    ([.unguarded rawUrl init follow],
      match w.respond rawUrl init (requestDispatcher opts.proxyUrl none) with
      | .error reason => .error (.thrown reason)
      | .ok response => .ok response)
  else if opts.followRedirects then
    follow P world opts.proxyUrl rawUrl 0 {
      currentUrl := rawUrl
      initialOrigin := none
      hopInit := init
      sawSecureHop := false
    }
  else
    fetchOnce P (world 0) opts.proxyUrl rawUrl init

end Redirects

end OpenWA.Ssrf
