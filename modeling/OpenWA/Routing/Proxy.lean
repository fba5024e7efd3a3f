import OpenWA.Js.Json
import OpenWA.Net.Ip

/-!
This module contains the interceptor that sends a request for a session to the node that hosts the
session's engine and relays that node's answer.
-/

namespace OpenWA.Routing

open Js Net

abbrev Headers := List (String × Text)

/-- The request headers a forwarded call carries over. -/
def FORWARDED_REQUEST_HEADERS : List String := ["x-api-key", "authorization", "content-type", "accept"]

/-- The response headers relayed back. -/
def RELAYED_RESPONSE_HEADERS : List String :=
  ["content-type", "content-disposition", "x-content-type-options", "retry-after",
    "retry-after-short", "retry-after-medium", "retry-after-long", "x-ratelimit-limit-short",
    "x-ratelimit-remaining-short", "x-ratelimit-reset-short", "x-ratelimit-limit-medium",
    "x-ratelimit-remaining-medium", "x-ratelimit-reset-medium", "x-ratelimit-limit-long",
    "x-ratelimit-remaining-long", "x-ratelimit-reset-long"]

/-- Connection-stage failure codes. -/
def NOT_DISPATCHED_CODES : List String :=
  ["ECONNREFUSED", "ENOTFOUND", "EAI_AGAIN", "EHOSTUNREACH", "ENETUNREACH", "UND_ERR_CONNECT_TIMEOUT"]

def FORWARDED_HEADER : String := "x-openwa-forwarded"

/-- `fetch` strips the whitespace around a header value. -/
def headerValue (t : Text) : Text :=
  let isHttpSpace := fun c => c = ' ' || c = '\t' || c = '\r' || c = '\n'
  (t.dropWhile isHttpSpace).rdropWhile isHttpSpace

/-- Whether `request.headers[name]` is truthy. -/
def Headers.given (headers : Headers) (name : String) : Bool := (headers.lookup name).any (! ·.isEmpty)

structure Url where
  origin : Text
  pathname : Text
  search : Text
deriving DecidableEq

/-- The `URL` of the runtime: the constructor with and without a base, and two setters. -/
structure UrlApi where
  parse : Text → Option Url
  resolve : Text → Url → Option Url
  setPathname : Text → Text
  setSearch : Text → Text

def forwardTarget (api : UrlApi) (originalUrl ownerNodeUrl : Text) : Option Url :=
  match api.parse ownerNodeUrl with
  | none => none
  | some base =>
    match api.resolve originalUrl base with
    | none => none
    | some requested =>
      some
        {
          base with
          pathname := api.setPathname requested.pathname
          search := api.setSearch requested.search
        }

/-- Who this process is among the nodes. The id falls back on the host name and is never blank. -/
structure Ownership where
  nodeId : Text
  nodeUrl : Text
  named : headerValue nodeId ≠ []

/-- The columns of a `sessions` row that routing reads. -/
structure Owner where
  nodeId : Option Text
  nodeUrl : Option Text
  leaseExpiresAt : Option Int
deriving DecidableEq

structure Request where
  method : String
  originalUrl : Text
  headers : Headers
  body : Option Json
deriving DecidableEq

/-- What the server of one node adds to a request it received. -/
structure Arrival where
  ownership : Option Ownership
  params : Headers
  sessionScoped : Bool
  remoteAddress : Option Text
  ip : Option Text
  proxyTimeoutMs : Nat

inductive Body where
  | bytes (content : Text)
  | json (statusCode : Nat) (message : Text) (error : String)
deriving DecidableEq

structure Response where
  status : Nat
  headers : Headers
  body : Body
deriving DecidableEq

def sessionIdOf (arrival : Arrival) : Option Text :=
  if arrival.params.given "sessionId" then arrival.params.lookup "sessionId"
  else if arrival.sessionScoped then arrival.params.lookup "id"
  else none

/-- The other node whose unexpired lease the row records, and the URL it announced. -/
def liveOwner (self : Ownership) (row : Option Owner) (now : Int) : Option (Text × Text) :=
  match row with
  | none => none
  | some owner =>
    let nodeId := owner.nodeId.getD []
    if nodeId.isEmpty || nodeId = self.nodeId then none
    else
      match owner.leaseExpiresAt with
      | none => none
      | some leaseExpiresAt =>
        if leaseExpiresAt > now then some (nodeId, owner.nodeUrl.getD []) else none

/-- What becomes of a request: the route's handler, a `ConflictException`, or the owner. -/
inductive Verdict where
  | handle
  | conflict (message : Text)
  | forward (ownerNodeId ownerNodeUrl : Text)
deriving DecidableEq

def intercept (isUUID : Text → Bool) (arrival : Arrival) (headers : Headers)
    (sessions : Text → Option Owner) (now : Int) : Verdict :=
  match arrival.ownership with
  | none => .handle
  | some self =>
    -- a node that never announced its own URL is not part of a routed topology
    if self.nodeUrl.isEmpty then .handle
    else
      match sessionIdOf arrival with
      | none => .handle
      | some sessionId =>
        if sessionId.isEmpty || !isUUID sessionId then .handle
        else
          match liveOwner self (sessions sessionId) now with
          | none => .handle
          | some (ownerNodeId, ownerNodeUrl) =>
            if headers.given FORWARDED_HEADER then
              .conflict ("Session ".toList ++ sessionId ++ " is running on another node".toList)
            else if ownerNodeUrl.isEmpty then .handle
            else .forward ownerNodeId ownerNodeUrl

/-- The address of the other end of the connection. -/
def observedPeer (arrival : Arrival) : Text :=
  normalizeIp (orElse arrival.remoteAddress (orElse arrival.ip []))

/-- The forwarded chain with the peer this hop observed. -/
def forwardedFor (arrival : Arrival) (headers : Headers) : Option Text :=
  let observed := observedPeer arrival
  if observed.isEmpty then none
  else
    match headers.lookup "x-forwarded-for" with
    | none | some [] => some observed
    | some inboundChain => some (inboundChain ++ ", ".toList ++ observed)

def forwardHeaders (arrival : Arrival) (headers : Headers) : Headers :=
  let nodeId :=
    match arrival.ownership with
    | some self => self.nodeId
    | none => "1".toList
  (FORWARDED_HEADER, headerValue nodeId) ::
    (FORWARDED_REQUEST_HEADERS.filterMap fun name => (headers.lookup name).map (name, ·)) ++
    ((forwardedFor arrival headers).map ("x-forwarded-for", ·)).toList

/-- The request the owner is sent. -/
def forwardRequest (arrival : Arrival) (request : Request) (target : Url) : Request :=
  let hasBody := request.method ∉ ["GET", "HEAD"]
  {
    method := request.method
    originalUrl := target.pathname ++ target.search
    headers := forwardHeaders arrival request.headers
    body :=
      if hasBody then
        match request.body with
        | none | some .null => some (.object .nil)
        | some body => some body
      else none
  }

/-- The answer of the owner, read whole, as the client receives it. -/
def relayed (ownerNodeId : Text) (upstream : Response) : Response where
  status := upstream.status
  headers :=
    (RELAYED_RESPONSE_HEADERS.filterMap fun name =>
      if upstream.headers.given name then (upstream.headers.lookup name).map (name, ·) else none) ++
      [("x-openwa-served-by", ownerNodeId)]
  body := upstream.body

def failed (status : Nat) (message : Text) (error : String) : Response where
  status := status
  headers := []
  body := .json status message error

def unreachable (ownerNodeId : Text) : Response :=
  failed 503
    ("this session is hosted on node '".toList ++ ownerNodeId ++
      "', which could not be reached from this node — check the owner node and its NODE_URL".toList)
    "Service Unavailable"

/-- The answer to a `fetch` of a usable target that rejected, by the name and the cause's code. -/
def rejected (ownerNodeId : Text) (timeoutMs : Nat) (name code : Option String) : Response :=
  if code.any (· ∈ NOT_DISPATCHED_CODES) then unreachable ownerNodeId
  else if name = some "TimeoutError" || name = some "AbortError" then
    failed 504
      ("node '".toList ++ ownerNodeId ++ "', which hosts this session, did not answer within ".toList ++
        (toString timeoutMs).toList ++ "ms; the request may still have been carried out there".toList)
      "Gateway Timeout"
  else
    failed 502
      ("forwarding to node '".toList ++ ownerNodeId ++
        ("', which hosts this session, failed, possibly after the request was sent; it may have been " ++
          "carried out there, check the owner node and its NODE_URL").toList)
      "Bad Gateway"

/-- The answer of the exception filter to the `ConflictException`. -/
def conflicted (message : Text) : Response := failed 409 message "Conflict"

end OpenWA.Routing
