import OpenWA.Async.Machine
import OpenWA.Js.Map
import OpenWA.Js.Text

/-!
This module contains the budget of the request bodies in flight: the admission of a request, the
reconciliation of a body whose length is not declared, and the release of a reservation.
-/

namespace OpenWA.Budget

open Js Async

/-- The headers that the budget reads. -/
structure Headers where
  contentLength : Option Text
  transferEncoding : Option Text
  contentEncoding : Option Text

/-- What `Number` makes of a text. The server's parser lets only digits pass as a length. -/
def toNumber (t : Text) : Number :=
  match trim t with
  | [] => .int false 0
  | digits =>
    if digits.all Char.isDigit then
      match toDouble (digitsValue digits) with
      | some v => .int false v
      | none => .infinity false
    else .nan

def maxSafeInteger : Nat := 2 ^ 53 - 1

def parseDeclaredLength (raw : Option Text) : Option Nat :=
  match raw with
  | none => none
  | some raw =>
    match toNumber (trim raw) with
    | .int negative v => if v ≤ maxSafeInteger ∧ (negative = false ∨ v = 0) then some v else none
    | .nan | .infinity _ => none

def bodyIndicated (headers : Headers) : Bool :=
  headers.transferEncoding.isSome || headers.contentLength.any fun raw => toNumber raw ≠ .nan

def compressed (headers : Headers) : Bool :=
  let encoding := (trim (headers.contentEncoding.getD [])).map Char.toLower
  bodyIndicated headers && encoding ≠ [] && encoding ≠ "identity".toList

def stallTimeoutMs : Nat := 15000

def undeclaredOpeningReservationBytes : Nat := 1024 * 1024

def maxTrackedClients : Nat := 10000

structure Options where
  budgetBytes : Nat
  retryAfterSeconds : Nat
  /-- `Math.floor(budgetBytes * share)`, whatever the product of the two doubles is. -/
  shareBytes : Nat

def Options.perClientCap (options : Options) : Nat := max 1 options.shareBytes

def Options.undeclaredReservation (options : Options) : Nat :=
  max 1 (min undeclaredOpeningReservationBytes options.budgetBytes)

/-- What reaches the middleware, with what it reads of the request, its socket and the clock. -/
structure Incoming where
  headers : Headers
  /-- `resolveClientIp(req, trustedProxies)` -/
  clientKey : Text
  headersSent : Bool
  bytesRead : Nat
  now : Nat

inductive Refusal where
  | destroyed
  | responded (statusCode : Nat) (headers : List (Text × Text)) (message : Text)
      (error : Option Text)

/-- What the listeners of an admitted request share, and how often its reservation was given back. -/
structure Admitted where
  clientKey : Text
  declared : Option Nat
  mapAtCapacity : Bool
  reserved : Int
  released : Bool
  stallTimer : Bool
  startBytes : Nat
  lastBytes : Nat
  lastProgress : Nat
  destroyed : Bool
  releases : Nat
  terminated : Bool

inductive Request where
  | refused (refusal : Refusal)
  | admitted (r : Admitted)

structure InflightBodyBudget where
  inFlightBytes : Int
  clientInFlight : Map Text Int
  requests : List Request

namespace InflightBodyBudget

def initial : InflightBodyBudget := ⟨0, .empty, []⟩

variable (options : Options) (b : InflightBodyBudget)

def currentBytes : Int := b.inFlightBytes

def clientBytes (clientKey : Text) : Int := (b.clientInFlight.get? clientKey).getD 0

def rejectBusy (incoming : Incoming) : Refusal :=
  if incoming.headersSent then .destroyed
  else
    .responded 503
      [("Retry-After".toList, Nat.toDigits 10 options.retryAfterSeconds),
        ("Connection".toList, "close".toList)]
      "Too much request body data in flight; retry later".toList none

def rejectCompressed (incoming : Incoming) : Refusal :=
  if incoming.headersSent then .destroyed
  else
    .responded 415 [("Connection".toList, "close".toList)]
      "Compressed request bodies are not supported".toList (some "Unsupported Media Type".toList)

def refuse (refusal : Refusal) : InflightBodyBudget :=
  { b with requests := b.requests ++ [.refused refusal] }

/-- What a request reserves before any of its body has arrived. -/
def openingReservation (headers : Headers) : Nat :=
  (parseDeclaredLength headers.contentLength).getD
    (if headers.transferEncoding.isSome then options.undeclaredReservation else 0)

def mapAtCapacity (clientKey : Text) : Bool :=
  maxTrackedClients ≤ b.clientInFlight.size && !b.clientInFlight.has clientKey

def reserve (incoming : Incoming) (reserved : Nat) : InflightBodyBudget where
  inFlightBytes := b.inFlightBytes + reserved
  clientInFlight :=
    if b.mapAtCapacity incoming.clientKey then b.clientInFlight
    else b.clientInFlight.set incoming.clientKey (b.clientBytes incoming.clientKey + reserved)
  requests := b.requests ++ [.admitted {
    clientKey := incoming.clientKey
    declared := parseDeclaredLength incoming.headers.contentLength
    mapAtCapacity := b.mapAtCapacity incoming.clientKey
    reserved
    released := false
    stallTimer := 0 < reserved
    startBytes := incoming.bytesRead
    lastBytes := incoming.bytesRead
    lastProgress := incoming.now
    destroyed := false
    releases := 0
    terminated := false }]

def middleware (incoming : Incoming) : InflightBodyBudget :=
  let reserved := openingReservation options incoming.headers
  if compressed incoming.headers then b.refuse (rejectCompressed incoming)
  else if b.inFlightBytes + reserved > options.budgetBytes ||
      b.clientBytes incoming.clientKey + reserved > options.perClientCap ||
      b.mapAtCapacity incoming.clientKey then
    b.refuse (rejectBusy options incoming)
  else b.reserve incoming reserved

def admitted? (i : Nat) : Option Admitted :=
  match b.requests[i]? with
  | some (.admitted r) => some r
  | some (.refused _) | none => none

/-- What the listeners of a request write back. -/
def write (i : Nat) (r : Admitted) : InflightBodyBudget :=
  { b with requests := b.requests.set i (.admitted r) }

def release (i : Nat) (r : Admitted) : InflightBodyBudget :=
  if r.released then b
  else
    let clientInFlight :=
      if r.mapAtCapacity then b.clientInFlight
      else
        let busy := (b.clientInFlight.get? r.clientKey).getD r.reserved - r.reserved
        if 0 < busy then b.clientInFlight.set r.clientKey busy
        else b.clientInFlight.delete r.clientKey
    { b with inFlightBytes := b.inFlightBytes - r.reserved, clientInFlight }.write i
      { r with released := true, stallTimer := false, releases := r.releases + 1 }

/-- `release(); req.destroy()` -/
def drop (i : Nat) (r : Admitted) : InflightBodyBudget :=
  b.release i { r with destroyed := true }

/-- The placeholder of a body is replaced with what has arrived of it. -/
def resize (i : Nat) (r : Admitted) (actual : Int) : InflightBodyBudget where
  inFlightBytes := b.inFlightBytes + (actual - r.reserved)
  clientInFlight :=
    if r.mapAtCapacity then b.clientInFlight
    else b.clientInFlight.set r.clientKey (b.clientBytes r.clientKey + (actual - r.reserved))
  requests := b.requests.set i (.admitted { r with reserved := actual })

def reconcileUndeclared (i : Nat) (r : Admitted) (readNow : Nat) : InflightBodyBudget :=
  let actual := max (options.undeclaredReservation : Int) (readNow - r.startBytes)
  if actual = r.reserved then b.write i r
  else
    let busy := b.clientBytes r.clientKey + (actual - r.reserved)
    let b := b.resize i r actual
    let r := { r with reserved := actual }
    if !r.mapAtCapacity && (options.perClientCap : Int) < busy then b.drop i r
    else if (options.budgetBytes : Int) < b.inFlightBytes then b.drop i r
    else b

/-- One tick of the interval of a request. What it has read and when is written in any case. -/
def poll (i : Nat) (r : Admitted) (complete : Bool) (readNow now : Nat) : InflightBodyBudget :=
  if complete then b.write i { r with stallTimer := false }
  else if readNow ≠ r.lastBytes then
    let r := { r with lastBytes := readNow, lastProgress := now }
    match r.declared with
    | none => b.reconcileUndeclared options i r readNow
    | some declared =>
      if (declared : Int) ≤ readNow - r.startBytes then b.write i { r with stallTimer := false }
      else b.write i r
  else if (stallTimeoutMs : Int) ≤ now - r.lastProgress then b.drop i r
  else b

end InflightBodyBudget

/-- The events of a request and of its response. Only `aborted` has no listener. -/
inductive Signal where
  | resFinish
  | resClose
  | resError
  | reqClose
  | reqError
  | reqAborted
  | reqEnd
deriving DecidableEq

/-- The events that a release listens to. -/
def Signal.terminal (signal : Signal) : Bool :=
  match signal with
  | .resFinish | .resClose | .resError | .reqClose | .reqError => true
  | .reqAborted | .reqEnd => false

inductive Event where
  | incoming (incoming : Incoming)
  | signal (i : Nat) (signal : Signal)
  | poll (i : Nat) (complete : Bool) (readNow : Nat) (now : Nat)

open InflightBodyBudget in
def step (options : Options) (b : InflightBodyBudget) (event : Event) : Option InflightBodyBudget :=
  match event with
  | .incoming incoming => some (b.middleware options incoming)
  | .signal i signal =>
    match b.requests[i]? with
    | none => none
    -- a refused request has no listener
    | some (.refused _) => some b
    | some (.admitted r) =>
      match signal with
      | .resFinish | .resClose | .resError | .reqClose | .reqError =>
        let r := { r with terminated := true }
        some ((b.write i r).release i r)
      | .reqAborted => some b
      | .reqEnd => some (b.write i { r with stallTimer := false })
  | .poll i complete readNow now =>
    match b.admitted? i with
    | none => none
    | some r => if r.stallTimer then some (b.poll options i r complete readNow now) else none

def machine (options : Options) : Machine InflightBodyBudget Event where
  step := step options

end OpenWA.Budget
