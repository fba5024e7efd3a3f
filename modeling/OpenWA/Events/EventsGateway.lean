import OpenWA.Async.Machine
import OpenWA.Auth.AuthService
import OpenWA.Js.Map

/-!
This module contains the websocket gateway: the sockets it tracks under the key they have shown, the
rooms their subscriptions join, and the periodic sweep that evicts the sockets of a changed key.
-/

namespace OpenWA.Events

open Js Async Auth

/-- A row, under the hash that a raw key is looked up by. -/
structure Row where
  keyHash : Text
  key : ApiKey
deriving DecidableEq

def subscribableEvents : List Text :=
  ["message.received", "message.sent", "message.ack", "message.revoked", "message.reaction",
    "message.edited", "session.status", "session.qr", "session.authenticated",
    "session.disconnected", "session.restriction", "group.join", "group.leave", "group.update",
    "group.join_request", "call.received", "status.received", "presence.update", "call.accepted",
    "call.rejected", "call.missed"].map String.toList

def buildRoomName (sessionId event : Text) : Text :=
  "session:".toList ++ sessionId ++ ':' :: event

def qrDeniedRoom : Text := "role:qr-denied".toList

def qrAllowed (role : ApiKeyRole) : Bool :=
  match role with
  | .operator | .admin => true
  | .viewer => false

def evictionMessage (reason : ApiKeyEvictionReason) : Text :=
  match reason with
  | .revoked => "API key has been revoked".toList
  | .deleted => "API key has been deleted".toList
  | .authorizationChanged => "API key authorization changed; please reconnect".toList
  | .expired => "API key has expired".toList

/-- What a client is sent on `message`. -/
inductive Frame where
  | error (code message : Text) (requestId : Option Text)
  | subscribed (sessionId : Text) (events : List Text) (requestId : Option Text)
  | unsubscribed (sessionId : Text) (requestId : Option Text)
  | pong (requestId : Option Text)
deriving DecidableEq

/-- `sessionId` and `events` are none when they have another type. -/
inductive ClientMessage where
  | subscribe (sessionId : Option Text) (events : Option (List Text)) (requestId : Option Text)
  | unsubscribe (sessionId : Text) (requestId : Option Text)
  | ping (requestId : Option Text)
  | unknown (requestId : Option Text)
deriving DecidableEq

/-- The reads and checks of `validateApiKey`, then its wait for the usage tracker. -/
inductive Validation where
  | findOne
  | found (row : Option ApiKey)
  | recorded (validKey : Option ApiKey)
deriving DecidableEq

/-- `handleConnection` of a socket. -/
inductive Handshake where
  | validating (rawApiKey : Text) (validation : Validation)
  | over

/-- `rooms` leaves out the room of its own that each socket has. -/
structure Socket where
  clientIp : Text
  handshake : Handshake
  apiKey : Option ApiKey
  rawApiKey : Option Text
  authorizationDiverged : Bool
  disconnected : Bool
  rooms : List Text
  /-- Each subscription room with what authorized the subscribe that joined it. -/
  grants : List (Text × Fingerprint)
  frames : List Frame

/-- What a sweep has read: the table, and the sockets that were tracked at that moment. -/
structure SweepRead where
  rows : List Row
  tracked : Map Text (List Nat)
deriving DecidableEq

inductive Task where
  | subscribing (client : Nat) (sessionId : Text) (events : Option (List Text))
      (requestId : Option Text) (rawApiKey : Text) (validation : Validation)
  | sweeping (now : Nat) (keyIds : List Text) (read : Option SweepRead)
  | done
deriving DecidableEq

/-- What the gateway uses of the configuration and of other modules. -/
structure Config where
  hashKey : Text → Text
  isIpAllowed : Text → List Text → Bool
  maxSocketsPerKey : Nat

structure Gateway where
  clock : Nat
  rows : List Row
  sockets : List Socket
  socketsByKeyId : Map Text (List Nat)
  tasks : List Task

def isSessionSubscriptionAllowed (allowedSessions : Option (List Text)) (sessionId : Text) : Bool :=
  match allowedSessions with
  | none | some [] => true
  | some allowedSessions => sessionId ≠ ['*'] && sessionId ∈ allowedSessions

def snapshotFingerprint (client : Socket) : Option Fingerprint :=
  client.apiKey.map apiKeyAuthorizationFingerprint

def isSnapshotExpired (client : Socket) (now : Nat) : Bool :=
  (client.apiKey.bind (·.expiresAt)).any (· ≤ now)

/-- `evictionReason` of a row and of the sockets under its id. -/
def evictionReason (current : Option ApiKey) (sockets : List Socket) (now : Nat) :
    Option ApiKeyEvictionReason :=
  if sockets = [] then none
  else
    match current with
    | none => some .deleted
    | some current =>
      if !current.isActive then some .revoked
      else if current.expiresAt.any (· ≤ now) then some .expired
      else if sockets.any fun client =>
          snapshotFingerprint client ≠ some (apiKeyAuthorizationFingerprint current) ||
            client.authorizationDiverged then
        some .authorizationChanged
      else none

/-- The checks of `validateApiKey` on the row that it has found, at the instant `now`. -/
def judge (config : Config) (now : Nat) (clientIp : Text) (row : Option ApiKey) : Option ApiKey :=
  match row with
  | none => none
  | some key =>
    if !key.isActive then none
    else if key.expiresAt.any (· < now) then none
    else
      match key.allowedIps with
      | none | some [] => some key
      | some allowedIps =>
        if clientIp ≠ [] && config.isIpAllowed clientIp allowedIps then some key else none

namespace Gateway

variable (config : Config) (g : Gateway)

def modify (client : Nat) (f : Socket → Socket) : Gateway :=
  { g with sockets := g.sockets.modify client f }

def emit (client : Nat) (frame : Frame) : Gateway :=
  g.modify client fun c => { c with frames := c.frames ++ [frame] }

/-- `client.disconnect()`, which leaves all rooms. -/
def disconnect (client : Nat) : Gateway :=
  g.modify client fun c => { c with disconnected := true, rooms := [], grants := [] }

def createError (code message : String) (requestId : Option Text) : Frame :=
  .error code.toList message.toList requestId

/-- The set of a key, empty if there is none. -/
def socketsOf (keyId : Text) : List Nat := (g.socketsByKeyId.get? keyId).getD []

def trackSocket (keyId : Text) (client : Nat) : Gateway :=
  let sockets := g.socketsOf keyId
  let sockets := if client ∈ sockets then sockets else sockets ++ [client]
  { g with socketsByKeyId := g.socketsByKeyId.set keyId sockets }

def untrackSocket (client : Nat) : Gateway :=
  match (g.sockets[client]?).bind (·.apiKey) with
  | none => g
  | some key =>
    match g.socketsByKeyId.get? key.id with
    | none => g
    | some sockets =>
      let sockets := sockets.filter (· ≠ client)
      if sockets = [] then { g with socketsByKeyId := g.socketsByKeyId.delete key.id }
      else { g with socketsByKeyId := g.socketsByKeyId.set key.id sockets }

def evictApiKey (keyId : Text) (reason : ApiKeyEvictionReason) : Gateway :=
  (g.socketsOf keyId).foldl
    (fun g client => (g.emit client (.error "UNAUTHORIZED".toList (evictionMessage reason) none)).disconnect
      client)
    { g with socketsByKeyId := g.socketsByKeyId.delete keyId }

def reply (client : Nat) (frame : Frame) : Gateway :=
  if (g.sockets[client]?).any (·.disconnected) then g else g.emit client frame

/-- A refusal that closes the socket. -/
def reject (client : Nat) (frame : Frame) : Gateway := (g.emit client frame).disconnect client

/-- `handleConnection` up to its wait; `allowed` is what the handshake limiter says. -/
def handleConnection (clientIp : Text) (apiKey : Option Text) (allowed : Bool) : Gateway :=
  let client := g.sockets.length
  let socket : Socket := {
    clientIp
    handshake := .over
    apiKey := none
    rawApiKey := none
    authorizationDiverged := false
    disconnected := false
    rooms := []
    grants := []
    frames := [] }
  let connected (handshake : Handshake) : Gateway :=
    { g with sockets := g.sockets ++ [{ socket with handshake }] }
  if !allowed then
    (connected .over).reject client
      (createError "RATE_LIMITED" "Too many connection attempts, retry later" none)
  else
    match apiKey with
    | none | some [] =>
      (connected .over).reject client (createError "UNAUTHORIZED" "API key required" none)
    | some rawApiKey => connected (.validating rawApiKey .findOne)

/-- `handleConnection` after `validateApiKey`, which none means has thrown. -/
def finishConnection (client : Nat) (rawApiKey : Text) (validKey : Option ApiKey) : Gateway :=
  let g := g.modify client fun c => { c with handshake := .over }
  match validKey with
  | none => g.reject client (createError "UNAUTHORIZED" "Authentication failed" none)
  | some validKey =>
    if config.maxSocketsPerKey ≤ (g.socketsOf validKey.id).length &&
        (g.socketsByKeyId.get? validKey.id).isSome then
      g.reject client (.error "RATE_LIMITED".toList
        ("Too many concurrent connections for this API key (max ".toList ++
          Nat.toDigits 10 config.maxSocketsPerKey ++ ")".toList) none)
    else
      let g := g.modify client fun c =>
        { c with apiKey := some validKey, rawApiKey := some rawApiKey }
      let g := g.trackSocket validKey.id client
      if (g.sockets[client]?).any (·.disconnected) then g.untrackSocket client else g

def join (c : Socket) (room : Text) : Socket :=
  { c with rooms := if room ∈ c.rooms then c.rooms else c.rooms ++ [room] }

def leave (c : Socket) (room : Text) : Socket :=
  { c with
    rooms := c.rooms.filter (· ≠ room)
    grants := c.grants.filter (·.1 ≠ room) }

def syncQrAccess (c : Socket) (role : ApiKeyRole) : Socket :=
  if qrAllowed role then leave c qrDeniedRoom else join c qrDeniedRoom

def grant (fingerprint : Fingerprint) (c : Socket) (room : Text) : Socket :=
  let c := join c room
  { c with grants := c.grants ++ [(room, fingerprint)] }

def unauthorized (requestId : Option Text) : Frame :=
  createError "UNAUTHORIZED" "API key is no longer valid" requestId

def invalidEvents : Text :=
  "No valid events. Valid: ".toList ++ [',', ' '].intercalate subscribableEvents ++ ", *".toList

/-- `handleSubscribe` after its re-validation. -/
def finishSubscribe (client : Nat) (sessionId : Text) (events : Option (List Text))
    (requestId : Option Text) (subscriberKey : Option ApiKey) : Gateway :=
  match subscriberKey with
  | none => (g.reject client (unauthorized requestId)).reply client (unauthorized requestId)
  | some subscriberKey =>
    if (g.sockets[client]?).any (·.disconnected) then
      g.reply client (createError "UNAUTHORIZED" "Connection is closed" requestId)
    else
      let fingerprint := apiKeyAuthorizationFingerprint subscriberKey
      let g := g.modify client fun c =>
        if snapshotFingerprint c ≠ some fingerprint then { c with authorizationDiverged := true }
        else c
      let g := g.modify client fun c => syncQrAccess c subscriberKey.role
      if !isSessionSubscriptionAllowed subscriberKey.allowedSessions sessionId then
        g.reply client
          (createError "FORBIDDEN_SESSION" "API key is not authorized for this session" requestId)
      else
        match events with
        | none | some [] =>
          g.reply client (createError "INVALID_EVENTS" "events array is required" requestId)
        | some events =>
          match events.filter fun e => e = ['*'] || e ∈ subscribableEvents with
          | [] => g.reply client (.error "INVALID_EVENTS".toList invalidEvents requestId)
          | validEvents =>
            let g := g.modify client fun c =>
              validEvents.foldl (fun c event => grant fingerprint c (buildRoomName sessionId event)) c
            g.reply client (.subscribed sessionId validEvents requestId)

def handleUnsubscribe (client : Nat) (sessionId : Text) (requestId : Option Text) : Gateway :=
  let sessionPrefix := "session:".toList ++ sessionId ++ [':']
  let leaves (room : Text) : Bool :=
    sessionPrefix.isPrefixOf room || sessionId = ['*'] && "session:".toList.isPrefixOf room
  let g := g.modify client fun c => (c.rooms.filter leaves).foldl leave c
  g.reply client (.unsubscribed sessionId requestId)

/-- `handleMessage` up to the wait of a subscribe; `allowed` is what the frame limiter says. -/
def handleMessage (client : Nat) (message : ClientMessage) (allowed : Bool) : Gateway :=
  if !allowed then
    let requestId := match message with
      | .subscribe _ _ requestId | .unsubscribe _ requestId | .ping requestId
      | .unknown requestId => requestId
    g.reply client (createError "RATE_LIMITED" "Frame rate limit exceeded, slow down" requestId)
  else
    match message with
    | .subscribe sessionId events requestId =>
      match sessionId with
      | none | some [] =>
        g.reply client (createError "INVALID_SESSION" "sessionId is required" requestId)
      | some sessionId =>
        match (g.sockets[client]?).bind (·.rawApiKey) with
        | none => (g.reject client (unauthorized requestId)).reply client (unauthorized requestId)
        | some rawApiKey =>
          { g with tasks := g.tasks ++
              [.subscribing client sessionId events requestId rawApiKey .findOne] }
    | .unsubscribe sessionId requestId => g.handleUnsubscribe client sessionId requestId
    | .ping requestId => g.reply client (.pong requestId)
    | .unknown requestId =>
      g.reply client (createError "INVALID_MESSAGE" "Unknown message type" requestId)

/-- The sockets in a list of them. -/
def resolve (clients : List Nat) : List Socket := clients.filterMap fun client => g.sockets[client]?

/-- `sweepApiKeyAuthorization` up to its read. -/
def startSweep (now : Nat) : Gateway :=
  let g := g.socketsByKeyId.entries.foldl (fun g entry =>
    if (g.resolve entry.2).any (isSnapshotExpired · now) then g.evictApiKey entry.1 .expired else g) g
  match g.socketsByKeyId.keys with
  | [] => { g with tasks := g.tasks ++ [.done] }
  | keyIds => { g with tasks := g.tasks ++ [.sweeping now keyIds none] }

/-- The rows that `findAuthorizationStates` has returned, by id. -/
def byId (rows : List Row) (keyId : Text) : Option ApiKey :=
  (rows.map (·.key)).find? (·.id = keyId)

/-- One iteration over the ids of a sweep. -/
def sweepKey (now : Nat) (rows : List Row) (g : Gateway) (keyId : Text) : Gateway :=
  match evictionReason (byId rows keyId) (g.resolve (g.socketsOf keyId)) now with
  | none => g
  | some reason => g.evictApiKey keyId reason

def finishSweep (now : Nat) (keyIds : List Text) (rows : List Row) : Gateway :=
  keyIds.foldl (sweepKey now rows) g

/-- The next step of `validateApiKey` for a raw key; none when it has returned. -/
def validate (clientIp rawApiKey : Text) (validation : Validation) : Validation ⊕ Option ApiKey :=
  match validation with
  | .findOne =>
    .inl (.found ((g.rows.find? fun row => row.keyHash = config.hashKey (trim rawApiKey)).map (·.key)))
  | .found row => .inl (.recorded (judge config g.clock clientIp row))
  | .recorded validKey => .inr validKey

def setTask (t : Nat) (task : Task) : Gateway := { g with tasks := g.tasks.set t task }

/-- The next step of a pending `handleConnection`. -/
def stepConnection (client : Nat) : Option Gateway :=
  match g.sockets[client]? with
  | none => none
  | some c =>
    match c.handshake with
    | .over => none
    | .validating rawApiKey validation =>
      match g.validate config c.clientIp rawApiKey validation with
      | .inl validation =>
        some (g.modify client fun c => { c with handshake := .validating rawApiKey validation })
      | .inr validKey => some (g.finishConnection config client rawApiKey validKey)

/-- The next step of a pending subscribe or sweep. -/
def stepTask (t : Nat) : Option Gateway :=
  match g.tasks[t]? with
  | none | some .done => none
  | some (.subscribing client sessionId events requestId rawApiKey validation) =>
    let clientIp := ((g.sockets[client]?).map (·.clientIp)).getD []
    match g.validate config clientIp rawApiKey validation with
    | .inl validation =>
      some (g.setTask t (.subscribing client sessionId events requestId rawApiKey validation))
    | .inr subscriberKey =>
      some ((g.setTask t .done).finishSubscribe client sessionId events requestId subscriberKey)
  | some (.sweeping now keyIds none) =>
    some (g.setTask t (.sweeping now keyIds (some ⟨g.rows, g.socketsByKeyId⟩)))
  | some (.sweeping now keyIds (some read)) => some ((g.setTask t .done).finishSweep now keyIds read.rows)

end Gateway

/--
What can happen to a gateway. Rows change in any way. The handler of a disconnect runs at some time
after it.
-/
inductive Event where
  | connect (clientIp : Text) (apiKey : Option Text) (allowed : Bool)
  | stepConnection (client : Nat)
  | frame (client : Nat) (message : ClientMessage) (allowed : Bool)
  | close (client : Nat)
  | handleDisconnect (client : Nat)
  | evictApiKey (keyId : Text) (reason : ApiKeyEvictionReason)
  | sweep
  | stepTask (t : Nat)
  | setRows (rows : List Row)
  | tick (clock : Nat)

open Gateway in
def step (config : Config) (g : Gateway) (event : Event) : Option Gateway :=
  match event with
  | .connect clientIp apiKey allowed => some (g.handleConnection clientIp apiKey allowed)
  | .stepConnection client => g.stepConnection config client
  | .frame client message allowed =>
    match g.sockets[client]? with
    | none => none
    | some c => if c.disconnected then none else some (g.handleMessage client message allowed)
  | .close client => some (g.disconnect client)
  | .handleDisconnect client =>
    match g.sockets[client]? with
    | none => none
    | some c => if c.disconnected then some (g.untrackSocket client) else none
  | .evictApiKey keyId reason => some (g.evictApiKey keyId reason)
  | .sweep => some (g.startSweep g.clock)
  | .stepTask t => g.stepTask config t
  | .setRows rows => some { g with rows }
  | .tick clock => if g.clock ≤ clock then some { g with clock } else none

def machine (config : Config) : Machine Gateway Event where
  step := step config

def initial (rows : List Row) : Gateway := ⟨0, rows, [], .empty, []⟩

end OpenWA.Events
