import Moonpool.Rpc.Monitor
import Moonpool.Rpc.Peer

/-!
Owns a runtime's calls: starting, transmitting, completing, abandoning and retransmitting
them (`transport/calls.rs`, the calling half of `transport/streams.rs`), choosing the
connection they ride on (`transport/sessions.rs`, `Shared::peer_connection`), and ending
them all (`transport/shutdown.rs`).

Each function here is one section under the runtime's lock, or under a connection's.  What a
section reads from outside, a clock, a counter, a credential source, is an argument.  What
it does besides changing the state is a list of events: a completion finished, a frame
queued, a frame handed to the session's writer.
-/

namespace Moonpool.Rpc

/-! ### Calls -/

inductive Origin where
  | here
  | connection (id : ConnectionId)
deriving DecidableEq

inductive Delivery where
  | atMostOnce
  | reliable
deriving DecidableEq

inductive Completion where
  | reply
  | stream
deriving DecidableEq

structure PendingCall where
  origin : Origin
  endpoint : Endpoint
  identity : CallIdentity
  transmitted : Bool
  /-- An earlier attempt of this (reliable) call began to leave. -/
  earlierTransmitted : Bool
  retained : Option (List UInt8)
  completion : Completion
deriving DecidableEq

def PendingCall.mayHaveExecuted (call : PendingCall) : Bool :=
  call.transmitted || call.earlierTransmitted

/-- What the attempts so far prove about execution when none was answered. -/
def PendingCall.execution (call : PendingCall) : Execution :=
  if call.mayHaveExecuted then .maybeExecuted else .notAdmitted

abbrev ReplyBytes : Type := CodecId × List UInt8

inductive Outcome where
  | reply (reply : ReplyBytes)
  | streamed
  | failed (error : RpcError)
deriving DecidableEq

/-- Complete with `result`; a single reply does not answer a stream. -/
def Completion.finish : Completion → Except RpcError ReplyBytes → Outcome
  | _, .error error => .failed error
  | .reply, .ok answer => .reply answer
  | .stream, .ok _ => .failed ⟨.streamProtocol "a single reply answered a stream", .executed⟩

inductive Cause where
  | reply (origin : Origin) (outcome : WireOutcome)
  | streamEnd (origin : Origin) (error : Option WireError)
  | violation
  | runtime
deriving DecidableEq

/-- What a section does besides changing the state. -/
inductive Event where
  | started (call : CallId) (delivery : Delivery) (origin : Origin)
  | queued (call : Option CallId) (connection : ConnectionId)
  | written (call : Option CallId) (connection : ConnectionId) (frame : List UInt8)
  | finished (call : CallId) (outcome : Outcome) (cause : Cause)
  | abandoned (call : CallId) (transmitted : Bool)
deriving DecidableEq

/-! ### The state -/

structure RpcConfig where
  address : Option SocketAddr
  maxFrameBytes : UInt32
  maxPendingCalls : Nat
  maxConnections : Nat
  maxRetainedBytes : Nat
  maxBufferedBytes : Nat
  limits : QueueLimits
  plaintextCredentials : Bool
  versions : UInt16 × UInt16
  sharing : InboundSharing
  peer : PeerPolicy
  hello : List UInt8

inductive Lifecycle where
  | running
  | draining
  | terminated
deriving DecidableEq

/-- Where a connection's driver is: connecting and upgrading, running the session, done. -/
inductive Stage where
  | connecting
  | running
  | ended
deriving DecidableEq

/-- A connection, whether it is in the connection table, and its driver's stage. -/
structure Session where
  connection : Connection
  listed : Bool
  stage : Stage

structure Resend where
  call : CallId
  endpoint : Endpoint
  identity : CallIdentity
  body : List UInt8
deriving DecidableEq

/-- What the driver, the one task all connections run in, is in the middle of. -/
inductive Phase where
  | idle
  | writing (connection : ConnectionId) (frame : List UInt8) (call : Option CallId)
  /-- A `Hello` was accepted and its selection settled. -/
  | greeting (connection : ConnectionId) (hello : PeerHello)
  | settling (address : SocketAddr)
  | refusing (connection : ConnectionId) (call : CallId)
  | ending (connection : ConnectionId) (call : CallId) (error : Option WireError)
  /-- A connection ended and its retained calls' copies are being built. -/
  | resending (connection : ConnectionId) (address : SocketAddr) (copies : List Resend)
deriving DecidableEq

structure Runtime where
  config : RpcConfig
  lifecycle : Lifecycle
  pending : CallId → Option PendingCall
  nextCallId : CallId
  peers : Peers
  sessions : ConnectionId → Option Session
  nextConnectionId : ConnectionId
  failures : Failures
  driver : Phase
  commandsOpen : Bool

namespace Runtime

variable (runtime : Runtime) (id : ConnectionId) (call : CallId)

def new (config : RpcConfig) (maxFailed : Nat) : Runtime where
  config
  lifecycle := .running
  pending := fun _ => none
  nextCallId := 0
  peers := []
  sessions := fun _ => none
  nextConnectionId := 0
  failures := .new maxFailed
  driver := .idle
  commandsOpen := true

def setCall (value : Option PendingCall) : Runtime :=
  { runtime with pending := fun other => if other = call then value else runtime.pending other }

def setSession (value : Session) : Runtime :=
  { runtime with
    sessions := fun other => if other = id then some value else runtime.sessions other }

def onConnection (change : Connection → Connection) :
    Runtime :=
  match runtime.sessions id with
  | none => runtime
  | some session =>
    runtime.setSession id { session with connection := change session.connection }

def pendingCalls : List CallId :=
  (List.range runtime.nextCallId).filter fun call => (runtime.pending call).isSome

def connectionCount : Nat :=
  (List.range runtime.nextConnectionId).countP fun id =>
    (runtime.sessions id).any Session.listed

def isClosing : Bool := decide (runtime.lifecycle ≠ .running)

/-! ### Choosing a connection -/

def standing (peer : Peer) : Option Standing := do
  let id ← peer.current
  let session ← runtime.sessions id
  if session.connection.isClosed then none
  else some ⟨id, session.connection.direction, session.connection.established⟩

def usableCandidate (peer : Peer) : Option ConnectionId := do
  let id ← peer.candidate
  let session ← runtime.sessions id
  if session.connection.isClosed ∨ session.connection.established = false then none else some id

def moveCall (runtime : Runtime) (moved : QueuedRequest) : Runtime :=
  match moved.2 with
  | none => runtime
  | some call =>
    match runtime.pending call with
    | none => runtime
    | some pending => runtime.setCall call (some { pending with origin := .connection id })

/-- Move the never-written requests of `old` to `id` and close `old`. -/
def takeOver (id old : ConnectionId) (session : Session) (now : Duration) :
    Runtime :=
  let moved := session.connection.takeRequests.2
  let runtime := runtime.onConnection old fun connection => connection.takeRequests.1
  let runtime := moved.foldl (moveCall id) runtime
  let runtime := runtime.onConnection id fun connection =>
    (connection.adoptRequests moved now).1
  runtime.onConnection old (·.close .replaced)

def choose (listen : SocketAddr) (id : ConnectionId) (now : Duration) :
    Runtime :=
  let runtime := runtime.onConnection id (·.selectFor listen)
  { runtime with
    peers := runtime.peers.update listen fun peer =>
      { peer with current := some id, candidate := none }.adopted now }

def adopt (listen : SocketAddr) (id : ConnectionId)
    (replaced : Option ConnectionId) (now : Duration) : Runtime :=
  let runtime := runtime.choose listen id now
  match replaced with
  | none => runtime
  | some old =>
    match runtime.sessions old with
    | none => runtime
    | some session => runtime.takeOver id old session now

def newConnection (peer : Option SocketAddr) (direction : Direction)
    (now : Duration) : Runtime × ConnectionId :=
  let id := runtime.nextConnectionId
  let connection :=
    Connection.new id peer direction runtime.config.hello runtime.config.limits now
  ({ runtime.setSession id ⟨connection, true, .connecting⟩ with nextConnectionId := id + 1 }, id)

def trimPeers (address : SocketAddr) (now : Duration) : Runtime :=
  if (runtime.peers.get address).isNone ∧
      runtime.config.peer.maxTrackedAddresses ≤ runtime.peers.length then
    { runtime with
      peers := List.filter
        (fun entry => !entry.2.isForgettable (runtime.standing entry.2).isSome now) runtime.peers }
  else runtime

def select (address : SocketAddr) (now : Duration) : Runtime × ConnectionId :=
  let runtime := runtime.trimPeers address now
  let (runtime, id) := runtime.newConnection (some address) .outbound now
  let runtime := runtime.onConnection id (·.selectFor address)
  let peer := (runtime.peers.get address).getD (.new runtime.config.peer)
  ({ runtime with peers := runtime.peers.put address { peer with current := some id } }, id)

/-- Dial `address`: the driver is told of the new connection, if it still takes commands. -/
def dial (address : SocketAddr) (now : Duration) :
    Runtime × Except RpcError ConnectionId :=
  let (runtime, id) := runtime.select address now
  if runtime.commandsOpen then (runtime, .ok id)
  else
    let runtime :=
      match runtime.sessions id with
      | none => runtime
      | some session =>
        -- The driver never hears of it.
        runtime.setSession id ⟨session.connection.close .fromHere, false, .ended⟩
    (runtime, .error (.notAdmitted .shutdown))

/-- The live selected connection to `address`, opening one if needed. -/
def peerConnection (address : SocketAddr) (now : Duration) :
    Runtime × Except RpcError ConnectionId :=
  if runtime.isClosing then (runtime, .error (.notAdmitted .shutdown))
  else
    let peer := runtime.peers.get address
    let candidate := peer.bind runtime.usableCandidate
    let live := peer.bind runtime.standing
    let choice := peer.bind fun peer =>
      peer.adoptsCandidate live candidate.isSome now runtime.config.peer.alwaysAcceptAfter
    match candidate, choice, live with
    | some id, some replaced, _ => (runtime.adopt address id replaced now, .ok id)
    | _, _, some current => (runtime, .ok current.connection)
    | _, _, none =>
      if runtime.config.maxConnections ≤ runtime.connectionCount then
        (runtime, .error (.notAdmitted .overloaded))
      else runtime.dial address now

/-! ### Starting calls -/

structure RequestKind where
  flags : UInt8
  streamWindow : UInt64
deriving DecidableEq

def RequestKind.twoWay : RequestKind := ⟨0, 0⟩

def RequestKind.oneWay : RequestKind := ⟨requestFlagOneWay, 0⟩

def RequestKind.stream (window : UInt64) : RequestKind := ⟨requestFlagStream, window⟩

def request (endpoint : Endpoint) (identity : CallIdentity) (kind : RequestKind)
    (metadata body : List UInt8) : Request where
  callId := UInt64.ofNat call
  incarnation := endpoint.incarnation
  token := endpoint.token
  interface := identity.interface.1
  interfaceVersion := identity.interface.2
  method := identity.method
  schema := identity.schema
  codec := identity.codec
  flags := kind.flags
  streamWindow := kind.streamWindow
  metadata
  body

def requestFrame [Xxh3] (call : CallId) (endpoint : Endpoint) (identity : CallIdentity)
    (kind : RequestKind) (metadata body : List UInt8) (maxFrameBytes : UInt32) :
    Except RpcError (List UInt8) :=
  let payload := encodeMessage (.request (request call endpoint identity kind metadata body))
  match encodeFrame payload maxFrameBytes with
  | .ok frame => .ok frame
  | .error _ => .error (.notAdmitted (.frameTooLarge payload.length maxFrameBytes))

structure Readings where
  now : Duration
  queuedRequestBytes : Nat
  streamWindowReserved : Nat
deriving DecidableEq

def precheck (endpoint : Endpoint) (envelopeLen : Nat) : Except RpcError Unit :=
  if runtime.config.maxFrameBytes.toNat < envelopeLen then
    .error (.notAdmitted (.frameTooLarge envelopeLen runtime.config.maxFrameBytes))
  else
    match runtime.failures.permanentFailure endpoint with
    | some failure => .error (.notAdmitted (permanentReason failure))
    | none => .ok ()

def retainedBytes : Nat :=
  (runtime.pendingCalls.map fun call =>
    (((runtime.pending call).bind PendingCall.retained).map List.length).getD 0).sum

inductive CallKind where
  | reply (delivery : Delivery)
  | stream (window : UInt64)
deriving DecidableEq

namespace CallKind

/-- A stream is never resumed on another connection. -/
def delivery : CallKind → Delivery
  | reply how => how
  | stream _ => .atMostOnce

def completion : CallKind → Completion
  | reply _ => .reply
  | stream _ => .stream

def requestKind : CallKind → RequestKind
  | reply _ => .twoWay
  | stream window => .stream window

end CallKind

structure Start where
  endpoint : Endpoint
  identity : CallIdentity
  body : List UInt8
  credential : Option (List UInt8)
deriving DecidableEq

/-- The budgets a call must fit: pending calls, a reliable call's body, a stream's window. -/
def budgetAllows (kind : CallKind) (bodyLen : Nat) (readings : Readings) :
    Bool :=
  decide (runtime.pendingCalls.length < runtime.config.maxPendingCalls) &&
    match kind with
    | .reply .atMostOnce => true
    | .reply .reliable =>
      decide (runtime.retainedBytes + bodyLen ≤ runtime.config.maxRetainedBytes)
    | .stream window =>
      decide (readings.streamWindowReserved + window.toNat ≤ runtime.config.maxBufferedBytes)

def CallKind.envelopeLen (kind : CallKind) (bodyLen : Nat) : Nat :=
  match kind with
  | .reply _ => requestEnvelopeLen bodyLen
  | .stream _ => streamRequestEnvelopeLen bodyLen

def pushRequest (runtime : Runtime) (id : ConnectionId) (frame : List UInt8)
    (call : Option CallId) (readings : Readings) : Runtime × Except RpcError Unit :=
  match runtime.sessions id with
  | none => (runtime, .error (.notAdmitted .disconnected))
  | some session =>
    match session.connection.pushRequest frame call readings.queuedRequestBytes readings.now with
    | .ok connection => (runtime.setSession id { session with connection }, .ok ())
    | .error .full => (runtime, .error (.notAdmitted .overloaded))
    | .error .closed => (runtime, .error (.notAdmitted .disconnected))

def Start.pending (start : Start) (kind : CallKind) (origin : Origin) : PendingCall where
  origin
  endpoint := start.endpoint
  identity := start.identity
  transmitted := decide (origin = .here)
  earlierTransmitted := false
  retained := if origin ≠ .here ∧ kind.delivery = .reliable then some start.body else none
  completion := kind.completion

/-- Start one call (`start_call`, `start_stream`). Its frame is queued, unless it is to this runtime
itself. -/
def startCall [Xxh3] (runtime : Runtime) (start : Start) (kind : CallKind) (readings : Readings) :
    Runtime × Except RpcError CallId × List Event :=
  if runtime.isClosing then (runtime, .error (.notAdmitted .shutdown), [])
  else
    match credentialSection start.credential with
    | .error error => (runtime, .error error, [])
    | .ok metadata =>
      match runtime.precheck start.endpoint
          (kind.envelopeLen start.body.length + metadata.length) with
      | .error error => (runtime, .error error, [])
      | .ok () =>
        if runtime.budgetAllows kind start.body.length readings = false ∨
            2 ^ 64 ≤ runtime.nextCallId + 1 then
          (runtime, .error (.notAdmitted .overloaded), [])
        else
          let call := runtime.nextCallId
          let runtime := { runtime with nextCallId := call + 1 }
          if runtime.config.address = some start.endpoint.address then
            (runtime.setCall call (some (start.pending kind .here)), .ok call,
              [.started call kind.delivery .here])
          else
            match requestFrame call start.endpoint start.identity kind.requestKind metadata
                start.body runtime.config.maxFrameBytes with
            | .error error => (runtime, .error error, [])
            | .ok frame =>
              match runtime.peerConnection start.endpoint.address readings.now with
              | (runtime, .error error) => (runtime, .error error, [])
              | (runtime, .ok id) =>
                match runtime.pushRequest id frame (some call) readings with
                | (runtime, .error error) => (runtime, .error error, [])
                | (runtime, .ok ()) =>
                  (runtime.setCall call (some (start.pending kind (.connection id))),
                    .ok call,
                    [.started call kind.delivery (.connection id),
                      .queued (some call) id])

def sendOneWay [Xxh3] (runtime : Runtime) (start : Start) (readings : Readings) :
    Runtime × Except RpcError Unit × List Event :=
  if runtime.isClosing then (runtime, .error (.notAdmitted .shutdown), [])
  else
    match credentialSection start.credential with
    | .error error => (runtime, .error error, [])
    | .ok metadata =>
      match runtime.precheck start.endpoint
          (requestEnvelopeLen start.body.length + metadata.length) with
      | .error error => (runtime, .error error, [])
      | .ok () =>
        if runtime.config.address = some start.endpoint.address then (runtime, .ok (), [])
        else
          match requestFrame 0 start.endpoint start.identity .oneWay metadata start.body
              runtime.config.maxFrameBytes with
          | .error error => (runtime, .error error, [])
          | .ok frame =>
            match runtime.peerConnection start.endpoint.address readings.now with
            | (runtime, .error error) => (runtime, .error error, [])
            | (runtime, .ok id) =>
              match runtime.pushRequest id frame none readings with
              | (runtime, .error error) => (runtime, .error error, [])
              | (runtime, .ok ()) => (runtime, .ok (), [.queued none id])

/-! ### Transmitting and completing -/

/-- Why a request carrying a credential must not be written on `connection`, if it must
not. -/
def credentialRefusal (config : RpcConfig) (connection : Connection) : Option String :=
  let identity := connection.peerContext.bind PeerContext.identity
  let encrypted := connection.peerContext.any PeerContext.isEncrypted
  if connection.peerHello.any fun hello => hello.version < credentialsVersion then
    some "the session runs protocol version 1, which carries no credential"
  else if connection.direction = .inbound ∧ identity.isNone then
    some "an accepted session never authenticated the peer that dialed it"
  else if encrypted = false ∧ config.plaintextCredentials = false then
    some "the session is not encrypted"
  else none

/-- Why a request frame may not leave: the peer's frame limit, or its credential. -/
def refusal (config : RpcConfig) (connection : Connection) (frame : List UInt8) :
    Option ErrorReason :=
  let limit := (connection.peerHello.map PeerHello.maxFrameBytes).getD config.maxFrameBytes
  let payload := frame.drop headerLen
  if limit.toNat < payload.length then some (.frameTooLarge payload.length limit)
  else if (requestMetadataLen payload).any fun len => 0 < len then
    (credentialRefusal config connection).map .credentialWithheld
  else none

/-- Whether the popped request frame leaves (`admit_transmit`). A refused one completes its call. -/
def admitTransmit (connection : Connection) (call : Option CallId)
    (frame : List UInt8) : Runtime × List Event :=
  let pending := call.bind fun call => (runtime.pending call).map fun pending => (call, pending)
  match refusal runtime.config connection frame, pending with
  | some reason, some (call, pending) =>
    let error : RpcError :=
      if pending.earlierTransmitted then ⟨reason, .maybeExecuted⟩ else .notAdmitted reason
    (runtime.setCall call none,
      [.finished call (pending.completion.finish (.error error)) .runtime])
  | some _, none => (runtime, [])
  | none, some (call, pending) =>
    (runtime.setCall call (some { pending with transmitted := true }),
      [.written (some call) connection.id frame])
  | none, none => (runtime, [.written call connection.id frame])

/-- The writer of `id` takes its next frame, if the driver is free to poll it. -/
def pop [Xxh3] (runtime : Runtime) (id : ConnectionId) : Runtime :=
  match runtime.driver, runtime.sessions id with
  | .idle, some session =>
    if session.stage = .running then
      let (connection, polled) := session.connection.pollNext
      let runtime := runtime.setSession id { session with connection }
      match polled with
      | .frame ⟨frame, .request call, _⟩ => { runtime with driver := .writing id frame call }
      | _ => runtime
    else runtime
  | _, _ => runtime

/-- A frame the writer takes while a loop over calls is about to reach `call`. -/
abbrev Race : Type := Option (CallId × ConnectionId)

def raced [Xxh3] (runtime : Runtime) (race : Race) (call : CallId) : Runtime :=
  match race with
  | some (reached, id) => if reached = call then runtime.pop id else runtime
  | none => runtime

/-- Withdraw the queued frame of an untransmitted call.  Says whether it may have left. -/
def withdraw (pending : PendingCall) : Runtime × Bool :=
  match pending.origin with
  | .here => (runtime, pending.transmitted)
  | .connection id =>
    match runtime.sessions id with
    | none => (runtime, pending.transmitted)
    | some session =>
      if pending.transmitted = true ∨ session.listed = false then
        (runtime, pending.transmitted)
      else
        let (connection, withdrawn) := session.connection.retract call
        (runtime.setSession id { session with connection }, !withdrawn)

def endCall [Xxh3] (race : Race) (reason : PendingCall → Option ErrorReason)
    (ended : Runtime × List Event) (call : CallId) : Runtime × List Event :=
  let (runtime, events) := ended
  let runtime := runtime.raced race call
  match runtime.pending call with
  | none => (runtime, events)
  | some pending =>
    match reason pending with
    | none => (runtime, events)
    | some reason =>
      let (runtime, transmitted) := (runtime.setCall call none).withdraw call pending
      let error : RpcError := ⟨reason, { pending with transmitted }.execution⟩
      (runtime, events ++ [.finished call (pending.completion.finish (.error error)) .runtime])

/-- End every retained call whose endpoint is now known failed for good. -/
def releaseFailed [Xxh3] (runtime : Runtime) (race : Race) : Runtime × List Event :=
  let reason := fun pending : PendingCall =>
    if pending.retained.isSome then
      (runtime.failures.permanentFailure pending.endpoint).map permanentReason
    else none
  runtime.pendingCalls.foldl (endCall race reason) (runtime, [])

def replyResult (pending : PendingCall) : WireOutcome → Except RpcError ReplyBytes
  | .ok codec body => .ok (codec, body)
  | .err error =>
    let error := RpcError.fromWire error pending.identity
    .error (if pending.earlierTransmitted then error.atLeast .maybeExecuted else error)

def complete [Xxh3] (runtime : Runtime) (origin : Origin) (call : CallId) (outcome : WireOutcome)
    (race : Race) : Runtime × List Event :=
  match runtime.pending call with
  | none => (runtime, [])
  | some pending =>
    if pending.origin ≠ origin then (runtime, [])
    else
      let runtime := runtime.setCall call none
      let learned :=
        match outcome with
        | .ok _ _ => none
        | .err error => permanentFailure error
      let (runtime, released) :=
        match learned with
        | none => (runtime, [])
        | some failure =>
          let (failures, fresh) := runtime.failures.endpointFailed pending.endpoint failure
          let runtime := { runtime with failures }
          if fresh then runtime.releaseFailed race else (runtime, [])
      (runtime, .finished call (pending.completion.finish (replyResult pending outcome))
        (.reply origin outcome) :: released)

/-! ### Abandoning -/

/-- Whether the frame of a call its caller leaves may have left; a queued one is withdrawn. -/
def retractAbandoned (pending : PendingCall) :
    Runtime × Bool :=
  if pending.earlierTransmitted ∨ pending.transmitted then (runtime, true)
  else
    match pending.origin with
    | .here => (runtime, true)
    | .connection id =>
      match runtime.sessions id with
      | none => (runtime, true)
      | some session =>
        if session.listed then
          let (connection, withdrawn) := session.connection.retract call
          (runtime.setSession id { session with connection }, !withdrawn)
        else (runtime, true)

/-- The caller stops waiting.  A stream whose request may have left is cancelled there. -/
def abandon : Runtime × List Event :=
  match runtime.pending call with
  | none => (runtime, [])
  | some pending =>
    let (runtime, transmitted) := (runtime.setCall call none).retractAbandoned call pending
    let runtime :=
      match pending.completion, pending.origin with
      | .stream, .connection id =>
        if transmitted ∧ (runtime.sessions id).any Session.listed then
          runtime.onConnection id (·.signalCancel call)
        else runtime
      | _, _ => runtime
    (runtime, [.abandoned call transmitted])

/-! ### Connections that end -/

/-- What a connection's end proves about a call it carried. -/
def disconnectError (reason : CloseReason) (established : Bool) (pending : PendingCall) :
    RpcError :=
  match reason with
  | .connectFailed detail => .notAdmitted (.connectFailed detail)
  | _ =>
    if established = false then
      .notAdmitted (.connectFailed ("session closed during handshake: " ++ reason.debug))
    else if pending.transmitted then ⟨.disconnected, .maybeExecuted⟩
    else .notAdmitted .disconnected

/-- One call the ended connection carried: it fails, or waits for its next copy. -/
def dropCall (address : Option SocketAddr) (reason : CloseReason) (established : Bool)
    (dropped : Runtime × List Resend × List Event) (call : CallId) :
    Runtime × List Resend × List Event :=
  let (runtime, copies, events) := dropped
  match runtime.pending call with
  | none => dropped
  | some pending =>
    match if address.isSome ∧ pending.completion = .reply then pending.retained else none with
    | some body =>
      let waiting :=
        { pending with
          earlierTransmitted := pending.earlierTransmitted || pending.transmitted
          transmitted := false }
      (runtime.setCall call (some waiting),
        copies ++ [⟨call, pending.endpoint, pending.identity, body⟩], events)
    | none =>
      let error := disconnectError reason established pending
      (runtime.setCall call none, copies,
        events ++ [.finished call (pending.completion.finish (.error error)) .runtime])

def carried : List CallId :=
  runtime.pendingCalls.filter fun call =>
    (runtime.pending call).any fun pending => decide (pending.origin = .connection id)

def ended (runtime : Runtime) (id : ConnectionId) (session : Session) (returned : CloseReason)
    (now : Duration) : Runtime :=
  let runtime := runtime.setSession id ⟨session.connection.close returned, false, .ended⟩
  match session.connection.peerAddress with
  | none => runtime
  | some address =>
    { runtime with
      peers := runtime.peers.update address fun peer =>
        if peer.current = some id then
          { peer with current := none }.sessionEnded now runtime.config.peer
        else peer }

/-- Tear down a finished connection, up to its retained calls: settle its peer and fail its
at-most-once calls. -/
def closeConnection (returned : CloseReason) (now : Duration)
    (watched : Bool) : Runtime × List Event :=
  match runtime.sessions id with
  | none => (runtime, [])
  | some session =>
    let reason := (session.connection.close returned).closed.getD returned
    let runtime := runtime.ended id session returned now
    let (runtime, copies, events) :=
      (runtime.carried id).foldl
        (dropCall session.connection.peerAddress reason session.connection.established)
        (runtime, [], [])
    match session.connection.peerAddress with
    | none => (runtime, events)
    | some address =>
      if copies = [] ∧ ¬ (watched = true ∧ reason.isFailure = true) then (runtime, events)
      else ({ runtime with driver := .resending id address copies }, events)

/-- One prepared copy of a call waiting on `ended`: queued on `next`, or the call fails. -/
def resendCall (ended : ConnectionId) (next : Except RpcError ConnectionId) (now : Duration)
    (resent : Runtime × List Event) (copy : CallId × Except RpcError (List UInt8)) :
    Runtime × List Event :=
  let (runtime, events) := resent
  let (call, frame) := copy
  match runtime.pending call with
  | none => (runtime, events)
  | some pending =>
    if pending.origin ≠ .connection ended then (runtime, events)
    else
      let fail := fun (reason : ErrorReason) =>
        (runtime.setCall call none, events ++ [.finished call
          (pending.completion.finish (.error ⟨reason, pending.execution⟩)) .runtime])
      match runtime.failures.permanentFailure pending.endpoint with
      | some failure => fail (permanentReason failure)
      | none =>
        match next, frame with
        | .error error, _ | _, .error error => fail error.reason
        | .ok id, .ok frame =>
          match runtime.sessions id with
          | none => fail .disconnected
          | some session =>
            match session.connection.adoptRequests [(frame, some call)] now with
            | (connection, true) =>
              let runtime := runtime.setSession id { session with connection }
              (runtime.setCall call (some { pending with origin := .connection id }),
                events ++ [.queued (some call) id])
            | (_, false) => fail .disconnected

def copyFrame [Xxh3] (maxFrameBytes : UInt32) (credential : CallId → Option (List UInt8))
    (copy : Resend) : CallId × Except RpcError (List UInt8) :=
  (copy.call, do
    let metadata ← credentialSection (credential copy.call)
    requestFrame copy.call copy.endpoint copy.identity .twoWay metadata copy.body maxFrameBytes)

/-- Queue the prepared copies on the peer's next connection, opening one even when there are
none. -/
def retransmit [Xxh3] (runtime : Runtime) (address : SocketAddr) (ended : ConnectionId)
    (copies : List Resend) (credential : CallId → Option (List UInt8)) (now : Duration) :
    Runtime × List Event :=
  let frames := copies.map (copyFrame runtime.config.maxFrameBytes credential)
  let (runtime, next) := runtime.peerConnection address now
  frames.foldl (resendCall ended next now) (runtime, [])

def closeAll : Runtime :=
  { runtime with
    sessions := fun id => (runtime.sessions id).map fun session =>
      if session.listed then { session with connection := session.connection.close .fromHere }
      else session }

def terminate [Xxh3] (runtime : Runtime) (race : Race) : Runtime × List Event :=
  let runtime := { runtime with lifecycle := .terminated }
  let (runtime, events) :=
    runtime.pendingCalls.foldl (endCall race fun _ => some .shutdown) (runtime, [])
  (runtime.closeAll, events)

/-! ### Streams and handshakes -/

def consumes (origin : Origin) (call : CallId) : Bool :=
  (runtime.pending call).any fun pending =>
    decide (pending.origin = origin ∧ pending.completion = .stream)

def streamRefused (violation : String) :
    Runtime × List Event :=
  match runtime.pending call with
  | none => (runtime, [])
  | some _ =>
    (runtime.setCall call none,
      [.finished call (.failed ⟨.streamProtocol violation, .executed⟩) .violation])

/-- How a stream ends; `violation` is what the consumer finds wrong with the end. -/
def streamOutcome (identity : CallIdentity) (error : Option WireError)
    (violation : Option String) : Outcome :=
  match violation, error with
  | some violation, _ => .failed ⟨.streamProtocol violation, .executed⟩
  | none, none => .streamed
  | none, some error => .failed (.fromWire error identity)

def streamEnd (runtime : Runtime) (origin : Origin) (call : CallId) (error : Option WireError)
    (violation : Option String) : Runtime × List Event :=
  match runtime.pending call with
  | none => (runtime, [])
  | some pending =>
    let runtime := runtime.setCall call none
    let runtime :=
      match error.bind permanentFailure with
      | none => runtime
      | some failure =>
        { runtime with failures := (runtime.failures.endpointFailed pending.endpoint failure).1 }
    (runtime, [.finished call (streamOutcome pending.identity error violation)
      (.streamEnd origin error)])

def sharingAllows (sharing : InboundSharing) (connection : Connection) (listen : SocketAddr) :
    Bool :=
  match sharing with
  | .disabled => false
  | .trusted => true
  | .sameIp => decide (connection.peer.map SocketAddr.ip = some listen.ip)

/-- An accepted session listens at `listen`: is it the selected connection to there? -/
def selectInbound (connection : Connection)
    (listen : SocketAddr) (now : Duration) : Runtime :=
  match runtime.config.address with
  | none => runtime
  | some here =>
    if listen = here ∨ sharingAllows runtime.config.sharing connection listen = false then runtime
    else
      let runtime := runtime.trimPeers listen now
      if (runtime.peers.get listen).isNone ∧
          runtime.config.peer.maxTrackedAddresses ≤ runtime.peers.length then runtime
      else
        let peer := (runtime.peers.get listen).getD (.new runtime.config.peer)
        let runtime := { runtime with peers := runtime.peers.put listen peer }
        match peer.select (runtime.standing peer) listen here now
            runtime.config.peer.alwaysAcceptAfter with
        | .adopt replaced => runtime.adopt listen id replaced now
        | .keep =>
          { runtime with
            peers := runtime.peers.update listen fun peer => { peer with candidate := some id } }

abbrev minFrameBytes : UInt32 := 64

def acceptHello (config : RpcConfig) (hello : Hello) : Option PeerHello :=
  if hello.magic ≠ protocolMagic then none
  else
    match negotiate config.versions (hello.minVersion, hello.maxVersion) with
    | none => none
    | some version =>
      if hello.maxFrameBytes < minFrameBytes then none
      else some ⟨hello.incarnation, version, hello.maxFrameBytes⟩

end Runtime

end Moonpool.Rpc
