import Moonpool.Rpc.Call
import Std.Data.ExtTreeMap.Lemmas

/-!
Owns one session's shared half: its bounded outbound queues, the order in which the writer
takes frames from them, and what is known about the peer (`transport/connection.rs`).

Each function is one section under the connection's own lock.  A frame's release and a
produced stream are labels: what they name is not looked at here.  The runtime's counters
are not fields: a function that reads one is given its value.
-/

namespace Moonpool.Rpc

abbrev CallId : Type := Nat
abbrev ConnectionId : Type := Nat

abbrev Duration : Type := Nat

/-- What is released once its frame left the queue. -/
abbrev Release : Type := Nat

inductive CloseReason where
  | connectFailed (detail : String)
  | peerClosed
  | io (detail : String)
  | protocol (detail : String)
  | checksum (detail : String)
  | version (detail : String)
  | pingTimeout
  /-- Closed from this side (`Local` in the source). -/
  | fromHere
  | idle
  | injected
  | replaced
deriving DecidableEq

def CloseReason.isFailure : CloseReason → Bool
  | .idle | .replaced => false
  | _ => true

def CloseReason.isConnectFailed : CloseReason → Bool
  | .connectFailed _ => true
  | _ => false

def CloseReason.debug : CloseReason → String
  | .connectFailed detail => "ConnectFailed(" ++ detail.quote ++ ")"
  | .peerClosed => "PeerClosed"
  | .io detail => "Io(" ++ detail.quote ++ ")"
  | .protocol detail => "Protocol(" ++ detail.quote ++ ")"
  | .checksum detail => "Checksum(" ++ detail.quote ++ ")"
  | .version detail => "Version(" ++ detail.quote ++ ")"
  | .pingTimeout => "PingTimeout"
  | .fromHere => "Local"
  | .idle => "Idle"
  | .injected => "Injected"
  | .replaced => "Replaced"

inductive Direction where
  | outbound
  | inbound
deriving DecidableEq

inductive FrameKind where
  | control
  | request (call : Option CallId)
  | data
deriving DecidableEq

structure Outgoing where
  bytes : List UInt8
  kind : FrameKind
  release : Option Release
deriving DecidableEq

inductive QueueRefusal where
  | full
  | closed
deriving DecidableEq

abbrev QueuedRequest : Type := List UInt8 × Option CallId

inductive Source where
  | requests
  | replies
  | stream (call : CallId)
deriving DecidableEq

structure Signal where
  ack : Option Nat
  cancel : Bool
deriving DecidableEq

structure StreamFrame where
  bytes : List UInt8
  release : Option Release
deriving DecidableEq

structure QueueLimits where
  requests : Nat
  control : Nat
  bytes : Nat
  runtimeBytes : Nat
deriving DecidableEq

/-- What the peer announced in its `Hello`, as accepted by this side. -/
structure PeerHello where
  incarnation : Incarnation
  version : UInt16
  maxFrameBytes : UInt32
deriving DecidableEq

structure PeerContext where
  address : String
  identity : Option String
  protection : Option String
deriving DecidableEq

def PeerContext.isEncrypted (context : PeerContext) : Bool := context.protection.isSome

structure Connection where
  id : ConnectionId
  peer : Option SocketAddr
  direction : Direction
  limits : QueueLimits
  control : List (List UInt8)
  requests : List QueuedRequest
  replies : List (List UInt8 × Release)
  /-- Produced streams' items and ends, per stream, in order. -/
  streamOut : Std.ExtTreeMap CallId (List StreamFrame)
  signals : Std.ExtTreeMap CallId Signal
  /-- Data sources with queued frames, in the order the writer serves them. -/
  turns : List Source
  /-- Streams produced for requests that arrived on this connection. -/
  serverStreams : Std.ExtTreeMap CallId Nat
  queuedBytes : Nat
  requestBytes : Nat
  established : Bool
  closed : Option CloseReason
  peerContext : Option PeerContext
  peerHello : Option PeerHello
  /-- The peer this connection is, or was, the selected connection to. -/
  peerAddress : Option SocketAddr
  received : Nat
  lastReceived : Duration
  lastUsed : Duration
  outstanding : Nat

namespace Connection

variable (connection : Connection) (call : CallId)

/-- A connection whose first queued frame is `hello`, which the control reserve does not count. -/
def new (id : ConnectionId) (peer : Option SocketAddr) (direction : Direction)
    (hello : List UInt8) (limits : QueueLimits) (now : Duration) : Connection where
  id
  peer
  direction
  limits := { limits with control := limits.control + 1 }
  control := [hello]
  requests := []
  replies := []
  streamOut := ∅
  signals := ∅
  turns := []
  serverStreams := ∅
  queuedBytes := 0
  requestBytes := 0
  established := false
  closed := none
  peerContext := none
  peerHello := none
  peerAddress := none
  received := 0
  lastReceived := now
  lastUsed := now
  outstanding := 0

def isClosed : Bool := connection.closed.isSome

def enlist (source : Source) : Connection :=
  if source ∈ connection.turns then connection
  else { connection with turns := connection.turns ++ [source] }

def addBytes (bytes : Nat) (request : Bool) : Connection :=
  { connection with
    queuedBytes := connection.queuedBytes + bytes
    requestBytes := if request then connection.requestBytes + bytes else connection.requestBytes }

def subBytes (bytes : Nat) (request : Bool) : Connection :=
  { connection with
    queuedBytes := connection.queuedBytes - bytes
    requestBytes := if request then connection.requestBytes - bytes else connection.requestBytes }

def pushRequest (frame : List UInt8) (call : Option CallId)
    (runtime : Nat) (now : Duration) : Except QueueRefusal Connection :=
  if connection.isClosed then .error .closed
  else if connection.limits.requests ≤ connection.requests.length ∨
      connection.limits.bytes < connection.requestBytes + frame.length ∨
      connection.limits.runtimeBytes < runtime + frame.length then .error .full
  else
    let connection := connection.addBytes frame.length true
    let connection := { connection with requests := connection.requests ++ [(frame, call)] }
    let connection := connection.enlist .requests
    .ok { connection with lastUsed := max connection.lastUsed now }

/-- Queue frames that were admitted once already, without the caps.  Says whether it did. -/
def adoptRequests (moved : List QueuedRequest) (now : Duration) :
    Connection × Bool :=
  if connection.isClosed then (connection, false)
  else
    let bytes := (moved.map fun request => request.1.length).sum
    let connection := connection.addBytes bytes true
    let connection := { connection with requests := connection.requests ++ moved }
    let connection := if connection.requests = [] then connection else connection.enlist .requests
    ({ connection with lastUsed := max connection.lastUsed now }, true)

def takeRequests : Connection × List QueuedRequest :=
  let taken := connection.requests
  let bytes := (taken.map fun request => request.1.length).sum
  let connection := { connection with requests := [] }.subBytes bytes true
  ({ connection with turns := connection.turns.filter (· ≠ .requests) }, taken)

/-- Close the session: no more frames are accepted. The first reason stays, and produced streams. -/
def close (reason : CloseReason) : Connection :=
  { connection with
    closed := some (connection.closed.getD reason)
    control := []
    requests := []
    replies := []
    streamOut := ∅
    signals := ∅
    turns := []
    queuedBytes := 0
    requestBytes := 0 }

/-- Queue a control frame.  Exceeding the control reserve closes the connection. -/
def pushControl (frame : List UInt8) : Connection × Bool :=
  if connection.isClosed then (connection, false)
  else if connection.limits.control ≤ connection.control.length then
    (connection.close .fromHere, false)
  else ({ connection with control := connection.control ++ [frame] }, true)

def pushReply (frame : List UInt8) (release : Release) :
    Except Release Connection :=
  if connection.isClosed then .error release
  else
    let connection := connection.addBytes frame.length false
    let connection := { connection with replies := connection.replies ++ [(frame, release)] }
    .ok (connection.enlist .replies)

/-- Queue a frame of the stream `call` produced here; it comes back once closed. -/
def pushStreamFrame (frame : StreamFrame) :
    Except StreamFrame Connection :=
  if connection.isClosed then .error frame
  else
    let connection := connection.addBytes frame.bytes.length false
    let frames := connection.streamOut[call]?.getD [] ++ [frame]
    let connection := { connection with streamOut := connection.streamOut.insert call frames }
    .ok (connection.enlist (.stream call))

def registerStream (core : Nat) : Connection × Bool :=
  if connection.isClosed ∨ connection.serverStreams[call]?.isSome then (connection, false)
  else ({ connection with serverStreams := connection.serverStreams.insert call core }, true)

/-- Forget a produced stream; with `discard`, also its frames not yet written. -/
def removeStream (discard : Bool) :
    Connection × List StreamFrame :=
  let connection := { connection with serverStreams := connection.serverStreams.erase call }
  if discard then
    let frames := connection.streamOut[call]?.getD []
    let bytes := (frames.map fun frame => frame.bytes.length).sum
    let connection := { connection with streamOut := connection.streamOut.erase call }
    let connection := connection.subBytes bytes false
    ({ connection with turns := connection.turns.filter (· ≠ .stream call) }, frames)
  else (connection, [])

def signalAck (consumed : Nat) : Connection :=
  if connection.isClosed then connection
  else
    let signal := connection.signals[call]?.getD ⟨none, false⟩
    let signal :=
      if signal.cancel then signal
      else { signal with ack := some ((signal.ack.map (max · consumed)).getD consumed) }
    { connection with signals := connection.signals.insert call signal }

def signalCancel : Connection :=
  if connection.isClosed then connection
  else { connection with signals := connection.signals.insert call ⟨none, true⟩ }

def setPeerContext (context : PeerContext) : Connection :=
  { connection with peerContext := some context }

def establish (hello : PeerHello) (now : Duration) : Connection :=
  { connection with
    established := true
    peerHello := some hello
    lastUsed := max connection.lastUsed now }

def selectFor (address : SocketAddr) : Connection :=
  { connection with peerAddress := some address }

def noteReceived (now : Duration) : Connection :=
  { connection with
    received := connection.received + 1
    lastReceived := max connection.lastReceived now }

def noteUsed (now : Duration) : Connection :=
  { connection with lastUsed := max connection.lastUsed now }

/-- Close if idle: nothing queued, no reply or stream owed, and no traffic for `idle`. -/
def closeIfIdle (now idle : Duration) (selected : Bool) :
    Connection × Bool :=
  let since := if selected then connection.lastUsed else connection.lastReceived
  if connection.isClosed = false ∧ connection.established = true ∧ connection.requests = [] ∧
      connection.replies = [] ∧ connection.streamOut.isEmpty = true ∧
      connection.signals.isEmpty = true ∧ connection.serverStreams.isEmpty = true ∧
      connection.outstanding = 0 ∧ idle ≤ now - since then
    ({ connection with closed := some .idle, control := [] }, true)
  else (connection, false)

/-- Withdraw the still-unsent request frame of `call`.  Says whether it was withdrawn. -/
def retract : Connection × Bool :=
  let withdrawn := connection.requests.filter (·.2 = some call)
  let bytes := (withdrawn.map fun request => request.1.length).sum
  let connection := { connection with requests := connection.requests.filter (·.2 ≠ some call) }
  if bytes = 0 then (connection, false)
  else
    let connection := connection.subBytes bytes true
    (if connection.requests = [] then
      { connection with turns := connection.turns.filter (· ≠ .requests) }
    else connection, true)

inductive Polled where
  | closed
  | frame (outgoing : Outgoing)
  | pending
deriving DecidableEq

/-- The next data frame: at most `rounds` sources are tried. Requests wait for the handshake. -/
def serve (connection : Connection) : Nat → Connection × Option Outgoing
  | 0 => (connection, none)
  | rounds + 1 =>
    match connection.turns with
    | [] => (connection, none)
    | source :: later =>
      let again := later ++ [source]
      match source with
      | .requests =>
        if connection.established = false then
          { connection with turns := again }.serve rounds
        else
          match connection.requests with
          | [] => { connection with turns := later }.serve rounds
          | (bytes, call) :: more =>
            let connection :=
              { connection with
                requests := more
                turns := if more = [] then later else again }
            (connection.subBytes bytes.length true, some ⟨bytes, .request call, none⟩)
      | .replies =>
        match connection.replies with
        | [] => { connection with turns := later }.serve rounds
        | (bytes, release) :: more =>
          let connection :=
            { connection with
              replies := more
              turns := if more = [] then later else again }
          (connection.subBytes bytes.length false, some ⟨bytes, .data, some release⟩)
      | .stream call =>
        match connection.streamOut[call]?.getD [] with
        | [] =>
          { connection with
            streamOut := connection.streamOut.erase call
            turns := later }.serve rounds
        | frame :: more =>
          let connection :=
            { connection with
              streamOut :=
                if more = [] then connection.streamOut.erase call
                else connection.streamOut.insert call more
              turns := if more = [] then later else again }
          (connection.subBytes frame.bytes.length false,
            some ⟨frame.bytes, .data, frame.release⟩)

def signalMessage (signal : Signal) : WireMessage :=
  if signal.cancel then .streamCancel (UInt64.ofNat call)
  else .streamAck (UInt64.ofNat call) (UInt64.ofNat (signal.ack.getD 0))

/-- The next frame to write: control frames, then signals, then one data frame. -/
def pollNext [Xxh3] (connection : Connection) : Connection × Polled :=
  if connection.isClosed then (connection, .closed)
  else
    match connection.control with
    | bytes :: later => ({ connection with control := later }, .frame ⟨bytes, .control, none⟩)
    | [] =>
      match connection.signals.toList.head? with
      | some (call, signal) =>
        let connection := { connection with signals := connection.signals.erase call }
        match encodeFrame (encodeMessage (signalMessage call signal)) 0xffffffff with
        | .ok bytes => (connection, .frame ⟨bytes, .control, none⟩)
        | .error _ =>
          ({ connection with closed := some (connection.closed.getD .fromHere) }, .closed)
      | none =>
        match connection.serve connection.turns.length with
        | (connection, some outgoing) => (connection, .frame outgoing)
        | (connection, none) => (connection, .pending)

/-- What others queue on a connection besides requests, and what its streams need. -/
inductive Traffic where
  | control (frame : List UInt8)
  | reply (frame : List UInt8) (release : Release)
  | streamFrame (call : CallId) (frame : StreamFrame)
  | register (call : CallId) (core : Nat)
  | remove (call : CallId) (discard : Bool)
  | ack (call : CallId) (consumed : Nat)
  | cancel (call : CallId)
  | noted (now : Duration)
  | owed (count : Nat)

def carry : Traffic → Connection
  | .control frame => (connection.pushControl frame).1
  | .reply frame release =>
    match connection.pushReply frame release with
    | .ok connection => connection
    | .error _ => connection
  | .streamFrame call frame =>
    match connection.pushStreamFrame call frame with
    | .ok connection => connection
    | .error _ => connection
  | .register call core => (connection.registerStream call core).1
  | .remove call discard => (connection.removeStream call discard).1
  | .ack call consumed => connection.signalAck call consumed
  | .cancel call => connection.signalCancel call
  | .noted now => (connection.noteReceived now).noteUsed now
  | .owed count => { connection with outstanding := count }

end Connection

end Moonpool.Rpc
