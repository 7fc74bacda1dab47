import Moonpool.Net.State

/-!
Owns the transitions of the simulated network: what a write queues, how chunks and the FIN go on
the wire and land, what each kind of close discards, and how partitions hold and release a
flight.

A transition that returns or takes window credit yields an `Option`: `none` says that an
assertion of the byte window fired.  What the code draws at random is an argument.
-/

namespace Moonpool.Net

inductive StreamError where
  | connectionNotFound
  | simulationShutdown
  | randomConnectionFailure
  | connectionAborted
  | sendSideClosed
  | connectionClosed
deriving DecidableEq

/-- What one send event draws: the sampled latency, and the length of a short write. -/
structure SendDraws where
  latency : Duration
  short : Option Nat

namespace Network

variable (network : Network) (id : ConnectionId) (connection : Connection)

/-! ### Window credit -/

def releaseWindow (sender : ConnectionId) (bytes : Nat) : Option Network :=
  if bytes = 0 then some network
  else
    match network.connections sender with
    | none => some network
    | some connection =>
      (connection.window.release bytes).map fun window =>
        network.set sender { connection with window }

def discardSendQueue : Option Network :=
  match network.connections id with
  | none => some network
  | some connection =>
    (connection.window.release connection.queuedBytes).map fun window =>
      network.set id
        { connection with
          sendBuffer := []
          window
          history :=
            { connection.history with
              discarded := connection.history.discarded ++ connection.queue } }

def discardInFlight : Option Network :=
  match network.connections id with
  | none => some network
  | some connection =>
    (connection.window.release connection.inFlightBytes).map fun window =>
      network.set id
        { connection with
          inFlight := []
          inFlightHeldSince := none
          window
          history :=
            { connection.history with
              discarded := connection.history.discarded ++
                connection.flight.flatMap InFlightPayload.bytes } }

/-- Drop what `id` received and never read, and return its bytes to the peer's window. -/
def discardReceiveBuffer : Option Network :=
  match network.connections id with
  | none => some network
  | some connection =>
    let network := network.set id { connection with receiveBuffer := [] }
    match connection.paired with
    | none => some network
    | some sender => network.releaseWindow sender connection.receiveBuffer.length

/-- A short length for `available` bytes: `drawn` is the draw of the fault, if it fires. -/
def partialLength (available most : Nat) : Option Nat → Nat
  | none => available
  | some drawn =>
    let most := min available most
    if 1 ≤ most then 1 + drawn % most else available

def read (len : Nat) (short : Option Nat) :
    Option (Except StreamError (List UInt8) × Network) :=
  match network.connections id with
  | none => some (.error .connectionNotFound, network)
  | some connection =>
    let limit := partialLength (min len connection.receiveBuffer.length)
      network.config.partialReadMaxBytes short
    let bytes := connection.receiveBuffer.take limit
    let network := network.set id
      { connection with
        receiveBuffer := connection.receiveBuffer.drop limit
        history :=
          { connection.history with returned := connection.history.returned ++ bytes } }
    match connection.paired with
    | none => some (.ok bytes, network)
    | some sender =>
      (network.releaseWindow sender bytes.length).map fun network => (.ok bytes, network)

def bufferSend (data : List UInt8) (readyAt : Duration) : Option Network :=
  match network.connections id with
  | none => some network
  | some connection =>
    (connection.window.acquire data.length).map fun window =>
      let network := network.set id
        { connection with
          window
          sendBuffer := connection.sendBuffer ++ [⟨data, readyAt⟩]
          flags := { connection.flags with sendInProgress := true }
          history :=
            { connection.history with accepted := connection.history.accepted ++ data } }
      if connection.flags.sendInProgress then network
      else network.scheduleAt network.now (.processSendBuffer id)

/-! ### The wire -/

def putInFlight (payload : InFlightPayload) (time : Duration) : Network :=
  match network.connections id with
  | none => network
  | some connection =>
    let deliverAt := match connection.lastDeliveryAt with
      | none => time
      | some last => max time (saturatingAdd last 1)
    let heldSince :=
      if (network.connectionPartitionClearAt id).isSome ∧ connection.inFlightHeldSince = none
      then some network.now else connection.inFlightHeldSince
    (network.set id
      { connection with
        nextInFlightSeq := connection.nextInFlightSeq + 1
        lastDeliveryAt := some deliverAt
        inFlight := connection.inFlight ++ [⟨connection.nextInFlightSeq, deliverAt, payload⟩]
        inFlightHeldSince := heldSince }).scheduleAt deliverAt
          (.delivery id connection.nextInFlightSeq)

def putFinInFlight : Network :=
  match network.connections id with
  | none => network
  | some connection =>
    if connection.paired = none then network
    else
      (network.set id
        { connection with
          history :=
            { connection.history with finOver := some connection.history.discarded } }).putInFlight
        id .fin (saturatingAdd network.now 1)

def holdInFlight : Network :=
  network.modify id fun connection =>
    if connection.inFlightHeldSince = none ∧ connection.inFlight ≠ [] then
      { connection with inFlightHeldSince := some network.now }
    else connection

/-- A partition went up: freeze the flight of every direction it cuts. -/
def holdPartitionedInFlight : Network :=
  network.mapConnections fun id connection =>
    if connection.inFlightHeldSince = none ∧ connection.inFlight ≠ [] ∧
        (network.connectionPartitionClearAt id).isSome then
      { connection with inFlightHeldSince := some network.now }
    else connection

/-- The flight of one connection, later by the time it spent held. -/
def thaw (since : Duration) : Connection :=
  let shift := network.now - since
  { connection with
    inFlightHeldSince := none
    lastDeliveryAt := connection.lastDeliveryAt.map (saturatingAdd · shift)
    inFlight := connection.inFlight.map fun item =>
      { item with deliverAt := saturatingAdd item.deliverAt shift } }

/-- Since when `id` is held, if every partition that blocks it has healed. -/
def thawsFrom : Option Duration :=
  if (network.connectionPartitionClearAt id).isSome then none else connection.inFlightHeldSince

def releaseHeldInFlight : Network :=
  let events := (List.range network.nextConnectionId).flatMap fun id =>
    match network.connections id with
    | none => []
    | some connection =>
      match network.thawsFrom id connection with
      | none => []
      | some since =>
        (network.thaw connection since).inFlight.map fun item =>
          (item.deliverAt, NetworkEvent.delivery id item.seq)
  let thawed := network.mapConnections fun id connection =>
    match network.thawsFrom id connection with
    | none => connection
    | some since => network.thaw connection since
  { thawed with scheduled := network.scheduled ++ events }

def resumes : Bool :=
  connection.flags.sendStalled && (network.connectionPartitionClearAt id).isNone

/-- Drive every direction that healed: thaw its flight, then resume its queue. -/
def resumeAfterHeal : Network :=
  let network := network.releaseHeldInFlight
  let events := (List.range network.nextConnectionId).filterMap fun id =>
    match network.connections id with
    | none => none
    | some connection =>
      if network.resumes id connection then
        some (network.now, NetworkEvent.processSendBuffer id)
      else none
  let resumed := network.mapConnections fun id connection =>
    if network.resumes id connection then
      { connection with flags := { connection.flags with sendStalled := false } }
    else connection
  { resumed with scheduled := network.scheduled ++ events }

/-! ### Landing -/

def flipBit (len : Nat) (flipped : List UInt8 × List (Nat × Nat)) (draw : Nat × Nat) :
    List UInt8 × List (Nat × Nat) :=
  let position := (draw.1 % len, draw.2 % 8)
  if position ∈ flipped.2 then flipped
  else
    (flipped.1.modify position.1 (· ^^^ (1 <<< position.2.toUInt8)), position :: flipped.2)

/-- What of `data` arrives: all of it as it was sent, unless bits are flipped. -/
def maybeCorruptData (data : List UInt8) (draws : List (Nat × Nat)) : List UInt8 :=
  if data = [] then [] else (draws.foldl (flipBit data.length) (data, [])).1

def receiverReading : Bool :=
  match network.connections id with
  | none => false
  | some connection => !connection.flags.isClosed && !connection.flags.recvClosed

def receiverOpen : Bool :=
  match network.connections id with
  | none => false
  | some connection => !connection.flags.isClosed

def land (sender : ConnectionId) (payload : InFlightPayload) (flips : List (Nat × Nat)) :
    Option Network :=
  match network.connections sender with
  | none => some network
  | some connection =>
    if connection.flags.sendBlackHoled then
      some (network.set sender
        { connection with
          history :=
            { connection.history with
              swallowed := connection.history.swallowed + payload.len } })
    else
      match payload with
      | .data data =>
        match connection.paired.filter network.receiverReading with
        | none => network.releaseWindow sender data.length
        | some receiver =>
          some (network.modify receiver fun connection =>
            { connection with
              receiveBuffer := connection.receiveBuffer ++ maybeCorruptData data flips })
      | .fin =>
        match connection.paired.filter network.receiverOpen with
        | none => some network
        | some receiver =>
          some (network.modify receiver fun connection =>
            { connection with
              flags := { connection.flags with remoteFinReceived := true } })

/-- Land the due items at the head of the flight; every turn takes one off. -/
def deliver (sender : ConnectionId) (flips : Nat → List (Nat × Nat)) :
    Nat → Network → Option Network
  | 0, network => some network
  | turns + 1, network =>
    match network.connections sender with
    | none => some network
    | some connection =>
      if connection.inFlightHeldSince.isSome then some network
      else
        match connection.inFlight with
        | [] => some network
        | head :: rest =>
          if network.now < head.deliverAt then some network
          else if (network.connectionPartitionClearAt sender).isSome then
            some (network.holdInFlight sender)
          else
            match (network.set sender { connection with inFlight := rest }).land sender
                head.payload (flips head.seq) with
            | none => none
            | some network => deliver sender flips turns network

def handleDelivery (sender : ConnectionId) (flips : Nat → List (Nat × Nat)) : Option Network :=
  match network.connections sender with
  | none => some network
  | some connection => deliver sender flips connection.inFlight.length network

/-! ### Sending -/

def splitChunk (most : Nat) (short : Option Nat) (chunk : SendChunk) :
    List UInt8 × List SendChunk :=
  match short with
  | none => (chunk.data, [])
  | some drawn =>
    if chunk.data = [] then (chunk.data, [])
    else
      let truncateTo := 1 + drawn % min chunk.data.length most
      if truncateTo < chunk.data.length then
        (chunk.data.take truncateTo, [⟨chunk.data.drop truncateTo, chunk.readyAt⟩])
      else (chunk.data, [])

/-- The extra latency between the two ends, and the slowness of the slower one. -/
def pairExtra : Duration :=
  match connection.localIp, connection.remoteIp with
  | some source, some target => (network.pairLatencies source target).getD 0
  | _, _ => 0

def endsSlowFactor : Nat :=
  (([connection.localIp, connection.remoteIp].reduceOption.map network.slowFactor).max?).getD 1

/-- The queue is empty: the sending is over, and a deferred FIN goes out. -/
def sendDrained : Network :=
  match network.connections id with
  | none => network
  | some connection =>
    let drained := network.set id
      { connection with
        flags :=
          { connection.flags with sendInProgress := false, gracefulClosePending := false } }
    if connection.flags.gracefulClosePending then drained.putFinInFlight id else drained

def handleNormalSend (draws : SendDraws) : Network :=
  match network.connections id with
  | none => network
  | some connection =>
    match connection.sendBuffer with
    | [] => network.sendDrained id
    | chunk :: chunks =>
      let (data, kept) := splitChunk network.config.partialWriteMaxBytes draws.short chunk
      let sendBuffer := kept ++ chunks
      let baseDelay := if sendBuffer = [] then draws.latency else 1
      let time := saturatingAdd (max network.now chunk.readyAt)
        (saturatingMul (saturatingAdd baseDelay (network.pairExtra connection))
          (network.endsSlowFactor connection))
      let sent := network.set id { connection with sendBuffer }
      let sent :=
        if connection.paired.isSome then sent.putInFlight id (.data data) time else sent
      if sendBuffer = [] then sent.sendDrained id
      else sent.scheduleAt sent.now (.processSendBuffer id)

def handleProcessSendBuffer (draws : SendDraws) : Option Network :=
  match network.connections id with
  | none => some network
  | some connection =>
    if connection.sendShut = true ∧ connection.flags.gracefulClosePending = false then
      (network.discardSendQueue id).map fun network =>
        network.modify id fun connection =>
          { connection with
            flags := { connection.flags with sendInProgress := false, sendStalled := false } }
    else if connection.sendBuffer ≠ [] ∧ (network.connectionPartitionClearAt id).isSome then
      some (network.modify id fun connection =>
        { connection with flags := { connection.flags with sendStalled := true } })
    else some (network.handleNormalSend id draws)

end Network

end Moonpool.Net
