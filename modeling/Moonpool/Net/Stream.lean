import Moonpool.Net.Faults

/-!
Owns the streams over the network, what a poll of a read or a write does, and the runs: any
sequence of polls, closes, faults and scheduled events.
-/

namespace Moonpool.Net

inductive Poll where
  | ready (result : Except StreamError Nat)
  | pending

/-- How many bytes a poll says it moved. -/
def Poll.reported : Poll → Nat
  | ready (.ok count) => count
  | _ => 0

/-- What one poll draws: the random close, the black hole, and the length of a short read. -/
structure IoDraws where
  close : Option (FaultDirection × Bool)
  hole : Option FaultDirection
  short : Option Nat

namespace Network

variable (network : Network) (id : ConnectionId)

def isClosed (id : ConnectionId) : Bool :=
  (network.connections id).any (·.flags.isClosed)

def isSendClosed : Bool := (network.connections id).any (·.sendShut)

def isRecvClosed : Bool := (network.connections id).any (·.recvShut)

def closeReason (id : ConnectionId) : CloseReason :=
  ((network.connections id).map (·.closeReason)).getD .none

def isAborted : Bool :=
  network.isClosed id && network.closeReason id = .aborted

def hasReadableData : Bool :=
  (network.connections id).any fun connection => !connection.receiveBuffer.isEmpty

def availableSendBytes : Nat :=
  ((network.connections id).map (·.window.available)).getD 0

/-- A waker can be registered: the connection exists and is not closed. -/
def registers : Bool :=
  (network.connections id).any fun connection => !connection.flags.isClosed

def registersSend : Bool :=
  (network.connections id).any fun connection => !connection.sendShut

def readTerminalResult : Option (Except StreamError Nat) :=
  if (network.connections id).any (·.flags.remoteFinReceived) then some (.ok 0)
  else if network.isClosed id = false then none
  else if network.closeReason id = .aborted then some (.error .connectionAborted)
  else some (.ok 0)

def pollReadNoData (len : Nat) (draws : IoDraws) : Option (Poll × Network) :=
  match network.readTerminalResult id with
  | some result => some (.ready result, network)
  | none =>
    if network.registers id = false then some (.ready (.error .simulationShutdown), network)
    else
      match network.read id len draws.short with
      | none => none
      | some (.error error, network) => some (.ready (.error error), network)
      | some (.ok bytes, network) =>
        if 0 < bytes.length then some (.ready (.ok bytes.length), network)
        else
          match network.readTerminalResult id with
          | some result => some (.ready result, network)
          | none => some (.pending, network)

def pollReadData (len : Nat) (draws : IoDraws) : Option (Poll × Network) :=
  if network.isAborted id then some (.ready (.error .connectionAborted), network)
  else if network.isRecvClosed id then some (.ready (.ok 0), network)
  else
    (network.read id len draws.short).map fun (result, network) =>
      (.ready (result.map List.length), network)

def pollRead (len : Nat) (draws : IoDraws) : Option (Poll × Network) :=
  if len = 0 then some (.ready (.ok 0), network)
  else if network.isAborted id then some (.ready (.error .connectionAborted), network)
  else if network.isRecvClosed id then some (.ready (.ok 0), network)
  else if network.isClogged network.readClogs id then
    some (if network.registers id then .pending else .ready (.error .simulationShutdown), network)
  else if network.hasReadableData id = false then network.pollReadNoData id len draws
  else
    (network.rollRandomClose id draws.close).bind fun closed =>
      if draws.close.any (·.2) then some (.ready (.error .randomConnectionFailure), closed)
      else (closed.rollBlackHole id draws.hole).pollReadData id len draws

def writeGuard : Option StreamError :=
  if network.isSendClosed id then some .sendSideClosed
  else if network.isClosed id then
    some (if network.closeReason id = .aborted then .connectionAborted else .connectionClosed)
  else none

def bufferSlices (id : ConnectionId) (readyAt : Duration) :
    Network → Nat → List (List UInt8) → Option Network
  | network, _, [] => some network
  | network, remaining, slice :: slices =>
    if remaining = 0 then some network
    else if slice = [] then bufferSlices id readyAt network remaining slices
    else
      let take := min remaining slice.length
      (network.bufferSend id (slice.take take) readyAt).bind fun network =>
        bufferSlices id readyAt network (remaining - take) slices

/-- A vectored write; a plain write is one of a single slice. -/
def pollWriteVectored (slices : List (List UInt8)) (readyAt : Duration)
    (draws : IoDraws) : Option (Poll × Network) :=
  match network.writeGuard id with
  | some error => some (.ready (.error error), network)
  | none =>
    let total := (slices.map List.length).sum
    let available := network.availableSendBytes id
    if total = 0 then some (.ready (.ok 0), network)
    else if available = 0 then
      some (if network.registersSend id then .pending
        else .ready (.error .simulationShutdown), network)
    else
      (network.rollRandomClose id draws.close).bind fun closed =>
        if draws.close.any (·.2) then some (.ready (.error .randomConnectionFailure), closed)
        else
          let network := closed.rollBlackHole id draws.hole
          match network.writeGuard id with
          | some error => some (.ready (.error error), network)
          | none =>
            if network.isClogged network.connectionClogs id then
              some (if network.registers id then .pending
                else .ready (.error .simulationShutdown), network)
            else
              let accepted := min total available
              (bufferSlices id readyAt network accepted slices).map fun network =>
                (.ready (.ok accepted), network)

def pollWrite (data : List UInt8) (readyAt : Duration) (draws : IoDraws) :
    Option (Poll × Network) :=
  network.pollWriteVectored id [data] readyAt draws

/-- The end of `id` has given its reader the first unread bytes, as many as the poll reports. -/
def Gives (network next : Network) (id : ConnectionId) (poll : Poll) : Prop :=
  ∀ connection, network.connections id = some connection → ∃ after bytes,
    next.connections id = some after ∧ bytes <+: connection.receiveBuffer ∧
      bytes.length = poll.reported ∧
      after.history.returned = connection.history.returned ++ bytes

/-- The end of `id` has taken the first bytes of the slices, as many as the poll reports. -/
def Takes (network next : Network) (id : ConnectionId) (slices : List (List UInt8)) (poll : Poll) :
    Prop :=
  ∀ connection, network.connections id = some connection → ∃ after,
    next.connections id = some after ∧ poll.reported ≤ slices.flatten.length ∧
      after.history.accepted = connection.history.accepted ++ slices.flatten.take poll.reported

/-- A dropped stream: unread bytes make the close a reset. -/
def dropStream : Option Network :=
  if network.hasReadableData id then network.closeAborted id else network.closeGraceful id

def abortAllConnectionsForIp (ip : IpAddr) : Option Network :=
  let ids := (List.range network.nextConnectionId).filter fun id =>
    (network.connections id).any fun connection =>
      connection.localIp = some ip || connection.remoteIp = some ip
  ids.foldlM closeAborted network

def connectionBaseLatency (sampled : Duration) : Network :=
  match network.connections id with
  | none => network
  | some connection =>
    match connection.localIp, connection.remoteIp with
    | some source, some target =>
      if (network.pairLatencies source target).isSome then network
      else
        { network with
          pairLatencies := Function.update network.pairLatencies source
            (Function.update (network.pairLatencies source) target (some sampled)) }
    | _, _ => network

def setSlowFactor (ip : IpAddr) (factor : Nat) : Network :=
  { network with
    slowFactors := Function.update network.slowFactors ip
      (if factor ≤ 1 then none else some factor) }

end Network

/-- One step: of an application, of whoever injects faults, or of the scheduler. -/
inductive Action where
  | wait (duration : Duration)
  | fire (index : Nat) (draws : EventDraws)
  | connect (client server : Option IpAddr)
  | discard (id : ConnectionId)
  | pollRead (id : ConnectionId) (len : Nat) (draws : IoDraws)
  | pollWrite (id : ConnectionId) (data : List UInt8) (readyAt : Duration) (draws : IoDraws)
  | pollWriteVectored (id : ConnectionId) (slices : List (List UInt8)) (readyAt : Duration)
      (draws : IoDraws)
  | pollClose (id : ConnectionId)
  | drop (id : ConnectionId)
  | closeGraceful (id : ConnectionId)
  | closeAborted (id : ConnectionId)
  | closeAsymmetric (id : ConnectionId) (closeSend closeRecv : Bool)
  | abortAll (ip : IpAddr)
  | blackHole (id : ConnectionId) (holeSend holeRecv : Bool)
  | clogWrite (id : ConnectionId) (duration : Duration)
  | clogRead (id : ConnectionId) (duration : Duration)
  | clogInterface (ip : IpAddr) (direction : FaultDirection) (duration : Duration)
  | partitionPair (source target : IpAddr) (duration : Duration)
  | partitionSend (ip : IpAddr) (duration : Duration)
  | partitionRecv (ip : IpAddr) (duration : Duration)
  | randomPartition (selected other : List IpAddr) (duration : Duration)
  | restorePartition (source target : IpAddr)
  | healAllPartitions
  | baseLatency (id : ConnectionId) (sampled : Duration)
  | setSlowFactor (ip : IpAddr) (factor : Nat)
  | clearSlowFactors
  | setConfig (config : Config)

namespace Network

def fire (network : Network) (index : Nat) (draws : EventDraws) : Option Network :=
  match network.scheduled[index]? with
  | none => some network
  | some (time, event) =>
    if network.now < time then some network
    else
      { network with scheduled := network.scheduled.eraseIdx index }.handleEvent draws event

def act (network : Network) : Action → Option Network
  | .wait duration => some { network with now := network.now + duration }
  | .fire index draws => network.fire index draws
  | .connect client server => some (network.createConnectionPair client server)
  | .discard id => some (network.discardConnectionPair id)
  | .pollRead id len draws => (network.pollRead id len draws).map Prod.snd
  | .pollWrite id data readyAt draws => (network.pollWrite id data readyAt draws).map Prod.snd
  | .pollWriteVectored id slices readyAt draws =>
    (network.pollWriteVectored id slices readyAt draws).map Prod.snd
  | .pollClose id => some (network.shutdownSend id)
  | .drop id => network.dropStream id
  | .closeGraceful id => network.closeGraceful id
  | .closeAborted id => network.closeAborted id
  | .closeAsymmetric id closeSend closeRecv => network.closeAsymmetric id closeSend closeRecv
  | .abortAll ip => network.abortAllConnectionsForIp ip
  | .blackHole id holeSend holeRecv => some (network.blackHole id holeSend holeRecv)
  | .clogWrite id duration => some (network.clogWriteUntil id (saturatingAdd network.now duration))
  | .clogRead id duration => some (network.clogReadUntil id (saturatingAdd network.now duration))
  | .clogInterface ip direction duration => some (network.clogInterface ip direction duration)
  | .partitionPair source target duration => some (network.partitionPair source target duration)
  | .partitionSend ip duration => some (network.insertSendPartition ip duration)
  | .partitionRecv ip duration => some (network.insertRecvPartition ip duration)
  | .randomPartition selected other duration =>
    some (network.startRandomPartition selected other duration)
  | .restorePartition source target => some (network.restorePartition source target)
  | .healAllPartitions => some network.healAllPartitions
  | .baseLatency id sampled => some (network.connectionBaseLatency id sampled)
  | .setSlowFactor ip factor => some (network.setSlowFactor ip factor)
  | .clearSlowFactors => some { network with slowFactors := fun _ => none }
  | .setConfig config => some { network with config }

def acts (network : Network) (script : List Action) : Option Network := script.foldlM act network

end Network

structure Faults where
  flips : Bool
  holes : Bool
  /-- A send side is shut by a close fault while its FIN waits behind queued bytes. -/
  spoils : Bool

/-- The send side of `id` may be shut now without its FIN. -/
def Network.Spares (network : Network) (faults : Faults) (id : ConnectionId) : Prop :=
  faults.spoils = true ∨ ∀ connection, network.connections id = some connection →
    connection.flags.gracefulClosePending = true → connection.sendBuffer = []

def IoDraws.Meets (draws : IoDraws) (faults : Faults) (network : Network) (id : ConnectionId) :
    Prop :=
  (∀ direction explicit, draws.close = some (direction, explicit) → direction.hitsSend = true →
    network.Spares faults id) ∧
  (draws.hole ≠ none → faults.holes = true)

def Action.Meets (faults : Faults) (network : Network) : Action → Prop
  | .fire _ draws => faults.flips = true ∨ ∀ seq, draws.flips seq = []
  | .pollRead id _ draws => draws.Meets faults network id
  | .pollWrite id _ _ draws => draws.Meets faults network id
  | .pollWriteVectored id _ _ draws => draws.Meets faults network id
  | .closeAsymmetric id closeSend _ => closeSend = true → network.Spares faults id
  | .blackHole _ _ _ => faults.holes = true
  | _ => True

/-- An abort of `id` reaches its own end and its peer's. -/
def Network.Ends (network : Network) (id reader : ConnectionId) : Prop :=
  reader = id ∨ network.paired id = some reader

def IoDraws.Shuts (draws : IoDraws) (network : Network) (id reader : ConnectionId) : Prop :=
  (∃ direction explicit, draws.close = some (direction, explicit) ∧ direction.hitsRecv = true) ∧
    network.paired id = some reader

/-- The action may shut the receive side of `reader`: its own close or drop, an abort of either end
of its pair, or a close fault of its peer that hits what the peer sends. -/
def Action.Shuts (network : Network) (reader : ConnectionId) : Action → Prop
  | .pollRead id _ draws => draws.Shuts network id reader
  | .pollWrite id _ _ draws => draws.Shuts network id reader
  | .pollWriteVectored id _ _ draws => draws.Shuts network id reader
  | .drop id => reader = id ∨ network.hasReadableData id = true ∧ network.Ends id reader
  | .closeGraceful id => reader = id
  | .closeAborted id => network.Ends id reader
  | .closeAsymmetric id _ closeRecv => closeRecv = true ∧ network.paired id = some reader
  | .abortAll ip => ∃ id connection, network.connections id = some connection ∧
      (connection.localIp = some ip ∨ connection.remoteIp = some ip) ∧ network.Ends id reader
  | _ => False

inductive Runs (faults : Faults) : Network → Prop where
  | new (config : Config) : Runs faults (.new config)
  | act {network next : Network} (runs : Runs faults network) (action : Action)
      (meets : action.Meets faults network) (acted : network.act action = some next) :
      Runs faults next

end Moonpool.Net
