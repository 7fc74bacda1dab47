import Moonpool.Net.Engine

/-!
Owns how connections are made and closed, the partitions, clogs and black holes, and what each
scheduled event does.
-/

namespace Moonpool.Net

/-- Which directions a connection fault hits: the end's sends, its peer's, or both. -/
inductive FaultDirection where
  | send
  | recv
  | both
deriving DecidableEq

def FaultDirection.hitsSend : FaultDirection → Bool
  | send | both => true
  | recv => false

def FaultDirection.hitsRecv : FaultDirection → Bool
  | recv | both => true
  | send => false

structure EventDraws where
  send : SendDraws
  flips : Nat → List (Nat × Nat)

namespace Network

variable (network : Network) (id : ConnectionId)

def createConnectionPair (client server : Option IpAddr) : Network :=
  let clientConn := network.nextConnectionId
  let serverConn := network.nextConnectionId + 1
  let window := SendWindow.new network.config.tcpSendWindowBytes
  let clientEnd : Connection :=
    { localIp := client, remoteIp := server, paired := some serverConn, window }
  let serverEnd : Connection :=
    { localIp := server, remoteIp := client, paired := some clientConn, window }
  { (network.set clientConn clientEnd).set serverConn serverEnd with
    nextConnectionId := network.nextConnectionId + 2 }

def remove : Network :=
  { network with
    connections := Function.update network.connections id none
    connectionClogs := Function.update network.connectionClogs id none
    readClogs := Function.update network.readClogs id none }

def discardConnectionPair : Network :=
  match network.paired id with
  | none => network.remove id
  | some peer => (network.remove id).remove peer

/-- Shut the send direction: the FIN goes out behind every byte queued or in flight. -/
def shutdownSend : Network :=
  match network.connections id with
  | none => network
  | some connection =>
    if connection.flags.sendClosed ∨ connection.flags.isClosed then network
    else
      let busy := connection.flags.sendInProgress || !connection.sendBuffer.isEmpty
      let shut := network.set id
        { connection with
          flags :=
            { connection.flags with
              sendClosed := true
              gracefulClosePending := connection.flags.gracefulClosePending || busy } }
      if busy then shut else shut.putFinInFlight id

/-- Close both directions; a send side that was shut before sends no second FIN. -/
def closeGraceful : Option Network :=
  match network.connections id with
  | none => some network
  | some connection =>
    if connection.flags.isClosed then some network
    else
      let finSent := connection.flags.sendClosed
      let busy := connection.flags.sendInProgress || !connection.sendBuffer.isEmpty
      let closed := network.set id
        { connection with
          closeReason := .graceful
          flags :=
            { connection.flags with
              isClosed := true
              sendClosed := true
              gracefulClosePending :=
                connection.flags.gracefulClosePending || (!finSent && busy) } }
      (closed.discardReceiveBuffer id).map fun discarded =>
        if finSent || busy then discarded else discarded.putFinInFlight id

def resetEnd (network : Network) (id : ConnectionId) : Option Network :=
  ((network.modify id fun connection =>
    { connection with
      closeReason := .aborted
      flags :=
        { connection.flags with
          isClosed := true
          sendClosed := true
          recvClosed := true
          sendInProgress := false
          sendStalled := false
          gracefulClosePending := false } }).discardSendQueue id).bind
    (·.discardInFlight id)

def closeAborted : Option Network :=
  let ends := [some id, network.paired id].reduceOption
  (ends.foldlM resetEnd network).bind fun reset =>
    ends.foldlM discardReceiveBuffer reset

def closeAsymmetric (closeSend closeRecv : Bool) : Option Network :=
  let sends :=
    if closeSend then
      (network.modify id fun connection =>
        { connection with flags := { connection.flags with sendClosed := true } }).discardSendQueue id
    else some network
  sends.bind fun shut =>
    match network.paired id with
    | none => some shut
    | some peer =>
      if closeRecv then
        (shut.modify peer fun connection =>
          { connection with
            flags := { connection.flags with recvClosed := true } }).discardReceiveBuffer peer
      else some shut

/-- The random close of one operation: `none` says that it did not fire. -/
def rollRandomClose : Option (FaultDirection × Bool) → Option Network
  | none => some network
  | some (direction, _) => network.closeAsymmetric id direction.hitsSend direction.hitsRecv

def holeSends : Network :=
  network.modify id fun connection =>
    { connection with flags := { connection.flags with sendBlackHoled := true } }

def blackHole (holeSend holeRecv : Bool) : Network :=
  let sends := if holeSend then network.holeSends id else network
  match network.paired id with
  | none => sends
  | some peer => if holeRecv then sends.holeSends peer else sends

def rollBlackHole (hole : Option FaultDirection) : Network :=
  match network.connections id, hole with
  | some connection, some direction =>
    if connection.flags.isClosed then network
    else network.blackHole id direction.hitsSend direction.hitsRecv
  | _, _ => network

/-- Hold the writes of `id` until `deadline`, or a later deadline already in force. -/
def clogWriteUntil (deadline : Duration) : Network :=
  if deadline < (network.connectionClogs id).getD deadline then network
  else
    { network with
      connectionClogs := Function.update network.connectionClogs id (some deadline) }.scheduleAt
        deadline (.clogClear id deadline)

def clogReadUntil (deadline : Duration) : Network :=
  if deadline < (network.readClogs id).getD deadline then network
  else
    { network with
      readClogs := Function.update network.readClogs id (some deadline) }.scheduleAt
        deadline (.readClogClear id deadline)

def isClogged (clogs : ConnectionId → Option Duration) (id : ConnectionId) : Bool :=
  (clogs id).any (network.now < ·)

def clogInterface (ip : IpAddr) (direction : FaultDirection) (duration : Duration) : Network :=
  let deadline := saturatingAdd network.now duration
  let ids := (List.range network.nextConnectionId).filter fun id =>
    (network.connections id).any fun connection =>
      !connection.flags.isClosed && connection.localIp = some ip
  ids.foldl (fun network id =>
    let network := if direction.hitsSend then network.clogWriteUntil id deadline else network
    if direction.hitsRecv then network.clogReadUntil id deadline else network) network

def insertPartition (source target : IpAddr) (deadline : Duration) : Network :=
  { network with
    ipPartitions := Function.update network.ipPartitions source
      (Function.update (network.ipPartitions source) target (some deadline)) }

def partitionPair (source target : IpAddr) (duration : Duration) : Network :=
  let deadline := saturatingAdd network.now duration
  ((network.insertPartition source target deadline).scheduleAt deadline
    (.partitionRestore deadline)).holdPartitionedInFlight

def insertSendPartition (ip : IpAddr) (duration : Duration) : Network :=
  let deadline := saturatingAdd network.now duration
  ({ network with
      sendPartitions := Function.update network.sendPartitions ip (some deadline) }.scheduleAt
    deadline (.sendPartitionClear deadline)).holdPartitionedInFlight

def insertRecvPartition (ip : IpAddr) (duration : Duration) : Network :=
  let deadline := saturatingAdd network.now duration
  ({ network with
      recvPartitions := Function.update network.recvPartitions ip (some deadline) }.scheduleAt
    deadline (.recvPartitionClear deadline)).holdPartitionedInFlight

/-- A random partition of one group from the other, both ways, where not cut already. -/
def startRandomPartition (selected other : List IpAddr) (duration : Duration) : Network :=
  let deadline := saturatingAdd network.now duration
  let cut := selected.foldl (fun network source =>
    other.foldl (fun network target =>
      if network.isPartitioned source target then network
      else (network.insertPartition source target deadline).insertPartition target source deadline)
      network) network
  (cut.scheduleAt deadline (.partitionRestore deadline)).holdPartitionedInFlight

def removePartition (source target : IpAddr) : Network :=
  { network with
    ipPartitions := Function.update network.ipPartitions source
      (Function.update (network.ipPartitions source) target none) }

def restorePartition (source target : IpAddr) : Network :=
  ((network.removePartition source target).removePartition target source).resumeAfterHeal

def healAllPartitions : Network :=
  { network with
    ipPartitions := fun _ _ => none
    sendPartitions := fun _ => none
    recvPartitions := fun _ => none }.resumeAfterHeal

def outlasts (expected deadline : Duration) : Bool :=
  deadline ≠ expected || network.now < expected

def handleEvent (draws : EventDraws) : NetworkEvent → Option Network
  | .clogClear id expected =>
    if network.connectionClogs id = some expected ∧ expected ≤ network.now then
      some { network with connectionClogs := Function.update network.connectionClogs id none }
    else some network
  | .readClogClear id expected =>
    if network.readClogs id = some expected ∧ expected ≤ network.now then
      some { network with readClogs := Function.update network.readClogs id none }
    else some network
  | .partitionRestore expected =>
    some { network with
      ipPartitions := fun source target =>
        (network.ipPartitions source target).filter (network.outlasts expected)
      }.resumeAfterHeal
  | .sendPartitionClear expected =>
    some { network with
      sendPartitions := fun ip => (network.sendPartitions ip).filter (network.outlasts expected)
      }.resumeAfterHeal
  | .recvPartitionClear expected =>
    some { network with
      recvPartitions := fun ip => (network.recvPartitions ip).filter (network.outlasts expected)
      }.resumeAfterHeal
  | .delivery id _ => network.handleDelivery id draws.flips
  | .processSendBuffer id => network.handleProcessSendBuffer id draws.send

end Network

end Moonpool.Net
