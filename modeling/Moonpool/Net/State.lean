import Mathlib.Algebra.Order.Ring.Nat
import Mathlib.Data.List.ReduceOption

/-!
Owns the state of the simulated network: the two ends of every connection with the byte window
of each direction, the partitions and clogs in force, and the events the network scheduled.

Every byte moves through four places: the sender's queue, its flight, the peer's receive buffer,
and the reader.  `History` records beside them what an end's writes and reads reported; no
function of the network reads it.
-/

namespace Moonpool.Net

/-! ### Time -/

abbrev Duration : Type := Nat

/-- The longest span there is: `u64::MAX` seconds and `999_999_999` nanoseconds. -/
def longest : Duration := 2 ^ 64 * 1000000000 - 1

def saturatingAdd (left right : Duration) : Duration := min (left + right) longest

def saturatingMul (span : Duration) (factor : Nat) : Duration := min (span * factor) longest

/-! ### Connections -/

inductive IpAddr where
  | v4 (bits : BitVec 32)
  | v6 (bits : BitVec 128)
deriving DecidableEq

abbrev ConnectionId : Type := Nat

inductive CloseReason where
  | none
  | graceful
  | aborted
deriving DecidableEq

inductive InFlightPayload where
  | data (bytes : List UInt8)
  | fin
deriving DecidableEq

namespace InFlightPayload

def bytes : InFlightPayload → List UInt8
  | data bytes => bytes
  | fin => []

def len (payload : InFlightPayload) : Nat := payload.bytes.length

@[simp] theorem bytes_data (data : List UInt8) : (InFlightPayload.data data).bytes = data := rfl

@[simp] theorem bytes_fin : InFlightPayload.fin.bytes = [] := rfl

end InFlightPayload

structure InFlight where
  seq : Nat
  deliverAt : Duration
  payload : InFlightPayload
deriving DecidableEq

structure SendChunk where
  data : List UInt8
  readyAt : Duration
deriving DecidableEq

structure ConnectionFlags where
  isClosed : Bool := false
  sendClosed : Bool := false
  recvClosed : Bool := false
  gracefulClosePending : Bool := false
  remoteFinReceived : Bool := false
  sendInProgress : Bool := false
  sendStalled : Bool := false
  sendBlackHoled : Bool := false
deriving DecidableEq

/-! ### The byte window -/

/-- The end-to-end byte window of one direction.  It never holds more than its capacity. -/
structure SendWindow where
  capacity : Nat
  outstanding : Nat
  bounded : outstanding ≤ capacity
deriving DecidableEq

namespace SendWindow

variable (window : SendWindow)

def new (capacity : Nat) : SendWindow := ⟨capacity, 0, Nat.zero_le _⟩

def available : Nat := window.capacity - window.outstanding

/-- Take `bytes` of the window; `none` is the assertion that fires. -/
def acquire (bytes : Nat) : Option SendWindow :=
  if fits : window.outstanding + bytes ≤ window.capacity then
    some ⟨window.capacity, window.outstanding + bytes, fits⟩
  else none

def less (bytes : Nat) : SendWindow :=
  ⟨window.capacity, window.outstanding - bytes, le_trans (Nat.sub_le _ _) window.bounded⟩

def release (bytes : Nat) : Option SendWindow :=
  if bytes ≤ window.outstanding then some (window.less bytes) else none

theorem acquire_eq {window : SendWindow} {bytes : Nat}
    (fits : window.outstanding + bytes ≤ window.capacity) :
    window.acquire bytes = some ⟨window.capacity, window.outstanding + bytes, fits⟩ :=
  dif_pos fits

theorem release_eq {window : SendWindow} {bytes : Nat} (held : bytes ≤ window.outstanding) :
    window.release bytes = some (window.less bytes) :=
  if_pos held

theorem available_le_less (bytes : Nat) :
    window.available ≤ (window.less bytes).available :=
  Nat.sub_le_sub_left (Nat.sub_le _ _) _

end SendWindow

/-! ### One end of a connection -/

structure History where
  accepted : List UInt8 := []
  returned : List UInt8 := []
  /-- How many of its bytes a black hole swallowed. -/
  swallowed : Nat := 0
  discarded : List UInt8 := []
  /-- What had been discarded when its FIN was put on the wire. -/
  finOver : Option (List UInt8) := none
deriving DecidableEq

/-- One end: its queue, flight and window are those of the direction it sends on. -/
structure Connection where
  localIp : Option IpAddr
  remoteIp : Option IpAddr
  receiveBuffer : List UInt8 := []
  paired : Option ConnectionId
  sendBuffer : List SendChunk := []
  inFlight : List InFlight := []
  inFlightHeldSince : Option Duration := none
  nextInFlightSeq : Nat := 0
  lastDeliveryAt : Option Duration := none
  flags : ConnectionFlags := {}
  closeReason : CloseReason := .none
  window : SendWindow
  history : History := {}
deriving DecidableEq

namespace Connection

variable (connection : Connection)

def queue : List UInt8 := connection.sendBuffer.flatMap (·.data)

def flight : List InFlightPayload :=
  connection.inFlight.map (·.payload)

def queuedBytes : Nat :=
  (connection.sendBuffer.map fun chunk => chunk.data.length).sum

def inFlightBytes : Nat :=
  (connection.inFlight.map fun item => item.payload.len).sum

theorem length_queue :
    connection.queue.length = connection.queuedBytes := List.length_flatMap

theorem length_flight :
    (connection.flight.flatMap InFlightPayload.bytes).length = connection.inFlightBytes := by
  rw [flight, List.length_flatMap, List.map_map]
  rfl

/-- The end takes no bytes from the wire any more. -/
def recvShut : Bool :=
  connection.flags.recvClosed || connection.flags.isClosed

def sendShut : Bool :=
  connection.flags.sendClosed || connection.flags.isClosed

end Connection

/-! ### The network -/

inductive NetworkEvent where
  | clogClear (id : ConnectionId) (expectedDeadline : Duration)
  | readClogClear (id : ConnectionId) (expectedDeadline : Duration)
  | partitionRestore (expectedDeadline : Duration)
  | sendPartitionClear (expectedDeadline : Duration)
  | recvPartitionClear (expectedDeadline : Duration)
  | delivery (id : ConnectionId) (seq : Nat)
  | processSendBuffer (id : ConnectionId)
deriving DecidableEq

/-- What the configuration sets for the byte path. A limit of zero would leave a short write's range
empty. -/
structure Config where
  tcpSendWindowBytes : Nat
  partialReadMaxBytes : Nat
  partialWriteMaxBytes : Nat
  partialWrite_pos : 0 < partialWriteMaxBytes

structure Network where
  now : Duration
  scheduled : List (Duration × NetworkEvent)
  config : Config
  nextConnectionId : ConnectionId
  connections : ConnectionId → Option Connection
  connectionClogs : ConnectionId → Option Duration
  readClogs : ConnectionId → Option Duration
  ipPartitions : IpAddr → IpAddr → Option Duration
  sendPartitions : IpAddr → Option Duration
  recvPartitions : IpAddr → Option Duration
  pairLatencies : IpAddr → IpAddr → Option Duration
  slowFactors : IpAddr → Option Nat

namespace Network

def new (config : Config) : Network where
  now := 0
  scheduled := []
  config
  nextConnectionId := 0
  connections _ := none
  connectionClogs _ := none
  readClogs _ := none
  ipPartitions _ _ := none
  sendPartitions _ := none
  recvPartitions _ := none
  pairLatencies _ _ := none
  slowFactors _ := none

variable (network : Network)

def scheduleAt (time : Duration) (event : NetworkEvent) : Network :=
  { network with scheduled := network.scheduled ++ [(time, event)] }

def set (id : ConnectionId) (connection : Connection) : Network :=
  { network with connections := Function.update network.connections id (some connection) }

def modify (id : ConnectionId) (change : Connection → Connection) : Network :=
  match network.connections id with
  | none => network
  | some connection => network.set id (change connection)

def mapConnections (change : ConnectionId → Connection → Connection) : Network :=
  { network with connections := fun id => (network.connections id).map (change id) }

def paired (id : ConnectionId) : Option ConnectionId := (network.connections id).bind (·.paired)

def slowFactor (ip : IpAddr) : Nat := (network.slowFactors ip).getD 1

/-- When every partition that blocks `source → target` has healed; `none` if none does now. -/
def partitionClearAt (source target : IpAddr) : Option Duration :=
  (([network.ipPartitions source target, network.sendPartitions source,
    network.recvPartitions target].reduceOption).filter (network.now < ·)).max?

def isPartitioned (source target : IpAddr) : Bool :=
  (network.partitionClearAt source target).isSome

def connectionPartitionClearAt (id : ConnectionId) : Option Duration := do
  let connection ← network.connections id
  network.partitionClearAt (← connection.localIp) (← connection.remoteIp)

end Network

end Moonpool.Net
