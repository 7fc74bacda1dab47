import Moonpool.Net.Wiring

/-!
Owns that every transition of the network succeeds and moves its pipes: what a transition does
to the two ends of one pair, and which moves of the two pipes that is.
-/

namespace Moonpool.Net

open Relation

namespace Connection

variable (connection : Connection)

def dropQueue : Connection :=
  { connection with
    sendBuffer := []
    window := connection.window.less connection.queuedBytes
    history :=
      { connection.history with
        discarded := connection.history.discarded ++ connection.queue } }

def dropFlight : Connection :=
  { connection with
    inFlight := []
    inFlightHeldSince := none
    window := connection.window.less connection.inFlightBytes
    history :=
      { connection.history with
        discarded := connection.history.discarded ++
          connection.flight.flatMap InFlightPayload.bytes } }

def enqueue (data : List UInt8) (readyAt : Duration)
    (fits : connection.window.outstanding + data.length ≤ connection.window.capacity) :
    Connection :=
  { connection with
    window := ⟨connection.window.capacity, connection.window.outstanding + data.length, fits⟩
    sendBuffer := connection.sendBuffer ++ [⟨data, readyAt⟩]
    flags := { connection.flags with sendInProgress := true }
    history :=
      { connection.history with accepted := connection.history.accepted ++ data } }

/-- An end whose window has at least as much room, that reads what it read before, and that has
taken and given the same bytes. -/
structure Eased (connection eased : Connection) : Prop where
  room : connection.window.available ≤ eased.window.available
  buffer : eased.receiveBuffer = connection.receiveBuffer
  recvShut : eased.recvShut = connection.recvShut
  accepted : eased.history.accepted = connection.history.accepted
  returned : eased.history.returned = connection.history.returned

theorem Eased.refl : connection.Eased connection :=
  ⟨le_refl _, rfl, rfl, rfl, rfl⟩

theorem Eased.trans {first second third : Connection} (left : first.Eased second)
    (right : second.Eased third) : first.Eased third :=
  ⟨le_trans left.room right.room, right.buffer.trans left.buffer,
    right.recvShut.trans left.recvShut, right.accepted.trans left.accepted,
    right.returned.trans left.returned⟩

end Connection

namespace Network

variable {network next after : Network} {faults : Faults} {course : Course faults} {id peer : ConnectionId}
  {connection other changed otherChanged : Connection}

theorem Pair.unchanged (pair : network.Pair id peer connection other) :
    network.Changes network id peer connection other where
  connections := by
    rw [← pair.here, Function.update_eq_self, ← pair.there, Function.update_eq_self]
  ids := rfl

theorem Pair.set (pair : network.Pair id peer connection other) (changed : Connection) :
    network.Changes (network.set id changed) id peer changed other where
  connections := by
    have there : Function.update network.connections id (some changed) peer = some other := by
      rw [Function.update_of_ne pair.distinct]
      exact pair.there
    rw [← there, Function.update_eq_self]
    rfl
  ids := rfl

theorem Changes.symm (changes : network.Changes next id peer changed otherChanged)
    (distinct : peer ≠ id) : network.Changes next peer id otherChanged changed where
  connections := changes.connections.trans (Function.update_comm distinct.symm _ _ _)
  ids := changes.ids

theorem Changes.trans {again otherAgain : Connection}
    (changes : network.Changes next id peer changed otherChanged)
    (more : next.Changes after id peer again otherAgain) (distinct : peer ≠ id) :
    network.Changes after id peer again otherAgain where
  connections := by
    rw [more.connections, changes.connections, Function.update_comm distinct,
      Function.update_idem, Function.update_idem]
  ids := more.ids.trans changes.ids

theorem Changes.congr (changes : network.Changes next id peer changed otherChanged)
    (connections : after.connections = next.connections)
    (ids : after.nextConnectionId = next.nextConnectionId) :
    network.Changes after id peer changed otherChanged :=
  ⟨connections.trans changes.connections, ids.trans changes.ids⟩

section

variable (pair : network.Pair id peer connection other)

include pair

theorem Pair.modify (change : Connection → Connection) :
    network.Changes (network.modify id change) id peer (change connection) other := by
  unfold Network.modify
  rw [pair.here]
  exact pair.set _

theorem Pair.releaseWindow {bytes : Nat}
    (held : bytes ≤ connection.window.outstanding) :
    ∃ next, network.releaseWindow id bytes = some next ∧
      network.Changes next id peer { connection with window := connection.window.less bytes }
        other := by
  unfold Network.releaseWindow
  split
  next none =>
    subst none
    exact ⟨network, rfl, pair.unchanged⟩
  · rw [pair.here]
    dsimp only
    rw [SendWindow.release_eq held]
    exact ⟨_, rfl, pair.set _⟩

theorem Pair.discardReceiveBuffer
    (held : connection.receiveBuffer.length ≤ other.window.outstanding) :
    ∃ next, network.discardReceiveBuffer id = some next ∧
      network.Changes next id peer { connection with receiveBuffer := [] }
        { other with window := other.window.less connection.receiveBuffer.length } := by
  have emptied := pair.set { connection with receiveBuffer := [] }
  have still := emptied.pair pair rfl rfl
  obtain ⟨next, released, changes⟩ := still.symm.releaseWindow held
  refine ⟨next, ?_, emptied.trans (changes.symm pair.distinct.symm) pair.distinct⟩
  unfold Network.discardReceiveBuffer
  rw [pair.here]
  dsimp only
  split
  next alone =>
    rw [pair.out] at alone
    cases alone
  next sender out =>
    rw [pair.out] at out
    cases out
    exact released

theorem Pair.read {len : Nat} {short : Option Nat}
    (held : connection.receiveBuffer.length ≤ other.window.outstanding) :
    ∃ next bytes rest, network.read id len short = some (.ok bytes, next) ∧
      connection.receiveBuffer = bytes ++ rest ∧
      network.Changes next id peer
        { connection with
          receiveBuffer := rest
          history :=
            { connection.history with returned := connection.history.returned ++ bytes } }
        { other with window := other.window.less bytes.length } := by
  unfold Network.read
  rw [pair.here]
  dsimp only
  generalize partialLength _ _ short = limit
  have drained := pair.set
    { connection with
      receiveBuffer := connection.receiveBuffer.drop limit
      history :=
        { connection.history with
          returned := connection.history.returned ++ connection.receiveBuffer.take limit } }
  have still := drained.pair pair rfl rfl
  have shorter : (connection.receiveBuffer.take limit).length ≤ other.window.outstanding :=
    le_trans (List.length_take_le' _ _) held
  obtain ⟨next, released, changes⟩ := still.symm.releaseWindow shorter
  refine ⟨next, connection.receiveBuffer.take limit, connection.receiveBuffer.drop limit, ?_,
    (List.take_append_drop _ _).symm,
    drained.trans (changes.symm pair.distinct.symm) pair.distinct⟩
  split
  next alone =>
    rw [pair.out] at alone
    cases alone
  next sender out =>
    rw [pair.out] at out
    cases out
    rw [released]
    rfl

theorem Pair.bufferSend {data : List UInt8}
    {readyAt : Duration}
    (fits : connection.window.outstanding + data.length ≤ connection.window.capacity) :
    ∃ next, network.bufferSend id data readyAt = some next ∧
      network.Changes next id peer (connection.enqueue data readyAt fits) other := by
  unfold Network.bufferSend
  rw [pair.here]
  dsimp only
  rw [SendWindow.acquire_eq fits]
  refine ⟨_, rfl, ?_⟩
  split
  · exact pair.set _
  · exact (pair.set _).congr rfl rfl

end

/-- What goes on the wire is last in the flight; the rest of the end is as it was. -/
structure Put (connection sent : Connection) (payload : InFlightPayload) : Prop where
  out : sent.paired = connection.paired
  sendBuffer : sent.sendBuffer = connection.sendBuffer
  sender : ∀ receiver, Pipe.of sent receiver =
    { Pipe.of connection receiver with flight := connection.flight ++ [payload] }
  receiver : ∀ sender, Pipe.of sender sent = Pipe.of sender connection

theorem Pair.putInFlight (pair : network.Pair id peer connection other)
    (payload : InFlightPayload) (time : Duration) :
    ∃ sent, Put connection sent payload ∧
      network.Changes (network.putInFlight id payload time) id peer sent other := by
  unfold Network.putInFlight
  rw [pair.here]
  refine ⟨_, ?_, (pair.set _).congr rfl rfl⟩
  have flight : ∀ item : InFlight, (connection.inFlight ++ [item]).map (·.payload) =
      connection.flight ++ [item.payload] := fun item => by
    rw [List.map_append]
    rfl
  exact ⟨rfl, rfl, fun receiver => by simp only [Pipe.of, Connection.flight, flight]; rfl,
    fun _ => rfl⟩

structure PutFin (connection sent : Connection) : Prop where
  out : sent.paired = connection.paired
  sender : ∀ receiver, Pipe.of sent receiver =
    { Pipe.of connection receiver with
      flight := connection.flight ++ [.fin]
      finOver := some connection.history.discarded }
  receiver : ∀ sender, Pipe.of sender sent = Pipe.of sender connection

theorem Pair.putFinInFlight (pair : network.Pair id peer connection other) :
    ∃ sent, PutFin connection sent ∧
      network.Changes (network.putFinInFlight id) id peer sent other := by
  have noted := pair.set
    { connection with
      history := { connection.history with finOver := some connection.history.discarded } }
  obtain ⟨sent, put, changes⟩ :=
    (noted.pair pair rfl rfl).putInFlight .fin (saturatingAdd network.now 1)
  refine ⟨sent, ⟨put.out, put.sender, put.receiver⟩, ?_⟩
  unfold Network.putFinInFlight
  rw [pair.here]
  dsimp only
  rw [if_neg (by simp [pair.out])]
  exact noted.trans changes pair.distinct

def Endures (course : Course faults) (result : Option Network) : Prop :=
  ∃ next, result = some next ∧ next.Holds course

theorem Holds.endures (lives : network.Holds course) : Endures course (some network) :=
  ⟨network, rfl, lives⟩

section

variable (lives : network.Holds course) (pair : network.Pair id peer connection other)

include lives pair

theorem Holds.counted :
    connection.window.outstanding = connection.queuedBytes + connection.inFlightBytes +
      other.receiveBuffer.length + connection.history.swallowed := by
  have counted := (course.reached (lives.holds pair)).balanced.counted
  rw [← Connection.length_queue, ← Connection.length_flight]
  exact counted

theorem Holds.settled (writable : connection.sendShut = false) :
    connection.flags.gracefulClosePending = false :=
  (course.reached (lives.holds pair)).settled writable

theorem Holds.sender (changes : network.Changes next id peer changed other)
    (out : changed.paired = connection.paired)
    (forward : Pipe.Moves faults (course.shuts peer) (.of connection other) (.of changed other))
    (backward : Pipe.of other changed = .of other connection) : next.Holds course := by
  refine lives.change pair changes out rfl forward ?_
  rw [backward]

theorem Holds.receiver (changes : network.Changes next id peer changed otherChanged)
    (out : changed.paired = connection.paired) (back : otherChanged.paired = other.paired)
    (forward : Pipe.of changed otherChanged = .of connection other)
    (backward : Pipe.Moves faults (course.shuts id) (.of other connection)
      (.of otherChanged changed)) :
    next.Holds course := by
  refine lives.change pair changes out back ?_ backward
  rw [forward]

theorem Holds.dropBuffer (shut : connection.recvShut = true) :
    ∃ next, network.discardReceiveBuffer id = some next ∧ next.Holds course ∧
      network.Changes next id peer { connection with receiveBuffer := [] }
        { other with window := other.window.less connection.receiveBuffer.length } := by
  have counted := lives.counted pair.symm
  obtain ⟨next, made, changes⟩ := pair.discardReceiveBuffer (by omega)
  refine ⟨next, made, ?_, changes⟩
  exact lives.receiver pair changes rfl rfl rfl (.single (.dropBuffer _ shut))

theorem Holds.dropQueue (shut : connection.sendShut = true)
    (spared : faults.spoils = false → connection.flags.gracefulClosePending = true →
      connection.sendBuffer = []) :
    ∃ next, network.discardSendQueue id = some next ∧ next.Holds course ∧
      network.Changes next id peer connection.dropQueue other := by
  have counted := lives.counted pair
  unfold Network.discardSendQueue
  rw [pair.here]
  dsimp only
  rw [SendWindow.release_eq (by omega)]
  refine ⟨_, rfl, ?_, pair.set _⟩
  have emptied : Pipe.of connection.dropQueue other =
      { Pipe.of connection other with
        queue := []
        discarded := (Pipe.of connection other).discarded ++ (Pipe.of connection other).queue
        outstanding := (Pipe.of connection other).outstanding -
          (Pipe.of connection other).queue.length } := by
    simp only [Pipe.of, Connection.length_queue]
    rfl
  refine lives.sender pair (pair.set connection.dropQueue) rfl ?_ rfl
  rw [emptied]
  refine .single (.dropQueue _ shut fun spoils pending => ?_)
  simp [Pipe.of, Connection.queue, spared spoils pending]

theorem Holds.dropFlight (shut : connection.sendShut = true)
    (settled : connection.flags.gracefulClosePending = false)
    (drained : connection.sendBuffer = []) :
    ∃ next, network.discardInFlight id = some next ∧ next.Holds course ∧
      network.Changes next id peer connection.dropFlight other := by
  have counted := lives.counted pair
  unfold Network.discardInFlight
  rw [pair.here]
  dsimp only
  rw [SendWindow.release_eq (by omega)]
  refine ⟨_, rfl, ?_, pair.set _⟩
  have emptied : Pipe.of connection.dropFlight other =
      { Pipe.of connection other with
        flight := []
        discarded := (Pipe.of connection other).discarded ++
          (Pipe.of connection other).flightBytes
        outstanding := (Pipe.of connection other).outstanding -
          (Pipe.of connection other).flightBytes.length
        finPending := false } := by
    simp only [Pipe.of, Pipe.flightBytes, Connection.length_flight, ← settled]
    rfl
  refine lives.sender pair (pair.set connection.dropFlight) rfl ?_ rfl
  rw [emptied]
  refine .single (.dropFlight _ shut ?_)
  simp [Pipe.of, Connection.queue, drained]

end

end Network

end Moonpool.Net
