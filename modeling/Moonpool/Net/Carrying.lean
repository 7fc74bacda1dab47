import Moonpool.Net.Closing

/-!
Owns that carrying bytes keeps the pipes of the network: partitions hold and release a flight,
chunks and the FIN go on the wire and land, and polls read and write.
-/

namespace Moonpool.Net

open Relation List Option

namespace Network

variable {network next : Network} {faults : Faults} {course : Course faults} {id peer : ConnectionId}
  {connection other : Connection}

/-! ### Partitions and clogs -/

theorem Holds.mapConnections (lives : network.Holds course)
    {change : ConnectionId → Connection → Connection}
    (out : ∀ id connection, (change id connection).paired = connection.paired)
    (same : ∀ id peer sender receiver, Pipe.of (change id sender) (change peer receiver) =
      Pipe.of sender receiver) : (network.mapConnections change).Holds course := by
  have before : ∀ {id changed}, (network.mapConnections change).connections id = some changed →
      ∃ connection, network.connections id = some connection ∧ change id connection = changed :=
    fun found => map_eq_some_iff.mp found
  refine ⟨fun id above => ?_, lives.opens, fun {id changed} found => ?_, fun pair => ?_⟩
  · simp [Network.mapConnections, lives.fresh id above]
  · obtain ⟨connection, was, rfl⟩ := before found
    obtain ⟨peer, other, pair⟩ := lives.paired was
    refine ⟨peer, change peer other, pair.distinct, ?_, ?_, (out _ _).trans pair.out,
      (out _ _).trans pair.back⟩
    · simp [Network.mapConnections, pair.here]
    · simp [Network.mapConnections, pair.there]
  · obtain ⟨sender, wasHere, rfl⟩ := before pair.here
    obtain ⟨receiver, wasThere, rfl⟩ := before pair.there
    rw [same]
    exact lives.holds ⟨pair.distinct, wasHere, wasThere, (out _ _).symm.trans pair.out,
      (out _ _).symm.trans pair.back⟩

structure Alike (left right : Connection) : Prop where
  out : left.paired = right.paired
  sender : ∀ receiver, Pipe.of left receiver = .of right receiver
  receiver : ∀ sender, Pipe.of sender left = .of sender right

theorem Holds.mapAlike (lives : network.Holds course)
    {change : ConnectionId → Connection → Connection}
    (alike : ∀ id connection, Alike (change id connection) connection) :
    (network.mapConnections change).Holds course :=
  lives.mapConnections (fun id connection => (alike id connection).out)
    fun id peer sender receiver =>
      ((alike id sender).sender _).trans ((alike peer receiver).receiver _)

theorem Holds.holdPartitionedInFlight (lives : network.Holds course) :
    network.holdPartitionedInFlight.Holds course := by
  refine lives.mapAlike fun id connection => ?_
  split <;> exact ⟨rfl, fun _ => rfl, fun _ => rfl⟩

theorem Holds.releaseHeldInFlight (lives : network.Holds course) :
    network.releaseHeldInFlight.Holds course := by
  refine Holds.congr (lives.mapAlike fun id connection => ?_) rfl rfl
  split
  · exact ⟨rfl, fun _ => rfl, fun _ => rfl⟩
  · refine ⟨rfl, fun receiver => ?_, fun _ => rfl⟩
    simp [Pipe.of, thaw, Connection.flight, Connection.queue, Connection.sendShut,
      Function.comp_def]

theorem Holds.resumeAfterHeal (lives : network.Holds course) :
    network.resumeAfterHeal.Holds course := by
  have released := lives.releaseHeldInFlight
  refine Holds.congr (released.mapAlike fun id connection => ?_) rfl rfl
  split <;> exact ⟨rfl, fun _ => rfl, fun _ => rfl⟩

theorem Holds.holdInFlight (lives : network.Holds course)
    (pair : network.Pair id peer connection other) : (network.holdInFlight id).Holds course := by
  have changes := pair.modify fun connection =>
    if connection.inFlightHeldSince = none ∧ connection.inFlight ≠ [] then
      { connection with inFlightHeldSince := some network.now }
    else connection
  have alike : Alike (if connection.inFlightHeldSince = none ∧ connection.inFlight ≠ [] then
      { connection with inFlightHeldSince := some network.now } else connection) connection := by
    split <;> exact ⟨rfl, fun _ => rfl, fun _ => rfl⟩
  refine lives.sender pair changes alike.out ?_ (alike.receiver _)
  rw [alike.sender]

/-! ### Sending -/

theorem splitChunk_append (most : Nat) (short : Option Nat) (chunk : SendChunk) :
    chunk.data = (splitChunk most short chunk).1 ++
      (splitChunk most short chunk).2.flatMap (·.data) := by
  unfold splitChunk
  split
  · simp
  split
  · simp
  dsimp only
  split
  · simp
  · simp

section

variable (lives : network.Holds course) (pair : network.Pair id peer connection other)

include lives pair

theorem Holds.sendDrained (drained : connection.sendBuffer = []) :
    (network.sendDrained id).Holds course := by
  unfold Network.sendDrained
  rw [pair.here]
  dsimp only
  have settled := pair.set { connection with flags := { connection.flags with
    sendInProgress := false
    gracefulClosePending := false } }
  split
  next pending =>
    obtain ⟨sent, put, changes⟩ := (settled.pair pair rfl rfl).putFinInFlight
    refine lives.sender pair (settled.trans changes pair.distinct) put.out ?_ (put.receiver _)
    rw [put.sender]
    refine .single (.fin _ pending ?_)
    simp [Pipe.of, Connection.queue, drained]
  next idle =>
    refine lives.sender pair settled rfl ?_ rfl
    have same : Pipe.of { connection with flags := { connection.flags with
        sendInProgress := false
        gracefulClosePending := false } } other = .of connection other := by
      simp only [Pipe.of, idle]
      rfl
    rw [same]

theorem Holds.handleNormalSend
    (mayGo : connection.sendShut = true → connection.flags.gracefulClosePending = true)
    (draws : SendDraws) : (network.handleNormalSend id draws).Holds course := by
  unfold Network.handleNormalSend
  rw [pair.here]
  dsimp only
  split
  next drained => exact lives.sendDrained pair drained
  next chunk chunks queued =>
    have whole := splitChunk_append network.config.partialWriteMaxBytes draws.short chunk
    generalize splitChunk network.config.partialWriteMaxBytes draws.short chunk = split_ at whole
    obtain ⟨data, kept⟩ := split_
    have travels : connection.paired.isSome = true := by simp [pair.out]
    generalize saturatingAdd (max network.now chunk.readyAt) _ = time
    -- The chunk leaves the queue and joins the flight.
    have taken := pair.set { connection with sendBuffer := kept ++ chunks }
    have takenPair := taken.pair pair rfl rfl
    obtain ⟨sent, put, changes⟩ := takenPair.putInFlight (.data data) time
    have both := taken.trans changes pair.distinct
    have sentPair := both.pair pair put.out rfl
    have lives := lives.sender pair both put.out (by
      rw [put.sender]
      refine .single (.send _ data ((kept ++ chunks).flatMap (·.data)) ?_ mayGo)
      simp only [Pipe.of, Connection.queue, queued, flatMap_cons, flatMap_append]
      rw [whole, append_assoc]) (put.receiver _)
    split
    next empty => exact lives.sendDrained sentPair (put.sendBuffer.trans empty)
    · exact lives.congr rfl rfl

end

theorem Holds.handleProcessSendBuffer (lives : network.Holds course) (id : ConnectionId)
    (draws : SendDraws) : Endures course (network.handleProcessSendBuffer id draws) := by
  unfold Network.handleProcessSendBuffer
  cases found : network.connections id with
  | none => exact lives.endures
  | some connection =>
    obtain ⟨peer, other, pair⟩ := lives.paired found
    dsimp only
    split
    next past =>
      obtain ⟨emptied, made, lives, changes⟩ := lives.dropQueue pair past.1 fun _ pending => by
        rw [past.2] at pending
        cases pending
      have emptiedPair := changes.pair pair rfl rfl
      refine ⟨_, map_eq_some_iff.mpr ⟨emptied, made, rfl⟩, ?_⟩
      exact lives.sender emptiedPair (emptiedPair.modify _) rfl .refl rfl
    next going =>
      split
      · exact (lives.sender pair (pair.modify _) rfl .refl rfl).endures
      · refine (lives.handleNormalSend pair (fun shut => ?_) draws).endures
        simpa [shut] using going

/-! ### Landing -/

theorem length_flipBits (len : Nat) (draws : List (Nat × Nat))
    (flipped : List UInt8 × List (Nat × Nat)) :
    (draws.foldl (flipBit len) flipped).1.length = flipped.1.length := by
  induction draws generalizing flipped with
  | nil => rfl
  | cons draw draws ih =>
    rw [foldl_cons, ih]
    unfold flipBit
    dsimp only
    split
    · rfl
    · exact length_modify _ _ _

theorem length_maybeCorruptData (data : List UInt8) (draws : List (Nat × Nat)) :
    (maybeCorruptData data draws).length = data.length := by
  unfold maybeCorruptData
  split
  next empty => rw [empty]
  · exact length_flipBits _ _ _

theorem maybeCorruptData_nil (data : List UInt8) : maybeCorruptData data [] = data := by
  unfold maybeCorruptData
  split
  next empty => exact empty.symm
  · rfl

theorem Pair.receiverReading (pair : network.Pair id peer connection other) :
    network.receiverReading peer = !other.recvShut := by
  simp only [Network.receiverReading, pair.there, Connection.recvShut, Bool.not_or]
  exact Bool.and_comm _ _

theorem Pair.receiverOpen (pair : network.Pair id peer connection other) :
    network.receiverOpen peer = !other.flags.isClosed := by
  simp only [Network.receiverOpen, pair.there]

theorem Holds.land (lives : network.Holds course)
    (pair : network.Pair id peer connection other) {head : InFlight} {rest : List InFlight}
    (first : connection.inFlight = head :: rest) {flips : List (Nat × Nat)}
    (exact_ : faults.flips = true ∨ flips = []) :
    Endures course
      ((network.set id { connection with inFlight := rest }).land id head.payload flips) := by
  have flight : connection.flight = head.payload :: rest.map (·.payload) := by
    simp [Connection.flight, first]
  have popped := pair.set { connection with inFlight := rest }
  have poppedPair := popped.pair pair rfl rfl
  generalize network.set id { connection with inFlight := rest } = start at popped poppedPair ⊢
  unfold Network.land
  rw [poppedPair.here]
  dsimp only
  split
  next holed =>
    have swallowed := poppedPair.set
      { connection with
        inFlight := rest
        history :=
          { connection.history with
            swallowed := connection.history.swallowed + head.payload.len } }
    refine (lives.sender pair (popped.trans swallowed pair.distinct) rfl ?_ rfl).endures
    exact .single (.swallow _ head.payload _ flight holed)
  next whole =>
    have whole : connection.flags.sendBlackHoled = false := by simpa using whole
    cases payload : head.payload with
    | data data =>
      rw [payload] at flight
      rw [pair.out, filter_some, poppedPair.receiverReading]
      cases shut : other.recvShut with
      | true =>
        have counted := lives.counted pair
        have held : data.length ≤ connection.window.outstanding := by
          simp only [Connection.inFlightBytes, first, map_cons, sum_cons, payload,
            InFlightPayload.len, InFlightPayload.bytes_data] at counted
          omega
        obtain ⟨next, released, changes⟩ := poppedPair.releaseWindow held
        refine ⟨next, released, lives.sender pair (popped.trans changes pair.distinct) rfl ?_ rfl⟩
        exact .single (.refuse _ data _ flight shut)
      | false =>
        have landed := poppedPair.symm.modify fun other =>
          { other with receiveBuffer := other.receiveBuffer ++ maybeCorruptData data flips }
        have both := popped.trans (landed.symm pair.distinct.symm) pair.distinct
        refine (lives.change pair both rfl rfl ?_ .refl).endures
        refine .single (.arrive _ data (maybeCorruptData data flips) _ flight whole shut
          (length_maybeCorruptData data flips) fun off => ?_)
        rcases exact_ with on | none
        · rw [off] at on
          cases on
        · rw [none, maybeCorruptData_nil]
    | fin =>
      rw [payload] at flight
      dsimp only
      rw [pair.out, filter_some, poppedPair.receiverOpen]
      cases closed : other.flags.isClosed with
      | true =>
        refine (lives.sender pair popped rfl ?_ rfl).endures
        have seen : Pipe.of { connection with inFlight := rest } other =
            { Pipe.of connection other with
              flight := rest.map (·.payload)
              finSeen := (Pipe.of connection other).finSeen || false } := by
          rw [Bool.or_false]
          rfl
        rw [seen]
        exact .single (.arriveFin _ _ false flight)
      | false =>
        have landed := poppedPair.symm.modify fun other =>
          { other with flags := { other.flags with remoteFinReceived := true } }
        have both := popped.trans (landed.symm pair.distinct.symm) pair.distinct
        refine (lives.change pair both rfl rfl ?_ .refl).endures
        have seen : Pipe.of { connection with inFlight := rest }
            { other with flags := { other.flags with remoteFinReceived := true } } =
            { Pipe.of connection other with
              flight := rest.map (·.payload)
              finSeen := (Pipe.of connection other).finSeen || true } := by
          rw [Bool.or_true]
          rfl
        rw [seen]
        exact .single (.arriveFin _ _ true flight)

theorem Holds.deliver (id : ConnectionId) {flips : Nat → List (Nat × Nat)}
    (exact_ : faults.flips = true ∨ ∀ seq, flips seq = []) (turns : Nat) :
    ∀ {network : Network}, network.Holds course →
      Endures course (deliver id flips turns network) := by
  induction turns with
  | zero => exact fun lives => lives.endures
  | succ turns ih =>
    intro network lives
    unfold Network.deliver
    split
    · exact lives.endures
    next connection found =>
      obtain ⟨peer, other, pair⟩ := lives.paired found
      split
      · exact lives.endures
      split
      · exact lives.endures
      next head rest first =>
        split
        · exact lives.endures
        split
        · exact (lives.holdInFlight pair).endures
        obtain ⟨landed, made, lives⟩ := lives.land pair first
          (exact_.imp_right fun none => none head.seq)
        rw [made]
        exact ih lives

/-! ### Polls -/

/-- A network whose end `id` has only eased, so that a poll that moves no byte leaves it so. -/
def Rolled (course : Course faults) (next : Network) (id peer : ConnectionId)
    (connection : Connection) : Prop :=
  next.Holds course ∧ ∃ eased otherEased, next.Pair id peer eased otherEased ∧
    connection.Eased eased

section

variable {slices : List (List UInt8)} {poll : Poll} (found : network.connections id = some connection)
  {after : Connection} (here : next.connections id = some after)

include found here

theorem Gives.mk {bytes : List UInt8} (first : bytes <+: connection.receiveBuffer)
    (all : bytes.length = poll.reported)
    (grown : after.history.returned = connection.history.returned ++ bytes) :
    network.Gives next id poll := by
  intro same at_
  cases found.symm.trans at_
  exact ⟨after, bytes, here, first, all, grown⟩

theorem Gives.none (kept : connection.Eased after) (none : poll.reported = 0) :
    network.Gives next id poll :=
  .mk found here nil_prefix none.symm (by rw [append_nil, kept.returned])

theorem Takes.none (kept : connection.Eased after) (none : poll.reported = 0) :
    network.Takes next id slices poll := by
  intro same at_
  cases found.symm.trans at_
  refine ⟨after, here, by omega, ?_⟩
  rw [none, take_zero, append_nil, kept.accepted]

end

theorem Gives.same {poll : Poll} (none : poll.reported = 0) : network.Gives network id poll :=
  fun _ found => Gives.none found found (.refl _) none _ found

theorem Takes.same {slices : List (List UInt8)} {poll : Poll} (none : poll.reported = 0) :
    network.Takes network id slices poll :=
  fun _ found => Takes.none found found (.refl _) none _ found

theorem reported_terminal {result : Except StreamError Nat}
    (ended : network.readTerminalResult id = some result) : (Poll.ready result).reported = 0 := by
  unfold Network.readTerminalResult at ended
  split at ended
  · cases ended
    rfl
  split at ended
  · cases ended
  split at ended <;> cases ended <;> rfl

theorem Holds.read (lives : network.Holds course)
    (pair : network.Pair id peer connection other) (reading : connection.recvShut = false)
    (len : Nat) (short : Option Nat) :
    ∃ next after bytes, network.read id len short = some (.ok bytes, next) ∧ next.Holds course ∧
      next.connections id = some after ∧ bytes <+: connection.receiveBuffer ∧
      after.history.returned = connection.history.returned ++ bytes := by
  have counted := lives.counted pair.symm
  obtain ⟨next, bytes, rest, made, split, changes⟩ := pair.read (by omega)
  refine ⟨next, _, bytes, made, ?_, changes.here pair.distinct, ⟨rest, split.symm⟩, rfl⟩
  exact lives.receiver pair changes rfl rfl rfl (.single (.read _ bytes rest reading split))

theorem recvShut_eq_false (found : network.connections id = some connection)
    (reading : network.isRecvClosed id = false) : connection.recvShut = false := by
  simpa [Network.isRecvClosed, found] using reading

section

variable (lives : network.Holds course)

include lives

theorem Holds.pollReadNoData (id : ConnectionId) (len : Nat)
    (draws : IoDraws) (reading : network.isRecvClosed id = false) :
    ∃ poll next, network.pollReadNoData id len draws = some (poll, next) ∧ next.Holds course ∧
      network.Gives next id poll := by
  unfold Network.pollReadNoData
  split
  next result ended => exact ⟨_, _, rfl, lives, .same (reported_terminal ended)⟩
  split
  · exact ⟨_, _, rfl, lives, .same rfl⟩
  next registers =>
    cases found : network.connections id with
    | none => simp [Network.registers, found] at registers
    | some connection =>
      obtain ⟨peer, other, pair⟩ := lives.paired found
      obtain ⟨next, after, bytes, made, lives, here, first, grown⟩ :=
        lives.read pair (recvShut_eq_false found reading) len draws.short
      rw [made]
      dsimp only
      split
      · exact ⟨_, _, rfl, lives, .mk found here first rfl grown⟩
      next empty =>
        have empty : bytes.length = 0 := by omega
        split
        next result ended =>
          exact ⟨_, _, rfl, lives, .mk found here first (empty.trans (reported_terminal ended).symm)
            grown⟩
        · exact ⟨_, _, rfl, lives, .mk found here first empty grown⟩

theorem Holds.rollFaults (pair : network.Pair id peer connection other) {draws : IoDraws}
    (meets : draws.Meets faults network id)
    (may : ∀ reader, draws.Shuts network id reader → course.shuts reader) :
    ∃ closed, network.rollRandomClose id draws.close = some closed ∧
      Rolled course closed id peer connection ∧
      Rolled course (closed.rollBlackHole id draws.hole) id peer connection := by
  have rolled : ∃ closed eased otherEased, network.rollRandomClose id draws.close = some closed ∧
      closed.Holds course ∧ closed.Pair id peer eased otherEased ∧ connection.Eased eased := by
    unfold Network.rollRandomClose
    split
    · exact ⟨network, connection, other, rfl, lives, pair, .refl _⟩
    next direction explicit fires =>
      exact lives.closeAsymmetric pair (fun hits => meets.1 direction explicit fires hits)
        fun hits => may peer ⟨⟨direction, explicit, fires, hits⟩, pair.partner⟩
  obtain ⟨closed, eased, otherEased, made, lives, pair, first⟩ := rolled
  obtain ⟨holedLives, holed, otherHoled, holedPair, second⟩ := lives.rollBlackHole meets.2 pair
  exact ⟨closed, made, ⟨lives, eased, otherEased, pair, first⟩, holedLives, holed, otherHoled,
    holedPair, first.trans second⟩

theorem Holds.pollRead (id : ConnectionId) (len : Nat)
    {draws : IoDraws} (meets : draws.Meets faults network id)
    (may : ∀ reader, draws.Shuts network id reader → course.shuts reader) :
    ∃ poll next, network.pollRead id len draws = some (poll, next) ∧ next.Holds course ∧
      network.Gives next id poll := by
  unfold Network.pollRead
  split
  · exact ⟨_, _, rfl, lives, .same rfl⟩
  split
  · exact ⟨_, _, rfl, lives, .same rfl⟩
  split
  · exact ⟨_, _, rfl, lives, .same rfl⟩
  next reading =>
    split
    · exact ⟨_, _, rfl, lives, .same (by split <;> rfl)⟩
    split
    · exact lives.pollReadNoData id len draws (by simpa using reading)
    next readable =>
      cases found : network.connections id with
      | none => simp [Network.hasReadableData, found] at readable
      | some connection =>
        obtain ⟨peer, other, pair⟩ := lives.paired found
        obtain ⟨closed, made, ⟨lives, _, _, closedPair, kept⟩, holedLives, holed, otherHoled,
          holedPair, still⟩ := lives.rollFaults pair meets may
        rw [made, bind_some]
        split
        · exact ⟨_, _, rfl, lives, .none found closedPair.here kept rfl⟩
        unfold Network.pollReadData
        split
        · exact ⟨_, _, rfl, holedLives, .none found holedPair.here still rfl⟩
        split
        · exact ⟨_, _, rfl, holedLives, .none found holedPair.here still rfl⟩
        next reading =>
          obtain ⟨next, after, bytes, made, lives, here, first, grown⟩ := holedLives.read holedPair
            (recvShut_eq_false holedPair.here (by simpa using reading)) len draws.short
          rw [made]
          rw [still.buffer] at first
          rw [still.returned] at grown
          exact ⟨_, _, rfl, lives, .mk found here first rfl grown⟩

theorem Holds.bufferSend
    (pair : network.Pair id peer connection other) {data : List UInt8} (readyAt : Duration)
    (writable : connection.sendShut = false)
    (fits : connection.window.outstanding + data.length ≤ connection.window.capacity) :
    ∃ next, network.bufferSend id data readyAt = some next ∧ next.Holds course ∧
      next.Pair id peer (connection.enqueue data readyAt fits) other := by
  obtain ⟨next, made, changes⟩ := pair.bufferSend fits
  refine ⟨next, made, ?_, changes.pair pair rfl rfl⟩
  refine lives.sender pair changes rfl ?_ rfl
  have queued : Pipe.of (connection.enqueue data readyAt fits) other =
      { Pipe.of connection other with
        accepted := (Pipe.of connection other).accepted ++ data
        queue := (Pipe.of connection other).queue ++ data
        outstanding := (Pipe.of connection other).outstanding + data.length } := by
    simp [Pipe.of, Connection.enqueue, Connection.queue, Connection.flight, Connection.sendShut]
  rw [queued]
  exact .single (.write _ data writable fits)

end

theorem Holds.bufferSlices (readyAt : Duration) (slices : List (List UInt8)) :
    ∀ {network : Network} {connection other : Connection} {remaining : Nat},
      network.Holds course → network.Pair id peer connection other →
      connection.sendShut = false → remaining ≤ connection.window.available →
      ∃ next after, bufferSlices id readyAt network remaining slices = some next ∧
        next.Holds course ∧ next.connections id = some after ∧
        after.history.accepted =
          connection.history.accepted ++ slices.flatten.take remaining := by
  induction slices with
  | nil => exact fun lives pair _ _ => ⟨_, _, rfl, lives, pair.here, by simp⟩
  | cons slice slices ih =>
    intro network connection other remaining lives pair writable room
    unfold Network.bufferSlices
    split
    next none => exact ⟨_, _, rfl, lives, pair.here, by simp [none]⟩
    split
    next empty =>
      obtain ⟨next, after, made, lives, here, taken⟩ := ih lives pair writable room
      exact ⟨next, after, made, lives, here, by simpa [empty] using taken⟩
    unfold SendWindow.available at room
    have fits : connection.window.outstanding +
        (slice.take (min remaining slice.length)).length ≤ connection.window.capacity := by
      rw [length_take]
      omega
    obtain ⟨next, made, lives, pair⟩ := lives.bufferSend pair readyAt writable fits
    dsimp only
    rw [made, bind_some]
    obtain ⟨next, after, made, lives, here, taken⟩ := @ih _ _ _
      (remaining - min remaining slice.length) lives pair writable (by
        simp only [SendWindow.available, Connection.enqueue, length_take]
        omega)
    refine ⟨next, after, made, lives, here, ?_⟩
    have whole : slice.take (min remaining slice.length) = slice.take remaining := by
      rw [← take_take, take_length]
    rw [taken, flatten_cons, take_append, ← whole]
    simp only [Connection.enqueue, append_assoc]
    congr 3
    omega

section

variable (lives : network.Holds course)

include lives

theorem Holds.pollWriteVectored (id : ConnectionId)
    (slices : List (List UInt8)) (readyAt : Duration) {draws : IoDraws}
    (meets : draws.Meets faults network id)
    (may : ∀ reader, draws.Shuts network id reader → course.shuts reader) :
    ∃ poll next, network.pollWriteVectored id slices readyAt draws = some (poll, next) ∧
      next.Holds course ∧ network.Takes next id slices poll := by
  unfold Network.pollWriteVectored
  split
  · exact ⟨_, _, rfl, lives, .same rfl⟩
  dsimp only
  split
  · exact ⟨_, _, rfl, lives, .same rfl⟩
  split
  · exact ⟨_, _, rfl, lives, .same (by split <;> rfl)⟩
  next room =>
    cases found : network.connections id with
    | none => simp [Network.availableSendBytes, found] at room
    | some connection =>
      obtain ⟨peer, other, pair⟩ := lives.paired found
      have available : network.availableSendBytes id = connection.window.available := by
        simp [Network.availableSendBytes, found]
      obtain ⟨closed, made, ⟨lives, _, _, closedPair, kept⟩, holedLives, eased, otherEased,
        holedPair, still⟩ := lives.rollFaults pair meets may
      rw [made, bind_some]
      split
      · exact ⟨_, _, rfl, lives, .none found closedPair.here kept rfl⟩
      split
      · exact ⟨_, _, rfl, holedLives, .none found holedPair.here still rfl⟩
      next open_ =>
        split
        · exact ⟨_, _, rfl, holedLives, .none found holedPair.here still (by split <;> rfl)⟩
        have writable : eased.sendShut = false := by
          by_contra shut
          have shut : eased.sendShut = true := by simpa using shut
          simp [Network.writeGuard, Network.isSendClosed, holedPair.here, shut] at open_
        have fits : min (slices.map length).sum (network.availableSendBytes id) ≤
            eased.window.available := by
          rw [available]
          exact le_trans (min_le_right _ _) still.room
        obtain ⟨next, after, queued, lives, here, taken⟩ :=
          Holds.bufferSlices readyAt slices holedLives holedPair writable fits
        rw [queued]
        refine ⟨_, _, rfl, lives, fun same at_ => ⟨after, here, ?_, ?_⟩⟩
        · rw [length_flatten]
          exact min_le_left _ _
        · cases found.symm.trans at_
          rw [taken, still.accepted]
          rfl

/-! ### Events and actions -/

theorem Holds.handleEvent (event : NetworkEvent)
    {draws : EventDraws} (exact_ : faults.flips = true ∨ ∀ seq, draws.flips seq = []) :
    Endures course (network.handleEvent draws event) := by
  cases event with
  | clogClear id expected | readClogClear id expected =>
    simp only [Network.handleEvent]
    split
    · exact ⟨_, rfl, lives.congr rfl rfl⟩
    · exact lives.endures
  | partitionRestore expected | sendPartitionClear expected | recvPartitionClear expected =>
    exact ⟨_, rfl, Holds.resumeAfterHeal (lives.congr rfl rfl)⟩
  | delivery id seq =>
    simp only [Network.handleEvent, Network.handleDelivery]
    split
    · exact lives.endures
    · exact Holds.deliver id exact_ _ lives
  | processSendBuffer id => exact lives.handleProcessSendBuffer id draws.send

theorem Holds.clogWriteUntil (id : ConnectionId)
    (deadline : Duration) : (network.clogWriteUntil id deadline).Holds course := by
  unfold Network.clogWriteUntil
  split
  · exact lives
  · exact lives.congr rfl rfl

theorem Holds.clogReadUntil (id : ConnectionId)
    (deadline : Duration) : (network.clogReadUntil id deadline).Holds course := by
  unfold Network.clogReadUntil
  split
  · exact lives
  · exact lives.congr rfl rfl

theorem Holds.clogInterface (ip : IpAddr)
    (direction : FaultDirection) (duration : Duration) :
    (network.clogInterface ip direction duration).Holds course := by
  unfold Network.clogInterface
  dsimp only
  generalize saturatingAdd network.now duration = deadline
  refine foldlRecOn _ _ lives fun network lives id _ => ?_
  have sends : (if direction.hitsSend = true then network.clogWriteUntil id deadline
      else network).Holds course := by
    split
    · exact lives.clogWriteUntil id deadline
    · exact lives
  split
  · exact sends.clogReadUntil id deadline
  · exact sends

theorem Holds.startRandomPartition (selected other : List IpAddr)
    (duration : Duration) : (network.startRandomPartition selected other duration).Holds course := by
  unfold Network.startRandomPartition
  dsimp only
  generalize cutting : foldl _ network selected = cut
  have lives : cut.Holds course := by
    rw [← cutting]
    refine foldlRecOn selected _ lives fun network lives source _ => ?_
    refine foldlRecOn other _ lives fun network lives target _ => ?_
    split
    · exact lives
    · exact lives.congr rfl rfl
  exact Holds.holdPartitionedInFlight (lives.congr rfl rfl)

theorem Holds.connectionBaseLatency (id : ConnectionId)
    (sampled : Duration) : (network.connectionBaseLatency id sampled).Holds course := by
  unfold Network.connectionBaseLatency
  split
  · exact lives
  split
  · split
    · exact lives
    · exact lives.congr rfl rfl
  · exact lives

theorem Holds.fire (index : Nat) {draws : EventDraws}
    (exact_ : faults.flips = true ∨ ∀ seq, draws.flips seq = []) :
    Endures course (network.fire index draws) := by
  unfold Network.fire
  split
  · exact lives.endures
  split
  · exact lives.endures
  · refine Holds.handleEvent ?_ _ exact_
    exact lives.congr rfl rfl

theorem Holds.act (action : Action) (meets : action.Meets faults network)
    (may : ∀ reader, action.Shuts network reader → course.shuts reader) :
    Endures course (network.act action) := by
  cases action with
  | fire index draws => exact lives.fire index meets
  | connect client server => exact (lives.createConnectionPair client server).endures
  | discard id => exact (lives.discardConnectionPair id).endures
  | pollRead id len draws =>
    obtain ⟨poll, next, made, lives, -⟩ := lives.pollRead id len meets may
    exact ⟨next, map_eq_some_iff.mpr ⟨_, made, rfl⟩, lives⟩
  | pollWrite id data readyAt draws =>
    obtain ⟨poll, next, made, lives, -⟩ := lives.pollWriteVectored id [data] readyAt meets may
    exact ⟨next, map_eq_some_iff.mpr ⟨_, made, rfl⟩, lives⟩
  | pollWriteVectored id slices readyAt draws =>
    obtain ⟨poll, next, made, lives, -⟩ := lives.pollWriteVectored id slices readyAt meets may
    exact ⟨next, map_eq_some_iff.mpr ⟨_, made, rfl⟩, lives⟩
  | pollClose id => exact (lives.shutdownSend id).endures
  | drop id => exact lives.dropStream id may
  | closeGraceful id => exact lives.closeGraceful id (may id rfl)
  | closeAborted id =>
    obtain ⟨next, made, lives, -⟩ := lives.closeAborted id may
    exact ⟨next, made, lives⟩
  | closeAsymmetric id closeSend closeRecv =>
    cases found : network.connections id with
    | none =>
      rw [Network.act, closeAsymmetric_missing found]
      exact lives.endures
    | some connection =>
      obtain ⟨peer, other, pair⟩ := lives.paired found
      obtain ⟨next, -, -, made, lives, -⟩ :=
        lives.closeAsymmetric pair meets fun hits => may peer ⟨hits, pair.partner⟩
      exact ⟨next, made, lives⟩
  | abortAll ip => exact lives.abortAllConnectionsForIp ip may
  | blackHole id holeSend holeRecv =>
    cases found : network.connections id with
    | none =>
      rw [Network.act, blackHole_missing found]
      exact lives.endures
    | some connection =>
      obtain ⟨peer, other, pair⟩ := lives.paired found
      exact (lives.blackHole meets pair holeSend holeRecv).1.endures
  | clogWrite id duration => exact (lives.clogWriteUntil id _).endures
  | clogRead id duration => exact (lives.clogReadUntil id _).endures
  | clogInterface ip direction duration =>
    exact (lives.clogInterface ip direction duration).endures
  | partitionPair source target duration | partitionSend ip duration | partitionRecv ip duration =>
    exact ⟨_, rfl, Holds.holdPartitionedInFlight (lives.congr rfl rfl)⟩
  | randomPartition selected other duration =>
    exact (lives.startRandomPartition selected other duration).endures
  | restorePartition source target | healAllPartitions =>
    exact ⟨_, rfl, Holds.resumeAfterHeal (lives.congr rfl rfl)⟩
  | baseLatency id sampled => exact (lives.connectionBaseLatency id sampled).endures
  | wait | setSlowFactor | clearSlowFactors | setConfig => exact ⟨_, rfl, lives.congr rfl rfl⟩

end

end Network

variable {faults : Faults} {network later : Network}

/-- A later state of the same network, reached by actions that shut only the ends that `shuts`
allows. -/
inductive Onward (faults : Faults) (shuts : ConnectionId → Prop) (network : Network) :
    Network → Prop where
  | refl : Onward faults shuts network network
  | act {later next : Network} (onward : Onward faults shuts network later) (action : Action)
      (meets : action.Meets faults later)
      (may : ∀ reader, action.Shuts later reader → shuts reader)
      (acted : later.act action = some next) : Onward faults shuts network next

theorem Onward.holds {course : Network.Course faults}
    (onward : Onward faults course.shuts network later) (holds : network.Holds course) :
    later.Holds course := by
  induction onward with
  | refl => exact holds
  | act _ action meets may acted ih =>
    obtain ⟨next, made, lives⟩ := ih.act action meets may
    rw [acted] at made
    rw [some.inj made]
    exact lives

theorem Runs.holds (runs : Runs faults network) : network.Holds (.reach faults) := by
  induction runs with
  | new config =>
    exact .of_pairs (fun _ _ => rfl) (fun _ _ _ _ _ => ⟨_, .refl⟩) fun found => by cases found
  | act _ action meets acted holds =>
    exact (Onward.refl.act action meets (fun _ _ => trivial) acted).holds holds

end Moonpool.Net
