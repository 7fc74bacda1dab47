import Moonpool.Net.Refinement

/-!
Owns that every kind of close keeps the pipes of the network: half-closes, graceful, aborted and
asymmetric closes, black holes, and connections that are made or forgotten.
-/

namespace Moonpool.Net

open Relation

namespace Network

variable {network next : Network} {faults : Faults} {course : Course faults} {id peer : ConnectionId}
  {connection other : Connection} {shuts : Prop}

/-! ### Aborts -/

def resetFlags (connection : Connection) : Connection :=
  { connection with
    closeReason := .aborted
    flags :=
      { connection.flags with
        isClosed := true
        sendClosed := true
        recvClosed := true
        sendInProgress := false
        sendStalled := false
        gracefulClosePending := false } }

section

variable (lives : network.Holds course)

include lives

theorem Holds.resetEnd (pair : network.Pair id peer connection other) (may : course.shuts id) :
    ∃ next reset, resetEnd network id = some next ∧ next.Holds course ∧
      next.Pair id peer reset other ∧ reset.recvShut = true ∧ next.paired = network.paired := by
  have flagged := pair.modify resetFlags
  have flaggedPair := flagged.pair pair rfl rfl
  have forward : Pipe.Moves faults (course.shuts peer) (.of connection other)
      (.of (resetFlags connection) other) := .tail (.single (.shutSend _)) (.abandon _)
  have lives := lives.change pair flagged rfl rfl forward (.single (.shutRecv _ may))
  obtain ⟨emptied, made, lives, changes⟩ :=
    lives.dropQueue flaggedPair rfl nofun
  have emptiedPair := changes.pair flaggedPair rfl rfl
  have both := flagged.trans changes pair.distinct
  obtain ⟨next, reset, lives, changes⟩ := lives.dropFlight emptiedPair rfl rfl rfl
  refine ⟨next, _, ?_, lives, changes.pair emptiedPair rfl rfl, rfl,
    (both.trans changes pair.distinct).paired pair rfl rfl⟩
  have first : (network.modify id resetFlags).discardSendQueue id = some emptied := made
  exact Option.bind_eq_some_iff.mpr ⟨emptied, first, reset⟩

theorem Holds.closeAborted (id : ConnectionId)
    (may : ∀ reader, network.Ends id reader → course.shuts reader) :
    ∃ next, network.closeAborted id = some next ∧ next.Holds course ∧
      next.paired = network.paired := by
  unfold Network.closeAborted
  cases found : network.connections id with
  | none =>
    have alone : network.paired id = none := by simp [Network.paired, found]
    refine ⟨network, ?_, lives, rfl⟩
    simp [alone, Network.resetEnd, Network.modify, Network.discardSendQueue,
      Network.discardInFlight, Network.discardReceiveBuffer, found]
  | some connection =>
    obtain ⟨peer, other, pair⟩ := lives.paired found
    have ends : [some id, network.paired id].reduceOption = [id, peer] := by
      simp [pair.partner]
    rw [ends]
    obtain ⟨first, here, resetHere, lives, pair, shutHere, same⟩ :=
      lives.resetEnd pair (may id (.inl rfl))
    obtain ⟨second, there, resetThere, lives, pair, shutThere, still⟩ :=
      lives.resetEnd pair.symm (may peer (.inr (by rw [← same, pair.partner])))
    obtain ⟨third, dropHere, lives, changes⟩ := lives.dropBuffer pair.symm shutHere
    have kept := changes.paired pair.symm rfl rfl
    have pair := changes.pair pair.symm rfl rfl
    obtain ⟨fourth, dropThere, lives, changes⟩ := lives.dropBuffer pair.symm shutThere
    refine ⟨fourth, ?_, lives, ?_⟩
    · simp [resetHere, resetThere, dropHere, dropThere]
    · rw [changes.paired pair.symm rfl rfl, kept, still, same]

/-! ### Asymmetric closes -/

theorem Holds.shutSends
    (pair : network.Pair id peer connection other) (spares : network.Spares faults id) :
    ∃ next shut, (network.modify id fun connection =>
        { connection with
          flags := { connection.flags with sendClosed := true } }).discardSendQueue id =
          some next ∧ next.Holds course ∧ next.Pair id peer shut other ∧
      connection.Eased shut := by
  have flagged := pair.modify fun connection =>
    { connection with flags := { connection.flags with sendClosed := true } }
  have flaggedPair := flagged.pair pair rfl rfl
  have lives := lives.sender pair flagged rfl (.single (.shutSend _)) rfl
  obtain ⟨next, made, lives, changes⟩ := lives.dropQueue flaggedPair rfl fun spoils pending => by
    rcases spares with allowed | spared
    · rw [spoils] at allowed
      cases allowed
    · exact spared connection pair.here pending
  exact ⟨next, _, made, lives, changes.pair flaggedPair rfl rfl,
    SendWindow.available_le_less _ _, rfl, rfl, rfl, rfl⟩

theorem Holds.shutReceives (pair : network.Pair id peer connection other) (may : course.shuts id) :
    ∃ next shut eased, (network.modify id fun connection =>
        { connection with
          flags := { connection.flags with recvClosed := true } }).discardReceiveBuffer id =
          some next ∧ next.Holds course ∧ next.Pair id peer shut eased ∧ other.Eased eased := by
  have flagged := pair.modify fun connection =>
    { connection with flags := { connection.flags with recvClosed := true } }
  have flaggedPair := flagged.pair pair rfl rfl
  have lives := lives.receiver pair flagged rfl rfl rfl (.single (.shutRecv _ may))
  obtain ⟨next, made, lives, changes⟩ := lives.dropBuffer flaggedPair rfl
  exact ⟨next, _, _, made, lives, changes.pair flaggedPair rfl rfl,
    SendWindow.available_le_less _ _, rfl, rfl, rfl, rfl⟩

end

theorem closeAsymmetric_missing (absent : network.connections id = none)
    (closeSend closeRecv : Bool) :
    network.closeAsymmetric id closeSend closeRecv = some network := by
  have alone : network.paired id = none := by simp [Network.paired, absent]
  cases closeSend <;>
    simp [Network.closeAsymmetric, alone, Network.modify, Network.discardSendQueue, absent]

theorem Holds.closeAsymmetric (lives : network.Holds course)
    (pair : network.Pair id peer connection other) {closeSend closeRecv : Bool}
    (spares : closeSend = true → network.Spares faults id)
    (may : closeRecv = true → course.shuts peer) :
    ∃ next eased otherEased, network.closeAsymmetric id closeSend closeRecv = some next ∧
      next.Holds course ∧ next.Pair id peer eased otherEased ∧ connection.Eased eased := by
  have partner := pair.partner
  -- First the sends.
  have sends : ∃ shut closed, (if closeSend = true then
        (network.modify id fun connection =>
          { connection with
            flags := { connection.flags with sendClosed := true } }).discardSendQueue id
        else some network) = some shut ∧ shut.Holds course ∧ shut.Pair id peer closed other ∧
      connection.Eased closed := by
    split
    next hits =>
      exact lives.shutSends pair (spares hits)
    · exact ⟨network, connection, rfl, lives, pair, .refl _⟩
  obtain ⟨shut, closed, made, lives, pair, first⟩ := sends
  unfold Network.closeAsymmetric
  rw [made, partner]
  dsimp only [Option.bind_some]
  split
  next hits =>
    obtain ⟨next, quiet, eased, made, lives, pair, second⟩ :=
      lives.shutReceives pair.symm (may hits)
    exact ⟨next, eased, quiet, made, lives, pair.symm, first.trans second⟩
  · exact ⟨shut, closed, other, rfl, lives, pair, first⟩

/-! ### Half-closes and graceful closes -/

theorem PutFin.moves {shut sent : Connection} (put : PutFin shut sent)
    (writable : connection.sendShut = false) (drained : connection.sendBuffer = [])
    (same : Pipe.of shut other = { Pipe.of connection other with sendShut := true })
    (flight : shut.flight = connection.flight)
    (discarded : shut.history.discarded = connection.history.discarded)
    (settled : connection.flags.gracefulClosePending = false) :
    Pipe.Moves faults shuts (.of connection other) (.of sent other) := by
  have owed : Pipe.Moves faults shuts (.of connection other)
      { Pipe.of connection other with sendShut := true, finPending := true } :=
    .single (.owe _ writable)
  have put : Pipe.of sent other =
      { Pipe.of connection other with
        sendShut := true
        flight := connection.flight ++ [.fin]
        finPending := false
        finOver := some connection.history.discarded } := by
    rw [put.sender, same, flight, discarded]
    simp only [Pipe.of, ← settled]
  rw [put]
  refine owed.tail ?_
  have empty : connection.queue = [] := by simp [Connection.queue, drained]
  exact Pipe.Move.fin { Pipe.of connection other with sendShut := true, finPending := true } rfl empty

theorem drained_of_idle
    (idle : (connection.flags.sendInProgress || !connection.sendBuffer.isEmpty) = false) :
    connection.sendBuffer = [] := by
  simp only [Bool.or_eq_false_iff, Bool.not_eq_false', List.isEmpty_iff] at idle
  exact idle.2

theorem Holds.shutdownSend (lives : network.Holds course) (id : ConnectionId) :
    (network.shutdownSend id).Holds course := by
  unfold Network.shutdownSend
  cases found : network.connections id with
  | none => exact lives
  | some connection =>
    obtain ⟨peer, other, pair⟩ := lives.paired found
    dsimp only
    split
    · exact lives
    next open_ =>
      have writable : connection.sendShut = false := by simpa [Connection.sendShut] using open_
      have settled := lives.settled pair writable
      split
      next busy =>
        refine lives.sender pair (pair.set _) rfl ?_ rfl
        have owed : Pipe.of { connection with
            flags :=
              { connection.flags with
                sendClosed := true
                gracefulClosePending := connection.flags.gracefulClosePending ||
                  (connection.flags.sendInProgress || !connection.sendBuffer.isEmpty) } } other =
            { Pipe.of connection other with sendShut := true, finPending := true } := by
          simp only [busy, Bool.or_true]
          rfl
        rw [owed]
        exact .single (.owe _ writable)
      next idle =>
        have idle : (connection.flags.sendInProgress || !connection.sendBuffer.isEmpty) = false := by
          simpa using idle
        rw [idle, Bool.or_false]
        have shut := pair.set { connection with flags := { connection.flags with
          sendClosed := true
          gracefulClosePending := connection.flags.gracefulClosePending } }
        have shutPair := shut.pair pair rfl rfl
        obtain ⟨sent, put, changes⟩ := shutPair.putFinInFlight
        refine lives.sender pair (shut.trans changes pair.distinct) put.out ?_ (put.receiver _)
        exact put.moves writable (drained_of_idle idle) rfl rfl rfl settled

def closedFlags (connection : Connection) : Connection :=
  { connection with
    closeReason := .graceful
    flags :=
      { connection.flags with
        isClosed := true
        sendClosed := true
        gracefulClosePending := connection.flags.gracefulClosePending ||
          (!connection.flags.sendClosed &&
            (connection.flags.sendInProgress || !connection.sendBuffer.isEmpty)) } }

theorem closed_backward (connection other : Connection) (may : shuts) :
    Pipe.Moves faults shuts (.of other connection)
      (.of { other with window := other.window.less connection.receiveBuffer.length }
        { closedFlags connection with receiveBuffer := [] }) := by
  have shut : Pipe.Move faults shuts (.of other connection)
      { Pipe.of other connection with recvShut := true } := .shutRecv _ may
  have dropped : Pipe.Move faults shuts { Pipe.of other connection with recvShut := true }
      { Pipe.of other connection with
        recvShut := true
        buffer := []
        outstanding := other.window.outstanding - connection.receiveBuffer.length } :=
    .dropBuffer { Pipe.of other connection with recvShut := true } rfl
  convert ReflTransGen.tail (.single shut) dropped using 1
  simp only [Pipe.of, Connection.recvShut, closedFlags, Bool.or_true]
  rfl

theorem closed_forward (connection other : Connection) (writable : connection.flags.isClosed = false)
    (later : (connection.flags.sendClosed ||
      (connection.flags.sendInProgress || !connection.sendBuffer.isEmpty)) = true) :
    Pipe.Moves faults shuts (.of connection other) (.of (closedFlags connection) other) := by
  cases half : connection.flags.sendClosed with
  | true =>
    have same : Pipe.of (closedFlags connection) other = .of connection other := by
      simp [Pipe.of, closedFlags, Connection.sendShut, Connection.queue, Connection.flight, half]
    rw [same]
  | false =>
    rw [half, Bool.false_or] at later
    have owed : Pipe.of (closedFlags connection) other =
        { Pipe.of connection other with sendShut := true, finPending := true } := by
      simp [Pipe.of, closedFlags, Connection.sendShut, Connection.queue, Connection.flight, half,
        later]
    rw [owed]
    refine .single (.owe _ ?_)
    simp [Pipe.of, Connection.sendShut, half, writable]

section

variable (lives : network.Holds course)

include lives

theorem Holds.closeGraceful (id : ConnectionId) (may : course.shuts id) :
    Endures course (network.closeGraceful id) := by
  unfold Network.closeGraceful
  cases found : network.connections id with
  | none => exact lives.endures
  | some connection =>
    obtain ⟨peer, other, pair⟩ := lives.paired found
    dsimp only
    split
    · exact lives.endures
    next open_ =>
      have writable : connection.flags.isClosed = false := by simpa using open_
      have closed := pair.set (closedFlags connection)
      have closedPair := closed.pair pair rfl rfl
      have counted := lives.counted pair.symm
      obtain ⟨dropped, made, changes⟩ := closedPair.discardReceiveBuffer
        (show connection.receiveBuffer.length ≤ other.window.outstanding by omega)
      have both := closed.trans changes pair.distinct
      have bothPair := changes.pair closedPair rfl rfl
      refine ⟨_, (Option.map_eq_some_iff.mpr ⟨dropped, made, rfl⟩), ?_⟩
      split
      next later =>
        exact lives.change pair both rfl rfl (closed_forward connection other writable later)
          (closed_backward connection other may)
      next now =>
        have now : (connection.flags.sendClosed ||
          (connection.flags.sendInProgress || !connection.sendBuffer.isEmpty)) = false := by
          simpa using now
        obtain ⟨half, idle⟩ := Bool.or_eq_false_iff.mp now
        have open_ : connection.sendShut = false := by simp [Connection.sendShut, half, writable]
        obtain ⟨sent, put, last⟩ := bothPair.putFinInFlight
        refine lives.change pair (both.trans last pair.distinct) put.out rfl ?_ ?_
        · refine put.moves open_ (drained_of_idle idle) ?_ rfl rfl (lives.settled pair open_)
          simp [Pipe.of, closedFlags, Connection.sendShut, Connection.queue, Connection.flight,
            half, idle, Connection.recvShut]
        · rw [put.receiver]
          exact closed_backward connection other may

theorem Holds.dropStream (id : ConnectionId)
    (may : ∀ reader, (Action.drop id).Shuts network reader → course.shuts reader) :
    Endures course (network.dropStream id) := by
  unfold Network.dropStream
  split
  next unread =>
    obtain ⟨next, made, lives, -⟩ :=
      lives.closeAborted id fun reader end_ => may reader (.inr ⟨unread, end_⟩)
    exact ⟨next, made, lives⟩
  · exact lives.closeGraceful id (may id (.inl rfl))

omit lives in
theorem Holds.abortAll {ids : List ConnectionId} {network : Network} (lives : network.Holds course)
    (may : ∀ id ∈ ids, ∀ reader, network.Ends id reader → course.shuts reader) :
    Endures course (ids.foldlM Network.closeAborted network) := by
  induction ids generalizing network with
  | nil => exact lives.endures
  | cons id ids ih =>
    obtain ⟨next, made, lives, same⟩ := lives.closeAborted id (may id List.mem_cons_self)
    rw [List.foldlM_cons, made]
    refine ih lives fun id member reader end_ => may id (List.mem_cons_of_mem _ member) reader ?_
    rwa [Network.Ends, ← same]

theorem Holds.abortAllConnectionsForIp (ip : IpAddr)
    (may : ∀ reader, (Action.abortAll ip).Shuts network reader → course.shuts reader) :
    Endures course (network.abortAllConnectionsForIp ip) := by
  refine lives.abortAll fun id member reader end_ => may reader ?_
  obtain ⟨connection, found, touches⟩ := (Option.any_eq_true _ _).mp (List.mem_filter.mp member).2
  exact ⟨id, connection, found, by simpa using touches, end_⟩

/-! ### Black holes -/

section

variable (allowed : faults.holes = true) (pair : network.Pair id peer connection other)

include allowed pair

theorem Holds.holeSends :
    (network.holeSends id).Holds course ∧
      ∃ holed, (network.holeSends id).Pair id peer holed other ∧ connection.Eased holed := by
  have changes := pair.modify fun connection =>
    { connection with flags := { connection.flags with sendBlackHoled := true } }
  exact ⟨lives.sender pair changes rfl (.single (.hole _ allowed)) rfl, _,
    changes.pair pair rfl rfl, le_refl _, rfl, rfl, rfl, rfl⟩

theorem Holds.blackHole (holeSend holeRecv : Bool) :
    (network.blackHole id holeSend holeRecv).Holds course ∧
      ∃ holed otherHoled, (network.blackHole id holeSend holeRecv).Pair id peer holed otherHoled ∧
        connection.Eased holed := by
  have partner := pair.partner
  have sends : (if holeSend = true then network.holeSends id else network).Holds course ∧
      ∃ holed, (if holeSend = true then network.holeSends id else network).Pair id peer holed
        other ∧ connection.Eased holed := by
    split
    · exact lives.holeSends allowed pair
    · exact ⟨lives, connection, pair, .refl _⟩
  obtain ⟨lives, holed, pair, eased⟩ := sends
  unfold Network.blackHole
  rw [partner]
  dsimp only
  split
  · obtain ⟨lives, otherHoled, pair, -⟩ := lives.holeSends allowed pair.symm
    exact ⟨lives, holed, otherHoled, pair.symm, eased⟩
  · exact ⟨lives, holed, other, pair, eased⟩

end

end

theorem blackHole_missing (absent : network.connections id = none) (holeSend holeRecv : Bool) :
    network.blackHole id holeSend holeRecv = network := by
  have alone : network.paired id = none := by simp [Network.paired, absent]
  cases holeSend <;> simp [Network.blackHole, alone, Network.holeSends, Network.modify, absent]

theorem Holds.rollBlackHole (lives : network.Holds course) {hole : Option FaultDirection}
    (allowed : hole ≠ none → faults.holes = true)
    (pair : network.Pair id peer connection other) :
    (network.rollBlackHole id hole).Holds course ∧
      ∃ holed otherHoled, (network.rollBlackHole id hole).Pair id peer holed otherHoled ∧
        connection.Eased holed := by
  unfold Network.rollBlackHole
  rw [pair.here]
  cases hole with
  | none => exact ⟨lives, connection, other, pair, .refl _⟩
  | some direction =>
    dsimp only
    split
    · exact ⟨lives, connection, other, pair, .refl _⟩
    · exact lives.blackHole (allowed (by simp)) pair _ _

/-! ### Connections made and forgotten -/

theorem Holds.createConnectionPair (lives : network.Holds course) (client server : Option IpAddr) :
    (network.createConnectionPair client server).Holds course := by
  have pair : (network.createConnectionPair client server).Pair network.nextConnectionId
      (network.nextConnectionId + 1)
      { localIp := client
        remoteIp := server
        paired := some (network.nextConnectionId + 1)
        window := .new network.config.tcpSendWindowBytes }
      { localIp := server
        remoteIp := client
        paired := some network.nextConnectionId
        window := .new network.config.tcpSendWindowBytes } := by
    refine ⟨Nat.succ_ne_self _, ?_, ?_, rfl, rfl⟩
    · simp [Network.createConnectionPair, Network.set, Function.update]
    · simp [Network.createConnectionPair, Network.set]
  have elsewhere : ∀ {id}, id ≠ network.nextConnectionId → id ≠ network.nextConnectionId + 1 →
      (network.createConnectionPair client server).connections id = network.connections id := by
    intro id notClient notServer
    simp [Network.createConnectionPair, Network.set, Function.update, notClient, notServer]
  have old : ∀ {id peer connection other}, network.Pair id peer connection other →
      (network.createConnectionPair client server).Pair id peer connection other := by
    intro id peer connection other found
    have stays : ∀ {id connection}, network.connections id = some connection →
        (network.createConnectionPair client server).connections id = some connection := by
      intro id connection at_
      have below : id < network.nextConnectionId := by
        by_contra above
        cases (lives.fresh id (not_lt.mp above)).symm.trans at_
      rw [elsewhere (ne_of_lt below) (ne_of_lt (Nat.lt_succ_of_lt below)), at_]
    exact ⟨found.distinct, stays found.here, stays found.there, found.out, found.back⟩
  refine .of_pairs (fun id above => ?_) (fun id peer capacity above beyond =>
    lives.opens id peer capacity (Nat.le_of_add_right_le above) (Nat.le_of_add_right_le beyond))
    (fun {id connection} at_ => ?_)
  · have beyond : network.nextConnectionId < id := Nat.lt_of_succ_lt above
    rw [elsewhere (ne_of_gt beyond) (ne_of_gt above)]
    exact lives.fresh id (le_of_lt beyond)
  · by_cases isClient : id = network.nextConnectionId
    · subst isClient
      rw [pair.here] at at_
      cases at_
      exact ⟨_, _, pair, lives.opens _ _ _ (le_refl _) (Nat.le_succ _)⟩
    by_cases isServer : id = network.nextConnectionId + 1
    · subst isServer
      rw [pair.there] at at_
      cases at_
      exact ⟨_, _, pair.symm, lives.opens _ _ _ (Nat.le_succ _) (le_refl _)⟩
    · rw [elsewhere isClient isServer] at at_
      obtain ⟨peer, other, found⟩ := lives.paired at_
      exact ⟨peer, other, old found, lives.holds found⟩

theorem Holds.discardConnectionPair (lives : network.Holds course) (id : ConnectionId) :
    (network.discardConnectionPair id).Holds course := by
  cases found : network.connections id with
  | none =>
    refine lives.congr ?_ ?_
    · simp [Network.discardConnectionPair, Network.paired, found, Network.remove,
        Function.update_eq_self_iff]
    · simp [Network.discardConnectionPair, Network.paired, found, Network.remove]
  | some connection =>
    obtain ⟨peer, other, pair⟩ := lives.paired found
    have partner := pair.partner
    have after : ∀ elsewhere, (network.discardConnectionPair id).connections elsewhere =
        if elsewhere = peer then none else if elsewhere = id then none
        else network.connections elsewhere := by
      intro elsewhere
      simp [Network.discardConnectionPair, partner, Network.remove, Function.update_apply]
    have ids : (network.discardConnectionPair id).nextConnectionId = network.nextConnectionId := by
      simp [Network.discardConnectionPair, partner, Network.remove]
    refine .of_pairs (fun elsewhere above => ?_) (ids ▸ lives.opens)
      (fun {elsewhere remaining} at_ => ?_)
    · rw [after, lives.fresh elsewhere (ids ▸ above), ite_self, ite_self]
    · -- What is left was there before, and its partner too.
      have before := at_
      rw [after] at before
      split at before
      · cases before
      next notPeer =>
        split at before
        · cases before
        next notHere =>
          obtain ⟨beyond, second, found⟩ := lives.paired before
          obtain ⟨beyondHere, beyondPeer⟩ := pair.apart found notHere notPeer
          refine ⟨beyond, second, ⟨found.distinct, at_, ?_, found.out, found.back⟩,
            lives.holds found⟩
          rw [after, if_neg beyondPeer, if_neg beyondHere]
          exact found.there

end Network

end Moonpool.Net
