import Moonpool.Net.Pipe

/-!
Owns the link between the network and its pipes: every connection is one end of a pair, each
direction of a pair is a pipe, and a change of the two ends of one pair moves their two pipes
and no other.
-/

namespace Moonpool.Net

def Pipe.of (sender receiver : Connection) : Pipe where
  accepted := sender.history.accepted
  queue := sender.queue
  flight := sender.flight
  buffer := receiver.receiveBuffer
  returned := receiver.history.returned
  capacity := sender.window.capacity
  outstanding := sender.window.outstanding
  swallowed := sender.history.swallowed
  discarded := sender.history.discarded
  finOver := sender.history.finOver
  sendShut := sender.sendShut
  recvShut := receiver.recvShut
  holed := sender.flags.sendBlackHoled
  finPending := sender.flags.gracefulClosePending
  finSeen := receiver.flags.remoteFinReceived

namespace Network

variable {network next : Network} {faults : Faults} {id peer : ConnectionId}
  {connection other changed otherChanged : Connection}

structure Pair (network : Network) (id peer : ConnectionId) (connection other : Connection) :
    Prop where
  distinct : peer ≠ id
  here : network.connections id = some connection
  there : network.connections peer = some other
  out : connection.paired = some peer
  back : other.paired = some id

theorem Pair.symm (pair : network.Pair id peer connection other) :
    network.Pair peer id other connection :=
  ⟨pair.distinct.symm, pair.there, pair.here, pair.back, pair.out⟩

theorem Pair.partner (pair : network.Pair id peer connection other) :
    network.paired id = some peer := by
  simp [Network.paired, pair.here, pair.out]

/-- What holds of the pipe between two ends and every move keeps, where `shuts` says which ends
may be shut. -/
structure Course (faults : Faults) where
  shuts : ConnectionId → Prop
  holds : ConnectionId → ConnectionId → Pipe → Prop
  moves : ∀ {id peer pipe next}, holds id peer pipe →
    Pipe.Moves faults (shuts peer) pipe next → holds id peer next
  reached : ∀ {id peer pipe}, holds id peer pipe → pipe.Reached faults

def Course.reach (faults : Faults) : Course faults :=
  ⟨fun _ => True, fun _ _ pipe => pipe.Reached faults, .moves, fun reached => reached⟩

/-- Every connection is one end of a pair, and every pipe keeps to the course, new ones
included. -/
structure Holds (course : Course faults) (network : Network) : Prop where
  fresh : ∀ id, network.nextConnectionId ≤ id → network.connections id = none
  opens : ∀ id peer capacity, network.nextConnectionId ≤ id → network.nextConnectionId ≤ peer →
    course.holds id peer (.new capacity)
  paired : ∀ {id connection}, network.connections id = some connection →
    ∃ peer other, network.Pair id peer connection other
  holds : ∀ {id peer connection other}, network.Pair id peer connection other →
    course.holds id peer (.of connection other)

variable {course : Course faults}

theorem Pair.congr (pair : next.Pair id peer connection other)
    (connections : next.connections = network.connections) :
    network.Pair id peer connection other := by
  refine ⟨pair.distinct, ?_, ?_, pair.out, pair.back⟩
  · rw [← connections]
    exact pair.here
  · rw [← connections]
    exact pair.there

theorem Holds.congr (lives : network.Holds course)
    (connections : next.connections = network.connections)
    (ids : next.nextConnectionId = network.nextConnectionId) : next.Holds course where
  fresh id below := by
    rw [connections]
    exact lives.fresh id (ids ▸ below)
  opens := ids ▸ lives.opens
  paired {id connection} found := by
    rw [connections] at found
    obtain ⟨peer, other, pair⟩ := lives.paired found
    exact ⟨peer, other, pair.congr connections.symm⟩
  holds pair := lives.holds (pair.congr connections)

structure Changes (network next : Network) (id peer : ConnectionId)
    (changed otherChanged : Connection) : Prop where
  connections : next.connections =
    Function.update (Function.update network.connections id (some changed)) peer
      (some otherChanged)
  ids : next.nextConnectionId = network.nextConnectionId

section

variable (changes : network.Changes next id peer changed otherChanged)

include changes

theorem Changes.there :
    next.connections peer = some otherChanged := by
  rw [changes.connections, Function.update_self]

theorem Changes.here (distinct : peer ≠ id) : next.connections id = some changed := by
  rw [changes.connections, Function.update_of_ne distinct.symm, Function.update_self]

theorem Changes.elsewhere
    {elsewhere : ConnectionId} (notHere : elsewhere ≠ id) (notThere : elsewhere ≠ peer) :
    next.connections elsewhere = network.connections elsewhere := by
  rw [changes.connections, Function.update_of_ne notThere, Function.update_of_ne notHere]

theorem Changes.paired (pair : network.Pair id peer connection other)
    (out : changed.paired = connection.paired) (back : otherChanged.paired = other.paired) :
    next.paired = network.paired := by
  funext elsewhere
  by_cases there : elsewhere = peer
  · simp [Network.paired, there, changes.there, pair.there, back]
  by_cases here : elsewhere = id
  · simp [Network.paired, here, changes.here pair.distinct, pair.here, out]
  · simp [Network.paired, changes.elsewhere here there]

theorem Changes.pair
    (pair : network.Pair id peer connection other) (out : changed.paired = connection.paired)
    (back : otherChanged.paired = other.paired) : next.Pair id peer changed otherChanged where
  distinct := pair.distinct
  here := changes.here pair.distinct
  there := changes.there
  out := out.trans pair.out
  back := back.trans pair.back

end

section

variable (pair : network.Pair id peer connection other) {elsewhere beyond : ConnectionId}
  {first second : Connection} (found : network.Pair elsewhere beyond first second)
  (notHere : elsewhere ≠ id) (notThere : elsewhere ≠ peer)

include pair found notHere notThere

theorem Pair.apart : beyond ≠ id ∧ beyond ≠ peer := by
  constructor
  · rintro rfl
    have same := Option.some.inj (found.there.symm.trans pair.here)
    have back := found.back
    rw [same, pair.out] at back
    exact notThere (Option.some.inj back).symm
  · rintro rfl
    have same := Option.some.inj (found.there.symm.trans pair.there)
    have back := found.back
    rw [same, pair.back] at back
    exact notHere (Option.some.inj back).symm

theorem Changes.other_pair (changes : network.Changes next id peer changed otherChanged) :
    next.Pair elsewhere beyond first second := by
  obtain ⟨beyondHere, beyondThere⟩ := pair.apart found notHere notThere
  refine ⟨found.distinct, ?_, ?_, found.out, found.back⟩
  · rw [changes.elsewhere notHere notThere]
    exact found.here
  · rw [changes.elsewhere beyondHere beyondThere]
    exact found.there

end

theorem Holds.of_pairs (fresh : ∀ id, network.nextConnectionId ≤ id → network.connections id = none)
    (opens : ∀ id peer capacity, network.nextConnectionId ≤ id → network.nextConnectionId ≤ peer →
      course.holds id peer (.new capacity))
    (pairs : ∀ {id connection}, network.connections id = some connection →
      ∃ peer other, network.Pair id peer connection other ∧
        course.holds id peer (.of connection other)) : network.Holds course where
  fresh := fresh
  opens := opens
  paired at_ := by
    obtain ⟨peer, other, pair, -⟩ := pairs at_
    exact ⟨peer, other, pair⟩
  holds pair := by
    obtain ⟨peer, other, same, holds⟩ := pairs pair.here
    cases pair.out.symm.trans same.out
    cases pair.there.symm.trans same.there
    exact holds

theorem Holds.change (lives : network.Holds course)
    (pair : network.Pair id peer connection other)
    (changes : network.Changes next id peer changed otherChanged)
    (out : changed.paired = connection.paired) (back : otherChanged.paired = other.paired)
    (forward : Pipe.Moves faults (course.shuts peer) (.of connection other)
      (.of changed otherChanged))
    (backward : Pipe.Moves faults (course.shuts id) (.of other connection)
      (.of otherChanged changed)) :
    next.Holds course := by
  have there := changes.pair pair out back
  refine .of_pairs (fun elsewhere above => ?_) (changes.ids ▸ lives.opens) (fun {elsewhere found} at_ => ?_)
  · rw [changes.ids] at above
    have absent := lives.fresh elsewhere above
    rw [changes.elsewhere, absent]
    · rintro rfl
      rw [pair.here] at absent
      cases absent
    · rintro rfl
      rw [pair.there] at absent
      cases absent
  · by_cases here : elsewhere = id
    · subst here
      rw [there.here] at at_
      cases at_
      exact ⟨_, _, there, course.moves (lives.holds pair) forward⟩
    by_cases far : elsewhere = peer
    · subst far
      rw [there.there] at at_
      cases at_
      exact ⟨_, _, there.symm, course.moves (lives.holds pair.symm) backward⟩
    · rw [changes.elsewhere here far] at at_
      obtain ⟨beyond, second, before⟩ := lives.paired at_
      exact ⟨beyond, second, changes.other_pair pair before here far, lives.holds before⟩

end Network

end Moonpool.Net
