import Moonpool.Net.Carrying

/-!
Owns what holds of every run of the network: a reader gets a prefix of what its peer wrote, the
window accounts for every byte and its assertions never fire, and the end of a stream is the end
of what was written.
-/

namespace Moonpool.Net

open Network Option List

variable {faults : Faults} {network : Network} {reader writer : ConnectionId}
  {receiver sender : Connection}

theorem Runs.reached (runs : Runs faults network)
    (written : network.connections writer = some sender) (towards : sender.paired = some reader)
    (read : network.connections reader = some receiver) : (Pipe.of sender receiver).Reached faults := by
  obtain ⟨peer, other, pair⟩ := runs.holds.paired written
  cases pair.out.symm.trans towards
  cases pair.there.symm.trans read
  exact runs.holds.holds pair

theorem Runs.acts {script : List Action} {next : Network} (runs : Runs faults network)
    (meets : ∀ action ∈ script, ∀ network, action.Meets faults network)
    (ran : network.acts script = some next) : Runs faults next := by
  induction script generalizing network with
  | nil => rwa [← some.inj ran]
  | cons action actions ih =>
    obtain ⟨middle, acted, rest⟩ := bind_eq_some_iff.mp ran
    exact ih (runs.act action (meets action mem_cons_self network) acted)
      (fun action member => meets action (mem_cons_of_mem _ member)) rest

/-- Without bit flips, what an end's reads returned is a prefix of what its peer's writes
accepted, where a write accepts and a read returns exactly the bytes that its poll reports: the
first of what it was given, and the first that were not read yet. -/
theorem reads_are_prefix_of_writes (exact_ : faults.flips = false) (runs : Runs faults network)
    (written : network.connections writer = some sender) (towards : sender.paired = some reader)
    (read : network.connections reader = some receiver) :
    receiver.history.returned <+: sender.history.accepted ∧
    (∀ slices readyAt draws, draws.Meets faults network writer → ∃ poll next,
      network.pollWriteVectored writer slices readyAt draws = some (poll, next) ∧
        network.Takes next writer slices poll) ∧
    ∀ len draws, draws.Meets faults network reader → ∃ poll next,
      network.pollRead reader len draws = some (poll, next) ∧ network.Gives next reader poll := by
  refine ⟨((runs.reached written towards read).ordered exact_).returned,
    fun slices readyAt draws meets => ?_, fun len draws meets => ?_⟩
  · obtain ⟨poll, next, made, -, takes⟩ :=
      runs.holds.pollWriteVectored writer slices readyAt meets fun _ _ => trivial
    exact ⟨poll, next, made, takes⟩
  · obtain ⟨poll, next, made, -, gives⟩ :=
      runs.holds.pollRead reader len meets fun _ _ => trivial
    exact ⟨poll, next, made, gives⟩

def smallConfig : Config := ⟨4, 1000, 1000, by decide⟩

def calm : IoDraws := ⟨none, none, none⟩

@[simp] theorem calm_meets (faults : Faults) (network : Network) (id : ConnectionId) :
    calm.Meets faults network id := by
  constructor <;> simp [calm]

def calmEvent : EventDraws := ⟨⟨0, none⟩, fun _ => []⟩

/-- The client writes more than the window takes, and the server reads part of it. -/
def shortRead : List Action :=
  [.connect none none, .pollWrite 0 [1, 2, 3, 4, 5] 0 calm, .fire 0 calmEvent, .fire 0 calmEvent,
   .pollRead 1 3 calm]

theorem runs_shortRead (ran : (Network.new smallConfig).acts shortRead = some network) :
    Runs ⟨false, false, false⟩ network :=
  (Runs.new smallConfig).acts (by simp [shortRead, Action.Meets, Network.Spares, calmEvent]) ran

/-- Three bytes of the four accepted were read, and one more read returns the fourth. -/
theorem shortRead_is_prefix :
    ∃ network receiver sender, (Network.new smallConfig).acts shortRead = some network ∧
      network.connections 1 = some receiver ∧ network.connections 0 = some sender ∧
      receiver.history.returned = [1, 2, 3] ∧ sender.history.accepted = [1, 2, 3, 4] ∧
      receiver.history.returned <+: sender.history.accepted ∧
      ∃ poll next after, network.pollRead 1 3 calm = some (poll, next) ∧ poll.reported = 1 ∧
        next.connections 1 = some after ∧ after.history.returned = [1, 2, 3, 4] := by
  have seen : (((new smallConfig).acts shortRead).bind fun network =>
      (network.connections 1).bind fun receiver => (network.connections 0).bind fun sender =>
        (network.pollRead 1 3 calm).map fun polled =>
          (receiver.history.returned, receiver.receiveBuffer, sender.history.accepted,
            sender.paired, polled.1.reported)) =
      some ([1, 2, 3], [4], [1, 2, 3, 4], some 1, 1) := by decide
  obtain ⟨network, ran, seen⟩ := bind_eq_some_iff.mp seen
  obtain ⟨receiver, read, seen⟩ := bind_eq_some_iff.mp seen
  obtain ⟨sender, written, seen⟩ := bind_eq_some_iff.mp seen
  obtain ⟨polled, made, seen⟩ := map_eq_some_iff.mp seen
  simp only [Prod.mk.injEq] at seen
  obtain ⟨returned, unread, accepted, towards, reported⟩ := seen
  obtain ⟨begins, -, gives⟩ :=
    reads_are_prefix_of_writes rfl (runs_shortRead ran) written towards read
  obtain ⟨poll, next, same, gives⟩ := gives 3 calm (calm_meets _ _ _)
  cases made.symm.trans same
  obtain ⟨after, bytes, here, first, size, grown⟩ := gives receiver read
  have fourth : bytes = [4] := by
    rw [reported] at size
    rw [unread] at first
    exact first.eq_of_length size
  rw [returned, fourth] at grown
  exact ⟨network, receiver, sender, ran, read, written, returned, accepted, begins, poll, next,
    after, made, reported, here, grown⟩

/-- Between two ends nothing is lost, doubled or overtaken: what was read, what landed, what is in
flight and what is queued begins what was written, and is all of it until the writer shuts. -/
theorem transit_conserves_stream (exact_ : faults.flips = false) (runs : Runs faults network)
    (written : network.connections writer = some sender) (towards : sender.paired = some reader)
    (read : network.connections reader = some receiver) (reading : receiver.recvShut = false)
    (whole : sender.flags.sendBlackHoled = false) :
    receiver.history.returned ++ receiver.receiveBuffer ++
        sender.flight.flatMap InFlightPayload.bytes ++ sender.queue <+: sender.history.accepted ∧
      (sender.sendShut = false →
        receiver.history.returned ++ receiver.receiveBuffer ++
          sender.flight.flatMap InFlightPayload.bytes ++ sender.queue = sender.history.accepted) :=
  have ordered := (runs.reached written towards read).ordered exact_
  ⟨ordered.upcoming reading whole, ordered.complete reading whole⟩

/-- The server read three bytes; the fourth waits in its buffer. -/
theorem transit_conserves_shortRead :
    ∃ network receiver sender, (Network.new smallConfig).acts shortRead = some network ∧
      network.connections 1 = some receiver ∧ network.connections 0 = some sender ∧
      receiver.history.returned = [1, 2, 3] ∧
      receiver.history.returned ++ receiver.receiveBuffer ++
        sender.flight.flatMap InFlightPayload.bytes ++ sender.queue = sender.history.accepted := by
  have seen : (((new smallConfig).acts shortRead).bind fun network =>
      (network.connections 1).bind fun receiver => (network.connections 0).map fun sender =>
        (receiver.history.returned, sender.paired, receiver.recvShut,
          sender.flags.sendBlackHoled, sender.sendShut)) =
      some ([1, 2, 3], some 1, false, false, false) := by decide
  obtain ⟨network, ran, seen⟩ := bind_eq_some_iff.mp seen
  obtain ⟨receiver, read, seen⟩ := bind_eq_some_iff.mp seen
  obtain ⟨sender, written, seen⟩ := map_eq_some_iff.mp seen
  simp only [Prod.mk.injEq] at seen
  obtain ⟨returned, towards, reading, whole, writing⟩ := seen
  exact ⟨network, receiver, sender, ran, read, written, returned,
    (transit_conserves_stream rfl (runs_shortRead ran) written towards read reading whole).2 writing⟩

/-- What held between two ends has moved on from there, and no action has shut `reader`. -/
def Network.Course.since (faults : Faults) (network : Network) (reader : ConnectionId) :
    Course faults where
  shuts id := id ≠ reader
  holds id peer pipe := pipe.Reached faults ∧
    (network.nextConnectionId ≤ peer ∨ ∃ connection other,
      network.Pair id peer connection other ∧
        Pipe.Moves faults (peer ≠ reader) (.of connection other) pipe)
  moves := fun ⟨reached, before⟩ moves => ⟨reached.moves moves, before.imp_right
    fun ⟨connection, other, pair, earlier⟩ => ⟨connection, other, pair, earlier.trans moves⟩⟩
  reached holds := holds.1

def anyFault : Faults := ⟨true, true, true⟩

theorem meets_anyFault (network : Network) (action : Action) : action.Meets anyFault network := by
  have spares : ∀ id, network.Spares anyFault id := fun _ => .inl rfl
  have draws : ∀ (draws : IoDraws) (id : ConnectionId), draws.Meets anyFault network id :=
    fun _ id => ⟨fun _ _ _ _ => spares id, fun _ => rfl⟩
  cases action with
  | fire index events => exact .inl rfl
  | pollRead id len io => exact draws io id
  | pollWrite id data readyAt io => exact draws io id
  | pollWriteVectored id slices readyAt io => exact draws io id
  | closeAsymmetric id closeSend closeRecv => exact fun _ => spares id
  | blackHole id holeSend holeRecv => rfl
  | wait | connect | discard | pollClose | drop | closeGraceful | closeAborted | abortAll
  | clogWrite | clogRead | clogInterface | partitionPair | partitionSend | partitionRecv
  | randomPartition | restorePartition | healAllPartitions | baseLatency | setSlowFactor
  | clearSlowFactors | setConfig => trivial

/-- The outstanding bytes of a direction are those queued, in flight, unread or swallowed by a black
hole; they never exceed the window, and no assertion of it fires. -/
theorem window_accounts_for_every_byte (runs : Runs anyFault network) :
    (∀ {writer reader sender receiver}, network.connections writer = some sender →
      sender.paired = some reader → network.connections reader = some receiver →
      sender.window.outstanding = sender.queuedBytes + sender.inFlightBytes +
        receiver.receiveBuffer.length + sender.history.swallowed ∧
      sender.window.outstanding ≤ sender.window.capacity) ∧
    (∀ writer sender, network.connections writer = some sender →
      ∃ reader receiver, sender.paired = some reader ∧
        network.connections reader = some receiver) ∧
    ∀ action, (network.act action).isSome = true := by
  have lives := runs.holds
  refine ⟨fun {writer reader sender receiver} written towards read => ?_,
    fun writer sender written => ?_, fun action => ?_⟩
  · have counted := (runs.reached written towards read).balanced.counted
    rw [← Connection.length_queue, ← Connection.length_flight]
    exact ⟨counted, sender.window.bounded⟩
  · obtain ⟨reader, receiver, pair⟩ := lives.paired written
    exact ⟨reader, receiver, pair.out, pair.there⟩
  · obtain ⟨next, acted, -⟩ := lives.act action (meets_anyFault network action) fun _ _ => trivial
    rw [acted]
    rfl

/-- The server's window is full, and the client was black-holed and reset. -/
def holedAndReset : List Action :=
  [.connect none none, .pollWrite 1 [1, 2, 3, 4, 5] 0 calm, .pollWrite 0 [6, 7] 0 calm,
   .fire 1 calmEvent, .blackHole 0 true false, .fire 1 calmEvent, .pollWrite 0 [8] 0 calm,
   .closeAborted 0]

theorem holedAndReset_accounts :
    ∃ network sender, (Network.new smallConfig).acts holedAndReset = some network ∧
      network.connections 0 = some sender ∧ sender.window.outstanding = 2 ∧
      sender.history.swallowed = 2 ∧ (network.act (.closeAborted 1)).isSome = true := by
  have seen : (((new smallConfig).acts holedAndReset).bind fun network =>
      (network.connections 0).map fun sender =>
        (sender.window.outstanding, sender.history.swallowed)) = some (2, 2) := by decide
  obtain ⟨network, ran, seen⟩ := bind_eq_some_iff.mp seen
  obtain ⟨sender, written, seen⟩ := map_eq_some_iff.mp seen
  simp only [Prod.mk.injEq] at seen
  have runs : Runs anyFault network :=
    (Runs.new smallConfig).acts (fun action _ network => meets_anyFault network action) ran
  exact ⟨network, sender, ran, written, seen.1, seen.2,
    (window_accounts_for_every_byte runs).2.2 (.closeAborted 1)⟩

namespace Network

theorem one_le_partialLength {available most : Nat} (some_ : 1 ≤ available) (short : Option Nat) :
    1 ≤ partialLength available most short := by
  unfold partialLength
  split
  · exact some_
  dsimp only
  split
  · omega
  · exact some_

variable {id : ConnectionId} {next : Network} {connection : Connection}

theorem read_ne_nil {len : Nat} {short : Option Nat} {bytes : List UInt8}
    (found : network.connections id = some connection) (filled : connection.receiveBuffer ≠ [])
    (wanted : 0 < len) (made : network.read id len short = some (.ok bytes, next)) :
    bytes ≠ [] := by
  have size : 1 ≤ connection.receiveBuffer.length := length_pos_iff.mpr filled
  have limit := @one_le_partialLength (min len connection.receiveBuffer.length)
    network.config.partialReadMaxBytes (by omega) short
  have taken : bytes = connection.receiveBuffer.take
      (partialLength (min len connection.receiveBuffer.length)
        network.config.partialReadMaxBytes short) := by
    simp only [read, found] at made
    split at made
    · cases made
      rfl
    · obtain ⟨_, _, same⟩ := map_eq_some_iff.mp made
      cases same
      rfl
  rw [taken]
  intro none
  have short := congrArg length none
  rw [length_take, length_nil] at short
  omega

section

variable (found : network.connections id = some connection) (reading : connection.recvShut = false)

include found reading

theorem isRecvClosed_eq_false : network.isRecvClosed id = false := by
  simp [isRecvClosed, found, reading]

theorem fin_of_terminal (ended : network.readTerminalResult id = some (.ok 0)) :
    connection.flags.remoteFinReceived = true := by
  have open_ : connection.flags.isClosed = false := (Bool.or_eq_false_iff.mp reading).2
  by_contra unseen
  simp [readTerminalResult, isClosed, found, open_, unseen] at ended

end

section

variable (lives : network.Holds (.reach faults)) {len : Nat} {draws : IoDraws}
  (found : network.connections id = some connection) (reading : connection.recvShut = false)

include lives found reading

theorem fin_of_pollReadNoData
    (ended : network.pollReadNoData id len draws = some (.ready (.ok 0), next)) :
    connection.flags.remoteFinReceived = true := by
  unfold pollReadNoData at ended
  split at ended
  next result terminal =>
    cases ended
    exact fin_of_terminal found reading terminal
  · split at ended
    · cases ended
    · obtain ⟨peer, other, pair⟩ := lives.paired found
      have counted := lives.counted pair.symm
      obtain ⟨after, bytes, rest, made, -, changes⟩ := @Pair.read _ _ _ _ _ pair len draws.short
        (show connection.receiveBuffer.length ≤ other.window.outstanding by omega)
      rw [made] at ended
      dsimp only at ended
      split at ended
      next some_ =>
        simp only [Option.some.injEq, Prod.mk.injEq, Poll.ready.injEq, Except.ok.injEq] at ended
        omega
      · split at ended
        next result terminal =>
          cases ended
          have seen := fin_of_terminal (changes.here pair.distinct) reading terminal
          exact seen
        · cases ended

theorem fin_of_pollRead (meets : draws.Meets faults network id) (wanted : 0 < len)
    (ended : network.pollRead id len draws = some (.ready (.ok 0), next)) :
    connection.flags.remoteFinReceived = true ∧ connection.receiveBuffer = [] := by
  unfold pollRead at ended
  rw [if_neg (ne_of_gt wanted)] at ended
  split at ended
  · cases ended
  rw [isRecvClosed_eq_false found reading] at ended
  simp only [Bool.false_eq_true, ↓reduceIte] at ended
  split at ended
  · split at ended <;> cases ended
  split at ended
  next empty =>
    refine ⟨fin_of_pollReadNoData lives found reading ended, ?_⟩
    simpa [hasReadableData, found] using empty
  next filled =>
    have filled : connection.receiveBuffer ≠ [] := by
      simpa [hasReadableData, found] using filled
    obtain ⟨peer, other, pair⟩ := lives.paired found
    obtain ⟨closed, made, -, -, eased, otherEased, holed, kept⟩ :=
      lives.rollFaults pair meets fun _ _ => trivial
    rw [made, bind_some] at ended
    split at ended
    · cases ended
    -- The faults of this poll leave what it reads, so it reads something.
    unfold pollReadData at ended
    rw [isRecvClosed_eq_false holed.here (kept.recvShut.trans reading)] at ended
    split at ended
    · cases ended
    obtain ⟨⟨result, after⟩, did, same⟩ := map_eq_some_iff.mp ended
    cases result with
    | error error => cases same
    | ok bytes =>
      have some_ := read_ne_nil holed.here (by rwa [kept.buffer]) wanted did
      simp only [Except.map, Prod.mk.injEq, Poll.ready.injEq, Except.ok.injEq,
        length_eq_zero_iff] at same
      exact absurd same.1 some_

end

end Network

/-- Without black holes, and where no send side is shut while its FIN waits: a FIN goes out only if
nothing was discarded, and a reader sees the end of the stream only once it has every byte. -/
theorem end_of_stream_is_truthful (holes : faults.holes = false) (spoils : faults.spoils = false)
    (runs : Runs faults network) (written : network.connections writer = some sender)
    (towards : sender.paired = some reader) (read : network.connections reader = some receiver) :
    (∀ lost, sender.history.finOver = some lost → lost = []) ∧
    (receiver.flags.remoteFinReceived = true → receiver.recvShut = false →
      sender.history.accepted.length =
        receiver.history.returned.length + receiver.receiveBuffer.length) ∧
    ∀ len draws next, 0 < len → draws.Meets faults network reader →
      receiver.recvShut = false →
      network.pollRead reader len draws = some (.ready (.ok 0), next) →
      sender.history.accepted.length = receiver.history.returned.length := by
  have truthful := (runs.reached written towards read).truthful holes spoils
  refine ⟨truthful.clean, truthful.all_readable, fun len draws next wanted meets open_ ended => ?_⟩
  obtain ⟨seen, empty⟩ := Network.fin_of_pollRead runs.holds read open_ meets wanted ended
  have all := truthful.all_readable seen open_
  simpa [Pipe.of, empty] using all

def Poll.isEnd : Poll → Bool
  | ready (.ok 0) => true
  | _ => false

theorem Poll.eq_of_isEnd {poll : Poll} (ended : poll.isEnd = true) : poll = .ready (.ok 0) := by
  unfold Poll.isEnd at ended
  split at ended
  · rfl
  · cases ended

theorem reads_end {script : List Action} (ran : (new smallConfig).acts script = some network)
    (ended : (((new smallConfig).acts script).bind fun network =>
      network.pollRead 1 8 calm).map (fun polled => polled.1.isEnd) = some true) :
    ∃ next, network.pollRead 1 8 calm = some (.ready (.ok 0), next) := by
  rw [ran, bind_some] at ended
  obtain ⟨⟨poll, next⟩, polled, ended⟩ := map_eq_some_iff.mp ended
  exact ⟨next, Poll.eq_of_isEnd ended ▸ polled⟩

/-- A whole exchange: two bytes, the half-close, the FIN, and both read. -/
def wholeStream : List Action :=
  [.connect none none, .pollWrite 0 [1, 2] 0 calm, .pollClose 0, .fire 0 calmEvent,
   .fire 0 calmEvent, .pollRead 1 8 calm, .wait 1, .fire 0 calmEvent]

theorem wholeStream_is_read_to_its_end :
    ∃ network receiver sender next, (Network.new smallConfig).acts wholeStream = some network ∧
      network.connections 1 = some receiver ∧ network.connections 0 = some sender ∧
      network.pollRead 1 8 calm = some (.ready (.ok 0), next) ∧
      sender.history.accepted.length = receiver.history.returned.length := by
  have seen : (((new smallConfig).acts wholeStream).bind fun network =>
      (network.connections 1).bind fun receiver => (network.connections 0).map fun sender =>
        (receiver.recvShut, sender.paired)) = some (false, some 1) := by decide
  obtain ⟨network, ran, seen⟩ := bind_eq_some_iff.mp seen
  obtain ⟨receiver, read, seen⟩ := bind_eq_some_iff.mp seen
  obtain ⟨sender, written, seen⟩ := map_eq_some_iff.mp seen
  simp only [Prod.mk.injEq] at seen
  obtain ⟨next, polled⟩ := reads_end ran (by decide)
  have runs : Runs ⟨false, false, false⟩ network :=
    (Runs.new smallConfig).acts (by simp [wholeStream, Action.Meets, Network.Spares, calmEvent]) ran
  have truthful := end_of_stream_is_truthful rfl rfl runs written seen.2 read
  exact ⟨network, receiver, sender, next, ran, read, written, polled,
    truthful.2.2 8 calm next (by decide) (calm_meets _ _ _) seen.1 polled⟩

/-- The same, but the send side is shut before its queue went out. -/
def spoiledStream : List Action :=
  [.connect none none, .pollWrite 0 [1, 2] 0 calm, .pollClose 0, .closeAsymmetric 0 true false,
   .fire 0 calmEvent, .wait 1, .fire 0 calmEvent]

/-- The owed FIN still goes out: the reader sees the end of a stream that lost both bytes. -/
theorem spoiledStream_ends_truncated :
    ∃ network receiver sender next, (Network.new smallConfig).acts spoiledStream = some network ∧
      Runs ⟨false, false, true⟩ network ∧
      network.connections 1 = some receiver ∧ network.connections 0 = some sender ∧
      sender.paired = some 1 ∧ receiver.recvShut = false ∧
      sender.history.finOver = some [1, 2] ∧
      network.pollRead 1 8 calm = some (.ready (.ok 0), next) ∧
      sender.history.accepted = [1, 2] ∧ receiver.history.returned = [] := by
  have seen : (((new smallConfig).acts spoiledStream).bind fun network =>
      (network.connections 1).bind fun receiver => (network.connections 0).map fun sender =>
        (sender.paired, receiver.recvShut, sender.history.finOver, sender.history.accepted,
          receiver.history.returned)) = some (some 1, false, some [1, 2], [1, 2], []) := rfl
  obtain ⟨network, ran, seen⟩ := bind_eq_some_iff.mp seen
  obtain ⟨receiver, read, seen⟩ := bind_eq_some_iff.mp seen
  obtain ⟨sender, written, seen⟩ := map_eq_some_iff.mp seen
  simp only [Prod.mk.injEq] at seen
  obtain ⟨next, polled⟩ := reads_end ran (by decide)
  have runs : Runs ⟨false, false, true⟩ network :=
    (Runs.new smallConfig).acts (by simp [spoiledStream, Action.Meets, Network.Spares, calmEvent]) ran
  obtain ⟨towards, open_, past, accepted, returned⟩ := seen
  exact ⟨network, receiver, sender, next, ran, runs, read, written, towards, open_, past, polled,
    accepted, returned⟩

end Moonpool.Net
