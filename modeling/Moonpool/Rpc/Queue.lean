import Moonpool.Rpc.Connection

/-!
Owns what each section of a connection does to its queued requests and to what is known of
the session: who takes requests out, who puts them in, and that everything else leaves them
alone or closes the connection, which discards them.
-/

namespace Moonpool.Rpc.Connection

/-- What the handshake and the selection established is the same. -/
structure SameSession (before after : Connection) : Prop where
  id : after.id = before.id
  direction : after.direction = before.direction
  established : after.established = before.established
  peerContext : after.peerContext = before.peerContext
  peerHello : after.peerHello = before.peerHello
  peerAddress : after.peerAddress = before.peerAddress

theorem SameSession.refl (connection : Connection) : SameSession connection connection :=
  ⟨rfl, rfl, rfl, rfl, rfl, rfl⟩

/-- The queued requests are as they were, or the connection closed and discarded them. -/
structure Calm (before after : Connection) : Prop extends SameSession before after where
  requests : (after.requests = before.requests ∧ after.closed = before.closed) ∨
    (after.requests = [] ∧ ∃ reason, reason.isConnectFailed = false ∧
      after.closed = some (before.closed.getD reason))

variable {connection : Connection}

theorem Calm.of_same {before after : Connection} (same : SameSession before after)
    (requests : after.requests = before.requests) (closed : after.closed = before.closed) :
    Calm before after :=
  { same with requests := .inl ⟨requests, closed⟩ }

section

variable (connection)

theorem enlist_eq (source : Source) :
    ∃ turns, connection.enlist source = { connection with turns } := by
  unfold enlist
  split
  · exact ⟨connection.turns, rfl⟩
  · exact ⟨_, rfl⟩

theorem calm_close {reason : CloseReason}
    (unfailed : reason.isConnectFailed = false) : Calm connection (connection.close reason) :=
  { SameSession.refl connection with requests := .inr ⟨rfl, reason, unfailed, rfl⟩ }

theorem calm_pushControl (frame : List UInt8) :
    Calm connection (connection.pushControl frame).1 := by
  unfold pushControl
  split
  · exact .of_same (.refl _) rfl rfl
  · split
    · exact calm_close connection rfl
    · exact .of_same ⟨rfl, rfl, rfl, rfl, rfl, rfl⟩ rfl rfl

theorem calm_signalCancel (call : CallId) :
    Calm connection (connection.signalCancel call) := by
  unfold signalCancel
  split
  · exact .of_same (.refl _) rfl rfl
  · exact .of_same ⟨rfl, rfl, rfl, rfl, rfl, rfl⟩ rfl rfl

theorem calm_closeIfIdle (now idle : Duration) (selected : Bool) :
    Calm connection (connection.closeIfIdle now idle selected).1 := by
  unfold closeIfIdle
  simp only
  generalize (if selected = true then connection.lastUsed else connection.lastReceived) = since
  split
  next quiet =>
    obtain ⟨opened, -, empty, -⟩ := quiet
    have opened : connection.closed = none := by simpa [isClosed] using opened
    refine ⟨⟨rfl, rfl, rfl, rfl, rfl, rfl⟩, .inr ⟨empty, .idle, rfl, ?_⟩⟩
    rw [opened]
    rfl
  · exact .of_same (.refl _) rfl rfl

theorem calm_carry (traffic : Traffic) :
    Calm connection (connection.carry traffic) := by
  have rest : Calm connection connection := .of_same (.refl _) rfl rfl
  have listed : ∀ (next : Connection) (source : Source), Calm connection next →
      Calm connection (next.enlist source) := by
    intro next source calm
    obtain ⟨turns, same⟩ := enlist_eq next source
    rw [same]
    exact { calm with }
  cases traffic with
  | control frame => exact calm_pushControl connection frame
  | reply frame release | streamFrame call frame =>
    simp only [carry, pushReply, pushStreamFrame]
    split
    next pushed =>
      split at pushed
      · cases pushed
      · cases pushed
        exact listed _ _ (.of_same ⟨rfl, rfl, rfl, rfl, rfl, rfl⟩ rfl rfl)
    · exact rest
  | register call core | ack call consumed =>
    simp only [carry, registerStream, signalAck]
    split
    · exact rest
    · exact .of_same ⟨rfl, rfl, rfl, rfl, rfl, rfl⟩ rfl rfl
  | remove call discard =>
    cases discard <;> exact .of_same ⟨rfl, rfl, rfl, rfl, rfl, rfl⟩ rfl rfl
  | cancel call => exact calm_signalCancel connection call
  | noted now | owed count => exact .of_same ⟨rfl, rfl, rfl, rfl, rfl, rfl⟩ rfl rfl

theorem retract_spec (call : CallId) :
    SameSession connection (connection.retract call).1 ∧
      (connection.retract call).1.closed = connection.closed ∧
      (connection.retract call).1.requests =
        connection.requests.filter (fun request => request.2 ≠ some call) ∧
      ((connection.retract call).2 = true →
        ∃ request ∈ connection.requests, request.2 = some call) := by
  unfold retract
  simp only
  split
  · exact ⟨⟨rfl, rfl, rfl, rfl, rfl, rfl⟩, rfl, rfl, nofun⟩
  next filled =>
    have found : ∃ request ∈ connection.requests, request.2 = some call := by
      by_contra none
      apply filled
      have empty : connection.requests.filter (fun request => request.2 = some call) = [] := by
        rw [List.filter_eq_nil_iff]
        intro request member held
        exact none ⟨request, member, of_decide_eq_true held⟩
      rw [empty]
      rfl
    split
    · exact ⟨⟨rfl, rfl, rfl, rfl, rfl, rfl⟩, rfl, rfl, fun _ => found⟩
    · exact ⟨⟨rfl, rfl, rfl, rfl, rfl, rfl⟩, rfl, rfl, fun _ => found⟩

end

theorem pushRequest_ok {after : Connection} {frame : List UInt8} {call : Option CallId}
    {runtime : Nat} {now : Duration}
    (pushed : connection.pushRequest frame call runtime now = .ok after) :
    SameSession connection after ∧ connection.closed = none ∧ after.closed = none ∧
      after.requests = connection.requests ++ [(frame, call)] := by
  unfold pushRequest at pushed
  split at pushed
  · cases pushed
  next opened =>
    have opened : connection.closed = none := by simpa [isClosed] using opened
    split at pushed
    · cases pushed
    cases pushed
    obtain ⟨turns, same⟩ := enlist_eq { (connection.addBytes frame.length true) with
      requests := (connection.addBytes frame.length true).requests ++ [(frame, call)] } .requests
    simp only [same]
    exact ⟨⟨rfl, rfl, rfl, rfl, rfl, rfl⟩, opened, opened, rfl⟩

theorem adoptRequests_spec (connection : Connection) (moved : List QueuedRequest)
    (now : Duration) :
    SameSession connection (connection.adoptRequests moved now).1 ∧
      (connection.adoptRequests moved now).1.closed = connection.closed ∧
      ((connection.adoptRequests moved now).2 = true ↔ connection.isClosed = false) ∧
      (connection.adoptRequests moved now).1.requests =
        if connection.isClosed then connection.requests else connection.requests ++ moved := by
  unfold adoptRequests
  split
  next closed => exact ⟨.refl _, rfl, by simp [closed], rfl⟩
  next opened =>
    simp only
    split
    · exact ⟨⟨rfl, rfl, rfl, rfl, rfl, rfl⟩, rfl, by simpa using opened, rfl⟩
    obtain ⟨turns, same⟩ := enlist_eq { (connection.addBytes
      (moved.map fun request => request.1.length).sum true) with
      requests := (connection.addBytes
        (moved.map fun request => request.1.length).sum true).requests ++ moved } .requests
    simp only [same]
    exact ⟨⟨rfl, rfl, rfl, rfl, rfl, rfl⟩, rfl, by simpa using opened, rfl⟩

/-- A poll takes the first request of an established session, or none. -/
structure Serves (before after : Connection) (outgoing : Option Outgoing) : Prop
    extends SameSession before after where
  closed : after.closed = before.closed
  requests : (∃ bytes call release, outgoing = some ⟨bytes, .request call, release⟩ ∧
      before.established = true ∧ before.requests = (bytes, call) :: after.requests) ∨
    ((∀ bytes call release, outgoing ≠ some ⟨bytes, .request call, release⟩) ∧
      after.requests = before.requests)

theorem Serves.quiet {before after : Connection} {outgoing : Option Outgoing}
    (same : SameSession before after) (closed : after.closed = before.closed)
    (requests : after.requests = before.requests)
    (other : ∀ bytes call release, outgoing ≠ some ⟨bytes, .request call, release⟩) :
    Serves before after outgoing :=
  { same with closed, requests := .inr ⟨other, requests⟩ }

theorem Serves.of_eq {first second after : Connection} {outgoing : Option Outgoing}
    (serves : Serves second after outgoing) (same : SameSession first second)
    (closed : second.closed = first.closed) (requests : second.requests = first.requests) :
    Serves first after outgoing where
  id := serves.id.trans same.id
  direction := serves.direction.trans same.direction
  established := serves.established.trans same.established
  peerContext := serves.peerContext.trans same.peerContext
  peerHello := serves.peerHello.trans same.peerHello
  peerAddress := serves.peerAddress.trans same.peerAddress
  closed := serves.closed.trans closed
  requests := by
    rw [← same.established, ← requests]
    exact serves.requests

theorem serve_spec (rounds : Nat) (connection : Connection) :
    Serves connection (connection.serve rounds).1 (connection.serve rounds).2 := by
  induction rounds generalizing connection with
  | zero => exact .quiet (.refl _) rfl rfl (fun _ _ _ => by simp [serve])
  | succ rounds ih =>
    unfold serve
    split
    · exact .quiet (.refl _) rfl rfl (fun _ _ _ => by simp)
    split
    · split
      · exact (ih _).of_eq ⟨rfl, rfl, rfl, rfl, rfl, rfl⟩ rfl rfl
      next established =>
        split
        · exact (ih _).of_eq ⟨rfl, rfl, rfl, rfl, rfl, rfl⟩ rfl rfl
        next bytes call more queued =>
          refine ⟨⟨rfl, rfl, rfl, rfl, rfl, rfl⟩, rfl, .inl ⟨bytes, call, none, rfl, ?_, queued⟩⟩
          simpa using established
    · split
      · exact (ih _).of_eq ⟨rfl, rfl, rfl, rfl, rfl, rfl⟩ rfl rfl
      · exact .quiet ⟨rfl, rfl, rfl, rfl, rfl, rfl⟩ rfl rfl (fun _ _ _ => by simp)
    · split
      · exact (ih _).of_eq ⟨rfl, rfl, rfl, rfl, rfl, rfl⟩ rfl rfl
      · exact .quiet ⟨rfl, rfl, rfl, rfl, rfl, rfl⟩ rfl rfl (fun _ _ _ => by simp)

theorem signal_framed [Xxh3] (call : CallId) (signal : Signal) :
    ∃ frame, encodeFrame (encodeMessage (signalMessage call signal)) 0xffffffff = .ok frame := by
  have size : (encodeMessage (signalMessage call signal)).length = 9 ∨
      (encodeMessage (signalMessage call signal)).length = 17 := by
    unfold signalMessage
    split <;> simp [encodeMessage]
  refine ⟨_, encodeFrame_ok.mpr ⟨?_, ?_, rfl⟩⟩
  · rcases size with size | size <;> rw [size] <;> decide
  · apply List.ne_nil_of_length_pos
    omega

def Polled.outgoing : Polled → Option Outgoing
  | .frame next => some next
  | _ => none

theorem pollNext_spec [Xxh3] (connection : Connection) :
    Serves connection connection.pollNext.1 connection.pollNext.2.outgoing := by
  unfold pollNext
  split
  · exact .quiet (.refl _) rfl rfl (fun _ _ _ => by simp [Polled.outgoing])
  split
  · exact .quiet ⟨rfl, rfl, rfl, rfl, rfl, rfl⟩ rfl rfl (fun _ _ _ => by simp [Polled.outgoing])
  split
  next call signal _ =>
    obtain ⟨frame, framed⟩ := signal_framed call signal
    simp only [framed]
    exact .quiet ⟨rfl, rfl, rfl, rfl, rfl, rfl⟩ rfl rfl
      (fun _ _ _ => by simp [Polled.outgoing])
  · have served := serve_spec connection.turns.length connection
    split
    next found =>
      rw [found] at served
      exact served
    next found =>
      rw [found] at served
      exact served

end Moonpool.Rpc.Connection
