import Moonpool.Rpc.Knowledge

/-!
Owns which steps of a runtime write a frame, and which end a call for something the peer, or
the responder of a local call, sent: the judgement of a frame, a reply and the end of a
stream.  All other steps do neither.
-/

namespace Moonpool.Rpc

open List Option

/-- The event neither writes a frame nor ends a call for something that arrived. -/
def Event.Plain : Event → Prop
  | .written _ _ _ => False
  | .finished _ _ (.reply _ _) | .finished _ _ (.streamEnd _ _) => False
  | _ => True

namespace Runtime

variable {runtime next : Runtime}

section Plain

theorem plain_closeConnection (id : ConnectionId) (returned : CloseReason) (now : Duration)
    (watched : Bool) :
    ∀ event ∈ (runtime.closeConnection id returned now watched).2, event.Plain := by
  unfold closeConnection
  split
  · intro event member
    cases member
  next session _ =>
    have plain : ∀ event ∈ (((runtime.ended id session returned now).carried id).foldl
        (dropCall session.connection.peerAddress
          ((session.connection.close returned).closed.getD returned)
          session.connection.established)
        (runtime.ended id session returned now, [], [])).2.2, event.Plain := by
      refine foldlRecOn (motive := fun dropped : Runtime × List Resend × List Event =>
        ∀ event ∈ dropped.2.2, event.Plain) _ _ (fun event member => by cases member) ?_
      intro dropped plain call _
      unfold dropCall
      simp only
      split
      · exact plain
      split
      · exact plain
      · exact forall_mem_append.mpr ⟨plain, by simp [Event.Plain]⟩
    simp only
    split
    · exact plain
    · split
      · exact plain
      · exact plain

theorem plain_abandon (call : CallId) : ∀ event ∈ (runtime.abandon call).2, event.Plain := by
  unfold abandon
  split <;> simp [Event.Plain]

theorem plain_streamRefused (call : CallId) (violation : String) :
    ∀ event ∈ (runtime.streamRefused call violation).2, event.Plain := by
  unfold streamRefused
  split <;> simp [Event.Plain]

variable [Xxh3]

theorem plain_endCalls (race : Race) (reason : PendingCall → Option ErrorReason)
    (calls : List CallId) (runtime : Runtime) :
    ∀ event ∈ (calls.foldl (endCall race reason) (runtime, [])).2, event.Plain := by
  refine foldlRecOn (motive := fun ended : Runtime × List Event =>
    ∀ event ∈ ended.2, event.Plain) calls _ (fun event member => by cases member) ?_
  intro ended plain call _
  unfold endCall
  simp only
  split
  · exact plain
  split
  · exact plain
  · exact forall_mem_append.mpr ⟨plain, by simp [Event.Plain]⟩

theorem plain_retransmit (address : SocketAddr) (gone : ConnectionId) (copies : List Resend)
    (credential : CallId → Option (List UInt8)) (now : Duration) :
    ∀ event ∈ (runtime.retransmit address gone copies credential now).2, event.Plain := by
  refine foldlRecOn (motive := fun resent : Runtime × List Event =>
    ∀ event ∈ resent.2, event.Plain) _ _ (fun event member => by cases member) ?_
  intro resent plain copy _
  unfold resendCall
  repeat' split
  all_goals first
    | exact plain
    | exact forall_mem_append.mpr ⟨plain, by simp [Event.Plain]⟩

theorem plain_startCall (start : Start) (kind : CallKind) (readings : Readings) :
    ∀ event ∈ (runtime.startCall start kind readings).2.2, event.Plain := by
  unfold startCall
  simp only
  repeat' split
  all_goals simp [Event.Plain]

theorem plain_sendOneWay (start : Start) (readings : Readings) :
    ∀ event ∈ (runtime.sendOneWay start readings).2.2, event.Plain := by
  unfold sendOneWay
  repeat' split
  all_goals simp [Event.Plain]

/-- The action brings `answer` to `call`, from a connection or a responder of this runtime. -/
def Brings (action : Action) (origin : Origin) (call : CallId) (answer : WireOutcome) : Prop :=
  (origin = .here ∧ ∃ race, action = .completeHere call answer race) ∨
    ∃ id, origin = .connection id ∧ action = .reply id call answer

inductive Emits (runtime : Runtime) (action : Action) (events : List Event) : Prop where
  | plain (plain : ∀ event ∈ events, event.Plain)
  | judged {id : ConnectionId} {frame : List UInt8} {held : Option CallId} {session : Session}
      (writing : runtime.driver = .writing id frame held)
      (found : runtime.sessions id = some session)
      (same : events =
        (admitTransmit { runtime with driver := .idle } session.connection held frame).2)
  | answered {origin : Origin} {call : CallId} {answer : WireOutcome} (race : Race)
      (brings : Brings action origin call answer)
      (same : events = (runtime.complete origin call answer race).2)
  | streamEnded {origin : Origin} {call : CallId} {error : Option WireError}
      (violation : Option String)
      {after : Runtime} (same : events = (after.streamEnd origin call error violation).2)
      (records : after.pending = runtime.pending)
      (rides : ∀ pending, runtime.pending call = some pending → pending.origin = origin)

variable {action : Action} {events : List Event}

theorem Emits.of_plain {step : Runtime × List Event}
    (acted : some step = some (next, events)) (plain : ∀ event ∈ step.2, event.Plain) :
    Emits runtime action events := by
  cases some.inj acted
  exact .plain plain

theorem Emits.silent {after : Runtime}
    (acted : some (after, ([] : List Event)) = some (next, events)) :
    Emits runtime action events :=
  .of_plain acted (fun event member => by cases member)

theorem Founded.emits (founded : runtime.Founded)
    (acted : runtime.act action = some (next, events)) : Emits runtime action events := by
  cases action <;> simp only [act] at acted
  case start start kind readings => exact .of_plain acted (plain_startCall start kind readings)
  case sendOneWay start readings => exact .of_plain acted (plain_sendOneWay start readings)
  case abandon call => exact .of_plain acted (plain_abandon call)
  case completeHere call outcome race =>
    exact .answered race (.inl ⟨rfl, race, rfl⟩) (congrArg Prod.snd (some.inj acted).symm)
  case endHere call error violation =>
    split at acted
    next consumes =>
      obtain ⟨pending, found, rides, -⟩ := consumes_iff.mp consumes
      refine .streamEnded violation (congrArg Prod.snd (some.inj acted).symm) rfl
        (fun other located => ?_)
      obtain rfl := some.inj (found.symm.trans located)
      exact rides
    · cases acted
  case refuseHere call violation =>
    split at acted
    · exact .of_plain acted (plain_streamRefused call violation)
    · cases acted
  case terminate race => exact .of_plain acted (plain_endCalls race _ _ _)
  case judge =>
    split at acted
    next writing =>
      obtain ⟨session, found, result⟩ := map_eq_some_iff.mp acted
      exact .judged writing found (congrArg Prod.snd result.symm)
    · cases acted
  case reply id call outcome =>
    obtain ⟨session, -, result⟩ := map_eq_some_iff.mp acted
    exact .answered none (.inr ⟨id, rfl, rfl⟩) (congrArg Prod.snd result.symm)
  case takeRefused violation =>
    split at acted
    · exact .of_plain acted (plain_streamRefused _ violation)
    · cases acted
  case takeEnded violation =>
    split at acted
    next id call error ending =>
      have driven := founded.drivenAt ending
      exact .streamEnded violation (congrArg Prod.snd (some.inj acted).symm) rfl
        (fun pending found => (driven.2.2 pending found).1)
    · cases acted
  case closeConnection id returned now watched =>
    split at acted
    · split at acted
      · cases acted
      · exact .of_plain acted (plain_closeConnection id returned now watched)
    · cases acted
  case retransmit credential now =>
    split at acted
    · exact .of_plain acted (plain_retransmit _ _ _ credential now)
    · cases acted
  case traffic id traffic => exact .silent acted
  case beginShutdown | accept peer now | dialed address now jitter =>
    split at acted
    · cases acted
    · exact .silent acted
  case dropCommands => exact .silent acted
  case upgraded id context =>
    split at acted
    · split at acted
      · exact .silent acted
      · cases acted
    · cases acted
  case pop id | closeIfIdle id now =>
    obtain ⟨session, -, result⟩ := map_eq_some_iff.mp acted
    exact .silent (congrArg some result)
  case hello id hello now =>
    split at acted
    · cases acted
    split at acted
    · cases acted
    · obtain ⟨accepted, -, result⟩ := map_eq_some_iff.mp acted
      exact .silent (congrArg some result)
  case establish now =>
    split at acted
    · obtain ⟨session, -, result⟩ := map_eq_some_iff.mp acted
      exact .silent (congrArg some result)
    · cases acted
  case settle =>
    split at acted
    · exact .silent acted
    · cases acted
  case refuseItem id call | streamEnd id call error =>
    split at acted
    · cases acted
    · split at acted
      · exact .silent acted
      · cases acted

end Plain

variable {event : Event}

theorem mem_admitTransmit {connection : Connection} {held : Option CallId} {frame : List UInt8}
    (member : event ∈ (runtime.admitTransmit connection held frame).2) :
    (∃ call outcome, event = .finished call outcome .runtime) ∨
      refusal runtime.config connection frame = none ∧
        ∃ call, event = .written call connection.id frame := by
  unfold admitTransmit at member
  simp only at member
  split at member
  · exact .inl ⟨_, _, mem_singleton.mp member⟩
  · cases member
  next allowed _ => exact .inr ⟨allowed, _, mem_singleton.mp member⟩
  next allowed _ => exact .inr ⟨allowed, _, mem_singleton.mp member⟩

theorem mem_complete [Xxh3] {origin : Origin} {call : CallId} {answer : WireOutcome} {race : Race}
    (member : event ∈ (runtime.complete origin call answer race).2) :
    event.Plain ∨ ∃ pending outcome, event = .finished call outcome (.reply origin answer) ∧
      runtime.pending call = some pending ∧ pending.origin = origin := by
  unfold complete at member
  split at member
  · cases member
  next pending found =>
    split at member
    · cases member
    next rides =>
      have rides : pending.origin = origin := by simpa using rides
      simp only at member
      rcases mem_cons.mp member with here | later
      · exact .inr ⟨pending, _, here, found, rides⟩
      split at later
      · cases later
      · split at later
        · exact .inl (plain_endCalls race _ _ _ _ later)
        · cases later

/-- Where an event that is not plain comes from: the judged frame, or what arrived for a call that
rides there. -/
def Sourced (runtime : Runtime) (action : Action) : Event → Prop
  | .written _ id frame => ∃ place held session, runtime.driver = .writing place frame held ∧
      runtime.sessions place = some session ∧ session.connection.id = id ∧
      refusal runtime.config session.connection frame = none
  | .finished call _ (.reply origin answer) => Brings action origin call answer ∧
      ∃ pending, runtime.pending call = some pending ∧ pending.origin = origin
  | .finished call _ (.streamEnd origin _) =>
      ∃ pending, runtime.pending call = some pending ∧ pending.origin = origin
  | _ => True

theorem sourced_of_plain {action : Action} (plain : event.Plain) :
    runtime.Sourced action event := by
  unfold Sourced
  split
  · exact plain.elim
  · exact plain.elim
  · exact plain.elim
  · trivial

theorem Emits.sourced [Xxh3] {action : Action} {events : List Event}
    (emits : Emits runtime action events) (member : event ∈ events) :
    runtime.Sourced action event := by
  cases emits with
  | plain plain => exact sourced_of_plain (plain _ member)
  | judged writing found same =>
    rcases mem_admitTransmit (same ▸ member) with ⟨_, _, rfl⟩ | ⟨allowed, _, rfl⟩
    · trivial
    · exact ⟨_, _, _, writing, found, rfl, allowed⟩
  | answered race brings same =>
    rcases mem_complete (same ▸ member) with plain | ⟨pending, _, rfl, carried⟩
    · exact sourced_of_plain plain
    · exact ⟨brings, pending, carried⟩
  | streamEnded violation same records rides =>
    rw [same] at member
    unfold streamEnd at member
    split at member
    · cases member
    next pending found =>
      cases mem_singleton.mp member
      rw [records] at found
      exact ⟨pending, found, rides pending found⟩

end Runtime

end Moonpool.Rpc
