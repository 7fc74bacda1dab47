import Moonpool.Rpc.Places

/-!
Owns what holds of a runtime's sessions, peers and driver between any two of its steps, and
which changes keep it.
-/

namespace Moonpool.Rpc

def Encoded [Xxh3] (frame : List UInt8) : Prop :=
  ∃ (request : Request) (limit : UInt32), request.Buildable ∧
    encodeFrame (encodeMessage (.request request)) limit = .ok frame

namespace Session

structure Coherent [Xxh3] (session : Session) : Prop where
  emptied : session.connection.isClosed = true → session.connection.requests = []
  unlisted : session.listed = false → session.connection.isClosed = true
  current : session.stage ≠ .ended → session.listed = true
  connecting : session.stage = .connecting → session.connection.established = false
  greeted : session.connection.established = true → session.connection.peerHello.isSome = true
  failed : ∀ reason, session.connection.closed = some reason →
    reason.isConnectFailed = true → session.stage = .ended
  encoded : ∀ request ∈ session.connection.requests, Encoded request.1

theorem Coherent.running [Xxh3] {session : Session} (coherent : session.Coherent)
    (running : session.stage = .running) : session.listed = true :=
  coherent.current (by simp [running])

/-- What a session never loses while it is in the connection table. -/
structure Evolves (before after : Session) : Prop where
  same : after.connection.id = before.connection.id
  selected : before.connection.peerAddress.isSome = true →
    after.connection.peerAddress.isSome = true
  established : before.connection.established = true → after.connection.established = true
  listed : before.listed = true → after.listed = true
  running : before.stage = .running → after.stage = .running
  closed : before.connection.isClosed = true → after.connection.isClosed = true

theorem Evolves.refl (session : Session) : session.Evolves session :=
  ⟨rfl, id, id, id, id, id⟩

theorem Evolves.trans {first second third : Session} (earlier : first.Evolves second)
    (later : second.Evolves third) : first.Evolves third where
  same := later.same.trans earlier.same
  selected := later.selected ∘ earlier.selected
  established := later.established ∘ earlier.established
  listed := later.listed ∘ earlier.listed
  running := later.running ∘ earlier.running
  closed := later.closed ∘ earlier.closed

end Session

namespace Runtime

def Selected (runtime : Runtime) (id : ConnectionId) : Prop :=
  ∃ session, runtime.sessions id = some session ∧
    session.connection.peerAddress.isSome = true

def Hearing (runtime : Runtime) (id : ConnectionId) : Prop :=
  ∃ session, runtime.sessions id = some session ∧ session.stage = .running ∧
    session.connection.established = true

def Awaits (runtime : Runtime) (id : ConnectionId) (call : CallId) : Prop :=
  ∃ address copies, runtime.driver = .resending id address copies ∧
    ∃ copy ∈ copies, copy.call = call

def Carrier (runtime : Runtime) (call : CallId) (pending : PendingCall) (id : ConnectionId) :
    Prop :=
  ∃ session, runtime.sessions id = some session ∧
    session.connection.peerAddress.isSome = true ∧
    (pending.transmitted = true → session.connection.established = true) ∧
    (session.listed = true ∨ runtime.Awaits id call)

/-- What holds while the driver is in the middle of something. -/
def Driven [Xxh3] (runtime : Runtime) : Phase → Prop
  | .idle | .settling _ | .refusing _ _ => True
  | .writing id frame _ => runtime.Hearing id ∧ Encoded frame
  | .greeting id _ => ∃ session, runtime.sessions id = some session ∧ session.stage = .running
  | .ending id call _ =>
    runtime.Hearing id ∧ call < runtime.nextCallId ∧
      ∀ pending, runtime.pending call = some pending →
        pending.origin = .connection id ∧ pending.completion = .stream
  | .resending id _ copies =>
    (∃ session, runtime.sessions id = some session ∧ session.connection.isClosed = true) ∧
      ∀ copy ∈ copies, ∀ pending, runtime.pending copy.call = some pending →
        pending.origin = .connection id →
        pending.retained.isSome = true ∧ pending.transmitted = false

/-- What holds of a runtime between any two of its steps. -/
structure Founded [Xxh3] (runtime : Runtime) : Prop where
  known : ∀ {id session}, runtime.sessions id = some session →
    id < runtime.nextConnectionId ∧ session.connection.id = id ∧ session.Coherent
  carried : ∀ {call pending id}, runtime.pending call = some pending →
    pending.origin = .connection id → runtime.Carrier call pending id
  driven : runtime.Driven runtime.driver
  selected : ∀ {entry}, entry ∈ runtime.peers → ∀ {id}, entry.2.current = some id →
    runtime.Selected id

def Keeps (runtime next : Runtime) : Prop :=
  ∀ id session, runtime.sessions id = some session →
    ∃ after, next.sessions id = some after ∧ session.Evolves after

variable {runtime next : Runtime} {id : ConnectionId} {call : CallId}

theorem Founded.drivenAt [Xxh3] {phase : Phase} (founded : runtime.Founded)
    (busy : runtime.driver = phase) : runtime.Driven phase :=
  busy ▸ founded.driven

theorem Founded.gone_closed [Xxh3] {session : Session} {address : SocketAddr}
    {copies : List Resend} (founded : runtime.Founded)
    (resending : runtime.driver = .resending id address copies)
    (located : runtime.sessions id = some session) : session.connection.isClosed = true := by
  obtain ⟨⟨ended, endedAt, closed⟩, -⟩ := founded.drivenAt resending
  cases endedAt.symm.trans located
  exact closed

theorem Selected.keep (selected : runtime.Selected id) (keeps : Keeps runtime next) :
    next.Selected id := by
  obtain ⟨session, found, chosen⟩ := selected
  obtain ⟨after, found, evolves⟩ := keeps _ _ found
  exact ⟨after, found, evolves.selected chosen⟩

theorem Hearing.keep (hearing : runtime.Hearing id) (keeps : Keeps runtime next) :
    next.Hearing id := by
  obtain ⟨session, found, running, established⟩ := hearing
  obtain ⟨after, found, evolves⟩ := keeps _ _ found
  exact ⟨after, found, evolves.running running, evolves.established established⟩

theorem Carrier.keep {pending : PendingCall} (carrier : runtime.Carrier call pending id)
    (keeps : Keeps runtime next) (driver : next.driver = runtime.driver) :
    next.Carrier call pending id := by
  obtain ⟨session, found, selected, left, listed⟩ := carrier
  obtain ⟨after, found, evolves⟩ := keeps _ _ found
  refine ⟨after, found, evolves.selected selected, evolves.established ∘ left,
    listed.imp evolves.listed ?_⟩
  rintro ⟨address, copies, resending, awaited⟩
  exact ⟨address, copies, driver.trans resending, awaited⟩

theorem Driven.keep [Xxh3] {phase : Phase} (driven : runtime.Driven phase)
    (keeps : Keeps runtime next) (ids : runtime.nextCallId ≤ next.nextCallId)
    (ending : ∀ id call error, phase = .ending id call error → call < runtime.nextCallId →
      ∀ pending, next.pending call = some pending → runtime.pending call = some pending)
    (resending : ∀ id address copies, phase = .resending id address copies →
      ∀ copy ∈ copies, ∀ pending, next.pending copy.call = some pending →
        pending.origin = .connection id → runtime.pending copy.call = some pending) :
    next.Driven phase := by
  cases phase with
  | idle => trivial
  | settling address => trivial
  | refusing id call => trivial
  | writing id frame call => exact ⟨driven.1.keep keeps, driven.2⟩
  | greeting id hello =>
    obtain ⟨session, found, running⟩ := driven
    obtain ⟨after, found, evolves⟩ := keeps _ _ found
    exact ⟨after, found, evolves.running running⟩
  | ending id call error =>
    obtain ⟨hearing, used, streams⟩ := driven
    exact ⟨hearing.keep keeps, lt_of_lt_of_le used ids, fun pending found =>
      streams pending (ending id call error rfl used pending found)⟩
  | resending id address copies =>
    obtain ⟨⟨session, found, closed⟩, waiting⟩ := driven
    obtain ⟨after, found, evolves⟩ := keeps _ _ found
    exact ⟨⟨after, found, evolves.closed closed⟩, fun copy member pending found rides =>
      waiting copy member pending (resending id address copies rfl copy member pending found rides)
        rides⟩

theorem Founded.evolve [Xxh3] (founded : runtime.Founded)
    (fewer : ∀ {call pending}, next.pending call = some pending →
      runtime.pending call = some pending)
    (ids : runtime.nextCallId ≤ next.nextCallId) (driver : next.driver = runtime.driver)
    (known : ∀ {id session}, next.sessions id = some session →
      id < next.nextConnectionId ∧ session.connection.id = id ∧ session.Coherent)
    (keeps : Keeps runtime next)
    (selected : ∀ {entry}, entry ∈ next.peers → ∀ {id}, entry.2.current = some id →
      next.Selected id) : next.Founded where
  known := known
  carried found rides := (founded.carried (fewer found) rides).keep keeps driver
  driven := by
    rw [driver]
    exact founded.driven.keep keeps ids (fun _ _ _ _ _ _ found => fewer found)
      (fun _ _ _ _ _ _ _ found _ => fewer found)
  selected := selected

theorem Keeps.trans {last : Runtime} (first : Keeps runtime next) (second : Keeps next last) :
    Keeps runtime last := by
  intro id session found
  obtain ⟨middle, found, evolves⟩ := first _ _ found
  obtain ⟨after, found, further⟩ := second _ _ found
  exact ⟨after, found, evolves.trans further⟩

theorem keeps_of_eq (sessions : next.sessions = runtime.sessions) : Keeps runtime next := by
  intro id session found
  exact ⟨session, sessions ▸ found, .refl session⟩

theorem Founded.of_sessions [Xxh3] (founded : runtime.Founded)
    (fewer : ∀ {call pending}, next.pending call = some pending →
      runtime.pending call = some pending)
    (ids : runtime.nextCallId ≤ next.nextCallId) (driver : next.driver = runtime.driver)
    (sessions : next.sessions = runtime.sessions)
    (connections : next.nextConnectionId = runtime.nextConnectionId)
    (selected : ∀ {entry}, entry ∈ next.peers → ∀ {id}, entry.2.current = some id →
      runtime.Selected id) : next.Founded := by
  refine founded.evolve fewer ids driver ?_ (keeps_of_eq sessions)
    (fun member _ current => (selected member current).keep (keeps_of_eq sessions))
  intro id session found
  rw [sessions] at found
  rw [connections]
  exact founded.known found

end Runtime

end Moonpool.Rpc
