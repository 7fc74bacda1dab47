import Moonpool.Rpc.Founded

/-!
Contract: a runtime's sections are made of a few single changes, and each keeps every call where
the runtime can find it.

Owns:
- `Filed`, the invariant of a runtime: it is founded, and shows where every call is;
- `Advances`, what one section does: it ends in a founded state and lives every call on, with
  the events it emits.  Sections compose by `Advances.trans`;
- the single changes: a session that evolves, a call that ends, a frame that is taken, written,
  dropped or moved.

Does not own the sections themselves: they are put together from these changes in the modules
from `Moonpool.Rpc.Transmission` to `Moonpool.Rpc.Retransmission`.
-/

namespace Moonpool.Rpc.Runtime

variable {runtime next : Runtime} {id : ConnectionId} {call : CallId}

@[simp] theorem frames_setCall (runtime : Runtime) (changed : CallId) (value : Option PendingCall) :
    (runtime.setCall changed value).frames = runtime.frames := rfl

theorem setCall_same (runtime : Runtime) (call : CallId) (value : Option PendingCall) :
    (runtime.setCall call value).pending call = value :=
  if_pos rfl

theorem setCall_other {other : CallId} (runtime : Runtime) (value : Option PendingCall)
    (differs : other ≠ call) :
    (runtime.setCall call value).pending other = runtime.pending other :=
  if_neg differs

theorem pending_of_setCall {other : CallId} {value : Option PendingCall} {pending : PendingCall}
    (found : (runtime.setCall call value).pending other = some pending) :
    other = call ∧ value = some pending ∨
      other ≠ call ∧ runtime.pending other = some pending := by
  by_cases same : other = call
  · exact .inl ⟨same, (if_pos same).symm.trans found⟩
  · exact .inr ⟨same, (if_neg same).symm.trans found⟩

theorem setSession_same (runtime : Runtime) (id : ConnectionId) (value : Session) :
    (runtime.setSession id value).sessions id = some value :=
  if_pos rfl

variable {other : ConnectionId}

theorem setSession_other (runtime : Runtime) (value : Session) (differs : other ≠ id) :
    (runtime.setSession id value).sessions other = runtime.sessions other :=
  if_neg differs

variable {session : Session}

/-- The frames queued for a call are counted on the session that is found. -/
theorem queuedOn_of_found (found : runtime.sessions id = some session) (call : CallId) :
    runtime.queuedOn call id =
      session.connection.requests.countP fun request => request.2 = some call := by
  unfold queuedOn
  rw [found]

theorem queuedOn_setSession_same (runtime : Runtime) (id : ConnectionId) (value : Session)
    (call : CallId) :
    (runtime.setSession id value).queuedOn call id =
      value.connection.requests.countP fun request => request.2 = some call :=
  queuedOn_of_found (setSession_same runtime id value) call

theorem queuedOn_setSession_other (runtime : Runtime) (value : Session) (call : CallId)
    (differs : other ≠ id) :
    (runtime.setSession id value).queuedOn call other = runtime.queuedOn call other := by
  unfold queuedOn
  rw [setSession_other runtime value differs]

variable {before after : Session}

theorem frames_setSession_le (found : runtime.sessions id = some before)
    (fewer : ∀ call, (after.connection.requests.countP fun request => request.2 = some call) ≤
      before.connection.requests.countP fun request => request.2 = some call) (call : CallId)
    (other : ConnectionId) :
    (runtime.setSession id after).frames call other ≤ runtime.frames call other := by
  apply Nat.add_le_add_right
  by_cases same : other = id
  · rw [same, queuedOn_setSession_same, queuedOn_of_found found]
    exact fewer call
  · exact le_of_eq (queuedOn_setSession_other runtime after call same)

theorem frames_setSession_append {more : List QueuedRequest}
    (found : runtime.sessions id = some before)
    (queued : after.connection.requests = before.connection.requests ++ more) (call : CallId)
    (other : ConnectionId) :
    (runtime.setSession id after).frames call other = runtime.frames call other +
      if other = id then more.countP fun request => request.2 = some call else 0 := by
  have hand : (runtime.setSession id after).inHand call other = runtime.inHand call other := rfl
  unfold frames
  rw [hand]
  by_cases same : other = id
  · rw [same, queuedOn_setSession_same, queuedOn_of_found found, queued, List.countP_append,
      if_pos rfl]
    omega
  · rw [queuedOn_setSession_other _ _ call same, if_neg same, add_zero]

theorem keeps_setSession (found : runtime.sessions id = some before)
    (evolves : before.Evolves after) : Keeps runtime (runtime.setSession id after) := by
  intro other session located
  by_cases same : other = id
  · rw [same] at located ⊢
    obtain rfl : session = before := Option.some.inj (located.symm.trans found)
    exact ⟨after, setSession_same runtime id after, evolves⟩
  · exact ⟨session, (setSession_other runtime after same).trans located, .refl session⟩

theorem evolves_connection {after : Connection} (same : session.connection.SameSession after)
    (closed : session.connection.isClosed = true → after.isClosed = true) :
    session.Evolves { session with connection := after } where
  same := same.id
  selected chosen := by rw [same.peerAddress]; exact chosen
  established done := by rw [same.established]; exact done
  listed := fun kept => kept
  running := fun kept => kept
  closed := closed

theorem calm_closed {before after : Connection} (calm : before.Calm after)
    (closed : before.isClosed = true) : after.isClosed = true := by
  rcases calm.requests with ⟨-, same⟩ | ⟨-, reason, -, ended⟩
  · rw [Connection.isClosed, same]
    exact closed
  · rw [Connection.isClosed, ended]
    rfl

theorem keeps_driver (phase : Phase) : Keeps runtime { runtime with driver := phase } :=
  keeps_of_eq rfl

variable [Xxh3]

/-- The invariant: the runtime is founded and shows where every call is. -/
structure Filed (runtime : Runtime) : Prop extends Founded runtime where
  shown : ∀ call, ∃ state, runtime.Shows call state

/-- A section ends in a founded state and lives every call on. -/
structure Advances (runtime : Runtime) (events : List Event) (next : Runtime) : Prop where
  founded : next.Founded
  simulates : Simulates runtime events next

/-- The invariant is kept by whatever advances. -/
theorem Filed.advance {events : List Event} (filed : runtime.Filed)
    (advances : Advances runtime events next) : next.Filed where
  toFounded := advances.founded
  shown call := by
    obtain ⟨state, shows⟩ := filed.shown call
    obtain ⟨after, shown, -⟩ := advances.simulates call state shows
    exact ⟨after, shown⟩

theorem Advances.refl (founded : runtime.Founded) : Advances runtime [] runtime :=
  ⟨founded, .refl runtime⟩

theorem Advances.trans {last : Runtime} {before after : List Event}
    (first : Advances runtime before next) (second : Advances next after last) :
    Advances runtime (before ++ after) last :=
  ⟨second.founded, first.simulates.trans second.simulates⟩

namespace Filed

theorem rides {pending : PendingCall} (filed : runtime.Filed)
    (found : runtime.pending call = some pending) (alive : 0 < runtime.frames call id) :
    pending.origin = .connection id ∧ pending.transmitted = false := by
  obtain ⟨state, shows⟩ := filed.shown call
  obtain ⟨place, -, -, -, located, rides⟩ := shows.inv found
  exact rides id (located.eq_some alive)

/-- A frame of a call is alive on one connection only, and once. -/
theorem alone (filed : runtime.Filed) (alive : 0 < runtime.frames call id) :
    ∀ other, runtime.frames call other = if other = id then 1 else 0 := by
  have unique : ∀ place, runtime.At call place →
      ∀ other, runtime.frames call other = if other = id then 1 else 0 := by
    intro place located other
    rw [located other, located.eq_some alive]
    simp only [Option.some.injEq, eq_comm]
  obtain ⟨state, shows⟩ := filed.shown call
  cases shows with
  | unborn free absent located => exact unique _ located
  | pending used found kept located rides => exact unique _ located
  | past used absent located => exact unique _ located

theorem kept {pending : PendingCall} (filed : runtime.Filed)
    (found : runtime.pending call = some pending) :
    call < runtime.nextCallId ∧ pending.Kept := by
  obtain ⟨state, shows⟩ := filed.shown call
  obtain ⟨-, -, used, kept, -⟩ := shows.inv found
  exact ⟨used, kept⟩

/-- A call id not given out yet has left no trace. -/
theorem unused (filed : runtime.Filed) (free : runtime.nextCallId ≤ call) :
    runtime.pending call = none ∧ runtime.At call none := by
  obtain ⟨state, shows⟩ := filed.shown call
  cases shows with
  | unborn free absent located => exact ⟨absent, located⟩
  | pending used found kept located rides | past used absent located =>
    exact absurd used (not_lt.mpr free)

end Filed

section

variable (founded : runtime.Founded) (found : runtime.sessions id = some before)

include founded found

theorem known_setSession
    (identity : after.connection.id = before.connection.id) (coherent : after.Coherent)
    {other : ConnectionId} {session : Session}
    (located : (runtime.setSession id after).sessions other = some session) :
    other < runtime.nextConnectionId ∧ session.connection.id = other ∧ session.Coherent := by
  by_cases same : other = id
  · rw [same, setSession_same] at located
    cases located
    obtain ⟨made, named, -⟩ := founded.known found
    rw [same]
    exact ⟨made, identity.trans named, coherent⟩
  · rw [setSession_other runtime after same] at located
    exact founded.known located

theorem Founded.setSession (evolves : before.Evolves after) (coherent : after.Coherent) :
    (runtime.setSession id after).Founded :=
  founded.evolve (fun found => found) (le_refl _) rfl
    (known_setSession founded found evolves.same coherent) (keeps_setSession found evolves)
    (fun member _ current =>
      (founded.selected member current).keep (keeps_setSession found evolves))

/-- A session that evolves, with no more frames of any call, lives every call on. -/
theorem advances_setSession (evolves : before.Evolves after)
    (coherent : after.Coherent)
    (fewer : ∀ call, (after.connection.requests.countP fun request => request.2 = some call) ≤
      before.connection.requests.countP fun request => request.2 = some call) :
    Advances runtime [] (runtime.setSession id after) :=
  ⟨founded.setSession found evolves coherent,
    simulates_of_fewer rfl rfl (frames_setSession_le found fewer)⟩

end

theorem coherent_calm {after : Connection} (coherent : session.Coherent)
    (calm : session.connection.Calm after) :
    Session.Coherent { session with connection := after } where
  emptied closed := by
    rcases calm.requests with ⟨requests, same⟩ | ⟨empty, -⟩
    · rw [Connection.isClosed, same] at closed
      rw [requests]
      exact coherent.emptied closed
    · exact empty
  unlisted gone := calm_closed calm (coherent.unlisted gone)
  current := coherent.current
  connecting early := by rw [calm.established]; exact coherent.connecting early
  greeted done := by
    rw [calm.established] at done
    rw [calm.peerHello]
    exact coherent.greeted done
  failed reason closed failed := by
    rcases calm.requests with ⟨-, same⟩ | ⟨-, given, unfailed, ended⟩
    · exact coherent.failed reason (same.symm.trans closed) failed
    have first := Option.some.inj (ended.symm.trans closed)
    cases earlier : session.connection.closed with
    | none =>
      rw [earlier, Option.getD_none] at first
      rw [first, failed] at unfailed
      cases unfailed
    | some before =>
      rw [earlier, Option.getD_some] at first
      exact coherent.failed before earlier (first ▸ failed)
  encoded request member := by
    rcases calm.requests with ⟨requests, -⟩ | ⟨empty, -⟩
    · rw [requests] at member
      exact coherent.encoded request member
    · rw [empty] at member
      cases member

theorem advances_calm {after : Connection} (founded : runtime.Founded)
    (found : runtime.sessions id = some session) (calm : session.connection.Calm after) :
    Advances runtime [] (runtime.setSession id { session with connection := after }) := by
  refine advances_setSession founded found
    (evolves_connection calm.toSameSession (calm_closed calm))
    (coherent_calm (founded.known found).2.2 calm) (fun call => ?_)
  rcases calm.requests with ⟨same, -⟩ | ⟨empty, -⟩
  · exact le_of_eq (by rw [same])
  · rw [empty]
    exact Nat.zero_le _

theorem advances_onConnection {change : Connection → Connection} (founded : runtime.Founded)
    (id : ConnectionId) (calm : ∀ connection : Connection, connection.Calm (change connection)) :
    Advances runtime [] (runtime.onConnection id change) := by
  unfold onConnection
  split
  · exact .refl founded
  next session found => exact advances_calm founded found (calm session.connection)

/-- So does a change that leaves sessions and calls alone. -/
theorem advances_rest (founded : runtime.Founded) (pending : next.pending = runtime.pending)
    (ids : next.nextCallId = runtime.nextCallId) (driver : next.driver = runtime.driver)
    (sessions : next.sessions = runtime.sessions)
    (connections : next.nextConnectionId = runtime.nextConnectionId)
    (selected : ∀ {entry}, entry ∈ next.peers → ∀ {id}, entry.2.current = some id →
      runtime.Selected id) : Advances runtime [] next where
  founded := founded.of_sessions (fun found => pending ▸ found) (le_of_eq ids.symm) driver
    sessions connections selected
  simulates := by
    refine simulates_of_fewer ids pending (fun call id => le_of_eq ?_)
    unfold frames queuedOn inHand
    rw [sessions, driver]

section

variable {pending : PendingCall} {event : Event} {unadmitted rejected : Bool}

section

variable (found : runtime.pending call = some pending) (ends : event.Ends call unadmitted rejected)
  (unsent : unadmitted = true → rejected = false → pending.transmitted = false ∧
    pending.earlierTransmitted = false ∧ ∀ id, runtime.frames call id = 0)
  (first : unadmitted = true → rejected = true → pending.earlierTransmitted = false)

include found ends unsent first

omit [Xxh3] in
theorem simulates_end :
    Simulates runtime [event] (runtime.setCall call none) := by
  refine simulates_of_touch call rfl (fun other differs => setCall_other runtime none differs)
    (fun _ _ _ => le_refl _) (fun other differs => ?_) (fun state shows => ?_)
  · simp [moments, ends other, Ne.symm differs]
  · have lived : ∃ after, (runtime.setCall call none).Shows call after ∧
        Lives state [.ended unadmitted rejected] after :=
      shows.ends found rfl (setCall_same runtime call none) (fun _ => le_refl _) unsent first
    simpa [moments, ends call] using lived

theorem advances_end (founded : runtime.Founded) :
    Advances runtime [event] (runtime.setCall call none) := by
  refine ⟨founded.of_sessions (fun {other} => ?_) (le_refl _) rfl rfl rfl founded.selected,
    simulates_end found ends unsent first⟩
  intro pending located
  exact (pending_of_setCall located).elim nofun And.right

end

end

theorem advances_phase {phase : Phase} (founded : runtime.Founded)
    (unawaited : ∀ id call pending, runtime.pending call = some pending →
      pending.origin = .connection id → ¬ runtime.Awaits id call)
    (unheld : ∀ id frame call, phase ≠ .writing id frame call)
    (driven : runtime.Driven phase) : Advances runtime [] { runtime with driver := phase } where
  founded := by
    refine ⟨founded.known, fun found rides => ?_, ?_, founded.selected⟩
    · obtain ⟨session, located, selected, left, listed⟩ := founded.carried found rides
      exact ⟨session, located, selected, left,
        .inl (listed.resolve_right (unawaited _ _ _ found rides))⟩
    · exact driven.keep (keeps_driver phase) (le_refl _) (fun _ _ _ _ _ _ found => found)
        (fun _ _ _ _ _ _ _ found _ => found)
  simulates := by
    refine simulates_of_fewer rfl rfl (fun call id => ?_)
    apply Nat.add_le_add_left
    unfold inHand
    split
    next held => exact absurd held (unheld _ _ _)
    · exact Nat.zero_le _

end Moonpool.Rpc.Runtime
