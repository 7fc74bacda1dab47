import Moonpool.Rpc.Choice

/-!
Owns what starting a call or sending a one-way request does to the lives of calls.
-/

namespace Moonpool.Rpc.Runtime

variable {runtime : Runtime} {id : ConnectionId} {call : CallId}

structure RequestKind.Built (kind : RequestKind) : Prop where
  known : kind.flags &&& ~~~requestFlagsKnown = 0
  apart : kind.flags &&& requestFlagsKnown ≠ requestFlagsKnown
  window : ¬ opensStream kind.flags → kind.streamWindow = 0

theorem RequestKind.built_twoWay : RequestKind.twoWay.Built :=
  ⟨by decide, by decide, fun _ => rfl⟩

theorem CallKind.built (kind : CallKind) : kind.requestKind.Built := by
  cases kind with
  | reply delivery => exact RequestKind.built_twoWay
  | stream window =>
    have opens : opensStream requestFlagStream := by decide
    exact ⟨(by decide : requestFlagStream &&& ~~~requestFlagsKnown = 0),
      (by decide : requestFlagStream &&& requestFlagsKnown ≠ requestFlagsKnown),
      fun shut => absurd opens shut⟩

variable {frame : List UInt8}

theorem encoded_of_requestFrame [Xxh3] {call : CallId} {endpoint : Endpoint}
    {identity : CallIdentity} {kind : RequestKind} {metadata body : List UInt8} {limit : UInt32}
    (built : kind.Built) (short : metadata.length ≤ 65535)
    (made : requestFrame call endpoint identity kind metadata body limit = .ok frame) :
    Encoded frame := by
  unfold requestFrame at made
  simp only at made
  split at made
  next framed =>
    cases made
    exact ⟨_, limit, ⟨short, built.known, built.apart, built.window⟩, framed⟩
  · cases made

variable {after : Runtime} {held : Option CallId} {readings : Readings}

/-- A request that is taken was taken by the connection of the session it is for. -/
theorem pushRequest_spec (pushed : runtime.pushRequest id frame held readings = (after, .ok ())) :
    ∃ session connection, runtime.sessions id = some session ∧
      session.connection.pushRequest frame held readings.queuedRequestBytes readings.now =
        .ok connection ∧
      after = runtime.setSession id { session with connection } := by
  unfold pushRequest at pushed
  split at pushed
  · cases pushed
  next session found =>
    split at pushed
    next connection queued =>
      cases pushed
      exact ⟨session, connection, found, queued, rfl⟩
    · cases pushed
    · cases pushed

theorem pushRequest_error {error : RpcError}
    (refused : runtime.pushRequest id frame held readings = (after, .error error)) :
    after = runtime := by
  unfold pushRequest at refused
  split at refused
  · cases refused
    rfl
  · split at refused <;> cases refused <;> rfl

variable [Xxh3]

variable {session : Session} {connection : Connection}

section

variable {queuedBytes : Nat} {now : Duration} (found : runtime.sessions id = some session)
  (queued : session.connection.pushRequest frame held queuedBytes now = .ok connection)

include found queued

theorem Founded.queues (founded : runtime.Founded) (encoded : Encoded frame) :
    (runtime.setSession id { session with connection }).Founded := by
  obtain ⟨same, opened, openedAfter, requests⟩ := Connection.pushRequest_ok queued
  have coherent := (founded.known found).2.2
  have closed : connection.closed = session.connection.closed := openedAfter.trans opened.symm
  refine founded.setSession found
    (evolves_connection same (fun ended => (isClosed_eq closed).trans ended))
    (coherent_requests coherent same closed ?_ ?_)
  · intro ended
    rw [Connection.isClosed, openedAfter] at ended
    cases ended
  · rw [requests]
    exact List.forall_mem_append.mpr ⟨coherent.encoded, List.forall_mem_singleton.mpr encoded⟩

omit [Xxh3] in
theorem frames_queue (call : CallId) (other : ConnectionId) :
    (runtime.setSession id { session with connection }).frames call other =
      runtime.frames call other + if other = id ∧ held = some call then 1 else 0 := by
  have requests := (Connection.pushRequest_ok queued).2.2.2
  rw [frames_setSession_append found requests call other, List.countP_singleton]
  by_cases same : other = id <;> simp [same]

end

theorem Filed.sendsOneWay (filed : runtime.Filed) (start : Start) (readings : Readings) :
    Advances runtime (runtime.sendOneWay start readings).2.2
      (runtime.sendOneWay start readings).1 := by
  have stays : Advances runtime [] runtime := .refl filed.toFounded
  unfold sendOneWay
  split
  · exact stays
  split
  · exact stays
  next metadata section_ =>
    split
    · exact stays
    split
    · exact stays
    split
    · exact stays
    next frame made =>
      obtain ⟨connected, -⟩ := filed.connects start.endpoint.address readings.now
      split
      next after error failed =>
        rw [failed] at connected
        exact connected
      next after id chosen =>
        rw [chosen] at connected
        split
        next refused =>
          rw [pushRequest_error refused]
          exact connected
        next pushed =>
          obtain ⟨session, connection, found, queued, rfl⟩ := pushRequest_spec pushed
          have encoded := encoded_of_requestFrame ⟨by decide, by decide, fun _ => rfl⟩
            (credentialSection_length section_) made
          refine connected.trans ⟨connected.founded.queues found queued encoded, ?_⟩
          have lives : Simulates after []
              (after.setSession id { session with connection }) :=
            simulates_of_fewer rfl rfl (fun call other => le_of_eq (by
              rw [frames_queue found queued, if_neg (by simp), add_zero]))
          intro call state shows
          simpa [moments, Event.moment] using lives call state shows

def reserved (runtime : Runtime) : Runtime :=
  { runtime with nextCallId := runtime.nextCallId + 1 }

theorem Filed.reserves (filed : runtime.Filed) : Advances runtime [] runtime.reserved where
  founded := filed.toFounded.of_sessions (fun found => found) (Nat.le_succ _) rfl rfl rfl
    filed.selected
  simulates := by
    intro call state shows
    cases shows with
    | unborn free absent located =>
      rcases Nat.lt_or_eq_of_le free with later | now
      · exact ⟨_, .unborn (Nat.succ_le_of_lt later) absent located, .rest _⟩
      · refine ⟨_, .past (Nat.lt_succ_of_le (le_of_eq now.symm)) absent located, ?_⟩
        exact Life.skip.lives
    | pending used found kept located rides =>
      exact ⟨_, .pending (Nat.lt_succ_of_lt used) found kept located rides, .rest _⟩
    | past used absent located =>
      exact ⟨_, .past (Nat.lt_succ_of_lt used) absent located, .rest _⟩

theorem Filed.reserved_free (filed : runtime.Filed)
    (advances : Advances runtime.reserved [] after) :
    runtime.nextCallId < after.nextCallId ∧ after.pending runtime.nextCallId = none ∧
      after.At runtime.nextCallId none := by
  obtain ⟨absent, located⟩ := filed.unused (le_refl runtime.nextCallId)
  have used : runtime.nextCallId < runtime.reserved.nextCallId := Nat.lt_succ_self _
  have unheld : runtime.reserved.At runtime.nextCallId none := located
  have shown : runtime.reserved.Shows runtime.nextCallId (.past false) :=
    .past used (show runtime.reserved.pending _ = none from absent) unheld
  obtain ⟨state, shows, lives⟩ := advances.simulates _ _ shown
  obtain ⟨-, rfl⟩ := lives_over lives
  generalize past : CallState.past false = state at shows
  cases shows with
  | unborn free absent located => cases past
  | pending used found kept located rides => cases past
  | @past place used absent located =>
    cases place with
    | none => exact ⟨used, absent, located⟩
    | some holder => cases past

/-- Where one call begins its life and no other one changes, every call lives on. -/
theorem simulates_of_birth {next : Runtime} {events : List Event} {state : CallState}
    (filed : runtime.Filed) (advances : Advances runtime.reserved [] after)
    (ids : next.nextCallId = after.nextCallId)
    (same : ∀ other, other ≠ runtime.nextCallId → next.pending other = after.pending other)
    (fewer : ∀ other, other ≠ runtime.nextCallId →
      ∀ id, next.frames other id ≤ after.frames other id)
    (quiet : ∀ other, other ≠ runtime.nextCallId → moments other events = [])
    (born : next.Shows runtime.nextCallId state)
    (life : Life .unborn (moments runtime.nextCallId events) state) :
    Simulates runtime events next := by
  intro call state shows
  by_cases equal : call = runtime.nextCallId
  · rw [equal] at shows ⊢
    cases shows with
    | unborn free absent located => exact ⟨_, born, life.lives⟩
    | pending used found kept located rides | past used absent located =>
      exact absurd used (lt_irrefl _)
  · obtain ⟨middle, shown, lived⟩ := (filed.reserves.trans advances).simulates call _ shows
    obtain ⟨final, shown, livedOn⟩ := shown.fewer ids (same call equal) (fewer call equal)
    rw [quiet call equal]
    exact ⟨final, shown, lived.trans livedOn⟩

theorem Founded.adds {pending : PendingCall} (founded : runtime.Founded)
    (untransmitted : ∀ id, pending.origin = .connection id → pending.transmitted = false ∧
        ∃ session, runtime.sessions id = some session ∧ session.connection.isClosed = false ∧
          session.connection.peerAddress.isSome = true)
    (fresh : ∀ id other error, runtime.driver = .ending id other error → other ≠ call) :
    (runtime.setCall call (some pending)).Founded where
  known := founded.known
  selected := founded.selected
  carried := by
    intro other after id located rides
    rcases pending_of_setCall located with ⟨rfl, ⟨⟩⟩ | ⟨-, located⟩
    · obtain ⟨early, session, found, opened, selected⟩ := untransmitted id rides
      refine ⟨session, found, selected, fun left => ?_,
        .inl (founded.listed_of_open found opened)⟩
      rw [early] at left
      cases left
    · exact founded.carried located rides
  driven := by
    refine founded.driven.keep (keeps_of_eq rfl) (le_refl _) ?_ ?_
    · intro id other error phase _ after located
      rwa [setCall_other _ _ (fresh id other error phase)] at located
    · intro id address copies phase copy _ after located rides
      rcases pending_of_setCall located with ⟨-, ⟨⟩⟩ | ⟨-, located⟩
      · obtain ⟨-, session, found, opened, -⟩ := untransmitted id rides
        cases (founded.gone_closed phase found).symm.trans opened
      · exact located

theorem Filed.fresh (filed : runtime.Filed) (driver : after.driver = runtime.driver)
    (id : ConnectionId) (other : CallId) (error : Option WireError)
    (ending : after.driver = .ending id other error) : other ≠ runtime.nextCallId := by
  exact ne_of_lt (filed.drivenAt (driver.symm.trans ending)).2.1

omit [Xxh3] in
theorem Start.kept (start : Start) (kind : CallKind) (origin : Origin) :
    (start.pending kind origin).Kept where
  earlier early := by cases early
  retained kept := by
    cases kind with
    | reply delivery => rfl
    | stream window => simp [Start.pending, CallKind.delivery] at kept

theorem Filed.startsHere (filed : runtime.Filed) (start : Start) (kind : CallKind) :
    Advances runtime [.started runtime.nextCallId kind.delivery .here]
      (runtime.reserved.setCall runtime.nextCallId (some (start.pending kind .here))) := by
  have reserves := filed.reserves
  obtain ⟨used, absent, located⟩ := filed.reserved_free (.refl reserves.founded)
  constructor
  · exact reserves.founded.adds (fun id rides => by cases rides) (filed.fresh rfl)
  · have unheld : (runtime.reserved.setCall runtime.nextCallId
        (some (start.pending kind .here))).At runtime.nextCallId none := located
    refine simulates_of_birth filed (.refl reserves.founded) rfl
      (fun other differs => setCall_other _ _ differs) (fun _ _ _ => le_refl _)
      (fun other differs => by simp [moments, Event.moment, Ne.symm differs])
      (.pending used (setCall_same _ _ _) (start.kept kind .here) unheld
        nofun) ?_
    · simpa [moments, Event.moment, Start.pending] using
        Life.startHere (decide (kind.delivery = .reliable))

theorem Filed.startsOn (filed : runtime.Filed) (connected : Advances runtime.reserved [] after)
    (quiet : Quiet runtime.reserved after) (found : after.sessions id = some session)
    (selected : session.connection.peerAddress.isSome = true)
    (queued : session.connection.pushRequest frame (some runtime.nextCallId)
      readings.queuedRequestBytes readings.now = .ok connection) (encoded : Encoded frame)
    (start : Start) (kind : CallKind) :
    Advances runtime [.started runtime.nextCallId kind.delivery (.connection id),
        .queued (some runtime.nextCallId) id]
      ((after.setSession id { session with connection }).setCall runtime.nextCallId
        (some (start.pending kind (.connection id)))) := by
  obtain ⟨same, -, opened, -⟩ := Connection.pushRequest_ok queued
  obtain ⟨used, absent, located⟩ := filed.reserved_free connected
  have count := frames_queue found queued
  constructor
  · refine (connected.founded.queues found queued encoded).adds ?_ (filed.fresh quiet.driver)
    rintro other ⟨⟩
    refine ⟨rfl, _, setSession_same _ _ _, ?_, ?_⟩
    · rw [Connection.isClosed, opened]
      rfl
    · rw [same.peerAddress]
      exact selected
  · have held : ((after.setSession id { session with connection }).setCall runtime.nextCallId
        (some (start.pending kind (.connection id)))).At runtime.nextCallId (some id) := by
      intro other
      rw [frames_setCall, count, located other]
      simp [eq_comm]
    refine simulates_of_birth filed connected rfl (fun other differs => setCall_other _ _ differs)
      (fun other differs place => ?_)
      (fun other differs => by simp [moments, Event.moment, Ne.symm differs])
      (.pending used (setCall_same _ _ _) (start.kept kind (.connection id)) held ?_) ?_
    · rw [frames_setCall, count, if_neg (fun both => differs (Option.some.inj both.2).symm)]
      exact le_refl _
    · rintro other ⟨⟩
      exact ⟨rfl, rfl⟩
    · have life := Life.start (decide (kind.delivery = .reliable))
      have retained : (start.pending kind (.connection id)).retained.isSome =
          decide (kind.delivery = .reliable) := by
        cases kind with
        | reply delivery => cases delivery <;> rfl
        | stream window => rfl
      rw [retained]
      simpa [moments, Event.moment, Start.pending] using life

/-- Starting a call lives every call on, whether it is sent or fails at once. -/
theorem Filed.starts (filed : runtime.Filed) (start : Start) (kind : CallKind)
    (readings : Readings) :
    Advances runtime (runtime.startCall start kind readings).2.2
      (runtime.startCall start kind readings).1 := by
  have stays : Advances runtime [] runtime := .refl filed.toFounded
  have reserves := filed.reserves
  unfold startCall
  split
  · exact stays
  split
  · exact stays
  next metadata section_ =>
    split
    · exact stays
    split
    · exact stays
    simp only
    split
    · exact filed.startsHere start kind
    split
    · exact reserves
    next frame made =>
      obtain ⟨connected, selected⟩ :=
        (filed.advance reserves).connects start.endpoint.address readings.now
      have quiet := quiet_peerConnection runtime.reserved start.endpoint.address readings.now
      unfold reserved at connected selected quiet
      split
      next after error failed =>
        rw [failed] at connected
        exact reserves.trans connected
      next after id chosen =>
        rw [chosen] at connected selected quiet
        split
        next refused =>
          rw [pushRequest_error refused]
          exact reserves.trans connected
        next pushed =>
          obtain ⟨session, connection, found, queued, rfl⟩ := pushRequest_spec pushed
          obtain ⟨chosenSession, chosenAt, picked⟩ := selected id rfl
          obtain rfl := Option.some.inj (chosenAt.symm.trans found)
          exact filed.startsOn connected quiet found picked queued
            (encoded_of_requestFrame kind.built (credentialSection_length section_) made)
            start kind

end Moonpool.Rpc.Runtime
