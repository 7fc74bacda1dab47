import Moonpool.Rpc.Refinement

/-!
Owns what selection looks at in a runtime, and which sections leave it alone: they touch no
peer, select no connection, and close connections only for reasons of their own.
-/

namespace Moonpool.Rpc

structure Facet where
  direction : Direction
  established : Bool
  address : Option SocketAddr
  closed : Option CloseReason
deriving DecidableEq

/-- Nothing changed, or an open connection closed, and not for another one. -/
inductive Facet.Fades (before : Facet) : Facet → Prop where
  | same : Fades before before
  | closed {reason : CloseReason} (opened : before.closed = none) (other : reason ≠ .replaced) :
      Fades before { before with closed := some reason }

theorem Facet.Fades.trans {first second third : Facet} (before : first.Fades second)
    (after : second.Fades third) : first.Fades third := by
  cases before with
  | same => exact after
  | closed opened other =>
    cases after with
    | same => exact .closed opened other
    | closed again _ => cases again

def Connection.facet (connection : Connection) : Facet :=
  ⟨connection.direction, connection.established, connection.peerAddress, connection.closed⟩

namespace Connection

variable {connection after : Connection}

theorem SameSession.facet (same : SameSession connection after)
    (closed : after.closed = connection.closed) : after.facet = connection.facet := by
  unfold Connection.facet
  rw [same.direction, same.established, same.peerAddress, closed]

theorem Calm.fades (calm : Calm connection after)
    (unreplaced : after.closed = some .replaced → connection.closed = some .replaced) :
    connection.facet.Fades after.facet := by
  cases closed : connection.closed with
  | some reason =>
    have still : after.closed = connection.closed := by
      rcases calm.requests with ⟨-, same⟩ | ⟨-, given, -, ended⟩
      · exact same
      · rw [ended, closed]
        rfl
    rw [calm.toSameSession.facet still]
    exact .same
  | none =>
    rcases calm.requests with ⟨-, same⟩ | ⟨-, reason, -, ended⟩
    · rw [calm.toSameSession.facet same]
      exact .same
    rw [closed, Option.getD_none] at ended
    have other : reason ≠ .replaced := by
      rintro rfl
      have impossible := unreplaced ended
      rw [closed] at impossible
      cases impossible
    have same : after.facet = { connection.facet with closed := some reason } := by
      unfold Connection.facet
      rw [calm.direction, calm.established, calm.peerAddress, ended]
    rw [same]
    exact .closed closed other

section

variable (connection)

theorem fades_close {reason : CloseReason} (other : reason ≠ .replaced) :
    connection.facet.Fades (connection.close reason).facet := by
  cases closed : connection.closed with
  | some earlier =>
    have same : (connection.close reason).facet = connection.facet := by
      simp [Connection.facet, close, closed]
    rw [same]
    exact .same
  | none =>
    have same : (connection.close reason).facet =
        { connection.facet with closed := some reason } := by
      simp [Connection.facet, close, closed]
    rw [same]
    exact .closed closed other

theorem fades_signalCancel (call : CallId) :
    connection.facet.Fades (connection.signalCancel call).facet := by
  refine (calm_signalCancel connection call).fades (fun closed => ?_)
  unfold signalCancel at closed
  split at closed <;> exact closed

theorem fades_closeIfIdle (now idle : Duration) (selected : Bool) :
    connection.facet.Fades (connection.closeIfIdle now idle selected).1.facet := by
  refine (calm_closeIfIdle connection now idle selected).fades (fun closed => ?_)
  unfold closeIfIdle at closed
  simp only at closed
  generalize (if selected = true then connection.lastUsed else connection.lastReceived) = since
    at closed
  split at closed
  · cases closed
  · exact closed

theorem fades_carry (traffic : Traffic) :
    connection.facet.Fades (connection.carry traffic).facet := by
  refine (calm_carry connection traffic).fades (fun closed => ?_)
  have listed : ∀ (next : Connection) (source : Source),
      (next.enlist source).closed = next.closed := by
    intro next source
    obtain ⟨turns, same⟩ := enlist_eq next source
    rw [same]
  cases traffic with
  | control frame =>
    simp only [carry, pushControl] at closed
    split at closed
    · exact closed
    next opened =>
      split at closed
      · have opened : connection.closed = none := by simpa [isClosed] using opened
        simp [close, opened] at closed
      · exact closed
  | reply frame release | streamFrame call frame =>
    simp only [carry, pushReply, pushStreamFrame] at closed
    split at closed
    next pushed =>
      split at pushed
      · cases pushed
      · cases pushed
        rwa [listed] at closed
    · exact closed
  | register call core | ack call consumed | cancel call =>
    simp only [carry, registerStream, signalAck, signalCancel] at closed
    split at closed <;> exact closed
  | remove call discard =>
    cases discard <;> exact closed
  | noted now | owed count => exact closed

end

end Connection

def Phase.greeted : Phase → Option ConnectionId
  | .greeting id _ => some id
  | _ => none

namespace Runtime

def facet (runtime : Runtime) (id : ConnectionId) : Option Facet :=
  (runtime.sessions id).map fun session => session.connection.facet

/-- Selection is left alone. -/
structure Drifts (runtime next : Runtime) : Prop where
  config : next.config = runtime.config
  peers : next.peers = runtime.peers
  greeted : next.driver.greeted = runtime.driver.greeted
  made : next.nextConnectionId = runtime.nextConnectionId
  facets : ∀ id, Option.Rel Facet.Fades (runtime.facet id) (next.facet id)

variable {runtime next : Runtime} {id : ConnectionId} {session : Session}

theorem facet_of_found (found : runtime.sessions id = some session) :
    runtime.facet id = some session.connection.facet := by
  unfold facet
  rw [found, Option.map_some]

theorem Drifts.of_facets (config : next.config = runtime.config)
    (peers : next.peers = runtime.peers)
    (greeted : next.driver.greeted = runtime.driver.greeted)
    (made : next.nextConnectionId = runtime.nextConnectionId)
    (facets : ∀ id, next.facet id = runtime.facet id) : Drifts runtime next := by
  refine ⟨config, peers, greeted, made, fun id => ?_⟩
  rw [facets id]
  cases runtime.facet id with
  | none => exact .none
  | some facet => exact .some .same

theorem Drifts.refl (runtime : Runtime) : Drifts runtime runtime :=
  .of_facets rfl rfl rfl rfl (fun _ => rfl)

theorem Drifts.trans {last : Runtime} (first : Drifts runtime next) (second : Drifts next last) :
    Drifts runtime last := by
  refine ⟨second.config.trans first.config, second.peers.trans first.peers,
    second.greeted.trans first.greeted, second.made.trans first.made, fun id => ?_⟩
  have before := first.facets id
  have after := second.facets id
  generalize runtime.facet id = start at before ⊢
  generalize next.facet id = middle at before after
  generalize last.facet id = final at after ⊢
  cases before with
  | none =>
    cases after
    exact .none
  | some fades =>
    cases after with
    | some further => exact .some (fades.trans further)

theorem Drifts.foldl {State Item : Type} (runtimeOf : State → Runtime)
    (round : State → Item → State) (items : List Item) (start : State)
    (drifts : ∀ state item, Drifts (runtimeOf state) (runtimeOf (round state item))) :
    Drifts (runtimeOf start) (runtimeOf (items.foldl round start)) :=
  List.foldlRecOn (motive := fun state => Drifts (runtimeOf start) (runtimeOf state)) items round
    (.refl _) fun state drifted item _ => drifted.trans (drifts state item)

theorem facet_setSession (runtime : Runtime) (id other : ConnectionId) (session : Session) :
    (runtime.setSession id session).facet other =
      if other = id then some session.connection.facet else runtime.facet other := by
  unfold facet setSession
  split
  next same => simp [same]
  next differs => simp [differs]

theorem drifts_setSession {after : Session} (found : runtime.sessions id = some session)
    (fades : session.connection.facet.Fades after.connection.facet) :
    Drifts runtime (runtime.setSession id after) := by
  refine ⟨rfl, rfl, rfl, rfl, fun other => ?_⟩
  rw [facet_setSession]
  split
  next same =>
    rw [same, facet_of_found found]
    exact .some fades
  · exact (Drifts.refl runtime).facets other

theorem drifts_onConnection {change : Connection → Connection} (runtime : Runtime)
    (id : ConnectionId) (fades : ∀ connection : Connection,
      connection.facet.Fades (change connection).facet) :
    Drifts runtime (runtime.onConnection id change) := by
  unfold onConnection
  split
  · exact .refl runtime
  next session found => exact drifts_setSession found (fades session.connection)

theorem drifts_setCall (runtime : Runtime) (call : CallId) (value : Option PendingCall) :
    Drifts runtime (runtime.setCall call value) :=
  .of_facets rfl rfl rfl rfl (fun _ => rfl)

theorem drifts_driver {phase : Phase} (runtime : Runtime)
    (same : phase.greeted = runtime.driver.greeted) :
    Drifts runtime { runtime with driver := phase } :=
  .of_facets rfl rfl same rfl (fun _ => rfl)

section

variable (runtime) (call : CallId)

include call

theorem drifts_withdraw (pending : PendingCall) :
    Drifts runtime (runtime.withdraw call pending).1 := by
  unfold withdraw
  split
  · exact .refl runtime
  next id _ =>
    split
    · exact .refl runtime
    next session found =>
      split
      · exact .refl runtime
      · obtain ⟨same, closed, -⟩ := session.connection.retract_spec call
        exact drifts_setSession found ((same.facet closed) ▸ .same)

theorem drifts_retractAbandoned (pending : PendingCall) :
    Drifts runtime (runtime.retractAbandoned call pending).1 := by
  unfold retractAbandoned
  split
  · exact .refl runtime
  split
  · exact .refl runtime
  next id _ =>
    split
    · exact .refl runtime
    next session found =>
      split
      · obtain ⟨same, closed, -⟩ := session.connection.retract_spec call
        exact drifts_setSession found ((same.facet closed) ▸ .same)
      · exact .refl runtime

theorem drifts_abandon :
    Drifts runtime (runtime.abandon call).1 := by
  unfold abandon
  split
  · exact .refl runtime
  next pending _ =>
    have left := (drifts_setCall runtime call none).trans
      (drifts_retractAbandoned _ call pending)
    simp only
    split
    · split
      · exact left.trans (drifts_onConnection _ _ fun connection =>
          connection.fades_signalCancel call)
      · exact left
    · exact left

theorem drifts_streamRefused (violation : String) :
    Drifts runtime (runtime.streamRefused call violation).1 := by
  unfold streamRefused
  split
  · exact .refl runtime
  · exact drifts_setCall runtime call none

end

theorem drifts_streamEnd (runtime : Runtime) (origin : Origin) (call : CallId)
    (error : Option WireError) (violation : Option String) :
    Drifts runtime (runtime.streamEnd origin call error violation).1 := by
  unfold streamEnd
  split
  · exact .refl runtime
  split
  · exact drifts_setCall runtime call none
  · exact .of_facets rfl rfl rfl rfl (fun _ => rfl)

theorem drifts_admitTransmit (runtime : Runtime) (connection : Connection) (call : Option CallId)
    (frame : List UInt8) : Drifts runtime (runtime.admitTransmit connection call frame).1 := by
  unfold admitTransmit
  simp only
  split
  · exact drifts_setCall _ _ _
  · exact .refl runtime
  · exact drifts_setCall _ _ _
  · exact .refl runtime

theorem drifts_dropCall (address : Option SocketAddr) (reason : CloseReason) (established : Bool)
    (dropped : Runtime × List Resend × List Event) (call : CallId) :
    Drifts dropped.1 (dropCall address reason established dropped call).1 := by
  unfold dropCall
  simp only
  split
  · exact .refl _
  · split
    · exact drifts_setCall _ _ _
    · exact drifts_setCall _ _ _

theorem drifts_resendCall (gone : ConnectionId) (next : Except RpcError ConnectionId)
    (now : Duration) (resent : Runtime × List Event)
    (copy : CallId × Except RpcError (List UInt8)) :
    Drifts resent.1 (resendCall gone next now resent copy).1 := by
  unfold resendCall
  simp only
  split
  · exact .refl _
  split
  · exact .refl _
  split
  · exact drifts_setCall _ _ _
  split
  · exact drifts_setCall _ _ _
  · exact drifts_setCall _ _ _
  next frame _ =>
    split
    · exact drifts_setCall _ _ _
    next session found =>
      split
      next connection adopted =>
        obtain ⟨same, closed, -⟩ :=
          session.connection.adoptRequests_spec [(frame, some copy.1)] now
        rw [adopted] at same closed
        exact (drifts_setSession found ((same.facet closed) ▸ .same)).trans
          (drifts_setCall _ _ _)
      · exact drifts_setCall _ _ _

theorem drifts_pushRequest (runtime : Runtime) (id : ConnectionId) (frame : List UInt8)
    (call : Option CallId) (readings : Readings) :
    Drifts runtime (runtime.pushRequest id frame call readings).1 := by
  unfold pushRequest
  split
  · exact .refl runtime
  next session found =>
    split
    next connection pushed =>
      obtain ⟨same, opened, still, -⟩ := Connection.pushRequest_ok pushed
      exact drifts_setSession found ((same.facet (still.trans opened.symm)) ▸ .same)
    · exact .refl runtime
    · exact .refl runtime

theorem drifts_idleOut (found : runtime.sessions id = some session) (now : Duration) :
    Drifts runtime (runtime.idleOut id session now) := by
  unfold idleOut
  simp only
  split
  · exact .refl runtime
  · exact drifts_setSession found (session.connection.fades_closeIfIdle _ _ _)

theorem drifts_closeAll (runtime : Runtime) : Drifts runtime runtime.closeAll := by
  refine ⟨rfl, rfl, rfl, rfl, fun id => ?_⟩
  cases found : runtime.sessions id with
  | none =>
    simp only [facet, closeAll, found, Option.map_none]
    exact .none
  | some session =>
    simp only [facet, closeAll, found, Option.map_some]
    split
    · exact .some (session.connection.fades_close (by simp))
    · exact .some .same

section Racing

variable [Xxh3]

theorem drifts_pop (runtime : Runtime) (id : ConnectionId) : Drifts runtime (runtime.pop id) := by
  unfold pop
  split
  next session idle found =>
    split
    · have served := session.connection.pollNext_spec
      have polled : Drifts runtime (runtime.setSession id
          { session with connection := session.connection.pollNext.1 }) :=
        drifts_setSession found ((served.toSameSession.facet served.closed) ▸ .same)
      simp only
      split
      · refine polled.trans (drifts_driver _ ?_)
        rw [polled.greeted, idle]
        rfl
      · exact polled
    · exact .refl runtime
  · exact .refl runtime

theorem drifts_endCall (race : Race) (reason : PendingCall → Option ErrorReason)
    (ended : Runtime × List Event) (call : CallId) :
    Drifts ended.1 (endCall race reason ended call).1 := by
  have raced : Drifts ended.1 (ended.1.raced race call) := by
    unfold Runtime.raced
    split
    · split
      · exact drifts_pop _ _
      · exact .refl _
    · exact .refl _
  unfold endCall
  simp only
  split
  · exact raced
  · split
    · exact raced
    · exact raced.trans ((drifts_setCall _ call none).trans (drifts_withdraw _ call _))

theorem drifts_endCalls (race : Race) (reason : PendingCall → Option ErrorReason)
    (calls : List CallId) (runtime : Runtime) :
    Drifts runtime (calls.foldl (endCall race reason) (runtime, [])).1 :=
  Drifts.foldl Prod.fst (endCall race reason) calls (runtime, []) (drifts_endCall race reason)

theorem drifts_complete (runtime : Runtime) (origin : Origin) (call : CallId)
    (outcome : WireOutcome) (race : Race) :
    Drifts runtime (runtime.complete origin call outcome race).1 := by
  unfold complete
  split
  · exact .refl runtime
  split
  · exact .refl runtime
  have taken := drifts_setCall runtime call none
  simp only
  split
  · exact taken
  have learned : ∀ failures, Drifts runtime { runtime.setCall call none with failures } :=
    fun _ => .of_facets rfl rfl rfl rfl (fun _ => rfl)
  split
  · exact (learned _).trans (drifts_endCalls _ _ _ _)
  · exact learned _

theorem drifts_terminate (runtime : Runtime) (race : Race) :
    Drifts runtime (runtime.terminate race).1 := by
  have marked : Drifts runtime { runtime with lifecycle := .terminated } :=
    .of_facets rfl rfl rfl rfl (fun _ => rfl)
  exact marked.trans ((drifts_endCalls race _ _ _).trans (drifts_closeAll _))

end Racing

end Runtime

end Moonpool.Rpc
