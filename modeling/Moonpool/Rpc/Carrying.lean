import Moonpool.Rpc.Endings

/-!
Owns what choosing a connection does to the lives of calls: queued requests that move to
another connection, connections that are made, and calls that start on them.
-/

namespace Moonpool.Rpc

namespace Session

def emptied (session : Session) : Session :=
  { session with connection := session.connection.takeRequests.1 }

def given (session : Session) (moved : List QueuedRequest) (now : Duration) : Session :=
  { session with connection := (session.connection.adoptRequests moved now).1 }

def replaced (session : Session) : Session :=
  { session with connection := session.connection.close .replaced }

end Session

namespace Runtime

def movedPending (runtime : Runtime) (id : ConnectionId) (moved : List QueuedRequest)
    (call : CallId) : Option PendingCall :=
  if ∃ request ∈ moved, request.2 = some call then
    (runtime.pending call).map fun pending => { pending with origin := .connection id }
  else runtime.pending call

theorem movedPending_cons {runtime after : Runtime} {request : QueuedRequest} {call : CallId}
    (id : ConnectionId) (rest : List QueuedRequest) (differs : request.2 ≠ some call)
    (same : after.pending call = runtime.pending call) :
    runtime.movedPending id (request :: rest) call = after.movedPending id rest call := by
  unfold movedPending
  rw [same]
  refine if_congr ?_ rfl rfl
  simp [differs]

theorem foldl_moveCall (id : ConnectionId) (moved : List QueuedRequest) (runtime : Runtime) :
    moved.foldl (moveCall id) runtime =
      { runtime with pending := runtime.movedPending id moved } := by
  induction moved generalizing runtime with
  | nil => rfl
  | cons request rest ih =>
    rw [List.foldl_cons, ih]
    obtain ⟨frame, held⟩ := request
    cases held with
    | none =>
      have same : runtime.movedPending id ((frame, none) :: rest) =
          runtime.movedPending id rest := by
        funext call
        exact movedPending_cons id rest (by simp) rfl
      rw [same]
      rfl
    | some moving =>
      have present : ∃ request ∈ (frame, some moving) :: rest, request.2 = some moving :=
        ⟨_, List.mem_cons_self, rfl⟩
      unfold moveCall
      simp only
      cases found : runtime.pending moving with
      | none =>
        have same : runtime.movedPending id ((frame, some moving) :: rest) =
            runtime.movedPending id rest := by
          funext call
          by_cases equal : moving = call
          · subst equal
            unfold movedPending
            rw [if_pos present, found]
            split <;> rfl
          · exact movedPending_cons id rest (by simpa using equal) rfl
        simp only [same]
      | some pending =>
        have same : runtime.movedPending id ((frame, some moving) :: rest) =
            (runtime.setCall moving
              (some { pending with origin := .connection id })).movedPending id rest := by
          funext call
          by_cases equal : call = moving
          · subst equal
            unfold movedPending
            rw [if_pos present, found, setCall_same]
            split <;> rfl
          · exact movedPending_cons id rest (by simpa using Ne.symm equal)
              (setCall_other _ _ equal)
        rw [same]
        rfl

theorem onConnection_of_found {runtime : Runtime} {id : ConnectionId} {session : Session}
    (found : runtime.sessions id = some session) (change : Connection → Connection) :
    runtime.onConnection id change =
      runtime.setSession id { session with connection := change session.connection } := by
  unfold onConnection
  rw [found]

theorem mem_of_movedPending {runtime : Runtime} {id : ConnectionId} {moved : List QueuedRequest}
    {call : CallId} {after : PendingCall}
    (found : runtime.movedPending id moved call = some after) :
    runtime.pending call = some after ∧ (∀ request ∈ moved, request.2 ≠ some call) ∨
      ∃ pending, runtime.pending call = some pending ∧
        (∃ request ∈ moved, request.2 = some call) ∧
        after = { pending with origin := .connection id } := by
  unfold movedPending at found
  split at found
  next present =>
    obtain ⟨pending, located, rfl⟩ := Option.map_eq_some_iff.mp found
    exact .inr ⟨pending, located, present, rfl⟩
  next absent => exact .inl ⟨found, fun request member named => absent ⟨request, member, named⟩⟩

section TakeOver

variable {runtime : Runtime} {id old : ConnectionId} {session target : Session}

/-- The runtime once the requests of `old` were taken and their calls moved to `id`. -/
def moving (runtime : Runtime) (id old : ConnectionId) (session : Session) : Runtime :=
  { runtime.setSession old session.emptied with
    pending := runtime.movedPending id session.connection.requests }

theorem takeOver_eq (found : (runtime.moving id old session).sessions id = some target)
    (foundOld : runtime.sessions old = some session) (now : Duration) :
    ∃ closing,
      ((runtime.moving id old session).setSession id
        (target.given session.connection.requests now)).sessions old = some closing ∧
      runtime.takeOver id old session now =
        ((runtime.moving id old session).setSession id
          (target.given session.connection.requests now)).setSession old closing.replaced := by
  obtain ⟨closing, closingAt⟩ : ∃ closing, ((runtime.moving id old session).setSession id
      (target.given session.connection.requests now)).sessions old = some closing := by
    by_cases same : old = id
    · rw [same]
      exact ⟨_, setSession_same _ _ _⟩
    · exact ⟨_, (setSession_other _ _ same).trans (setSession_same _ _ _)⟩
  have moved : session.connection.requests.foldl (moveCall id)
      (runtime.onConnection old fun connection => connection.takeRequests.1) =
        runtime.moving id old session := by
    rw [onConnection_of_found foundOld, foldl_moveCall]
    rfl
  refine ⟨closing, closingAt, ?_⟩
  have taken : session.connection.takeRequests.2 = session.connection.requests := rfl
  unfold takeOver
  simp only [taken, moved]
  rw [onConnection_of_found found]
  exact onConnection_of_found closingAt _

theorem evolves_emptied (session : Session) : session.Evolves session.emptied :=
  evolves_connection ⟨rfl, rfl, rfl, rfl, rfl, rfl⟩ (fun closed => closed)

theorem evolves_given (session : Session) (moved : List QueuedRequest) (now : Duration) :
    session.Evolves (session.given moved now) := by
  obtain ⟨same, closed, -⟩ := session.connection.adoptRequests_spec moved now
  exact evolves_connection same (fun ended => (isClosed_eq closed).trans ended)

section

variable (found : (runtime.moving id old session).sessions id = some target)
  (foundOld : runtime.sessions old = some session) (now : Duration)

include found foundOld now

theorem keeps_takeOver :
    Keeps runtime (runtime.takeOver id old session now) := by
  obtain ⟨closing, closingAt, same⟩ := takeOver_eq found foundOld now
  have emptied : Keeps runtime (runtime.moving id old session) :=
    keeps_setSession foundOld (evolves_emptied session)
  rw [same]
  exact (emptied.trans (keeps_setSession found (evolves_given target _ now))).trans
    (keeps_setSession closingAt (evolves_connection ⟨rfl, rfl, rfl, rfl, rfl, rfl⟩ fun _ => rfl))

theorem frames_takeOver_le (call : CallId)
    (other : ConnectionId) :
    (runtime.takeOver id old session now).frames call other ≤
      runtime.inHand call other + if other = old then 0 else
        runtime.queuedOn call other + if other = id then runtime.queuedOn call old else 0 := by
  obtain ⟨closing, -, same⟩ := takeOver_eq found foundOld now
  have hand : (runtime.takeOver id old session now).inHand call other =
      runtime.inHand call other := by
    rw [same]
    rfl
  rw [frames, hand, add_comm]
  apply Nat.add_le_add_left
  rw [same]
  by_cases isOld : other = old
  · rw [isOld, queuedOn_setSession_same]
    exact Nat.zero_le _
  rw [if_neg isOld, queuedOn_setSession_other _ _ call isOld]
  have before : ∀ other, other ≠ old →
      (runtime.moving id old session).queuedOn call other = runtime.queuedOn call other :=
    fun other differs => queuedOn_setSession_other runtime _ call differs
  by_cases isId : other = id
  · rw [isId] at isOld ⊢
    rw [if_pos rfl, queuedOn_setSession_same, ← before id isOld, queuedOn_of_found found,
      queuedOn_of_found foundOld]
    have requests := (target.connection.adoptRequests_spec session.connection.requests now).2.2.2
    unfold Session.given
    simp only [requests]
    split
    · exact Nat.le_add_right _ _
    · exact le_of_eq List.countP_append
  · rw [if_neg isId, queuedOn_setSession_other _ _ call isId, before other isOld]
    exact le_refl _

end

variable [Xxh3]

theorem Founded.moves {moved : List QueuedRequest} (founded : runtime.Founded)
    (found : runtime.sessions id = some target) (listed : target.listed = true)
    (selected : target.connection.peerAddress.isSome = true)
    (untransmitted : ∀ call pending, runtime.pending call = some pending →
      (∃ request ∈ moved, request.2 = some call) → pending.transmitted = false)
    (ending : ∀ other call error, runtime.driver = .ending other call error →
      ∀ pending, runtime.pending call = some pending →
        ¬ ∃ request ∈ moved, request.2 = some call)
    (resending : ∀ other address copies, runtime.driver = .resending other address copies →
      other ≠ id) :
    Founded { runtime with pending := runtime.movedPending id moved } where
  known := founded.known
  selected := founded.selected
  carried := by
    intro call after carrier located rides
    rcases mem_of_movedPending located with ⟨same, -⟩ | ⟨pending, same, named, rfl⟩
    · exact founded.carried same rides
    cases rides
    refine ⟨target, found, selected, fun left => ?_, .inl listed⟩
    rw [untransmitted call pending same named] at left
    cases left
  driven := by
    refine founded.driven.keep (keeps_of_eq rfl) (le_refl _) ?_ ?_
    · intro other call error phase _ after located
      rcases mem_of_movedPending located with ⟨same, -⟩ | ⟨pending, same, named, -⟩
      · exact same
      · exact absurd named (ending other call error phase pending same)
    · intro other address copies phase copy _ after located rides
      rcases mem_of_movedPending located with ⟨same, -⟩ | ⟨pending, same, named, rfl⟩
      · exact same
      · cases rides
        exact absurd rfl (resending id address copies phase)

theorem Founded.gives {moved : List QueuedRequest} (founded : runtime.Founded)
    (found : runtime.sessions id = some target)
    (encoded : ∀ request ∈ moved, Encoded request.1) (now : Duration) :
    (runtime.setSession id (target.given moved now)).Founded := by
  obtain ⟨same, closed, -, requests⟩ := target.connection.adoptRequests_spec moved now
  have coherent := (founded.known found).2.2
  refine founded.setSession found (evolves_given target moved now)
    (coherent_requests coherent same closed ?_ ?_)
  · intro ended
    have ended := (isClosed_eq closed).symm.trans ended
    rw [requests, if_pos ended]
    exact coherent.emptied ended
  · intro request member
    rw [requests] at member
    split at member
    · exact coherent.encoded request member
    · exact (List.mem_append.mp member).elim (coherent.encoded request) (encoded request)

theorem Filed.lives_takeOver (filed : runtime.Filed)
    (found : (runtime.moving id old session).sessions id = some target)
    (foundOld : runtime.sessions old = some session) (now : Duration) :
    Simulates runtime [] (runtime.takeOver id old session now) := by
  intro call state shows
  have bound := frames_takeOver_le found foundOld now call
  obtain ⟨closing, -, same⟩ := takeOver_eq found foundOld now
  have ids : (runtime.takeOver id old session now).nextCallId = runtime.nextCallId := by
    rw [same]
    rfl
  have record : (runtime.takeOver id old session now).pending call =
      runtime.movedPending id session.connection.requests call := by
    rw [same]
    rfl
  unfold movedPending at record
  split at record
  next named =>
    have queued : 0 < runtime.queuedOn call old := by
      rw [queuedOn_of_found foundOld]
      obtain ⟨request, member, names⟩ := named
      exact List.countP_pos_iff.mpr ⟨request, member, decide_eq_true names⟩
    have alive : 0 < runtime.frames call old := Nat.lt_of_lt_of_le queued (Nat.le_add_right _ _)
    have most : ∀ other, (runtime.takeOver id old session now).frames call other ≤
        if some id = some other then 1 else 0 := by
      intro other
      have here := bound other
      have there := filed.alone alive other
      have source := filed.alone alive old
      unfold frames at there source
      rw [if_pos rfl] at source
      refine le_trans here ?_
      by_cases isOld : other = old
      · subst isOld
        rw [if_pos rfl] at there ⊢
        omega
      · rw [if_neg isOld] at there ⊢
        by_cases isId : other = id
        · subst isId
          rw [if_pos rfl, if_pos rfl]
          omega
        · rw [if_neg isId, if_neg (fun equal => isId (Option.some.inj equal).symm)]
          omega
    cases shows with
    | unborn free absent located => cases located.eq_some alive
    | @pending pending place used located kept shownPlace rides =>
      obtain rfl := shownPlace.eq_some alive
      rw [located] at record
      have untransmitted := (rides old rfl).2
      rcases at_of_le most with there | gone
      · exact ⟨_, .pending (ids ▸ used) record ⟨kept.earlier, kept.retained⟩ there
          (fun other equal => ⟨congrArg Origin.connection (Option.some.inj equal),
            untransmitted⟩), .rest _⟩
      · exact ⟨_, .pending (ids ▸ used) record ⟨kept.earlier, kept.retained⟩ gone
          (fun other equal => by cases equal), Life.lose.lives⟩
    | @past place used absent shownPlace =>
      obtain rfl := shownPlace.eq_some alive
      rw [absent] at record
      rcases at_of_le most with there | gone
      · exact ⟨_, .past (ids ▸ used) record there, .rest _⟩
      · exact ⟨_, .past (ids ▸ used) record gone, Life.loseOver.lives⟩
  next unnamed =>
    have unqueued : runtime.queuedOn call old = 0 := by
      rw [queuedOn_of_found foundOld, List.countP_eq_zero]
      intro request member names
      exact unnamed ⟨request, member, of_decide_eq_true names⟩
    refine shows.fewer ids record (fun other => le_trans (bound other) ?_)
    rw [unqueued, ite_self, add_zero, frames, add_comm]
    apply Nat.add_le_add_right
    split
    · exact Nat.zero_le _
    · exact le_refl _

theorem Filed.takesOver (filed : runtime.Filed) (foundOld : runtime.sessions old = some session)
    (found : runtime.sessions id = some target) (listed : target.listed = true)
    (selected : target.connection.peerAddress.isSome = true)
    (calm : runtime.driver = .idle ∨
      target.connection.isClosed = false ∧ session.connection.established = false)
    (now : Duration) : Advances runtime [] (runtime.takeOver id old session now) := by
  obtain ⟨getting, gettingAt, grown⟩ := keeps_setSession foundOld (evolves_emptied session) _ _ found
  have rides : ∀ call pending, runtime.pending call = some pending →
      (∃ request ∈ session.connection.requests, request.2 = some call) →
      pending.origin = .connection old ∧ pending.transmitted = false := by
    rintro call pending located ⟨request, member, names⟩
    apply filed.rides located
    refine Nat.lt_of_lt_of_le ?_ (Nat.le_add_right _ _)
    rw [queuedOn_of_found foundOld]
    exact List.countP_pos_iff.mpr ⟨request, member, decide_eq_true names⟩
  have moved : (runtime.moving id old session).Founded := by
    have emptied := filed.toFounded.setSession foundOld (evolves_emptied session)
      (coherent_requests (filed.toFounded.known foundOld).2.2 ⟨rfl, rfl, rfl, rfl, rfl, rfl⟩ rfl
        (fun _ => rfl) nofun)
    refine emptied.moves gettingAt (grown.listed listed) (grown.selected selected)
      (fun call pending located named => (rides call pending located named).2) ?_ ?_
    · intro other call error busy pending located named
      have phase : runtime.driver = .ending other call error := busy
      obtain ⟨⟨heard, heardAt, -, established⟩, -, streams⟩ := filed.drivenAt phase
      cases (rides call pending located named).1.symm.trans (streams pending located).1
      cases heardAt.symm.trans foundOld
      rcases calm with idle | ⟨-, unestablished⟩
      · cases phase.symm.trans idle
      · cases established.symm.trans unestablished
    · rintro other address copies busy rfl
      have phase : runtime.driver = .resending other address copies := busy
      rcases calm with idle | ⟨opened, -⟩
      · cases phase.symm.trans idle
      · cases (filed.gone_closed phase found).symm.trans opened
  refine ⟨?_, filed.lives_takeOver gettingAt foundOld now⟩
  obtain ⟨closing, closingAt, same⟩ := takeOver_eq gettingAt foundOld now
  rw [same]
  have given := moved.gives gettingAt (filed.known foundOld).2.2.encoded now
  exact (advances_calm given closingAt (closing.connection.calm_close rfl)).founded

end TakeOver

end Runtime

end Moonpool.Rpc
