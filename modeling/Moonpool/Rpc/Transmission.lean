import Moonpool.Rpc.Filed

/-!
Owns what taking, judging and withdrawing request frames does to the lives of calls, and
with it the ends a call has while its connection stays: a reply, a refusal, an end of its
stream, a caller that leaves, a loop that ends many calls.
-/

namespace Moonpool.Rpc.Runtime

open Option

variable {runtime : Runtime} {id : ConnectionId} {call : CallId} {frame : List UInt8}
  {held : Option CallId}

theorem isClosed_eq {before after : Connection} (closed : after.closed = before.closed) :
    after.isClosed = before.isClosed :=
  congrArg Option.isSome closed

theorem inHand_idle (idle : runtime.driver = .idle) (call : CallId) (id : ConnectionId) :
    runtime.inHand call id = 0 := by
  unfold inHand
  rw [idle]

theorem not_awaits_of_driver (other : ∀ id address copies,
    runtime.driver ≠ .resending id address copies) (id : ConnectionId) (call : CallId) :
    ¬ runtime.Awaits id call := by
  rintro ⟨address, copies, resending, -⟩
  exact other _ _ _ resending

theorem frames_taken {session : Session} {after : Connection} (idle : runtime.driver = .idle)
    (found : runtime.sessions id = some session)
    (taken : session.connection.requests = (frame, held) :: after.requests) (call : CallId)
    (other : ConnectionId) :
    Runtime.frames { runtime.setSession id { session with connection := after } with
      driver := .writing id frame held } call other = runtime.frames call other := by
  have hand : Runtime.inHand { runtime.setSession id { session with connection := after } with
      driver := .writing id frame held } call other =
        if id = other ∧ held = some call then 1 else 0 := rfl
  have queue : Runtime.queuedOn { runtime.setSession id { session with connection := after } with
      driver := .writing id frame held } call other =
        (runtime.setSession id { session with connection := after }).queuedOn call other := rfl
  unfold frames
  rw [hand, queue, inHand_idle idle, add_zero]
  by_cases same : other = id
  · rw [same, queuedOn_setSession_same, queuedOn_of_found found, taken, List.countP_cons]
    simp
  · rw [queuedOn_setSession_other runtime _ call same, if_neg (fun both => same both.1.symm),
      add_zero]

theorem inHand_writing (writing : runtime.driver = .writing id frame held) (call : CallId)
    (other : ConnectionId) :
    runtime.inHand call other = if id = other ∧ held = some call then 1 else 0 := by
  unfold inHand
  rw [writing]

theorem completion_finish_error (completion : Completion) (error : RpcError) :
    completion.finish (.error error) = .failed error := by
  cases completion <;> rfl

theorem ends_finished (call : CallId) (outcome : Outcome) (cause : Cause) :
    (Event.finished call outcome cause).Ends call outcome.unadmitted cause.rejected :=
  fun _ => rfl

variable [Xxh3]

theorem coherent_requests {session : Session} {after : Connection} (coherent : session.Coherent)
    (same : session.connection.SameSession after)
    (closed : after.closed = session.connection.closed)
    (emptied : after.isClosed = true → after.requests = [])
    (encoded : ∀ request ∈ after.requests, Encoded request.1) :
    Session.Coherent { session with connection := after } where
  emptied := emptied
  unlisted gone := by
    have ended := coherent.unlisted gone
    rwa [Connection.isClosed, ← closed] at ended
  current := coherent.current
  connecting early := by rw [same.established]; exact coherent.connecting early
  greeted done := by
    rw [same.established] at done
    rw [same.peerHello]
    exact coherent.greeted done
  failed reason ended := coherent.failed reason (closed ▸ ended)
  encoded := encoded

theorem advances_pop (founded : runtime.Founded) (id : ConnectionId) :
    Advances runtime [] (runtime.pop id) := by
  unfold pop
  split
  next session idle found =>
    split
    next running =>
      have served := session.connection.pollNext_spec
      have coherent := (founded.known found).2.2
      generalize session.connection.pollNext = polled at served
      obtain ⟨after, polled⟩ := polled
      have evolves : session.Evolves { session with connection := after } :=
        evolves_connection served.toSameSession
          (fun closed => (isClosed_eq served.closed).trans closed)
      rcases served.requests with ⟨frame, held, release, gave, established, taken⟩ | ⟨other, same⟩
      · have given : polled = .frame ⟨frame, .request held, release⟩ := by
          cases polled with
          | frame outgoing => exact congrArg Connection.Polled.frame (some.inj gave)
          | closed => cases gave
          | pending => cases gave
        simp only [given]
        have member : (frame, held) ∈ session.connection.requests := by
          rw [taken]
          exact List.mem_cons_self
        have coherentAfter : Session.Coherent { session with connection := after } := by
          refine coherent_requests coherent served.toSameSession served.closed ?_ ?_
          · intro closed
            have empty := coherent.emptied ((isClosed_eq served.closed).symm.trans closed)
            rw [taken] at empty
            cases empty
          · intro request kept
            apply coherent.encoded
            rw [taken]
            exact List.mem_cons_of_mem _ kept
        have keeps : Keeps runtime { runtime.setSession id { session with connection := after } with
            driver := .writing id frame held } := keeps_setSession found evolves
        refine ⟨⟨fun located => known_setSession founded found evolves.same coherentAfter located,
          fun pending rides => ?_, ?_, fun entry _ current =>
            (founded.selected entry current).keep keeps⟩, ?_⟩
        · obtain ⟨carrier, located, selected, left, listed⟩ := founded.carried pending rides
          obtain ⟨later, located, grown⟩ := keeps _ _ located
          refine ⟨later, located, grown.selected selected, grown.established ∘ left, .inl ?_⟩
          apply grown.listed
          exact listed.resolve_right (not_awaits_of_driver (by simp [idle]) _ _)
        · refine ⟨⟨_, setSession_same _ _ _, running, ?_⟩, coherent.encoded _ member⟩
          rw [served.established]
          exact established
        · exact simulates_of_fewer rfl rfl
            (fun call other => le_of_eq (frames_taken idle found taken call other))
      · have stays : Advances runtime []
            (runtime.setSession id { session with connection := after }) := by
          refine advances_setSession founded found evolves ?_
            (fun call => le_of_eq (by rw [same]))
          refine coherent_requests coherent served.toSameSession served.closed ?_ ?_
          · intro closed
            rw [same]
            exact coherent.emptied ((isClosed_eq served.closed).symm.trans closed)
          · rw [same]
            exact coherent.encoded
        simp only
        split
        next frame held release => exact absurd rfl (other frame held release)
        · exact stays
    · exact .refl founded
  · exact .refl founded

theorem advances_raced (founded : runtime.Founded) (race : Race) (call : CallId) :
    Advances runtime [] (runtime.raced race call) := by
  unfold raced
  split
  · split
    · exact advances_pop founded _
    · exact .refl founded
  · exact .refl founded

theorem Filed.holding (filed : runtime.Filed)
    (writing : runtime.driver = .writing id frame (some call)) :
    (∀ other, runtime.queuedOn call other = 0) ∧ runtime.At call (some id) := by
  have holds : runtime.inHand call id = 1 := by simp [inHand_writing writing]
  have alive : 0 < runtime.frames call id := by
    unfold frames
    omega
  have alone := filed.alone alive
  constructor
  · intro other
    have one := alone other
    unfold frames at one
    rw [inHand_writing writing] at one
    by_cases same : other = id
    · subst same
      simpa using one
    · rw [if_neg same] at one
      omega
  · intro other
    rw [alone other]
    simp only [Option.some.injEq, eq_comm]

theorem Filed.putDown (filed : runtime.Filed) (writing : runtime.driver = .writing id frame held) :
    Advances runtime [] { runtime with driver := .idle } :=
  advances_phase filed.toFounded
    (fun id call _ _ _ => not_awaits_of_driver (by simp [writing]) id call) (by simp) trivial

theorem Filed.writes {pending : PendingCall} (filed : runtime.Filed)
    (writing : runtime.driver = .writing id frame (some call))
    (found : runtime.pending call = some pending) :
    Advances runtime [.written (some call) id frame]
      (Runtime.setCall { runtime with driver := .idle } call
        (some { pending with transmitted := true })) := by
  obtain ⟨queued, located⟩ := filed.holding writing
  have alive : 0 < runtime.frames call id := by
    rw [located id, if_pos rfl]
    exact Nat.zero_lt_one
  obtain ⟨origin, untransmitted⟩ := filed.rides found alive
  obtain ⟨⟨session, sessionAt, running, established⟩, -⟩ := filed.drivenAt writing
  constructor
  · refine ⟨filed.known, fun {other} => ?_, trivial, filed.selected⟩
    intro next carrier located rides
    rcases pending_of_setCall located with ⟨rfl, ⟨⟩⟩ | ⟨-, located⟩
    · obtain ⟨carrying, carryingAt, selected, -, listed⟩ := filed.carried found rides
      have equal : carrier = id := Origin.connection.inj (rides.symm.trans origin)
      rw [equal] at carryingAt
      cases carryingAt.symm.trans sessionAt
      rw [equal]
      exact ⟨session, sessionAt, selected, fun _ => established,
        .inl ((filed.known sessionAt).2.2.running running)⟩
    · obtain ⟨carrying, carryingAt, selected, left, listed⟩ := filed.carried located rides
      exact ⟨carrying, carryingAt, selected, left,
        .inl (listed.resolve_right (not_awaits_of_driver (by simp [writing]) _ _))⟩
  · refine simulates_of_touch call rfl (fun other differs => setCall_other _ _ differs)
      (fun other _ x => Nat.add_le_add_left (Nat.zero_le _) _)
      (fun other differs => by simp [moments, Event.moment, Ne.symm differs]) (fun state shows => ?_)
    obtain ⟨place, rfl, used, kept, shownPlace, rides⟩ := shows.inv found
    rw [shownPlace.eq_some alive]
    have empty : (Runtime.setCall { runtime with driver := .idle } call
        (some { pending with transmitted := true })).At call none := queued
    refine ⟨_, .pending used (setCall_same _ _ _) ⟨kept.earlier, kept.retained⟩ empty
      (fun _ none => by cases none), ?_⟩
    simpa [moments, Event.moment] using Life.write.lives

theorem advances_judge {session : Session} (filed : runtime.Filed)
    (writing : runtime.driver = .writing id frame held)
    (found : runtime.sessions id = some session) :
    Advances runtime
      (admitTransmit { runtime with driver := .idle } session.connection held frame).2
      (admitTransmit { runtime with driver := .idle } session.connection held frame).1 := by
  have put := filed.putDown writing
  have named := (filed.known found).2.1
  unfold admitTransmit
  simp only
  split
  next reason call pending refused located =>
    -- A refused frame is dropped, so the call's end may say that nothing left.
    obtain ⟨holder, heldBy, pairs⟩ := bind_eq_some_iff.mp located
    obtain ⟨_, foundCall, same⟩ := map_eq_some_iff.mp pairs
    cases same
    subst heldBy
    obtain ⟨queued, placed⟩ := filed.holding writing
    have alive : 0 < runtime.frames call id := by
      rw [placed id, if_pos rfl]
      exact Nat.zero_lt_one
    refine put.trans (advances_end foundCall (ends_finished _ _ _) ?_ ?_ put.founded)
    · intro claimed _
      refine ⟨(filed.rides foundCall alive).2, ?_, queued⟩
      by_contra earlier
      have earlier : pending.earlierTransmitted = true := by simpa using earlier
      simp [completion_finish_error, earlier, Outcome.unadmitted] at claimed
    · intro _ rejected
      cases rejected
  · exact put
  next call pending allowed located =>
    obtain ⟨holder, heldBy, pairs⟩ := bind_eq_some_iff.mp located
    obtain ⟨_, foundCall, same⟩ := map_eq_some_iff.mp pairs
    cases same
    subst heldBy
    rw [named]
    exact filed.writes writing foundCall
  next allowed absent =>
    refine ⟨put.founded, ?_⟩
    cases held with
    | none => exact put.simulates
    | some call =>
      have gone : runtime.pending call = none := by simpa using absent
      obtain ⟨queued, placed⟩ := filed.holding writing
      have alive : 0 < runtime.frames call id := by
        rw [placed id, if_pos rfl]
        exact Nat.zero_lt_one
      refine simulates_of_touch call rfl (fun _ _ => rfl)
        (fun other _ x => Nat.add_le_add_left (Nat.zero_le _) _)
        (fun other differs => by simp [moments, Event.moment, Ne.symm differs])
        (fun state shows => ?_)
      cases shows with
      | unborn free absent located => cases located.eq_some alive
      | pending used found kept located rides =>
        rw [gone] at found
        cases found
      | @past place used absent located =>
        rw [located.eq_some alive]
        have empty : Runtime.At { runtime with driver := .idle } call none := queued
        refine ⟨_, .past used absent empty, ?_⟩
        simpa [moments, Event.moment] using Life.writeOver.lives

end Moonpool.Rpc.Runtime
