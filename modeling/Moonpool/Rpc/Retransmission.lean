import Moonpool.Rpc.Teardown

/-!
Owns what queueing the copies of retained calls again, and ending the runtime, does to the
lives of calls.
-/

namespace Moonpool.Rpc.Runtime

open List

variable [Xxh3] {runtime : Runtime} {id gone : ConnectionId} {call : CallId}
  {pending : PendingCall} {address : SocketAddr} {copies : List Resend}

section

variable (filed : runtime.Filed) (resending : runtime.driver = .resending gone address copies)

include filed resending

theorem Filed.frames_waiting (found : runtime.pending call = some pending)
    (rides : pending.origin = .connection gone) (other : ConnectionId) :
    runtime.frames call other = 0 := by
  by_cases same : other = gone
  · obtain ⟨⟨session, located, closed⟩, -⟩ := filed.drivenAt resending
    have hand : runtime.inHand call gone = 0 := by
      unfold inHand
      rw [resending]
    rw [same, frames, hand, queuedOn_of_found located, (filed.known located).2.2.emptied closed]
    rfl
  · exact filed.frames_elsewhere found rides same

theorem Filed.failsWaiting (found : runtime.pending call = some pending)
    (rides : pending.origin = .connection gone) (reason : ErrorReason) :
    Advances runtime [.finished call
        (pending.completion.finish (.error ⟨reason, pending.execution⟩)) .runtime]
      (runtime.setCall call none) := by
  refine advances_end found (ends_finished _ _ _) ?_ ?_ filed.toFounded
  · intro claimed _
    obtain ⟨untransmitted, unearlier⟩ := execution_notAdmitted.mp (of_decide_eq_true claimed)
    exact ⟨untransmitted, unearlier, filed.frames_waiting resending found rides⟩
  · intro _ rejected
    cases rejected

theorem Filed.requeues {session : Session} {frame : List UInt8}
    (copied : ∃ copy ∈ copies, copy.call = call) (found : runtime.pending call = some pending)
    (rides : pending.origin = .connection gone) (located : runtime.sessions id = some session)
    (opened : session.connection.isClosed = false)
    (selected : session.connection.peerAddress.isSome = true) (encoded : Encoded frame)
    (now : Duration) :
    Advances runtime [.queued (some call) id]
      ((runtime.setSession id (session.given [(frame, some call)] now)).setCall call
        (some { pending with origin := .connection id })) := by
  obtain ⟨same, closed, -, requests⟩ :=
    session.connection.adoptRequests_spec [(frame, some call)] now
  rw [if_neg (by simp [opened])] at requests
  have count : ∀ other place,
      (runtime.setSession id (session.given [(frame, some call)] now)).frames other place =
        runtime.frames other place + if place = id ∧ call = other then 1 else 0 := by
    intro other place
    rw [frames_setSession_append located requests other place, countP_singleton]
    by_cases here : place = id <;> simp [here]
  obtain ⟨copy, member, named⟩ := copied
  obtain ⟨retained, untransmitted⟩ :=
    (filed.drivenAt resending).2 copy member pending (named ▸ found) rides
  have unheld := filed.frames_waiting resending found rides
  constructor
  · have frames : ∀ request ∈ [(frame, some call)], Encoded request.1 := by
      intro request one
      cases mem_singleton.mp one
      exact encoded
    refine (filed.toFounded.gives located frames now).adds ?_ (fun other ending error busy => ?_)
    · rintro place ⟨⟩
      refine ⟨untransmitted, _, setSession_same _ _ _, (isClosed_eq closed).trans opened, ?_⟩
      exact (congrArg Option.isSome same.peerAddress).trans selected
    · exact absurd (resending.symm.trans busy) (by simp)
  · have held : ((runtime.setSession id (session.given [(frame, some call)] now)).setCall call
        (some { pending with origin := .connection id })).At call (some id) := by
      intro place
      rw [frames_setCall, count, unheld place]
      simp [eq_comm]
    refine simulates_of_touch call rfl (fun other differs => setCall_other _ _ differs)
      (fun other differs place => ?_)
      (fun other differs => by simp [moments, Event.moment, Ne.symm differs])
      (fun state shows => ?_)
    · rw [frames_setCall, count, if_neg (fun both => differs both.2.symm)]
      exact le_refl _
    · obtain ⟨place, rfl, used, kept, there, -⟩ := shows.inv found
      have nowhere : place = none := there.none_of_unheld unheld
      refine ⟨_, .pending used (setCall_same _ _ _) ⟨kept.earlier, kept.retained⟩ held ?_, ?_⟩
      · rintro other ⟨⟩
        exact ⟨rfl, untransmitted⟩
      · have requeued : Lives (.pending false pending.earlierTransmitted true false) [.queued]
            (.pending false pending.earlierTransmitted true true) := Life.requeue.lives
        simpa [moments, Event.moment, nowhere, retained, untransmitted] using requeued

end

/-- What holds while the copies are queued, `rest` being the calls to come. -/
structure Resending (before : Runtime) (gone : ConnectionId) (copies : List Resend)
    (next : Except RpcError ConnectionId) (rest : List CallId) (resent : Runtime × List Event) :
    Prop where
  advances : Advances before resent.2 resent.1
  driver : resent.1.driver = before.driver
  selected : ∀ id, next = .ok id → resent.1.Selected id
  waiting : ∀ copy ∈ copies, ∀ pending, resent.1.pending copy.call = some pending →
    pending.origin = .connection gone → copy.call ∈ rest

section Resending

variable {before : Runtime} {next : Except RpcError ConnectionId} {rest : List CallId}
  {resent : Runtime × List Event}

theorem Resending.put (resends : Resending before gone copies next (call :: rest) resent)
    {after : Runtime} {events : List Event} (advances : Advances resent.1 events after)
    (driver : after.driver = resent.1.driver) (keeps : Keeps resent.1 after)
    (same : ∀ other, other ≠ call → after.pending other = resent.1.pending other)
    (settled : ∀ pending, after.pending call = some pending →
      pending.origin ≠ .connection gone) :
    Resending before gone copies next rest (after, resent.2 ++ events) where
  advances := resends.advances.trans advances
  driver := driver.trans resends.driver
  selected id chosen := (resends.selected id chosen).keep keeps
  waiting copy member pending located rides := by
    by_cases equal : copy.call = call
    · rw [equal] at located
      exact absurd rides (settled pending located)
    · rw [same copy.call equal] at located
      have later := resends.waiting copy member pending located rides
      exact (mem_cons.mp later).resolve_left equal

theorem Resending.step {frame : Except RpcError (List UInt8)}
    (resends : Resending before gone copies next (call :: rest) resent) (now : Duration)
    (filed : before.Filed) (driving : before.driver = .resending gone address copies)
    (copied : ∃ copy ∈ copies, copy.call = call)
    (encoded : ∀ bytes, frame = .ok bytes → Encoded bytes) :
    Resending before gone copies next rest (resendCall gone next now resent (call, frame)) := by
  have resending := resends.driver.trans driving
  have filed := filed.advance resends.advances
  have settled : (∀ pending, resent.1.pending call = some pending →
      pending.origin ≠ .connection gone) →
      Resending before gone copies next rest (resent.1, resent.2) := by
    intro settled
    have put := resends.put (.refl filed.toFounded) rfl (keeps_of_eq rfl) (fun _ _ => rfl) settled
    rwa [append_nil] at put
  unfold resendCall
  simp only
  split
  next absent =>
    apply settled
    intro pending located
    rw [absent] at located
    cases located
  next pending found =>
    split
    next elsewhere =>
      apply settled
      intro other located
      rw [found] at located
      cases located
      exact elsewhere
    next rides =>
      have rides : pending.origin = .connection gone := by simpa using rides
      have fails : ∀ reason, Resending before gone copies next rest
          (resent.1.setCall call none, resent.2 ++ [.finished call
            (pending.completion.finish (.error ⟨reason, pending.execution⟩)) .runtime]) := by
        intro reason
        refine resends.put (filed.failsWaiting resending found rides reason) rfl (keeps_of_eq rfl)
          (fun other differs => setCall_other _ _ differs) (fun other located => ?_)
        rw [setCall_same] at located
        cases located
      split
      · exact fails _
      split
      · exact fails _
      · exact fails _
      next id bytes =>
        split
        · exact fails _
        next session located =>
          obtain ⟨-, -, adopts, -⟩ :=
            session.connection.adoptRequests_spec [(bytes, some call)] now
          split
          next connection queued =>
            have opened := adopts.mp (by rw [queued])
            obtain ⟨chosen, chosenAt, selected⟩ := resends.selected id rfl
            cases chosenAt.symm.trans located
            have given : session.given [(bytes, some call)] now =
                { session with connection := connection } := by
              unfold Session.given
              rw [queued]
            have requeued := filed.requeues resending copied found rides located opened selected
              (encoded bytes rfl) now
            rw [given] at requeued
            refine resends.put requeued rfl ?_
              (fun other differs => setCall_other _ _ differs) (fun after located => ?_)
            · have keeps := keeps_setSession located (given ▸ evolves_given session _ now)
              exact keeps
            · rw [setCall_same] at located
              cases located
              rintro ⟨⟩
              cases (filed.gone_closed resending chosenAt).symm.trans opened
          · exact fails _

theorem Resending.all {frames : List (CallId × Except RpcError (List UInt8))}
    (resends : Resending before gone copies next (frames.map Prod.fst) resent) (now : Duration)
    (filed : before.Filed) (driving : before.driver = .resending gone address copies)
    (copied : ∀ copy ∈ frames, ∃ source ∈ copies, source.call = copy.1)
    (encoded : ∀ copy ∈ frames, ∀ bytes, copy.2 = .ok bytes → Encoded bytes) :
    Resending before gone copies next [] (frames.foldl (resendCall gone next now) resent) := by
  induction frames generalizing resent with
  | nil => exact resends
  | cons copy frames ih =>
    have step := resends.step now filed driving (copied _ mem_cons_self)
      (fun bytes made => encoded _ mem_cons_self bytes made)
    exact ih step (fun copy member => copied copy (mem_cons_of_mem _ member))
      (fun copy member => encoded copy (mem_cons_of_mem _ member))

end Resending

theorem encoded_of_copyFrame {limit : UInt32} {credential : CallId → Option (List UInt8)}
    {copy : Resend} {bytes : List UInt8}
    (made : (copyFrame limit credential copy).2 = .ok bytes) : Encoded bytes := by
  cases section_ : credentialSection (credential copy.call) with
  | error error =>
    simp only [copyFrame, section_, bind, Except.bind] at made
    cases made
  | ok metadata =>
    simp only [copyFrame, section_, bind, Except.bind] at made
    exact encoded_of_requestFrame RequestKind.built_twoWay (credentialSection_length section_) made

theorem Filed.retransmits (filed : runtime.Filed)
    (resending : runtime.driver = .resending gone address copies)
    (credential : CallId → Option (List UInt8)) (now : Duration) :
    Advances runtime (runtime.retransmit address gone copies credential now).2
      { (runtime.retransmit address gone copies credential now).1 with driver := .idle } := by
  obtain ⟨connected, selected⟩ := filed.connects address now
  have quiet := quiet_peerConnection runtime address now
  unfold retransmit
  generalize runtime.peerConnection address now = chosen at connected selected quiet
  obtain ⟨after, next⟩ := chosen
  have driving : after.driver = .resending gone address copies := quiet.driver.trans resending
  have filed := filed.advance connected
  have start : Resending after gone copies next
      ((copies.map (copyFrame runtime.config.maxFrameBytes credential)).map Prod.fst)
      (after, []) := by
    refine ⟨.refl connected.founded, rfl, selected, fun copy member _ _ _ => ?_⟩
    rw [map_map]
    exact mem_map.mpr ⟨copy, member, rfl⟩
  have all := start.all now filed driving ?_ ?_
  · refine connected.trans ?_
    have idle : Advances _ [] (Runtime.mk _ _ _ _ _ _ _ _ .idle _) :=
      advances_phase all.advances.founded ?_ (by simp) trivial
    · have both := all.advances.trans idle
      rwa [append_nil] at both
    · rintro id call pending found rides ⟨_, waiting, busy, copy, member, rfl⟩
      cases (all.driver.trans driving).symm.trans busy
      cases all.waiting copy member pending found rides
  · intro copy member
    obtain ⟨source, listed, rfl⟩ := mem_map.mp member
    exact ⟨source, listed, rfl⟩
  · intro copy member bytes made
    obtain ⟨source, listed, rfl⟩ := mem_map.mp member
    exact encoded_of_copyFrame made

omit [Xxh3] in
theorem closeAll_sessions {session : Session} (found : runtime.sessions id = some session) :
    runtime.closeAll.sessions id = some (if session.listed then
      { session with connection := session.connection.close .fromHere } else session) := by
  unfold closeAll
  simp only [found, Option.map_some]

theorem Founded.closesAll (founded : runtime.Founded) : Advances runtime [] runtime.closeAll := by
  have calm : ∀ session : Session, session.connection.Calm (session.connection.close .fromHere) :=
    fun session => session.connection.calm_close rfl
  have keeps : Keeps runtime runtime.closeAll := by
    intro id session found
    refine ⟨_, closeAll_sessions found, ?_⟩
    split
    · exact evolves_connection (calm session).toSameSession (calm_closed (calm session))
    · exact .refl session
  refine ⟨founded.evolve (fun found => found) (le_refl _) rfl ?_ keeps
    (fun member _ current => (founded.selected member current).keep keeps), ?_⟩
  · intro id after located
    obtain ⟨session, found, same⟩ := Option.map_eq_some_iff.mp located
    obtain ⟨made, named, coherent⟩ := founded.known found
    split at same
    · subst same
      exact ⟨made, named, coherent_calm coherent (calm session)⟩
    · subst same
      exact ⟨made, named, coherent⟩
  · refine simulates_of_fewer rfl rfl (fun call id => Nat.add_le_add_right ?_ _)
    cases found : runtime.sessions id with
    | none =>
      have gone : runtime.closeAll.sessions id = none := by
        unfold closeAll
        simp only [found, Option.map_none]
      unfold queuedOn
      rw [gone]
      exact Nat.zero_le _
    | some session =>
      rw [queuedOn_of_found (closeAll_sessions found), queuedOn_of_found found]
      split
      · exact Nat.zero_le _
      · exact le_refl _

theorem Filed.terminates (filed : runtime.Filed) (race : Race) :
    Advances runtime (runtime.terminate race).2 (runtime.terminate race).1 := by
  have marked : Advances runtime [] { runtime with lifecycle := .terminated } :=
    advances_rest filed.toFounded rfl rfl rfl rfl rfl filed.selected
  have ends := (filed.advance marked).endsCalls race (fun _ => some .shutdown)
    (pendingCalls { runtime with lifecycle := .terminated })
  have all := marked.trans (ends.trans ends.founded.closesAll)
  rw [append_nil] at all
  exact all

end Moonpool.Rpc.Runtime
