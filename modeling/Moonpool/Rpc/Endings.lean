import Moonpool.Rpc.Transmission

/-!
Owns the ends a call has while its connection stays: its queued frame is withdrawn, its
caller leaves, its reply or the end of its stream arrives, or a loop ends many calls.
-/

namespace Moonpool.Rpc.Runtime

variable [Xxh3] {runtime : Runtime} {id : ConnectionId} {call : CallId} {pending : PendingCall}

theorem Filed.frames_elsewhere (filed : runtime.Filed)
    (found : runtime.pending call = some pending) (rides : pending.origin = .connection id)
    {other : ConnectionId} (differs : other ≠ id) : runtime.frames call other = 0 := by
  by_contra alive
  have origin := (filed.rides found (pos_of_ne_zero alive)).1
  exact differs (Origin.connection.inj (origin.symm.trans rides))

theorem Founded.frames_unlisted {session : Session} (founded : runtime.Founded)
    (found : runtime.sessions id = some session) (unlisted : session.listed = false)
    (call : CallId) : runtime.frames call id = 0 := by
  have coherent := (founded.known found).2.2
  have queue : runtime.queuedOn call id = 0 := by
    rw [queuedOn_of_found found, coherent.emptied (coherent.unlisted unlisted)]
    rfl
  have hand : runtime.inHand call id = 0 := by
    unfold inHand
    split
    next holder frame held writing =>
      obtain ⟨⟨running, located, stage, -⟩, -⟩ := founded.drivenAt writing
      rw [if_neg]
      rintro ⟨rfl, -⟩
      cases located.symm.trans found
      rw [coherent.running stage] at unlisted
      cases unlisted
    · rfl
  rw [frames, queue, hand]

theorem Filed.retracts {session : Session} (filed : runtime.Filed)
    (found : runtime.sessions id = some session) (call : CallId) :
    Advances runtime [] (runtime.setSession id
        { session with connection := (session.connection.retract call).1 }) ∧
      ((session.connection.retract call).2 = true → ∀ other, (runtime.setSession id
        { session with connection := (session.connection.retract call).1 }).frames call other = 0) := by
  obtain ⟨same, closed, requests, withdrew⟩ := session.connection.retract_spec call
  have coherent := (filed.known found).2.2
  constructor
  · refine advances_setSession filed.toFounded found
      (evolves_connection same (fun ended => (isClosed_eq closed).trans ended)) ?_ (fun other => ?_)
    · refine coherent_requests coherent same closed ?_ ?_
      · intro ended
        rw [requests, coherent.emptied ((isClosed_eq closed).symm.trans ended)]
        rfl
      · rw [requests]
        exact fun request kept => coherent.encoded request (List.mem_filter.mp kept).1
    · rw [requests]
      exact List.filter_sublist.countP_le
  · intro withdrawn other
    obtain ⟨request, member, named⟩ := withdrew withdrawn
    have queued : 0 < runtime.queuedOn call id := by
      rw [queuedOn_of_found found]
      exact List.countP_pos_iff.mpr ⟨request, member, decide_eq_true named⟩
    have alone := filed.alone (Nat.lt_of_lt_of_le queued (Nat.le_add_right _ _)) other
    have hand : (runtime.setSession id
        { session with connection := (session.connection.retract call).1 }).inHand call other =
          runtime.inHand call other := rfl
    unfold frames at alone ⊢
    rw [hand]
    by_cases equal : other = id
    · rw [if_pos equal] at alone
      rw [equal] at alone ⊢
      rw [queuedOn_setSession_same, requests, List.countP_filter]
      have none : (session.connection.requests.countP fun request =>
          decide (request.2 = some call) && decide (request.2 ≠ some call)) = 0 := by
        rw [List.countP_eq_zero]
        intro request _
        simp
      omega
    · rw [if_neg equal] at alone
      rw [queuedOn_setSession_other runtime _ call equal]
      exact alone

theorem Filed.withdraws (filed : runtime.Filed) (found : runtime.pending call = some pending) :
    Advances runtime [] (runtime.withdraw call pending).1 ∧
      (runtime.withdraw call pending).1.pending = runtime.pending ∧
      ((runtime.withdraw call pending).2 = false → pending.transmitted = false ∧
        ∀ other, (runtime.withdraw call pending).1.frames call other = 0) := by
  have stays : Advances runtime [] runtime := .refl filed.toFounded
  unfold withdraw
  split
  next here =>
    refine ⟨stays, rfl, fun untransmitted => ⟨untransmitted, fun other => ?_⟩⟩
    by_contra alive
    have origin := (filed.rides found (pos_of_ne_zero alive)).1
    rw [here] at origin
    cases origin
  next id rides =>
    split
    next missing =>
      obtain ⟨session, located, -⟩ := filed.carried found rides
      rw [missing] at located
      cases located
    next session located =>
      split
      next kept =>
        refine ⟨stays, rfl, fun untransmitted => ⟨untransmitted, fun other => ?_⟩⟩
        by_cases same : other = id
        · have unlisted : session.listed = false := by
            rcases kept with transmitted | unlisted
            · exact absurd (transmitted.symm.trans untransmitted) (by decide)
            · exact unlisted
          rw [same]
          exact filed.toFounded.frames_unlisted located unlisted call
        · exact filed.frames_elsewhere found rides same
      next listed =>
        obtain ⟨advances, empty⟩ := filed.retracts located call
        refine ⟨advances, rfl, fun left => ⟨?_, empty (by simpa using left)⟩⟩
        by_contra transmitted
        exact listed (.inl (by simpa using transmitted))

omit [Xxh3] in
theorem withdraw_setCall (runtime : Runtime) (call : CallId) (pending : PendingCall) :
    (runtime.setCall call none).withdraw call pending =
      ((runtime.withdraw call pending).1.setCall call none, (runtime.withdraw call pending).2) := by
  unfold withdraw
  split
  · rfl
  next id _ =>
    have same : (runtime.setCall call none).sessions id = runtime.sessions id := rfl
    rw [same]
    split
    · rfl
    · split <;> rfl

omit [Xxh3] in
theorem retractAbandoned_setCall (runtime : Runtime) (call : CallId) (pending : PendingCall) :
    (runtime.setCall call none).retractAbandoned call pending =
      ((runtime.retractAbandoned call pending).1.setCall call none,
        (runtime.retractAbandoned call pending).2) := by
  unfold retractAbandoned
  split
  · rfl
  split
  · rfl
  next id _ =>
    have same : (runtime.setCall call none).sessions id = runtime.sessions id := rfl
    rw [same]
    split
    · rfl
    · split <;> rfl

theorem Filed.retractsAbandoned (filed : runtime.Filed) (call : CallId) (pending : PendingCall) :
    Advances runtime [] (runtime.retractAbandoned call pending).1 ∧
      (runtime.retractAbandoned call pending).1.pending = runtime.pending ∧
      ((runtime.retractAbandoned call pending).2 = false → pending.transmitted = false ∧
        pending.earlierTransmitted = false ∧
        ∀ other, (runtime.retractAbandoned call pending).1.frames call other = 0) := by
  have stays : Advances runtime [] runtime := .refl filed.toFounded
  unfold retractAbandoned
  split
  · exact ⟨stays, rfl, nofun⟩
  next silent =>
    simp only [not_or, Bool.not_eq_true] at silent
    split
    · exact ⟨stays, rfl, nofun⟩
    split
    · exact ⟨stays, rfl, nofun⟩
    next session located =>
      split
      · obtain ⟨advances, empty⟩ := filed.retracts located call
        exact ⟨advances, rfl, fun left => ⟨silent.2, silent.1, empty (by simpa using left)⟩⟩
      · exact ⟨stays, rfl, nofun⟩

theorem Filed.abandons (filed : runtime.Filed) (call : CallId) :
    Advances runtime (runtime.abandon call).2 (runtime.abandon call).1 := by
  unfold abandon
  split
  · exact .refl filed.toFounded
  next pending found =>
    rw [retractAbandoned_setCall]
    obtain ⟨retracted, same, unsent⟩ := filed.retractsAbandoned call pending
    have ended : Advances runtime
        [.abandoned call (runtime.retractAbandoned call pending).2]
        ((runtime.retractAbandoned call pending).1.setCall call none) := by
      refine retracted.trans (advances_end (same ▸ found) (fun _ => rfl) ?_ ?_ retracted.founded)
      · intro claimed _
        exact unsent (by simpa using claimed)
      · intro _ rejected
        cases rejected
    simp only
    split
    · split
      · exact ended.trans (advances_onConnection ended.founded _
          (fun connection => connection.calm_signalCancel call))
      · exact ended
    · exact ended

omit [Xxh3] in
theorem execution_notAdmitted :
    pending.execution = .notAdmitted ↔
      pending.transmitted = false ∧ pending.earlierTransmitted = false := by
  unfold PendingCall.execution PendingCall.mayHaveExecuted
  cases pending.transmitted <;> cases pending.earlierTransmitted <;> decide

section

variable (filed : runtime.Filed) (race : Race) (reason : PendingCall → Option ErrorReason)

include filed race reason

theorem Filed.endsCall (events : List Event) (call : CallId) :
    ∃ ended, (endCall race reason (runtime, events) call).2 = events ++ ended ∧
      Advances runtime ended (endCall race reason (runtime, events) call).1 := by
  have raced := advances_raced filed.toFounded race call
  have filed := filed.advance raced
  unfold endCall
  simp only
  split
  · exact ⟨[], (List.append_nil _).symm, raced⟩
  next pending found =>
    split
    · exact ⟨[], (List.append_nil _).symm, raced⟩
    next cause _ =>
      rw [withdraw_setCall]
      obtain ⟨withdrawn, same, unsent⟩ := filed.withdraws found
      refine ⟨_, rfl, raced.trans (withdrawn.trans (advances_end (same ▸ found)
        (ends_finished _ _ _) ?_ ?_ withdrawn.founded))⟩
      · intro claimed _
        obtain ⟨kept, unearlier⟩ := execution_notAdmitted.mp (of_decide_eq_true claimed)
        exact ⟨(unsent kept).1, unearlier, (unsent kept).2⟩
      · intro _ rejected
        cases rejected

theorem Filed.endsCalls (calls : List CallId) :
    Advances runtime (calls.foldl (endCall race reason) (runtime, [])).2
      (calls.foldl (endCall race reason) (runtime, [])).1 := by
  refine List.foldlRecOn (motive := fun ended : Runtime × List Event =>
    Advances runtime ended.2 ended.1) calls _ (.refl filed.toFounded) ?_
  rintro ⟨reached, events⟩ advances call -
  obtain ⟨ended, appended, further⟩ :=
    (filed.advance advances).endsCall race reason events call
  rw [appended]
  exact advances.trans further

end

theorem Filed.releasesFailed (filed : runtime.Filed) (race : Race) :
    Advances runtime (runtime.releaseFailed race).2 (runtime.releaseFailed race).1 :=
  filed.endsCalls race _ _

omit [Xxh3] in
theorem not_unadmitted_of_earlier (outcome : WireOutcome)
    (earlier : pending.earlierTransmitted = true) :
    (pending.completion.finish (replyResult pending outcome)).unadmitted = false := by
  cases outcome with
  | ok codec body => cases pending.completion <;> rfl
  | err error =>
    have weakened := RpcError.atLeast_maybeExecuted (.fromWire error pending.identity)
    simpa [replyResult, earlier, completion_finish_error, Outcome.unadmitted] using weakened

theorem Filed.completes (filed : runtime.Filed) (origin : Origin) (call : CallId)
    (outcome : WireOutcome) (race : Race) :
    Advances runtime (runtime.complete origin call outcome race).2
      (runtime.complete origin call outcome race).1 := by
  unfold complete
  split
  · exact .refl filed.toFounded
  next pending found =>
    split
    · exact .refl filed.toFounded
    have finished : Advances runtime [.finished call
        (pending.completion.finish (replyResult pending outcome)) (.reply origin outcome)]
        (runtime.setCall call none) := by
      refine advances_end found (ends_finished _ _ _) ?_ ?_ filed.toFounded
      · intro claimed unrejected
        cases outcome with
        | ok codec body =>
          cases completion : pending.completion <;> rw [completion] at claimed <;> cases claimed
        | err error => cases unrejected
      · intro claimed _
        by_contra earlier
        have earlier : pending.earlierTransmitted = true := by simpa using earlier
        rw [not_unadmitted_of_earlier outcome earlier] at claimed
        cases claimed
    simp only
    split
    · exact finished
    next failure _ =>
      have learned : Advances (runtime.setCall call none) []
          { runtime.setCall call none with
            failures := (runtime.failures.endpointFailed pending.endpoint failure).1 } :=
        advances_rest finished.founded rfl rfl rfl rfl rfl finished.founded.selected
      have both := finished.trans learned
      split
      · exact both.trans ((filed.advance both).releasesFailed race)
      · exact both

omit [Xxh3] in
theorem consumes_iff {origin : Origin} :
    runtime.consumes origin call = true ↔
      ∃ pending, runtime.pending call = some pending ∧ pending.origin = origin ∧
        pending.completion = .stream := by
  simp [consumes, Option.any_eq_true]

theorem Founded.refusesStream (founded : runtime.Founded) (call : CallId) (violation : String) :
    Advances runtime (runtime.streamRefused call violation).2
      (runtime.streamRefused call violation).1 := by
  unfold streamRefused
  split
  · exact .refl founded
  next pending found =>
    refine advances_end found (ends_finished _ _ _) ?_ ?_ founded
    · intro claimed
      cases claimed
    · intro claimed
      cases claimed

theorem Filed.endsStream (filed : runtime.Filed) (origin : Origin) (call : CallId)
    (error : Option WireError) (violation : Option String)
    (streams : ∀ pending, runtime.pending call = some pending → pending.completion = .stream) :
    Advances runtime (runtime.streamEnd origin call error violation).2
      (runtime.streamEnd origin call error violation).1 := by
  unfold streamEnd
  split
  · exact .refl filed.toFounded
  next pending found =>
    have finished : Advances runtime [.finished call
        (streamOutcome pending.identity error violation) (.streamEnd origin error)]
        (runtime.setCall call none) := by
      refine advances_end found (ends_finished _ _ _) ?_ ?_ filed.toFounded
      · intro claimed unrejected
        cases error with
        | none => cases violation <;> cases claimed
        | some error => cases unrejected
      · intro _ _
        by_contra earlier
        have kept := (filed.kept found).2
        have reply := kept.retained (kept.earlier (by simpa using earlier))
        rw [streams pending found] at reply
        cases reply
    split
    · exact finished
    · exact finished.trans
        (advances_rest finished.founded rfl rfl rfl rfl rfl finished.founded.selected)

end Moonpool.Rpc.Runtime
