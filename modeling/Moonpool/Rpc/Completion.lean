import Moonpool.Rpc.Emission

/-!
Owns that every call completes once, by the session that carries it, over every interleaving
of a runtime's sections and whatever a peer sends.
-/

namespace Moonpool.Rpc

namespace Runtime

variable {runtime next : Runtime} {call : CallId} {events : List Event}

theorem Simulates.ends {pending : PendingCall} {state : CallState}
    (simulates : Simulates runtime events next) (shows : runtime.Shows call state)
    (found : runtime.pending call = some pending) (gone : next.pending call = none) :
    ∃ event ∈ events, event.ends call = true := by
  obtain ⟨after, shown, lives⟩ := simulates call state shows
  obtain ⟨place, rfl, -⟩ := shows.inv found
  rcases pending_or_ended lives with ⟨_, _, _, _, rfl⟩ | ⟨-, unadmitted, rejected, ended⟩
  · cases shown with
    | pending used located kept there rides =>
      rw [gone] at located
      cases located
  · have positive := List.countP_pos_iff.mpr ⟨_, ended, (rfl : Moment.isEnded _ = true)⟩
    rw [countP_ended] at positive
    exact List.countP_pos_iff.mp positive

end Runtime

section Once

variable [Xxh3] {config : RpcConfig} {maxFailed : Nat} {runtime : Runtime} {history : List Event}

/-- A call ends at most once; a step after which it is not pending finished or abandoned it; what
arrives finishes it only from where it is carried; and a connection in the table carries it, unless
its teardown is not over. -/
theorem calls_complete_once (runs : Runs config maxFailed runtime history) :
    (∀ call, history.countP (Event.ends call) ≤ 1) ∧
    (∀ action next events, runtime.act action = some (next, events) →
      (∀ call, (runtime.pending call).isSome = true → next.pending call = none →
        ∃ event ∈ events, event.ends call = true) ∧
      (∀ call outcome origin answer, .finished call outcome (.reply origin answer) ∈ events →
        Runtime.Brings action origin call answer ∧
          ∃ pending, runtime.pending call = some pending ∧ pending.origin = origin) ∧
      (∀ call outcome origin error, .finished call outcome (.streamEnd origin error) ∈ events →
        ∃ pending, runtime.pending call = some pending ∧ pending.origin = origin)) ∧
    (∀ call pending id, runtime.pending call = some pending → pending.origin = .connection id →
      (∃ session, runtime.sessions id = some session ∧ session.listed = true) ∨
        ∃ address copies, runtime.driver = .resending id address copies) := by
  obtain ⟨filed, -⟩ := runs.filed
  refine ⟨fun call => ?_, fun action next events acted => ⟨fun call held gone => ?_,
    fun call outcome origin answer member => ?_, fun call outcome origin error member => ?_⟩,
    fun call pending id found rides => ?_⟩
  · rw [← countP_ended]
    obtain ⟨state, -, known⟩ := runs.known call
    cases state with
    | unborn =>
      rw [show moments call history = [] from known]
      exact Nat.zero_le 1
    | pending transmitted earlier retained live =>
      exact Nat.le_trans (Nat.le_of_eq known.2.2.1) (Nat.zero_le 1)
    | past live => exact known.2.1
  · obtain ⟨pending, found⟩ := Option.isSome_iff_exists.mp held
    obtain ⟨state, shows⟩ := filed.shown call
    exact (filed.acts acted).simulates.ends shows found gone
  · exact (filed.toFounded.emits acted).sourced member
  · exact (filed.toFounded.emits acted).sourced member
  · obtain ⟨session, located, -, -, listed⟩ := filed.carried found rides
    refine listed.imp (fun listed => ⟨session, located, listed⟩) ?_
    rintro ⟨address, copies, resending, -⟩
    exact ⟨address, copies, resending⟩

/-- At most one request frame of a call is alive, in a queue or in the writer's hand. While the call
is pending, the frame is on the connection it rides and the call does not count as transmitted; and
every frame written, and that one, was queued. -/
theorem one_frame_per_call (runs : Runs config maxFailed runtime history) (call : CallId) :
    ∃ place : Option ConnectionId,
      (∀ id, runtime.queuedOn call id + runtime.inHand call id =
        if place = some id then 1 else 0) ∧
      (∀ pending id, runtime.pending call = some pending → place = some id →
        pending.origin = .connection id ∧ pending.transmitted = false) ∧
      history.countP (Event.writes call) + place.toList.length ≤
        (moments call history).countP Moment.isQueued := by
  obtain ⟨state, shows, known⟩ := runs.known call
  rw [← countP_written]
  cases shows with
  | unborn free absent located =>
    rw [show moments call history = [] from known]
    exact ⟨none, located, fun _ _ found => (nomatch absent.symm.trans found), le_refl 0⟩
  | @pending pending place used found kept located rides =>
    refine ⟨place, located, fun other id again here => ?_, ?_⟩
    · cases found.symm.trans again
      exact rides id here
    · cases place <;> exact known.1.frames
  | @past place used absent located =>
    refine ⟨place, located, fun _ _ found => (nomatch absent.symm.trans found), ?_⟩
    cases place <;> exact known.1.frames

end Once

def greeting : Hello := ⟨protocolMagic, 1, 2, 7, 0, 4096, none⟩

def answeredTwice : List Action :=
  [.start (question none) (.reply .atMostOnce) ⟨0, 0, 0⟩, .upgraded 0 ⟨"server", none, none⟩,
    .pop 0, .hello 0 greeting 1, .establish 1, .settle, .pop 0, .judge,
    .reply 0 0 (.ok 4 [7]), .reply 0 0 (.ok 4 [8])]

/-- The first answer finishes the call, the second one nothing. -/
theorem calls_complete_once_twice :
    letI := constantHash
    ∃ runtime history, Runs callerConfig 0 runtime history ∧
      .finished 0 (.reply (4, [7])) (.reply (.connection 0) (.ok 4 [7])) ∈ history ∧
      history.countP (Event.ends 0) = 1 := by
  let _ := constantHash
  have happened : (((Runtime.new callerConfig 0).steps answeredTwice).map fun reached =>
      reached.2.contains (.finished 0 (.reply (4, [7])) (.reply (.connection 0) (.ok 4 [7])))) =
        some true := by
    decide +kernel
  obtain ⟨⟨runtime, history⟩, stepped, finished⟩ := Option.map_eq_some_iff.mp happened
  have runs : Runs callerConfig 0 runtime history := Runs.new.steps stepped
  have finished : .finished 0 (.reply (4, [7])) (.reply (.connection 0) (.ok 4 [7])) ∈ history := by
    simpa using finished
  refine ⟨runtime, history, runs, finished, le_antisymm ((calls_complete_once runs).1 0) ?_⟩
  exact List.countP_pos_iff.mpr ⟨_, finished, rfl⟩

theorem one_frame_per_call_started :
    letI := constantHash
    ∃ runtime history, Runs callerConfig 0 runtime history ∧ runtime.queuedOn 0 0 = 1 ∧
      ∀ id ≠ 0, runtime.queuedOn 0 id = 0 := by
  let _ := constantHash
  have happened : ((Runtime.new callerConfig 0).steps (unreachable.take 1)).map
      (·.1.queuedOn 0 0) = some 1 := by
    decide +kernel
  obtain ⟨⟨runtime, history⟩, stepped, queued⟩ := Option.map_eq_some_iff.mp happened
  have runs : Runs callerConfig 0 runtime history := Runs.new.steps stepped
  obtain ⟨place, located, -⟩ := one_frame_per_call runs 0
  refine ⟨runtime, history, runs, queued, fun id differs => ?_⟩
  have here := located 0
  have there := located id
  grind

end Moonpool.Rpc
