import Moonpool.Rpc.Refinement

/-!
Owns that what a runtime says about the execution of a call is true, over every interleaving
of its sections.
-/

namespace Moonpool.Rpc

open List

def Event.writes (call : CallId) : Event → Bool
  | .written held _ _ => decide (held = some call)
  | _ => false

def Event.ends (call : CallId) : Event → Bool
  | .finished other _ _ | .abandoned other _ => decide (other = call)
  | _ => false

theorem countP_written (call : CallId) (history : List Event) :
    (moments call history).countP Moment.isWritten = history.countP (Event.writes call) := by
  rw [moments, countP_filterMap]
  refine countP_congr fun event _ => ?_
  cases event with
  | written held id frame | queued held id => by_cases same : held = some call <;>
      simp [Event.moment, Event.writes, Moment.isWritten, same]
  | started other delivery origin | finished other outcome cause | abandoned other transmitted =>
    by_cases same : other = call <;>
      simp [Event.moment, Event.writes, Moment.isWritten, same]

theorem countP_ended (call : CallId) (history : List Event) :
    (moments call history).countP Moment.isEnded = history.countP (Event.ends call) := by
  rw [moments, countP_filterMap]
  refine countP_congr fun event _ => ?_
  cases event with
  | written held id frame | queued held id => by_cases same : held = some call <;>
      simp [Event.moment, Event.ends, Moment.isEnded, same]
  | started other delivery origin | finished other outcome cause | abandoned other transmitted =>
    by_cases same : other = call <;>
      simp [Event.moment, Event.ends, Moment.isEnded, same]

theorem mem_moments {call : CallId} {history : List Event} {event : Event} {moment : Moment}
    (member : event ∈ history) (named : event.moment call = some moment) :
    moment ∈ moments call history :=
  mem_filterMap.mpr ⟨event, member, named⟩

section Truth

variable [Xxh3] {config : RpcConfig} {maxFailed : Nat} {runtime : Runtime} {history : List Event}

section

variable (runs : Runs config maxFailed runtime history)

include runs

theorem Runs.known (call : CallId) :
    ∃ state, runtime.Shows call state ∧ Known (moments call history) state := by
  obtain ⟨state, shows, lives⟩ := runs.filed.2 call
  exact ⟨state, shows, known_of_lives lives⟩

theorem Runs.accounted (call : CallId) :
    ∃ live, Accounted (moments call history) live := by
  obtain ⟨state, -, known⟩ := runs.known call
  cases state with
  | unborn =>
    rw [show moments call history = [] from known]
    refine ⟨false, ⟨le_refl 0, fun started => ?_, fun queued => ?_⟩⟩
    · cases started
    · cases queued
  | pending transmitted earlier retained live => exact ⟨live, known.1⟩
  | past live => exact ⟨live, known.1⟩

theorem Runs.past {call : CallId}
    {unadmitted rejected : Bool}
    (ended : Moment.ended unadmitted rejected ∈ moments call history) :
    (unadmitted = true → rejected = false → Moment.written ∉ moments call history) ∧
      (unadmitted = true → rejected = true → ¬ Overtaken (moments call history)) := by
  obtain ⟨state, -, known⟩ := runs.known call
  cases state with
  | unborn =>
    rw [show moments call history = [] from known] at ended
    cases ended
  | pending transmitted earlier retained live =>
    have none := known.2.2.1
    have some_ := countP_pos_iff.mpr ⟨_, ended, (rfl : Moment.isEnded _ = true)⟩
    omega
  | past live =>
    obtain ⟨-, -, unsent, first⟩ := known
    constructor
    · rintro rfl rfl
      exact (unsent ended).1
    · rintro rfl rfl
      exact first ended

/-- A call that ended as not admitted by this runtime, or whose caller left with nothing sent, never
had a frame handed to a writer; one the server rejected had none but of the last attempt. Only a
started call has frames, and an at-most-once call one at most. -/
theorem execution_knowledge_truthful (call : CallId) :
    (∀ error cause, .finished call (.failed error) cause ∈ history →
      error.execution = .notAdmitted →
      (cause.rejected = false → ∀ id frame, .written (some call) id frame ∉ history) ∧
      (cause.rejected = true → ∀ before after, history = before ++ after →
        (∃ id frame, .written (some call) id frame ∈ before) →
        ∀ id, .queued (some call) id ∉ after)) ∧
    (.abandoned call false ∈ history → ∀ id frame, .written (some call) id frame ∉ history) ∧
    (∀ id frame, .written (some call) id frame ∈ history →
      ∃ delivery origin, .started call delivery origin ∈ history) ∧
    (∀ origin, .started call .atMostOnce origin ∈ history →
      history.countP (Event.writes call) ≤ 1) := by
  have wrote : ∀ {events : List Event} {id frame}, .written (some call) id frame ∈ events →
      Moment.written ∈ moments call events :=
    fun member => mem_moments member (by simp [Event.moment])
  obtain ⟨live, accounted⟩ := runs.accounted call
  refine ⟨fun error cause finished silent => ?_, fun left id frame written => ?_,
    fun id frame written => ?_, fun origin started => ?_⟩
  · have ended : Moment.ended true cause.rejected ∈ moments call history :=
      mem_moments finished (by simp [Event.moment, Outcome.unadmitted, silent])
    obtain ⟨unsent, first⟩ := runs.past ended
    refine ⟨fun own id frame written => unsent rfl own (wrote written),
      fun rejected before after split written id queued => first rfl rejected ?_⟩
    obtain ⟨holder, frame, written⟩ := written
    refine ⟨moments call before, moments call after, ?_, wrote written,
      mem_moments queued (by simp [Event.moment])⟩
    rw [split, moments_append]
  · have ended : Moment.ended true false ∈ moments call history :=
      mem_moments left (by simp [Event.moment])
    exact (runs.past ended).1 rfl rfl (wrote written)
  · have frames := accounted.frames
    have some_ := countP_pos_iff.mpr ⟨_, wrote written, (rfl : Moment.isWritten _ = true)⟩
    obtain ⟨moment, member, queued⟩ := countP_pos_iff.mp
      (Nat.lt_of_lt_of_le (Nat.lt_of_lt_of_le some_ (Nat.le_add_right _ live.toNat)) frames)
    cases moment <;> cases queued
    obtain ⟨retained, started⟩ := accounted.begun member
    obtain ⟨event, recorded, named⟩ := mem_filterMap.mp started
    cases event <;> simp only [Event.moment] at named <;> split at named <;> cases named
    next same => exact ⟨_, _, same ▸ recorded⟩
  · have unretained : Moment.started false ∈ moments call history :=
      mem_moments started (by simp [Event.moment])
    rw [← countP_written]
    exact Nat.le_trans (Nat.le_trans (Nat.le_add_right _ live.toNat) accounted.frames)
      (accounted.once unretained)

end

end Truth

/-- A runtime that listens nowhere and sends credentials over encrypted sessions only. -/
def callerConfig : RpcConfig where
  address := none
  maxFrameBytes := 4096
  maxPendingCalls := 4
  maxConnections := 4
  maxRetainedBytes := 4096
  maxBufferedBytes := 4096
  limits := ⟨8, 8, 4096, 4096⟩
  plaintextCredentials := false
  versions := (1, 2)
  sharing := .disabled
  peer :=
    { initialReconnectDelay := 1, maxReconnectDelay := 8, grow := (2 * ·), reconnectResetAfter := 8,
      idleTimeout := 100, inboundIdleTimeout := 100, maxTrackedAddresses := 8,
      alwaysAcceptAfter := 15 }
  hello := [0]

def privateAddress (host : UInt8) (port : UInt16) : SocketAddr := .v4 ⟨#[10, 0, 0, host], rfl⟩ port

def question (credential : Option (List UInt8)) : Runtime.Start :=
  ⟨⟨privateAddress 1 4500, 7, ⟨1, 1⟩⟩, ⟨(1, 1), 2, 3, 4⟩, [42], credential⟩

def unreachable : List Action :=
  [.start (question none) (.reply .atMostOnce) ⟨0, 0, 0⟩,
    .closeConnection 0 (.connectFailed "refused") 5 false]

/-- The call ends as not admitted, and no frame of it is ever written. -/
theorem execution_knowledge_unreachable :
    letI := constantHash
    ∃ runtime history, Runs callerConfig 0 runtime history ∧
      .finished 0 (.failed ⟨.connectFailed "refused", .notAdmitted⟩) .runtime ∈ history ∧
      ∀ id frame, .written (some 0) id frame ∉ history := by
  let _ := constantHash
  have happened : ((Runtime.new callerConfig 0).steps unreachable).map Prod.snd =
      some [.started 0 .atMostOnce (.connection 0), .queued (some 0) 0,
        .finished 0 (.failed ⟨.connectFailed "refused", .notAdmitted⟩) .runtime] := by
    decide +kernel
  obtain ⟨⟨runtime, history⟩, stepped, rfl⟩ := Option.map_eq_some_iff.mp happened
  have runs : Runs callerConfig 0 runtime _ := Runs.new.steps stepped
  have ended : Event.finished 0 (.failed ⟨.connectFailed "refused", .notAdmitted⟩) .runtime ∈
      [Event.started 0 .atMostOnce (.connection 0), .queued (some 0) 0,
        .finished 0 (.failed ⟨.connectFailed "refused", .notAdmitted⟩) .runtime] := by decide
  exact ⟨runtime, _, runs, ended,
    ((execution_knowledge_truthful runs 0).1 _ _ ended rfl).1 rfl⟩

end Moonpool.Rpc
