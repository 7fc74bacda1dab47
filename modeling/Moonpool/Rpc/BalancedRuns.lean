import Moonpool.Rpc.BalanceLedger

/-!
Owns that a balanced call refines the account of its attempts: every step of the call and of
the late-loser collection is a sequence of moves.
-/

namespace Moonpool.Rpc.Balance

open Relation List

section Moves

variable {Reply : Type} {set : AlternativeSet} {policy : BalancePolicy}

def Progress.account (progress : Progress Reply) (late : List Flight) (trace : List Event) :
    Ledger where
  live := progress.flights.pending
  late
  records := progress.records
  nextId := progress.flights.nextId
  sequential := progress.sequential
  copies := progress.copies
  trace

structure Progress.Alike (progress other : Progress Reply) : Prop where
  flights : progress.flights = other.flights
  records : progress.records = other.records
  sequential : progress.sequential = other.sequential
  copies : progress.copies = other.copies

variable {progress : Progress Reply}

theorem Progress.Alike.account {other : Progress Reply} (alike : progress.Alike other)
    (late : List Flight) (trace : List Event) :
    progress.account late trace = other.account late trace := by
  unfold Progress.account
  rw [alike.flights, alike.records, alike.sequential, alike.copies]

def Flights.Tracked (flights : Flights) : Prop :=
  flights.pending = flights.active.map fun entry => ⟨entry.1, entry.2⟩

variable {flights : Flights}

section

variable (tracked : flights.Tracked)

include tracked

theorem Flights.Tracked.start (alternative : Nat) (kind : AttemptKind) :
    (flights.start set alternative kind).1.Tracked := by
  unfold Tracked at tracked ⊢
  simp [Flights.start, tracked]

theorem Flights.Tracked.remove (id : Nat) :
    (flights.remove id).Tracked := by
  unfold Tracked at tracked ⊢
  simp only [Flights.remove, tracked, filter_map]
  rfl

theorem Flights.Tracked.primaries (none : flights.primaries = 0) :
    ∀ flight ∈ flights.pending, flight.attempt.kind = .comparison := by
  intro flight member
  rw [tracked, mem_map] at member
  obtain ⟨entry, listed, rfl⟩ := member
  have counted := countP_eq_zero.mp none entry listed
  simpa using counted

theorem Flights.Tracked.lagging :
    flights.laggingRecords = flights.pending.map Flight.lags := by
  rw [tracked, List.map_map]
  rfl

end

/-- The copies sent move the account and end nothing, and the flights stay tracked. -/
structure Progress.Sends (policy : BalancePolicy) (progress : Progress Reply)
    (next : Progress Reply × List Event) : Prop where
  tracked : progress.flights.Tracked → next.1.flights.Tracked
  unended : ∀ event ∈ next.2, ∀ id, event.ends id = false
  moves : ∀ late trace, Ledger.Moves Reply policy (progress.account late trace)
    (next.1.account late (trace ++ next.2))

theorem Progress.Sends.none {other : Progress Reply} (alike : other.Alike progress) :
    progress.Sends policy (other, []) :=
  ⟨fun tracked => alike.flights ▸ tracked, forall_mem_nil _, fun _ _ => by rw [alike.account, append_nil]⟩

theorem Progress.Sends.refused {other : Progress Reply} {granted : Bool} (refused : granted = false)
    (alike : other.Alike progress) : progress.Sends policy (other, [.asked granted]) :=
  ⟨fun tracked => alike.flights ▸ tracked, by simp [Event.ends],
    fun late trace => by rw [refused, alike.account]; exact .single (.refuse _)⟩

theorem Progress.sends_compareWith (progress : Progress Reply) {copies : DuplicatePolicy}
    (permitted : policy.duplicates = .permitted copies) (order : List Nat) (target : Nat)
    (answers : Answers) :
    progress.Sends policy (progress.compareWith set copies order target answers) := by
  unfold Progress.compareWith
  split
  · exact .none ⟨rfl, rfl, rfl, rfl⟩
  next second _ =>
    split
    next asks =>
      dsimp only
      split
      next granted =>
        rw [granted]
        exact ⟨fun tracked => tracked.start _ _, by simp [Flights.start, Event.ends],
          fun late trace =>
          .single (.copy (progress.account late trace) ⟨second, set.endpoint second, .comparison⟩
            copies rfl permitted asks.1)⟩
      next refused => exact .refused (Bool.not_eq_true _ ▸ refused) ⟨rfl, rfl, rfl, rfl⟩
    · exact .none ⟨rfl, rfl, rfl, rfl⟩

theorem Progress.sends_armCopies (progress : Progress Reply) (order : List Nat) (target : Nat)
    (answers : Answers) :
    progress.Sends policy (progress.armCopies set policy order target answers) := by
  unfold Progress.armCopies
  cases duplicates : policy.duplicates with
  | forbidden => exact .none ⟨rfl, rfl, rfl, rfl⟩
  | permitted copies =>
    have compared : progress.Sends policy
        (progress.compareWith set copies order target answers) :=
      progress.sends_compareWith duplicates order target answers
    simp only [Duplicates.policy]
    split
    · exact { compared with }
    · exact compared

theorem Progress.sends_sendHedge (progress : Progress Reply) (view : View) (granted : Bool) :
    progress.Sends policy (progress.sendHedge set policy view granted) := by
  unfold Progress.sendHedge
  cases duplicates : policy.duplicates with
  | forbidden => exact .none ⟨rfl, rfl, rfl, rfl⟩
  | permitted copies =>
    simp only [Duplicates.policy]
    split
    · exact .none ⟨rfl, rfl, rfl, rfl⟩
    next allowed =>
      split
      · exact .none ⟨rfl, rfl, rfl, rfl⟩
      next target _ =>
        split
        next taken =>
          rw [taken]
          refine ⟨fun tracked => tracked.start _ _, by simp [Flights.start, Event.ends],
            fun late trace =>
            .single (.copy (progress.account late trace) ⟨target, set.endpoint target, .hedge⟩
              copies rfl duplicates ?_)⟩
          exact Nat.lt_of_not_le fun full => allowed (.inl full)
        next refused => exact .refused (Bool.not_eq_true _ ▸ refused) ⟨rfl, rfl, rfl, rfl⟩

variable {flight : Flight} {late : List Flight} {trace : List Event}

theorem Call.flying_spec {call : Call Reply} {id : Nat} {attempt : Attempt}
    (tracked : call.progress.flights.Tracked) (found : call.flying id = some (flight, attempt)) :
    flight ∈ call.progress.flights.pending ∧ flight.id = id ∧ flight.attempt = attempt := by
  unfold Call.flying at found
  split at found
  next held entry flown listed =>
    cases found
    have member := mem_of_find?_eq_some flown
    have numbered := find?_some flown
    simp only [decide_eq_true_eq] at numbered
    refine ⟨member, numbered, ?_⟩
    rw [tracked, find?_map] at flown
    obtain ⟨other, first, rfl⟩ := Option.map_eq_some_iff.mp flown
    have same : some other = some entry := first.symm.trans listed
    cases same
    rfl
  · cases found

theorem filter_flight {before after : List Flight}
    (distinct : ((before ++ flight :: after).map (·.id)).Nodup) :
    (before ++ flight :: after).filter (fun other => other.id ≠ flight.id) = before ++ after := by
  rw [map_append, map_cons, nodup_middle, nodup_cons] at distinct
  have others : ∀ other ∈ before ++ after, other.id ≠ flight.id := by
    intro other member same
    apply distinct.1
    rw [← map_append, ← same]
    exact mem_map_of_mem member
  simp only [filter_append, filter_cons, ne_eq, not_true_eq_false, decide_false,
    Bool.false_eq_true, ↓reduceIte]
  rw [← filter_append, filter_eq_self]
  intro other member
  simpa using others other member

theorem Progress.record_moves (distinct : (progress.flights.pending.map (·.id)).Nodup)
    (member : flight ∈ progress.flights.pending) (outcome : Outcome Reply) :
    Ledger.Move Reply policy (progress.account late trace)
      ((progress.record flight.id flight.attempt outcome).account late
        (trace ++ flight.lands outcome false)) := by
  obtain ⟨before, after, held⟩ := append_of_mem member
  have landed : Ledger.Move Reply policy (progress.account late trace) _ :=
    .land (progress.account late trace) before after flight outcome held
  rw [held] at distinct
  have left := filter_flight distinct
  rw [← held] at left
  unfold Progress.account Progress.record Flights.remove
  simp only [left]
  exact landed

/-- What lets the call start a sequential attempt where it stands. -/
structure Call.Poised (policy : BalancePolicy) (call : Call Reply) : Prop where
  tracked : call.progress.flights.Tracked
  /-- No primary attempt is in flight while the next one is chosen. -/
  alone : call.place = .choosing ∨ call.place = .reaching ∨ call.place = .parked ∨
      call.place = .pausing →
    ∀ flight ∈ call.progress.flights.pending, flight.attempt.kind = .comparison
  /-- The attempt bound was checked before the wait for a reachable alternative. -/
  room : call.place = .reaching ∨ call.place = .parked →
    call.progress.sequential < max policy.maxAttempts 1

def attemptsOf : Except BalanceError (Balanced Reply) → List AttemptRecord
  | .ok balanced => balanced.attempts
  | .error error => error.attempts

/-- A result lists every attempt, landed or lagging, and an error sums them up. -/
structure Collected (progress : Progress Reply) (result : Except BalanceError (Balanced Reply)) :
    Prop where
  attempts : attemptsOf result = progress.records ++ progress.flights.laggingRecords
  summed : ∀ error, result = .error error → error.execution = summarize error.attempts

structure Call.Steps (policy : BalancePolicy) (call : Call Reply)
    (next : Call Reply × List Event) : Prop where
  poised : next.1.Poised policy
  moves : ∀ late trace, Ledger.Moves Reply policy (call.progress.account late trace)
    (next.1.progress.account late (trace ++ next.2))
  recorded : ∀ result, next.1.place = .finished result → Collected next.1.progress result

namespace Call

variable {call next : Call Reply} {events : List Event}

variable {progress : Progress Reply} {place : Place Reply}

theorem Steps.finish (tracked : progress.flights.Tracked)
    (moves : ∀ late trace, Ledger.Moves Reply policy (call.progress.account late trace)
      (progress.account late (trace ++ events))) (ending : Ending Reply) :
    Steps policy call ((Call.mk progress place).finish set ending, events) where
  poised :=
    { tracked
      alone := fun standing => by simp [Call.finish] at standing
      room := fun standing => by simp [Call.finish] at standing }
  moves := moves
  recorded := by
    intro result ended
    cases ending with
    | ok winner =>
      cases ended
      exact ⟨rfl, nofun⟩
    | error failure =>
      cases ended
      exact ⟨rfl, fun _ failed => by cases failed; rfl⟩

theorem Steps.ended (poised : call.Poised policy) (ending : Ending Reply)
    (alike : progress.Alike call.progress) :
    Steps policy call ((Call.mk progress place).finish set ending, []) := by
  refine .finish (alike.flights ▸ poised.tracked) (fun late trace => ?_) ending
  rw [alike.account, append_nil]

theorem Steps.rest (poised : Call.Poised policy (Call.mk progress place))
    (alike : progress.Alike call.progress) (goesOn : ∀ result, place ≠ .finished result) :
    Steps policy call (Call.mk progress place, []) where
  poised := poised
  moves late trace := by rw [alike.account, append_nil]
  recorded result ended := absurd ended (goesOn result)

theorem poised_of_tracked (tracked : progress.flights.Tracked)
    (elsewhere : place = .entering ∨ place = .looping ∨ place = .waiting ∨
      (∃ reply alternative, place = .comparing reply alternative) ∨ place = .cancelled) :
    Call.Poised policy (Call.mk progress place) where
  tracked := tracked
  alone standing := by
    rcases elsewhere with rfl | rfl | rfl | ⟨_, _, rfl⟩ | rfl <;> simp at standing
  room standing := by
    rcases elsewhere with rfl | rfl | rfl | ⟨_, _, rfl⟩ | rfl <;> simp at standing

section

variable (poised : call.Poised policy)

include poised

theorem Steps.attempt
    (primaryless : ∀ flight ∈ call.progress.flights.pending, flight.attempt.kind = .comparison)
    (unspent : call.progress.sequential < max policy.maxAttempts 1) (order : List Nat)
    (answers : Progress.Answers) (alike : progress.Alike call.progress) :
    Steps policy call ((Call.mk progress place).attempt set policy order answers) := by
  have tracked : progress.flights.Tracked := alike.flights ▸ poised.tracked
  have alone : ∀ flight ∈ progress.flights.pending, flight.attempt.kind = .comparison :=
    alike.flights ▸ primaryless
  have room : progress.sequential < max policy.maxAttempts 1 := alike.sequential ▸ unspent
  unfold Call.attempt
  dsimp only
  split
  · -- Every reachable alternative was tried: a new round, after a pause.
    refine .rest ⟨tracked, fun _ => alone, fun standing => ?_⟩
      ⟨alike.flights, alike.records, alike.sequential, alike.copies⟩ (fun _ finished => ?_)
    · rcases standing with standing | standing <;> cases standing
    · cases finished
  next target _ =>
    set kind := if progress.sequential = 0 then AttemptKind.first else .retry with named
    have plain : kind.sequential = true := by
      rw [named]
      split <;> rfl
    have started : ∀ late trace, Ledger.Move Reply policy (call.progress.account late trace)
        (Progress.account
          { progress with
            sequential := progress.sequential + 1
            tried := target :: progress.tried
            flights := (progress.flights.start set target kind).1 } late
          (trace ++ (progress.flights.start set target kind).2)) := by
      intro late trace
      rw [← alike.account]
      exact .attempt (progress.account late trace) ⟨target, set.endpoint target, kind⟩ plain
        alone room
    have followed : (progress.flights.start set target kind).1.Tracked := tracked.start target kind
    split
    · have sends := @Progress.sends_armCopies Reply set policy
        { progress with
          sequential := progress.sequential + 1
          tried := target :: progress.tried
          flights := (progress.flights.start set target kind).1 } order target answers
      refine ⟨poised_of_tracked (sends.tracked followed) (.inr (.inr (.inl rfl))), fun late trace => ?_,
        nofun⟩
      rw [← append_assoc]
      exact (ReflTransGen.single (started late trace)).trans (sends.moves _ _)
    · refine ⟨poised_of_tracked followed (.inr (.inr (.inl rfl))), fun late trace =>
        .single (started late trace), fun _ finished => ?_⟩
      cases finished

theorem steps_loop : Steps policy call (call.loop set, []) := by
  unfold Call.loop
  split
  next none =>
    have alone := poised.tracked.primaries none
    split
    · exact .ended poised _ ⟨rfl, rfl, rfl, rfl⟩
    split
    · exact .rest (poised_of_tracked poised.tracked (.inr (.inr (.inl rfl)))) ⟨rfl, rfl, rfl, rfl⟩
        nofun
    · refine .rest ⟨poised.tracked, fun _ => alone, fun standing => ?_⟩ ⟨rfl, rfl, rfl, rfl⟩
        nofun
      rcases standing with standing | standing <;> cases standing
  · exact .rest (poised_of_tracked poised.tracked (.inr (.inr (.inl rfl)))) ⟨rfl, rfl, rfl, rfl⟩
      nofun

theorem steps_nextAttempt (standing : call.place = .choosing)
    (view : View) (answers : Progress.Answers) :
    Steps policy call (call.nextAttempt set policy view answers) := by
  have alone := poised.alone (.inl standing)
  unfold Call.nextAttempt
  split
  · exact .ended poised _ ⟨rfl, rfl, rfl, rfl⟩
  split
  · exact .ended poised _ ⟨rfl, rfl, rfl, rfl⟩
  next bound =>
    have room := Nat.lt_of_not_le bound
    dsimp only
    split
    · exact .ended poised _ ⟨rfl, rfl, rfl, rfl⟩
    · exact .attempt poised alone room _ _ ⟨rfl, rfl, rfl, rfl⟩
    · exact .rest ⟨poised.tracked, fun _ => alone, fun _ => room⟩ ⟨rfl, rfl, rfl, rfl⟩
        nofun

theorem steps_reach (standing : call.place = .reaching)
    (view : View) (answers : Progress.Answers) :
    Steps policy call (call.reach set policy view answers) := by
  have alone := poised.alone (.inr (.inl standing))
  have room := poised.room (.inl standing)
  unfold Call.reach
  dsimp only
  split
  · exact .ended poised _ ⟨rfl, rfl, rfl, rfl⟩
  · exact .attempt poised alone room _ _ ⟨rfl, rfl, rfl, rfl⟩
  · exact .rest ⟨poised.tracked, fun _ => alone, fun _ => room⟩ ⟨rfl, rfl, rfl, rfl⟩
      nofun

theorem steps_probe (standing : call.place = .parked)
    (view : View) (answers : Progress.Answers) :
    Steps policy call (call.probe set policy view answers) := by
  have alone := poised.alone (.inr (.inr (.inl standing)))
  have room := poised.room (.inr standing)
  unfold Call.probe
  split
  · exact .ended poised _ ⟨rfl, rfl, rfl, rfl⟩
  dsimp only
  split
  · exact .ended poised _ ⟨rfl, rfl, rfl, rfl⟩
  · exact .ended poised _ ⟨rfl, rfl, rfl, rfl⟩
  · exact .attempt poised alone room _ _ ⟨rfl, rfl, rfl, rfl⟩

end

theorem compared_eq (set : AlternativeSet) (call : Call Reply) (reply : Reply) (alternative : Nat)
    (verdict : Except String Unit) :
    ∃ ending, call.compared set reply alternative verdict = call.finish set ending := by
  cases verdict with
  | ok _ => exact ⟨.ok (reply, alternative), rfl⟩
  | error detail => exact ⟨.error (.comparison detail), rfl⟩

theorem land_alike (policy : BalancePolicy) (progress : Progress Reply) (id : Nat)
    (attempt : Attempt) (outcome : Outcome Reply) :
    (progress.land policy id attempt outcome).1.Alike (progress.record id attempt outcome) := by
  unfold Progress.land
  split
  · exact ⟨rfl, rfl, rfl, rfl⟩
  split
  · exact ⟨rfl, rfl, rfl, rfl⟩
  · exact ⟨rfl, rfl, rfl, rfl⟩
  split
  · exact ⟨rfl, rfl, rfl, rfl⟩
  · unfold Progress.noteError
    constructor <;> split <;> split <;> rfl

variable {flight : Flight}

theorem lands (policy : BalancePolicy) (tracked : call.progress.flights.Tracked)
    (distinct : (call.progress.flights.pending.map (·.id)).Nodup)
    (member : flight ∈ call.progress.flights.pending) (outcome : Outcome Reply)
    (alike : progress.Alike (call.progress.record flight.id flight.attempt outcome)) :
    progress.flights.Tracked ∧
      ∀ late trace, Ledger.Moves Reply policy (call.progress.account late trace)
        (progress.account late (trace ++ flight.lands outcome false)) := by
  constructor
  · rw [alike.flights]
    exact tracked.remove flight.id
  · intro late trace
    rw [alike.account]
    exact .single (Progress.record_moves distinct member outcome)

section

variable (tracked : call.progress.flights.Tracked)
  (distinct : (call.progress.flights.pending.map (·.id)).Nodup)
  (member : flight ∈ call.progress.flights.pending)

include tracked distinct member

theorem steps_landed (outcome : Outcome Reply)
    (verdict : Except String Unit) :
    Steps policy call (call.landed set policy flight flight.attempt outcome verdict) := by
  have alike := land_alike policy call.progress flight.id flight.attempt outcome
  obtain ⟨followed, moves⟩ := lands policy tracked distinct member outcome alike
  unfold Call.landed
  generalize call.progress.land policy flight.id flight.attempt outcome = result at followed moves
  obtain ⟨progress, landing⟩ := result
  cases landing with
  | goesOn =>
    exact ⟨poised_of_tracked followed (.inr (.inl rfl)), moves, nofun⟩
  | failed failure => exact .finish followed moves _
  | accepted reply alternative =>
    dsimp only
    split
    · exact .finish followed moves _
    split
    · exact ⟨poised_of_tracked followed (.inr (.inr (.inr (.inl ⟨_, _, rfl⟩)))), moves,
        nofun⟩
    obtain ⟨ending, same⟩ := compared_eq set (Call.mk progress call.place) reply alternative
      verdict
    rw [same]
    exact .finish followed moves ending

theorem steps_landedBeside {reply : Reply} {alternative : Nat}
    (standing : call.place = .comparing reply alternative) (outcome : Outcome Reply)
    (verdict : Except String Unit) :
    Steps policy call
      (call.landedBeside set reply alternative flight flight.attempt outcome verdict) := by
  have alike : ∀ kind : AttemptKind,
      (if kind = .comparison then
        (call.progress.record flight.id flight.attempt outcome).noteComparison outcome
      else call.progress.record flight.id flight.attempt outcome).Alike
        (call.progress.record flight.id flight.attempt outcome) := by
    intro kind
    split <;> exact ⟨rfl, rfl, rfl, rfl⟩
  obtain ⟨followed, moves⟩ :=
    lands policy tracked distinct member outcome (alike flight.attempt.kind)
  unfold Call.landedBeside
  dsimp only
  generalize (if flight.attempt.kind = .comparison then
    (call.progress.record flight.id flight.attempt outcome).noteComparison outcome
    else call.progress.record flight.id flight.attempt outcome) = progress at followed moves ⊢
  split
  · exact ⟨poised_of_tracked followed (.inr (.inr (.inr (.inl ⟨reply, alternative, standing⟩)))),
      moves, fun result finished => by rw [standing] at finished; cases finished⟩
  · obtain ⟨ending, same⟩ := compared_eq set (Call.mk progress call.place) reply alternative verdict
    rw [same]
    exact .finish followed moves ending

end

theorem steps_hedge (poised : call.Poised policy) (view : View) (granted : Bool) :
    Steps policy call
      (⟨({ call.progress with hedge := false }.sendHedge set policy view granted).1, .looping⟩,
        ({ call.progress with hedge := false }.sendHedge set policy view granted).2) :=
  have sends := Progress.sends_sendHedge { call.progress with hedge := false } view granted
  ⟨poised_of_tracked (sends.tracked poised.tracked) (.inr (.inl rfl)), sends.moves, nofun⟩

theorem steps_of_step {input : Input Reply} (poised : call.Poised policy)
    (distinct : (call.progress.flights.pending.map (·.id)).Nodup)
    (stepped : call.step set policy input = some (next, events)) :
    Steps policy call (next, events) := by
  unfold Call.step at stepped
  split at stepped
  next alive standing =>
    split at stepped
    · cases stepped
      exact .ended poised _ ⟨rfl, rfl, rfl, rfl⟩
    · split at stepped
      · cases stepped
        exact .ended poised _ ⟨rfl, rfl, rfl, rfl⟩
      · cases stepped
        exact .rest (poised_of_tracked poised.tracked (.inr (.inl rfl)))
          ⟨rfl, rfl, rfl, rfl⟩ nofun
  next standing =>
    cases stepped
    exact steps_loop poised
  next view answers standing =>
    exact Option.some.inj stepped ▸ steps_nextAttempt poised standing view answers
  next view answers standing =>
    exact Option.some.inj stepped ▸ steps_reach poised standing view answers
  next standing =>
    cases stepped
    exact .rest ⟨poised.tracked, fun _ => poised.alone (.inr (.inr (.inl standing))),
      fun _ => poised.room (.inr standing)⟩ ⟨rfl, rfl, rfl, rfl⟩ nofun
  next standing =>
    cases stepped
    exact .ended poised _ ⟨rfl, rfl, rfl, rfl⟩
  next view answers standing =>
    exact Option.some.inj stepped ▸ steps_probe poised standing view answers
  next whole standing =>
    split at stepped
    · cases stepped
      refine .rest ⟨poised.tracked, fun _ => poised.alone (.inr (.inr (.inr standing))),
        fun placed => ?_⟩ ⟨rfl, rfl, rfl, rfl⟩ nofun
      rcases placed with placed | placed <;> cases placed
    · cases stepped
      exact .ended poised _ ⟨rfl, rfl, rfl, rfl⟩
  next id outcome verdict standing =>
    obtain ⟨⟨flight, attempt⟩, found, made⟩ := Option.map_eq_some_iff.mp stepped
    obtain ⟨member, -, rfl⟩ := flying_spec poised.tracked found
    exact made ▸ steps_landed poised.tracked distinct member outcome verdict
  next view granted standing =>
    split at stepped
    · rw [← Option.some.inj stepped]
      exact steps_hedge poised view granted
    · cases stepped
  next reply alternative id outcome verdict standing =>
    obtain ⟨⟨flight, attempt⟩, found, made⟩ := Option.map_eq_some_iff.mp stepped
    obtain ⟨member, -, rfl⟩ := flying_spec poised.tracked found
    exact made ▸ steps_landedBeside poised.tracked distinct member standing outcome verdict
  next reply alternative verdict standing =>
    obtain ⟨ending, same⟩ := compared_eq set call reply alternative verdict
    rw [same] at stepped
    cases stepped
    exact .ended poised _ ⟨rfl, rfl, rfl, rfl⟩
  next =>
    split at stepped
    · cases stepped
    · cases stepped
      exact .rest (poised_of_tracked poised.tracked
        (.inr (.inr (.inr (.inr rfl))))) ⟨rfl, rfl, rfl, rfl⟩ nofun
  next => cases stepped

end Call

end Moves

end Moonpool.Rpc.Balance
