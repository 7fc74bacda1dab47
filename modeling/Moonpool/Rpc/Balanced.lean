import Moonpool.Rpc.BalancedRuns
import Mathlib.Data.List.Perm.Basic

/-!
Owns what holds of a balanced call over every run: it keeps to its permissions, accounts for
every attempt it starts, and starts nothing after an attempt of its own that may have
executed.
-/

namespace Moonpool.Rpc.Balance

open Relation List Option

section Late

variable {Reply : Type} {policy : BalancePolicy}

/-! ### Late losers -/

def Lagging.ours (lagging : Lagging) : List Flight :=
  (lagging.out ++ lagging.entries).filterMap Entry.flight

theorem flatMap_drops (entries : List Entry) :
    entries.flatMap Entry.drops = (entries.filterMap Entry.flight).flatMap Flight.drops := by
  induction entries with
  | nil => rfl
  | cons entry entries ih =>
    cases entry with
    | ours flight => simp [Entry.drops, Entry.flight, ih]
    | other =>
      rw [flatMap_cons, filterMap_cons_none rfl, ih]
      rfl

theorem Ledger.moves_drop (ledger : Ledger) (dropped kept : List Flight)
    (held : ledger.late.Perm (dropped ++ kept)) :
    Moves Reply policy ledger
      { ledger with late := kept, trace := ledger.trace ++ dropped.flatMap Flight.drops } := by
  induction dropped generalizing ledger with
  | nil =>
    rw [flatMap_nil, append_nil]
    exact .single (.shuffle ledger kept held)
  | cons flight dropped ih =>
    have first : Moves Reply policy ledger
        { ledger with late := dropped ++ kept, trace := ledger.trace ++ flight.drops } :=
      (ReflTransGen.single (.shuffle ledger (flight :: (dropped ++ kept)) held)).tail
        (.drop _ (dropped ++ kept) flight rfl)
    rw [flatMap_cons, ← append_assoc]
    exact first.trans (ih _ (List.Perm.refl _))

theorem flights_split (excess : Nat) (entries : List Entry) :
    entries.filterMap Entry.flight =
      (entries.take excess).filterMap Entry.flight ++
        (entries.drop excess).filterMap Entry.flight := by
  rw [← filterMap_append, take_append_drop]

theorem Lagging.push_ours (lagging : Lagging) (max out : Nat) (entry : Entry) :
    ∃ dropped : List Flight,
      (lagging.push max out entry).2 = dropped.flatMap Flight.drops ∧
      (entry.flight.toList ++ lagging.ours).Perm
        (dropped ++ (lagging.push max out entry).1.ours) := by
  unfold Lagging.push Lagging.ours
  generalize lagging.entries.length + out + 1 - max = excess
  refine ⟨(lagging.entries.take excess).filterMap Entry.flight, flatMap_drops _, ?_⟩
  have added : [entry].filterMap Entry.flight = entry.flight.toList := by
    cases entry <;> rfl
  simp only [filterMap_append, flights_split excess lagging.entries, added]
  grind

theorem Lagging.handOver_moves (max : Nat) (flights : List Flight) :
    ∀ (lagging : Lagging) (outs : List Nat) (ledger : Ledger),
      ledger.late = flights ++ lagging.ours →
      Ledger.Moves Reply policy ledger
        { ledger with
          late := (lagging.handOver max flights outs).1.ours
          trace := ledger.trace ++ (lagging.handOver max flights outs).2 } := by
  induction flights with
  | nil =>
    intro lagging outs ledger held
    rw [Lagging.handOver, append_nil]
    exact .single (.shuffle ledger _ (held ▸ List.Perm.refl _))
  | cons flight flights ih =>
    intro lagging outs ledger held
    obtain ⟨dropped, shown, kept⟩ := lagging.push_ours max (outs.headD 0) (.ours flight)
    rw [Lagging.handOver]
    dsimp only
    generalize lagging.push max (outs.headD 0) (.ours flight) = pushed at shown kept
    obtain ⟨pushed, events⟩ := pushed
    have apart : ledger.late.Perm (dropped ++ (flights ++ pushed.ours)) := by
      rw [held, perm_iff_count]
      intro other
      have counted := kept.count_eq other
      simp only [Entry.flight, toList_some, cons_append, nil_append,
        count_append, count_cons] at counted ⊢
      omega
    rw [← append_assoc, shown]
    exact (Ledger.moves_drop ledger dropped _ apart).trans
      (ih pushed outs.tail _ rfl)

theorem Lagging.move_spec {max : Nat} {lagging next : Lagging} {events : List Event}
    {move : Move Reply} (moved : lagging.move max move = some (next, events)) :
    (∃ dropped : List Flight, events = dropped.flatMap Flight.drops ∧
        lagging.ours.Perm (dropped ++ next.ours)) ∨
      ∃ (flight : Flight) (outcome : Outcome Reply), events = flight.lands outcome true ∧
        lagging.ours.Perm (flight :: next.ours) := by
  cases move with
  | push out =>
    have pushed : lagging.push max out .other = (next, events) := some.inj moved
    left
    simpa [pushed, Entry.flight] using lagging.push_ours max out .other
  | take =>
    cases moved
    exact .inl ⟨[], rfl, by simp [Lagging.ours]⟩
  | ends index how =>
    unfold Lagging.move at moved
    dsimp only at moved
    split at moved
    · cases moved
    next entry found =>
      cases moved
      obtain ⟨within, rfl⟩ := List.getElem?_eq_some_iff.mp found
      have apart := (((getElem_cons_eraseIdx_perm within).append_right
        lagging.entries).filterMap Entry.flight).symm
      generalize lagging.out[index] = entry at apart
      cases entry with
      | other => exact .inl ⟨[], rfl, apart⟩
      | ours flight =>
        cases how with
        | completed outcome => exact .inr ⟨flight, outcome, rfl, apart⟩
        | expired => exact .inl ⟨[flight], (append_nil _).symm, apart⟩
  | putBack from_ count =>
    cases moved
    refine .inl ⟨_, flatMap_drops _, ?_⟩
    simp only [Lagging.ours, filterMap_append]
    have kept := flights_split from_ lagging.out
    have later := flights_split count (lagging.out.drop from_)
    rw [drop_drop] at later
    have past := flights_split ((take count (drop from_ lagging.out) ++
      lagging.entries).length - max) (take count (drop from_ lagging.out) ++
      lagging.entries)
    rw [filterMap_append] at past
    rw [perm_iff_count]
    intro other
    have counted := congrArg (List.count other) past
    simp only [kept, later, count_append] at counted ⊢
    omega
  | gone =>
    cases moved
    exact .inl ⟨_, flatMap_drops _, by simp [Lagging.ours]⟩

section

variable {max : Nat} {lagging next : Lagging} {events : List Event} {move : Lagging.Move Reply}
  (moved : lagging.move max move = some (next, events))

include moved

theorem Lagging.move_moves (ledger : Ledger) (held : ledger.late = lagging.ours) :
    Ledger.Moves Reply policy ledger
      { ledger with late := next.ours, trace := ledger.trace ++ events } := by
  rcases Lagging.move_spec moved with ⟨dropped, rfl, kept⟩ | ⟨flight, outcome, rfl, kept⟩
  · exact Ledger.moves_drop ledger dropped _ (held ▸ kept)
  · have first : Ledger.Moves Reply policy ledger { ledger with late := flight :: next.ours } :=
      .single (.shuffle ledger _ (held ▸ kept))
    exact first.tail (.landLate _ _ flight outcome rfl)

theorem Lagging.ours_subset : next.ours ⊆ lagging.ours := by
  rcases Lagging.move_spec moved with ⟨dropped, -, kept⟩ | ⟨flight, -, -, kept⟩
  · exact List.Subset.trans (subset_append_right _ _) kept.symm.subset
  · exact List.Subset.trans (subset_cons_self _ _) kept.symm.subset

end

end Late

/-! ### The whole account -/

section Runs

variable {Reply : Type} {set : AlternativeSet} {policy : BalancePolicy} {maxLagging : Nat}
  {system next : System Reply}

/-- A call that is over has nothing in flight, and recorded what was. -/
def System.ledger (system : System Reply) : Ledger where
  live := if system.call.isOver then [] else system.call.progress.flights.pending
  late := system.lagging.ours
  records :=
    if system.call.isOver then
      system.call.progress.records ++ system.call.progress.flights.laggingRecords
    else system.call.progress.records
  nextId := system.call.progress.flights.nextId
  sequential := system.call.progress.sequential
  copies := system.call.progress.copies
  trace := system.trace

structure System.Sound (policy : BalancePolicy) (system : System Reply) : Prop where
  poised : system.call.Poised policy
  kept : system.ledger.Kept policy
  recorded : ∀ result, system.call.place = .finished result →
    Collected system.call.progress result
  early : system.call.isOver = false → system.lagging.ours = []

theorem Ledger.Kept.distinct {ledger : Ledger} (kept : ledger.Kept policy) :
    (ledger.live.map (·.id)).Nodup := by
  rw [nodup_iff_count_le_one]
  intro id
  have counted := kept.ended id
  rw [countP_append] at counted
  have same : (ledger.live.map (·.id)).count id = ledger.live.countP (·.id = id) := by
    rw [count_eq_countP, countP_map]
    exact countP_congr fun flight _ => by simp
  split at counted <;> omega

theorem Call.step_over {call : Call Reply} (past : call.isOver = true) (input : Input Reply) :
    call.step set policy input = none := by
  cases call with
  | mk progress place =>
    cases place <;> simp [Call.isOver] at past
    all_goals cases input <;> simp [Call.step, Call.isOver]

theorem System.ledger_live (live : system.call.isOver = false) :
    system.ledger = system.call.progress.account system.lagging.ours system.trace := by
  unfold System.ledger Progress.account
  simp [live]

theorem System.Sound.calls (sound : system.Sound policy) {input : Input Reply} {outs : List Nat}
    (acted : system.act set policy maxLagging (.call input outs) = some next) :
    next.Sound policy := by
  unfold System.act at acted
  dsimp only at acted
  split at acted
  · cases acted
  next call events stepped =>
    have live : system.call.isOver = false := by
      by_contra past
      rw [Call.step_over (by simpa using past)] at stepped
      cases stepped
    have kept := sound.kept
    have distinct := kept.distinct
    rw [System.ledger_live live] at kept distinct
    have steps := Call.steps_of_step sound.poised distinct stepped
    have moved := kept.moves (steps.moves system.lagging.ours system.trace)
    split at acted
    next past =>
      cases acted
      -- The attempts in flight are recorded as lagging, then handed over one by one.
      have collected := moved.move (@Ledger.Move.collect Reply policy _)
      have handed := collected.moves (@Lagging.handOver_moves Reply policy maxLagging
        call.progress.flights.pending system.lagging outs _ rfl)
      refine ⟨steps.poised, ?_, steps.recorded, fun early => ?_⟩
      · unfold System.ledger
        simp only [past, ↓reduceIte, steps.poised.tracked.lagging]
        exact handed
      · rw [past] at early
        cases early
    next open_ =>
      cases acted
      have open_ : call.isOver = false := by simpa using open_
      refine ⟨steps.poised, ?_, steps.recorded, fun _ => sound.early live⟩
      rw [System.ledger_live open_]
      exact moved

theorem System.Sound.act (sound : system.Sound policy) {action : Action Reply}
    (acted : system.act set policy maxLagging action = some next) : next.Sound policy := by
  cases action with
  | call input outs => exact sound.calls acted
  | lagging move =>
    unfold System.act at acted
    dsimp only at acted
    split at acted
    · cases acted
    next lagging events moved =>
      cases acted
      refine ⟨sound.poised, ?_, sound.recorded, fun live => ?_⟩
      · exact sound.kept.moves (Lagging.move_moves moved system.ledger rfl)
      · -- Only this call's end makes late losers of this call.
        have fewer := Lagging.ours_subset moved
        rw [sound.early live] at fewer
        exact subset_nil.mp fewer

theorem Runs.sound (runs : Runs set policy maxLagging system) : system.Sound policy := by
  induction runs with
  | new others =>
    have foreign : Lagging.ours ⟨replicate others .other, []⟩ = [] := by
      unfold Lagging.ours
      rw [nil_append, filterMap_eq_nil_iff]
      intro entry member
      rw [eq_of_mem_replicate member]
      rfl
    refine ⟨Call.poised_of_tracked rfl (.inl rfl), ?_, fun _ finished => ?_, fun _ => foreign⟩
    rotate_left
    · cases finished
    rw [System.ledger_live rfl]
    unfold System.new Progress.account
    rw [foreign]
    exact Ledger.kept_new policy
  | act _ action acted sound => exact sound.act acted

theorem Runs.acts {script : List (Action Reply)} (runs : Runs set policy maxLagging system)
    (ran : system.acts set policy maxLagging script = some next) :
    Runs set policy maxLagging next := by
  induction script generalizing system with
  | nil => rwa [← some.inj ran]
  | cons action actions ih =>
    simp only [System.acts] at ran
    split at ran
    · cases ran
    next acted => exact ih (runs.act action acted) ran

def threeAlternatives : AlternativeSet :=
  ⟨3, fun index => ⟨.v4 (Vector.replicate 4 0) 0, 0, ⟨index.toUInt64, 0⟩⟩⟩

/-- Every alternative is reachable, and the selector has no order of its own. -/
def allReachable : View := ⟨fun _ => false, fun _ => true, []⟩

/-! ### Permissions and attempts -/

theorem rank_maxExecution (left right : Execution) :
    rank (maxExecution left right) = max (rank left) (rank right) := by
  unfold maxExecution
  split <;> omega

theorem rank_foldl_maxExecution (first : Execution) (executions : List Execution) :
    rank first ≤ rank (executions.foldl maxExecution first) ∧
      ∀ execution ∈ executions, rank execution ≤ rank (executions.foldl maxExecution first) := by
  induction executions generalizing first with
  | nil => simp
  | cons head tail ih =>
    obtain ⟨least, each⟩ := ih (maxExecution first head)
    rw [rank_maxExecution] at least
    refine ⟨le_trans (le_max_left _ _) least, ?_⟩
    intro execution member
    rcases mem_cons.mp member with rfl | later
    · exact le_trans (le_max_right _ _) least
    · exact each execution later

/-- The summary knows what every attempt with an effect proves. -/
theorem rank_summarize {attempts : List AttemptRecord} {record : AttemptRecord}
    (member : record ∈ attempts) (effective : record.outcome ≠ .declined) :
    rank record.outcome.execution ≤ rank (summarize attempts) := by
  have effect : record.effect = record.outcome.execution := by
    unfold AttemptRecord.effect
    split
    next declined => exact absurd declined effective
    · rfl
  rw [← effect]
  exact (rank_foldl_maxExecution _ _).2 _ (mem_map_of_mem member)

/-- The call's flights and its late losers: what has not ended yet. -/
def System.alive (system : System Reply) : List Flight :=
  (if system.call.isOver then [] else system.call.progress.flights.pending) ++ system.lagging.ours

/-- Over every run a balanced call keeps to its permissions (one attempt in flight at a time, or at
most `maxCopies` copies, each after the budget granted it; at most `max 1 maxAttempts` sequential
attempts) and accounts for every attempt: in the result once, with the outcome its end showed, its
reservation released once, its end reported once; and a failed call knows at least what the end of
each attempt that was not declined showed. -/
theorem balanced_call_accounts (runs : Runs set policy maxLagging system) :
    (policy.duplicates = .forbidden → system.call.isOver = false →
      system.call.progress.flights.pending.length ≤ 1) ∧
    (policy.duplicates = .forbidden → system.trace.countP Event.startsCopy = 0) ∧
    (∀ copies, policy.duplicates = .permitted copies →
      system.trace.countP Event.startsCopy ≤ copies.maxCopies) ∧
    Backed system.trace ∧
    system.trace.countP Event.startsCopy = system.trace.countP Event.grants ∧
    system.trace.countP Event.startsSequential ≤ max 1 policy.maxAttempts ∧
    (∀ result, system.call.place = .finished result →
      (attemptsOf result).Perm (shownRecords system.trace)) ∧
    (∀ id attempt, .started id attempt ∈ system.trace →
      system.alive.countP (·.id = id) + system.trace.countP (Event.releases id) = 1 ∧
      system.alive.countP (·.id = id) + system.trace.countP (Event.ends id) = 1) ∧
    (∀ error, system.call.place = .finished (.error error) →
      ∀ id attempt, .started id attempt ∈ system.trace →
        shownOutcome system.trace id ≠ .declined →
        rank (shownOutcome system.trace id).execution ≤ rank error.execution) := by
  have sound := runs.sound
  have kept := sound.kept
  have copied : system.trace.countP Event.startsCopy ≤ policy.allowedCopies :=
    le_trans (le_of_eq kept.copies) kept.permitted
  have collected {result : Except BalanceError (Balanced Reply)}
      (finished : system.call.place = .finished result) :
      (attemptsOf result).Perm (shownRecords system.trace) := by
    have past : system.call.isOver = true := by simp [Call.isOver, finished]
    have listed := kept.listed
    unfold System.ledger at listed
    simp only [past, ↓reduceIte, map_nil, append_nil] at listed
    rw [(sound.recorded result finished).attempts]
    exact listed
  refine ⟨fun forbids live => ?_, fun forbids => ?_, fun copies permits => ?_, kept.granted,
    kept.copies.trans kept.spent.symm, ?_, fun result => collected,
    fun id attempt started => ?_, fun error failed id attempt started effective => ?_⟩
  · have few := (kept.forbidden forbids).1
    rwa [System.ledger_live live] at few
  · simpa [BalancePolicy.allowedCopies, forbids] using copied
  · simpa only [BalancePolicy.allowedCopies, permits] using copied
  · rw [Nat.max_comm]
    exact le_trans (le_of_eq kept.sequential) kept.bounded
  · -- A started attempt has a number below the next one.
    have numbered : id ∈ range system.ledger.nextId := by
      rw [← kept.numbered]
      exact mem_map.mpr ⟨(id, attempt), mem_filterMap.mpr ⟨_, started, rfl⟩, rfl⟩
    have below := mem_range.mp numbered
    have released := kept.released id
    have ended := kept.ended id
    rw [if_pos below] at released ended
    exact ⟨released, ended⟩
  · have shown : ⟨attempt, shownOutcome system.trace id⟩ ∈ shownRecords system.trace :=
      mem_map.mpr ⟨(id, attempt), mem_filterMap.mpr ⟨_, started, rfl⟩, rfl⟩
    rw [(sound.recorded _ failed).summed error rfl]
    exact rank_summarize ((collected failed).symm.subset shown) effective

def onceWithCopy : BalancePolicy := ⟨.atMostOnce, .permitted ⟨1, false⟩, 2⟩

/-- The first attempt at alternative 0 and its comparison copy at alternative 1. -/
def startWithCopy : List (Action Nat) :=
  [.call (.enter true) [], .call .turn [], .call (.chosen allReachable ⟨true, true⟩) []]

/-- The first attempt fails the call, and the copy is handed over and collected later. -/
def copyIsLate : List (Action Nat) :=
  startWithCopy ++
    [.call (.landed 0 (.error ⟨.replyTooLarge, .executed⟩) (.ok ())) [],
     .lagging .take, .lagging (.ends 0 (.completed (.ok (7, .accept))))]

theorem late_copy_accounts :
    ∃ system error,
      (System.new ⟨[], []⟩).acts threeAlternatives onceWithCopy 8 copyIsLate = some system ∧
      system.call.place = .finished (.error error) ∧
      system.trace.countP Event.startsCopy = 1 ∧ system.trace.countP (Event.ends 1) = 1 ∧
      Backed system.trace ∧ error.attempts.Perm (shownRecords system.trace) ∧
      ∀ id attempt, .started id attempt ∈ system.trace →
        shownOutcome system.trace id ≠ .declined →
        rank (shownOutcome system.trace id).execution ≤ rank error.execution := by
  have ran : (System.new ⟨[], []⟩).acts threeAlternatives onceWithCopy 8 copyIsLate = some _ := rfl
  obtain ⟨-, -, -, backed, -, -, listed, -, known⟩ :=
    balanced_call_accounts (Runs.acts (Runs.new 0) ran)
  exact ⟨_, _, ran, rfl, by decide, by decide, backed, listed _ rfl, known _ rfl⟩

/-! ### Ambiguity -/

/-- What the end proves about execution, short of a reply. -/
def AttemptEnd.ambiguous : AttemptEnd → Bool
  | replied => false
  | failed error => decide (error.execution ≠ .notAdmitted)
  | dropped => true

/-- An attempt ended that may have executed, without a usable reply. -/
def Event.mayHaveRun : Event → Bool
  | ended _ _ how _ => how.ambiguous
  | _ => false

def Event.ofComparison : Event → Bool
  | ended _ attempt _ _ => decide (attempt.kind = .comparison)
  | _ => false

def Event.quells (event : Event) : Bool := event.mayHaveRun && !event.ofComparison

def Call.Quelled (call : Call Reply) : Prop :=
  call.isOver = true ∨ (∃ reply alternative, call.place = .comparing reply alternative) ∨
    (call.progress.blocked.isSome = true ∧ call.progress.hedge = false ∧
      (call.place = .looping ∨ call.place = .waiting ∨ call.place = .choosing))

namespace Call

variable {call : Call Reply}

theorem quelled_finish (call : Call Reply) (ending : Ending Reply) :
    (call.finish set ending).Quelled := .inl rfl

theorem quelled_compared (call : Call Reply) (reply : Reply) (alternative : Nat)
    (verdict : Except String Unit) : (call.compared set reply alternative verdict).Quelled := by
  obtain ⟨ending, same⟩ := compared_eq set call reply alternative verdict
  rw [same]
  exact quelled_finish call ending

theorem land_blocked {progress : Progress Reply} (blocked : progress.blocked.isSome = true)
    (unarmed : progress.hedge = false) (id : Nat) (attempt : Attempt) (outcome : Outcome Reply) :
    (progress.land policy id attempt outcome).1.blocked.isSome = true ∧
      (progress.land policy id attempt outcome).1.hedge = false := by
  unfold Progress.land
  split
  · exact ⟨blocked, unarmed⟩
  split
  · exact ⟨blocked, rfl⟩
  · exact ⟨blocked, unarmed⟩
  split
  · exact ⟨blocked, unarmed⟩
  · unfold Progress.noteError
    split <;> split <;> simp [Progress.record, blocked, unarmed]

theorem land_quells (once : policy.retry = .atMostOnce) (progress : Progress Reply) (id : Nat)
    {attempt : Attempt} {error : RpcError} (own : attempt.kind ≠ .comparison)
    (ambiguous : error.execution ≠ .notAdmitted) :
    (∃ failure, (progress.land policy id attempt (.error error)).2 = .failed failure) ∨
      ((progress.land policy id attempt (.error error)).1.blocked.isSome = true ∧
        (progress.land policy id attempt (.error error)).1.hedge = false ∧
        (progress.land policy id attempt (.error error)).2 = .goesOn) := by
  unfold Progress.land
  rw [if_neg own]
  dsimp only
  split
  · exact .inl ⟨_, rfl⟩
  next retried =>
    have maybe : error.execution = .maybeExecuted := by
      cases known : error.execution with
      | notAdmitted => exact absurd known ambiguous
      | maybeExecuted => rfl
      | executed => exact absurd (.inr known) retried
    unfold Progress.noteError
    simp [maybe, once]

theorem quelled_landed (blocked : call.progress.blocked.isSome = true)
    (unarmed : call.progress.hedge = false) (flight : Flight) (attempt : Attempt)
    (outcome : Outcome Reply) (verdict : Except String Unit) :
    (call.landed set policy flight attempt outcome verdict).1.Quelled := by
  obtain ⟨still, never⟩ := @land_blocked Reply policy _ blocked unarmed flight.id attempt outcome
  unfold Call.landed
  generalize call.progress.land policy flight.id attempt outcome = result at still never
  obtain ⟨progress, landing⟩ := result
  cases landing with
  | goesOn => exact .inr (.inr ⟨still, never, .inl rfl⟩)
  | failed failure => exact quelled_finish _ _
  | accepted reply alternative =>
    dsimp only
    split
    · exact quelled_finish _ _
    · split
      · exact .inr (.inl ⟨reply, alternative, rfl⟩)
      · exact quelled_compared _ _ _ _

theorem quelled_of_landed (once : policy.retry = .atMostOnce) (flight : Flight)
    {attempt : Attempt} {error : RpcError} (own : attempt.kind ≠ .comparison)
    (ambiguous : error.execution ≠ .notAdmitted) (verdict : Except String Unit) :
    (call.landed set policy flight attempt (.error error) verdict).1.Quelled := by
  have quells := land_quells once call.progress flight.id own ambiguous
  unfold Call.landed
  generalize call.progress.land policy flight.id attempt (.error error) = result at quells
  obtain ⟨progress, landing⟩ := result
  rcases quells with ⟨failure, rfl⟩ | ⟨blocked, unarmed, rfl⟩
  · exact quelled_finish _ _
  · exact .inr (.inr ⟨blocked, unarmed, .inl rfl⟩)

theorem quelled_landedBeside {reply : Reply} {alternative : Nat}
    (standing : call.place = .comparing reply alternative) (flight : Flight) (attempt : Attempt)
    (outcome : Outcome Reply) (verdict : Except String Unit) :
    (call.landedBeside set reply alternative flight attempt outcome verdict).1.Quelled := by
  unfold Call.landedBeside
  dsimp only
  generalize (if attempt.kind = .comparison then
    (call.progress.record flight.id attempt outcome).noteComparison outcome
    else call.progress.record flight.id attempt outcome) = progress
  split
  · exact .inr (.inl ⟨reply, alternative, standing⟩)
  · exact quelled_compared _ _ _ _

theorem starting_lands (flight : Flight) (outcome : Outcome Reply) (late : Bool) :
    ∀ event ∈ flight.lands outcome late, event.starting = none :=
  (endsOnly_lands flight outcome late).quiet

theorem unquelling_of_ends {event : Event} (open_ : ∀ id, event.ends id = false) :
    event.quells = false := by
  cases event with
  | ended id => simpa [Event.ends] using open_ id
  | _ => rfl

theorem attempt_unquelling (call : Call Reply) (order : List Nat) (answers : Progress.Answers) :
    ∀ event ∈ (call.attempt set policy order answers).2, event.quells = false := by
  unfold Call.attempt
  dsimp only
  split
  · simp
  next target _ =>
    have started : ∀ kind, ∀ event ∈ (call.progress.flights.start set target kind).2,
        event.quells = false := by
      simp [Flights.start, Event.quells, Event.mayHaveRun]
    split
    · intro event member
      rcases mem_append.mp member with first | copy
      · exact started _ event first
      · exact unquelling_of_ends ((Progress.sends_armCopies _ order target answers).unended event copy)
    · exact started _

theorem lands_quells {flight : Flight} {outcome : Outcome Reply} {event : Event}
    (member : event ∈ flight.lands outcome false) (quells : event.quells = true) :
    ∃ error, outcome = .error error ∧ error.execution ≠ .notAdmitted ∧
      flight.attempt.kind ≠ .comparison := by
  simp only [Flight.lands, mem_cons, not_mem_nil, or_false] at member
  rcases member with rfl | rfl
  · simp [Event.quells, Event.mayHaveRun] at quells
  cases outcome with
  | ok reply => simp [Event.quells, Event.mayHaveRun, AttemptEnd.of, AttemptEnd.ambiguous] at quells
  | error error =>
    simp only [Event.quells, Event.mayHaveRun, AttemptEnd.of, AttemptEnd.ambiguous,
      Event.ofComparison, Bool.and_eq_true, decide_eq_true_eq, Bool.not_eq_true',
      decide_eq_false_iff_not] at quells
    exact ⟨error, rfl, quells⟩

/-- A step of a quelled call, or one that quells it, starts nothing and leaves it quelled. -/
def Hushes (call : Call Reply) (made : Call Reply × List Event) : Prop :=
  (call.Quelled ∨ ∃ event ∈ made.2, event.quells = true) →
    (∀ event ∈ made.2, event.starting = none) ∧ made.1.Quelled

theorem Hushes.still {next : Call Reply} (quelled : next.Quelled) : Hushes call (next, []) :=
  fun _ => ⟨forall_mem_nil _, quelled⟩

theorem Hushes.free {made : Call Reply × List Event} (free : ¬call.Quelled)
    (unquelling : ∀ event ∈ made.2, event.quells = false) : Hushes call made := by
  intro quelled
  rcases quelled with quelled | ⟨event, member, quells⟩
  · exact absurd quelled free
  · rw [unquelling event member] at quells
    cases quells

theorem not_quelled (standing : call.place = .entering ∨ call.place = .reaching ∨
    call.place = .parked ∨ call.place = .pausing) : ¬call.Quelled := by
  rcases standing with standing | standing | standing | standing <;>
    simp [Quelled, isOver, standing]

theorem hushes_loop (standing : call.place = .looping) : Hushes call (call.loop set, []) := by
  intro quelled
  refine ⟨forall_mem_nil _, ?_⟩
  have blocked : call.progress.blocked.isSome = true ∧ call.progress.hedge = false := by
    simpa [Quelled, isOver, standing] using quelled
  unfold Call.loop
  split
  · split
    · exact quelled_finish _ _
    · split
      · exact .inr (.inr ⟨blocked.1, blocked.2, .inr (.inl rfl)⟩)
      · exact .inr (.inr ⟨blocked.1, blocked.2, .inr (.inr rfl)⟩)
  · exact .inr (.inr ⟨blocked.1, blocked.2, .inr (.inl rfl)⟩)

theorem hushes_nextAttempt (standing : call.place = .choosing) (view : View)
    (answers : Progress.Answers) : Hushes call (call.nextAttempt set policy view answers) := by
  unfold Call.nextAttempt
  split
  · exact .still (quelled_finish _ _)
  next free =>
    have open_ : ¬call.Quelled := by simp [Quelled, isOver, standing, free]
    split
    · exact .still (quelled_finish _ _)
    dsimp only
    split
    · exact .still (quelled_finish _ _)
    · exact .free open_ (attempt_unquelling _ _ _)
    · exact .free open_ (forall_mem_nil _)

theorem hushes_reach (standing : call.place = .reaching) (view : View)
    (answers : Progress.Answers) : Hushes call (call.reach set policy view answers) := by
  refine .free (not_quelled (.inr (.inl standing))) ?_
  unfold Call.reach
  dsimp only
  split
  · simp
  · exact attempt_unquelling _ _ _
  · simp

theorem hushes_probe (standing : call.place = .parked) (view : View)
    (answers : Progress.Answers) : Hushes call (call.probe set policy view answers) := by
  refine .free (not_quelled (.inr (.inr (.inl standing)))) ?_
  unfold Call.probe
  split
  · simp
  dsimp only
  split
  · simp
  · simp
  · exact attempt_unquelling _ _ _

theorem hushes_landed (once : policy.retry = .atMostOnce) (standing : call.place = .waiting)
    (flight : Flight) (outcome : Outcome Reply) (verdict : Except String Unit) :
    Hushes call (call.landed set policy flight flight.attempt outcome verdict) := by
  intro quelled
  refine ⟨starting_lands flight outcome false, ?_⟩
  rcases quelled with quelled | ⟨event, member, quells⟩
  · have blocked : call.progress.blocked.isSome = true ∧ call.progress.hedge = false := by
      simpa [Quelled, isOver, standing] using quelled
    exact quelled_landed blocked.1 blocked.2 flight flight.attempt outcome verdict
  · obtain ⟨error, rfl, ambiguous, own⟩ := lands_quells member quells
    exact quelled_of_landed once flight own ambiguous verdict

theorem hushes_of_step {input : Input Reply} {next : Call Reply} {events : List Event}
    (once : policy.retry = .atMostOnce) (poised : call.Poised policy)
    (stepped : call.step set policy input = some (next, events)) :
    Hushes call (next, events) := by
  unfold Call.step at stepped
  split at stepped
  next alive standing =>
    split at stepped
    · cases stepped
      exact .still (quelled_finish _ _)
    split at stepped
    · cases stepped
      exact .still (quelled_finish _ _)
    · cases stepped
      exact .free (not_quelled (.inl standing)) (forall_mem_nil _)
  next standing =>
    cases stepped
    exact hushes_loop standing
  next view answers standing =>
    rw [← some.inj stepped]
    exact hushes_nextAttempt standing view answers
  next view answers standing =>
    rw [← some.inj stepped]
    exact hushes_reach standing view answers
  next standing =>
    cases stepped
    exact .free (not_quelled (.inr (.inr (.inl standing)))) (forall_mem_nil _)
  next standing =>
    cases stepped
    exact .still (quelled_finish _ _)
  next view answers standing =>
    rw [← some.inj stepped]
    exact hushes_probe standing view answers
  next whole standing =>
    split at stepped
    · cases stepped
      exact .free (not_quelled (.inr (.inr (.inr standing)))) (forall_mem_nil _)
    · cases stepped
      exact .still (quelled_finish _ _)
  next id outcome verdict standing =>
    obtain ⟨⟨flight, attempt⟩, found, made⟩ := map_eq_some_iff.mp stepped
    obtain ⟨-, -, rfl⟩ := flying_spec poised.tracked found
    rw [← made]
    exact hushes_landed once standing flight outcome verdict
  next view granted standing =>
    split at stepped
    next armed =>
      -- The timer is armed, so the call is not quelled.
      rw [← some.inj stepped]
      refine .free ?_ fun event sent =>
        unquelling_of_ends ((Progress.sends_sendHedge _ view granted).unended event sent)
      simp [Quelled, isOver, standing, armed]
    · cases stepped
  next reply alternative id outcome verdict standing =>
    obtain ⟨⟨flight, attempt⟩, -, made⟩ := map_eq_some_iff.mp stepped
    rw [← made]
    exact fun _ => ⟨starting_lands flight outcome false,
      quelled_landedBeside standing flight attempt outcome verdict⟩
  next reply alternative verdict standing =>
    rw [← some.inj stepped]
    exact .still (quelled_compared _ _ _ _)
  next =>
    split at stepped
    · cases stepped
    · cases stepped
      exact .still (.inl rfl)
  · cases stepped

end Call

/-! ### Over a run -/

theorem starting_drops {dropped : List Flight} :
    ∀ event ∈ dropped.flatMap Flight.drops, event.starting = none := by
  intro event member
  obtain ⟨flight, -, dropping⟩ := mem_flatMap.mp member
  exact (endsOnly_drops flight).quiet event dropping

theorem Lagging.starting_handOver (max : Nat) (flights : List Flight) :
    ∀ (lagging : Lagging) (outs : List Nat),
      ∀ event ∈ (lagging.handOver max flights outs).2, event.starting = none := by
  induction flights with
  | nil => intro lagging outs event member; exact (not_mem_nil member).elim
  | cons flight flights ih =>
    intro lagging outs event member
    rcases mem_append.mp member with pushed | later
    · obtain ⟨dropped, shown, -⟩ := lagging.push_ours max (outs.headD 0) (.ours flight)
      have pushed : event ∈ (lagging.push max (outs.headD 0) (.ours flight)).2 := pushed
      exact starting_drops event (shown ▸ pushed)
    · exact ih _ _ event later

theorem Lagging.late_of_move {max : Nat} {lagging next : Lagging} {events : List Event}
    {move : Move Reply} (moved : lagging.move max move = some (next, events)) :
    ∀ event ∈ events, event.starting = none ∧ lagging.ours ≠ [] := by
  rcases Lagging.move_spec moved with ⟨dropped, rfl, kept⟩ | ⟨flight, outcome, rfl, kept⟩
  · intro event member
    refine ⟨starting_drops event member, fun none => ?_⟩
    rw [none] at kept
    obtain ⟨rfl, -⟩ := append_eq_nil_iff.mp kept.nil_eq.symm
    cases member
  · intro event member
    refine ⟨(endsOnly_lands flight outcome true).quiet event member, fun none => ?_⟩
    rw [none] at kept
    cases kept.nil_eq

/-- Nothing starts after an event that quells, and the call knows. -/
structure System.Hushed (system : System Reply) : Prop where
  ordered : system.trace.Pairwise fun earlier later =>
    earlier.quells = true → later.starting = none
  known : (∃ event ∈ system.trace, event.quells = true) → system.call.Quelled

theorem ordered_append {trace events : List Event}
    (ordered : trace.Pairwise fun earlier later => earlier.quells = true → later.starting = none)
    (hushed : ((∃ event ∈ trace, event.quells = true) ∨ ∃ event ∈ events, event.quells = true) →
      ∀ event ∈ events, event.starting = none) :
    (trace ++ events).Pairwise fun earlier later =>
      earlier.quells = true → later.starting = none := by
  refine pairwise_append.mpr ⟨ordered, ?_, ?_⟩
  · refine pairwise_of_forall_mem_list fun earlier before later after quells => ?_
    exact hushed (.inr ⟨earlier, before, quells⟩) later after
  · intro earlier before later after quells
    exact hushed (.inl ⟨earlier, before, quells⟩) later after

theorem System.Hushed.act (once : policy.retry = .atMostOnce) (sound : system.Sound policy)
    (hushed : system.Hushed) {action : Action Reply}
    (acted : system.act set policy maxLagging action = some next) : next.Hushed := by
  cases action with
  | call input outs =>
    simp only [System.act] at acted
    split at acted
    · cases acted
    next call events stepped =>
      have step := Call.hushes_of_step once sound.poised stepped
      have ordered := ordered_append hushed.ordered fun quelled =>
        (step (quelled.imp_left hushed.known)).1
      have known : (∃ event ∈ system.trace ++ events, event.quells = true) → call.Quelled := by
        rintro ⟨event, member, quells⟩
        rcases mem_append.mp member with before | now
        · exact (step (.inl (hushed.known ⟨event, before, quells⟩))).2
        · exact (step (.inr ⟨event, now, quells⟩)).2
      split at acted
      next past =>
        cases acted
        exact ⟨ordered_append ordered fun _ => Lagging.starting_handOver _ _ _ _,
          fun _ => .inl past⟩
      · cases acted
        exact ⟨ordered, known⟩
  | lagging move =>
    simp only [System.act] at acted
    split at acted
    · cases acted
    next lagging events moved =>
      cases acted
      have late := Lagging.late_of_move moved
      refine ⟨ordered_append hushed.ordered fun _ event member => (late event member).1, ?_⟩
      rintro ⟨event, member, quells⟩
      rcases mem_append.mp member with before | now
      · exact hushed.known ⟨event, before, quells⟩
      -- Only a call that is over left something behind.
      refine .inl ?_
      by_contra live
      exact (late event now).2 (sound.early (by simpa using live))

/-- Over every run of an `AtMostOnce` call, nothing starts after an attempt of its own that ended in
doubt. -/
theorem nothing_starts_after_doubt (once : policy.retry = .atMostOnce)
    (runs : Runs set policy maxLagging system) :
    system.trace.Pairwise fun earlier later =>
      earlier.mayHaveRun = true → earlier.ofComparison = false → later.starting = none := by
  have hushed : system.Hushed := by
    induction runs with
    | new others => exact ⟨List.Pairwise.nil, by simp [System.new]⟩
    | act runs action acted ih => exact ih.act once runs.sound acted
  refine hushed.ordered.imp fun quiet ran own => quiet ?_
  simp [Event.quells, ran, own]

/-- The connection went away while an attempt was out. -/
def lost : Outcome Nat := .error ⟨.disconnected, .maybeExecuted⟩

def firstIsLost : List (Action Nat) :=
  startWithCopy ++ [.call (.landed 0 lost (.ok ())) [], .call .turn []]

theorem lost_first_stops_the_call :
    ∃ system, (System.new ⟨[], []⟩).acts threeAlternatives onceWithCopy 8 firstIsLost =
        some system ∧
      (∃ event ∈ system.trace, event.mayHaveRun = true ∧ event.ofComparison = false) ∧
      system.trace.Pairwise fun earlier later =>
        earlier.mayHaveRun = true → earlier.ofComparison = false → later.starting = none := by
  have ran : (System.new ⟨[], []⟩).acts threeAlternatives onceWithCopy 8 firstIsLost = some _ := rfl
  exact ⟨_, ran, by decide, nothing_starts_after_doubt rfl (Runs.acts (Runs.new 0) ran)⟩

/-- The comparison copy is lost, then the first attempt declines. -/
def copyIsLost : List (Action Nat) :=
  startWithCopy ++
    [.call (.landed 1 lost (.ok ())) [], .call .turn [],
     .call (.landed 0 (.ok (7, .behind)) (.ok ())) [], .call .turn [],
     .call (.chosen allReachable ⟨false, false⟩) []]

/-- A comparison copy in doubt stops nothing: the call retries after it. -/
theorem retry_starts_after_lost_copy :
    ∃ system, (System.new ⟨[], []⟩).acts threeAlternatives onceWithCopy 8 copyIsLost =
        some system ∧
      ¬system.trace.Pairwise fun earlier later =>
        earlier.mayHaveRun = true → later.starting = none := by
  exact ⟨_, rfl, by decide⟩

end Runs

end Moonpool.Rpc.Balance
