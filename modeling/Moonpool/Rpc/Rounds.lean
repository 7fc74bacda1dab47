import Moonpool.Rpc.Balanced

/-!
Owns where the attempts of a balanced call go: while no round begins beside an attempt, no two
of them are in flight at one alternative.
-/

namespace Moonpool.Rpc.Balance

open List

variable {Reply : Type} {set : AlternativeSet} {policy : BalancePolicy} {maxLagging : Nat}

/-- The attempts in flight are at alternatives of their own, all tried in this round. -/
structure Apart (flights : Flights) (tried : List Nat) (sequential : Nat) (hedge : Bool) :
    Prop where
  distinct : (flights.active.map (·.2.alternative)).Nodup
  among : ∀ alternative ∈ flights.active.map (·.2.alternative), alternative ∈ tried
  early : sequential = 0 → tried = [] ∧ hedge = false

def Progress.Apart (progress : Progress Reply) : Prop :=
  Balance.Apart progress.flights progress.tried progress.sequential progress.hedge

section

variable {flights : Flights} {tried : List Nat} {sequential : Nat} {hedge : Bool}
  (apart : Apart flights tried sequential hedge)

include apart

theorem Apart.start {target later : Nat} (fresh : target ∉ tried) (kind : AttemptKind)
    (begun : later ≠ 0) :
    Apart (flights.start set target kind).1 (target :: tried) later hedge where
  distinct := by
    simp only [Flights.start, map_append, map_cons, map_nil]
    exact nodup_append.mpr ⟨apart.distinct, nodup_singleton _, fun one member other last =>
      (mem_singleton.mp last) ▸ fun same => fresh (same ▸ apart.among one member)⟩
  among := by
    intro alternative member
    simp only [Flights.start, map_append, mem_append, map_cons, map_nil,
      mem_singleton] at member
    exact member.elim (fun old => .tail _ (apart.among _ old)) fun new => new ▸ .head _
  early := fun none => absurd none begun

theorem Apart.remove (id : Nat) : Apart (flights.remove id) tried sequential hedge where
  distinct := apart.distinct.sublist (filter_sublist.map _)
  among := fun alternative member =>
    apart.among alternative (map_subset _ (filter_subset_self _) member)
  early := apart.early

theorem Apart.unhedged : Apart flights tried sequential false :=
  { apart with early := fun none => ⟨(apart.early none).1, rfl⟩ }

theorem Apart.probed : Apart flights (tried.filter flights.inFlight) sequential hedge where
  distinct := apart.distinct
  among := by
    intro alternative member
    refine mem_filter.mpr ⟨apart.among alternative member, ?_⟩
    obtain ⟨entry, listed, rfl⟩ := mem_map.mp member
    exact any_eq_true.mpr ⟨entry, listed, decide_eq_true rfl⟩
  early := fun none => by simpa [(apart.early none).1] using (apart.early none).2

end

variable {progress : Progress Reply}

theorem Progress.Apart.armCopies (apart : progress.Apart) (order : List Nat) {target : Nat}
    (only : progress.tried = [target]) (begun : progress.sequential ≠ 0)
    (answers : Progress.Answers) :
    (progress.armCopies set policy order target answers).1.Apart := by
  have compared (copies : DuplicatePolicy) :
      (progress.compareWith set copies order target answers).1.Apart ∧
        (progress.compareWith set copies order target answers).1.sequential ≠ 0 := by
    unfold Progress.compareWith
    split
    · exact ⟨apart, begun⟩
    next second chosen =>
      split
      · dsimp only
        split
        · have other : second ≠ target := by simpa using find?_some chosen
          exact ⟨Balance.Apart.start apart (by simpa [only] using other) _ begun, begun⟩
        · exact ⟨apart, begun⟩
      · exact ⟨apart, begun⟩
  unfold Progress.armCopies
  split
  · exact apart
  next copies _ =>
    obtain ⟨followed, late⟩ := compared copies
    dsimp only
    split
    · exact { followed with early := fun none => absurd none late }
    · exact followed

theorem Progress.Apart.sendHedge (apart : progress.Apart) (armed : progress.sequential ≠ 0)
    (view : View) (granted : Bool) :
    (progress.sendHedge set policy view granted).1.Apart := by
  unfold Progress.sendHedge
  split
  · exact apart
  split
  · exact apart
  dsimp only
  split
  · exact apart
  next target chosen =>
    split
    · refine Balance.Apart.start apart ?_ _ armed
      split at chosen
      · have checked := find?_some chosen
        simp only [Bool.and_eq_true, decide_eq_true_eq] at checked
        exact checked.2
      all_goals cases chosen
    · exact apart

namespace Call

variable {call next : Call Reply} {events : List Event}

/-- A new round begins while nothing is in flight. -/
def BeginsAlone (call : Call Reply) : Prop :=
  call.place = .pausing → call.progress.flights.active = []

def StaysApart (made : Call Reply × List Event) : Prop :=
  made.1.BeginsAlone → made.1.progress.Apart

section

variable (apart : call.progress.Apart)

include apart

theorem apart_attempt (order : List Nat)
    (answers : Progress.Answers) : StaysApart (call.attempt set policy order answers) := by
  unfold Call.attempt
  dsimp only
  split
  · intro alone
    have idle : call.progress.flights.active = [] := alone rfl
    exact ⟨by simp [idle], by simp [idle], fun none => ⟨rfl, (apart.early none).2⟩⟩
  next target chosen =>
    have fresh : target ∉ call.progress.tried := by simpa using find?_some chosen
    have started (kind : AttemptKind) : Balance.Apart (call.progress.flights.start set target kind).1
        (target :: call.progress.tried) (call.progress.sequential + 1) call.progress.hedge :=
      Balance.Apart.start apart fresh kind (Nat.succ_ne_zero _)
    split
    next first =>
      have none : call.progress.sequential = 0 := by
        by_contra later
        simp [later] at first
      refine fun _ => Progress.Apart.armCopies ?_ order ?_ (Nat.succ_ne_zero _) answers
      · exact started _
      · exact congrArg (target :: ·) (apart.early none).1
    · exact fun _ => started _

theorem apart_nextAttempt (view : View)
    (answers : Progress.Answers) : StaysApart (call.nextAttempt set policy view answers) := by
  unfold Call.nextAttempt
  split
  · exact fun _ => apart
  split
  · exact fun _ => apart
  dsimp only
  split
  · exact fun _ => apart
  · refine apart_attempt ?_ _ answers
    exact apart
  · exact fun _ => apart

theorem apart_reach (view : View) (answers : Progress.Answers) :
    StaysApart (call.reach set policy view answers) := by
  unfold Call.reach
  dsimp only
  split
  · exact fun _ => apart
  · refine apart_attempt ?_ _ answers
    exact apart
  · exact fun _ => apart

theorem apart_probe (view : View) (answers : Progress.Answers) :
    StaysApart (call.probe set policy view answers) := by
  unfold Call.probe
  split
  · exact fun _ => apart
  dsimp only
  split
  · exact fun _ => apart
  · exact fun _ => apart
  · refine apart_attempt ?_ _ answers
    exact Balance.Apart.probed apart

theorem apart_land (id : Nat) (attempt : Attempt)
    (outcome : Outcome Reply) : (call.progress.land policy id attempt outcome).1.Apart := by
  have removed := Balance.Apart.remove apart id
  unfold Progress.land
  split
  · exact removed
  split
  · exact removed.unhedged
  · exact removed
  split
  · exact removed
  unfold Progress.noteError
  split <;> split
  all_goals first
    | exact removed
    | exact removed.unhedged

theorem apart_compared (reply : Reply) (alternative : Nat)
    (verdict : Except String Unit) :
    (call.compared set reply alternative verdict).progress.Apart := by
  obtain ⟨ending, same⟩ := compared_eq set call reply alternative verdict
  rw [same]
  exact apart

theorem apart_landed (flight : Flight) (attempt : Attempt)
    (outcome : Outcome Reply) (verdict : Except String Unit) :
    (call.landed set policy flight attempt outcome verdict).1.progress.Apart := by
  have landed : (call.progress.land policy flight.id attempt outcome).1.Apart :=
    apart_land apart flight.id attempt outcome
  unfold Call.landed
  dsimp only
  split
  · exact landed
  · exact landed
  split
  · exact landed
  split
  · exact landed
  · exact apart_compared landed _ _ _

theorem apart_landedBeside (reply : Reply) (alternative : Nat)
    (flight : Flight) (attempt : Attempt) (outcome : Outcome Reply)
    (verdict : Except String Unit) :
    (call.landedBeside set reply alternative flight attempt outcome verdict).1.progress.Apart := by
  have removed : (call.progress.record flight.id attempt outcome).Apart :=
    Balance.Apart.remove apart flight.id
  unfold Call.landedBeside
  dsimp only
  split <;> split
  all_goals first
    | exact removed
    | exact apart_compared removed _ _ _

end

/-- Every step keeps the attempts apart, when the round it may begin begins alone. -/
theorem apart_step {input : Input Reply} (apart : call.progress.Apart)
    (stepped : call.step set policy input = some (next, events)) : StaysApart (next, events) := by
  unfold Call.step at stepped
  split at stepped
  · split at stepped
    · cases stepped
      exact fun _ => apart
    · split at stepped
      all_goals
        cases stepped
        exact fun _ => apart
  · cases stepped
    unfold Call.loop
    split
    · split
      · exact fun _ => apart
      · split <;> exact fun _ => apart
    · exact fun _ => apart
  next view answers _ =>
    rw [← Option.some.inj stepped]
    exact apart_nextAttempt apart view answers
  next view answers _ =>
    rw [← Option.some.inj stepped]
    exact apart_reach apart view answers
  · cases stepped
    exact fun _ => apart
  · cases stepped
    exact fun _ => apart
  next view answers _ =>
    rw [← Option.some.inj stepped]
    exact apart_probe apart view answers
  · split at stepped
    all_goals
      cases stepped
      exact fun _ => apart
  next id outcome verdict _ =>
    obtain ⟨found, -, made⟩ := Option.map_eq_some_iff.mp stepped
    exact fun _ => made ▸ apart_landed apart found.1 found.2 outcome verdict
  next view granted _ =>
    split at stepped
    next armed =>
      cases stepped
      refine fun _ => Progress.Apart.sendHedge ?_ (fun none => ?_) view granted
      · exact Balance.Apart.unhedged apart
      · cases armed.symm.trans (apart.early none).2
    · cases stepped
  next reply alternative id outcome verdict _ =>
    obtain ⟨found, -, made⟩ := Option.map_eq_some_iff.mp stepped
    exact fun _ => made ▸ apart_landedBeside apart reply alternative found.1 found.2 outcome verdict
  next reply alternative verdict _ =>
    cases stepped
    exact fun _ => apart_compared apart reply alternative verdict
  · split at stepped
    · cases stepped
    · cases stepped
      exact fun _ => apart
  · cases stepped

end Call

/-- The runs in which every new round begins with no attempt in flight. -/
inductive AloneRuns (set : AlternativeSet) (policy : BalancePolicy) (maxLagging : Nat) :
    System Reply → Prop where
  | new (others : Nat) : AloneRuns set policy maxLagging (.new ⟨replicate others .other, []⟩)
  | act {system next : System Reply} (runs : AloneRuns set policy maxLagging system)
      (action : Action Reply) (acted : system.act set policy maxLagging action = some next)
      (alone : next.call.BeginsAlone) : AloneRuns set policy maxLagging next

variable {system : System Reply}

theorem AloneRuns.runs (runs : AloneRuns set policy maxLagging system) :
    Runs set policy maxLagging system := by
  induction runs with
  | new others => exact .new others
  | act _ action acted _ ih => exact ih.act action acted

theorem AloneRuns.apart (runs : AloneRuns set policy maxLagging system) :
    system.call.progress.Apart := by
  induction runs with
  | new others => exact ⟨nodup_nil, nofun, fun _ => ⟨rfl, rfl⟩⟩
  | act _ action acted alone ih =>
    cases action with
    | call input outs =>
      unfold System.act at acted
      dsimp only at acted
      split at acted
      · cases acted
      next call events stepped =>
        split at acted
        all_goals
          cases acted
          exact Call.apart_step ih stepped alone
    | lagging move =>
      unfold System.act at acted
      dsimp only at acted
      split at acted
      · cases acted
      · cases acted
        exact ih

/-- While every new round begins with no attempt in flight, those in flight are at different
alternatives. -/
theorem attempts_at_different_alternatives (runs : AloneRuns set policy maxLagging system) :
    (system.call.progress.flights.pending.map (·.attempt.alternative)).Nodup := by
  rw [runs.runs.sound.poised.tracked, map_map]
  exact runs.apart.distinct

def hedgedThrice : BalancePolicy := ⟨.atMostOnce, .permitted ⟨1, true⟩, 3⟩

/-- The third alternative is out of reach. -/
def twoReachable : View := ⟨fun _ => false, (· < 2), []⟩

def chooses : Action Nat := .call (.chosen twoReachable ⟨false, false⟩) []

def declines (id : Nat) : Action Nat := .call (.landed id (.ok (7, .behind)) (.ok ())) []

/-- Both reachable alternatives decline; in the round after that the hedge timer fires. -/
def hedgedNextRound : List (Action Nat) :=
  [.call (.enter true) [], .call .turn [], chooses, declines 0, .call .turn [], chooses, declines 1,
   .call .turn [], chooses, .call (.slept true) [], chooses, .call (.hedgeDue twoReachable true) []]

theorem hedge_is_elsewhere :
    ∃ system, (System.new ⟨[], []⟩).acts threeAlternatives hedgedThrice 8 hedgedNextRound =
        some system ∧
      system.call.progress.flights.pending.map (·.id) = [2, 3] ∧
      (system.call.progress.flights.pending.map (·.attempt.alternative)).Nodup := by
  have entered : AloneRuns threeAlternatives hedgedThrice 8 (_ : System Nat) :=
    .act (.new 0) (.call (.enter true) []) rfl (by nofun)
  have first := (entered.act (.call .turn []) rfl (by nofun)).act chooses rfl (by nofun)
  have second := ((first.act (declines 0) rfl (by nofun)).act (.call .turn []) rfl (by nofun)).act
    chooses rfl (by nofun)
  -- Nothing is in flight when the round ends.
  have paused := ((second.act (declines 1) rfl (by nofun)).act (.call .turn []) rfl (by nofun)).act
    chooses rfl fun _ => rfl
  have hedged := ((paused.act (.call (.slept true) []) rfl (by nofun)).act chooses rfl
    (by nofun)).act (.call (.hedgeDue twoReachable true) []) rfl (by nofun)
  exact ⟨_, rfl, rfl, attempts_at_different_alternatives hedged⟩

/-- Only the copy's alternative is left, so a new round begins beside the copy. -/
def copyIsOvertaken : List (Action Nat) :=
  startWithCopy ++
    [.call (.landed 0 (.ok (7, .behind)) (.ok ())) [], .call .turn [],
     .call (.chosen ⟨fun _ => false, (· = 1), []⟩ ⟨false, false⟩) [], .call (.slept true) [],
     .call (.chosen ⟨fun _ => false, (· = 1), []⟩ ⟨false, false⟩) []]

theorem retry_meets_copy :
    ∃ system, (System.new ⟨[], []⟩).acts threeAlternatives onceWithCopy 8 copyIsOvertaken =
        some system ∧
      ¬(system.call.progress.flights.pending.map (·.attempt.alternative)).Nodup :=
  ⟨_, rfl, by decide⟩

end Moonpool.Rpc.Balance
