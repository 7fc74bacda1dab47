import Mathlib.Data.Prod.Lex
import Mathlib.Order.OrderIsoNat

/-!
Contract: a simulation phase ends, and is reported as deadlocked only for a reason.

Owns:
- the stall guards of a phase (`runner/stall.rs`): the same instant, no progress, the time budget;
- the loops they end, of the run phase and of setup and check (`runner/orchestrator.rs`);
- the measure that falls with every pass, and with it that every loop ends.

Of the pending events their number is kept: how far ahead the next one is, in whole nanoseconds, is
part of a `Turn`, as is all that a step and the executor do.  The results of the workloads, the
injectors and what is observed of a run are left out.
-/

namespace Moonpool.Sim.Stall

inductive StallOutcome where
  | ok | breached | deadlock
deriving DecidableEq

def StallOutcome.merge : StallOutcome → StallOutcome → StallOutcome
  | deadlock, _ | _, deadlock => deadlock
  | breached, _ | _, breached => breached
  | ok, ok => ok

def noProgressThreshold : Nat := 3

def sameTimeThreshold : Nat := 100000

/-- The counters of the three guards. -/
structure RunStallGuard where
  noProgressCount : Nat
  sameTimeCount : Nat
  lastTime : Nat
  runStart : Nat
  runTimeBudget : Nat
  budgetBreachTime : Option Nat

namespace RunStallGuard

variable (guard : RunStallGuard) (shutdown : Bool) (active initialActive : Nat)

/-- A first breach asks for a shutdown; one after it is a deadlock. -/
def stage (count threshold : Nat) : StallOutcome :=
  if count ≤ threshold then .ok else if shutdown then .deadlock else .breached

/-- Too many events at one instant; only a pass that had one pending counts. -/
def checkSameTime (initialEvents now : Nat) : RunStallGuard × StallOutcome :=
  if active = 0 ∨ initialEvents = 0 then (guard, .ok)
  else
    let count := (if active < initialActive ∨ guard.lastTime < now then 0
      else guard.sameTimeCount) + 1
    ({ guard with lastTime := now, sameTimeCount := count }, stage shutdown count sameTimeThreshold)

/-- Too many passes in a row without a pending event and without a workload done. -/
def checkNoProgress (events initialEvents : Nat) : RunStallGuard × StallOutcome :=
  let count := if events = 0 ∧ active = initialActive ∧ initialEvents = 0 then
    guard.noProgressCount + 1 else 0
  ({ guard with noProgressCount := count }, stage shutdown count noProgressThreshold)

/-- The budget is counted from the start of the phase, and once more from its first breach. -/
def checkBudget (now : Nat) : StallOutcome :=
  if active = 0 then .ok
  else match guard.budgetBreachTime with
    | none => if guard.runTimeBudget < now - guard.runStart then .breached else .ok
    | some breach => if guard.runTimeBudget < now - breach then .deadlock else .ok

def evaluate (events initialEvents now : Nat) : RunStallGuard × StallOutcome :=
  let budget := guard.checkBudget active now
  let breach := if budget = .breached then some now else guard.budgetBreachTime
  let noProgress := { guard with budgetBreachTime := breach }.checkNoProgress shutdown active
    initialActive events initialEvents
  let sameTime := noProgress.1.checkSameTime shutdown active initialActive initialEvents now
  (sameTime.1, (budget.merge noProgress.2).merge sameTime.2)

variable {guard shutdown active initialActive} {events initialEvents now : Nat}

/-- All that one judgement can do: how each counter moves, and what each verdict says. -/
theorem evaluate_spec {after : RunStallGuard} {outcome : StallOutcome} (alive : initialActive ≠ 0)
    (judged : guard.evaluate shutdown active initialActive events initialEvents now =
      (after, outcome)) :
    after.runStart = guard.runStart ∧ after.runTimeBudget = guard.runTimeBudget ∧
    after.noProgressCount = (if events = 0 ∧ active = initialActive ∧ initialEvents = 0 then
      guard.noProgressCount + 1 else 0) ∧
    (if active = 0 ∨ initialEvents = 0 then
      after.lastTime = guard.lastTime ∧ after.sameTimeCount = guard.sameTimeCount
    else after.lastTime = now ∧ after.sameTimeCount =
      (if active < initialActive ∨ guard.lastTime < now then 0 else guard.sameTimeCount) + 1) ∧
    (after.budgetBreachTime = guard.budgetBreachTime ∨ outcome ≠ .ok ∧
      guard.budgetBreachTime = none ∧ after.budgetBreachTime = some now ∧
      guard.runTimeBudget < now - guard.runStart) ∧
    match outcome with
    | .ok => active = 0 ∨ after.noProgressCount ≤ noProgressThreshold ∧
      (initialEvents = 0 ∨ after.sameTimeCount ≤ sameTimeThreshold) ∧
      now ≤ guard.budgetBreachTime.getD guard.runStart + guard.runTimeBudget
    | .breached => shutdown = false ∨ after.budgetBreachTime ≠ guard.budgetBreachTime
    | .deadlock => 0 < active ∧ (shutdown = true ∧ (noProgressThreshold < after.noProgressCount ∨
        initialEvents ≠ 0 ∧ sameTimeThreshold < after.sameTimeCount) ∨
      ∃ breach, guard.budgetBreachTime = some breach ∧ guard.runTimeBudget < now - breach) := by
  cases breach : guard.budgetBreachTime with
  | _ =>
    simp only [evaluate, checkBudget, breach, checkNoProgress, checkSameTime, stage] at judged
    grind [StallOutcome.merge]

end RunStallGuard

/-- A phase at the top of its loop.  No function reads for how many passes no event was pending, and
how many ran at this instant. -/
structure Phase extends RunStallGuard where
  shutdownTriggered : Bool
  chaosEnded : Bool
  now : Nat
  events : Nat
  active : Nat
  quietPasses : Nat
  ranNow : Nat

/-- What one pass meets: the events the end of chaos schedules, the next one and those its step
leaves, whether a run phase finds a workload's task lost, the workloads found finished, and what the
executor leaves of both (in a run phase a workload that returns there is found finished by a later
pass). -/
structure Turn where
  healed : Nat
  delay : Nat
  stepped : Nat
  lost : Bool
  finished : Nat
  drained : Nat
  returned : Nat

namespace Phase

def new (now runTimeBudget events active : Nat) : Phase :=
  ⟨⟨0, 0, now, now, runTimeBudget, none⟩, false, false, now, events, active, 0, 0⟩

variable (closes : Bool) (chaos : Option Nat) (phase : Phase)

/-- `closes` says that a workload done early shuts its siblings down, `chaos` how long chaos is:
setup and check have neither. -/
def pass (turn : Turn) : Except Phase Phase :=
  let ends := !phase.chaosEnded && chaos.any (· ≤ phase.now - phase.runStart)
  let ran := decide (phase.events ≠ 0) || ends && decide (turn.healed ≠ 0)
  let now := if ran then phase.now + turn.delay else phase.now
  -- A lost task ends the phase before anything is judged.
  if turn.lost then .error { phase with now }
  else
    let active := phase.active - turn.finished
    let asks := closes && !phase.shutdownTriggered && decide (active < phase.active)
    let shutdown := phase.shutdownTriggered || asks
    let events := (if ran then turn.stepped else 0) + asks.toNat
    let judged := phase.evaluate shutdown active phase.active events phase.events now
    let next : Phase := ⟨judged.1, shutdown, phase.chaosEnded || ends, now, turn.drained, active,
      if phase.events = 0 ∧ events = 0 then phase.quietPasses + 1 else 0,
      (if now = phase.now then phase.ranNow else 0) + ran.toNat⟩
    match judged.2 with
    | .ok => .ok { next with active := active - turn.returned }
    | .breached => .ok { next with
        shutdownTriggered := true
        noProgressCount := 0
        sameTimeCount := 0
        active := active - turn.returned }
    | .deadlock => .error next

/-- The phase after so many passes; its loop is over once no workload is active. -/
def driveRunPhase (turns : Nat → Turn) : Nat → Except Phase Phase
  | 0 => .ok phase
  | passes + 1 => (driveRunPhase turns passes).bind fun phase =>
    if phase.active = 0 then .ok phase else phase.pass closes chaos (turns passes)

/-- Workloads are active after a shutdown was asked for, and no event was pending for too many
passes, too many ran at one instant, or the budget was exceeded twice. -/
def Stuck : Prop :=
  phase.shutdownTriggered = true ∧ 0 < phase.active ∧
    (noProgressThreshold < phase.quietPasses ∨ sameTimeThreshold < phase.ranNow ∨
      ∃ breach, phase.runTimeBudget < breach - phase.runStart ∧
        phase.runTimeBudget < phase.now - breach)

/-- The counters are not past what they count. -/
structure Tracks : Prop where
  quiet : phase.noProgressCount ≤ phase.quietPasses
  same : phase.lastTime < phase.now ∨ phase.lastTime = phase.now ∧
    phase.sameTimeCount ≤ phase.ranNow
  breach : ∀ breach, phase.budgetBreachTime = some breach →
    phase.shutdownTriggered = true ∧ phase.runTimeBudget < breach - phase.runStart

/-- A phase that goes on has true counters, and one that is reported as deadlocked is stuck. -/
def Sound : Except Phase Phase → Prop
  | .ok phase => phase.Tracks
  | .error stuck => stuck.Stuck

/-- Falls with every pass after which the loop goes on. -/
def left : ℕ ×ₗ ℕ ×ₗ ℕ ×ₗ ℕ ×ₗ ℕ :=
  toLex (phase.active, toLex (
    (!phase.shutdownTriggered).toNat + (!phase.chaosEnded).toNat +
      phase.budgetBreachTime.isNone.toNat, toLex (
    phase.budgetBreachTime.getD phase.runStart + phase.runTimeBudget + 1 - phase.now, toLex (
    sameTimeThreshold + 1 - (if phase.lastTime < phase.now then 0 else phase.sameTimeCount),
    noProgressThreshold + 1 - phase.noProgressCount))))

variable {phase}

/-- One pass with no task lost keeps the counters true, and every pass lowers what is left. -/
theorem pass_spec (alive : phase.active ≠ 0) (turn : Turn) :
    (turn.lost = false → phase.Tracks → Sound (phase.pass closes chaos turn)) ∧
      ∀ next, phase.pass closes chaos turn = .ok next → next.left < phase.left := by
  simp only [pass]
  cases lost : turn.lost with
  | true => exact ⟨nofun, nofun⟩
  | false =>
  simp only [Bool.false_eq_true, if_false, true_imp_iff]
  generalize ending : (!phase.chaosEnded && chaos.any _) = ends
  generalize judged : RunStallGuard.evaluate _ _ _ _ _ _ _ = result
  obtain ⟨guard, outcome⟩ := result
  have spec := RunStallGuard.evaluate_spec alive judged
  cases outcome with
  | deadlock =>
    refine ⟨fun ⟨quiet, same, breach⟩ => ?_, nofun⟩
    obtain ⟨start, budget, counted, timed, -, active, ⟨asked, many⟩ | ⟨at_, before, late⟩⟩ := spec
    · exact ⟨asked, active, by grind [sameTimeThreshold]⟩
    · obtain ⟨asked, early⟩ := breach at_ before
      exact ⟨by simp [asked], active, .inr (.inr ⟨at_, by grind, by grind⟩)⟩
  | _ =>
    refine ⟨fun ⟨quiet, same, breach⟩ => by refine ⟨?_, ?_, ?_⟩ <;> grind, ?_⟩
    rintro _ ⟨⟩
    simp only [left, Prod.Lex.toLex_lt_toLex]
    -- With no workload done, chaos or the wait for a shutdown ends, time passes, or a count grows.
    by_cases fell : phase.active - turn.finished - turn.returned < phase.active
    · exact .inl fell
    have kept : phase.active - turn.finished = phase.active := by omega
    simp only [kept, lt_irrefl, decide_false, Bool.and_false, Bool.or_false, Bool.toNat_false,
      true_and, false_or, Nat.add_zero] at spec ⊢
    cases ends <;> grind

/-- Every phase ends, and as deadlocked only where a workload's task was lost or its workloads are
stuck. -/
theorem phase_ends (closes : Bool) (chaos : Option Nat) (now runTimeBudget events active : Nat)
    (turns : Nat → Turn) :
    let after := (new now runTimeBudget events active).driveRunPhase closes chaos turns
    (∃ passes, ∀ phase, after passes = .ok phase → phase.active = 0) ∧
      ∀ passes stuck, after passes = .error stuck →
        (∃ pass < passes, (turns pass).lost = true) ∨ stuck.Stuck := by
  intro after
  have sound (passes : Nat) (kept : ∀ pass < passes, (turns pass).lost = false) :
      Sound (after passes) := by
    induction passes with
    | zero => exact ⟨Nat.le_refl _, .inr ⟨rfl, Nat.le_refl _⟩, nofun⟩
    | succ passes ih =>
      replace ih := ih fun pass before => kept pass (Nat.lt_succ_of_lt before)
      have here := kept passes (Nat.lt_succ_self _)
      change Sound ((after passes).bind _)
      cases found : after passes with
      | error stuck => rwa [found] at ih
      | ok phase =>
        rw [found] at ih
        by_cases ended : phase.active = 0
        · simpa [Except.bind, ended] using ih
        · simpa [Except.bind, ended] using
            (pass_spec closes chaos ended (turns passes)).1 here ih
  refine ⟨?_, fun passes stuck found => ?_⟩
  swap
  · by_cases lost : ∃ pass < passes, (turns pass).lost = true
    · exact .inl lost
    · push Not at lost
      have stuck := sound passes fun pass before => Bool.eq_false_of_not_eq_true (lost pass before)
      exact .inr (by simpa [found, Sound] using stuck)
  by_contra! runs
  choose phases reached alive using runs
  refine not_strictAnti_of_wellFoundedLT (fun passes => (phases passes).left)
    (strictAnti_nat_of_succ_lt fun passes => ?_)
  apply (pass_spec closes chaos (alive passes) (turns passes)).2
  have next : (after passes).bind _ = _ := reached (passes + 1)
  simpa only [reached passes, Except.bind, alive passes, if_false] using next

end Phase

end Moonpool.Sim.Stall
