import Mathlib.Algebra.Order.Ring.Nat

/-!
Contract: the reconnect accounting of a channel, at the level of its lock sections.

Owns:
- the channel's shared state and the tasks of the attempts it started;
- every section under the channel's lock that touches them: a poll, the first reads of an attempt's
  task, a recorded failure, a published connection, the settling of a driver, the drop of the guard
  every task holds;
- what the failure limit allows in runs where each attempt fails or dies young.

Each event is one section; one that its task is not at does nothing.  A clone that holds a
reservation touches nothing here, so its polls are left out, and so are closing, wakers and a task
that is dropped before it has a verdict.

Emits: the failure count, the attempts started and the backoff each one waits.
-/

namespace Moonpool.Hyper

structure ChannelConfig where
  initialReconnectDelay : Nat
  maxReconnectDelay : Nat
  maxConnectionFailures : Option UInt32

/-- The wait before an attempt: doubled from failure to failure, and capped. -/
def backoffDelay (failures : Nat) (config : ChannelConfig) : Nat :=
  if failures = 0 ∨ config.initialReconnectDelay = 0 then 0
  else (List.range (failures - 1)).foldl (fun delay _ => min (2 * delay) config.maxReconnectDelay)
    (min config.initialReconnectDelay config.maxReconnectDelay)

/-- `dead` is whether the connection's sender is seen closed. -/
inductive Conn where
  | disconnected | failed | connecting | connected (dead : Bool)
deriving DecidableEq

structure Inner where
  conn : Conn
  failures : Nat
  generation : Nat

/-- Where the task of an attempt stands.  From its first reads on it holds a guard with the
generation it read. -/
inductive Stage where
  | spawned
  | trying (guard : Nat)
  | driving (guard mine : Nat)
  | returning (guard : Nat)
  | ended
deriving DecidableEq

/-- An attempt waits from its first reads on. -/
structure Attempt where
  stage : Stage
  wait : Option Nat

structure Channel extends Inner where
  attempts : List Attempt

def oneMore (failures : Nat) : Nat := min (failures + 1) (2 ^ 32 - 1)

def nextFailures (current alive : Nat) (endedWithError : Bool) (config : ChannelConfig) : Nat :=
  if config.initialReconnectDelay ≤ alive then 0
  else if endedWithError then oneMore current else current

/-- `die` is the end of the current connection, with an error; the others but `poll` are sections of
the task of one attempt. -/
inductive Event where
  | poll
  | begin (attempt : Nat)
  | recordFailure (attempt : Nat)
  | publish (attempt : Nat)
  | die
  | settle (attempt alive : Nat)
  | dropGuard (attempt : Nat)
deriving DecidableEq

namespace Channel

variable (config : ChannelConfig) (channel : Channel)

def new : Channel := ⟨⟨.disconnected, 0, 0⟩, []⟩

def stage (attempt : Nat) : Option Stage := channel.attempts[attempt]?.map Attempt.stage

/-- The task of an attempt goes on to its next stage. -/
def goOn (attempt : Nat) (stage : Stage) : Channel :=
  { channel with attempts := channel.attempts.modify attempt fun it => { it with stage } }

/-- A poll that finds the channel down spawns the task of the next attempt. -/
def startAttempt : Channel :=
  if config.maxConnectionFailures.any fun max => max.toNat ≤ channel.failures then
    { channel with conn := .disconnected }
  else
    { channel with conn := .connecting, attempts := channel.attempts ++ [⟨.spawned, none⟩] }

def step : Event → Channel
  | .poll =>
    match channel.conn with
    | .connected false | .connecting => channel
    | .failed => { channel with conn := .disconnected }
    -- A connection seen dead is demoted, and the reconnect starts in the same poll.
    | .connected true | .disconnected => channel.startAttempt config
  | .begin attempt =>
    if channel.stage attempt = some .spawned then
      { channel with attempts := channel.attempts.modify attempt fun _ =>
          ⟨.trying channel.generation, some (backoffDelay channel.failures config)⟩ }
    else channel
  | .recordFailure attempt =>
    match channel.stage attempt with
    | some (.trying guard) =>
      { channel.goOn attempt (.returning guard) with
        conn := .failed, failures := oneMore channel.failures }
    | _ => channel
  | .publish attempt =>
    match channel.stage attempt with
    | some (.trying guard) =>
      if channel.conn = .connecting then
        { channel.goOn attempt (.driving guard (channel.generation + 1)) with
          conn := .connected false, generation := channel.generation + 1 }
      else channel.goOn attempt (.returning guard)
    | _ => channel
  | .die => if channel.conn = .connected false then { channel with conn := .connected true }
    else channel
  | .settle attempt alive =>
    match channel.stage attempt with
    | some (.driving guard mine) =>
      if channel.generation = mine ∧ channel.conn matches .connected _ then
        { channel.goOn attempt (.returning guard) with
          conn := .disconnected
          failures := nextFailures channel.failures alive true config }
      else channel.goOn attempt (.returning guard)
    | _ => channel
  | .dropGuard attempt =>
    match channel.stage attempt with
    | some (.returning guard) =>
      -- The guard cannot tell a later attempt of its generation from its own.
      if channel.generation = guard ∧ channel.conn = .connecting then
        { channel.goOn attempt .ended with conn := .disconnected }
      else channel.goOn attempt .ended
    | _ => channel

/-- A connection ends too young to count as a success. -/
def Flaps : Event → Prop
  | .settle _ alive => alive < config.initialReconnectDelay
  | _ => True

/-- A poll that finds the channel down, or its connection dead, comes after every earlier attempt's
task has returned: its driver has settled, its guard is dropped. -/
def Patient (event : Event) : Prop :=
  event = .poll → channel.conn = .disconnected ∨ channel.conn = .connected true →
    ∀ attempt ∈ channel.attempts, attempt.stage = .ended

inductive Runs (allowed : Channel → Event → Prop) : Channel → Prop
  | new : Runs allowed new
  | step {channel : Channel} (event : Event) (runs : Runs allowed channel)
      (may : Flaps config event ∧ allowed channel event) : Runs allowed (channel.step config event)

variable {config} {channel} {max : UInt32}

/-- The attempts so far are the failures counted, and the one that is not over; each one waits the
backoff of the failures before it. -/
structure Counts (config : ChannelConfig) (max : UInt32) (channel : Channel) : Prop where
  bounded : channel.attempts.length ≤ max.toNat
  failures : channel.failures +
    (if channel.conn = .disconnected ∨ channel.conn = .failed then 0 else 1) =
      channel.attempts.length
  waits : ∀ {index attempt wait}, channel.attempts[index]? = some attempt →
    attempt.wait = some wait → wait = backoffDelay index config

/-- What the last attempt is at, by the state of the channel. -/
def Fits (conn : Conn) (generation : Nat) : Stage → Prop
  | .spawned => conn = .connecting
  | .trying _ => conn = .connecting
  | .driving _ mine => mine = generation ∧ ∃ dead, conn = .connected dead
  | .returning _ | .ended => conn = .disconnected ∨ conn = .failed

/-- `Counts`, with the tasks behind it: every attempt but the last has ended. -/
structure Orderly (config : ChannelConfig) (max : UInt32) (channel : Channel) : Prop extends
    Counts config max channel where
  stages : ∀ {index attempt}, channel.attempts[index]? = some attempt →
    if index + 1 = channel.attempts.length then Fits channel.conn channel.generation attempt.stage
    else attempt.stage = .ended

theorem Orderly.fits (orderly : Orderly config max channel) {index : Nat} {stage : Stage}
    (at_ : channel.stage index = some stage) (runs : stage ≠ .ended) :
    index + 1 = channel.attempts.length ∧ Fits channel.conn channel.generation stage := by
  obtain ⟨attempt, found, rfl⟩ := Option.map_eq_some_iff.mp at_
  have stands := orderly.stages found
  split at stands
  next last => exact ⟨last, stands⟩
  next => exact absurd stands runs

/-- The last attempt's task goes on, and nothing else of the attempts changes. -/
theorem Orderly.moves (orderly : Orderly config max channel) {index : Nat}
    (last : index + 1 = channel.attempts.length) {next : Channel} {change : Attempt → Attempt}
    (changed : next.attempts = channel.attempts.modify index change)
    (fits : ∀ attempt, Fits next.conn next.generation (change attempt).stage)
    (waits : ∀ attempt wait, (change attempt).wait = some wait →
      attempt.wait = some wait ∨ wait = backoffDelay index config)
    (failures : next.failures +
      (if next.conn = .disconnected ∨ next.conn = .failed then 0 else 1) =
        channel.attempts.length) : Orderly config max next := by
  have found {position : Nat} {attempt : Attempt} (there : next.attempts[position]? = some attempt) :
      ∃ old, channel.attempts[position]? = some old ∧
        attempt = if position = index then change old else old := by
    rw [changed, List.getElem?_modify] at there
    grind
  have length : next.attempts.length = channel.attempts.length := by
    rw [changed, List.length_modify]
  refine ⟨⟨length ▸ orderly.bounded, length ▸ failures, ?_⟩, ?_⟩
  · intro position attempt wait there waiting
    obtain ⟨old, before, rfl⟩ := found there
    split at waiting
    next same =>
      rcases waits old wait waiting with kept | new
      · exact orderly.waits before kept
      · exact same ▸ new
    next => exact orderly.waits before waiting
  · intro position attempt there
    obtain ⟨old, before, rfl⟩ := found there
    have stands := orderly.stages before
    rw [length]
    by_cases here : position = index
    · simpa only [here, last, if_true] using fits old
    · have earlier : position + 1 ≠ channel.attempts.length := by omega
      simpa only [here, earlier, if_false] using stands

/-- Only the connection changes, and no task is elsewhere for it. -/
theorem Orderly.setConn (orderly : Orderly config max channel) {conn : Conn}
    (fits : ∀ stage, Fits channel.conn channel.generation stage →
      Fits conn channel.generation stage)
    (failures : channel.failures + (if conn = .disconnected ∨ conn = .failed then 0 else 1) =
      channel.attempts.length) :
    Orderly config max { channel with conn } := by
  refine ⟨⟨orderly.bounded, failures, orderly.waits⟩, fun there => ?_⟩
  have stands := orderly.stages there
  split at stands
  next last => simpa only [last, if_true] using fits _ stands
  next earlier => simpa only [earlier, if_false] using stands

theorem Orderly.startAttempt (orderly : Orderly config max channel)
    (limit : config.maxConnectionFailures = some max) (down : channel.conn = .disconnected)
    (ended : ∀ attempt ∈ channel.attempts, attempt.stage = .ended) :
    Orderly config max (channel.startAttempt config) := by
  have failures := orderly.failures
  simp only [down, true_or, if_true, Nat.add_zero] at failures
  unfold Channel.startAttempt
  split
  next => simpa only [← down] using orderly
  next under =>
    have under : channel.failures < max.toNat := by simpa [limit] using under
    refine ⟨⟨?_, ?_, ?_⟩, ?_⟩
    · simpa [failures, Nat.succ_le_iff] using under
    · simp [failures]
    · intro index attempt wait there waiting
      have := @orderly.waits index attempt wait
      grind
    · intro index attempt there
      have := ended attempt
      grind [Fits]

theorem Orderly.step (orderly : Orderly config max channel)
    (limit : config.maxConnectionFailures = some max) {event : Event}
    (flaps : Flaps config event) (patient : channel.Patient event) :
    Orderly config max (channel.step config event) := by
  have narrow := max.toNat_lt
  have ⟨bounded, failures, waits⟩ := orderly.toCounts
  cases event with
  | poll =>
    simp only [Channel.step]
    split
    next => exact orderly
    next => exact orderly
    next at_ =>
      refine orderly.setConn (fun stage fits => ?_) (by simpa [at_] using failures)
      cases stage <;> simp_all [Fits]
    next dead =>
      -- Every attempt has ended, so no connection of one is left to be seen dead.
      have ended := patient rfl (.inr dead)
      have one : channel.failures + 1 = channel.attempts.length := by simp [← failures, dead]
      have inside : channel.failures < channel.attempts.length := by omega
      have stands := orderly.stages (List.getElem?_eq_getElem inside)
      rw [if_pos one, ended _ (List.getElem_mem inside), Fits, dead] at stands
      rcases stands with down | down <;> cases down
    next down => exact orderly.startAttempt limit down (patient rfl (.inl down))
  | begin attempt =>
    simp only [Channel.step]
    split
    next at_ =>
      obtain ⟨last, fits⟩ := orderly.fits at_ nofun
      have connecting : channel.conn = .connecting := fits
      have count : channel.failures = attempt := by simp_all; omega
      refine orderly.moves last rfl (fun _ => fits) ?_ failures
      rintro _ _ ⟨rfl⟩
      exact .inr (count ▸ rfl)
    next => exact orderly
  | recordFailure attempt =>
    simp only [Channel.step]
    split
    next at_ =>
      obtain ⟨last, fits⟩ := orderly.fits at_ nofun
      have connecting : channel.conn = .connecting := fits
      refine orderly.moves last rfl (fun _ => .inr rfl) (fun _ _ => .inl) ?_
      simp_all [oneMore]
      omega
    next => exact orderly
  | publish attempt =>
    simp only [Channel.step]
    split
    next at_ =>
      obtain ⟨last, fits⟩ := orderly.fits at_ nofun
      have connecting : channel.conn = .connecting := fits
      rw [if_pos connecting]
      refine orderly.moves last rfl (fun _ => ⟨rfl, false, rfl⟩) (fun _ _ => .inl) ?_
      simpa [connecting, goOn] using failures
    next => exact orderly
  | die =>
    simp only [Channel.step]
    split
    next live =>
      refine orderly.setConn (fun stage fits => ?_) (by simpa [live] using failures)
      cases stage <;> simp_all [Fits]
    next => exact orderly
  | settle attempt alive =>
    have young : ¬config.initialReconnectDelay ≤ alive := not_le.mpr flaps
    simp only [Channel.step]
    split
    next at_ =>
      obtain ⟨last, mine, dead, connected⟩ := orderly.fits at_ nofun
      rw [if_pos ⟨mine.symm, by rw [connected]⟩]
      refine orderly.moves last rfl (fun _ => .inl rfl) (fun _ _ => .inl) ?_
      have one : channel.failures + 1 = channel.attempts.length := by simpa [connected] using failures
      simp only [true_or, if_true, nextFailures, if_neg young, oneMore]
      omega
    next => exact orderly
  | dropGuard attempt =>
    simp only [Channel.step]
    split
    next at_ =>
      obtain ⟨last, fits⟩ := orderly.fits at_ nofun
      have idle : ¬channel.conn = .connecting := by rcases fits with down | down <;> simp [down]
      rw [if_neg fun both => idle both.2]
      exact orderly.moves last rfl (fun _ => fits) (fun _ _ => .inl) failures
    next => exact orderly

/-- Every attempt fails or ends young: each one is counted, so at most `max` start, and each waits
the backoff of those before it.  The next attempt starts when the task of the last has returned. -/
theorem Runs.exhausts_limit (limit : config.maxConnectionFailures = some max)
    (runs : Runs config Patient channel) : Counts config max channel := by
  have orderly : Orderly config max channel := by
    induction runs with
    | new => exact ⟨⟨Nat.zero_le _, rfl, nofun⟩, nofun⟩
    | step event _ may ih => exact ih.step limit may.1 may.2
  exact orderly.toCounts

def allowing (max : UInt32) : ChannelConfig := ⟨100, 30000, some max⟩

/-- The events of an attempt whose connection dies young, with the poll that starts it. -/
def flap (attempt : Nat) : List Event :=
  [.poll, .begin attempt, .publish attempt, .die, .settle attempt 5, .dropGuard attempt]

/-- The events of an attempt that fails, with the poll that takes the failure. -/
def fail (attempt : Nat) : List Event :=
  [.poll, .begin attempt, .recordFailure attempt, .dropGuard attempt, .poll]

instance (event : Event) : Decidable (channel.Patient event) :=
  inferInstanceAs (Decidable (event = .poll → _ ∨ _ → ∀ attempt ∈ channel.attempts, _ = _))

/-- One attempt flaps and one fails: both are counted, the second waited, and no third starts. -/
theorem Runs.exhausts_limit_twice : ∃ channel, Runs (allowing 2) Patient channel ∧
    channel.failures = 2 ∧ channel.attempts.map Attempt.wait = [some 0, some 100] ∧
    Counts (allowing 2) 2 channel := by
  have runs : Runs (allowing 2) Patient
      ((flap 0 ++ fail 1 ++ [Event.poll]).foldl (Channel.step (allowing 2)) .new) := by
    simp only [flap, fail, List.cons_append, List.nil_append, List.foldl]
    repeat refine .step _ ?_ ⟨by simp [Flaps, allowing], by decide⟩
    exact .new
  exact ⟨_, runs, rfl, rfl, runs.exhausts_limit rfl⟩

/-- A poll demotes each connection before its driver settles: one failure is allowed, and three
attempts start with no wait at all. -/
theorem flapping_peer_is_not_counted : ∃ channel, Runs (allowing 1) (fun _ _ => True) channel ∧
    channel.failures = 0 ∧ channel.attempts.map Attempt.wait = [some 0, some 0, some 0] := by
  have runs : Runs (allowing 1) (fun _ _ => True)
      ([.poll, .begin 0, .publish 0, .die, .poll, .settle 0 5, .dropGuard 0,
        .begin 1, .publish 1, .die, .poll, .settle 1 5, .dropGuard 1, .begin 2].foldl
        (Channel.step (allowing 1)) .new) := by
    simp only [List.foldl]
    repeat refine .step _ ?_ ⟨by simp [Flaps, allowing], trivial⟩
    exact .new
  exact ⟨_, runs, rfl, rfl⟩

/-- The guard of a failed attempt is dropped when the next one has started: it takes that one for its
own, and a third attempt starts where two failures are allowed. -/
theorem late_guard_frees_attempt : ∃ channel, Runs (allowing 2) (fun _ _ => True) channel ∧
    channel.failures = 1 ∧ channel.attempts.length = 3 := by
  have runs : Runs (allowing 2) (fun _ _ => True)
      ([.poll, .begin 0, .recordFailure 0, .poll, .poll, .dropGuard 0, .poll].foldl
        (Channel.step (allowing 2)) .new) := by
    simp only [List.foldl]
    repeat refine .step _ ?_ ⟨by simp [Flaps], trivial⟩
    exact .new
  exact ⟨_, runs, rfl, rfl⟩

end Channel

end Moonpool.Hyper
