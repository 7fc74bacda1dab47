import Moonpool.Rpc.Call

/-!
Owns one balanced call: its permissions, its attempts in flight, the loop that starts, lands
and hedges them, and the model's collection of late losers (`balance/client.rs`,
`balance/policy.rs`, `balance/hooks.rs`, `balance/model.rs`).

The call is one task.  `Place` says at which await point, or between which two, it stands;
an `Input` is what it finds there.  What the failure monitor, the selector, the hooks and the
hedge budget answer is part of the input, so every answer is allowed.  Measured latencies,
penalties and pauses only feed the selector and the timers and are left out.
-/

namespace Moonpool.Rpc.Balance

/-! ### Permissions -/

/-- Sequential retry permission after an attempt that may have executed. -/
inductive Retry where
  | atMostOnce
  | afterAmbiguous
deriving DecidableEq

structure DuplicatePolicy where
  maxCopies : Nat
  hedge : Bool
deriving DecidableEq

inductive Duplicates where
  | forbidden
  | permitted (policy : DuplicatePolicy)
deriving DecidableEq

def Duplicates.policy : Duplicates → Option DuplicatePolicy
  | forbidden => none
  | permitted policy => some policy

structure BalancePolicy where
  retry : Retry
  duplicates : Duplicates
  maxAttempts : Nat
deriving DecidableEq

structure AlternativeSet where
  size : Nat
  endpoint : Nat → Endpoint

/-! ### Attempts -/

inductive AttemptKind where
  | first
  | retry
  | hedge
  | comparison
deriving DecidableEq

/-- A first attempt or a fail-over, rather than a concurrent copy. -/
def AttemptKind.sequential : AttemptKind → Bool
  | first | retry => true
  | hedge | comparison => false

structure Attempt where
  alternative : Nat
  endpoint : Endpoint
  kind : AttemptKind
deriving DecidableEq

inductive Verdict where
  | accept
  | behind
  | overloaded
deriving DecidableEq

abbrev Outcome (Reply : Type) : Type := Except RpcError (Reply × Verdict)

inductive AttemptEnd where
  | replied
  | failed (error : RpcError)
  | dropped
deriving DecidableEq

def AttemptEnd.of {Reply : Type} : Outcome Reply → AttemptEnd
  | .ok _ => replied
  | .error error => failed error

inductive AttemptOutcome where
  | replied
  | declined
  | failed (error : RpcError)
  | lagging
deriving DecidableEq

def AttemptOutcome.of {Reply : Type} : Outcome Reply → AttemptOutcome
  | .ok (_, .accept) => replied
  | .ok _ => declined
  | .error error => failed error

def AttemptOutcome.execution : AttemptOutcome → Execution
  | replied | declined => .executed
  | failed error => error.execution
  | lagging => .maybeExecuted

structure AttemptRecord where
  attempt : Attempt
  outcome : AttemptOutcome
deriving DecidableEq

inductive ModelOutcome where
  | clean
  | overloaded
  | behind
  | failed
deriving DecidableEq

def ModelOutcome.of {Reply : Type} : Outcome Reply → ModelOutcome
  | .ok (_, .accept) => clean
  | .ok (_, .overloaded) => overloaded
  | .ok (_, .behind) => behind
  | .error error =>
    if error.reason = .overloaded ∨ error.reason = .serverShuttingDown then overloaded else failed

/-- Everything an attempt's life shows outside the call. -/
inductive Event where
  /-- `try_take_copy` was asked, and whether it took one. -/
  | asked (granted : Bool)
  | started (id : Nat) (attempt : Attempt)
  | released (id : Nat) (outcome : Option ModelOutcome)
  | ended (id : Nat) (attempt : Attempt) (how : AttemptEnd) (late : Bool)
deriving DecidableEq

/-- An attempt's future: it owns the reservation and the guard that reports its end. -/
structure Flight where
  id : Nat
  attempt : Attempt
deriving DecidableEq

def Flight.lands {Reply : Type} (flight : Flight) (outcome : Outcome Reply) (late : Bool) :
    List Event :=
  [.released flight.id (some (.of outcome)), .ended flight.id flight.attempt (.of outcome) late]

def Flight.drops (flight : Flight) : List Event :=
  [.released flight.id none, .ended flight.id flight.attempt .dropped true]

structure Flights where
  pending : List Flight
  active : List (Nat × Attempt)
  nextId : Nat
deriving DecidableEq

namespace Flights

variable (flights : Flights)

def primaries : Nat :=
  flights.active.countP fun entry => decide (entry.2.kind ≠ .comparison)

def inFlight (alternative : Nat) : Bool :=
  flights.active.any fun entry => decide (entry.2.alternative = alternative)

def laggingRecords : List AttemptRecord :=
  flights.active.map fun entry => ⟨entry.2, .lagging⟩

def start (set : AlternativeSet) (alternative : Nat) (kind : AttemptKind) :
    Flights × List Event :=
  let attempt : Attempt := ⟨alternative, set.endpoint alternative, kind⟩
  ({ pending := flights.pending ++ [⟨flights.nextId, attempt⟩]
     active := flights.active ++ [(flights.nextId, attempt)]
     nextId := flights.nextId + 1 },
   [.started flights.nextId attempt])

def remove (id : Nat) : Flights :=
  { flights with
    pending := flights.pending.filter fun flight => flight.id ≠ id
    active := flights.active.filter fun entry => entry.1 ≠ id }

end Flights

/-! ### Errors -/

inductive BalanceFailure where
  | noAlternatives
  | staleAlternatives
  | allAlternativesFailed
  | rejected (error : RpcError)
  | declined
  | comparison (detail : String)
  | shutdown
deriving DecidableEq

/-- Errors after which neither the call nor another alternative is tried. -/
def isNeverRetried (error : RpcError) : Bool :=
  match error.reason with
  | .methodMismatch .. | .invalidReference _ | .interfaceMismatch .. | .schemaMismatch ..
  | .codecMismatch .. | .streamingMismatch _ | .frameTooLarge .. | .encode _
  | .malformedRequest | .replyTooLarge | .replyEncodeFailed | .malformedReply _
  | .unauthenticated _ | .permissionDenied | .credentialWithheld _ | .shutdown
  | .notListening | .alreadyRegistered => true
  | _ => false

def isTerminalForReference (error : RpcError) : Bool :=
  match error.reason with
  | .endpointNotFound | .staleIncarnation | .methodMismatch .. | .invalidReference _
  | .interfaceMismatch .. | .schemaMismatch .. | .codecMismatch .. | .streamingMismatch _ => true
  | _ => false

def rank : Execution → Nat
  | .notAdmitted => 0
  | .maybeExecuted => 1
  | .executed => 2

def maxExecution (left right : Execution) : Execution :=
  if rank left ≤ rank right then right else left

/-- What an attempt adds to the call's knowledge: a declined one had no effect. -/
def AttemptRecord.effect (record : AttemptRecord) : Execution :=
  match record.outcome with
  | .declined => .notAdmitted
  | other => other.execution

def summarize (attempts : List AttemptRecord) : Execution :=
  (attempts.map AttemptRecord.effect).foldl maxExecution .notAdmitted

structure BalanceError where
  failure : BalanceFailure
  execution : Execution
  attempts : List AttemptRecord
deriving DecidableEq

def BalanceError.new (failure : BalanceFailure) (attempts : List AttemptRecord) : BalanceError :=
  ⟨failure, summarize attempts, attempts⟩

structure Balanced (Reply : Type) where
  reply : Reply
  alternative : Nat
  endpoint : Endpoint
  attempts : List AttemptRecord
deriving DecidableEq

/-! ### Choosing an alternative -/

structure View where
  permanent : Nat → Bool
  available : Nat → Bool
  /-- The selector's order: any list at all. -/
  proposed : List Nat

inductive Choice where
  | dead
  | unreachable
  | ordered (order : List Nat)
deriving DecidableEq

/-- Rank the alternatives not yet dead for this call.  No selector hides a usable one. -/
def choose (set : AlternativeSet) (view : View) (dead : List Nat) (probe : Bool) :
    Choice × List Nat :=
  let gone := dead ++ (List.range set.size).filter fun index => view.permanent index && index ∉ dead
  let candidates := (List.range set.size).filter (· ∉ gone)
  if candidates = [] then (.dead, gone)
  else
    let usable := candidates.filter fun index => view.available index || probe
    let preferred := (view.proposed.filter (· ∈ usable)).eraseDups
    let order := preferred ++ usable.filter (· ∉ preferred)
    if order = [] then (.unreachable, gone) else (.ordered order, gone)

/-! ### Progress -/

/-- The call's comparison copy: where it went, and its outcome once it arrived. -/
structure Comparison (Reply : Type) where
  alternative : Nat
  outcome : Option (Except RpcError Reply)
  accepted : Bool
deriving DecidableEq

structure Progress (Reply : Type) where
  flights : Flights
  records : List AttemptRecord
  dead : List Nat
  tried : List Nat
  sequential : Nat
  copies : Nat
  hedge : Bool
  comparison : Option (Comparison Reply)
  last : Option BalanceFailure
  /-- An ambiguous attempt without retry permission: nothing new starts. -/
  blocked : Option RpcError
  probed : Bool
deriving DecidableEq

/-- A usable reply or why the call failed, before its attempts are collected. -/
abbrev Ending (Reply : Type) : Type := Except BalanceFailure (Reply × Nat)

section Call

variable {Reply : Type} (set : AlternativeSet) (policy : BalancePolicy)

namespace Progress

variable (progress : Progress Reply)

def new : Progress Reply :=
  ⟨⟨[], [], 0⟩, [], [], [], 0, 0, false, none, none, none, false⟩

structure Answers where
  wantsComparison : Bool
  granted : Bool
deriving DecidableEq

/-- Start a comparison copy next to a first attempt, if the hooks ask for one. -/
def compareWith (copies : DuplicatePolicy) (order : List Nat)
    (target : Nat) (answers : Answers) : Progress Reply × List Event :=
  match order.find? (· ≠ target) with
  | none => (progress, [])
  | some second =>
    if progress.copies < copies.maxCopies ∧ answers.wantsComparison = true then
      let asked := Event.asked answers.granted
      if answers.granted = true then
        let (flights, events) := progress.flights.start set second .comparison
        ({ progress with
           copies := progress.copies + 1
           tried := second :: progress.tried
           flights
           comparison := some ⟨second, none, false⟩ },
         asked :: events)
      else (progress, [asked])
    else (progress, [])

def armCopies (order : List Nat) (target : Nat) (answers : Answers) :
    Progress Reply × List Event :=
  match policy.duplicates.policy with
  | none => (progress, [])
  | some copies =>
    let (progress, events) := progress.compareWith set copies order target answers
    if copies.hedge = true ∧ progress.copies < copies.maxCopies ∧
        (order.any fun index => index ∉ progress.tried) = true then
      ({ progress with hedge := true }, events)
    else (progress, events)

/-- The hedge timer fired: send a concurrent copy if still permitted and granted. -/
def sendHedge (view : View) (granted : Bool) :
    Progress Reply × List Event :=
  match policy.duplicates.policy with
  | none => (progress, [])
  | some copies =>
    if copies.maxCopies ≤ progress.copies ∨ progress.blocked.isSome = true then (progress, [])
    else
      let (choice, dead) := choose set view progress.dead false
      let progress := { progress with dead }
      let target :=
        match choice with
        | .ordered order => order.find? fun index =>
          !progress.flights.inFlight index && decide (index ∉ progress.tried)
        | .dead | .unreachable => none
      match target with
      | none => (progress, [])
      | some target =>
        let asked := Event.asked granted
        if granted = true then
          let (flights, events) := progress.flights.start set target .hedge
          ({ progress with
             copies := progress.copies + 1
             tried := target :: progress.tried
             flights },
           asked :: events)
        else (progress, [asked])

def noteComparison (outcome : Outcome Reply) : Progress Reply :=
  { progress with
    comparison := progress.comparison.map fun comparison =>
      { comparison with
        outcome := some (outcome.map Prod.fst)
        accepted := match outcome with
          | .ok (_, .accept) => true
          | _ => false } }

def record (id : Nat) (attempt : Attempt) (outcome : Outcome Reply) :
    Progress Reply :=
  { progress with
    flights := progress.flights.remove id
    records := progress.records ++ [⟨attempt, .of outcome⟩] }

inductive Landing (Reply : Type) where
  | goesOn
  | accepted (reply : Reply) (alternative : Nat)
  | failed (failure : BalanceFailure)

def noteError (alternative : Nat) (error : RpcError) :
    Progress Reply :=
  let progress :=
    if isTerminalForReference error then { progress with dead := alternative :: progress.dead }
    else progress
  let progress :=
    if error.execution = .maybeExecuted ∧ policy.retry ≠ .afterAmbiguous then
      { progress with
        hedge := false
        blocked := some (progress.blocked.getD error) }
    else progress
  { progress with last := some (.rejected error) }

def land (id : Nat) (attempt : Attempt) (outcome : Outcome Reply) :
    Progress Reply × Landing Reply :=
  let progress := progress.record id attempt outcome
  if attempt.kind = .comparison then (progress.noteComparison outcome, .goesOn)
  else
    match outcome with
    | .ok (reply, .accept) =>
      ({ progress with hedge := false }, .accepted reply attempt.alternative)
    | .ok _ => ({ progress with last := some .declined }, .goesOn)
    | .error error =>
      if isNeverRetried error ∨ error.execution = .executed then
        (progress, .failed (.rejected error))
      else (progress.noteError policy attempt.alternative error, .goesOn)

def copyWon : Option (Reply × Nat) :=
  match progress.comparison with
  | some ⟨alternative, some (.ok reply), true⟩ => some (reply, alternative)
  | _ => none

def copyPending : Bool :=
  match progress.comparison with
  | some ⟨_, none, _⟩ => true
  | _ => false

end Progress

/-! ### The call -/

inductive Place (Reply : Type) where
  | entering
  | looping
  | choosing
  /-- Waiting for a reachable alternative, before a check and after one. -/
  | reaching
  | parked
  | pausing
  | waiting
  | comparing (reply : Reply) (alternative : Nat)
  | finished (result : Except BalanceError (Balanced Reply))
  | cancelled
deriving DecidableEq

structure Call (Reply : Type) where
  progress : Progress Reply
  place : Place Reply
deriving DecidableEq

inductive Input (Reply : Type) where
  | enter (alive : Bool)
  | turn
  /-- The monitor, the selector, the hooks and the budget are asked. -/
  | chosen (view : View) (answers : Progress.Answers)
  | changed
  | closed
  | gaveUp (view : View) (answers : Progress.Answers)
  | slept (whole : Bool)
  | landed (id : Nat) (outcome : Outcome Reply) (compared : Except String Unit)
  | hedgeDue (view : View) (granted : Bool)
  | expired (compared : Except String Unit)
  | cancelled

namespace Call

variable (call : Call Reply)

def finish (ending : Ending Reply) : Call Reply :=
  let attempts := call.progress.records ++ call.progress.flights.laggingRecords
  { call with
    place := .finished (match ending with
      | .ok (reply, alternative) => .ok ⟨reply, alternative, set.endpoint alternative, attempts⟩
      | .error failure => .error (.new failure attempts)) }

def compared (reply : Reply) (alternative : Nat)
    (verdict : Except String Unit) : Call Reply :=
  match verdict with
  | .ok () => call.finish set (.ok (reply, alternative))
  | .error detail => call.finish set (.error (.comparison detail))

/-- Start the next sequential attempt at the best untried alternative, or pause before a new
round. -/
def attempt (order : List Nat) (answers : Progress.Answers) :
    Call Reply × List Event :=
  let progress := call.progress
  match order.find? (· ∉ progress.tried) with
  | none => ({ progress := { progress with tried := [] }, place := .pausing }, [])
  | some target =>
    let kind := if progress.sequential = 0 then AttemptKind.first else .retry
    let (flights, events) := progress.flights.start set target kind
    let progress :=
      { progress with
        sequential := progress.sequential + 1
        tried := target :: progress.tried
        flights }
    if kind = .first then
      let (progress, more) := progress.armCopies set policy order target answers
      ({ progress, place := .waiting }, events ++ more)
    else ({ progress, place := .waiting }, events)

def loop : Call Reply :=
  if call.progress.flights.primaries = 0 then
    match call.progress.copyWon with
    | some winner =>
      { call with progress := { call.progress with comparison := none } }.finish set (.ok winner)
    | none =>
      if call.progress.blocked.isSome = true ∧ call.progress.copyPending = true then
        { call with place := .waiting }
      else { call with place := .choosing }
  else { call with place := .waiting }

def nextAttempt (view : View) (answers : Progress.Answers) :
    Call Reply × List Event :=
  match call.progress.blocked with
  | some error =>
    ({ call with progress := { call.progress with blocked := none } }.finish set
      (.error (.rejected error)), [])
  | none =>
    if max policy.maxAttempts 1 ≤ call.progress.sequential then
      (call.finish set (.error (call.progress.last.getD .allAlternativesFailed)), [])
    else
      let (choice, dead) := choose set view call.progress.dead false
      let call := { call with progress := { call.progress with dead } }
      match choice with
      | .dead => (call.finish set (.error .staleAlternatives), [])
      | .ordered order => call.attempt set policy order answers
      | .unreachable => ({ call with place := .reaching }, [])

def reach (view : View) (answers : Progress.Answers) :
    Call Reply × List Event :=
  let (choice, dead) := choose set view call.progress.dead false
  let call := { call with progress := { call.progress with dead } }
  match choice with
  | .dead => (call.finish set (.error .staleAlternatives), [])
  | .ordered order => call.attempt set policy order answers
  | .unreachable => ({ call with place := .parked }, [])

/-- No alternative became reachable: probe once, alternatives tried earlier included. -/
def probe (view : View) (answers : Progress.Answers) :
    Call Reply × List Event :=
  if call.progress.probed then (call.finish set (.error .allAlternativesFailed), [])
  else
    let (choice, dead) := choose set view call.progress.dead true
    let call := { call with progress := { call.progress with dead, probed := true } }
    match choice with
    | .dead => (call.finish set (.error .staleAlternatives), [])
    | .unreachable => (call.finish set (.error .allAlternativesFailed), [])
    | .ordered order =>
      let tried := call.progress.tried.filter fun index => call.progress.flights.inFlight index
      { call with progress := { call.progress with tried } }.attempt set policy order answers

def landed (call : Call Reply) (flight : Flight) (attempt : Attempt) (outcome : Outcome Reply)
    (verdict : Except String Unit) : Call Reply × List Event :=
  let (progress, landing) := call.progress.land policy flight.id attempt outcome
  let call := { call with progress }
  let call :=
    match landing with
    | .goesOn => { call with place := .looping }
    | .failed failure => call.finish set (.error failure)
    | .accepted reply alternative =>
      match progress.comparison with
      | none => call.finish set (.ok (reply, alternative))
      | some _ =>
        if progress.copyPending = true then { call with place := .comparing reply alternative }
        else call.compared set reply alternative verdict
  (call, flight.lands outcome false)

def landedBeside (reply : Reply) (alternative : Nat) (flight : Flight)
    (attempt : Attempt) (outcome : Outcome Reply) (verdict : Except String Unit) :
    Call Reply × List Event :=
  let progress := call.progress.record flight.id attempt outcome
  let progress :=
    if attempt.kind = .comparison then progress.noteComparison outcome else progress
  let call := { call with progress }
  (if progress.copyPending = true then call else call.compared set reply alternative verdict,
   flight.lands outcome false)

def flying (id : Nat) : Option (Flight × Attempt) :=
  match call.progress.flights.pending.find? (·.id = id),
      call.progress.flights.active.find? (·.1 = id) with
  | some flight, some entry => some (flight, entry.2)
  | _, _ => none

def isOver : Bool :=
  match call.place with
  | .finished _ | .cancelled => true
  | _ => false

def step (input : Input Reply) : Option (Call Reply × List Event) :=
  match call.place, input with
  | .entering, .enter alive =>
    if set.size = 0 then some (call.finish set (.error .noAlternatives), [])
    else if alive = false then some (call.finish set (.error .shutdown), [])
    else some ({ call with place := .looping }, [])
  | .looping, .turn => some (call.loop set, [])
  | .choosing, .chosen view answers => some (call.nextAttempt set policy view answers)
  | .reaching, .chosen view answers => some (call.reach set policy view answers)
  | .parked, .changed => some ({ call with place := .reaching }, [])
  | .parked, .closed => some (call.finish set (.error .shutdown), [])
  | .parked, .gaveUp view answers => some (call.probe set policy view answers)
  | .pausing, .slept whole =>
    if whole then some ({ call with place := .choosing }, [])
    else some (call.finish set (.error .shutdown), [])
  | .waiting, .landed id outcome verdict =>
    (call.flying id).map fun found => call.landed set policy found.1 found.2 outcome verdict
  | .waiting, .hedgeDue view granted =>
    if call.progress.hedge = true then
      let (progress, events) :=
        { call.progress with hedge := false }.sendHedge set policy view granted
      some ({ progress, place := .looping }, events)
    else none
  | .comparing reply alternative, .landed id outcome verdict =>
    (call.flying id).map fun found =>
      call.landedBeside set reply alternative found.1 found.2 outcome verdict
  | .comparing reply alternative, .expired verdict =>
    some (call.compared set reply alternative verdict, [])
  | _, .cancelled => if call.isOver then none else some ({ call with place := .cancelled }, [])
  | _, _ => none

end Call

end Call

/-! ### Late losers -/

/-- One entry of the model's late-loser collection: of this call or of another. -/
inductive Entry where
  | ours (flight : Flight)
  | other
deriving DecidableEq

def Entry.drops : Entry → List Event
  | ours flight => flight.drops
  | other => []

def Entry.flight : Entry → Option Flight
  | ours flight => some flight
  | other => none

/-- The late losers waiting for a collector, and those a collector holds right now. -/
structure Lagging where
  entries : List Entry
  out : List Entry
deriving DecidableEq

namespace Lagging

/-- Hand over a late loser. Past `max` the oldest are dropped; the collectors hold `out`. -/
def push (lagging : Lagging) (max out : Nat) (entry : Entry) : Lagging × List Event :=
  let excess := lagging.entries.length + out + 1 - max
  ({ lagging with entries := lagging.entries.drop excess ++ [entry] },
   (lagging.entries.take excess).flatMap Entry.drops)

inductive LagEnd (Reply : Type) where
  | completed (outcome : Outcome Reply)
  | expired

inductive Move (Reply : Type) where
  | push (out : Nat)
  | take
  | ends (index : Nat) (how : LagEnd Reply)
  /-- A collector puts back the entries it took, still pending. -/
  | putBack (from_ count : Nat)
  | gone

def LagEnd.events {Reply : Type} (how : LagEnd Reply) : Entry → List Event
  | .other => []
  | .ours flight =>
    match how with
    | .completed outcome => flight.lands outcome true
    | .expired => flight.drops

def move {Reply : Type} (lagging : Lagging) (max : Nat) :
    Move Reply → Option (Lagging × List Event)
  | .push out => some (lagging.push max out .other)
  | .take => some ({ entries := [], out := lagging.out ++ lagging.entries }, [])
  | .ends index how =>
    match lagging.out[index]? with
    | none => none
    | some entry =>
      some ({ lagging with out := lagging.out.eraseIdx index }, how.events entry)
  | .putBack from_ count =>
    let kept := (lagging.out.drop from_).take count
    let entries := kept ++ lagging.entries
    let excess := entries.length - max
    some ({ entries := entries.drop excess
            out := lagging.out.take from_ ++ lagging.out.drop (from_ + count) },
      (entries.take excess).flatMap Entry.drops)
  | .gone =>
    some ({ entries := [], out := [] }, (lagging.out ++ lagging.entries).flatMap Entry.drops)

/-- Hand over every flight of a call that ended; `outs` is what each push reads. -/
def handOver (lagging : Lagging) (max : Nat) : List Flight → List Nat → Lagging × List Event
  | [], _ => (lagging, [])
  | flight :: flights, outs =>
    let (pushed, events) := lagging.push max (outs.headD 0) (.ours flight)
    let (lagging, more) := pushed.handOver max flights outs.tail
    (lagging, events ++ more)

end Lagging

/-! ### The call beside the model -/

structure System (Reply : Type) where
  call : Call Reply
  lagging : Lagging
  trace : List Event

inductive Action (Reply : Type) where
  | call (input : Input Reply) (outs : List Nat)
  | lagging (move : Lagging.Move Reply)

namespace System

variable {Reply : Type} (set : AlternativeSet) (policy : BalancePolicy) (maxLagging : Nat)

def new (lagging : Lagging) : System Reply := ⟨⟨.new, .entering⟩, lagging, []⟩

/-- A call that ends hands its flights over: it was dropped, or returned. -/
def act (system : System Reply) : Action Reply → Option (System Reply)
  | .call input outs =>
    match system.call.step set policy input with
    | none => none
    | some (call, events) =>
      if call.isOver then
        let (lagging, late) :=
          system.lagging.handOver maxLagging call.progress.flights.pending outs
        some ⟨call, lagging, system.trace ++ events ++ late⟩
      else some ⟨call, system.lagging, system.trace ++ events⟩
  | .lagging move =>
    match system.lagging.move maxLagging move with
    | none => none
    | some (lagging, events) => some { system with lagging, trace := system.trace ++ events }

def acts (system : System Reply) : List (Action Reply) → Option (System Reply)
  | [] => some system
  | action :: actions =>
    match system.act set policy maxLagging action with
    | none => none
    | some system => system.acts actions

end System

/-- The systems a call can reach, whatever late losers other calls left before it. -/
inductive Runs {Reply : Type} (set : AlternativeSet) (policy : BalancePolicy)
    (maxLagging : Nat) : System Reply → Prop where
  | new (others : Nat) : Runs set policy maxLagging (.new ⟨List.replicate others .other, []⟩)
  | act {system next : System Reply} (runs : Runs set policy maxLagging system)
      (action : Action Reply) (acted : system.act set policy maxLagging action = some next) :
      Runs set policy maxLagging next

end Moonpool.Rpc.Balance
