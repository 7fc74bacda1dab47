import Mathlib.Data.List.Nodup
import Moonpool.Rpc.Balance

/-!
Contract: an account of a balanced call's attempts that any run of the call keeps in order.

Owns:
- the `Ledger`: which attempts are in flight, which became late losers, which are recorded, and
  the trace of what was shown of them;
- `Ledger.Move`, all that can happen to the account, and `Ledger.Kept`, what every sequence of
  moves keeps;
- `shownOutcome`: what the trace says of an attempt, from the end its guard reported and the
  outcome its reservation was completed with.  The records are compared with it, so a record
  cannot say anything else than what was shown.

Does not own that the call makes only such moves (see `Moonpool.Rpc.BalancedRuns`).
-/

namespace Moonpool.Rpc.Balance

open Relation List

namespace Event

def grants : Event → Bool
  | asked granted => granted
  | _ => false

def starting : Event → Option (Nat × Attempt)
  | started id attempt => some (id, attempt)
  | _ => none

def startsSequential : Event → Bool
  | started _ attempt => attempt.kind.sequential
  | _ => false

def startsCopy : Event → Bool
  | started _ attempt => !attempt.kind.sequential
  | _ => false

def releases (id : Nat) : Event → Bool
  | released other _ => decide (other = id)
  | _ => false

def ends (id : Nat) : Event → Bool
  | ended other _ _ _ => decide (other = id)
  | _ => false

/-- How the attempt ended, if it did while the call still waited for it. -/
def endedEarly (id : Nat) : Event → Option AttemptEnd
  | ended other _ how false => if other = id then some how else none
  | _ => none

def completed (id : Nat) : Event → Option ModelOutcome
  | released other outcome => if other = id then outcome else none
  | _ => none

end Event

/-- What the trace shows of an attempt: only the outcome its reservation was completed with tells a
usable reply from a declined one. -/
def shownOutcome (trace : List Event) (id : Nat) : AttemptOutcome :=
  match trace.findSome? (Event.endedEarly id) with
  | none | some .dropped => .lagging
  | some (.failed error) => .failed error
  | some .replied =>
    if trace.findSome? (Event.completed id) = some .clean then .replied else .declined

/-- The record of an attempt that the call ended without. -/
def Flight.lags (flight : Flight) : AttemptRecord := ⟨flight.attempt, .lagging⟩

/-- The attempts started, each with what the trace shows of it. -/
def shownRecords (trace : List Event) : List AttemptRecord :=
  (trace.filterMap Event.starting).map fun started => ⟨started.2, shownOutcome trace started.1⟩

structure Ledger where
  live : List Flight
  late : List Flight
  records : List AttemptRecord
  nextId : Nat
  sequential : Nat
  copies : Nat
  trace : List Event

inductive Ledger.Move (Reply : Type) (policy : BalancePolicy) : Ledger → Ledger → Prop where
  | attempt (ledger : Ledger) (attempt : Attempt) (sequential : attempt.kind.sequential = true)
      (alone : ∀ flight ∈ ledger.live, flight.attempt.kind = .comparison)
      (room : ledger.sequential < max policy.maxAttempts 1) :
      Move Reply policy ledger
        { ledger with
          live := ledger.live ++ [⟨ledger.nextId, attempt⟩]
          nextId := ledger.nextId + 1
          sequential := ledger.sequential + 1
          trace := ledger.trace ++ [.started ledger.nextId attempt] }
  | copy (ledger : Ledger) (attempt : Attempt) (copies : DuplicatePolicy)
      (copied : attempt.kind.sequential = false)
      (permitted : policy.duplicates = .permitted copies)
      (room : ledger.copies < copies.maxCopies) :
      Move Reply policy ledger
        { ledger with
          live := ledger.live ++ [⟨ledger.nextId, attempt⟩]
          nextId := ledger.nextId + 1
          copies := ledger.copies + 1
          trace := ledger.trace ++ [.asked true, .started ledger.nextId attempt] }
  | refuse (ledger : Ledger) :
      Move Reply policy ledger { ledger with trace := ledger.trace ++ [.asked false] }
  | land (ledger : Ledger) (before after : List Flight) (flight : Flight)
      (outcome : Outcome Reply) (held : ledger.live = before ++ flight :: after) :
      Move Reply policy ledger
        { ledger with
          live := before ++ after
          records := ledger.records ++ [⟨flight.attempt, .of outcome⟩]
          trace := ledger.trace ++ flight.lands outcome false }
  /-- The call is over: what is in flight is recorded and becomes late. -/
  | collect (ledger : Ledger) :
      Move Reply policy ledger
        { ledger with
          live := []
          late := ledger.live ++ ledger.late
          records := ledger.records ++ ledger.live.map Flight.lags }
  | shuffle (ledger : Ledger) (late : List Flight) (same : ledger.late.Perm late) :
      Move Reply policy ledger { ledger with late }
  | landLate (ledger : Ledger) (late : List Flight) (flight : Flight) (outcome : Outcome Reply)
      (held : ledger.late = flight :: late) :
      Move Reply policy ledger
        { ledger with late, trace := ledger.trace ++ flight.lands outcome true }
  | drop (ledger : Ledger) (late : List Flight) (flight : Flight)
      (held : ledger.late = flight :: late) :
      Move Reply policy ledger { ledger with late, trace := ledger.trace ++ flight.drops }

abbrev Ledger.Moves (Reply : Type) (policy : BalancePolicy) : Ledger → Ledger → Prop :=
  ReflTransGen (Ledger.Move Reply policy)

/-- Up to every moment the budget granted a copy for each one started. -/
def Backed (trace : List Event) : Prop :=
  ∀ n, (trace.take n).countP Event.startsCopy ≤ (trace.take n).countP Event.grants

theorem Backed.append {trace more : List Event} (backed : Backed trace) (also : Backed more) :
    Backed (trace ++ more) := by
  intro n
  rw [take_append, countP_append, countP_append]
  exact Nat.add_le_add (backed n) (also (n - trace.length))

theorem backed_of_none {trace : List Event}
    (none : ∀ event ∈ trace, Event.startsCopy event = false) : Backed trace := by
  intro n
  have empty : (trace.take n).countP Event.startsCopy = 0 := by
    rw [countP_eq_zero]
    intro event member
    simp [none event (mem_of_mem_take member)]
  rw [empty]
  exact Nat.zero_le _

theorem backed_granted (id : Nat) (attempt : Attempt) :
    Backed [.asked true, .started id attempt] := by
  intro n
  rcases n with _ | _ | n
  · simp
  · simp [Event.startsCopy]
  · by_cases sequential : attempt.kind.sequential = true <;>
      simp [countP_cons, Event.startsCopy, Event.grants, sequential]

def BalancePolicy.allowedCopies (policy : BalancePolicy) : Nat :=
  match policy.duplicates with
  | .forbidden => 0
  | .permitted copies => copies.maxCopies

/-- The books agree with the trace: of every attempt started one end and one release are shown, or it
is in flight; the copies are the grants, and what is listed is what is shown. -/
structure Ledger.Kept (policy : BalancePolicy) (ledger : Ledger) : Prop where
  numbered : (ledger.trace.filterMap Event.starting).map Prod.fst = List.range ledger.nextId
  ended : ∀ id, (ledger.live ++ ledger.late).countP (·.id = id) +
      ledger.trace.countP (Event.ends id) = if id < ledger.nextId then 1 else 0
  released : ∀ id, (ledger.live ++ ledger.late).countP (·.id = id) +
      ledger.trace.countP (Event.releases id) = if id < ledger.nextId then 1 else 0
  begun : ∀ flight ∈ ledger.live ++ ledger.late,
      (flight.id, flight.attempt) ∈ ledger.trace.filterMap Event.starting
  listed : (ledger.records ++ ledger.live.map Flight.lags).Perm (shownRecords ledger.trace)
  granted : Backed ledger.trace
  spent : ledger.trace.countP Event.grants = ledger.copies
  copies : ledger.trace.countP Event.startsCopy = ledger.copies
  permitted : ledger.copies ≤ policy.allowedCopies
  sequential : ledger.trace.countP Event.startsSequential = ledger.sequential
  bounded : ledger.sequential ≤ max policy.maxAttempts 1
  /-- Without the permission there is one attempt at a time. -/
  forbidden : policy.duplicates = .forbidden →
      ledger.live.length ≤ 1 ∧ ∀ flight ∈ ledger.live, flight.attempt.kind ≠ .comparison

/-! ### What the trace shows -/

section Shown

variable {trace events : List Event} {id : Nat}

theorem endedEarly_none (unended : trace.countP (Event.ends id) = 0) :
    trace.findSome? (Event.endedEarly id) = none := by
  rw [findSome?_eq_none_iff]
  intro event member
  have other := countP_eq_zero.mp unended event member
  cases event with
  | ended ended _ _ late => cases late <;> simp_all [Event.ends, Event.endedEarly]
  | _ => rfl

/-- An attempt that has not ended shows as lagging. -/
theorem shown_unended (unended : trace.countP (Event.ends id) = 0) :
    shownOutcome trace id = .lagging := by
  rw [shownOutcome, endedEarly_none unended]

theorem completed_none (unreleased : trace.countP (Event.releases id) = 0) :
    trace.findSome? (Event.completed id) = none := by
  rw [findSome?_eq_none_iff]
  intro event member
  have other := countP_eq_zero.mp unreleased event member
  cases event with
  | released => simp_all [Event.releases, Event.completed]
  | _ => rfl

theorem shown_append (early : events.findSome? (Event.endedEarly id) = none)
    (apart : trace.findSome? (Event.endedEarly id) = none ∨
      events.findSome? (Event.completed id) = none) :
    shownOutcome (trace ++ events) id = shownOutcome trace id := by
  unfold shownOutcome
  rw [findSome?_append, findSome?_append, early, Option.or_none]
  rcases apart with none | none
  · simp only [none]
  · rw [none, Option.or_none]

/-- The record of an attempt that lands says what its end shows. -/
theorem shown_lands {Reply : Type} {flight : Flight} (outcome : Outcome Reply)
    (unended : trace.countP (Event.ends flight.id) = 0)
    (unreleased : trace.countP (Event.releases flight.id) = 0) :
    shownOutcome (trace ++ flight.lands outcome false) flight.id = .of outcome := by
  unfold shownOutcome
  rw [findSome?_append, findSome?_append, endedEarly_none unended, completed_none unreleased]
  rcases outcome with error | ⟨reply, verdict⟩
  · simp [Flight.lands, findSome?_cons, Event.endedEarly, AttemptEnd.of, AttemptOutcome.of]
  · cases verdict <;>
      simp [Flight.lands, findSome?_cons, Event.endedEarly, Event.completed, AttemptEnd.of,
        AttemptOutcome.of, ModelOutcome.of]

/-- One more attempt is shown to have ended, and the others as before. -/
theorem perm_landed {starts : List (Nat × Attempt)} {flight : Flight} {rest : List AttemptRecord}
    {old new : Nat → AttemptOutcome} (distinct : (starts.map Prod.fst).Nodup)
    (begun : (flight.id, flight.attempt) ∈ starts) (was : old flight.id = .lagging)
    (same : ∀ id, id ≠ flight.id → new id = old id)
    (listed : (⟨flight.attempt, .lagging⟩ :: rest).Perm
      (starts.map fun started => ⟨started.2, old started.1⟩)) :
    (⟨flight.attempt, new flight.id⟩ :: rest).Perm
      (starts.map fun started => ⟨started.2, new started.1⟩) := by
  obtain ⟨before, after, rfl⟩ := append_of_mem begun
  rw [map_append, map_cons, nodup_middle, nodup_cons, ← map_append] at distinct
  have others : ∀ started ∈ before ++ after, new started.1 = old started.1 := by
    intro started member
    refine same _ fun there => distinct.1 ?_
    have inside := mem_map_of_mem (f := Prod.fst) member
    rwa [there] at inside
  rw [map_append, map_cons, was] at listed
  have left := (listed.trans perm_middle).cons_inv
  rw [map_append, map_cons]
  refine List.Perm.trans (.cons _ (left.trans ?_)) perm_middle.symm
  rw [← map_append, ← map_append]
  exact .of_eq (map_congr_left fun started member => by rw [others started member])

end Shown

/-! ### What every move keeps -/

section Kept

variable {Reply : Type} {policy : BalancePolicy} {ledger next : Ledger}

/-- What an ending shows: a release and a report of one attempt, and no start. -/
structure EndsOnly (flight : Flight) (events : List Event) : Prop where
  ended : ∀ id, events.countP (Event.ends id) = [flight].countP (·.id = id)
  released : ∀ id, events.countP (Event.releases id) = [flight].countP (·.id = id)
  quiet : ∀ event ∈ events, event.starting = none
  ungranted : events.countP Event.grants = 0

theorem endsOnly_lands (flight : Flight) (outcome : Outcome Reply) (late : Bool) :
    EndsOnly flight (flight.lands outcome late) where
  ended id := by simp [Flight.lands, countP_cons, Event.ends]
  released id := by simp [Flight.lands, countP_cons, Event.releases]
  quiet event member := by
    simp only [Flight.lands, mem_cons, not_mem_nil, or_false] at member
    rcases member with rfl | rfl <;> rfl
  ungranted := rfl

theorem endsOnly_drops (flight : Flight) : EndsOnly flight flight.drops where
  ended id := by simp [Flight.drops, countP_cons, Event.ends]
  released id := by simp [Flight.drops, countP_cons, Event.releases]
  quiet event member := by
    simp only [Flight.drops, mem_cons, not_mem_nil, or_false] at member
    rcases member with rfl | rfl <;> rfl
  ungranted := rfl

variable {events : List Event}

theorem starting_quiet (quiet : ∀ event ∈ events, event.starting = none) :
    events.filterMap Event.starting = [] :=
  filterMap_eq_nil_iff.mpr quiet

theorem startsCopy_quiet {event : Event} (quiet : event.starting = none) :
    event.startsCopy = false := by
  cases event <;> simp_all [Event.starting, Event.startsCopy]

theorem startsSequential_quiet {event : Event} (quiet : event.starting = none) :
    event.startsSequential = false := by
  cases event <;> simp_all [Event.starting, Event.startsSequential]

/-- An attempt that is still in flight, or late, has shown no end yet. -/
theorem Ledger.Kept.unended {flight : Flight} (kept : ledger.Kept policy)
    (member : flight ∈ ledger.live ++ ledger.late) :
    ledger.trace.countP (Event.ends flight.id) = 0 ∧
      ledger.trace.countP (Event.releases flight.id) = 0 := by
  have there : 0 < (ledger.live ++ ledger.late).countP (·.id = flight.id) :=
    countP_pos_iff.mpr ⟨flight, member, by simp⟩
  have ended := kept.ended flight.id
  have released := kept.released flight.id
  split at ended <;> split at released <;> omega

theorem EndsOnly.shown_other {flight : Flight} (only : EndsOnly flight events) {id : Nat}
    (other : id ≠ flight.id) :
    shownOutcome (ledger.trace ++ events) id = shownOutcome ledger.trace id :=
  shown_append (endedEarly_none (by simp [only.ended, other.symm]))
    (.inr (completed_none (by simp [only.released, other.symm])))

/-- A late end changes nothing that was shown. -/
theorem Ledger.Kept.shown_late {flight : Flight} (kept : ledger.Kept policy)
    (member : flight ∈ ledger.live ++ ledger.late) (only : EndsOnly flight events)
    (late : ∀ event ∈ events, ∀ id, event.endedEarly id = none) (id : Nat) :
    shownOutcome (ledger.trace ++ events) id = shownOutcome ledger.trace id := by
  by_cases same : id = flight.id
  · subst same
    exact shown_append (findSome?_eq_none_iff.mpr fun event there => late event there _)
      (.inl (endedEarly_none (kept.unended member).1))
  · exact only.shown_other same

theorem Ledger.Kept.ends {flight : Flight} {live late : List Flight}
    {records : List AttemptRecord} (kept : ledger.Kept policy) (only : EndsOnly flight events)
    (held : (ledger.live ++ ledger.late).Perm (flight :: (live ++ late)))
    (listed : (records ++ live.map Flight.lags).Perm (shownRecords (ledger.trace ++ events)))
    (fewer : live.Sublist ledger.live) :
    Ledger.Kept policy
      { ledger with live, late, records, trace := ledger.trace ++ events } where
  numbered := by
    rw [filterMap_append, starting_quiet only.quiet, append_nil]
    exact kept.numbered
  ended id := by
    have before := kept.ended id
    rw [held.countP_eq] at before
    simp only [countP_append, only.ended id, countP_cons, countP_nil] at before ⊢
    omega
  released id := by
    have before := kept.released id
    rw [held.countP_eq] at before
    simp only [countP_append, only.released id, countP_cons, countP_nil] at before ⊢
    omega
  begun other member := by
    rw [filterMap_append, starting_quiet only.quiet, append_nil]
    exact kept.begun other (held.symm.subset (mem_cons_of_mem _ member))
  listed := listed
  granted := kept.granted.append
    (backed_of_none fun event member => startsCopy_quiet (only.quiet event member))
  spent := by rw [countP_append, only.ungranted, add_zero, kept.spent]
  copies := by
    have none : events.countP Event.startsCopy = 0 := countP_eq_zero.mpr
      fun event member => by simp [startsCopy_quiet (only.quiet event member)]
    rw [countP_append, none, add_zero]
    exact kept.copies
  permitted := kept.permitted
  sequential := by
    have none : events.countP Event.startsSequential = 0 := countP_eq_zero.mpr
      fun event member => by simp [startsSequential_quiet (only.quiet event member)]
    rw [countP_append, none, add_zero]
    exact kept.sequential
  bounded := kept.bounded
  forbidden denied := by
    obtain ⟨few, primary⟩ := kept.forbidden denied
    exact ⟨le_trans fewer.length_le few, fun flight member => primary flight (fewer.subset member)⟩

/-- A late loser ends: nothing changes in the records. -/
theorem Ledger.Kept.endsLate {flight : Flight} {late : List Flight} (kept : ledger.Kept policy)
    (held : ledger.late = flight :: late) (only : EndsOnly flight events)
    (shown : ∀ event ∈ events, ∀ id, event.endedEarly id = none) :
    Ledger.Kept policy { ledger with late, trace := ledger.trace ++ events } := by
  have member : flight ∈ ledger.live ++ ledger.late := by simp [held]
  refine kept.ends only ?_ ?_ (List.Sublist.refl _)
  · rw [held]
    exact perm_middle
  · simp only [shownRecords, kept.shown_late member only shown, filterMap_append,
      starting_quiet only.quiet, append_nil]
    exact kept.listed

theorem counted_succ {id next count : Nat} (counted : count = if id < next then 1 else 0) :
    count + (if next = id then 1 else 0) = if id < next + 1 then 1 else 0 := by
  split at counted <;> split <;> split <;> omega

theorem Ledger.Kept.starts {attempt : Attempt}
    (kept : ledger.Kept policy) (sequential copies : Nat)
    (started : events.filterMap Event.starting = [(ledger.nextId, attempt)])
    (unended : ∀ id, events.countP (Event.ends id) = 0)
    (unreleased : ∀ id, events.countP (Event.releases id) = 0)
    (backed : Backed events)
    (granted : copies = ledger.copies + events.countP Event.grants)
    (copied : copies = ledger.copies + events.countP Event.startsCopy)
    (permitted : copies ≤ policy.allowedCopies)
    (counted : sequential = ledger.sequential + events.countP Event.startsSequential)
    (bounded : sequential ≤ max policy.maxAttempts 1)
    (denied : policy.duplicates = .forbidden →
      ledger.live = [] ∧ attempt.kind ≠ .comparison) :
    Ledger.Kept policy
      { ledger with
        live := ledger.live ++ [⟨ledger.nextId, attempt⟩]
        nextId := ledger.nextId + 1
        sequential, copies
        trace := ledger.trace ++ events } where
  numbered := by
    rw [filterMap_append, started, map_append, kept.numbered, range_succ]
    rfl
  ended id := by
    rw [← counted_succ (kept.ended id)]
    simp only [countP_append, unended id, countP_cons, countP_nil, decide_eq_true_eq]
    omega
  released id := by
    rw [← counted_succ (kept.released id)]
    simp only [countP_append, unreleased id, countP_cons, countP_nil, decide_eq_true_eq]
    omega
  begun flight member := by
    rw [filterMap_append, started, mem_append]
    have cases_ : flight ∈ ledger.live ++ ledger.late ∨ flight = ⟨ledger.nextId, attempt⟩ := by
      simp only [append_assoc, mem_append, mem_cons, not_mem_nil, or_false] at member ⊢
      tauto
    rcases cases_ with old | rfl
    · exact .inl (kept.begun flight old)
    · exact .inr (mem_singleton.mpr rfl)
  listed := by
    have shown (id : Nat) :
        shownOutcome (ledger.trace ++ events) id = shownOutcome ledger.trace id :=
      shown_append (endedEarly_none (unended id)) (.inr (completed_none (unreleased id)))
    -- The next number has shown nothing yet.
    have fresh : shownOutcome ledger.trace ledger.nextId = .lagging := by
      have none := kept.ended ledger.nextId
      rw [if_neg (lt_irrefl _)] at none
      exact shown_unended (by omega)
    simp only [shownRecords, shown, filterMap_append, started, map_append, map_singleton, fresh]
    rw [← append_assoc]
    exact kept.listed.append (List.Perm.refl _)
  granted := kept.granted.append backed
  spent := by rw [countP_append, kept.spent, granted]
  copies := by rw [countP_append, kept.copies, copied]
  permitted := permitted
  sequential := by rw [countP_append, kept.sequential, counted]
  bounded := bounded
  forbidden forbids := by
    obtain ⟨none, primary⟩ := denied forbids
    simp only [none, nil_append, length_singleton, mem_singleton]
    exact ⟨le_refl 1, fun flight same => same ▸ primary⟩

theorem Ledger.Kept.land {before after : List Flight} {flight : Flight} (kept : ledger.Kept policy)
    (outcome : Outcome Reply) (held : ledger.live = before ++ flight :: after) :
    Ledger.Kept policy
      { ledger with
        live := before ++ after
        records := ledger.records ++ [⟨flight.attempt, .of outcome⟩]
        trace := ledger.trace ++ flight.lands outcome false } := by
  have only := endsOnly_lands flight outcome false
  have member : flight ∈ ledger.live ++ ledger.late := by simp [held]
  obtain ⟨unended, unreleased⟩ := kept.unended member
  refine kept.ends only ?_ ?_ ?_
  · rw [held, append_assoc, append_assoc, cons_append]
    exact perm_middle
  · have distinct : ((ledger.trace.filterMap Event.starting).map Prod.fst).Nodup := by
      rw [kept.numbered]
      exact nodup_range
    have listed := kept.listed
    rw [held, map_append, map_cons, ← append_assoc] at listed
    have moved := perm_landed distinct (kept.begun flight member) (shown_unended unended)
      (fun id other => only.shown_other other) (perm_middle.symm.trans listed)
    rw [shown_lands outcome unended unreleased] at moved
    rw [shownRecords, filterMap_append, starting_quiet only.quiet, append_nil]
    refine List.Perm.trans ?_ moved
    rw [map_append, append_assoc, append_assoc, singleton_append]
    exact perm_middle
  · rw [held]
    exact List.Sublist.append (List.Sublist.refl _) (sublist_cons_self _ _)

theorem Ledger.Kept.refuse (kept : ledger.Kept policy) :
    Ledger.Kept policy { ledger with trace := ledger.trace ++ [.asked false] } where
  numbered := by simpa [filterMap_cons, Event.starting] using kept.numbered
  ended id := by simpa [Event.ends] using kept.ended id
  released id := by simpa [Event.releases] using kept.released id
  begun flight member := by simpa [Event.starting] using kept.begun flight member
  listed := by
    have shown (id : Nat) :
        shownOutcome (ledger.trace ++ [.asked false]) id = shownOutcome ledger.trace id :=
      shown_append rfl (.inr rfl)
    simpa [shownRecords, filterMap_cons, Event.starting, shown] using kept.listed
  granted := kept.granted.append (backed_of_none (by simp [Event.startsCopy]))
  spent := by simpa [Event.grants] using kept.spent
  copies := by simpa [Event.startsCopy] using kept.copies
  permitted := kept.permitted
  sequential := by simpa [Event.startsSequential] using kept.sequential
  bounded := kept.bounded
  forbidden := kept.forbidden

theorem Ledger.Kept.move (kept : ledger.Kept policy) (moved : Move Reply policy ledger next) :
    next.Kept policy := by
  cases moved with
  | attempt attempt sequential alone room =>
    have copyless : [Event.started ledger.nextId attempt].countP Event.startsCopy = 0 := by
      simp [Event.startsCopy, sequential]
    refine kept.starts (ledger.sequential + 1) ledger.copies rfl
      (fun _ => rfl) (fun _ => rfl) ?_ rfl ?_ kept.permitted ?_ room ?_
    · exact backed_of_none (by simp [Event.startsCopy, sequential])
    · rw [copyless, add_zero]
    · simp [Event.startsSequential, sequential]
    · intro forbids
      obtain ⟨-, primary⟩ := kept.forbidden forbids
      refine ⟨eq_nil_iff_forall_not_mem.mpr fun flight member =>
        primary flight member (alone flight member), fun same => ?_⟩
      simp [same, AttemptKind.sequential] at sequential
  | copy attempt copies copied permitted room =>
    refine kept.starts ledger.sequential (ledger.copies + 1) rfl
      (fun _ => rfl) (fun _ => rfl) (backed_granted _ _) rfl ?_ ?_ ?_ kept.bounded ?_
    · simp [Event.startsCopy, copied]
    · simp only [BalancePolicy.allowedCopies, permitted]
      exact room
    · simp [Event.startsSequential, copied]
    · intro forbids
      rw [permitted] at forbids
      cases forbids
  | refuse => exact kept.refuse
  | land before after flight outcome held => exact kept.land outcome held
  | collect =>
    exact
      { kept with
        ended := fun id => by simpa using kept.ended id
        released := fun id => by simpa using kept.released id
        begun := fun flight member => kept.begun flight (by simpa using member)
        listed := by simpa using kept.listed
        forbidden := fun _ => ⟨Nat.zero_le 1, by simp⟩ }
  | shuffle late same =>
    have alike : (ledger.live ++ ledger.late).Perm (ledger.live ++ late) :=
      List.Perm.append_left _ same
    exact
      { kept with
        ended := fun id => by rw [← alike.countP_eq]; exact kept.ended id
        released := fun id => by rw [← alike.countP_eq]; exact kept.released id
        begun := fun flight member => kept.begun flight (alike.symm.subset member) }
  | landLate late flight outcome held =>
    refine kept.endsLate held (endsOnly_lands flight outcome true) ?_
    simp [Flight.lands, Event.endedEarly]
  | drop late flight held =>
    refine kept.endsLate held (endsOnly_drops flight) ?_
    simp [Flight.drops, Event.endedEarly]

theorem Ledger.Kept.moves (kept : ledger.Kept policy) (moved : Moves Reply policy ledger next) :
    next.Kept policy := by
  induction moved with
  | refl => exact kept
  | tail _ last keptBefore => exact keptBefore.move last

theorem Ledger.kept_new (policy : BalancePolicy) : Ledger.Kept policy ⟨[], [], [], 0, 0, 0, []⟩ where
  numbered := rfl
  ended _ := rfl
  released _ := rfl
  begun := nofun
  listed := List.Perm.refl _
  granted := backed_of_none (by simp)
  spent := rfl
  copies := rfl
  permitted := Nat.zero_le _
  sequential := rfl
  bounded := Nat.zero_le _
  forbidden _ := ⟨Nat.zero_le 1, by simp⟩

end Kept

end Moonpool.Rpc.Balance
