import Moonpool.Rpc.Interleaving
import Moonpool.Rpc.Life
import Moonpool.Rpc.Queue

/-!
Owns where the frames of a call are, and how the state of a runtime shows where each call is
in its life.

A frame is in a connection's queue or in the driver's hand.  A call has at most one; while the
call is pending it is on the connection that carries the call, and it has not left.  What a
section of the runtime does is then, for every call, a stretch of that call's life.
-/

namespace Moonpool.Rpc

def Outcome.unadmitted : Outcome → Bool
  | .failed error => decide (error.execution = .notAdmitted)
  | _ => false

def Cause.rejected : Cause → Bool
  | .reply _ (.err _) | .streamEnd _ (some _) => true
  | _ => false

def Event.moment (call : CallId) : Event → Option Moment
  | .started other delivery _ =>
    if other = call then some (.started (decide (delivery = .reliable))) else none
  | .queued other _ => if other = some call then some .queued else none
  | .written other _ _ => if other = some call then some .written else none
  | .finished other outcome cause =>
    if other = call then some (.ended outcome.unadmitted cause.rejected) else none
  | .abandoned other transmitted =>
    if other = call then some (.ended (!transmitted) false) else none

def Event.Ends (event : Event) (call : CallId) (unadmitted rejected : Bool) : Prop :=
  ∀ other, event.moment other = if call = other then some (.ended unadmitted rejected) else none

def moments (call : CallId) (events : List Event) : List Moment :=
  events.filterMap (Event.moment call)

@[simp] theorem moments_append (call : CallId) (before after : List Event) :
    moments call (before ++ after) = moments call before ++ moments call after :=
  List.filterMap_append

structure PendingCall.Kept (pending : PendingCall) : Prop where
  earlier : pending.earlierTransmitted = true → pending.retained.isSome = true
  retained : pending.retained.isSome = true → pending.completion = .reply

namespace Runtime

variable (runtime : Runtime)

def queuedOn (call : CallId) (id : ConnectionId) : Nat :=
  match runtime.sessions id with
  | none => 0
  | some session => session.connection.requests.countP fun request => request.2 = some call

/-- How many frames of `call`, taken from the queue of `id`, the driver holds. -/
def inHand (call : CallId) (id : ConnectionId) : Nat :=
  match runtime.driver with
  | .writing holder _ held => if holder = id ∧ held = some call then 1 else 0
  | _ => 0

def frames (call : CallId) (id : ConnectionId) : Nat :=
  runtime.queuedOn call id + runtime.inHand call id

def At (call : CallId) (place : Option ConnectionId) : Prop :=
  ∀ id, runtime.frames call id = if place = some id then 1 else 0

inductive Shows (runtime : Runtime) (call : CallId) : CallState → Prop where
  | unborn (free : runtime.nextCallId ≤ call) (absent : runtime.pending call = none)
      (located : runtime.At call none) : Shows runtime call .unborn
  | pending {pending : PendingCall} {place : Option ConnectionId}
      (used : call < runtime.nextCallId) (found : runtime.pending call = some pending)
      (kept : pending.Kept) (located : runtime.At call place)
      (rides : ∀ id, place = some id →
        pending.origin = .connection id ∧ pending.transmitted = false) :
      Shows runtime call (.pending pending.transmitted pending.earlierTransmitted
        pending.retained.isSome place.isSome)
  | past {place : Option ConnectionId} (used : call < runtime.nextCallId)
      (absent : runtime.pending call = none) (located : runtime.At call place) :
      Shows runtime call (.past place.isSome)

/-- What happened is, for every call, a stretch of its life. -/
def Simulates (events : List Event) (next : Runtime) : Prop :=
  ∀ (call : CallId) (state : CallState), runtime.Shows call state →
    ∃ after, next.Shows call after ∧ Lives state (moments call events) after

variable {runtime next : Runtime} {call : CallId}

theorem Simulates.refl (runtime : Runtime) : Simulates runtime [] runtime :=
  fun _ _ shows => ⟨_, shows, .rest _⟩

theorem Simulates.trans {last : Runtime} {before after : List Event}
    (first : Simulates runtime before next) (second : Simulates next after last) :
    Simulates runtime (before ++ after) last := by
  intro call state shows
  obtain ⟨middle, shown, lived⟩ := first call state shows
  obtain ⟨final, shown, livedOn⟩ := second call middle shown
  rw [moments_append]
  exact ⟨final, shown, lived.trans livedOn⟩

section

variable {place : Option ConnectionId}

theorem at_of_le (bound : ∀ id, next.frames call id ≤ if place = some id then 1 else 0) :
    next.At call place ∨ next.At call none := by
  by_cases present : ∃ holder, place = some holder ∧ next.frames call holder ≠ 0
  · obtain ⟨holder, rfl, alive⟩ := present
    refine .inl fun id => ?_
    have most := bound id
    by_cases same : some holder = some id
    · cases same
      rw [if_pos rfl] at most ⊢
      omega
    · rw [if_neg same] at most ⊢
      exact Nat.le_zero.mp most
  · refine .inr fun id => ?_
    have most := bound id
    by_cases here : place = some id
    · by_contra alive
      exact present ⟨id, here, alive⟩
    · rw [if_neg here] at most
      exact Nat.le_zero.mp most

theorem At.fewer (located : runtime.At call place)
    (fewer : ∀ id, next.frames call id ≤ runtime.frames call id) :
    next.At call place ∨ next.At call none :=
  at_of_le fun id => located id ▸ fewer id

theorem At.eq_some {id : ConnectionId}
    (located : runtime.At call place) (alive : 0 < runtime.frames call id) : place = some id := by
  by_contra elsewhere
  rw [located id, if_neg elsewhere] at alive
  exact lt_irrefl 0 alive

end

variable {state : CallState}

theorem Shows.fewer (shows : runtime.Shows call state)
    (ids : next.nextCallId = runtime.nextCallId)
    (same : next.pending call = runtime.pending call)
    (fewer : ∀ id, next.frames call id ≤ runtime.frames call id) :
    ∃ after, next.Shows call after ∧ Lives state [] after := by
  cases shows with
  | unborn free absent located =>
    have gone : next.At call none := (located.fewer fewer).elim id id
    exact ⟨_, .unborn (ids ▸ free) (same ▸ absent) gone, .rest _⟩
  | @pending pending place used found kept located rides =>
    rcases located.fewer fewer with stays | gone
    · exact ⟨_, .pending (ids ▸ used) (same ▸ found) kept stays rides, .rest _⟩
    refine ⟨_, .pending (ids ▸ used) (same ▸ found) kept gone nofun, ?_⟩
    cases place with
    | none => exact .rest _
    | some holder => exact Life.lose.lives
  | @past place used absent located =>
    rcases located.fewer fewer with stays | gone
    · exact ⟨_, .past (ids ▸ used) (same ▸ absent) stays, .rest _⟩
    refine ⟨_, .past (ids ▸ used) (same ▸ absent) gone, ?_⟩
    cases place with
    | none => exact .rest _
    | some holder => exact Life.loseOver.lives

theorem Shows.inv {pending : PendingCall}
    (shows : runtime.Shows call state) (found : runtime.pending call = some pending) :
    ∃ place : Option ConnectionId,
      state = .pending pending.transmitted pending.earlierTransmitted pending.retained.isSome
        place.isSome ∧
      call < runtime.nextCallId ∧ pending.Kept ∧ runtime.At call place ∧
      ∀ id, place = some id → pending.origin = .connection id ∧ pending.transmitted = false := by
  cases shows with
  | unborn free absent located | past used absent located =>
    rw [absent] at found
    cases found
  | @pending shown place used shownAt kept located rides =>
    obtain rfl : shown = pending := Option.some.inj (shownAt.symm.trans found)
    exact ⟨place, rfl, used, kept, located, rides⟩

theorem At.none_of_unheld {place : Option ConnectionId} (located : runtime.At call place)
    (unheld : ∀ id, runtime.frames call id = 0) : place = none := by
  cases place with
  | none => rfl
  | some holder =>
    have one := located holder
    rw [unheld holder, if_pos rfl] at one
    cases one

theorem Shows.ends {pending : PendingCall} {unadmitted rejected : Bool}
    (shows : runtime.Shows call state) (found : runtime.pending call = some pending)
    (ids : next.nextCallId = runtime.nextCallId) (gone : next.pending call = none)
    (fewer : ∀ id, next.frames call id ≤ runtime.frames call id)
    (unsent : unadmitted = true → rejected = false → pending.transmitted = false ∧
      pending.earlierTransmitted = false ∧ ∀ id, next.frames call id = 0)
    (first : unadmitted = true → rejected = true → pending.earlierTransmitted = false) :
    ∃ after, next.Shows call after ∧ Lives state [.ended unadmitted rejected] after := by
  obtain ⟨place, rfl, used, kept, located, rides⟩ := shows.inv found
  rcases located.fewer fewer with stays | dead
  · refine ⟨_, .past (ids ▸ used) gone stays, Life.lives (.finish ?_ first)⟩
    intro claimed unrejected
    obtain ⟨untransmitted, unearlier, none⟩ := unsent claimed unrejected
    exact ⟨untransmitted, unearlier, by rw [stays.none_of_unheld none]; rfl⟩
  · have finished : Life (.pending pending.transmitted pending.earlierTransmitted
        pending.retained.isSome false) [.ended unadmitted rejected] (.past false) :=
      .finish (fun claimed unrejected => ⟨(unsent claimed unrejected).1,
        (unsent claimed unrejected).2.1, rfl⟩) first
    refine ⟨_, .past (ids ▸ used) gone dead, ?_⟩
    cases place with
    | none => exact finished.lives
    | some holder => exact Lives.trans Life.lose.lives finished.lives

theorem simulates_of_fewer (ids : next.nextCallId = runtime.nextCallId)
    (same : next.pending = runtime.pending)
    (fewer : ∀ call id, next.frames call id ≤ runtime.frames call id) :
    Simulates runtime [] next :=
  fun call _ shows => shows.fewer ids (congrFun same call) (fewer call)

theorem simulates_of_touch {events : List Event} (call : CallId)
    (ids : next.nextCallId = runtime.nextCallId)
    (same : ∀ other, other ≠ call → next.pending other = runtime.pending other)
    (fewer : ∀ other, other ≠ call → ∀ id, next.frames other id ≤ runtime.frames other id)
    (quiet : ∀ other, other ≠ call → moments other events = [])
    (touched : ∀ state, runtime.Shows call state →
      ∃ after, next.Shows call after ∧ Lives state (moments call events) after) :
    Simulates runtime events next := by
  intro other state shows
  by_cases equal : other = call
  · rw [equal] at shows ⊢
    exact touched state shows
  · rw [quiet other equal]
    exact shows.fewer ids (same other equal) (fewer other equal)

end Runtime

end Moonpool.Rpc
