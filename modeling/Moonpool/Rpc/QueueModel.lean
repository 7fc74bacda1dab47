import Mathlib.Data.List.MinMax
import Mathlib.Data.List.Perm.Basic
import Moonpool.Lib.SortedMap

/-!
Owns the queue model's account of the attempts in flight at each endpoint (`balance/model.rs`): the
bounded table that forgets an idle endpoint for a new one, and the reservations that outlive the
calls.  What else is measured of an endpoint is left out.
-/

namespace Moonpool.Rpc.Balance

open Lib List SortedMap

structure QueueData where
  inFlight : Nat
  lastUsed : Nat

structure Reservation (Endpoint : Type) where
  endpoint : Endpoint
  released : Bool

variable {Endpoint : Type} [LinearOrder Endpoint]

/-- What is in flight at an endpoint: nothing, if it is not tracked. -/
def inFlight (data : SortedMap Endpoint QueueData) (endpoint : Endpoint) : Nat :=
  (data.find endpoint).elim 0 (·.inFlight)

/-- `live` is what callers hold; no function reads it. -/
structure QueueModel (Endpoint : Type) [LinearOrder Endpoint] where
  data : SortedMap Endpoint QueueData
  tick : Nat
  reservations : Nat
  releases : Nat
  live : List (Reservation Endpoint)

/-- A reservation is dropped, once it is `released` or with no release. -/
inductive QueueOp (Endpoint : Type) where
  | reserve (endpoint : Endpoint) | drop (index : Nat) (released : Bool)

namespace QueueModel

variable (maxTracked : Nat) (model : QueueModel Endpoint)

/-- A full table forgets its least recently used idle endpoint for a new one. -/
def makeRoom (endpoint : Endpoint) : SortedMap Endpoint QueueData :=
  if !model.data.contains endpoint && maxTracked ≤ model.data.entries.length then
    match (model.data.entries.filter (·.2.inFlight = 0)).argmin (·.2.lastUsed) with
    | some idle => model.data.remove idle.1
    | none => model.data
  else model.data

/-- The caller changes the count of the entry it is handed. -/
def entry (endpoint : Endpoint) (change : Nat → Nat) : QueueModel Endpoint :=
  let tick := model.tick + 1
  let data := model.makeRoom maxTracked endpoint
  { model with tick, data := data.insert endpoint ⟨change (inFlight data endpoint), tick⟩ }

def reserve (endpoint : Endpoint) : QueueModel Endpoint × Reservation Endpoint :=
  ({ model with reservations := model.reservations + 1 }.entry maxTracked endpoint (· + 1),
    ⟨endpoint, false⟩)

def finish (reservation : Reservation Endpoint) : QueueModel Endpoint × Reservation Endpoint :=
  if reservation.released then (model, reservation)
  else
    ({ model with releases := model.releases + 1 }.entry maxTracked reservation.endpoint (· - 1),
      { reservation with released := true })

def step : QueueOp Endpoint → QueueModel Endpoint
  | .reserve endpoint =>
    let (next, reservation) := model.reserve maxTracked endpoint
    { next with live := reservation :: model.live }
  | .drop index released =>
    match model.live[index]? with
    | none => model
    | some reservation =>
      let (next, reservation) :=
        if released then model.finish maxTracked reservation else (model, reservation)
      { (next.finish maxTracked reservation).1 with live := model.live.eraseIdx index }

def run (ops : List (QueueOp Endpoint)) : QueueModel Endpoint :=
  ops.foldl (step maxTracked) ⟨.empty, 0, 0, 0, []⟩

variable {maxTracked model} {endpoint : Endpoint}

theorem inFlight_makeRoom (other : Endpoint) :
    inFlight (model.makeRoom maxTracked endpoint) other = inFlight model.data other := by
  unfold makeRoom
  split
  · split
    next idle least =>
      have ⟨member, zero⟩ := mem_filter.mp (argmin_mem least)
      have found := find_eq_some.mpr member
      unfold inFlight
      rw [find_remove]
      split
      next same => simpa [same, found, eq_comm] using zero
      next => rfl
    next => rfl
  · rfl

theorem inFlight_entry (change : Nat → Nat) (other : Endpoint) :
    inFlight (model.entry maxTracked endpoint change).data other =
      if other = endpoint then change (inFlight model.data other)
      else inFlight model.data other := by
  simp only [inFlight, entry, find_insert]
  split
  next same => rw [same]; exact congrArg change (inFlight_makeRoom endpoint)
  next => exact inFlight_makeRoom other

theorem busy_of_grows {change : Nat → Nat} (full : maxTracked ≤ model.data.entries.length)
    (unknown : model.data.contains endpoint = false)
    (kept : ∀ tracked, model.data.contains tracked = true →
      (model.entry maxTracked endpoint change).data.contains tracked = true)
    {tracked : Endpoint} (there : model.data.contains tracked = true) :
    0 < inFlight model.data tracked := by
  have room : model.makeRoom maxTracked endpoint = _ := if_pos (by simp [unknown, full])
  cases least : (model.data.entries.filter (·.2.inFlight = 0)).argmin (·.2.lastUsed) with
  | none =>
    obtain ⟨data, found⟩ := contains_eq_true.mp there
    have busy := filter_eq_nil_iff.mp (argmin_eq_none.mp least) _ (find_eq_some.mp found)
    simpa [inFlight, found, Nat.pos_iff_ne_zero] using busy
  | some idle =>
    have found := find_eq_some.mpr (mem_filter.mp (argmin_mem least)).1
    have still := kept idle.1 (by simp [SortedMap.contains, found])
    have apart : idle.1 ≠ endpoint := by
      rintro rfl
      simp [SortedMap.contains, found] at unknown
    rw [least] at room
    simp [entry, room, SortedMap.contains, find_insert, apart] at still

structure Exact (model : QueueModel Endpoint) : Prop where
  counts : ∀ endpoint,
    inFlight model.data endpoint = model.live.countP (·.endpoint = endpoint)
  open_ : ∀ reservation ∈ model.live, reservation.released = false
  total : model.reservations = model.releases + model.live.length

theorem step_drop {index : Nat} {reservation : Reservation Endpoint}
    (held : model.live[index]? = some reservation) (open_ : reservation.released = false)
    (released : Bool) :
    model.step maxTracked (.drop index released) =
      { { model with releases := model.releases + 1 }.entry maxTracked reservation.endpoint
          (· - 1) with live := model.live.eraseIdx index } := by
  cases released <;> simp [step, held, finish, open_]

theorem Exact.step (exact_ : model.Exact) (op : QueueOp Endpoint) :
    (model.step maxTracked op).Exact := by
  have ⟨counts, open_, total⟩ := exact_
  cases op with
  | reserve endpoint =>
    refine ⟨fun other => ?_, ?_, congrArg (· + 1) total⟩
    · refine (inFlight_entry (· + 1) other).trans ?_
      have before := counts other
      grind [QueueModel.step, reserve]
    · grind [QueueModel.step, reserve]
  | drop index released =>
    by_cases inside : index < model.live.length
    · have perm := getElem_cons_eraseIdx_perm inside
      rw [step_drop (getElem?_eq_getElem inside) (open_ _ (getElem_mem inside))]
      refine ⟨fun other => ?_, fun _ member => open_ _ (mem_of_mem_eraseIdx member), ?_⟩
      · refine (inFlight_entry (· - 1) other).trans ?_
        have before := counts other
        rw [← perm.countP_eq, countP_cons] at before
        grind
      · rw [← perm.length_eq, length_cons, ← Nat.add_assoc, Nat.add_right_comm] at total
        exact total
    · simpa [QueueModel.step, inside] using exact_

/-- Every endpoint's count is of its live reservations, which keep it in the table; and a full table
takes in another one for nothing only while all it tracks are busy. -/
theorem run_counts_in_flight (maxTracked : Nat) (ops : List (QueueOp Endpoint)) :
    let model := run maxTracked ops
    (∀ endpoint, inFlight model.data endpoint = model.live.countP (·.endpoint = endpoint)) ∧
    (∀ reservation ∈ model.live, model.data.contains reservation.endpoint = true) ∧
    model.reservations = model.releases + model.live.length ∧
    ∀ endpoint, maxTracked ≤ model.data.entries.length → model.data.contains endpoint = false →
      (∀ tracked, model.data.contains tracked = true →
        (model.reserve maxTracked endpoint).1.data.contains tracked = true) →
      ∀ tracked, model.data.contains tracked = true → 0 < inFlight model.data tracked := by
  intro model
  have exact_ : model.Exact := foldlRecOn ops _ ⟨fun _ => rfl, nofun, rfl⟩ fun _ before op _ =>
    before.step op
  refine ⟨exact_.counts, fun reservation member => ?_, exact_.total,
    fun endpoint full unknown kept tracked there => busy_of_grows full unknown kept there⟩
  have positive : 0 < inFlight model.data reservation.endpoint := by
    rw [exact_.counts]
    exact countP_pos_iff.mpr ⟨reservation, member, by simp⟩
  by_contra absent
  simp_all [SortedMap.contains, inFlight]

/-- The table stays past its bound when one of the endpoints that filled it is idle again. -/
theorem idle_past_the_bound :
    let model : QueueModel Nat := run 1 [.reserve 0, .reserve 1, .drop 1 true]
    model.data.entries.length = 2 ∧ (model.data.find 0).map (·.inFlight) = some 0 :=
  ⟨rfl, rfl⟩

end QueueModel

end Moonpool.Rpc.Balance
