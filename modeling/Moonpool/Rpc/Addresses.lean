import Mathlib.Data.List.Lex
import Mathlib.Data.List.Nodup
import Mathlib.Data.Prod.Lex
import Moonpool.Lib.SortedMap
import Moonpool.Rpc.Connection
import Moonpool.Rpc.Monitor

/-!
Owns the rest of the failure monitor (`failure/state.rs`): the bounded table of addresses, their
availability and their disconnects.

A full table forgets an address nothing is known against when another one is touched.  No
address's state changes by that, but the last disconnect of the forgotten one is gone.
-/

namespace Moonpool.Rpc

open Lib List SortedMap

/-- The order of addresses in the table: IPv4 first, then field by field. -/
def SocketAddr.rank : SocketAddr → Nat ×ₗ List Nat ×ₗ List Nat
  | v4 octets port => toLex (4, toLex (octets.toList.map UInt8.toNat, [port.toNat]))
  | v6 octets port flowInfo scope =>
    toLex (6, toLex (octets.toList.map UInt8.toNat, [port.toNat, flowInfo.toNat, scope.toNat]))

theorem SocketAddr.rank_injective : Function.Injective rank := by
  rintro (_ | _) (_ | _) same <;>
    simp_all [rank, UInt8.toNat_inj, UInt16.toNat_inj, UInt32.toNat_inj, Vector.toList_inj,
      map_inj_right]

instance : LinearOrder SocketAddr := .lift' SocketAddr.rank SocketAddr.rank_injective

inductive AddressState where
  | available
  | failed
deriving DecidableEq

structure AddressRecord where
  failed : Bool := false
  disconnects : Nat := 0
  /-- The sequence number of the latest disconnect; 0 before the first. -/
  lastDisconnect : Nat := 0
  failingSince : Option Duration := none
  references : Nat := 0

structure MonitorState extends Failures where
  addresses : SortedMap SocketAddr AddressRecord
  maxAddresses : Nat
  sequence : Nat

namespace MonitorState

variable (monitor : MonitorState) (address : SocketAddr)

def new (maxFailed maxAddresses : Nat) : MonitorState :=
  ⟨.new maxFailed, .empty, max maxAddresses 1, 0⟩

def addressState : AddressState :=
  if (monitor.addresses.find address).any (·.failed) then .failed else .available

def disconnectedSince (since : Nat) : Bool :=
  (monitor.addresses.find address).any fun record => decide (since < record.lastDisconnect)

/-- The address a full table forgets for `address`: available, not failing and not watched. -/
def victim : Option SocketAddr :=
  if monitor.addresses.contains address = false ∧
      monitor.maxAddresses ≤ monitor.addresses.entries.length then
    (monitor.addresses.entries.find? fun entry => !entry.2.failed &&
      decide (entry.2.references = 0) && entry.2.failingSince.isNone).map Prod.fst
  else none

def forget : MonitorState :=
  match monitor.victim address with
  | some victim => { monitor with addresses := monitor.addresses.remove victim }
  | none => monitor

def record (change : AddressRecord → AddressRecord) : MonitorState :=
  let monitor := monitor.forget address
  { monitor with
    addresses :=
      monitor.addresses.insert address (change ((monitor.addresses.find address).getD {})) }

def connected : MonitorState × Bool :=
  (monitor.record address fun record => { record with failingSince := none, failed := false },
    ((monitor.forget address).addresses.find address).any (·.failed))

def disconnected (failure : Bool) (now delay : Duration) : MonitorState :=
  let sequence := monitor.sequence + 1
  { monitor with sequence }.record address fun record =>
    let record := { record with
      disconnects := record.disconnects + 1, lastDisconnect := sequence }
    if failure then
      let since := record.failingSince.getD now
      { record with
        failingSince := some since
        failed := record.failed || decide (delay ≤ now - since) }
    else record

def endpointFailed (endpoint : Endpoint) (reason : PermanentFailure) : MonitorState × Bool :=
  let (failures, fresh) := monitor.toFailures.endpointFailed endpoint reason
  ({ monitor with toFailures := failures }, fresh)

def reference (add : Bool) : MonitorState :=
  monitor.record address fun record => { record with
    references := if add then record.references + 1 else record.references - 1 }

end MonitorState

inductive MonitorOp where
  | connected (address : SocketAddr)
  | disconnected (address : SocketAddr) (failure : Bool) (now delay : Duration)
  | endpointFailed (endpoint : Endpoint) (reason : PermanentFailure)
  | reference (address : SocketAddr) (add : Bool)

def MonitorOp.ends (address : SocketAddr) : MonitorOp → Bool
  | disconnected ended .. => decide (ended = address)
  | _ => false

namespace MonitorState

def step (monitor : MonitorState) : MonitorOp → MonitorState
  | .connected address => (monitor.connected address).1
  | .disconnected address failure now delay => monitor.disconnected address failure now delay
  | .endpointFailed endpoint reason => (monitor.endpointFailed endpoint reason).1
  | .reference address add => monitor.reference address add

def forgets (monitor : MonitorState) : MonitorOp → Option SocketAddr
  | .connected address | .disconnected address .. | .reference address _ => monitor.victim address
  | .endpointFailed .. => none

/-- The runs of `allowed` operations, with the number of each address's latest disconnect. -/
inductive Runs (maxFailed maxAddresses : Nat) (allowed : MonitorState → MonitorOp → Prop) :
    MonitorState → (SocketAddr → Nat) → Prop where
  | new : Runs maxFailed maxAddresses allowed (.new maxFailed maxAddresses) fun _ => 0
  | step {monitor : MonitorState} {last : SocketAddr → Nat} (op : MonitorOp) :
      Runs maxFailed maxAddresses allowed monitor last → allowed monitor op →
      Runs maxFailed maxAddresses allowed (monitor.step op) fun address =>
        if op.ends address then monitor.sequence + 1 else last address

variable {monitor : MonitorState} {address touched : SocketAddr}

theorem find_forget (kept : monitor.victim touched ≠ some address) :
    (monitor.forget touched).addresses.find address = monitor.addresses.find address := by
  unfold forget
  split
  next victim chosen =>
    rw [find_remove, if_neg]
    rintro rfl
    exact kept chosen
  · rfl

theorem available_of_victim (chosen : monitor.victim touched = some address) :
    monitor.addressState address = .available := by
  unfold victim at chosen
  split at chosen
  · obtain ⟨⟨_, record⟩, found, rfl⟩ := Option.map_eq_some_iff.mp chosen
    have stored := find_eq_some.mpr (mem_of_find?_eq_some found)
    have idle := List.find?_some found
    simp only [Bool.and_eq_true, Bool.not_eq_true'] at idle
    simp [addressState, stored, idle.1.1]
  · cases chosen

theorem addressState_forget :
    (monitor.forget touched).addressState address = monitor.addressState address := by
  by_cases chosen : monitor.victim touched = some address
  · rw [available_of_victim chosen]
    simp [forget, chosen, addressState]
  · rw [addressState, find_forget chosen, addressState]

def lastSeen (monitor : MonitorState) (address : SocketAddr) : Nat :=
  ((monitor.addresses.find address).getD {}).lastDisconnect

theorem lastSeen_record (kept : monitor.victim touched ≠ some address)
    (change : AddressRecord → AddressRecord) :
    (monitor.record touched change).lastSeen address =
      if address = touched then (change ((monitor.addresses.find address).getD {})).lastDisconnect
      else monitor.lastSeen address := by
  have found := find_forget kept
  unfold lastSeen record
  rw [find_insert]
  split
  next same =>
    subst same
    rw [found]
    rfl
  · rw [found]

theorem lastSeen_step {op : MonitorOp} (kept : monitor.forgets op ≠ some address) :
    (monitor.step op).lastSeen address =
      if op.ends address then monitor.sequence + 1 else monitor.lastSeen address := by
  cases op with
  | connected touched | reference touched add =>
    refine (lastSeen_record kept _).trans ?_
    simp [MonitorOp.ends, lastSeen]
  | disconnected touched failure now delay =>
    refine (@lastSeen_record { monitor with sequence := monitor.sequence + 1 } _ _ kept _).trans ?_
    simp only [MonitorOp.ends, decide_eq_true_eq, @eq_comm _ touched]
    cases failure <;> rfl
  | endpointFailed endpoint reason => rfl

end MonitorState

namespace Failures

/-- The order lists what is remembered, each once, and no more than the bound. -/
structure Consistent (failures : Failures) : Prop where
  keys : failures.order = failures.failed.map Prod.fst
  distinct : failures.order.Nodup
  bounded : failures.failed.length ≤ failures.maxFailed
  positive : 0 < failures.maxFailed

theorem makeRoom_eq {bound : Nat} (positive : 0 < bound)
    {failed : List (FailedKey × PermanentFailure)} (distinct : (failed.map Prod.fst).Nodup) :
    ∃ left, makeRoom bound failed (failed.map Prod.fst) = (left, left.map Prod.fst) ∧
      left <:+ failed ∧ left.length < bound := by
  induction failed with
  | nil => exact ⟨[], rfl, suffix_refl _, positive⟩
  | cons oldest later ih =>
    obtain ⟨absent, distinct⟩ := nodup_cons.mp distinct
    rw [map_cons, makeRoom]
    split
    next room => exact ⟨_, rfl, suffix_refl _, room⟩
    · have rest : (oldest :: later).filter (fun entry => decide (entry.1 ≠ oldest.1)) = later := by
        rw [filter_cons_of_neg (by simp), filter_eq_self]
        intro entry member
        exact decide_eq_true fun same => absent (same ▸ mem_map_of_mem member)
      obtain ⟨left, made, suffix, short⟩ := ih distinct
      exact ⟨left, by rw [rest, made], suffix.trans (suffix_cons _ _), short⟩

theorem Consistent.remember {failures : Failures} (consistent : failures.Consistent)
    {key : FailedKey} (unknown : ¬ (failures.get key).isSome) (reason : PermanentFailure) :
    Consistent
      ⟨(makeRoom failures.maxFailed failures.failed failures.order).1 ++ [(key, reason)],
        (makeRoom failures.maxFailed failures.failed failures.order).2 ++ [key],
        failures.maxFailed⟩ := by
  have distinct := consistent.keys ▸ consistent.distinct
  obtain ⟨left, made, suffix, short⟩ := makeRoom_eq consistent.positive distinct
  have absent : key ∉ left.map Prod.fst := by
    intro member
    obtain ⟨entry, held, rfl⟩ := mem_map.mp member
    simp only [get, Option.isSome_map, List.find?_isSome, not_exists, not_and] at unknown
    exact unknown entry (suffix.mem held) (decide_eq_true rfl)
  rw [consistent.keys, made]
  refine ⟨by simp, ?_, by simpa using Nat.succ_le_of_lt short, consistent.positive⟩
  show (left.map Prod.fst ++ [key]).Nodup
  rw [← concat_eq_append]
  exact List.Nodup.concat absent ((suffix.sublist.map _).nodup distinct)

end Failures

namespace MonitorState

variable {maxFailed maxAddresses : Nat} {allowed : MonitorState → MonitorOp → Prop}
  {monitor : MonitorState} {last : SocketAddr → Nat}

theorem toFailures_record (monitor : MonitorState) (touched : SocketAddr)
    (change : AddressRecord → AddressRecord) :
    (monitor.record touched change).toFailures = monitor.toFailures := by
  unfold record forget
  split <;> rfl

theorem Runs.consistent (runs : Runs maxFailed maxAddresses allowed monitor last) :
    monitor.Consistent := by
  induction runs with
  | new => exact ⟨rfl, .nil, Nat.zero_le _, Nat.le_max_right _ _⟩
  | step op _ _ ih =>
    cases op with
    | endpointFailed endpoint reason =>
      show (Failures.endpointFailed _ endpoint reason).1.Consistent
      unfold Failures.endpointFailed
      split
      · exact ih
      cases reason <;> dsimp only <;> split
      all_goals first | exact ih | exact ih.remember ‹_› _
    | _ => exact (congrArg Failures.Consistent (toFailures_record _ _ _)).mpr ih

theorem Runs.seen {address : SocketAddr} (runs : Runs maxFailed maxAddresses allowed monitor last)
    (spares : ∀ monitor op, allowed monitor op → monitor.forgets op ≠ some address) :
    monitor.lastSeen address = last address := by
  induction runs with
  | new => rfl
  | step op _ admitted ih => rw [lastSeen_step (spares _ op admitted), ih]

/-- A disconnect of an address that is not forgotten, once it happened after `since`, is reported
for good; forgetting changes no address's state, and the failed endpoints are listed in order,
within their bound. -/
theorem disconnects_stay_reported (runs : Runs maxFailed maxAddresses allowed monitor last) :
    (∀ address, (∀ monitor op, allowed monitor op → monitor.forgets op ≠ some address) →
      ∀ since, since < last address → monitor.disconnectedSince address since = true) ∧
    (∀ touched address,
      (monitor.forget touched).addressState address = monitor.addressState address) ∧
    monitor.Consistent := by
  refine ⟨fun address spares since later => ?_, fun _ _ => addressState_forget, runs.consistent⟩
  rw [← runs.seen spares, lastSeen] at later
  unfold disconnectedSince
  cases found : monitor.addresses.find address with
  | none =>
    rw [found] at later
    cases later
  | some record =>
    rw [found] at later
    exact decide_eq_true later

def host (number : UInt8) : SocketAddr := .v4 #v[10, 0, 1, number] 4500

theorem remembered_disconnect :
    ∃ monitor last, Runs 8 2 (fun monitor op => monitor.forgets op ≠ some (host 1)) monitor last ∧
      0 < last (host 1) ∧ monitor.disconnectedSince (host 1) 0 = true := by
  have ended := (Runs.new : Runs 8 2 (fun monitor op => monitor.forgets op ≠ some (host 1)) _ _).step
    (.disconnected (host 1) false 0 0) (by decide +kernel)
  have beside := ended.step (.connected (host 2)) (by decide +kernel)
  refine ⟨_, _, beside, by decide, ?_⟩
  exact (disconnects_stay_reported beside).1 _ (fun _ _ spares => spares) 0 (by decide)

/-- The table has room for two: two more addresses, and the disconnect of the first is gone. -/
theorem forgotten_disconnect :
    ∃ monitor last, Runs 8 2 (fun _ _ => True) monitor last ∧ 0 < last (host 1) ∧
      monitor.disconnectedSince (host 1) 0 = false :=
  ⟨_, _, .step (.connected (host 3)) (.step (.connected (host 2))
    (.step (.disconnected (host 1) false 0 0) .new trivial) trivial) trivial, by decide,
    by decide +kernel⟩

end MonitorState

end Moonpool.Rpc
