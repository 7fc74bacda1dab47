import Moonpool.Rpc.Connection

/-!
Owns this runtime's relationship with one remote address: the selected connection, the
reconnect timing, and what becomes of an accepted session that names that address
(`transport/peer.rs`, the decision of `Shared::select_inbound`).

Connections are named by id.  Scaling a duration by a floating-point factor is a parameter.
-/

namespace Moonpool.Rpc

inductive IpAddr where
  | v4 (octets : Vector UInt8 4)
  | v6 (octets : Vector UInt8 16)
deriving DecidableEq

namespace SocketAddr

def ip : SocketAddr → IpAddr
  | v4 octets _ => .v4 octets
  | v6 octets _ _ _ => .v6 octets

/-- The fields in the order addresses are compared by. -/
def key : SocketAddr → List Nat
  | v4 octets port => 4 :: octets.toList.map UInt8.toNat ++ [port.toNat]
  | v6 octets port flowInfo scope =>
    6 :: octets.toList.map UInt8.toNat ++ [port.toNat, flowInfo.toNat, scope.toNat]

def Smaller (first second : SocketAddr) : Prop := first.key < second.key

instance (first second : SocketAddr) : Decidable (first.Smaller second) :=
  inferInstanceAs (Decidable (first.key < second.key))

end SocketAddr

inductive InboundSharing where
  | disabled
  | sameIp
  | trusted
deriving DecidableEq

structure PeerPolicy where
  initialReconnectDelay : Duration
  maxReconnectDelay : Duration
  /-- The delay after an unstable connection, before its cap. -/
  grow : Duration → Duration
  reconnectResetAfter : Duration
  idleTimeout : Duration
  inboundIdleTimeout : Duration
  maxTrackedAddresses : Nat
  alwaysAcceptAfter : Duration

structure Peer where
  /-- The selected connection, in any state from waiting to dial to established. -/
  current : Option ConnectionId
  reconnectDelay : Duration
  lastConnect : Option Duration
  /-- When this runtime started dialing without a connection establishing since. -/
  unestablishedSince : Option Duration
  /-- The latest verified session this peer dialed that was left served only. -/
  candidate : Option ConnectionId
deriving DecidableEq

structure Standing where
  connection : ConnectionId
  direction : Direction
  established : Bool
deriving DecidableEq

inductive Selection where
  | adopt (replaced : Option ConnectionId)
  /-- This runtime keeps its own dial and remembers the session. -/
  | keep
deriving DecidableEq

namespace Peer

variable (peer : Peer)

def new (policy : PeerPolicy) : Peer :=
  ⟨none, policy.initialReconnectDelay, none, none, none⟩

/-- How long to wait before dialing, recorded as happening then; `jitter` is the draw. -/
def nextDial (now : Duration) (jitter : Duration → Duration) : Peer × Duration :=
  let wait := jitter ((peer.lastConnect.map fun last => last + peer.reconnectDelay - now).getD 0)
  ({ peer with
      lastConnect := some (now + wait)
      unestablishedSince := some (peer.unestablishedSince.getD now) }, wait)

def established : Peer := { peer with unestablishedSince := none }

/-- Whether this runtime has been dialing for `delay` without a selected connection establishing. -/
def dialingStalled (now delay : Duration) : Bool :=
  match peer.unestablishedSince with
  | none => false
  | some since => decide (delay ≤ now - since)

def adopted (now : Duration) : Peer :=
  { peer with lastConnect := some now, unestablishedSince := none }

/-- The selected connection ended: reset the backoff after a stable one, grow it otherwise. -/
def sessionEnded (now : Duration) (policy : PeerPolicy) : Peer :=
  let stable :=
    match peer.lastConnect with
    | none => false
    | some last => decide (policy.reconnectResetAfter < now - last)
  { peer with
    reconnectDelay :=
      if stable then policy.initialReconnectDelay
      else min (policy.grow peer.reconnectDelay) policy.maxReconnectDelay }

def isForgettable (live : Bool) (now : Duration) : Bool :=
  !live &&
    match peer.lastConnect with
    | none => true
    | some last => decide (peer.reconnectDelay ≤ now - last)

/-- What becomes of an accepted session of the peer at `listen`. The runtime with the larger address
keeps its own dial, unless that has failed to establish for too long. -/
def select (live : Option Standing) (listen here : SocketAddr)
    (now alwaysAccept : Duration) : Selection :=
  match live with
  | none => .adopt none
  | some current =>
    if current.direction = .inbound then .adopt (some current.connection)
    else if here.Smaller listen then .adopt (some current.connection)
    else if peer.dialingStalled now alwaysAccept ∧ current.established = false then
      .adopt (some current.connection)
    else .keep

/-- Whether a call adopts the candidate: the own dials stall and no selected connection
established. -/
def adoptsCandidate (live : Option Standing) (usable : Bool)
    (now alwaysAccept : Duration) : Option (Option ConnectionId) :=
  if peer.dialingStalled now alwaysAccept ∧ usable then
    match live with
    | none => some none
    | some current => if current.established then none else some (some current.connection)
  else none

end Peer

abbrev Peers : Type := List (SocketAddr × Peer)

namespace Peers

def get (peers : Peers) (address : SocketAddr) : Option Peer :=
  (List.find? (fun entry => entry.1 = address) peers).map Prod.snd

def put (peers : Peers) (address : SocketAddr) (peer : Peer) : Peers :=
  (address, peer) :: List.filter (fun entry => entry.1 ≠ address) peers

def update (peers : Peers) (address : SocketAddr) (change : Peer → Peer) : Peers :=
  match peers.get address with
  | none => peers
  | some peer => peers.put address (change peer)

variable {peers : Peers} {address : SocketAddr} {peer : Peer}

theorem mem_of_get (found : peers.get address = some peer) : (address, peer) ∈ peers := by
  obtain ⟨⟨key, value⟩, located, rfl⟩ := Option.map_eq_some_iff.mp found
  have same : key = address := by simpa using List.find?_some located
  rw [← same]
  exact List.mem_of_find?_eq_some located

theorem mem_of_put {entry : SocketAddr × Peer} (member : entry ∈ peers.put address peer) :
    entry = (address, peer) ∨ entry ∈ peers := by
  rcases List.mem_cons.mp member with rfl | kept
  · exact .inl rfl
  · exact .inr (List.mem_filter.mp kept).1

theorem mem_of_update {change : Peer → Peer} {entry : SocketAddr × Peer}
    (member : entry ∈ peers.update address change) :
    entry ∈ peers ∨ ∃ peer, (address, peer) ∈ peers ∧ entry = (address, change peer) := by
  unfold update at member
  split at member
  · exact .inl member
  next peer found =>
    rcases mem_of_put member with rfl | kept
    · exact .inr ⟨peer, mem_of_get found, rfl⟩
    · exact .inl kept

theorem get_cons (entry : SocketAddr × Peer) (rest : Peers) (address : SocketAddr) :
    Peers.get (entry :: rest) address =
      if entry.1 = address then some entry.2 else Peers.get rest address := by
  unfold get
  by_cases same : entry.1 = address <;> simp [same]

theorem get_put (peers : Peers) (address other : SocketAddr) (peer : Peer) :
    (peers.put address peer).get other = if other = address then some peer else peers.get other := by
  have dropped : ∀ rest : Peers, other ≠ address →
      Peers.get (List.filter (fun entry => entry.1 ≠ address) rest) other = rest.get other := by
    intro rest differs
    induction rest with
    | nil => rfl
    | cons entry rest ih =>
      by_cases dropped : entry.1 = address
      · rw [List.filter_cons_of_neg (by simpa using dropped), get_cons, if_neg ?_]
        · exact ih
        · exact fun same => differs (same.symm.trans dropped)
      · rw [List.filter_cons_of_pos (by simpa using dropped), get_cons, get_cons,
          ih]
  unfold put
  rw [get_cons]
  by_cases same : other = address
  · rw [if_pos same.symm, if_pos same]
  · rw [if_neg (Ne.symm same), if_neg same, dropped peers same]

theorem get_update (peers : Peers) (address other : SocketAddr) (change : Peer → Peer) :
    (peers.update address change).get other =
      if other = address then (peers.get address).map change else peers.get other := by
  unfold update
  split
  next unknown =>
    split
    next same => rw [same, unknown, Option.map_none]
    · rfl
  next peer found => rw [get_put, found, Option.map_some]

def Distinct (peers : Peers) : Prop := (List.map Prod.fst peers).Nodup

section

variable (distinct : peers.Distinct)

include distinct

theorem Distinct.filter (keep : SocketAddr × Peer → Bool) :
    Peers.Distinct (List.filter keep peers) :=
  List.Nodup.sublist (List.filter_sublist.map Prod.fst) distinct

theorem Distinct.put (address : SocketAddr) (peer : Peer) :
    (peers.put address peer).Distinct := by
  refine List.nodup_cons.mpr ⟨?_, distinct.filter _⟩
  intro member
  obtain ⟨entry, kept, same⟩ := List.mem_map.mp member
  exact of_decide_eq_true (List.mem_filter.mp kept).2 same

theorem Distinct.update (address : SocketAddr)
    (change : Peer → Peer) : (peers.update address change).Distinct := by
  unfold Peers.update
  split
  · exact distinct
  · exact distinct.put address _

theorem Distinct.get (member : (address, peer) ∈ peers) :
    peers.get address = some peer := by
  induction peers with
  | nil => cases member
  | cons entry rest ih =>
    rw [get_cons]
    obtain ⟨new, distinct⟩ := List.nodup_cons.mp distinct
    rcases List.mem_cons.mp member with rfl | later
    · rw [if_pos rfl]
    rw [if_neg ?_]
    · exact ih distinct later
    · intro same
      exact new (same ▸ List.mem_map_of_mem (f := Prod.fst) later)

end

end Peers

end Moonpool.Rpc
