import Mathlib.Data.Finset.Card
import Moonpool.Sim.Replication

/-!
Owns shards as the code under test declares them (`moonpool-buggify/shard.rs`) and the part
of the shard book the gate reads (`runner/shard.rs`): what each shard needs, which replicas
are wiped, and which lost one shard's copy.

A need is judged on a set of available replicas.  It can only gain from more of them
(`holds_mono`), and only the replicas it names matter (`holds_congr`).
-/

namespace Moonpool.Sim

open Lib List

/-- One replica of a shard: its address as given, and the process address it parses to. -/
structure Replica where
  address : Text
  ip : Option IpAddr
deriving DecidableEq

/-- The replica whose address is `0.0.0.ip`, for `ip` below ten. -/
def replicaAt (ip : IpAddr) : Replica := ⟨"0.0.0.".toList ++ [Nat.digitChar ip], some ip⟩

inductive Need where
  | atLeast (count : Nat) (replicas : List Replica)
  | all (needs : List Need)
  | any (needs : List Need)

namespace Need

mutual

def holds (ok : Replica → Bool) : Need → Bool
  | .atLeast count replicas => decide (count ≤ (replicas.filter ok).dedup.length)
  | .all needs => holdAll ok needs
  | .any needs => holdsAny ok needs

def holdAll (ok : Replica → Bool) : List Need → Bool
  | [] => true
  | need :: rest => need.holds ok && holdAll ok rest

def holdsAny (ok : Replica → Bool) : List Need → Bool
  | [] => false
  | need :: rest => need.holds ok || holdsAny ok rest

end

mutual

def replicas : Need → List Replica
  | .atLeast _ replicas => replicas
  | .all needs => replicasOf needs
  | .any needs => replicasOf needs

def replicasOf : List Need → List Replica
  | [] => []
  | need :: rest => need.replicas ++ replicasOf rest

end

variable {ok more : Replica → Bool}

theorem dedup_filter_length_mono {replicas : List Replica}
    (grows : ∀ replica ∈ replicas, ok replica = true → more replica = true) :
    (replicas.filter ok).dedup.length ≤ (replicas.filter more).dedup.length := by
  rw [← card_toFinset, ← card_toFinset]
  apply Finset.card_le_card
  intro replica member
  rw [mem_toFinset, mem_filter] at member ⊢
  exact ⟨member.1, grows replica member.1 member.2⟩

mutual

theorem holds_mono (need : Need)
    (grows : ∀ replica ∈ need.replicas, ok replica = true → more replica = true)
    (held : need.holds ok = true) : need.holds more = true := by
  match need with
  | .atLeast count replicas =>
    simp only [holds, decide_eq_true_eq] at held ⊢
    exact le_trans held (dedup_filter_length_mono grows)
  | .all needs =>
    rw [holds] at held ⊢
    exact holdAll_mono needs grows held
  | .any needs =>
    rw [holds] at held ⊢
    exact holdsAny_mono needs grows held

theorem holdAll_mono (needs : List Need)
    (grows : ∀ replica ∈ replicasOf needs, ok replica = true → more replica = true)
    (held : holdAll ok needs = true) : holdAll more needs = true := by
  match needs with
  | [] => rfl
  | need :: rest =>
    rw [holdAll, Bool.and_eq_true] at held ⊢
    rw [replicasOf] at grows
    exact ⟨holds_mono need (fun replica member => grows replica (mem_append_left _ member))
        held.1,
      holdAll_mono rest (fun replica member => grows replica (mem_append_right _ member))
        held.2⟩

theorem holdsAny_mono (needs : List Need)
    (grows : ∀ replica ∈ replicasOf needs, ok replica = true → more replica = true)
    (held : holdsAny ok needs = true) : holdsAny more needs = true := by
  match needs with
  | [] => cases held
  | need :: rest =>
    rw [holdsAny, Bool.or_eq_true] at held ⊢
    rw [replicasOf] at grows
    exact held.imp
      (holds_mono need fun replica member => grows replica (mem_append_left _ member))
      (holdsAny_mono rest fun replica member => grows replica (mem_append_right _ member))

end

end Need

structure Replication where
  replicas : List Replica
  progress : Need
  durable : Need

def replicasOf (replication : Replication) : List Replica :=
  replication.replicas ++ replication.progress.replicas ++ replication.durable.replicas

def ipsOf (replication : Replication) : List IpAddr :=
  (replicasOf replication).filterMap Replica.ip

theorem mem_ipsOf {replication : Replication} {replica : Replica} {ip : IpAddr}
    (member : replica ∈ replicasOf replication) (known : replica.ip = some ip) :
    ip ∈ ipsOf replication :=
  mem_filterMap.mpr ⟨replica, member, known⟩

abbrev Requirements : Type := SortedMap Text (List Replication)

/-- Copies lost for good in one shard only: per shard, the replicas whose copy is gone. -/
abbrev ShardLosses : Type := SortedMap Text (SortedSet IpAddr)

structure ShardBook where
  requirements : Requirements
  wiped : SortedSet IpAddr
  losses : ShardLosses

namespace ShardBook

def noteShardLoss (book : ShardBook) (ip : IpAddr) (shard : Text) : ShardBook :=
  { book with
    losses := book.losses.insert shard
      (((book.losses.find shard).getD .empty).insert ip ()) }

end ShardBook

def holdsWithout (need : Need) (unavailable : IpAddr → Bool) : Bool :=
  need.holds fun replica => replica.ip.all fun ip => !unavailable ip

/-- Whether losing the copies of `victims` keeps `durable` of every replication that lists one of
them. -/
def loseOk (requirements : Requirements) (notIntact : SortedSet IpAddr) (losses : ShardLosses)
    (victims : List IpAddr) : Bool :=
  requirements.entries.all fun entry =>
    entry.2.all fun replication =>
      if (ipsOf replication).any fun ip => victims.contains ip then
        holdsWithout replication.durable fun ip =>
          notIntact.contains ip || (losses.find entry.1).any (fun lost => lost.contains ip) ||
            victims.contains ip
      else true

end Moonpool.Sim
