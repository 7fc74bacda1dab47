import Moonpool.Sim.Intact

/-!
Contract: what the shard gate answers for when it lets a disk fail.

Owns:
- `holds_of_diskFailureAllowed`: where no other copy is damaged, the gate's answer is enough;
- `recoverable_failDisk_iff`: a failure it allows leaves the data recoverable exactly when no
  stripe damaged on another replica needed the failed copy;
- `diskFailure_loses_stripe`: the gate looks at lost replicas only, so a stripe damaged elsewhere
  can lose its last clean copy.

Does not own what a recoverable shard is, nor how the loss of one process's copies changes that
(see `Moonpool.Sim.Intact`).
-/

namespace Moonpool.Sim

open Lib List SortedMap

namespace Storage

variable {storage before after : Storage} {ip : IpAddr} {shard : Text}
  {stripe : Option Nat} {replication : Replication}

theorem intact_congr (layouts : after.layouts.find ip = before.layouts.find ip)
    (lost : after.notIntact.lost ip shard = before.notIntact.lost ip shard)
    (damage : ∀ path sector, after.DamagedAt ip path sector ↔ before.DamagedAt ip path sector) :
    after.intact ip shard stripe = before.intact ip shard stripe := by
  have regions (path : Path) (region : Region) :
      after.regionDamaged ip path region = before.regionDamaged ip path region := by
    rw [Bool.eq_iff_iff, regionDamaged_iff, regionDamaged_iff]
    exact exists_congr fun sector => and_congr_left' (damage path sector)
  simp only [intact, lost, spoiled, layouts, regions]

theorem lost_failDisk {other : IpAddr} :
    (storage.failDisk ip).notIntact.lost other shard = true ↔
      storage.notIntact.lost other shard = true ∨ other = ip := by
  rw [lost_iff, lost_iff, or_assoc]
  rw [failDisk, contains_eq_true, contains_eq_true, find_insert]
  by_cases same : other = ip
  · simp [same]
  · simp [same]

theorem lossAt_failDisk (storage : Storage) (ip : IpAddr) :
    LossAt ip storage (storage.failDisk ip) where
  requires := id
  published := id
  others differs shard stripe := by
    refine intact_congr rfl ?_ fun _ _ => Iff.rfl
    rw [Bool.eq_iff_iff, lost_failDisk]
    exact or_iff_left differs

theorem holds_of_diskFailureAllowed (allowed : storage.diskFailureAllowed ip = true)
    (held : Recoverable storage) (required : storage.Requires shard replication)
    (published : storage.Published shard stripe)
    (undamaged : ∀ {other}, other ≠ ip → storage.spoiled other shard stripe = false) :
    replication.durable.holds (storage.cleanBeside ip shard stripe) = true := by
  by_cases listed : (ipsOf replication).any (fun other => [ip].contains other) = true
  · obtain ⟨requirements, replications, declared, found, member⟩ := required
    rw [diskFailureAllowed, declared] at allowed
    have each := all_eq_true.mp allowed _ (find_eq_some.mp found)
    have keeps := all_eq_true.mp each replication member
    rw [if_pos listed] at keeps
    refine replication.durable.holds_mono (fun replica _ left => ?_) keeps
    refine (Option.all_eq_true _ _).mpr fun other known => ?_
    have left := (Option.all_eq_true _ _).mp left other known
    simp only [Bool.not_eq_true', Bool.or_eq_false_iff, contains_eq_mem,
      decide_eq_false_iff_not, mem_singleton] at left
    simp [intact, NotIntact.lost, left, undamaged left.2]
  · refine replication.durable.holds_mono (fun replica member clean => ?_)
      (held required published)
    refine (Option.all_eq_true _ _).mpr fun other known => ?_
    have intact := (Option.all_eq_true _ _).mp clean other known
    have differs : other ≠ ip := by
      rintro rfl
      exact listed (any_eq_true.mpr
        ⟨other, mem_ipsOf (mem_append_right _ member) known, by simp⟩)
    simp [intact, differs]

/-- A disk failure the gate allows leaves the data recoverable exactly when no stripe damaged on
another replica needed the failed copy. -/
theorem recoverable_failDisk_iff (held : Recoverable storage)
    (allowed : storage.diskFailureAllowed ip = true) :
    Recoverable (storage.failDisk ip) ↔
      ∀ {shard stripe replication other}, storage.Requires shard replication →
        storage.Published shard stripe → storage.intact ip shard stripe = true →
        other ≠ ip → storage.spoiled other shard stripe = true →
        replication.durable.holds (storage.cleanBeside ip shard stripe) = true := by
  have loss := lossAt_failDisk storage ip
  constructor
  · intro left shard stripe replication other required published mine _ _
    refine loss.spared id id left required published ⟨mine, ?_⟩
    have gone : (storage.failDisk ip).notIntact.lost ip shard = true := lost_failDisk.mpr (.inr rfl)
    rw [intact, gone]
    rfl
  · intro needed
    refine loss.recoverable held fun {shard stripe replication} required published cost => ?_
    by_cases damaged : ∃ other, other ≠ ip ∧ storage.spoiled other shard stripe = true
    · obtain ⟨other, differs, damaged⟩ := damaged
      exact needed required published cost.1 differs damaged
    · refine holds_of_diskFailureAllowed allowed held required published fun {other} differs => ?_
      rw [← Bool.not_eq_true]
      exact fun spoiled => damaged ⟨other, differs, spoiled⟩

def oneOf (ips : List IpAddr) : Replication :=
  ⟨ips.map replicaAt, .atLeast 1 (ips.map replicaAt), .atLeast 1 (ips.map replicaAt)⟩

/-- Each process publishes a file of one byte as stripe 0 of a shard that needs one of them. -/
def mirrored (ips : List IpAddr) : List Action :=
  ips.flatMap (fun ip => [
    .openFile ip "log".toList creating 1 zeros false,
    .publishLayout ip [⟨"log".toList, ⟨0, 1⟩, some 0, some "shard".toList⟩]]) ++
  [.declare (some ⟨.insert .empty "shard".toList [oneOf ips], .empty, .empty⟩)]

/-- The third replica still holds the stripe damaged on the second when the first one's disk
fails. -/
theorem recoverable_failDisk_third :
    letI := sumCrc
    ∃ storage, unplanned.acts (mirrored [1, 2, 3] ++ [.read 1 0 1 false fun _ => true]) = .ok storage ∧
      storage.spoiled 2 "shard".toList (some 0) = true ∧ Recoverable storage ∧
      storage.diskFailureAllowed 1 = true ∧
      ∀ {shard stripe replication other}, storage.Requires shard replication →
        storage.Published shard stripe → storage.intact 1 shard stripe = true →
        other ≠ 1 → storage.spoiled other shard stripe = true →
        replication.durable.holds (storage.cleanBeside 1 shard stripe) = true := by
  let _ := sumCrc
  have ends : ∃ storage,
      unplanned.acts (mirrored [1, 2, 3] ++ [.read 1 0 1 false fun _ => true]) = .ok storage ∧
      decide (storage.spoiled 2 "shard".toList (some 0) = true ∧ Recoverable storage ∧
        storage.diskFailureAllowed 1 = true ∧ Recoverable (storage.failDisk 1)) = true :=
    exists_of_any (by decide)
  obtain ⟨storage, ran, passes⟩ := ends
  obtain ⟨damaged, held, allowed, left⟩ := of_decide_eq_true passes
  exact ⟨storage, ran, damaged, held, allowed, (recoverable_failDisk_iff held allowed).mp left⟩

/-- Failing the first of two disks is allowed and loses the stripe damaged on the second. -/
theorem diskFailure_loses_stripe :
    letI := sumCrc
    ∃ storage, unplanned.acts (mirrored [1, 2] ++ [.read 1 0 1 false fun _ => true]) = .ok storage ∧
      Recoverable storage ∧ storage.diskFailureAllowed 1 = true ∧
      ¬ Recoverable (storage.failDisk 1) := by
  let _ := sumCrc
  have ends : ∃ storage,
      unplanned.acts (mirrored [1, 2] ++ [.read 1 0 1 false fun _ => true]) = .ok storage ∧
      decide (Recoverable storage ∧ storage.diskFailureAllowed 1 = true ∧
        ¬ Recoverable (storage.failDisk 1)) = true := exists_of_any (by decide)
  obtain ⟨storage, ran, passes⟩ := ends
  exact ⟨storage, ran, of_decide_eq_true passes⟩

end Storage

end Moonpool.Sim
