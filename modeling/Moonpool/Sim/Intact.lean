import Moonpool.Sim.Survival

/-!
Owns what the shard gate is for: every declared shard can be recovered, stripe by stripe, from
the copies left clean; and how one process's loss changes that.

A copy of a stripe is clean when its replica is not lost and none of the regions it publishes of
that stripe, or of no stripe, holds a damaged sector.  A loss at one process leaves the data
recoverable exactly when the other copies are enough wherever it costs one (`LossAt.recoverable`,
`LossAt.spared`).
-/

namespace Moonpool.Sim

open Lib Option SortedMap

namespace Storage

variable {storage before after : Storage} {ip owner : IpAddr} {shard : Text} {stripe : Option Nat}
  {replication : Replication}

def DamagedAt (storage : Storage) (ip : IpAddr) (path : Path) (sector : Nat) : Prop :=
  ∃ file state, storage.pathToFile.find (nameOf ip path) = some file ∧
    storage.files.find file = some state ∧ state.image.damaged.isSet sector = true

theorem regionDamaged_iff {path : Path} {region : Region} :
    storage.regionDamaged ip path region = true ↔
      ∃ sector, storage.DamagedAt ip path sector ∧ region.holdsSector sector = true := by
  constructor
  · intro damaged
    unfold regionDamaged at damaged
    split at damaged
    next => cases damaged
    next state found =>
      obtain ⟨file, named, found⟩ := bind_eq_some_iff.mp found
      obtain ⟨_, some⟩ := Bool.and_eq_true _ _ |>.mp damaged
      obtain ⟨sector, member, holds⟩ := List.any_eq_true.mp some
      exact ⟨sector, ⟨file, state, named, found, FileImage.mem_damagedSectors.mp member⟩, holds⟩
  · rintro ⟨sector, ⟨file, state, named, found, marked⟩, holds⟩
    have any : state.image.damagedSectors.any region.holdsSector = true :=
      List.any_eq_true.mpr ⟨sector, FileImage.mem_damagedSectors.mpr marked, holds⟩
    simp only [regionDamaged, named, bind_some, found,
      FileImage.hasDamage_of_isSet marked, Bool.true_and]
    exact any

/-- Whether `ip`'s copy of `(shard, stripe)` holds damage, in a region of that stripe or of none. -/
def spoiled (storage : Storage) (ip : IpAddr) (shard : Text) (stripe : Option Nat) : Bool :=
  (storage.layouts.find ip).any fun layout =>
    layout.sharded.any fun (path, region, name) =>
      decide (name = shard) && (decide (region.stripe = stripe) || region.stripe.isNone) &&
        storage.regionDamaged ip path region

def intact (storage : Storage) (ip : IpAddr) (shard : Text) (stripe : Option Nat) : Bool :=
  !storage.notIntact.lost ip shard && !storage.spoiled ip shard stripe

/-- The replicas whose copy of `(shard, stripe)` is clean; an unknown address always is. -/
def clean (storage : Storage) (shard : Text) (stripe : Option Nat) (replica : Replica) : Bool :=
  replica.ip.all fun ip => storage.intact ip shard stripe

def cleanBeside (storage : Storage) (owner : IpAddr) (shard : Text) (stripe : Option Nat)
    (replica : Replica) : Bool :=
  replica.ip.all fun ip => decide (ip ≠ owner) && storage.intact ip shard stripe

def Requires (storage : Storage) (shard : Text) (replication : Replication) : Prop :=
  ∃ requirements replications, storage.shardRequirements = some requirements ∧
    requirements.find shard = some replications ∧ replication ∈ replications

def Published (storage : Storage) (shard : Text) (stripe : Option Nat) : Prop :=
  ∃ ip layout path region, storage.layouts.find ip = some layout ∧
    (path, region, shard) ∈ layout.sharded ∧ region.stripe = stripe

/-- Every replication keeps its durable need over the clean copies, for each published stripe. -/
def Recoverable (storage : Storage) : Prop :=
  ∀ ⦃shard stripe replication⦄, storage.Requires shard replication →
    storage.Published shard stripe →
    replication.durable.holds (storage.clean shard stripe) = true

def recoverable (storage : Storage) : Bool :=
  storage.shardRequirements.all fun requirements =>
    requirements.entries.all fun entry => entry.2.all fun replication =>
      storage.layouts.entries.all fun published =>
        published.2.sharded.all fun (_, region, name) =>
          decide (name ≠ entry.1) ||
            replication.durable.holds (storage.clean entry.1 region.stripe)

theorem recoverable_iff : storage.recoverable = true ↔ Recoverable storage := by
  simp only [recoverable, all_eq_true, List.all_eq_true, Bool.or_eq_true,
    decide_eq_true_eq, Prod.forall]
  constructor
  · rintro all shard stripe replication ⟨requirements, replications, declared, listed, member⟩
      ⟨ip, layout, path, region, found, there, rfl⟩
    rcases all requirements declared shard replications (find_eq_some.mp listed)
      replication member ip layout (find_eq_some.mp found) path region shard there with
      differs | held
    · exact absurd rfl differs
    · exact held
  · intro held requirements declared shard replications listed replication member ip layout found
      path region name there
    by_cases same : name = shard
    · subst same
      exact .inr (held
        ⟨requirements, replications, declared, find_eq_some.mpr listed, member⟩
        ⟨ip, layout, path, region, find_eq_some.mpr found, there, rfl⟩)
    · exact .inl same

instance : Decidable (Recoverable storage) :=
  decidable_of_iff (storage.recoverable = true) recoverable_iff

theorem lost_iff : storage.notIntact.lost ip shard = true ↔
    (∃ book, storage.shards = some book ∧
      (book.wiped.contains ip = true ∨
        (book.losses.find shard).any (fun lost => lost.contains ip) = true)) ∨
      storage.failedDisks.contains ip = true := by
  have disks : ip ∈ storage.failedDisks.keys ↔ storage.failedDisks.contains ip = true := by
    rw [mem_keys, contains_eq_true]
  unfold NotIntact.lost notIntact
  rw [Bool.or_eq_true, contains_insertKeys, disks]
  cases storage.shards with
  | none => simp [contains]
  | some book =>
    simp only [map_some, getD_some, Option.some.injEq, exists_eq_left']
    exact or_right_comm

/-- The process had a clean copy of `(shard, stripe)` and has none any more. -/
def Costs (before after : Storage) (owner : IpAddr) (shard : Text) (stripe : Option Nat) : Prop :=
  before.intact owner shard stripe = true ∧ after.intact owner shard stripe = false

/-- No other process's copies differ, and no more data must be recoverable. -/
structure LossAt (owner : IpAddr) (before after : Storage) : Prop where
  requires : ∀ {shard replication},
    after.Requires shard replication → before.Requires shard replication
  published : ∀ {shard stripe}, after.Published shard stripe → before.Published shard stripe
  others : ∀ {ip}, ip ≠ owner → ∀ shard stripe,
    after.intact ip shard stripe = before.intact ip shard stripe

/-- The other copies are enough wherever the loss costs one. -/
def Spared (before after : Storage) (owner : IpAddr) (shard : Text) (stripe : Option Nat) : Prop :=
  ∀ {replication}, before.Requires shard replication → before.Published shard stripe →
    Costs before after owner shard stripe →
    replication.durable.holds (before.cleanBeside owner shard stripe) = true

/-- A loss at one process leaves the data recoverable when the other copies are enough. -/
theorem LossAt.recoverable (loss : LossAt owner before after) (held : Recoverable before)
    (spared : ∀ {shard stripe}, Spared before after owner shard stripe) : Recoverable after := by
  intro shard stripe replication required published
  replace required := loss.requires required
  replace published := loss.published published
  by_cases cost : Costs before after owner shard stripe
  · refine replication.durable.holds_mono (fun replica _ clean => ?_)
      (spared required published cost)
    refine (all_eq_true _ _).mpr fun ip known => ?_
    have intact := (all_eq_true _ _).mp clean ip known
    rw [Bool.and_eq_true, decide_eq_true_eq] at intact
    rw [loss.others intact.1]
    exact intact.2
  -- Without a copy lost now every clean copy is still clean.
  · refine replication.durable.holds_mono (fun replica _ clean => ?_) (held required published)
    refine (all_eq_true _ _).mpr fun ip known => ?_
    have intact := (all_eq_true _ _).mp clean ip known
    by_cases other : ip = owner
    · subst other
      by_contra lost
      exact cost ⟨intact, Bool.not_eq_true _ ▸ lost⟩
    · rw [loss.others other]
      exact intact

/-- As much data is recoverable after the loss only when the other copies are enough. -/
theorem LossAt.spared (loss : LossAt owner before after)
    (requires : ∀ {shard replication}, before.Requires shard replication →
      after.Requires shard replication)
    (published : ∀ {shard stripe}, before.Published shard stripe → after.Published shard stripe)
    (left : Recoverable after) : Spared before after owner shard stripe := by
  intro replication required there cost
  refine replication.durable.holds_mono (fun replica _ clean => ?_)
    (left (requires required) (published there))
  refine (all_eq_true _ _).mpr fun ip known => ?_
  have intact := (all_eq_true _ _).mp clean ip known
  have other : ip ≠ owner := by
    rintro rfl
    rw [cost.2] at intact
    cases intact
  rw [← loss.others other, intact]
  simp [other]

end Storage

end Moonpool.Sim
