import Mathlib.Data.Prod.Lex
import Moonpool.Sim.ShardBook

/-!
Owns the state of the simulated disks of every process (`storage/sim/state.rs`): files and
the handles open on them, the visible and the durable names, what processes publish, and
where the rolling turns are; and the two places that read it all, the shard gate
(`storage/sim/shards.rs`) and the weight of a random fault.

A name is a process and a path.  Maps are walked in the order of their keys, as the trees of
the source are.  What an operation draws is its argument; a fault weight is kept as whether it
is positive.  Latencies, episodes, capacities, wakers and fault records are left out.
-/

namespace Moonpool.Sim

open Lib List

abbrev FileId : Type := Nat

abbrev HandleId : Type := Nat

abbrev Name : Type := IpAddr ×ₗ Path

abbrev nameOf (owner : IpAddr) (path : Path) : Name := toLex (owner, path)

abbrev nameOwner (name : Name) : IpAddr := (ofLex name).1

abbrev namePath (name : Name) : Path := (ofLex name).2

structure FileState where
  path : Path
  owner : IpAddr
  image : FileImage

/-- One open file: how many of its operations are in flight. -/
structure HandleState where
  fileId : FileId
  pending : Nat
  isClosed : Bool
deriving DecidableEq

structure ReplicationSlot where
  plan : ReplicationPlan
  turn : Nat
  damaged : Bool
  /-- Whether the window must be re-read before the turn next moves. -/
  recheck : Bool

def ReplicationSlot.new (plan : ReplicationPlan) : ReplicationSlot := ⟨plan, 0, false, false⟩

structure Storage where
  nextFileId : FileId
  nextHandleId : HandleId
  files : SortedMap FileId FileState
  handles : SortedMap HandleId HandleState
  pathToFile : SortedMap Name FileId
  durablePaths : SortedMap Name FileId
  directories : SortedSet Name
  durableDirectories : SortedSet Name
  failedDisks : SortedSet IpAddr
  layouts : SortedMap IpAddr LayoutIndex
  replication : List ReplicationSlot
  shards : Option ShardBook
  /-- The eligibility mask: the sectors it admits a random fault on. -/
  mask : Path → Nat → Bool
  /-- A process's fault focus: the sectors it gives a weight. -/
  focus : SortedMap IpAddr (Path → Nat → Bool)
  barrierViolationArmed : Bool

namespace FileImage

def markDamaged (image : FileImage) (sectors : List Nat) : FileImage :=
  { image with damaged := sectors.foldl SectorBitSet.set image.damaged }

def damagedSectors (image : FileImage) : List Nat :=
  (range image.damaged.len).filter image.damaged.isSet

def hasDamage (image : FileImage) : Bool :=
  (range image.damaged.len).any image.damaged.isSet

theorem mem_damagedSectors {image : FileImage} {sector : Nat} :
    sector ∈ image.damagedSectors ↔ image.damaged.isSet sector = true := by
  rw [damagedSectors, mem_filter, mem_range]
  exact ⟨And.right, fun marked => ⟨SectorBitSet.isSet_lt marked, marked⟩⟩

theorem hasDamage_of_isSet {image : FileImage} {sector : Nat}
    (marked : image.damaged.isSet sector = true) : image.hasDamage = true :=
  any_eq_true.mpr ⟨sector, mem_range.mpr (SectorBitSet.isSet_lt marked), marked⟩

end FileImage

def Region.holdsSector (region : Region) (sector : Nat) : Bool :=
  decide (region.bytes.start / sectorSize ≤ sector) &&
    decide (sector < sectorCount region.bytes.stop)

namespace Storage

variable (storage : Storage) (owner : IpAddr) (ip : IpAddr)

/-- Damage or what a process publishes changed: each rolling turn re-reads its window's disks. -/
def noteDamageChanged : Storage :=
  { storage with
    replication := storage.replication.map fun slot => { slot with recheck := true } }

def alterImage (file : FileId) (change : FileImage → FileImage) : Storage :=
  { storage with
    files := storage.files.modify file fun state => { state with image := change state.image } }

def markDamaged (storage : Storage) (file : FileId) (sectors : List Nat) : Storage :=
  (storage.alterImage file fun image => image.markDamaged sectors).noteDamageChanged

def publishLayout (regions : List LayoutRegion) : Storage :=
  { storage with layouts := storage.layouts.insert ip (.new regions) }.noteDamageChanged

def failDisk : Storage :=
  { storage with failedDisks := storage.failedDisks.insert ip () }

/-- The copies lost whatever their bytes say. -/
structure NotIntact where
  everywhere : SortedSet IpAddr
  /-- Per shard, the replicas whose copy of that shard alone is lost. -/
  perShard : ShardLosses

def NotIntact.lost (notIntact : NotIntact) (ip : IpAddr) (shard : Text) : Bool :=
  notIntact.everywhere.contains ip ||
    (notIntact.perShard.find shard).any fun lost => lost.contains ip

/-- The replicas wiped or on a failed disk, in every shard, and the copies lost in one. -/
def notIntact : NotIntact :=
  { everywhere :=
      SortedMap.insertKeys ((storage.shards.map ShardBook.wiped).getD .empty)
        storage.failedDisks.keys
    perShard := (storage.shards.map ShardBook.losses).getD .empty }

def shardRequirements : Option Requirements :=
  (storage.shards.map ShardBook.requirements).filter fun requirements =>
    !requirements.entries.isEmpty

def regionDamaged (path : Path) (region : Region) : Bool :=
  match (storage.pathToFile.find (nameOf ip path)).bind storage.files.find with
  | none => false
  | some file =>
    file.image.hasDamage && file.image.damagedSectors.any fun sector => region.holdsSector sector

/-- Whether `ip`'s copy of `(shard, stripe)` holds a damaged sector, or any of the shard's. -/
def copyDamaged (shard : Text) (stripe : Option Nat) : Bool :=
  match storage.layouts.find ip with
  | none => false
  | some layout =>
    layout.sharded.any fun (path, region, name) =>
      if name ≠ shard ∨ (stripe.isSome ∧ region.stripe.isSome ∧ region.stripe ≠ stripe) then false
      else storage.regionDamaged ip path region

/-- Whether losing `owner`'s copy of `(shard, stripe)` keeps `durable`, judged on the other clean
copies. -/
def stripeSurvives (requirements : Requirements) (notIntact : NotIntact)
    (owner : IpAddr) (shard : Text) (stripe : Option Nat) : Bool :=
  match requirements.find shard with
  | none => true
  | some replications =>
    replications.all fun replication =>
      replication.durable.holds fun replica =>
        replica.ip.all fun ip =>
          decide (ip ≠ owner) && !notIntact.lost ip shard && !storage.copyDamaged ip shard stripe

/-- For one file: whether damage may land on each `(shard, stripe)` key of its regions. -/
structure ShardRule where
  keys : List ((Text × Option Nat) × Bool)

/-- For a sector with the regions `entries`: whether damage may land there, and whether all are
inside a shard. -/
def ShardRule.verdict (rule : ShardRule) (entries : List Entry) : Option (Bool × Bool) :=
  let allowed := fun (stripe : Option Nat) (shard : Text) =>
    (rule.keys.find? fun key => decide (key.1 = (shard, stripe))).all Prod.snd
  let safe := entries.all fun entry => entry.2.all fun shard => allowed entry.1 shard
  let only := entries.all fun entry => entry.2.isSome
  if entries.any fun entry => entry.2.isSome then some (safe, only) else none

/-- The placement rule for damage on a file that holds regions inside a declared shard. -/
def shardRule (path : Path) : Option ShardRule := do
  let layout ← storage.layouts.find owner
  let keys := layout.shardKeys path
  guard (keys ≠ [])
  let requirements ← storage.shardRequirements
  return ⟨keys.map fun key =>
    (key, storage.stripeSurvives requirements storage.notIntact owner key.1 key.2)⟩

/-- Whether damage to `bytes` of the file at `path` keeps every shard of those bytes durable. -/
def damageAllowed (path : Path) (bytes : Span) : Bool :=
  match storage.layouts.find owner with
  | none => true
  | some layout =>
    let entries := layout.entriesIn path bytes
    if entries.all fun entry => entry.2.isNone then true
    else
      match storage.shardRequirements with
      | none => true
      | some requirements =>
        entries.all fun entry => entry.2.all fun shard =>
          storage.stripeSurvives requirements storage.notIntact owner shard entry.1

/-- Whether a crash of `ip` now could break a shard's `durable` need through a dirty sector. -/
def crashEndangersShards : Bool :=
  match storage.layouts.find ip, storage.shardRequirements with
  | some layout, some requirements =>
    storage.pathToFile.entries.any fun (name, fileId) =>
      if nameOwner name ≠ ip then false
      else
        match storage.files.find fileId with
        | none => false
        | some file =>
          file.image.dirtySectors.any fun sector =>
            (layout.entries (namePath name) sector).any fun entry =>
              entry.2.any fun shard =>
                !storage.stripeSurvives requirements storage.notIntact ip shard entry.1
  | _, _ => false

/-- Whether `layout` publishes a striped region in `shard`: such a copy is not whole. -/
def hasStripe (layout : LayoutIndex) (shard : Text) : Bool :=
  layout.sharded.any fun (_, region, name) => decide (name = shard) && region.stripe.isSome

/-- Count `owner`'s copy of a shard lost when a crash changed a dirty sector of a whole copy. -/
def noteTornWholeCopies (path : Path)
    (report : FileCrashReport) : Storage :=
  match storage.shards, storage.layouts.find owner with
  | some book, some layout =>
    let torn := (report.resolutions.filter fun resolution =>
        decide (resolution.outcome ≠ .keptNew)).flatMap fun resolution =>
      (layout.entries path resolution.sector).filterMap fun entry =>
        match entry with
        | (none, some shard) => if hasStripe layout shard then none else some shard
        | _ => none
    { storage with
      shards := some (torn.foldl (fun book shard => book.noteShardLoss owner shard) book) }
  | _, _ => storage

def diskFailureAllowed : Bool :=
  match storage.shardRequirements with
  | none => true
  | some requirements =>
    loseOk requirements storage.notIntact.everywhere storage.notIntact.perShard [ip]

def weighs (path : Path) (sector : Nat) : Bool :=
  let layout := storage.layouts.find owner
  let sharded := do
    let rule ← storage.shardRule owner path
    let layout ← layout
    rule.verdict (layout.entries path sector)
  if !storage.mask path sector then false
  -- A region inside a shard takes damage only while the shard stays durable; one wholly
  -- inside shards answers to no replicated fault pattern.
  else if sharded.any fun verdict => !verdict.1 then false
  else if !(sharded.any fun verdict => verdict.2) &&
      !(storage.replication.all fun slot =>
        slot.plan.allows owner layout path sector slot.turn) then false
  else (storage.focus.find owner).all fun weight => weight path sector

/-- Whether any named file of a process in the window at `turn` holds damage it still publishes. -/
def windowDamaged (plan : ReplicationPlan) (turn : Nat) : Bool :=
  storage.pathToFile.entries.any fun (name, fileId) =>
    if (plan.domain (nameOwner name)).any fun domain => plan.inWindow domain turn then
      match storage.files.find fileId with
      | none => false
      | some file =>
        file.image.hasDamage && file.image.damagedSectors.any fun sector =>
          (storage.layouts.find (nameOwner name)).all fun layout =>
            layout.covers (namePath name) sector
    else false

/-- A rolling turn moves one domain on when it covers `owner` from another and holds no damage. -/
def settleTurn (slot : ReplicationSlot) : ReplicationSlot :=
  if slot.plan.isRolling then
    match slot.plan.domain owner with
    | none => slot
    | some domain =>
      let turn := slot.turn
      let slot :=
        if slot.recheck then
          { slot with damaged := storage.windowDamaged slot.plan turn, recheck := false }
        else slot
      if !slot.damaged && !slot.plan.inWindow domain turn then
        { slot with turn := (turn + 1) % slot.plan.domainCount, recheck := true }
      else slot
  else slot

def settleTurns : Storage :=
  { storage with replication := storage.replication.map (storage.settleTurn owner) }

end Storage

end Moonpool.Sim
