import Moonpool.Sim.Crash

/-!
Owns what the disk does with reads, writes, syncs and length changes when they land
(`storage/sim/complete.rs`), with the random faults each may draw, and the scripted damage of a
harness (`storage/sim/engine.rs`).

A random fault lands only where the sector's weight admits it, judged after the rolling turns
were settled for the file's owner.  Whether a fault is drawn is an argument.
-/

namespace Moonpool.Sim

open Lib

namespace Storage

variable (storage : Storage)

/-- Whether a fault rolled once for a whole range may land: every sector admits it. -/
def weighsRange (owner : IpAddr) (path : Path) (sectors : List Nat) : Bool :=
  !sectors.isEmpty && sectors.all (storage.weighs owner path)

def plantLatent (file : FileId) (sector : Nat) : Storage :=
  (storage.alterImage file fun image => image.corrupt [sector]).markDamaged file [sector]

def plantCorruption (owner : IpAddr) (path : Path) (file : FileId) (drawn : Nat → Bool)
    (storage : Storage) (sector : Nat) : Storage :=
  if drawn sector && storage.weighs owner path sector then storage.plantLatent file sector
  else storage

def completeRead (id : FileId) (offset len : Nat) (eio : Bool)
    (drawn : Nat → Bool) : Storage :=
  match storage.files.find id with
  | none => storage
  | some file =>
    let len := min (file.image.visible.length - offset) len
    if len = 0 then storage
    else
      let storage := storage.settleTurns file.owner
      let sectors := sectorRange offset len
      let targeted := sectors.any file.image.eioRead.isSet
      if targeted || (eio && storage.weighsRange file.owner file.path sectors) then storage
      else sectors.foldl (plantCorruption file.owner file.path id drawn) storage

structure WriteDraws where
  full : Bool
  eio : Bool
  phantom : Bool
  misdirected : Option Nat
  corrupts : Nat → Bool
  /-- A failed background writeback, and whether it reverts the cache. -/
  writeback : Option Bool

/-- Land a write at `landedAt`, `offset` being where it was aimed, keeping the damage marks. -/
def landWrite (id : FileId) (landedAt offset : Nat) (data : List UInt8) :
    Storage :=
  match storage.files.find id with
  | none => storage
  | some file =>
    let (image, healed) := file.image.write landedAt data
    let storage := storage.alterImage id fun _ => image
    let storage := if healed then storage.noteDamageChanged else storage
    if landedAt = offset then storage
    else
      -- Both the bytes it clobbered and the ones it missed.
      (storage.markDamaged id (sectorRange landedAt data.length)).markDamaged id
        (sectorRange offset data.length)

/-- Roll a failed background writeback after a write; the gate judges it as a loss of unsynced
bytes. -/
def failWriteback (storage : Storage) (owner : IpAddr) (path : Path) (id : FileId)
    (drawn : Option Bool) : Storage :=
  match drawn, storage.files.find id with
  | some revert, some file =>
    let flushable := file.image.flushableSectors
    if !flushable.isEmpty &&
        flushable.all fun sector => storage.damageAllowed owner path (sectorSpan sector) then
      storage.alterImage id fun image => (image.failWriteback revert).1
    else storage
  | _, _ => storage

/-- Land a write once the disk has had its say: refused, swallowed, or landed, here or
elsewhere. -/
def completeWrite (id : FileId) (offset : Nat) (data : List UInt8)
    (draws : WriteDraws) : Storage :=
  match storage.files.find id with
  | none => storage
  | some file =>
    if draws.full then storage
    else
      let owner := file.owner
      let path := file.path
      let sectors := sectorRange offset data.length
      let storage := storage.settleTurns owner
      let weighs := storage.weighsRange owner path sectors
      let targeted := sectors.any file.image.eioWrite.isSet
      if targeted || (draws.eio && weighs) then storage
      else if draws.phantom && weighs then
        (storage.markDamaged id sectors).failWriteback owner path id draws.writeback
      else
        let landedAt := (draws.misdirected.filter fun mistaken =>
          decide (mistaken ≤ file.image.visible.length - data.length) && weighs &&
            storage.weighsRange owner path (sectorRange mistaken data.length)).getD offset
        let storage := storage.landWrite id landedAt offset data
        let storage := (sectorRange landedAt data.length).foldl
          (plantCorruption owner path id draws.corrupts) storage
        storage.failWriteback owner path id draws.writeback

/-- Land a sync. With the barrier-violation family on, it may lie about a sector. -/
def completeSync [Crc32c] (storage : Storage) (id : FileId) (fails violates : Bool)
    (lies : Nat → Bool) : Storage :=
  match storage.files.find id with
  | none => storage
  | some file =>
    if fails then storage
    else
      let storage := { storage with
        barrierViolationArmed := storage.barrierViolationArmed || violates }
      let storage := storage.settleTurns file.owner
      storage.alterImage id fun image =>
        (image.sync fun sector =>
          violates && lies sector && storage.weighs file.owner file.path sector).1

def completeSetLen [Crc32c] (storage : Storage) (id : FileId) (newLen : Nat) (full : Bool) :
    Storage :=
  if full then storage
  else (storage.alterImage id fun image => image.setLen newLen).noteDamageChanged

end Storage

end Moonpool.Sim
