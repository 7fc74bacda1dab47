import Moonpool.Journal.Disk

/-!
Owns what a commit is given and how the journal's calls fail: the batch of writes, its
size bound (`batch.rs`), and the errors (`error.rs`).

A failed assertion or `expect` of the code unwinds its task; it is modelled as the extra
error `panicked`, so that "no panic" is a statement like any other.
-/

namespace Moonpool.Journal

open Lib

inductive OpenError where
  | io (error : IoError)
  | invalidConfig (reason : String)
  | alreadyExists
  /-- A persist record and its entry are both damaged before the last batch. -/
  | doubleFault (batch index : Nat)
  | lostBatch (batch : Nat)
  /-- Both metainfo copies are damaged, or the meta file is missing while segments exist. -/
  | metaLost
  /-- A segment file is unusable at file granularity. -/
  | badSegment (firstBatch : Nat) (reason : String)
  | wrongJournal (found : JournalId)
  | panicked (message : String)
deriving DecidableEq

/-- Whether a failed write's effect may have reached the disk. -/
inductive Durable where
  | no
  | unknown
deriving DecidableEq

inductive CommitError where
  | belowFloor (position floor : UInt64)
  | metaTooLarge (len : Nat)
  | batchTooLarge
  | io (error : IoError) (durable : Durable)
  | poisoned
  | panicked (message : String)
deriving DecidableEq

/-- Run a provider call inside `create` or `open`: its failure is `OpenError::Io`. -/
def viaOpen {α : Type} (body : Task IoError α) : Task OpenError α :=
  body.mapError .io

/-- One write of a batch. Staging drops an empty range, so a clear always has one. -/
inductive Write where
  | put (position : UInt64) (id : Id) (payload : List UInt8)
  | clear (start stop : UInt64) (nonempty : start < stop)
deriving DecidableEq

namespace Write

def payload : Write → List UInt8
  | put _ _ bytes => bytes
  | clear _ _ _ => []

def kind : Write → Kind
  | put _ _ _ => .put
  | clear _ _ _ => .clear

def position : Write → UInt64
  | put position _ _ => position
  | clear start _ _ => start

def id : Write → Id
  | put _ id _ => id
  | clear _ stop _ => clearId stop

end Write

structure Batch where
  writes : List Write
  floor : Option UInt64
  info : Option (List UInt8)
deriving DecidableEq

namespace Batch

def new : Batch := ⟨[], none, none⟩

def put (batch : Batch) (position : UInt64) (id : Id) (payload : List UInt8) : Batch :=
  { batch with writes := batch.writes ++ [.put position id payload] }

/-- Remove every entry in `start..stop`; an empty range does nothing. -/
def clear (batch : Batch) (start stop : UInt64) : Batch :=
  if nonempty : start < stop then
    { batch with writes := batch.writes ++ [.clear start stop nonempty] }
  else
    batch

def entryBytes (lens : List Nat) : Nat :=
  (lens.map EntryHeader.footprint).sum

/-- Whether the batch, with one more payload of `another` bytes, fits one empty segment. -/
def fitsWith (batch : Batch) (geometry : Geometry) (another : Option Nat) : Bool :=
  let lens := batch.writes.map (fun write => write.payload.length) ++ another.toList
  decide (lens.length ≤ maxBatchRecords) && lens.all (fun len => decide (fitsU32 len)) &&
    decide (Record.blocksFor lens.length ≤ geometry.persistBlocks) &&
    decide (alignUp (entryBytes lens) block ≤ geometry.entryBlocks * block)

def fits (batch : Batch) (geometry : Geometry) : Bool :=
  batch.fitsWith geometry none

end Batch

end Moonpool.Journal
