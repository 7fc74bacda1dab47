import Moonpool.Journal.Batch

/-!
Owns one segment file: allocated whole, two header copies, then the persist log and the
entry log; created under a temporary name and published by a rename, or adopted from a
spare whose headers are synced before the rename (`segment.rs`).
-/

namespace Moonpool.Journal

open Lib

structure Segment where
  firstBatch : Nat
  prevBatch : Nat
  file : Nat
  geometry : Geometry
  /-- Where the next batch's persist records start (block-aligned). -/
  persistNext : Nat
  /-- Where the next batch's entries start (block-aligned). -/
  entryNext : Nat
  live : Nat
deriving DecidableEq

def headerBlocks (header : SegmentHeader) : Buf :=
  ⟨2 * block, fun spot => if spot = 0 ∨ spot = block then .header header else .zero⟩

def headerBlock (header : SegmentHeader) : Buf :=
  ⟨block, fun spot => if spot = 0 then .header header else .zero⟩

namespace Segment

def fresh (firstBatch prevBatch file : Nat) (geometry : Geometry) : Segment where
  firstBatch
  prevBatch
  file
  geometry
  persistNext := Geometry.persistStart
  entryNext := geometry.entryStart
  live := 0

/-- Allocate a new segment file whole, write both headers and sync it. -/
def fillNew (file : Nat) (geometry : Geometry) (header : SegmentHeader) : Task IoError Unit := do
  allocate (.segment file) geometry.totalBlocks
  writeBlocks (.segment file) 0 (headerBlocks header)
  syncFile (.segment file)

def dropTemporary (first : Nat) : Task IoError Unit :=
  alterNames (fun names => names.temporaries.contains first) fun names =>
    { names with temporaries := names.temporaries.erase first }

def fillOrDelete (file : Nat) (geometry : Geometry) (header : SegmentHeader) :
    Task IoError Unit := do
  match ← (fillNew file geometry header).attempt with
  | .ok () => pure ()
  | .error error => do
      let _ : Except IoError Unit ← (dropTemporary header.firstBatch).attempt
      Proc.fail error

def create (header : SegmentHeader) : Task OpenError Segment := viaOpen do
  let left ← query fun disk => disk.names.temporaries.contains header.firstBatch
  Proc.when left (dropTemporary header.firstBatch)
  let file ← createFile .segment fun number names =>
    { names with temporaries := names.temporaries.insert header.firstBatch number }
  fillOrDelete file header.geometry header
  alterNames (fun names => names.temporaries.contains header.firstBatch) fun names =>
    { names with
      temporaries := names.temporaries.erase header.firstBatch
      segments := names.segments.alter header.firstBatch fun _ =>
        names.temporaries[header.firstBatch]? }
  syncDir
  let file ← openFile fun names => names.segments[header.firstBatch]?
  pure (fresh header.firstBatch header.prevBatch file header.geometry)

/-- Make the spare the segment for batches from `header.firstBatch` on: synced headers, then a
rename. -/
def adopt (spare : Nat) (header : SegmentHeader) : Task OpenError Segment := do
  let file ← viaOpen (openFile fun names => names.spares[spare]?)
  let size ← viaOpen (query fun disk => (disk.files (.segment file)).size)
  if size ≠ header.geometry.totalBlocks then
    Proc.fail (.badSegment header.firstBatch "the spare is not a whole segment")
  else viaOpen do
    writeBlocksDurable (.segment file) 0 (headerBlocks header)
    alterNames (fun names => names.spares.contains spare) fun names =>
      { names with
        spares := names.spares.erase spare
        segments := names.segments.alter header.firstBatch fun _ => names.spares[spare]? }
    syncDir
    let file ← openFile fun names => names.segments[header.firstBatch]?
    pure (fresh header.firstBatch header.prevBatch file header.geometry)

/-- The header two copies agree on and the block of the damaged copy, if one is. -/
def chooseHeader (firstBatch : Nat) (a b : Option SegmentHeader) :
    Except OpenError (SegmentHeader × Option Nat) :=
  match a, b with
  | some a, some b =>
    if a = b then .ok (a, none) else .error (.badSegment firstBatch "header copies disagree")
  | some a, none => .ok (a, some 1)
  | none, some b => .ok (b, some 0)
  | none, none => .error (.badSegment firstBatch "no valid header")

def checkHeader (firstBatch : Nat) (journal : JournalId) (geometry : Geometry)
    (header : SegmentHeader) : Except OpenError Unit :=
  if header.journal ≠ journal then .error (.wrongJournal header.journal)
  else if header.firstBatch ≠ firstBatch then
    .error (.badSegment firstBatch "header names another first batch")
  else if header.geometry ≠ geometry then
    .error (.badSegment firstBatch "header names another geometry")
  else .ok ()

def repairHeader (file : Nat) (header : SegmentHeader) : Option Nat → Task IoError Unit
  | some damaged => writeBlocksDurable (.segment file) (damaged * block) (headerBlock header)
  | none => pure ()

def openAt (firstBatch : Nat) (journal : JournalId) (geometry : Geometry) :
    Task OpenError (Segment × Bool) := do
  let file ← viaOpen (openFile fun names => names.segments[firstBatch]?)
  let size ← viaOpen (query fun disk => (disk.files (.segment file)).size)
  if size ≠ geometry.totalBlocks then
    Proc.fail (.badSegment firstBatch "wrong size")
  else do
    let content ← viaOpen (query fun disk => (disk.files (.segment file)).data.visible)
    let (header, damaged) ←
      Proc.lift (chooseHeader firstBatch (content 0).asHeader (content block).asHeader)
    Proc.lift (checkHeader firstBatch journal geometry header)
    viaOpen (repairHeader file header damaged)
    pure (fresh firstBatch header.prevBatch file geometry, damaged.isSome)

def fits (segment : Segment) (persistBlocks entryBytes : Nat) : Bool :=
  decide (segment.persistNext + persistBlocks * block ≤ segment.geometry.persistEnd) &&
    decide (segment.entryNext + entryBytes ≤ segment.geometry.entryEnd)

end Segment

/-- The first batches the header copies of a spare name for `journal`. -/
def namedBatches (content : Nat → Content) (journal : JournalId) : List Nat :=
  (([(content 0).asHeader, (content block).asHeader].filterMap fun copy => copy).filter
    fun header => decide (header.journal = journal)).map (·.firstBatch)

end Moonpool.Journal
