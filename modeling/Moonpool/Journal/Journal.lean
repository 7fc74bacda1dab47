import Moonpool.Journal.Index
import Moonpool.Journal.MetaFile

/-!
Owns the journal: create, open, commit, read (`journal.rs`).

Publishing regions to a simulator and counting them is left out: no journal state depends
on it.  Everything that touches the disk is a procedure, so a crash can cut it anywhere.
-/

namespace Moonpool.Journal

open Lib

set_option linter.dupNamespace false

variable [Crc32c]

/-! ### Configuration and state -/

inductive Durability where
  | batched
  /-- Entries durable, then records durable. -/
  | ordered
deriving DecidableEq

structure JournalConfig where
  durability : Durability
  geometry : Geometry
deriving DecidableEq

structure Recovery where
  corrupt : List (UInt64 × Id)
  ambiguous : List (UInt64 × Id)
  torn : Nat
  rebuilt : Nat
  metaRepaired : Bool
  headersRepaired : Nat
  segmentsRemoved : Nat
  sparesRemoved : Nat
  spareKept : Bool
deriving DecidableEq

structure Rolls where
  ontoSpare : Nat
  created : Nat
deriving DecidableEq

structure Journal extends Book where
  id : JournalId
  config : JournalConfig
  metaFile : Nat
  info : Meta
  lastBatch : Nat
  ambiguousBatch : Option Nat
  /-- This open's generation: the high bits of every batch it writes. -/
  generation : Nat
  poisoned : Bool
  /-- The spare, a dead segment's file kept for the next roll. -/
  spare : Option Nat
  /-- Spares this open has named: the number in the next one's name. -/
  sparesNamed : Nat
  rolls : Rolls

def Journal.tag (journal : Journal) : UInt32 :=
  journalTag journal.id

def checkConfig (config : JournalConfig) : Except OpenError Unit :=
  if config.geometry.isValid then .ok ()
  else .error (.invalidConfig "the geometry describes no usable segment")

/-! ### Reads -/

inductive ReadError where
  | empty (position : UInt64)
  | damaged (position : UInt64) (id : Id)
  /-- An assertion failed: the read unwound. -/
  | panicked (message : String)
deriving DecidableEq

structure Entry where
  position : UInt64
  id : Id
  payload : List UInt8
deriving DecidableEq

def recordOf (position : UInt64) (place : Located) : Record where
  kind := .put
  flags := place.flags
  index := place.index
  count := place.count
  batch := place.batch
  position := position
  id := place.id
  offset := place.offset
  len := place.len
  entryCrc := place.entryCrc

/-- The entry at `position` from the bytes at `place`: checked against its persist record. -/
def judge (tag : UInt32) (content : Nat → Content) (position : UInt64) (place : Located) :
    Except ReadError Entry :=
  match intactAt content place.offset with
  | some entry =>
    if entry.header.tag = tag ∧ entryMatches (recordOf position place) entry then
      .ok ⟨position, place.id, entry.payload⟩
    else
      .error (.damaged position place.id)
  | none => .error (.damaged position place.id)

namespace Journal

def read (journal : Journal) (shot : Shot) (position : UInt64) : Except ReadError Entry :=
  match journal.index[position]? with
  | none => .error (.empty position)
  | some place =>
    if place.damaged then .error (.damaged position place.id)
    else
      match Book.segmentFor journal.segments place.segment with
      | none => .error (.panicked "a located entry's segment is open")
      | some segment => judge journal.tag (shot.files (.segment segment.file)).content position place

end Journal

/-! ### Encoding a batch -/

/-- A batch encoded: its entries (from the batch's first one) and its persist records. -/
structure Prepared where
  seq : Nat
  entries : List (Nat × EntryImage)
  entriesLen : Nat
  decoded : List Record
  persistAt : Nat
  entryAt : Nat

def entryOf (tag : UInt32) (flags : UInt8) (seq count index : Nat) (write : Write) : EntryImage where
  header :=
    { kind := write.kind, flags, index, count, batch := seq, position := write.position,
      id := write.id, len := write.payload.length, tag }
  payload := write.payload

/-- The entries of a batch from the write at `index`, laid out back to back from `start`. -/
def layoutFrom (tag : UInt32) (flags : UInt8) (seq count : Nat) :
    Nat → Nat → List Write → List (Nat × EntryImage)
  | _, _, [] => []
  | index, start, write :: rest =>
    (start, entryOf tag flags seq count index write) ::
      layoutFrom tag flags seq count (index + 1)
        (start + EntryHeader.footprint write.payload.length) rest

/-- Where the entries of a batch laid out from `start` end. -/
def layoutEnd : Nat → List Write → Nat
  | start, [] => start
  | start, write :: rest => layoutEnd (start + EntryHeader.footprint write.payload.length) rest

/-- The postcondition of an encoder, that what it wrote decodes back. Fields have their widths by
type; what a decoder asks besides is an index below the count. -/
def checkRoundTrip (index count : Nat) : Except CommitError Unit :=
  if index < count then .ok ()
  else .error (.panicked "an encoded structure decodes back to itself")

/-- The checks of `EntryHeader::encode`, into `room` bytes. -/
def EntryImage.encode (entry : EntryImage) (room : Nat) : Except CommitError Unit :=
  if entry.payload.length ≠ entry.header.len then
    .error (.panicked "an entry header states its payload's length")
  else if room < recordSize + entry.payload.length then
    .error (.panicked "range end index out of range for slice")
  else
    checkRoundTrip entry.header.index entry.header.count

/-- Encode the entries into a buffer of `len` bytes; a record's `u32` takes each offset. -/
def encodeEntries (len : Nat) : List (Nat × EntryImage) → Except CommitError Unit
  | [] => .ok ()
  | (start, entry) :: rest =>
    match entry.encode (len - start) with
    | .error error => .error error
    | .ok () => if fitsU32 start then encodeEntries len rest else .error .batchTooLarge

/-- Move the records to their entries and encode them from `slot` on, into `len` bytes. -/
def encodeRecords (entryAt len : Nat) : Nat → List Record → Except CommitError (List Record)
  | _, [] => .ok []
  | slot, record :: rest =>
    if ¬ fitsU32 (entryAt + record.offset) then
      .error (.panicked "geometry bounds offsets to u32")
    else if len < (slot + 1) * recordSize then
      .error (.panicked "range end index out of range for slice")
    else
      match checkRoundTrip record.index record.count with
      | .error error => .error error
      | .ok () =>
        match encodeRecords entryAt len (slot + 1) rest with
        | .error error => .error error
        | .ok records => .ok ({ record with offset := entryAt + record.offset } :: records)

def recordFor (start : Nat) (entry : EntryImage) : Record where
  kind := entry.header.kind
  flags := entry.header.flags
  index := entry.header.index
  count := entry.header.count
  batch := entry.header.batch
  position := entry.header.position
  id := entry.header.id
  offset := start
  len := entry.header.len
  entryCrc := entryCrc entry.header entry.payload

def entriesBuf (len : Nat) (entries : List (Nat × EntryImage)) : Buf :=
  ⟨len, fun spot =>
    match entries.find? fun placed =>
        decide (placed.1 ≤ spot ∧ spot < placed.1 + placed.2.size) with
    | some (start, entry) => .entry entry (spot - start)
    | none => .zero⟩

def recordsBuf (records : List Record) : Buf :=
  ⟨Record.blocksFor records.length * block, fun spot =>
    if spot % recordSize = 0 then (records[spot / recordSize]?).elim .zero .record else .zero⟩

namespace Prepared

def entryBuf (prepared : Prepared) : Buf := entriesBuf prepared.entriesLen prepared.entries

def recordBuf (prepared : Prepared) : Buf := recordsBuf prepared.decoded

def place (prepared : Prepared) (persistAt entryAt : Nat) : Except CommitError Prepared :=
  if ¬ (persistAt % block = 0 ∧ entryAt % block = 0) then
    .error (.panicked "a batch starts on a fresh block in both logs")
  else
    match encodeRecords entryAt prepared.recordBuf.len 0 prepared.decoded with
    | .error error => .error error
    | .ok decoded => .ok { prepared with persistAt, entryAt, decoded }

end Prepared

namespace Journal

variable (journal : Journal)

/-- The number `prepare` gives the next batch, computed in a `u64`. -/
def nextSeq (generation lastBatch : Nat) : Nat :=
  if generationOf lastBatch = generation then (lastBatch + 1) % 2 ^ 64
  else firstBatchOf generation

def flagsOf : Durability → UInt8
  | .ordered => flagOrdered
  | .batched => 0

def prepare (batch : Batch) : Except CommitError Prepared :=
  let seq := nextSeq journal.generation journal.lastBatch
  let count := batch.writes.length
  let lens := batch.writes.map fun write => write.payload.length
  let footprint := Batch.entryBytes lens
  let entries := layoutFrom journal.tag (flagsOf journal.config.durability) seq count 0 0 batch.writes
  if ¬ journal.lastBatch < seq then .error (.panicked "batch numbers only grow")
  else if maxBatchRecords < count then .error .batchTooLarge
  else if ¬ lens.all (fun len => decide (fitsU32 len)) then .error .batchTooLarge
  else
    match encodeEntries (alignUp footprint block) entries with
    | .error error => .error error
    | .ok () =>
      -- the `u16` range zipped with the writes is asked for one index more than there are writes
      if 2 ^ 16 ≤ count + 1 then .error (.panicked "attempt to add with overflow")
      else if layoutEnd 0 batch.writes ≠ footprint then
        .error (.panicked "the entries fill the footprint they were sized for")
      else if journal.config.geometry.persistBlocks < Record.blocksFor count then
        .error (.panicked "a batch that fits holds its records in one persist log")
      else if journal.config.geometry.entryBlocks * block < alignUp footprint block then
        .error (.panicked "a batch that fits holds its entries in one entry log")
      else
        .ok
          { seq
            entries
            entriesLen := alignUp footprint block
            decoded := entries.map fun placed => recordFor placed.1 placed.2
            persistAt := 0
            entryAt := 0 }

/-! ### Spare segments -/

def nextSpareName : Nat × Journal :=
  (spareName journal.generation journal.sparesNamed,
    { journal with sparesNamed := (journal.sparesNamed + 1) % 2 ^ 32 })

/-- The front segment becomes the spare when there is none, else it is deleted; the directory is
synced before the next. -/
def retireFront (front : Segment) : Task (Journal × IoError) Journal :=
  match journal.spare with
  | none =>
    let (name, journal) := journal.nextSpareName
    Proc.mapError (journal, ·) do
      alterNames (fun names => names.segments.contains front.firstBatch) fun names =>
        { names with
          segments := names.segments.erase front.firstBatch
          spares := names.spares.alter name fun _ => names.segments[front.firstBatch]? }
      syncDir
      pure { journal with spare := some name }
  | some _ =>
    Proc.mapError (journal, ·) do
      alterNames (fun names => names.segments.contains front.firstBatch) fun names =>
        { names with segments := names.segments.erase front.firstBatch }
      syncDir
      pure journal

/-- Remove the leading segments that hold nothing live, never the active one. -/
def removeDead : Nat → Journal → Nat → Task (Journal × IoError) (Journal × Nat)
  | 0, journal, removed => pure (journal, removed)
  | steps + 1, journal, removed =>
    match journal.segments with
    | front :: next :: rest =>
      if front.live = 0 then do
        let journal ← journal.retireFront front
        removeDead steps { journal with segments := next :: rest } (removed + 1)
      else
        pure (journal, removed)
    | _ => pure (journal, removed)

def removeDeadSegments : Task (Journal × IoError) (Journal × Nat) :=
  removeDead journal.segments.length journal 0

/-! ### Commit -/

def segmentFor (prepared : Prepared) :
    Task (Journal × CommitError) (Journal × Segment) :=
  let persistBlocks := prepared.recordBuf.len / block
  match journal.segments.getLast? with
  | some last =>
    if last.fits persistBlocks prepared.entriesLen then pure (journal, last) else roll
  | none => roll
where
  roll : Task (Journal × CommitError) (Journal × Segment) := do
    let header : SegmentHeader :=
      ⟨journal.id, prepared.seq, journal.lastBatch, journal.config.geometry⟩
    let taken := { journal with spare := none }
    let made : Task OpenError Segment :=
      match journal.spare with
      | some spare => Segment.adopt spare header
      | none => Segment.create header
    match ← made.attempt with
    | .ok segment =>
      if segment.firstBatch ≠ prepared.seq then
        Proc.fail (taken, .panicked "rolled for this batch")
      else
        pure ({ taken with
          segments := journal.segments ++ [segment]
          rolls := if journal.spare.isSome then
              { journal.rolls with ontoSpare := journal.rolls.ontoSpare + 1 }
            else
              { journal.rolls with created := journal.rolls.created + 1 } }, segment)
    | .error error =>
      let cause : IoError := match error with
        | .io error => error
        | _ => .failed
      Proc.fail ({ taken with poisoned := true }, .io cause .no)

end Journal

/-- How many times a batched commit writes its batch again before it fails. -/
abbrev syncRetries : Nat := 2

def syncBatch (file : Nat) (prepared : Prepared) : Nat → Task IoError Unit
  | 0 => syncFile (.segment file)
  | retries + 1 => do
      match ← (syncFile (.segment file)).attempt with
      | .ok () => pure ()
      | .error (_ : IoError) => do
          writeBlocks (.segment file) prepared.entryAt prepared.entryBuf
          writeBlocks (.segment file) prepared.persistAt prepared.recordBuf
          syncBatch file prepared retries

def writeOrdered (file : Nat) (prepared : Prepared) : Task (IoError × Durable) Unit := do
  (writeBlocksDurable (.segment file) prepared.entryAt prepared.entryBuf).mapError (·, .no)
  (writeBlocksDurable (.segment file) prepared.persistAt prepared.recordBuf).mapError (·, .unknown)

def writeBatched (file : Nat) (prepared : Prepared) : Task (IoError × Durable) Unit := do
  (writeBlocks (.segment file) prepared.entryAt prepared.entryBuf).mapError (·, .no)
  (writeBlocks (.segment file) prepared.persistAt prepared.recordBuf).mapError (·, .unknown)
  (syncBatch file prepared syncRetries).mapError (·, .unknown)

/-- The commit protocol, then the metainfo: copy A once the batch is synced, copy B once copy A
is. -/
def writeProtocol (file metaFile : Nat) (prepared : Prepared) (info : Option Meta)
    (durability : Durability) : Task (IoError × Durable) Unit := do
  match durability with
  | .ordered => writeOrdered file prepared
  | .batched => writeBatched file prepared
  match info with
  | some info => (MetaFile.update metaFile info).mapError (·, .unknown)
  | none => pure ()

namespace Journal

variable (journal : Journal) (batch : Batch)

def raisedFloor : UInt64 :=
  batch.floor.elim journal.info.floor fun floor => max floor journal.info.floor

def firstBelow (floor : UInt64) (writes : List Write) : Option UInt64 :=
  writes.findSome? fun write =>
    match write with
    | .put position _ _ => if position < floor then some position else none
    | .clear _ _ _ => none

def metaChanges : Bool :=
  batch.info.isSome || decide (journal.raisedFloor batch ≠ journal.info.floor)

def nextMeta : Meta :=
  { journal.info with
    seq := journal.info.seq + 1
    floor := journal.raisedFloor batch
    lastBatch := journal.lastBatch
    bytes := batch.info.getD journal.info.bytes }

def withBook (book : Except String Book) :
    Task (Journal × CommitError) Journal :=
  match book with
  | .ok book => pure { journal with toBook := book }
  | .error message => Proc.fail (journal, .panicked message)

def afterCommit : Task (Journal × CommitError) Journal := do
  let journal ← journal.withBook (journal.toBook.dropBelowFloor journal.info.floor)
  let removal : Except (Journal × IoError) (Journal × Nat) ← journal.removeDeadSegments.attempt
  match removal with
  | .error (journal, error) =>
    Proc.fail ({ journal with poisoned := true }, .io error .unknown)
  | .ok (journal, _) =>
    match journal.toBook.assertInvariants journal.info with
    | .ok () => pure journal
    | .error message => Proc.fail (journal, .panicked message)

/-- The operations a durable batch applies, in staged order. -/
def opsOf (first persistAt : Nat) : Nat → List Record → List Write → List Op
  | index, record :: records, write :: writes =>
    (match write with
      | .put position _ _ => .put position (locatedOf first persistAt index record false)
      | .clear start stop _ => .clear start stop) ::
      opsOf first persistAt (index + 1) records writes
  | _, _, _ => []

def absorb (prepared : Prepared) (segment : Segment) :
    Task (Journal × CommitError) Journal := do
  let moved := journal.segments.map fun open_ =>
    if open_.firstBatch = segment.firstBatch then
      { open_ with
        persistNext := prepared.persistAt + prepared.recordBuf.len
        entryNext := prepared.entryAt + prepared.entriesLen }
    else
      open_
  let ops := opsOf segment.firstBatch prepared.persistAt 0 prepared.decoded batch.writes
  let journal ← journal.withBook (Book.applyAll ops ⟨moved, journal.index⟩)
  afterCommit
    { journal with
      lastBatch := prepared.seq
      ambiguousBatch := none
      info := if journal.metaChanges batch then journal.nextMeta batch else journal.info }

def commitWrites : Task (Journal × CommitError) Journal := do
  let prepared ← Proc.lift ((journal.prepare batch).mapError (journal, ·))
  let (journal, segment) ← journal.segmentFor prepared
  let prepared ← Proc.lift
    ((prepared.place segment.persistNext segment.entryNext).mapError (journal, ·))
  let info := if journal.metaChanges batch then some (journal.nextMeta batch) else none
  (writeProtocol segment.file journal.metaFile prepared info journal.config.durability).mapError
    fun failure => ({ journal with poisoned := true }, .io failure.1 failure.2)
  journal.absorb batch prepared segment

def commitMetaOnly : Task (Journal × CommitError) Journal :=
  if journal.metaChanges batch then do
    (MetaFile.update journal.metaFile (journal.nextMeta batch)).mapError
      fun error => ({ journal with poisoned := true }, .io error .unknown)
    afterCommit { journal with info := journal.nextMeta batch }
  else
    pure journal

def commit : Task (Journal × CommitError) Journal :=
  if journal.poisoned then Proc.fail (journal, .poisoned)
  else
    match firstBelow (journal.raisedFloor batch) batch.writes with
    | some position => Proc.fail (journal, .belowFloor position (journal.raisedFloor batch))
    | none =>
      if metaMax < (batch.info.getD []).length then
        Proc.fail (journal, .metaTooLarge (batch.info.getD []).length)
      else if ¬ batch.fits journal.config.geometry then Proc.fail (journal, .batchTooLarge)
      -- The number of the next metainfo is computed for every batch.
      else if 2 ^ 64 ≤ journal.info.seq + 1 then
        Proc.fail (journal, .panicked "attempt to add with overflow")
      else if batch.writes.isEmpty then journal.commitMetaOnly batch
      else journal.commitWrites batch

end Journal

/-! ### Create -/

def createJournal (id : JournalId) (config : JournalConfig) (bytes : List UInt8) :
    Task OpenError Journal := do
  Proc.lift (checkConfig config)
  if metaMax < bytes.length then
    Proc.fail (.invalidConfig "the first metainfo exceeds META_MAX")
  else do
    viaOpen syncDir
    let found ← viaOpen (query fun disk => disk.names.metaFile.isSome)
    if found then Proc.fail .alreadyExists
    else do
      let info : Meta := ⟨1, id, 0, 0, 1, 0, config.geometry, bytes⟩
      let metaFile ← MetaFile.create info
      pure
        { segments := [], index := ∅, id, config, metaFile, info, lastBatch := 0,
          ambiguousBatch := none, generation := 1, poisoned := false, spare := none,
          sparesNamed := 0, rolls := ⟨0, 0⟩ }

/-! ### Open -/

structure Listing where
  firsts : List Nat
  spares : List Nat

def deleteTemporaries : List Nat → Task IoError Unit
  | [] => pure ()
  | first :: rest => do
      alterNames (fun _ => true) fun names =>
        { names with temporaries := names.temporaries.erase first }
      deleteTemporaries rest

/-- The segments and spares, after removing what a crashed creation left. -/
def listSegments : Task OpenError Listing := viaOpen do
  let names ← query (·.names)
  syncDir
  MetaFile.removeLeftover
  deleteTemporaries names.temporaries.keys
  pure ⟨names.segments.keys, names.spares.keys⟩

def spareUsable (id : JournalId) (geometry : Geometry) (firsts : List Nat) (spare : Nat) :
    Task OpenError Bool := do
  let file ← viaOpen (openFile fun names => names.spares[spare]?)
  let size ← viaOpen (query fun disk => (disk.files (.segment file)).size)
  if size ≠ geometry.totalBlocks then pure false
  else do
    let content ← viaOpen (query fun disk => (disk.files (.segment file)).data.visible)
    pure (!(namedBatches content id).any fun batch => firsts.contains batch)

/-- Keep one whole spare and delete the others. One whose header names a listed segment is never
kept. -/
def keepOneSpare (id : JournalId) (geometry : Geometry) (firsts : List Nat) :
    List Nat → Option Nat → Nat → Task OpenError (Option Nat × Nat)
  | [], kept, removed => do
      Proc.when (decide (0 < removed)) (viaOpen syncDir)
      pure (kept, removed)
  | spare :: rest, kept, removed => do
      let judged : Task OpenError Bool :=
        if kept.isNone then spareUsable id geometry firsts spare else pure false
      let usable ← judged
      if usable then keepOneSpare id geometry firsts rest (some spare) removed
      else do
        viaOpen (alterNames (fun _ => true) fun names =>
          { names with spares := names.spares.erase spare })
        keepOneSpare id geometry firsts rest kept (removed + 1)

def openSegments (id : JournalId) (geometry : Geometry) :
    List Nat → Task OpenError (List Segment × Nat)
  | [] => pure ([], 0)
  | first :: rest => do
      let (segment, repaired) ← Segment.openAt first id geometry
      let (segments, count) ← openSegments id geometry rest
      pure (segment :: segments, repaired.toNat + count)

/-- A new generation, durable in both metainfo copies before any write. -/
def beginGeneration (metaFile : Nat) (info : Meta) (lastBatch : Nat) : Task OpenError Meta :=
  if 2 ^ 32 ≤ info.openGeneration + 1 then
    Proc.fail (.invalidConfig "open generations exhausted")
  else if 2 ^ 64 ≤ info.seq + 1 then
    Proc.fail (.panicked "attempt to add with overflow")
  else do
    let next := { info with
      seq := info.seq + 1
      lastBatch
      openGeneration := info.openGeneration + 1
      openLast := lastBatch }
    viaOpen (MetaFile.update metaFile next)
    pure next

/-- Write down the verdicts on a torn last batch: its entries reach the disk first. -/
def rewriteBatch (segments : List Segment) :
    Option (Nat × Nat × List Record) → Task OpenError Unit
  | none => pure ()
  | some (segmentIndex, offset, records) =>
    match segments[segmentIndex]? with
    | none => Proc.fail (.panicked "index out of bounds")
    | some segment => viaOpen do
        syncFile (.segment segment.file)
        writeBlocks (.segment segment.file) offset (recordsBuf records)

def syncSegments : List Segment → Task IoError Unit
  | [] => pure ()
  | segment :: rest => do
      syncFile (.segment segment.file)
      syncSegments rest

def withCursors (segments : List Segment) (cursors : List (Nat × Nat)) : List Segment :=
  segments.zipWith (fun segment cursor =>
    { segment with persistNext := cursor.1, entryNext := cursor.2 }) cursors

/-- The journal over what the scan found, before dead segments are removed. -/
def assemble (id : JournalId) (config : JournalConfig) (metaFile : Nat) (info : Meta)
    (segments : List Segment) (scanned : Scan) (spare : Option Nat) : Except String Journal :=
  match Book.applyAll scanned.ops ⟨segments, ∅⟩ with
  | .error message => .error message
  | .ok book =>
    match book.dropBelowFloor info.floor with
    | .error message => .error message
    | .ok book =>
      .ok
        { toBook := book, id, config, metaFile, info, lastBatch := scanned.lastBatch,
          ambiguousBatch := if scanned.ambiguous.isEmpty then none else some scanned.lastBatch,
          generation := info.openGeneration, poisoned := false, spare, sparesNamed := 0,
          rolls := ⟨0, 0⟩ }

def finishOpen (journal : Journal) (recovery : Recovery) :
    Task OpenError (Option (Journal × Recovery)) := do
  let removal : Except (Journal × IoError) (Journal × Nat) ← journal.removeDeadSegments.attempt
  match removal with
  | .error (_, error) => Proc.fail (.io error)
  | .ok (journal, removed) =>
    match journal.toBook.assertInvariants journal.info with
    | .error message => Proc.fail (.panicked message)
    | .ok () => pure (some (journal, { recovery with segmentsRemoved := removed }))

def recoverLog (id : JournalId) (config : JournalConfig) (listing : Listing) (metaFile : Nat)
    (info : Meta) (metaRepaired : Bool) : Task OpenError (Option (Journal × Recovery)) := do
  let (spare, sparesRemoved) ←
    keepOneSpare id config.geometry listing.firsts listing.spares none 0
  let (segments, headersRepaired) ← openSegments id config.geometry listing.firsts
  let shot ← viaOpen (query (·.shot))
  let scanned ← Proc.lift (scan (fun file => (shot.files (.segment file)).content) segments
    (journalTag id) ⟨info.openGeneration, info.openLast⟩)
  if scanned.lastBatch < info.lastBatch then
    Proc.fail (.lostBatch info.lastBatch)
  else do
    let segments := withCursors segments scanned.cursors
    rewriteBatch segments scanned.rewrite
    viaOpen (syncSegments segments)
    viaOpen (syncFile (.info metaFile))
    let info ← beginGeneration metaFile info scanned.lastBatch
    let journal ← Proc.lift
      ((assemble id config metaFile info segments scanned spare).mapError .panicked)
    finishOpen journal
      { corrupt := scanned.corrupt, ambiguous := scanned.ambiguous, torn := scanned.voided,
        rebuilt := scanned.rebuilt, metaRepaired, headersRepaired, segmentsRemoved := 0,
        sparesRemoved, spareKept := spare.isSome }

def openJournal (id : JournalId) (config : JournalConfig) :
    Task OpenError (Option (Journal × Recovery)) := do
  Proc.lift (checkConfig config)
  let listing ← listSegments
  let found ← MetaFile.openAt id
  match found with
  | none => if listing.firsts.isEmpty then pure none else Proc.fail .metaLost
  | some (metaFile, info, metaRepaired) =>
    if info.geometry ≠ config.geometry then
      Proc.fail (.invalidConfig
        "the geometry differs from the one the journal was created with")
    else
      recoverLog id config listing metaFile info metaRepaired

end Moonpool.Journal
