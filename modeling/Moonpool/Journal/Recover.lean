import Moonpool.Journal.Segment

/-!
Owns opening's scan over the persist log and the entry log of every segment
(`recover.rs`): pass 1 finds the batches (`scanSegment`), pass 2 judges every record
(`judgeBatch`).

The scan only reads, so it is a pure function of the files' bytes.  Its `while` loop over
batch boundaries takes a step count: every batch moves the boundary on by at least one
block, so the number of slots is enough.
-/

namespace Moonpool.Journal

variable [Crc32c]

structure Located where
  segment : Nat
  recordAt : Nat
  offset : Nat
  len : Nat
  entryCrc : UInt32
  id : Id
  batch : Nat
  index : Nat
  count : Nat
  flags : UInt8
  damaged : Bool
deriving DecidableEq

inductive Op where
  | put (position : UInt64) (place : Located)
  | clear (start stop : UInt64)
deriving DecidableEq

/-- What a slot of a batch turned out to be after pass 1. -/
inductive Found where
  | record (record : Record)
  | rebuilt (record : Record)
  /-- Both damaged, or the entry cannot be located. -/
  | lost
deriving DecidableEq

structure BatchScan where
  seq : Nat
  count : Nat
  persistAt : Nat
  slots : List Found
deriving DecidableEq

structure Scan where
  ops : List Op
  lastBatch : Nat
  /-- Per segment: where the next batch's persist records and entries go. -/
  cursors : List (Nat × Nat)
  corrupt : List (UInt64 × Id)
  ambiguous : List (UInt64 × Id)
  rebuilt : Nat
  voided : Nat
  /-- The last batch's persist extent rewritten: segment index, offset, records. -/
  rewrite : Option (Nat × Nat × List Record)
deriving DecidableEq

/-! ### Entries -/

def EntryImage.stored (entry : EntryImage) : UInt32 :=
  entryCrc entry.header entry.payload

/-- The intact entry of this journal at `offset`, inside the entry log. -/
def readEntry (geometry : Geometry) (content : Nat → Content) (offset : Nat) (tag : UInt32) :
    Option EntryImage :=
  if offset < geometry.entryStart ∨ geometry.entryEnd < offset + recordSize then
    none
  else
    (intactAt content offset).filter fun entry =>
      decide (entry.header.tag = tag) &&
        decide (offset + EntryHeader.footprint entry.header.len ≤ geometry.entryEnd)

def entryMatches (record : Record) (entry : EntryImage) : Bool :=
  decide (entry.header.kind = record.kind) && decide (entry.header.flags = record.flags) &&
    decide (entry.header.index = record.index) && decide (entry.header.count = record.count) &&
    decide (entry.header.batch = record.batch) &&
    decide (entry.header.position = record.position) && decide (entry.header.id = record.id) &&
    decide (entry.header.len = record.len) && decide (entry.stored = record.entryCrc)

def rebuild (entry : EntryImage) (offset : Nat) : Record where
  kind := entry.header.kind
  flags := entry.header.flags
  index := entry.header.index
  count := entry.header.count
  batch := entry.header.batch
  position := entry.header.position
  id := entry.header.id
  offset := offset
  len := entry.header.len
  entryCrc := entry.stored

/-! ### Staleness -/

/-- Which batch numbers are garbage: an earlier generation's, beyond what the next open found. -/
structure Stale where
  generation : Nat
  last : Nat

namespace Stale

def isStale (stale : Stale) (batch : Nat) : Bool :=
  decide (generationOf batch < stale.generation) && decide (stale.last < batch)

/-- Stale, or older than the segment that holds it: a recycled file's old batch. -/
def isStaleIn (stale : Stale) (first batch : Nat) : Bool :=
  decide (batch < first) || stale.isStale batch

end Stale

/-- The loss of the batch after `last`; its number is computed in a `u64`. -/
def lostAfter (last : Nat) : OpenError :=
  if last + 1 < 2 ^ 64 then .lostBatch (last + 1) else .panicked "attempt to add with overflow"

/-! ### Pass 1 -/

/-- Slot `index` of the persist log; a stale record reads as damage. -/
def readSlot (stale : Stale) (first : Nat) (content : Nat → Content) (index : Nat) : Slot :=
  match (content (Geometry.persistStart + index * recordSize)).asSlot with
  | .valid record => if stale.isStaleIn first record.batch then .damaged else .valid record
  | slot => slot

def firstValid (slot : Nat → Slot) (boundary slots : Nat) : Option (Nat × Record) :=
  (List.range' boundary (slots - boundary)).findSome? fun index =>
    match slot index with
    | .valid record => some (index, record)
    | _ => none

def shapeFromRecord (first last boundary : Nat) :
    Option (Nat × Record) → Except OpenError (Option (Nat × Nat))
  | none => .ok none
  | some (index, record) =>
    if index < record.index then
      .error (.panicked "attempt to subtract with overflow")
    else if index - record.index = boundary then
      if record.batch ≤ last ∨ record.batch < first then .error (lostAfter last)
      else .ok (some (record.batch, record.count))
    else
      .ok none

/-- The batch at this boundary from its first entry (every record damaged). -/
def shapeFromEntry (stale : Stale) (first last : Nat) :
    Option EntryImage → Option (Nat × Nat)
  | some entry =>
    if entry.header.index = 0 ∧ last < entry.header.batch ∧ first ≤ entry.header.batch ∧
        stale.isStale entry.header.batch = false then
      some (entry.header.batch, entry.header.count)
    else
      none
  | none => none

/-- Slot `index` of batch `seq` from the intact entry the walk stands at. -/
def rebuiltAt (geometry : Geometry) (content : Nat → Content) (tag : UInt32)
    (seq count index : Nat) : Option Nat → Except OpenError Found
  | none => .ok .lost
  | some offset =>
    match readEntry geometry content offset tag with
    | none => .ok .lost
    | some entry =>
      if entry.header.batch = seq ∧ entry.header.index = index ∧ entry.header.count = count then
        if fitsU32 offset then .ok (.rebuilt (rebuild entry offset))
        else .error (.panicked "geometry bounds offsets to u32")
      else
        .ok .lost

/-- What slot `index` of batch `seq` is: its valid record, else one rebuilt from the entry. -/
def foundAt (geometry : Geometry) (content : Nat → Content) (tag : UInt32)
    (seq count index : Nat) (slot : Slot) (walk : Option Nat) : Except OpenError Found :=
  match slot with
  | .valid record =>
    if record.batch = seq ∧ record.index = index ∧ record.count = count then
      .ok (.record record)
    else
      rebuiltAt geometry content tag seq count index walk
  | _ => rebuiltAt geometry content tag seq count index walk

/-- Where the entry after this slot's starts; a lost or void slot stops the walk. -/
def Found.walkNext : Found → Option Nat
  | .record kept | .rebuilt kept =>
    if kept.kind = .void then none else some (kept.offset + EntryHeader.footprint kept.len)
  | .lost => none

/-- Walk the slots of a batch from slot `index`: what each is, and where its entries end. -/
def walkSlots (geometry : Geometry) (content : Nat → Content) (tag : UInt32) (slot : Nat → Slot)
    (seq count boundary : Nat) :
    Nat → Nat → Option Nat → Nat → Except OpenError (List Found × Nat)
  | 0, _, _, entriesEnd => .ok ([], entriesEnd)
  | remaining + 1, index, walk, entriesEnd =>
    -- The slot's bytes are a slice of the persist log.
    if geometry.persistBlocks * recordsPerBlock ≤ boundary + index then
      .error (.panicked "range out of bounds for slice")
    else
      match foundAt geometry content tag seq count index (slot (boundary + index)) walk with
      | .error error => .error error
      | .ok here =>
        match walkSlots geometry content tag slot seq count boundary remaining (index + 1)
            here.walkNext (here.walkNext.elim entriesEnd fun stop => max entriesEnd stop) with
        | .error error => .error error
        | .ok (rest, final) => .ok (here :: rest, final)

structure ScanState where
  batches : List BatchScan
  last : Nat
  boundary : Nat
  entryCursor : Nat

section ScanSegment

variable (segment : Segment) (content : Nat → Content) (tag : UInt32) (stale : Stale)

def Segment.slots (segment : Segment) : Nat :=
  segment.geometry.persistBlocks * recordsPerBlock

/-- The batch at the next boundary: its number and record count. -/
def locateBatch (state : ScanState) : Except OpenError (Option (Nat × Nat)) :=
  let slot := readSlot stale segment.firstBatch content
  let found := firstValid slot state.boundary segment.slots
  match shapeFromRecord segment.firstBatch state.last state.boundary found with
  | .error error => .error error
  | .ok (some shape) => .ok (some shape)
  | .ok none =>
    match shapeFromEntry stale segment.firstBatch state.last
        (readEntry segment.geometry content state.entryCursor tag) with
    | some shape => .ok (some shape)
    | none => if found.isSome then .error (lostAfter state.last) else .ok none

def scanBatch (state : ScanState) : Except OpenError (Option ScanState) :=
  match locateBatch segment content tag stale state with
  | .error error => .error error
  | .ok none => .ok none
  | .ok (some (seq, count)) =>
    if segment.slots < state.boundary + count then .error (.lostBatch seq)
    else
      match walkSlots segment.geometry content tag (readSlot stale segment.firstBatch content)
          seq count state.boundary count 0 (some state.entryCursor) state.entryCursor with
      | .error error => .error error
      | .ok (slots, entriesEnd) =>
        .ok (some
          { batches := state.batches ++
              [⟨seq, count, Geometry.persistStart + state.boundary * recordSize, slots⟩]
            last := seq
            boundary := state.boundary + Record.blocksFor count * recordsPerBlock
            entryCursor := alignUp entriesEnd block })

def scanBatches : Nat → ScanState → Except OpenError ScanState
  | 0, state => .ok state
  | steps + 1, state =>
    if state.boundary < segment.slots then
      match scanBatch segment content tag stale state with
      | .error error => .error error
      | .ok none => .ok state
      | .ok (some next) => scanBatches steps next
    else
      .ok state

def scanSegment (prev : Nat) : Except OpenError (List BatchScan × Nat × Nat) :=
  match scanBatches segment content tag stale segment.slots
      ⟨[], prev, 0, segment.geometry.entryStart⟩ with
  | .error error => .error error
  | .ok final =>
    .ok (final.batches, Geometry.persistStart + final.boundary * recordSize, final.entryCursor)

end ScanSegment

/-! ### Pass 2 -/

structure Verdict where
  kept : Record
  op : Option Op
  damaged : Bool
  rebuilt : Bool
  voided : Bool
  rewrite : Bool

def voidRecord (seq count index : Nat) : Record where
  kind := .void
  flags := 0
  index := index
  count := count
  batch := seq
  position := 0
  id := Vector.replicate idSize 0
  offset := 0
  len := 0
  entryCrc := 0

def locatedOf (first persistAt index : Nat) (record : Record) (damaged : Bool) : Located where
  segment := first
  recordAt := persistAt + Record.slotOffset index
  offset := record.offset
  len := record.len
  entryCrc := record.entryCrc
  id := record.id
  batch := record.batch
  index := index
  count := record.count
  flags := record.flags
  damaged := damaged

def opOf (first persistAt index : Nat) (record : Record) (damaged : Bool) : Option Op :=
  match record.kind with
  | .void => none
  | .clear => some (.clear record.position record.clearEnd)
  | .put => some (.put record.position (locatedOf first persistAt index record damaged))

def entryDamaged (geometry : Geometry) (content : Nat → Content) (tag : UInt32)
    (record : Record) : Bool :=
  match readEntry geometry content record.offset tag with
  | some entry => !entryMatches record entry
  | none => true

def judgeSlot (segment : Segment) (content : Nat → Content) (tag : UInt32) (batch : BatchScan)
    (isLast : Bool) (index : Nat) : Found → Except OpenError Verdict
  | .record record =>
    let damaged := decide (record.kind = .put) && isLast &&
      entryDamaged segment.geometry content tag record
    .ok ⟨record, opOf segment.firstBatch batch.persistAt index record damaged, damaged,
      false, false, false⟩
  | .rebuilt record =>
    .ok ⟨record, opOf segment.firstBatch batch.persistAt index record false, false,
      true, false, isLast⟩
  | .lost =>
    if isLast then
      .ok ⟨voidRecord batch.seq batch.count index, none, false, false, true, true⟩
    else
      .error (.doubleFault batch.seq index)

/-- Judge the slots of `batch` from slot `index`. `(0u16..)` computes the number after each one it
gives, also the last, and the counts are `u32`s. -/
def judgeSlots (segment : Segment) (content : Nat → Content) (tag : UInt32) (batch : BatchScan)
    (isLast : Bool) : Nat → Nat → Nat → List Found → Except OpenError (List Verdict)
  | index, _, _, [] =>
    if 2 ^ 16 ≤ index + 1 then .error (.panicked "attempt to add with overflow") else .ok []
  | index, rebuilt, voided, found :: rest =>
    if 2 ^ 16 ≤ index + 1 then .error (.panicked "attempt to add with overflow")
    else
      match judgeSlot segment content tag batch isLast index found with
      | .error error => .error error
      | .ok verdict =>
        let rebuilt := rebuilt + verdict.rebuilt.toNat
        let voided := voided + verdict.voided.toNat
        if 2 ^ 32 ≤ rebuilt ∨ 2 ^ 32 ≤ voided then
          .error (.panicked "attempt to add with overflow")
        else
          match judgeSlots segment content tag batch isLast (index + 1) rebuilt voided rest with
          | .error error => .error error
          | .ok verdicts => .ok (verdict :: verdicts)

def damagedOf (ordered : Bool) (verdicts : List Verdict) : List (UInt64 × Id) :=
  verdicts.filterMap fun verdict =>
    if verdict.damaged ∧ decide (verdict.kept.flags &&& flagOrdered ≠ 0) = ordered then
      some (verdict.kept.position, verdict.kept.id)
    else
      none

def judgeBatch (segment : Segment) (segmentIndex : Nat) (content : Nat → Content) (tag : UInt32)
    (batch : BatchScan) (isLast : Bool) (out : Scan) : Except OpenError Scan :=
  match judgeSlots segment content tag batch isLast 0 out.rebuilt out.voided batch.slots with
  | .error error => .error error
  | .ok verdicts =>
    .ok { out with
      ops := out.ops ++ verdicts.filterMap (·.op)
      corrupt := out.corrupt ++ damagedOf true verdicts
      ambiguous := out.ambiguous ++ damagedOf false verdicts
      rebuilt := out.rebuilt + verdicts.countP (·.rebuilt)
      voided := out.voided + verdicts.countP (·.voided)
      rewrite := if verdicts.any (·.rewrite) then
          some (segmentIndex, batch.persistAt, verdicts.map (·.kept))
        else
          out.rewrite }

/-- Pass 2 for the batches of one segment; `final` when no later segment holds a batch. -/
def judgeBatches (segment : Segment) (segmentIndex : Nat) (content : Nat → Content) (tag : UInt32)
    (final : Bool) : List BatchScan → Scan → Except OpenError Scan
  | [], out => .ok out
  | batch :: rest, out =>
    match judgeBatch segment segmentIndex content tag batch (final && rest.isEmpty) out with
    | .error error => .error error
    | .ok out => judgeBatches segment segmentIndex content tag final rest out

def scanSegments (files : Nat → Nat → Content) (tag : UInt32) (stale : Stale) :
    List Segment → Nat → Except OpenError (List (List BatchScan × Nat × Nat) × Nat)
  | [], last => .ok ([], last)
  | segment :: rest, last =>
    if segment.prevBatch ≠ last then .error (lostAfter last)
    else
      match scanSegment segment (files segment.file) tag stale last with
      | .error error => .error error
      | .ok scanned =>
        match scanSegments files tag stale rest
            (scanned.1.getLast?.elim last fun batch => batch.seq) with
        | .error error => .error error
        | .ok (more, final) => .ok (scanned :: more, final)

def judgeSegments (files : Nat → Nat → Content) (tag : UInt32) :
    Nat → List Segment → List (List BatchScan × Nat × Nat) → Scan → Except OpenError Scan
  | segmentIndex, segment :: segments, scanned :: rest, out =>
    match judgeBatches segment segmentIndex (files segment.file) tag
        (rest.all fun later => later.1.isEmpty) scanned.1
        { out with cursors := out.cursors ++ [scanned.2] } with
    | .error error => .error error
    | .ok out => judgeSegments files tag (segmentIndex + 1) segments rest out
  | _, _, _, out => .ok out

def scan (files : Nat → Nat → Content) (segments : List Segment) (tag : UInt32) (stale : Stale) :
    Except OpenError Scan :=
  match scanSegments files tag stale segments (segments.head?.elim 0 (·.prevBatch)) with
  | .error error => .error error
  | .ok (perSegment, last) =>
    judgeSegments files tag 0 segments perSegment ⟨[], last, [], [], [], 0, 0, none⟩

end Moonpool.Journal
