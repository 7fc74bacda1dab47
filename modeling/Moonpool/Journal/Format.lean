import Moonpool.Lib.Codec

/-!
Owns the journal's on-disk structures and the arithmetic the rest of it shares: the
geometry of a segment, the segment header, the persist record, the entry header, the
metainfo, and batch numbers (`format.rs`).

Structures are values here, not bytes: where each lives in a file and how a torn one
reads is owned by `Moonpool.Journal.Disk`.  The one checksum that is data (a record
names its entry's CRC) is over the entry header's bytes, so those are written out.

CRC32C is a parameter: any function of the bytes.
-/

namespace Moonpool.Journal

open Lib

/-- CRC32C, supplied by a library outside the repository. -/
class Crc32c where
  crc32c : List UInt8 → UInt32

/-- The unit of every transfer and the alignment of every region. -/
abbrev block : Nat := 4096

abbrev idSize : Nat := 24

abbrev recordSize : Nat := 64

abbrev recordsPerBlock : Nat := block / recordSize

/-- Most records one batch may hold: the index within a batch is a `u16`. -/
abbrev maxBatchRecords : Nat := 65535

/-- Largest caller metainfo: one block less the copy's own fields. -/
abbrev metaMax : Nat := 4092 - 80

abbrev metaCopyBAt : Nat := 16 * block

abbrev metaFileBlocks : Nat := 17

abbrev fitsU32 (value : Nat) : Prop := value < 2 ^ 32

def alignUp (value unit : Nat) : Nat :=
  (value + unit - 1) / unit * unit

theorem alignUp_ge (value : Nat) : value ≤ alignUp value block := by
  unfold alignUp block
  omega

theorem alignUp_of_mod {value : Nat} (aligned : value % block = 0) : alignUp value block = value := by
  unfold alignUp
  simp only [block] at *
  omega

theorem alignUp_mono {low high : Nat} (ordered : low ≤ high) :
    alignUp low block ≤ alignUp high block := by
  unfold alignUp block
  omega

/-! ### Identities -/

/-- A journal's identity, stamped in its meta file, segment headers and (32 bits) every entry. -/
structure JournalId where
  word : BitVec 128
deriving DecidableEq

abbrev Id : Type := Vector UInt8 idSize

def journalTag [Crc32c] (journal : JournalId) : UInt32 :=
  Crc32c.crc32c (littleEndian 16 journal.word.toNat)

def clearId (stop : UInt64) : Id :=
  Vector.ofFn fun index => if index.val < 8 then UInt8.ofNat (stop.toNat / 256 ^ index.val) else 0

def clearEnd (id : Id) : UInt64 :=
  UInt64.ofNat (ofLittleEndian (id.toList.take 8))

/-! ### Geometry -/

/-- The shape of a segment file: two header blocks, the persist log, a gap and the entry log. -/
structure Geometry where
  persistBlocks : Nat
  gapBlocks : Nat
  entryBlocks : Nat
deriving DecidableEq

namespace Geometry

variable (geometry : Geometry)

abbrev persistStart : Nat := 2 * block

def persistEnd : Nat :=
  persistStart + geometry.persistBlocks * block

def entryStart : Nat :=
  geometry.persistEnd + geometry.gapBlocks * block

def entryEnd : Nat :=
  geometry.entryStart + geometry.entryBlocks * block

def totalBlocks : Nat :=
  2 + geometry.persistBlocks + geometry.gapBlocks + geometry.entryBlocks

theorem entryEnd_eq :
    geometry.entryEnd = geometry.totalBlocks * block := by
  unfold entryEnd entryStart persistEnd totalBlocks
  simp only [persistStart, block]
  omega

theorem entryStart_aligned : geometry.entryStart % block = 0 := by
  unfold entryStart persistEnd
  simp only [persistStart, block]
  omega

/-- Every region is at least one block, and every entry offset fits a record's `u32`. -/
def isValid : Bool :=
  decide (1 ≤ geometry.persistBlocks) && decide (1 ≤ geometry.entryBlocks) &&
    decide (fitsU32 (geometry.totalBlocks * block))

def small : Geometry := ⟨8, 0, 16⟩

end Geometry

/-! ### Segment headers -/

/-- A segment's header: written once, in both copies, when it is created. -/
structure SegmentHeader where
  journal : JournalId
  firstBatch : Nat
  prevBatch : Nat
  geometry : Geometry
deriving DecidableEq

/-! ### Persist records and entries -/

/-- What a persist record (and the entry it describes) is. -/
inductive Kind where
  | put
  | clear
  /-- A record recovery discarded: a torn write in the last batch. -/
  | void
deriving DecidableEq

def Kind.toByte : Kind → UInt8
  | put => 1
  | clear => 2
  | void => 3

/-- A batch's flags, stamped in each of its records and entries. -/
abbrev flagOrdered : UInt8 := 1

/-- One persist record: it says, far from its entry, which entry was written. -/
structure Record where
  kind : Kind
  flags : UInt8
  index : Nat
  count : Nat
  batch : Nat
  position : UInt64
  id : Id
  offset : Nat
  len : Nat
  /-- The entry header's CRC: the entry this record names, exactly. -/
  entryCrc : UInt32
deriving DecidableEq

inductive Slot where
  | zero
  | damaged
  | valid (record : Record)
deriving DecidableEq

namespace Record

def clearEnd (record : Record) : UInt64 :=
  Journal.clearEnd record.id

/-- The byte offset, from the start of the batch's persist blocks, where record `index`
lives. -/
def slotOffset (index : Nat) : Nat :=
  index * recordSize

def blocksFor (count : Nat) : Nat :=
  alignUp (count * recordSize) block / block

end Record

structure EntryHeader where
  kind : Kind
  flags : UInt8
  index : Nat
  count : Nat
  batch : Nat
  position : UInt64
  id : Id
  len : Nat
  tag : UInt32
deriving DecidableEq

namespace EntryHeader

/-- Bytes the entry takes in the entry log: header, payload, padding to 8. -/
def footprint (len : Nat) : Nat :=
  alignUp (recordSize + len) 8

/-- The header with its CRC field zero: what the checksum covers in front of the payload. -/
def bytes (header : EntryHeader) : List UInt8 :=
  [0x4D, 0x50, 0x4A, 0x45] ++ littleEndian 4 header.len ++ littleEndian 8 header.batch ++
    littleEndian 8 header.position.toNat ++ littleEndian 2 header.index ++
    littleEndian 2 header.count ++ [header.kind.toByte, header.flags, 0, 0] ++
    header.id.toList ++ littleEndian 4 header.tag.toNat ++ [0, 0, 0, 0]

end EntryHeader

def entryCrc [Crc32c] (header : EntryHeader) (payload : List UInt8) : UInt32 :=
  Crc32c.crc32c (header.bytes ++ payload)

/-! ### Batch numbers -/

/-- Batch numbers carry the open generation that wrote them in their high bits. -/
abbrev generationShift : Nat := 40

def generationOf (batch : Nat) : Nat :=
  batch >>> generationShift

/-- The first batch number of a generation. The shift is a `u64`'s: bits past the top are gone. -/
def firstBatchOf (generation : Nat) : Nat :=
  (generation <<< generationShift) % 2 ^ 64 + 1

/-! ### Metainfo -/

structure Meta where
  /-- Bumped by every metainfo write; the higher of two valid copies wins. -/
  seq : Nat
  journal : JournalId
  floor : UInt64
  /-- The highest batch durable before this copy was written. -/
  lastBatch : Nat
  /-- The generation of the last open, bumped durably before an open writes anything. -/
  openGeneration : Nat
  openLast : Nat
  geometry : Geometry
  bytes : List UInt8
deriving DecidableEq

end Moonpool.Journal
