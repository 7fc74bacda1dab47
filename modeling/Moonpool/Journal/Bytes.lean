import Moonpool.Lib.Layout
import Moonpool.Journal.Format

/-!
Owns the bytes of the journal's structures (`format.rs`): how a persist record, an entry, a
segment header and a metainfo copy are laid out, and what a decoder makes of any bytes.

Each structure is a list of fields at their offsets, over zeros, under a checksum.  The
decoders are proved against the fields, not against the encoder: bytes that hold the fields
of a value decode to it, and bytes that decode to a value hold its fields.
-/

namespace Moonpool.Journal

open Lib List

variable [Crc32c] (bytes : List UInt8)

/-! ### Fields -/

def getLE (start width : Nat) : Nat := ofLittleEndian (bytesAt bytes start width)

def byteAt (index : Nat) : UInt8 := bytes.getD index 0

def idAt (start : Nat) : Id := Vector.ofFn fun index => byteAt bytes (start + index)

def Holds (fields : List (Nat × List UInt8)) : Prop :=
  ∀ field ∈ fields, bytesAt bytes field.1 field.2.length = field.2

def Checked (crcAt : Nat) : Prop :=
  getLE bytes crcAt 4 = (Crc32c.crc32c (bytes.take crcAt)).toNat

instance (bytes : List UInt8) (crcAt : Nat) : Decidable (Checked bytes crcAt) :=
  inferInstanceAs (Decidable (_ = _))

/-- Fields over `size` zeros, and the checksum of everything before `crcAt`. -/
def sealed (size crcAt : Nat) (fields : List (Nat × List UInt8)) : List UInt8 :=
  let body := fields.foldl put (replicate size 0)
  put body (crcAt, littleEndian 4 (Crc32c.crc32c (body.take crcAt)).toNat)

section Fields

variable {bytes : List UInt8} {fields : List (Nat × List UInt8)} {start width value size crcAt : Nat}

omit [Crc32c]

theorem littleEndian_getLE (inside : start + width ≤ bytes.length) :
    bytesAt bytes start width = littleEndian width (getLE bytes start width) := by
  have back := littleEndian_ofLittleEndian (bytesAt bytes start width)
  rw [bytesAt_length inside] at back
  exact back.symm

theorem getLE_lt (bytes : List UInt8) (start width : Nat) : getLE bytes start width < 256 ^ width := by
  refine lt_of_lt_of_le (ofLittleEndian_lt _) (Nat.pow_le_pow_right (by decide) ?_)
  exact length_take_le _ _

theorem bytesAt_byteAt (inside : start + 1 ≤ bytes.length) :
    bytesAt bytes start 1 = [byteAt bytes start] := by
  apply ext_getElem?
  intro index
  rw [bytesAt_getElem?]
  cases index with
  | zero => simp [byteAt, getElem?_eq_getElem (show start < bytes.length by omega)]
  | succ index => rfl

theorem bytesAt_idAt (inside : start + idSize ≤ bytes.length) :
    bytesAt bytes start idSize = (idAt bytes start).toList := by
  apply ext_getElem?
  intro index
  rw [bytesAt_getElem?]
  split
  next below =>
    rw [Vector.getElem?_toList, Vector.getElem?_eq_getElem below,
      getElem?_eq_getElem (show start + index < bytes.length by omega)]
    simp [idAt, byteAt, getElem?_eq_getElem (show start + index < bytes.length by omega)]
  next past => exact (getElem?_eq_none (by simpa using past)).symm

@[simp] theorem number_iff (inside : start + width ≤ bytes.length) (fits : value < 256 ^ width) :
    bytesAt bytes start width = littleEndian width value ↔ getLE bytes start width = value := by
  rw [littleEndian_getLE inside]
  constructor
  · intro same
    have read := congrArg ofLittleEndian same
    rwa [ofLittleEndian_littleEndian fits, ofLittleEndian_littleEndian (getLE_lt _ _ _)] at read
  · rintro rfl
    rfl

@[simp] theorem octet_iff {octet : UInt8} (inside : start + 1 ≤ bytes.length) :
    bytesAt bytes start 1 = [octet] ↔ byteAt bytes start = octet := by
  rw [bytesAt_byteAt inside, singleton_inj]

@[simp] theorem identity_iff {id : Id} (inside : start + 24 ≤ bytes.length) :
    bytesAt bytes start idSize = id.toList ↔ idAt bytes start = id := by
  rw [bytesAt_idAt inside, Vector.toList_inj]

theorem fits32 (word : UInt32) : word.toNat < 256 ^ 4 := word.toNat_lt

theorem fits64 (word : UInt64) : word.toNat < 256 ^ 8 := word.toNat_lt

theorem fits128 (word : BitVec 128) : word.toNat < 256 ^ 16 := word.isLt

theorem toNat_getLE32 (bytes : List UInt8) (start : Nat) :
    (UInt32.ofNat (getLE bytes start 4)).toNat = getLE bytes start 4 :=
  UInt32.toNat_ofNat_of_lt' (getLE_lt bytes start 4)

theorem toNat_getLE64 (bytes : List UInt8) (start : Nat) :
    (UInt64.ofNat (getLE bytes start 8)).toNat = getLE bytes start 8 :=
  UInt64.toNat_ofNat_of_lt' (getLE_lt bytes start 8)

theorem toNat_getLE128 (bytes : List UInt8) (start : Nat) :
    (BitVec.ofNat 128 (getLE bytes start 16)).toNat = getLE bytes start 16 :=
  Nat.mod_eq_of_lt (getLE_lt bytes start 16)

end Fields

section Sealed

variable {fields : List (Nat × List UInt8)} {size crcAt : Nat}

theorem sealed_length : (sealed size crcAt fields).length = size := by
  rw [sealed, put_length, puts_length, length_replicate]

theorem sealed_holds (chain : fields.IsChain Before)
    (inside : ∀ field ∈ fields, field.1 + field.2.length ≤ crcAt) (room : crcAt + 4 ≤ size) :
    Holds (sealed size crcAt fields) fields ∧ Checked (sealed size crcAt fields) crcAt := by
  have whole : (fields.foldl put (replicate size 0)).length = size := by
    rw [puts_length, length_replicate]
  constructor
  · intro field member
    rw [sealed, bytesAt_put_of_apart (.inl (inside field member))]
    refine bytesAt_puts chain (fun other within => ?_) member
    rw [length_replicate]
    exact le_trans (inside other within) (Nat.le_of_add_right_le room)
  · have front : (sealed size crcAt fields).take crcAt =
        (fields.foldl put (replicate size 0)).take crcAt :=
      @bytesAt_put_of_apart _ (crcAt, _) 0 crcAt (.inl (le_of_eq (zero_add _)))
    rw [Checked, front, getLE, sealed]
    have read := @bytesAt_put (fields.foldl put (replicate size 0)) (crcAt, littleEndian 4
      (Crc32c.crc32c ((fields.foldl put (replicate size 0)).take crcAt)).toNat)
      (by rw [littleEndian_length, whole]; exact room)
    rw [littleEndian_length] at read
    rw [read, ofLittleEndian_littleEndian (UInt32.toNat_lt _)]

end Sealed

/-! ### Persist records -/

def Kind.fromByte (byte : UInt8) : Option Kind :=
  if byte = 1 then some .put else if byte = 2 then some .clear
  else if byte = 3 then some .void else none

omit [Crc32c] in
theorem Kind.fromByte_eq_some {byte : UInt8} {kind : Kind} :
    fromByte byte = some kind ↔ byte = kind.toByte := by
  unfold fromByte
  constructor
  · intro found
    split at found
    next one => cases found; exact one
    split at found
    next two => cases found; exact two
    split at found
    next three => cases found; exact three
    next => cases found
  · rintro rfl
    cases kind <;> decide

omit [Crc32c] in
@[simp] theorem Kind.fromByte_toByte (kind : Kind) : fromByte kind.toByte = some kind :=
  fromByte_eq_some.mpr rfl

namespace Record

structure Sized (record : Record) : Prop where
  index : record.index < 256 ^ 2
  count : record.count < 256 ^ 2
  batch : record.batch < 256 ^ 8
  offset : record.offset < 256 ^ 4
  len : record.len < 256 ^ 4

def fields (record : Record) : List (Nat × List UInt8) :=
  [(0, [record.kind.toByte]), (1, [record.flags]), (2, littleEndian 2 record.index),
    (4, littleEndian 4 record.len), (8, littleEndian 8 record.batch),
    (16, littleEndian 8 record.position.toNat), (24, littleEndian 4 record.offset),
    (28, littleEndian 4 record.entryCrc.toNat), (32, record.id.toList),
    (56, littleEndian 2 record.count)]

def encode (record : Record) : List UInt8 := sealed recordSize 60 record.fields

def decode (bytes : List UInt8) : Slot :=
  let bytes := bytes.take recordSize
  if bytes.all (· = 0) then .zero
  else if ¬ Checked bytes 60 then .damaged
  else
    match Kind.fromByte (byteAt bytes 0) with
    | none => .damaged
    | some kind =>
      let record : Record :=
        { kind, flags := byteAt bytes 1, index := getLE bytes 2 2, len := getLE bytes 4 4
          batch := getLE bytes 8 8, position := UInt64.ofNat (getLE bytes 16 8)
          offset := getLE bytes 24 4, entryCrc := UInt32.ofNat (getLE bytes 28 4)
          id := idAt bytes 32, count := getLE bytes 56 2 }
      if record.count ≤ record.index then .damaged else .valid record

variable {record : Record} {bytes : List UInt8}

theorem encode_holds (record : Record) :
    Holds record.encode record.fields ∧ Checked record.encode 60 := by
  refine sealed_holds ?_ ?_ (by decide)
  · simp [fields, Before, idSize]
  · simp [fields, idSize]

theorem decode_of_holds (long : bytes.length = recordSize) (holds : Holds bytes record.fields)
    (checked : Checked bytes 60) (sized : record.Sized) (within : record.index < record.count) :
    decode bytes = .valid record := by
  simp [-Nat.reducePow, Holds, fields, long, recordSize, sized.index, sized.len, sized.batch,
    sized.offset, sized.count, fits32, fits64] at holds
  have nonzero : bytes.all (· = 0) = false := by
    rw [all_eq_false]
    refine ⟨byteAt bytes 0, ?_, ?_⟩
    · rw [byteAt, getD_eq_getElem?_getD, getElem?_eq_getElem (by rw [long]; decide)]
      exact getElem_mem _
    · rw [holds.1]
      cases record.kind <;> decide
  simp [decode, take_of_length_le (le_of_eq long), nonzero, checked, holds,
    not_le.mpr within]

theorem holds_of_decode (long : bytes.length = recordSize) (decoded : decode bytes = .valid record) :
    Holds bytes record.fields ∧ Checked bytes 60 ∧ record.Sized ∧ record.index < record.count := by
  simp only [decode, take_of_length_le (le_of_eq long)] at decoded
  split at decoded
  next => cases decoded
  split at decoded
  next => cases decoded
  next checked =>
    split at decoded
    next => cases decoded
    next kind found =>
      split at decoded
      next => cases decoded
      next within =>
        cases decoded
        refine ⟨?_, not_not.mp checked, ⟨getLE_lt _ _ _, getLE_lt _ _ _, getLE_lt _ _ _,
          getLE_lt _ _ _, getLE_lt _ _ _⟩, Nat.lt_of_not_le within⟩
        simp [-Nat.reducePow, -UInt64.toNat_ofNat', -UInt32.toNat_ofNat', Holds, fields, long,
          recordSize, getLE_lt, toNat_getLE32, toNat_getLE64, Kind.fromByte_eq_some.mp found]

end Record

/-! ### Segment headers -/

/-- `MPJS`, `MPJE` and `MPJM`, read as numbers. -/
abbrev segmentMagic : Nat := 0x534A504D

abbrev entryMagic : Nat := 0x454A504D

abbrev metaMagic : Nat := 0x4D4A504D

/-- Segments are recycled, so a batch older than its segment is stale. -/
abbrev version : Nat := 3

structure Geometry.Sized (geometry : Geometry) : Prop where
  persist : geometry.persistBlocks < 256 ^ 4
  gap : geometry.gapBlocks < 256 ^ 4
  entry : geometry.entryBlocks < 256 ^ 4

namespace SegmentHeader

structure Sized (header : SegmentHeader) : Prop where
  firstBatch : header.firstBatch < 256 ^ 8
  prevBatch : header.prevBatch < 256 ^ 8
  geometry : header.geometry.Sized

def fields (header : SegmentHeader) : List (Nat × List UInt8) :=
  [(0, littleEndian 4 segmentMagic), (4, littleEndian 2 version),
    (8, littleEndian 16 header.journal.word.toNat), (24, littleEndian 8 header.firstBatch),
    (32, littleEndian 4 header.geometry.persistBlocks),
    (36, littleEndian 4 header.geometry.gapBlocks),
    (40, littleEndian 4 header.geometry.entryBlocks), (44, littleEndian 8 header.prevBatch)]

def encode (header : SegmentHeader) : List UInt8 := sealed block 52 header.fields

def decode (bytes : List UInt8) : Option SegmentHeader :=
  if getLE bytes 0 4 ≠ segmentMagic ∨ getLE bytes 4 2 ≠ version ∨ ¬ Checked bytes 52 then none
  else some
    { journal := ⟨BitVec.ofNat 128 (getLE bytes 8 16)⟩, firstBatch := getLE bytes 24 8
      prevBatch := getLE bytes 44 8
      geometry := ⟨getLE bytes 32 4, getLE bytes 36 4, getLE bytes 40 4⟩ }

variable {header : SegmentHeader} {bytes : List UInt8}

theorem encode_holds (header : SegmentHeader) :
    Holds header.encode header.fields ∧ Checked header.encode 52 := by
  refine sealed_holds ?_ ?_ (by decide)
  · simp [fields, Before]
  · simp [fields]

theorem decode_of_holds (long : bytes.length = block) (holds : Holds bytes header.fields)
    (checked : Checked bytes 52) (sized : header.Sized) : decode bytes = some header := by
  have magic : segmentMagic < 256 ^ 4 := by decide
  have numbered : version < 256 ^ 2 := by decide
  simp [-Nat.reducePow, Holds, fields, long, block, sized.firstBatch, sized.prevBatch,
    sized.geometry.persist, sized.geometry.gap, sized.geometry.entry, fits128, magic,
    numbered] at holds
  simp [decode, checked, holds]

theorem holds_of_decode (long : bytes.length = block) (decoded : decode bytes = some header) :
    Holds bytes header.fields ∧ Checked bytes 52 ∧ header.Sized := by
  unfold decode at decoded
  split at decoded
  next => cases decoded
  next plain =>
    cases decoded
    simp only [not_or, not_not, ne_eq] at plain
    obtain ⟨magic, written, checked⟩ := plain
    refine ⟨?_, checked, getLE_lt _ _ _, getLE_lt _ _ _, getLE_lt _ _ _, getLE_lt _ _ _,
      getLE_lt _ _ _⟩
    have plainMagic : segmentMagic < 256 ^ 4 := by decide
    have numbered : version < 256 ^ 2 := by decide
    simp [-Nat.reducePow, -BitVec.toNat_ofNat, Holds, fields, long, block, getLE_lt, toNat_getLE128,
      magic, written, plainMagic, numbered]

end SegmentHeader

/-! ### Entries -/

/-- The checksum of an entry: over its header with the checksum zero, and its payload. -/
def entryCrcOf (head payload : List UInt8) : UInt32 :=
  Crc32c.crc32c (put (head.take recordSize) (60, littleEndian 4 0) ++ payload)

namespace EntryHeader

structure Sized (header : EntryHeader) : Prop where
  index : header.index < 256 ^ 2
  count : header.count < 256 ^ 2
  batch : header.batch < 256 ^ 8
  len : header.len < 256 ^ 4

def fields (header : EntryHeader) : List (Nat × List UInt8) :=
  [(0, littleEndian 4 entryMagic), (4, littleEndian 4 header.len),
    (8, littleEndian 8 header.batch), (16, littleEndian 8 header.position.toNat),
    (24, littleEndian 2 header.index), (26, littleEndian 2 header.count),
    (28, [header.kind.toByte]), (29, [header.flags]), (32, header.id.toList),
    (56, littleEndian 4 header.tag.toNat)]

def head (header : EntryHeader) : List UInt8 :=
  header.fields.foldl put (replicate recordSize 0)

def encode (header : EntryHeader) (payload : List UInt8) : List UInt8 :=
  put header.head (60, littleEndian 4 (entryCrcOf header.head payload).toNat) ++ payload

def parse (bytes : List UInt8) : Option (EntryHeader × UInt32) :=
  if bytes.length < recordSize ∨ getLE bytes 0 4 ≠ entryMagic then none
  else
    match Kind.fromByte (byteAt bytes 28) with
    | none => none
    | some kind =>
      let header : EntryHeader :=
        { kind, flags := byteAt bytes 29, index := getLE bytes 24 2, count := getLE bytes 26 2
          batch := getLE bytes 8 8, position := UInt64.ofNat (getLE bytes 16 8)
          id := idAt bytes 32, len := getLE bytes 4 4, tag := UInt32.ofNat (getLE bytes 56 4) }
      if header.index < header.count then some (header, UInt32.ofNat (getLE bytes 60 4)) else none

variable {header : EntryHeader} {bytes : List UInt8} {stored : UInt32}

omit [Crc32c] in
theorem parse_of_holds (long : recordSize ≤ bytes.length) (holds : Holds bytes header.fields)
    (sized : header.Sized) (within : header.index < header.count) :
    parse bytes = some (header, UInt32.ofNat (getLE bytes 60 4)) := by
  have inside {past : Nat} (within : past ≤ 64) : past ≤ bytes.length := le_trans within long
  have magic : entryMagic < 256 ^ 4 := by decide
  simp [-Nat.reducePow, Holds, fields, inside, sized.index, sized.count, sized.batch, sized.len,
    fits32, fits64, magic] at holds
  simp [parse, not_lt.mpr long, holds, within]

omit [Crc32c] in
theorem holds_of_parse (parsed : parse bytes = some (header, stored)) :
    recordSize ≤ bytes.length ∧ Holds bytes header.fields ∧ header.Sized ∧
      header.index < header.count := by
  unfold parse at parsed
  split at parsed
  next => cases parsed
  next plain =>
    simp only [not_or, not_lt, not_not, ne_eq] at plain
    obtain ⟨long, magic⟩ := plain
    split at parsed
    next => cases parsed
    next kind found =>
      simp only at parsed
      split at parsed
      next within =>
        cases parsed
        refine ⟨long, ?_, ⟨getLE_lt _ _ _, getLE_lt _ _ _, getLE_lt _ _ _, getLE_lt _ _ _⟩, within⟩
        have inside {past : Nat} (within : past ≤ 64) : past ≤ bytes.length :=
          le_trans within long
        have plainMagic : entryMagic < 256 ^ 4 := by decide
        simp [-Nat.reducePow, -UInt64.toNat_ofNat', -UInt32.toNat_ofNat', Holds, fields, inside,
          getLE_lt, toNat_getLE32, toNat_getLE64, magic, plainMagic,
          Kind.fromByte_eq_some.mp found]
      next => cases parsed

theorem encode_eq (header : EntryHeader) (payload : List UInt8) :
    (header.encode payload).length = recordSize + payload.length ∧
      Holds (header.encode payload) header.fields ∧
      getLE (header.encode payload) 60 4 = (entryCrcOf header.head payload).toNat ∧
      entryCrcOf (header.encode payload) payload = entryCrcOf header.head payload := by
  have long : header.head.length = recordSize := by
    rw [head, puts_length, length_replicate]
  have inside : ∀ field ∈ header.fields, field.1 + field.2.length ≤ 60 := by simp [fields, idSize]
  obtain ⟨sum, written⟩ : ∃ sum, littleEndian 4 (entryCrcOf header.head payload).toNat = sum :=
    ⟨_, rfl⟩
  have four : sum.length = 4 := by rw [← written, littleEndian_length]
  have whole : header.encode payload = put header.head (60, sum) ++ payload := by
    rw [encode, written]
  have room : 60 + sum.length ≤ header.head.length := by simp [four, long, recordSize]
  refine ⟨by simp [whole, long], fun field member => ?_, ?_, ?_⟩
  · rw [whole, bytesAt_append_left (by
        rw [put_length, long]; exact le_trans (inside field member) (by decide)),
      bytesAt_put_of_apart (.inl (inside field member))]
    refine bytesAt_puts (by simp [fields, Before, idSize]) (fun other within => ?_) member
    exact le_trans (inside other within) (by decide)
  · have read : bytesAt (put header.head (60, sum)) 60 sum.length = sum := bytesAt_put room
    rw [getLE, whole, ← four, bytesAt_append_left (by rw [put_length]; exact room), read, ← written,
      ofLittleEndian_littleEndian (UInt32.toNat_lt _)]
  · have front : (header.encode payload).take recordSize = put header.head (60, sum) := by
      rw [whole, take_left' (by rw [put_length, long])]
    have zeroed : put (put header.head (60, sum)) (60, littleEndian 4 0) =
        put header.head (60, littleEndian 4 0) :=
      @put_put header.head (60, littleEndian 4 0) sum (by rw [four, littleEndian_length])
    have whole : header.head.take recordSize = header.head :=
      take_of_length_le (le_of_eq long)
    rw [entryCrcOf, front, zeroed, entryCrcOf, whole]

end EntryHeader

/-! ### Metainfo copies -/

namespace Meta

structure Sized (info : Meta) : Prop where
  seq : info.seq < 256 ^ 8
  lastBatch : info.lastBatch < 256 ^ 8
  openLast : info.openLast < 256 ^ 8
  openGeneration : info.openGeneration < 256 ^ 4
  geometry : info.geometry.Sized
  bytes : info.bytes.length ≤ metaMax

def fields (info : Meta) (copy : UInt8) : List (Nat × List UInt8) :=
  [(0, littleEndian 4 metaMagic), (4, littleEndian 2 version), (6, [copy]),
    (8, littleEndian 16 info.journal.word.toNat), (24, littleEndian 8 info.seq),
    (32, littleEndian 8 info.floor.toNat), (40, littleEndian 8 info.lastBatch),
    (48, littleEndian 4 info.geometry.persistBlocks), (52, littleEndian 4 info.geometry.gapBlocks),
    (56, littleEndian 4 info.geometry.entryBlocks), (64, littleEndian 8 info.openLast),
    (72, littleEndian 4 info.openGeneration), (76, littleEndian 4 info.bytes.length),
    (80, info.bytes)]

def encode (info : Meta) (copy : UInt8) : List UInt8 := sealed block 4092 (info.fields copy)

def decode (bytes : List UInt8) (copy : UInt8) : Option Meta :=
  if getLE bytes 0 4 ≠ metaMagic ∨ getLE bytes 4 2 ≠ version ∨ byteAt bytes 6 ≠ copy ∨
      ¬ Checked bytes 4092 then none
  else if metaMax < getLE bytes 76 4 then none
  else some
    { journal := ⟨BitVec.ofNat 128 (getLE bytes 8 16)⟩, seq := getLE bytes 24 8
      floor := UInt64.ofNat (getLE bytes 32 8), lastBatch := getLE bytes 40 8
      openLast := getLE bytes 64 8, openGeneration := getLE bytes 72 4
      geometry := ⟨getLE bytes 48 4, getLE bytes 52 4, getLE bytes 56 4⟩
      bytes := bytesAt bytes 80 (getLE bytes 76 4) }

variable {info : Meta} {bytes : List UInt8} {copy : UInt8}

theorem encode_holds (copy : UInt8) (sized : info.Sized) :
    Holds (info.encode copy) (info.fields copy) ∧ Checked (info.encode copy) 4092 := by
  have short := sized.bytes
  refine sealed_holds ?_ ?_ (by decide)
  · simp [fields, Before]
  · simp only [fields, forall_mem_cons, littleEndian_length, length_cons,
      length_nil]
    simp only [metaMax] at short
    simp
    omega

theorem decode_of_holds (long : bytes.length = block) (holds : Holds bytes (info.fields copy))
    (checked : Checked bytes 4092) (sized : info.Sized) : decode bytes copy = some info := by
  have magic : metaMagic < 256 ^ 4 := by decide
  have numbered : version < 256 ^ 2 := by decide
  have counted : info.bytes.length < 256 ^ 4 := lt_of_le_of_lt sized.bytes (by decide)
  simp [-Nat.reducePow, Holds, fields, long, block, sized.seq, sized.lastBatch, sized.openLast,
    sized.openGeneration, sized.geometry.persist, sized.geometry.gap, sized.geometry.entry, fits64,
    fits128, magic, numbered, counted] at holds
  simp [decode, checked, holds, not_lt.mpr sized.bytes]

theorem holds_of_decode (long : bytes.length = block) (decoded : decode bytes copy = some info) :
    Holds bytes (info.fields copy) ∧ Checked bytes 4092 ∧ info.Sized := by
  unfold decode at decoded
  split at decoded
  next => cases decoded
  next plain =>
    simp only [not_or, not_not, ne_eq] at plain
    obtain ⟨magic, written, own, checked⟩ := plain
    split at decoded
    next => cases decoded
    next short =>
      cases decoded
      have room : 80 + getLE bytes 76 4 ≤ bytes.length := by
        rw [long]
        simp only [metaMax, block] at short ⊢
        omega
      have kept := bytesAt_length room
      refine ⟨?_, checked, getLE_lt _ _ _, getLE_lt _ _ _, getLE_lt _ _ _, getLE_lt _ _ _,
        ⟨getLE_lt _ _ _, getLE_lt _ _ _, getLE_lt _ _ _⟩, by rw [kept]; exact Nat.le_of_not_lt short⟩
      have plainMagic : metaMagic < 256 ^ 4 := by decide
      have numbered : version < 256 ^ 2 := by decide
      simp [-Nat.reducePow, -BitVec.toNat_ofNat, -UInt64.toNat_ofNat', Holds, fields, long, block,
        getLE_lt, toNat_getLE64, toNat_getLE128, magic, written, own, kept, plainMagic, numbered]

end Meta

/-! ### Round trips -/

/-- What was encoded decodes to the same value, and bytes that decode agree with the encoding on
every field; a metainfo copy decodes only as the copy it was written as; a slot of zeros is no
record. -/
theorem formats_round_trip :
    (∀ record : Record, record.Sized → record.index < record.count →
      Record.decode record.encode = .valid record) ∧
    (∀ (header : EntryHeader) (payload : List UInt8), header.Sized →
      header.index < header.count → payload.length = header.len →
      ∃ stored, EntryHeader.parse (header.encode payload) = some (header, stored) ∧
        entryCrcOf (header.encode payload) payload = stored ∧
        (header.encode payload).drop recordSize = payload) ∧
    (∀ header : SegmentHeader, header.Sized → SegmentHeader.decode header.encode = some header) ∧
    (∀ (info : Meta) (copy : UInt8), info.Sized → Meta.decode (info.encode copy) copy = some info) ∧
    (∀ (bytes : List UInt8) (record : Record), bytes.length = recordSize →
      Record.decode bytes = .valid record → ∀ field ∈ record.fields,
      bytesAt bytes field.1 field.2.length = bytesAt record.encode field.1 field.2.length) ∧
    (∀ (bytes : List UInt8) (header : EntryHeader) (stored : UInt32) (payload : List UInt8),
      EntryHeader.parse bytes = some (header, stored) → ∀ field ∈ header.fields,
      bytesAt bytes field.1 field.2.length =
        bytesAt (header.encode payload) field.1 field.2.length) ∧
    (∀ (bytes : List UInt8) (header : SegmentHeader), bytes.length = block →
      SegmentHeader.decode bytes = some header → ∀ field ∈ header.fields,
      bytesAt bytes field.1 field.2.length = bytesAt header.encode field.1 field.2.length) ∧
    (∀ (bytes : List UInt8) (copy : UInt8) (info : Meta), bytes.length = block →
      Meta.decode bytes copy = some info → ∀ field ∈ info.fields copy,
      bytesAt bytes field.1 field.2.length = bytesAt (info.encode copy) field.1 field.2.length) ∧
    (∀ (info found : Meta) (copy other : UInt8), info.Sized →
      Meta.decode (info.encode copy) other = some found → other = copy) ∧
    Record.decode (replicate recordSize 0) = .zero := by
  refine ⟨fun record sized within => ?_, fun header payload sized within own => ?_,
    fun header sized => ?_, fun info copy sized => ?_, fun bytes record long decoded field member => ?_,
    fun bytes header stored payload parsed field member => ?_,
    fun bytes header long decoded field member => ?_,
    fun bytes copy info long decoded field member => ?_,
    fun info found copy other sized decoded => ?_, ?_⟩
  · obtain ⟨holds, checked⟩ := record.encode_holds
    exact Record.decode_of_holds sealed_length holds checked sized within
  · obtain ⟨long, holds, stored, checked⟩ := header.encode_eq payload
    refine ⟨entryCrcOf header.head payload, ?_, checked, ?_⟩
    · rw [EntryHeader.parse_of_holds (by rw [long]; exact Nat.le_add_right _ _) holds sized within,
        stored, UInt32.ofNat_toNat]
    · exact drop_left' (by simp [EntryHeader.head, puts_length])
  · obtain ⟨holds, checked⟩ := header.encode_holds
    exact SegmentHeader.decode_of_holds sealed_length holds checked sized
  · obtain ⟨holds, checked⟩ := Meta.encode_holds copy sized
    exact Meta.decode_of_holds sealed_length holds checked sized
  · rw [(Record.holds_of_decode long decoded).1 field member, record.encode_holds.1 field member]
  · rw [(EntryHeader.holds_of_parse parsed).2.1 field member,
      (header.encode_eq payload).2.1 field member]
  · rw [(SegmentHeader.holds_of_decode long decoded).1 field member,
      header.encode_holds.1 field member]
  · obtain ⟨holds, -, sized⟩ := Meta.holds_of_decode long decoded
    rw [holds field member, (Meta.encode_holds copy sized).1 field member]
  · have written := (Meta.encode_holds copy sized).1 (6, [copy]) (by simp [Meta.fields])
    have read := (Meta.holds_of_decode sealed_length decoded).1 (6, [other]) (by simp [Meta.fields])
    exact singleton_inj.mp (read.symm.trans written)
  · simp [Record.decode]

/-- A checksum that counts bytes, for structures on fixed inputs. -/
@[reducible] def countingCrc : Crc32c := ⟨fun bytes => UInt32.ofNat bytes.length⟩

omit [Crc32c] in
theorem formats_round_trip_voided :
    @Record.decode countingCrc (@Record.encode countingCrc
        ⟨.void, 1, 65534, 65535, 7, 9, Vector.replicate idSize 3, 4096, 12, 5⟩) =
      .valid ⟨.void, 1, 65534, 65535, 7, 9, Vector.replicate idSize 3, 4096, 12, 5⟩ :=
  (@formats_round_trip countingCrc).1 _
    ⟨by decide, by decide, by decide, by decide, by decide⟩ (by decide)

end Moonpool.Journal
