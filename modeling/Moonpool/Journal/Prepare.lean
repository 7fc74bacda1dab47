import Moonpool.Journal.Ledger

/-!
Owns what encoding a batch computes: where its entries and records go, and when it can be
encoded and placed.
-/

namespace Moonpool.Journal

open Lib List

set_option linter.dupNamespace false

section Layout

variable {tag : UInt32} {flags : UInt8} {seq count entryAt : Nat} {writes : List Write}

abbrev lensOf (writes : List Write) : List Nat := writes.map fun write => write.payload.length

@[simp] theorem layoutFrom_length : ∀ {index start : Nat},
    (layoutFrom tag flags seq count index start writes).length = writes.length := by
  induction writes with
  | nil => intro index start; rfl
  | cons write rest ih =>
    intro index start
    simp [layoutFrom, ih]

theorem layoutFrom_bounds : ∀ {index start : Nat},
    ∀ placed ∈ layoutFrom tag flags seq count index start writes,
      start ≤ placed.1 ∧ placed.2.header.len = placed.2.payload.length ∧
        placed.1 + EntryHeader.footprint placed.2.header.len ≤
          start + Batch.entryBytes (lensOf writes) ∧
        placed.2.header.index < index + writes.length ∧ placed.2.header.count = count := by
  induction writes with
  | nil => exact nofun
  | cons write rest ih =>
    intro index start placed member
    have total : Batch.entryBytes (lensOf (write :: rest)) =
        EntryHeader.footprint write.payload.length + Batch.entryBytes (lensOf rest) := by
      simp [Batch.entryBytes]
    rcases mem_cons.mp member with rfl | later
    · refine ⟨le_refl _, rfl, ?_, ?_, rfl⟩
      · simp only [entryOf]
        omega
      · simp [entryOf]
    · obtain ⟨low, len, high, below, same⟩ := ih placed later
      rw [length_cons]
      exact ⟨by omega, len, by omega, by omega, same⟩

end Layout

/-- Records whose entries end within a `u32`, in a buffer with a slot for each, are encoded. -/
theorem encodeRecords_ok {entryAt len : Nat} : ∀ {slot : Nat} {records : List Record},
    (∀ record ∈ records, fitsU32 (entryAt + record.offset) ∧ record.index < record.count) →
    (slot + records.length) * recordSize ≤ len →
    encodeRecords entryAt len slot records =
      .ok (records.map fun record => { record with offset := entryAt + record.offset }) := by
  intro slot records each room
  induction records generalizing slot with
  | nil => rfl
  | cons record rest ih =>
    obtain ⟨offset, index⟩ := each record mem_cons_self
    rw [length_cons] at room
    have here : ¬ len < (slot + 1) * recordSize := by
      simp only [recordSize] at room ⊢
      omega
    have later := @ih (slot + 1) (fun other member => each other (mem_cons_of_mem _ member))
      (by rwa [Nat.add_right_comm])
    simp only [encodeRecords, offset, not_true_eq_false, if_false, here, checkRoundTrip, index,
      if_true, later, map_cons]

theorem encodeRecords_eq {entryAt len : Nat} : ∀ {slot : Nat} {records moved : List Record},
    encodeRecords entryAt len slot records = .ok moved →
    moved = records.map fun record => { record with offset := entryAt + record.offset } := by
  intro slot records
  induction records generalizing slot with
  | nil => exact fun done => (Except.ok.inj done).symm
  | cons record rest ih =>
    intro moved done
    unfold encodeRecords at done
    split at done
    · cases done
    split at done
    · cases done
    split at done
    · cases done
    split at done
    · cases done
    next later => rw [← Except.ok.inj done, ih later, map_cons]

theorem encodeRecords_panics {entryAt len : Nat} {error : CommitError} :
    ∀ {slot : Nat} {records : List Record},
    encodeRecords entryAt len slot records = .error error → ∃ message, error = .panicked message := by
  intro slot records
  induction records generalizing slot with
  | nil => nofun
  | cons record rest ih =>
    intro failed
    unfold encodeRecords checkRoundTrip at failed
    split at failed
    · exact ⟨_, (Except.error.inj failed).symm⟩
    split at failed
    · exact ⟨_, (Except.error.inj failed).symm⟩
    split at failed
    next shape =>
      split at shape
      · cases shape
      · exact ⟨_, by rw [← Except.error.inj failed, ← Except.error.inj shape]⟩
    split at failed
    next later => exact ih (later.trans failed)
    · cases failed

variable [Crc32c]

structure Prepared.Ready (journal : Journal) (batch : Batch) (prepared : Prepared) : Prop where
  seq : prepared.seq = Journal.nextSeq journal.generation journal.lastBatch
  grows : journal.lastBatch < prepared.seq
  entries : prepared.entries = layoutFrom journal.tag
    (Journal.flagsOf journal.config.durability) prepared.seq batch.writes.length 0 0 batch.writes
  entriesLen : prepared.entriesLen = alignUp (Batch.entryBytes (lensOf batch.writes)) block
  decoded : prepared.decoded = prepared.entries.map fun placed => recordFor placed.1 placed.2
  few : batch.writes.length < maxBatchRecords
  persistRoom : Record.blocksFor batch.writes.length ≤ journal.config.geometry.persistBlocks
  entryRoom : prepared.entriesLen ≤ journal.config.geometry.entryBlocks * block

namespace Journal

variable {journal : Journal} {batch : Batch} {prepared : Prepared}

theorem prepare_ok (done : journal.prepare batch = .ok prepared) : prepared.Ready journal batch := by
  unfold prepare at done
  simp only at done
  split at done
  · cases done
  next grows =>
    split at done
    · cases done
    split at done
    · cases done
    split at done
    · cases done
    split at done
    · cases done
    next few =>
      split at done
      · cases done
      split at done
      · cases done
      next persist =>
        split at done
        · cases done
        next entry =>
          cases done
          exact ⟨rfl, not_not.mp grows, rfl, rfl, rfl,
            by simp only [maxBatchRecords]; omega,
            Nat.le_of_not_lt persist, Nat.le_of_not_lt entry⟩

end Journal

section Place

variable {prepared placed : Prepared} {persistAt entryAt : Nat}

omit [Crc32c] in
theorem place_ok (done : prepared.place persistAt entryAt = .ok placed) :
    persistAt % block = 0 ∧ entryAt % block = 0 ∧ placed = { prepared with
      persistAt
      entryAt
      decoded := prepared.decoded.map fun record =>
        { record with offset := entryAt + record.offset } } := by
  unfold Prepared.place at done
  split at done
  · cases done
  next aligned =>
    split at done
    · cases done
    next encoded =>
      cases done
      exact ⟨(not_not.mp aligned).1, (not_not.mp aligned).2, by rw [encodeRecords_eq encoded]⟩

omit [Crc32c] in
theorem place_panics {error : CommitError} (failed : prepared.place persistAt entryAt = .error error) :
    ∃ message, error = .panicked message := by
  unfold Prepared.place at failed
  split at failed
  · exact ⟨_, (Except.error.inj failed).symm⟩
  split at failed
  next encoded =>
    cases failed
    exact encodeRecords_panics encoded
  · cases failed

variable {journal : Journal} {batch : Batch}

theorem Prepared.Ready.place (ready : prepared.Ready journal batch)
    (valid : journal.config.geometry.isValid = true) (persist : persistAt % block = 0)
    (entry : entryAt % block = 0)
    (room : entryAt + prepared.entriesLen ≤ journal.config.geometry.entryEnd) :
    ∃ placed, prepared.place persistAt entryAt = .ok placed := by
  have each : ∀ record ∈ prepared.decoded,
      fitsU32 (entryAt + record.offset) ∧ record.index < record.count := by
    rw [ready.decoded]
    intro record member
    obtain ⟨placed, inside, rfl⟩ := mem_map.mp member
    rw [ready.entries] at inside
    obtain ⟨-, -, high, below, count⟩ := layoutFrom_bounds placed inside
    simp only [Geometry.isValid, Bool.and_eq_true, decide_eq_true_eq] at valid
    have bytes := alignUp_ge (Batch.entryBytes (lensOf batch.writes))
    rw [← ready.entriesLen] at bytes
    rw [Geometry.entryEnd_eq] at room
    refine ⟨?_, ?_⟩
    · show entryAt + placed.1 < 2 ^ 32
      omega
    · show placed.2.header.index < placed.2.header.count
      omega
  have slots : (0 + prepared.decoded.length) * recordSize ≤ prepared.recordBuf.len := by
    show _ ≤ alignUp (prepared.decoded.length * recordSize) block / block * block
    simp only [alignUp, block, recordSize]
    omega
  unfold Prepared.place
  simp only [persist, entry, and_self, not_true_eq_false, if_false, encodeRecords_ok each slots,
    Except.ok.injEq, exists_eq']

omit [Crc32c] in
theorem recordBuf_len (prepared : Prepared) :
    prepared.recordBuf.len = Record.blocksFor prepared.decoded.length * block := rfl

theorem Prepared.Ready.decoded_length (ready : prepared.Ready journal batch) :
    prepared.decoded.length = batch.writes.length := by
  rw [ready.decoded, length_map, ready.entries, layoutFrom_length]

end Place

end Moonpool.Journal
