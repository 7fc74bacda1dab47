import Moonpool.Journal.Roll
import Moonpool.Journal.System
import Moonpool.Journal.Prepare

/-!
Owns the choice of a commit's segment under the crash invariant: the active one while the
batch fits, else a new one, adopted from the spare or created.
-/

namespace Moonpool.Journal

open Lib

set_option linter.dupNamespace false

theorem within_of_le {geometry : Geometry} {file : File} {offset : Nat} {buf : Buf}
    (whole : file.size = geometry.totalBlocks) (room : offset + buf.len ≤ geometry.entryEnd) :
    file.Within offset buf := by
  rw [geometry.entryEnd_eq] at room
  unfold File.Within
  rw [whole]
  have aligned : alignUp (offset + buf.len) block ≤ geometry.totalBlocks * block := by
    have whole : alignUp (geometry.totalBlocks * block) block = geometry.totalBlocks * block :=
      alignUp_of_mod (Nat.mul_mod_left _ _)
    rw [← whole]
    exact alignUp_mono room
  calc alignUp (offset + buf.len) block / block
      ≤ geometry.totalBlocks * block / block := Nat.div_le_div_right aligned
    _ = geometry.totalBlocks := Nat.mul_div_cancel _ (by decide)

def Journal.rollHeader (journal : Journal) (prepared : Prepared) : SegmentHeader :=
  ⟨journal.id, prepared.seq, journal.lastBatch, journal.config.geometry⟩

def Journal.rollSegment (journal : Journal) (prepared : Prepared) (file : Nat) : Segment :=
  Segment.fresh prepared.seq journal.lastBatch file journal.config.geometry

def Journal.rolled (journal : Journal) (segment : Segment) : Journal :=
  { journal with
    spare := none
    segments := journal.segments ++ [segment]
    rolls := if journal.spare.isSome then
        { journal.rolls with ontoSpare := journal.rolls.ontoSpare + 1 }
      else
        { journal.rolls with created := journal.rolls.created + 1 } }

def Journal.RollsOnto (journal : Journal) (disk : Disk) (file : Nat) : Prop :=
  match journal.spare with
  | none => file = disk.next
  | some spare => disk.names.spares[spare]? = some file

/-- What the crash invariant must allow for a roll. -/
structure RollSafe (P : Shot → Prop) (journal : Journal) (prepared : Prepared) (disk : Disk) :
    Prop where
  spare : ∀ spare, journal.spare = some spare → ∃ file, disk.names.spares[spare]? = some file ∧
    Absorbs P disk (.segment file) (headerRegion (journal.rollHeader prepared))
  grows : journal.spare = none → ∀ shot bytes, disk.Resolves shot →
    bytes.Raw (journal.rollHeader prepared) → P (shot.setFile (.segment disk.next) bytes)
  born : ∀ file shot bytes, journal.RollsOnto disk file → disk.Resolves shot →
    bytes.Headed disk file (journal.rollHeader prepared) →
    P ((shot.setFile (.segment file) bytes).withSegments
      (disk.names.segments.insert prepared.seq file))

section Roll

variable {faulty : Prop} {P : Shot → Prop} {world : World} {journal : Journal}
  {prepared : Prepared}

structure RollDone (journal : Journal) (prepared : Prepared) (before : Disk)
    (result : Journal × Segment) (after : Disk) (file : Nat) : Prop where
  onto : journal.RollsOnto before file
  segment : result.2 = journal.rollSegment prepared file
  memory : result.1 = journal.rolled result.2
  rolled : Rolled before after (journal.rollHeader prepared) file

section

variable (blind : Blind P) (sound : Sound faulty P world) (quiet : world.disk.Quiet)
  (whole : faulty ∨ ∀ spare file, journal.spare = some spare →
    world.disk.names.spares[spare]? = some file →
    (world.disk.files (.segment file)).size = journal.config.geometry.totalBlocks)

include blind sound quiet whole

theorem keeps_roll (allows : RollSafe P journal prepared world.disk) :
    Keeps faulty P (Journal.segmentFor.roll journal prepared) world
      (fun result disk => ∃ file, RollDone journal prepared world.disk result disk file)
      fun failure _ => failure.2.refuses = false := by
  refine (Keeps.attempt (?_ : Keeps faulty P _ world (fun segment disk => ∃ file,
    journal.RollsOnto world.disk file ∧ segment = journal.rollSegment prepared file ∧
      Rolled world.disk disk (journal.rollHeader prepared) file) fun _ _ => True)).bind ?_
  · cases spared : journal.spare with
    | none =>
      refine (keeps_createSegment blind sound quiet (allows.grows spared) ?_).post ?_
      · intro shot bytes resolved headed
        exact allows.born _ shot bytes (by simp [Journal.RollsOnto, spared]) resolved headed
      · rintro segment disk - ⟨rfl, rolled⟩
        exact ⟨_, by simp [Journal.RollsOnto, spared], rfl, rolled⟩
    | some spare =>
      obtain ⟨file, there, absorbs⟩ := allows.spare spare spared
      have onto : journal.RollsOnto world.disk file := by
        simpa [Journal.RollsOnto, spared] using there
      refine (keeps_adopt blind sound quiet there (whole.imp_right fun sizes =>
        sizes spare file spared there) absorbs ?_).post ?_
      · exact fun shot bytes => allows.born file shot bytes onto
      · rintro segment disk - ⟨rfl, rolled⟩
        exact ⟨_, onto, rfl, rolled⟩
  · rintro (error | segment) disk fates madeSound holds
    · exact .fail madeSound holds.1 rfl
    · obtain ⟨file, onto, rfl, rolled⟩ := holds
      simp only [Journal.rollSegment, Segment.fresh, ne_eq, not_true_eq_false, if_false]
      exact .pure madeSound ⟨file, onto, rfl, rfl, rolled⟩

theorem keeps_segmentFor (allows : (∀ last, journal.segments.getLast? = some last →
        last.fits (prepared.recordBuf.len / block) prepared.entriesLen = false) →
      RollSafe P journal prepared world.disk) :
    Keeps faulty P (journal.segmentFor prepared) world
      (fun result disk =>
        (disk = world.disk ∧ result.1 = journal ∧ journal.segments.getLast? = some result.2 ∧
          result.2.fits (prepared.recordBuf.len / block) prepared.entriesLen = true) ∨
        ((∀ last, journal.segments.getLast? = some last →
            last.fits (prepared.recordBuf.len / block) prepared.entriesLen = false) ∧
          ∃ file, RollDone journal prepared world.disk result disk file))
      fun failure _ => failure.2.refuses = false := by
  unfold Journal.segmentFor
  cases active : journal.segments.getLast? with
  | none =>
    have full : ∀ last, (none : Option Segment) = some last →
        last.fits (prepared.recordBuf.len / block) prepared.entriesLen = false :=
      nofun
    exact (keeps_roll blind sound quiet whole (allows (by rw [active]; exact full))).post
      fun _ _ _ done => .inr ⟨full, done⟩
  | some last =>
    by_cases fits : last.fits (prepared.recordBuf.len / block) prepared.entriesLen = true
    · simp only [fits, if_true]
      exact .pure sound (.inl ⟨rfl, rfl, rfl, fits⟩)
    have full : ∀ other, some last = some other →
        other.fits (prepared.recordBuf.len / block) prepared.entriesLen = false := by
      rintro other ⟨⟩
      exact Bool.eq_false_iff.mpr fits
    simp only [fits, if_false, Bool.false_eq_true]
    exact (keeps_roll blind sound quiet whole (allows (by rw [active]; exact full))).post
      fun _ _ _ done => .inr ⟨full, done⟩

end

end Roll

/-- The batch is placed inside the two logs of a whole file. -/
structure Prepared.Inside (prepared : Prepared) (geometry : Geometry) : Prop where
  persistAt : Geometry.persistStart ≤ prepared.persistAt
  persistEnd : prepared.persistAt + prepared.recordBuf.len ≤ geometry.persistEnd
  entryAt : geometry.entryStart ≤ prepared.entryAt
  entryEnd : prepared.entryAt + prepared.entriesLen ≤ geometry.entryEnd

section Room

variable {geometry : Geometry} {journal : Journal} {prepared : Prepared}

theorem Prepared.Inside.entries (inside : prepared.Inside geometry) :
    Geometry.persistStart ≤ prepared.entryAt ∧
      prepared.entryAt + prepared.entryBuf.len ≤ geometry.entryEnd := by
  refine ⟨le_trans ?_ inside.entryAt, inside.entryEnd⟩
  unfold Geometry.entryStart Geometry.persistEnd
  omega

theorem Prepared.Inside.records (inside : prepared.Inside geometry) :
    Geometry.persistStart ≤ prepared.persistAt ∧
      prepared.persistAt + prepared.recordBuf.len ≤ geometry.entryEnd := by
  refine ⟨inside.persistAt, le_trans inside.persistEnd ?_⟩
  unfold Geometry.entryEnd Geometry.entryStart
  omega

variable [Crc32c]

theorem Prepared.Ready.inside {batch : Batch} {placed : Prepared} {segment : Segment}
    (ready : prepared.Ready journal batch)
    (done : prepared.place segment.persistNext segment.entryNext = .ok placed)
    (cursors : Geometry.persistStart ≤ segment.persistNext ∧
      geometry.entryStart ≤ segment.entryNext)
    (persist : segment.persistNext + Record.blocksFor batch.writes.length * block ≤
      geometry.persistEnd)
    (entry : segment.entryNext + prepared.entriesLen ≤ geometry.entryEnd) :
    placed.Inside geometry := by
  obtain ⟨-, -, rfl⟩ := place_ok done
  refine ⟨cursors.1, ?_, cursors.2, entry⟩
  rw [recordBuf_len, List.length_map, ready.decoded_length]
  exact persist

theorem Prepared.Ready.room_active {batch : Batch} {segment : Segment}
    (ready : prepared.Ready journal batch)
    (fits : segment.fits (prepared.recordBuf.len / block) prepared.entriesLen = true) :
    segment.persistNext + Record.blocksFor batch.writes.length * block ≤
        segment.geometry.persistEnd ∧
      segment.entryNext + prepared.entriesLen ≤ segment.geometry.entryEnd := by
  rw [Segment.fits, Bool.and_eq_true, decide_eq_true_eq, decide_eq_true_eq, recordBuf_len,
    ready.decoded_length, Nat.mul_div_cancel _ (by decide)] at fits
  exact fits

theorem Prepared.Ready.room_fresh {batch : Batch} (ready : prepared.Ready journal batch)
    (file : Nat) :
    (journal.rollSegment prepared file).persistNext +
          Record.blocksFor batch.writes.length * block ≤
        journal.config.geometry.persistEnd ∧
      (journal.rollSegment prepared file).entryNext + prepared.entriesLen ≤
        journal.config.geometry.entryEnd := by
  exact ⟨Nat.add_le_add_left (Nat.mul_le_mul_right block ready.persistRoom) _,
    Nat.add_le_add_left ready.entryRoom _⟩

end Room

end Moonpool.Journal
