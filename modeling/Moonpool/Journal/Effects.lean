import Moonpool.Journal.DeadSegments
import Moonpool.Journal.Protocol
import Moonpool.Journal.Extent

/-!
Contract: what a call of the journal that returns has done to the journal in memory, whatever
its calls to the disk did. Every lemma here holds in every world.

Owns:
- the segment a roll makes, and the segment a commit chooses;
- the steps of a commit behind its checks: prepare, choose, place, absorb, and the removal of
  dead segments at the end;
- the journal an open returns: its segments carry cursors a scan found, and its generation.

Does not own what the disk holds (`Moonpool.Journal.Crash`) or where batches end up
(`Moonpool.Journal.Placement`).
-/

namespace Moonpool.Journal

open Lib List

set_option linter.dupNamespace false

section Effects

variable {journal rolled after : Journal} {prepared : Prepared} {segment : Segment}
  {header : SegmentHeader} {world : World}

theorem Segment.create_ok (done : (Segment.create header world).result = .ok segment) :
    ∃ file, segment = .fresh header.firstBatch header.prevBatch file header.geometry := by
  obtain ⟨_, -, done⟩ := Proc.ok_of_bind (mapError_ok done)
  obtain ⟨_, -, done⟩ := Proc.ok_of_bind done
  obtain ⟨_, -, done⟩ := Proc.ok_of_bind done
  obtain ⟨_, -, done⟩ := Proc.ok_of_bind done
  obtain ⟨_, -, done⟩ := Proc.ok_of_bind done
  obtain ⟨_, -, done⟩ := Proc.ok_of_bind done
  obtain ⟨file, -, done⟩ := Proc.ok_of_bind done
  cases done
  exact ⟨file, rfl⟩

theorem Segment.adopt_ok {spare : Nat}
    (done : (Segment.adopt spare header world).result = .ok segment) :
    ∃ file, segment = .fresh header.firstBatch header.prevBatch file header.geometry := by
  obtain ⟨_, -, done⟩ := Proc.ok_of_bind done
  obtain ⟨_, -, done⟩ := Proc.ok_of_bind done
  split at done
  · cases done
  obtain ⟨_, -, done⟩ := Proc.ok_of_bind (mapError_ok done)
  obtain ⟨_, -, done⟩ := Proc.ok_of_bind done
  obtain ⟨_, -, done⟩ := Proc.ok_of_bind done
  obtain ⟨file, -, done⟩ := Proc.ok_of_bind done
  cases done
  exact ⟨file, rfl⟩

theorem Journal.segmentFor_ok
    (done : (journal.segmentFor prepared world).result = .ok (rolled, segment)) :
    (rolled = journal ∧ journal.segments.getLast? = some segment ∧
      segment.fits (prepared.recordBuf.len / block) prepared.entriesLen = true) ∨
    ∃ file, segment = journal.rollSegment prepared file ∧ rolled = journal.rolled segment := by
  have rolls : (segmentFor.roll journal prepared world).result = .ok (rolled, segment) →
      ∃ file, segment = journal.rollSegment prepared file ∧ rolled = journal.rolled segment := by
    intro done
    obtain ⟨made, shape, done⟩ := Proc.ok_of_bind done
    cases made with
    | error error => cases done
    | ok made =>
      have created := Except.ok.inj shape
      simp only at done
      split at done
      · cases done
      cases done
      cases spared : journal.spare with
      | none =>
        rw [spared] at created
        obtain ⟨file, rfl⟩ := Segment.create_ok created
        exact ⟨file, rfl, by simp [rolled, spared]⟩
      | some spare =>
        rw [spared] at created
        obtain ⟨file, rfl⟩ := Segment.adopt_ok created
        exact ⟨file, rfl, by simp [rolled, spared]⟩
  unfold segmentFor at done
  cases active : journal.segments.getLast? with
  | none =>
    rw [active] at done
    exact .inr (rolls done)
  | some last =>
    simp only [active] at done
    split at done
    next fits =>
      cases done
      exact .inl ⟨rfl, rfl, fits⟩
    · exact .inr (rolls done)

def movedCursors (segments : List Segment) (segment : Segment) (placed : Prepared) :
    List Segment :=
  segments.map fun open_ =>
    if open_.firstBatch = segment.firstBatch then
      { open_ with
        persistNext := placed.persistAt + placed.recordBuf.len
        entryNext := placed.entryAt + placed.entriesLen }
    else
      open_

/-- Every segment left is one of those before, but for its live count. -/
def Trims (segments after : List Segment) : Prop :=
  ∀ segment ∈ after, ∃ old ∈ segments, segment.idle = old.idle

theorem Dropped.mem {segments remaining : List Segment} (dropped : Dropped segments remaining)
    (member : segment ∈ remaining) : segment ∈ segments := by
  induction dropped with
  | none => exact member
  | front _ _ ih => exact mem_cons_of_mem _ (ih member)

theorem Book.SameSegments.trims {segments counted remaining : List Segment}
    (same : Book.SameSegments segments counted) (dropped : Dropped counted remaining) :
    Trims segments remaining := by
  intro segment member
  exact same.origin (dropped.mem member)

theorem Journal.withBook_ok {book : Except String Book}
    (done : (journal.withBook book world).result = .ok after) :
    ∃ found, book = .ok found ∧ after = { journal with toBook := found } := by
  cases book with
  | error message => cases done
  | ok found =>
    cases done
    exact ⟨found, rfl, rfl⟩

theorem Journal.afterCommit_ok (done : (journal.afterCommit world).result = .ok after) :
    ∃ book later, journal.toBook.dropBelowFloor journal.info.floor = .ok book ∧
      after = removalResult (({ journal with toBook := book } : Journal).removeDeadSegments
        later).result := by
  obtain ⟨floored, shape, done⟩ := Proc.ok_of_bind done
  obtain ⟨book, dropped, rfl⟩ := withBook_ok shape
  obtain ⟨removal, shape, done⟩ := Proc.ok_of_bind done
  refine ⟨book, _, dropped, Eq.trans ?_ (congrArg removalResult (Except.ok.inj shape).symm)⟩
  rcases removal with ⟨_, _⟩ | ⟨kept, count⟩
  · cases done
  cases checked : kept.toBook.assertInvariants kept.info with
  | error message =>
    simp only [checked] at done
    cases done
  | ok _ =>
    simp only [checked] at done
    cases done
    rfl

/-- What a commit's last steps leave: some of the segments, and the rest as it was. -/
theorem Journal.afterCommit_trims (done : (journal.afterCommit world).result = .ok after) :
    Trims journal.segments after.segments ∧ after.config = journal.config ∧
      after.generation = journal.generation ∧ after.lastBatch = journal.lastBatch := by
  obtain ⟨book, later, dropped, rfl⟩ := afterCommit_ok done
  obtain ⟨less, rest⟩ := Journal.removeDeadSegments_dropped { journal with toBook := book } later
  exact ⟨(Book.dropEntries_same dropped).trims less, rest.rest.2.2⟩

end Effects

variable [Crc32c]

section Writes

variable {journal after : Journal} {batch : Batch} {world : World}

omit [Crc32c] in
theorem Journal.absorb_ok {placed : Prepared} {segment : Segment}
    (done : (journal.absorb batch placed segment world).result = .ok after) :
    ∃ book later, Book.applyAll (opsOf segment.firstBatch placed.persistAt 0 placed.decoded
        batch.writes) ⟨movedCursors journal.segments segment placed, journal.index⟩ = .ok book ∧
      (afterCommit { journal with
        toBook := book
        lastBatch := placed.seq
        ambiguousBatch := none
        info := if journal.metaChanges batch then journal.nextMeta batch else journal.info }
          later).result = .ok after := by
  obtain ⟨booked, shape, done⟩ := Proc.ok_of_bind done
  obtain ⟨book, applied, rfl⟩ := withBook_ok shape
  exact ⟨book, _, applied, done⟩

omit [Crc32c] in
theorem Journal.absorb_trims {placed : Prepared} {segment : Segment}
    (done : (journal.absorb batch placed segment world).result = .ok after) :
    Trims (movedCursors journal.segments segment placed) after.segments ∧
      after.config = journal.config ∧ after.generation = journal.generation ∧
      after.lastBatch = placed.seq := by
  obtain ⟨book, later, applied, done⟩ := absorb_ok done
  obtain ⟨trims, rest⟩ := afterCommit_trims done
  refine ⟨fun open_ member => ?_, rest⟩
  obtain ⟨counted, there, idle⟩ := trims open_ member
  obtain ⟨moved, inside, same⟩ := (Book.applyAll_same applied).trims (.none _) counted there
  exact ⟨moved, inside, idle.trans same⟩

/-- A commit that returned: it wrote no entry, and perhaps the metainfo, or it prepared the batch,
chose a segment, placed the batch in it and took it over. -/
theorem Journal.commit_ok (done : (journal.commit batch world).result = .ok after) :
    (batch.writes = [] ∧ (after = journal ∨ ∃ later,
      (afterCommit { journal with info := journal.nextMeta batch } later).result = .ok after)) ∨
    (batch.writes ≠ [] ∧ ∃ prepared rolled segment placed later,
      journal.prepare batch = .ok prepared ∧
      (journal.segmentFor prepared world).result = .ok (rolled, segment) ∧
      prepared.place segment.persistNext segment.entryNext = .ok placed ∧
      (rolled.absorb batch placed segment later).result = .ok after) := by
  unfold commit at done
  split at done
  · cases done
  cases low : firstBelow (journal.raisedFloor batch) batch.writes with
  | some position =>
    simp only [low] at done
    cases done
  | none => ?_
  simp only [low] at done
  split at done
  · cases done
  split at done
  · cases done
  split at done
  · cases done
  split at done
  next none =>
    refine .inl ⟨isEmpty_iff.mp none, ?_⟩
    unfold commitMetaOnly at done
    split at done
    · obtain ⟨_, -, done⟩ := Proc.ok_of_bind done
      exact .inr ⟨_, done⟩
    · cases done
      exact .inl rfl
  next some =>
    refine .inr ⟨fun none => some (isEmpty_iff.mpr none), ?_⟩
    obtain ⟨prepared, prepares, done⟩ := Proc.ok_of_bind done
    obtain ⟨⟨rolled, segment⟩, chosen, done⟩ := Proc.ok_of_bind done
    obtain ⟨placed, places, done⟩ := Proc.ok_of_bind done
    obtain ⟨_, -, done⟩ := Proc.ok_of_bind done
    exact ⟨prepared, rolled, segment, placed, _, mapError_ok prepares, chosen, mapError_ok places,
      done⟩

end Writes

section Open

variable {id : JournalId} {config : JournalConfig} {world : World} {journal : Journal}

omit [Crc32c] in
theorem openSegments_ok {geometry : Geometry} {firsts : List Nat} :
    ∀ {world : World} {segments : List Segment} {repaired : Nat},
      (openSegments id geometry firsts world).result = .ok (segments, repaired) →
      ∀ segment ∈ segments, segment.geometry = geometry ∧ segment.live = 0 := by
  induction firsts with
  | nil =>
    intro world segments repaired done
    cases done
    nofun
  | cons first rest ih =>
    intro world segments repaired done
    obtain ⟨⟨segment, damaged⟩, opened, done⟩ := Proc.ok_of_bind done
    obtain ⟨⟨more, count⟩, later, done⟩ := Proc.ok_of_bind done
    cases done
    refine forall_mem_cons.mpr ⟨?_, ih later⟩
    obtain ⟨_, -, opened⟩ := Proc.ok_of_bind opened
    obtain ⟨_, -, opened⟩ := Proc.ok_of_bind opened
    split at opened
    · cases opened
    obtain ⟨_, -, opened⟩ := Proc.ok_of_bind opened
    obtain ⟨⟨header, bad⟩, -, opened⟩ := Proc.ok_of_bind opened
    obtain ⟨_, -, opened⟩ := Proc.ok_of_bind opened
    obtain ⟨_, -, opened⟩ := Proc.ok_of_bind opened
    cases opened
    exact ⟨rfl, rfl⟩

omit [Crc32c] in
theorem assemble_ok {metaFile : Nat} {info : Meta} {segments : List Segment} {scanned : Scan}
    {spare : Option Nat}
    (done : assemble id config metaFile info segments scanned spare = .ok journal) :
    journal.id = id ∧ journal.config = config ∧ journal.spare = spare ∧
      Book.SameSegments segments journal.segments := by
  unfold assemble at done
  split at done
  · cases done
  next book applied =>
    split at done
    · cases done
    next after dropped =>
      cases done
      exact ⟨rfl, rfl, rfl,
        (Book.applyAll_same applied).trans (Book.dropEntries_same dropped)⟩

omit [Crc32c] in
theorem finishOpen_ok {recovery : Recovery} {found : Option (Journal × Recovery)}
    (done : (finishOpen journal recovery world).result = .ok found) :
    ∃ later recovered, found = some (removalResult (journal.removeDeadSegments later).result,
      recovered) := by
  obtain ⟨removal, shape, done⟩ := Proc.ok_of_bind done
  refine ⟨world, ?_⟩
  rw [show (journal.removeDeadSegments world).result = removal from Except.ok.inj shape]
  rcases removal with ⟨_, _⟩ | ⟨kept, count⟩
  · cases done
  cases checked : kept.toBook.assertInvariants kept.info with
  | error message =>
    simp only [checked] at done
    cases done
  | ok _ =>
    simp only [checked] at done
    cases done
    exact ⟨_, rfl⟩

/-- What an open that returns a journal did: it opened the segments, scanned them, built the journal
from the scan and removed the dead front segments. -/
structure Opens (id : JournalId) (config : JournalConfig) (journal : Journal) (scanned : Scan)
    (segments : List Segment) (assembled : Journal) : Prop where
  shapes : ∀ segment ∈ segments, segment.geometry = config.geometry ∧ segment.live = 0
  scans : ∃ files tag stale, scan files segments tag stale = .ok scanned
  assembles : ∃ metaFile info spare,
    assemble id config metaFile info (withCursors segments scanned.cursors) scanned spare =
      .ok assembled
  removes : ∃ later, journal = removalResult (assembled.removeDeadSegments later).result

theorem openJournal_opens {recovery : Recovery}
    (done : (openJournal id config world).result = .ok (some (journal, recovery))) :
    ∃ scanned segments assembled, Opens id config journal scanned segments assembled := by
  obtain ⟨_, -, done⟩ := Proc.ok_of_bind done
  obtain ⟨listing, -, done⟩ := Proc.ok_of_bind done
  obtain ⟨found, -, done⟩ := Proc.ok_of_bind done
  rcases found with _ | ⟨metaFile, info, metaRepaired⟩
  · simp only at done
    split at done <;> cases done
  simp only at done
  split at done
  · cases done
  obtain ⟨⟨spare, removed⟩, -, done⟩ := Proc.ok_of_bind done
  obtain ⟨⟨segments, repaired⟩, opened, done⟩ := Proc.ok_of_bind done
  obtain ⟨shot, -, done⟩ := Proc.ok_of_bind done
  obtain ⟨scanned, scans, done⟩ := Proc.ok_of_bind done
  simp only at done
  split at done
  · cases done
  obtain ⟨_, -, done⟩ := Proc.ok_of_bind done
  obtain ⟨_, -, done⟩ := Proc.ok_of_bind done
  obtain ⟨_, -, done⟩ := Proc.ok_of_bind done
  obtain ⟨info, -, done⟩ := Proc.ok_of_bind done
  obtain ⟨assembled, assembles, done⟩ := Proc.ok_of_bind done
  obtain ⟨later, recovered, shape⟩ := finishOpen_ok done
  cases shape
  exact ⟨scanned, segments, assembled, openSegments_ok opened, ⟨_, _, _, scans⟩,
    ⟨_, _, _, mapError_ok assembles⟩, ⟨later, rfl⟩⟩

/-- The segments of a journal an open returns have the journal's geometry, and their cursors stand
on block boundaries inside the two logs. -/
theorem openJournal_ok {recovery : Recovery}
    (done : (openJournal id config world).result = .ok (some (journal, recovery))) :
    journal.config = config ∧ ∀ segment ∈ journal.segments, segment.geometry = config.geometry ∧
      CursorsOn config.geometry (segment.persistNext, segment.entryNext) := by
  obtain ⟨scanned, segments, assembled, opens⟩ := openJournal_opens done
  obtain ⟨_, _, _, assembles⟩ := opens.assembles
  obtain ⟨-, sameConfig, -, same⟩ := assemble_ok assembles
  obtain ⟨later, rfl⟩ := opens.removes
  obtain ⟨less, rest⟩ := assembled.removeDeadSegments_dropped later
  refine ⟨rest.rest.2.2.1.trans sameConfig, fun segment member => ?_⟩
  obtain ⟨old, inside, idle⟩ := same.origin (less.mem member)
  obtain ⟨_, _, _, scans⟩ := opens.scans
  obtain ⟨-, -, cursors⟩ := scan_within (fun segment member => (opens.shapes segment member).1) scans
  rw [withCursors, ← map_uncurry_zip_eq_zipWith] at inside
  obtain ⟨⟨part, pair⟩, paired, rfl⟩ := mem_map.mp inside
  rw [Segment.eq_of_idle idle]
  exact ⟨(opens.shapes part (of_mem_zip paired).1).1, cursors pair (of_mem_zip paired).2⟩

end Open

end Moonpool.Journal
