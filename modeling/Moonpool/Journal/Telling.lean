import Moonpool.Journal.Placement

/-!
Contract: the tellings of `Moonpool.Journal.DeadSegments` are those of the journal itself.

Owns:
- `Telling.Tells`: the telling has the journal's book, floor and last batch;
- `Told.of_create`: a journal just created is told;
- `Told.of_commit`: a commit that returns takes a told journal to a told one, by the roll it
  made, the batch it placed, the floor it raised and the segments it removed;
- `Told.of_open`: so does an open whose scan read the chapters, batch by batch.

Does not own that a scan reads what was written: an open here may find an entry damaged, a
removed segment back or a new one gone, but each batch it reads has the operations written.
-/

namespace Moonpool.Journal

open Lib List

set_option linter.dupNamespace false

/-- The telling is one of this journal, and no later roll can give one of its names again. -/
structure Telling.Tells (telling : Telling) (journal : Journal) : Prop where
  book : journal.toBook = telling.book
  floor : journal.info.floor = telling.floor
  last : journal.lastBatch = telling.lastBatch
  named : ∀ chapter ∈ telling.chapters, journal.Past chapter.first

variable {telling : Telling} {journal after : Journal} {world : World}

/-- The removal that ends a commit or an open. -/
theorem Told.of_removal (told : Told telling) (tells : telling.Tells journal) (world : World) :
    ∃ next, Told next ∧
      next.Tells (removalResult (journal.removeDeadSegments world).result) := by
  obtain ⟨less, pruned⟩ := journal.removeDeadSegments_dropped world
  obtain ⟨gone, split⟩ := less.suffix
  have length := congrArg List.length told.holds.labels
  rw [← tells.book, length_map, length_map, split, length_append] at length
  obtain ⟨index, info, config, generation, last⟩ := pruned.rest
  have removed := @Told.remove _ journal world (telling.kept.take gone.length)
    (telling.kept.drop gone.length) told tells.book (take_append_drop _ _).symm
    (by rw [length_drop, ← length, Nat.add_sub_cancel_left])
  refine ⟨_, removed, rfl, by rw [info]; exact tells.floor, last.trans tells.last, ?_⟩
  intro chapter member
  rw [Telling.chapters, append_assoc, take_append_drop] at member
  rw [Journal.Past, last, generation]
  exact tells.named chapter member

theorem Told.of_afterCommit {floored : Book} (told : Told telling)
    (tells : telling.Tells { journal with toBook := floored })
    (above : journal.toBook.dropBelowFloor journal.info.floor = .ok floored)
    (done : (journal.afterCommit world).result = .ok after) :
    ∃ next, Told next ∧ next.Tells after := by
  obtain ⟨book, later, dropped, rfl⟩ := Journal.afterCommit_ok done
  cases above.symm.trans dropped
  exact told.of_removal tells later

theorem Journal.le_raisedFloor (journal : Journal) (batch : Batch) :
    journal.info.floor ≤ journal.raisedFloor batch := by
  unfold raisedFloor
  cases batch.floor with
  | none => exact UInt64.le_refl _
  | some floor =>
    show _ ≤ max floor journal.info.floor
    grind [UInt64.max_def]

theorem Journal.opsOf_fits {first persistAt : Nat} {writes : List Write} :
    ∀ {index : Nat} {records : List Record},
      ∀ op ∈ opsOf first persistAt index records writes, op.Fits [first] := by
  induction writes with
  | nil =>
    intro index records op member
    cases records <;> cases member
  | cons write writes ih =>
    intro index records op member
    cases records with
    | nil => cases member
    | cons record records =>
      rcases mem_cons.mp member with rfl | later
      · cases write with
        | put => exact mem_singleton.mpr rfl
        | clear start stop nonempty => exact UInt64.le_of_lt nonempty
      · exact ih op later

theorem moved_movedCursors (segments : List Segment) (segment : Segment) (placed : Prepared) :
    Book.Moved segments (movedCursors segments segment placed) := by
  rw [Book.Moved, movedCursors, map_map]
  refine map_congr_left fun open_ _ => ?_
  simp only [Function.comp_apply]
  split <;> rfl

variable [Crc32c]

omit [Crc32c] in
theorem Told.of_create {id : JournalId} {config : JournalConfig} {bytes : List UInt8}
    (done : (createJournal id config bytes world).result = .ok journal) :
    ∃ telling, Told telling ∧ telling.Tells journal := by
  obtain ⟨_, rfl⟩ := createJournal_ok done
  exact ⟨_, .create, rfl, rfl, rfl, nofun⟩

/-- The segment a commit chose is the last of a told journal, rolled for this batch or not. -/
theorem Told.of_segmentFor {batch : Batch} {prepared : Prepared} {rolled : Journal}
    {segment : Segment} (told : Told telling) (tells : telling.Tells journal)
    (ready : prepared.Ready journal batch)
    (chosen : (journal.segmentFor prepared world).result = .ok (rolled, segment)) :
    ∃ next, Told next ∧ rolled.toBook = next.book ∧ rolled.info.floor = next.floor ∧
      rolled.info = journal.info ∧ rolled.generation = journal.generation ∧
      rolled.segments.getLast? = some segment ∧
      ∀ chapter ∈ next.chapters, chapter.first ≤ prepared.seq := by
  have older : ∀ chapter ∈ telling.chapters, chapter.first < prepared.seq :=
    fun chapter member => ready.past (tells.named chapter member)
  rcases Journal.segmentFor_ok chosen with ⟨rfl, last, -⟩ | ⟨file, rfl, rfl⟩
  · exact ⟨telling, told, tells.book, tells.floor, rfl, rfl, last,
      fun chapter member => le_of_lt (older chapter member)⟩
  · have rolls := @Told.roll _ prepared.seq file journal.config.geometry told older
    refine ⟨_, rolls, ?_, tells.floor, rfl, rfl, getLast?_concat, fun chapter member => ?_⟩
    · simp only [Journal.rolled, Journal.rollSegment, ← tells.book, ← tells.last]
    · rw [Telling.chapters, ← append_assoc] at member
      rcases mem_append.mp member with old | new
      · exact le_of_lt (older chapter old)
      · rw [mem_singleton.mp new]

omit [Crc32c] in
/-- The last open segment is that of the last chapter kept. -/
theorem Told.active_chapter {segment : Segment} (told : Told telling)
    (last : telling.book.segments.getLast? = some segment) :
    ∃ older active, telling.kept = older ++ [active] ∧ active.first = segment.firstBatch := by
  have labels := told.holds.labels
  obtain ⟨open_, shape⟩ := getLast?_eq_some_iff.mp last
  rw [shape, map_append, map_singleton] at labels
  obtain ⟨older, active, kept, -, same⟩ := append_eq_map_iff.mp labels
  obtain ⟨active, rest, rfl, label, none⟩ := map_eq_cons_iff.mp same
  rw [map_eq_nil_iff.mp none] at kept
  exact ⟨older, active, kept, congrArg Prod.fst label⟩

/-- A commit that returns leaves a told journal. -/
theorem Told.of_commit {batch : Batch} (told : Told telling) (tells : telling.Tells journal)
    (done : (journal.commit batch world).result = .ok after) :
    ∃ next, Told next ∧ next.Tells after := by
  rcases Journal.commit_ok done with ⟨-, rfl | ⟨later, done⟩⟩ |
    ⟨-, prepared, rolled, segment, placed, later, prepares, chosen, places, absorbs⟩
  · exact ⟨telling, told, tells⟩
  · obtain ⟨book, -, above, -⟩ := Journal.afterCommit_ok done
    have raised : telling.floor ≤ journal.raisedFloor batch :=
      tells.floor ▸ journal.le_raisedFloor batch
    have floored := above
    rw [tells.book] at floored
    refine (told.raise raised floored).of_afterCommit ?_ above done
    exact ⟨rfl, rfl, tells.last, tells.named⟩
  · have ready := Journal.prepare_ok prepares
    obtain ⟨next, told, book, floor, info, generation, last, named⟩ :=
      told.of_segmentFor tells ready chosen
    obtain ⟨applied, world, applies, done⟩ := Journal.absorb_ok absorbs
    obtain ⟨floored, -, above, -⟩ := Journal.afterCommit_ok done
    have seq : placed.seq = prepared.seq := by
      obtain ⟨-, -, rfl⟩ := place_ok places
      rfl
    obtain ⟨older, active, kept, first⟩ := told.active_chapter (book ▸ last)
    have raised : next.floor ≤ (if rolled.metaChanges batch then rolled.nextMeta batch
        else rolled.info).floor := by
      rw [← floor]
      split
      · exact rolled.le_raisedFloor batch
      · exact UInt64.le_refl _
    have cursors := moved_movedCursors rolled.segments segment placed
    have memory := applies
    rw [show rolled.index = next.book.index from congrArg Book.index book] at memory
    rw [show rolled.segments = next.book.segments from congrArg Book.segments book]
      at cursors memory
    have located : ∀ op ∈ Journal.opsOf segment.firstBatch placed.persistAt 0 placed.decoded
        batch.writes, op.Fits [active.first] := first ▸ Journal.opsOf_fits
    have committed := @Told.commit _ _ _ placed.seq _ _ _ _ _ told kept located cursors memory
      raised above
    refine committed.of_afterCommit ⟨rfl, rfl, rfl, fun chapter member => .inl ?_⟩ above done
    show chapter.first ≤ placed.seq
    rw [seq]
    rw [Telling.chapters, ← append_assoc] at member
    rcases mem_append.mp member with old | new
    · refine named chapter ?_
      rw [Telling.chapters, kept, ← append_assoc]
      exact mem_append_left _ old
    · rw [mem_singleton.mp new]
      refine named active ?_
      rw [Telling.chapters, kept]
      simp

/-! ### Opens -/

section Open

variable {tag : UInt32} {content : Nat → Content} {files : Nat → Nat → Content}
  {segments : List Segment}

omit [Crc32c] in
theorem elim_of_map_eq {α β γ : Type} {one : Option α} {other : Option β} {f : α → γ} {g : β → γ}
    {default : γ} (same : one.map f = other.map g) : one.elim default f = other.elim default g := by
  simpa [Option.elim_map] using congrArg (Option.elim · default id) same

theorem judgeBatches_reads {segment : Segment} {segmentIndex : Nat} {final : Bool}
    {batches : List BatchScan} : ∀ {out after : Scan},
      judgeBatches segment segmentIndex content tag final batches out = .ok after →
      after.lastBatch = out.lastBatch ∧ ∃ read : List (Nat × List Op),
        read.map Prod.fst = batches.map (·.seq) ∧ after.ops = out.ops ++ read.flatMap (·.2) := by
  induction batches with
  | nil =>
    intro out after judged
    cases judged
    exact ⟨rfl, [], rfl, by simp⟩
  | cons batch rest ih =>
    intro out after judged
    unfold judgeBatches at judged
    split at judged
    · cases judged
    next middle shape =>
      unfold judgeBatch at shape
      split at shape
      · cases shape
      next verdicts _ =>
        cases shape
        obtain ⟨last, read, seqs, ops⟩ := ih judged
        exact ⟨last, (batch.seq, verdicts.filterMap (·.op)) :: read, by simp [seqs], by simp [ops]⟩

theorem judgeSegments_reads : ∀ {segmentIndex : Nat} {scanned : List (List BatchScan × Nat × Nat)}
    {out after : Scan}, scanned.length = segments.length →
      judgeSegments files tag segmentIndex segments scanned out = .ok after →
      after.lastBatch = out.lastBatch ∧ ∃ read : List Chapter,
        segments.map Segment.label = read.map Chapter.label ∧
        read.map (fun chapter => chapter.batches.map Prod.fst) =
          scanned.map (fun each => each.1.map (·.seq)) ∧
        after.ops = out.ops ++ opsOfChapters read := by
  induction segments with
  | nil =>
    intro segmentIndex scanned out after length judged
    rw [length_nil, length_eq_zero_iff] at length
    subst length
    cases judged
    exact ⟨rfl, [], rfl, rfl, by simp [opsOfChapters]⟩
  | cons segment rest ih =>
    intro segmentIndex scanned out after length judged
    cases scanned with
    | nil => cases length
    | cons here more =>
      unfold judgeSegments at judged
      split at judged
      · cases judged
      next middle shape =>
        obtain ⟨last, batches, seqs, ops⟩ := judgeBatches_reads shape
        obtain ⟨final, read, labels, later, all⟩ := ih (by simpa using length) judged
        refine ⟨final.trans last, ⟨segment.firstBatch, segment.prevBatch, batches⟩ :: read, ?_, ?_, ?_⟩
        · simp [labels, Segment.label, Chapter.label]
        · simp [later, seqs]
        · simp [all, ops, opsOfChapters, Chapter.ops]

/-- The scan checks the links of the chapters it read, and ends at their last batch. -/
theorem scanSegments_chain {stale : Stale} : ∀ {last final : Nat}
    {scanned : List (List BatchScan × Nat × Nat)} {read : List Chapter},
      scanSegments files tag stale segments last = .ok (scanned, final) →
      segments.map Segment.label = read.map Chapter.label →
      read.map (fun chapter => chapter.batches.map Prod.fst) =
        scanned.map (fun each => each.1.map (·.seq)) →
      scanChain last read = some final := by
  induction segments with
  | nil =>
    intro last final scanned read done labels seqs
    cases done
    rw [map_eq_nil_iff.mp labels.symm]
    rfl
  | cons segment rest ih =>
    intro last final scanned read done labels seqs
    unfold scanSegments at done
    split at done
    · cases done
    next linked =>
      split at done
      · cases done
      next here _ =>
        split at done
        · cases done
        next more final shape =>
          cases done
          obtain ⟨chapter, read, rfl, label, labels⟩ := map_eq_cons_iff.mp labels.symm
          obtain ⟨seq, seqs⟩ := cons.inj seqs
          have prev : chapter.prev = last := (congrArg Prod.snd label).trans (not_not.mp linked)
          have ends : chapter.batches.getLast?.elim last (·.1) =
              here.1.getLast?.elim last fun batch => batch.seq :=
            elim_of_map_eq (by simpa using congrArg List.getLast? seq)
          rw [scanChain, if_neg (not_not.mpr prev), ends]
          exact ih shape labels.symm seqs

theorem scan_reads {stale : Stale} {geometry : Geometry} {scanned : Scan}
    (shapes : ∀ segment ∈ segments, segment.geometry = geometry)
    (done : scan files segments tag stale = .ok scanned) :
    ∃ read : List Chapter, segments.map Segment.label = read.map Chapter.label ∧
      scanned.ops = opsOfChapters read ∧
      scanChain (read.head?.elim 0 (·.prev)) read = some scanned.lastBatch := by
  unfold scan at done
  split at done
  · cases done
  next perSegment last shape =>
    obtain ⟨final, read, labels, seqs, ops⟩ :=
      judgeSegments_reads (scanSegments_within shapes shape).1 done
    refine ⟨read, labels, by simpa using ops, ?_⟩
    have start : read.head?.elim 0 (·.prev) = segments.head?.elim 0 (·.prevBatch) := by
      have prevs := congrArg (map Prod.snd) labels
      rw [map_map, map_map] at prevs
      exact elim_of_map_eq (by
        simpa [Function.comp_def, Segment.label, Chapter.label] using
          congrArg List.head? prevs.symm)
    rw [start, final]
    exact scanSegments_chain shape labels seqs

omit [Crc32c] in
theorem withCursors_labels {cursors : List (Nat × Nat)} (length : cursors.length = segments.length) :
    (withCursors segments cursors).map Segment.label = segments.map Segment.label := by
  induction segments generalizing cursors with
  | nil => simp [withCursors]
  | cons segment rest ih =>
    cases cursors with
    | nil => cases length
    | cons cursor more =>
      rw [length_cons, length_cons, Nat.add_right_cancel_iff] at length
      have later := ih length
      simp_all [withCursors, Segment.label]

/-- An open that returned `journal` after its scan read the chapters `read`. -/
def OpensReading (id : JournalId) (config : JournalConfig) (journal : Journal)
    (read : List Chapter) : Prop :=
  ∃ scanned segments assembled, Opens id config journal scanned segments assembled ∧
    segments.map Segment.label = read.map Chapter.label ∧ scanned.ops = opsOfChapters read ∧
    scanChain (read.head?.elim 0 (·.prev)) read = some scanned.lastBatch

theorem openJournal_reads {id : JournalId} {config : JournalConfig} {recovery : Recovery}
    (done : (openJournal id config world).result = .ok (some (journal, recovery))) :
    ∃ read, OpensReading id config journal read := by
  obtain ⟨scanned, segments, assembled, opens⟩ := openJournal_opens done
  obtain ⟨_, _, _, scans⟩ := opens.scans
  obtain ⟨read, parts⟩ := scan_reads (fun segment member => (opens.shapes segment member).1) scans
  exact ⟨read, scanned, segments, assembled, opens, parts⟩

/-- An open leaves a told journal, if it read the chapters that were told: all but dropped ones whose
removal lasted and empty ones a crash took, each with the batches written. -/
theorem Told.of_open {id : JournalId} {config : JournalConfig} {older found lost read : List Chapter}
    (told : Told telling) (opened : OpensReading id config after read)
    (floor : after.info.floor = telling.floor)
    (named : ∀ chapter ∈ telling.chapters, chapter.first < firstBatchOf after.generation)
    (split : telling.chapters = older ++ (found ++ lost))
    (durable : older.length ≤ telling.dropped.length)
    (empty : ∀ chapter ∈ lost, chapter.batches = []) (outlives : found = [] → older = [])
    (reads : Forall₂ Chapter.Reads found read) : ∃ next, Told next ∧ next.Tells after := by
  obtain ⟨scanned, segments, assembled, opens, labels, ops, chained⟩ := opened
  obtain ⟨_, _, _, scans⟩ := opens.scans
  have shapes := fun segment member => (opens.shapes segment member).1
  obtain ⟨_, info, _, assembles⟩ := opens.assembles
  obtain ⟨later, rfl⟩ := opens.removes
  obtain ⟨-, pruned⟩ := assembled.removeDeadSegments_dropped later
  obtain ⟨-, sameInfo, -, sameGeneration, -⟩ := pruned.rest
  rw [sameInfo] at floor
  rw [sameGeneration] at named
  unfold assemble at assembles
  split at assembles
  · cases assembles
  next applied memory =>
    split at assembles
    · cases assembles
    next book above =>
      cases assembles
      rw [ops] at memory
      rw [show info.floor = telling.floor from floor] at above
      have cursors := (scan_within shapes scans).2.1
      have idle : ∀ segment ∈ withCursors segments scanned.cursors, segment.live = 0 := by
        intro segment member
        rw [withCursors, ← map_uncurry_zip_eq_zipWith] at member
        obtain ⟨⟨part, pair⟩, paired, rfl⟩ := mem_map.mp member
        exact (opens.shapes part (of_mem_zip paired).1).2
      have reopened := told.reopen split durable empty outlives reads chained
        ((withCursors_labels cursors).trans labels) idle memory above
      refine reopened.of_removal ⟨rfl, floor, rfl, fun chapter member => .inr ?_⟩ later
      have written : chapter.first ∈ telling.chapters.map Chapter.first := by
        have here := mem_map_of_mem (f := Chapter.first) member
        rw [Telling.chapters, map_append, Chapter.Reads.named reads] at here
        rw [split, map_append, map_append, ← append_assoc]
        exact mem_append_left _ here
      obtain ⟨other, told, same⟩ := mem_map.mp written
      exact same ▸ named other told

end Open

end Moonpool.Journal
