import Mathlib.Data.List.Forall2
import Moonpool.Journal.Book
import Moonpool.Journal.Journal

/-!
Contract: dropping dead front segments neither resurrects nor loses an entry, and leaves a
chain of segments that an open accepts.

Owns:
- `Dropped`: what `remove_dead_segments` may take from the list of segments;
- chapters and tellings: a `Chapter` is one segment's part of the log (its name, its link,
  and the operations of its batches), a `Telling` is what the journal has in memory next to
  every chapter ever written, dropped ones included;
- `Told`, the tellings the code can reach, and the invariant they keep: the index is the
  replay of the chapters still there, and of every chapter, above the floor, and the last
  batch in memory is the last one of the chapters, so that a roll links to it.

Does not own that the journal's own commits and opens are such steps (see
`Moonpool.Journal.Telling`), nor what a crash leaves in a segment file.
-/

namespace Moonpool.Journal

open Lib List

set_option linter.dupNamespace false

/-! ### Removal -/

/-- `remaining` is `segments` without some leading ones that held nothing live, never the last. -/
inductive Dropped : List Segment → List Segment → Prop
  | none (segments : List Segment) : Dropped segments segments
  | front {front next : Segment} {rest remaining : List Segment} (dead : front.live = 0)
      (later : Dropped (next :: rest) remaining) : Dropped (front :: next :: rest) remaining

def removalResult : Except (Journal × IoError) (Journal × Nat) → Journal
  | .ok (journal, _) => journal
  | .error (journal, _) => journal

def journalOf {ε : Type} : Except (Journal × ε) Journal → Journal
  | .ok journal => journal
  | .error (journal, _) => journal

def Journal.Pruned (before after : Journal) : Prop :=
  after = { before with
    segments := after.segments, spare := after.spare, sparesNamed := after.sparesNamed }

theorem Journal.Pruned.rest {before after : Journal} (pruned : before.Pruned after) :
    after.index = before.index ∧ after.info = before.info ∧ after.config = before.config ∧
      after.generation = before.generation ∧ after.lastBatch = before.lastBatch := by
  rw [show after = _ from pruned]
  exact ⟨rfl, rfl, rfl, rfl, rfl⟩

private theorem retireFront_trims (journal : Journal) (front : Segment) (world : World) :
    Proc.Meets (journal.retireFront front) world (fun _ => True) fun result _ =>
      journal.Pruned (journalOf result) ∧ (journalOf result).segments = journal.segments := by
  unfold Journal.retireFront
  cases journal.spare with
  | none | some spare =>
    refine Proc.meets_mapError (Proc.meets_bind Proc.meets_true ?_ fun _ _ _ => ⟨rfl, rfl⟩)
    intro _ _ _
    refine Proc.meets_bind Proc.meets_true (fun _ _ _ => ?_) fun _ _ _ => ⟨rfl, rfl⟩
    exact Proc.meets_pure ⟨rfl, rfl⟩

theorem removeDead_dropped (steps : Nat) :
    ∀ (journal : Journal) (removed : Nat) (world : World),
      Proc.Meets (Journal.removeDead steps journal removed) world (fun _ => True) fun result _ =>
        Dropped journal.segments (removalResult result).segments ∧
          journal.Pruned (removalResult result) := by
  induction steps with
  | zero => exact fun journal removed world => Proc.meets_pure ⟨.none _, rfl⟩
  | succ steps ih =>
    intro journal removed world
    unfold Journal.removeDead
    split
    next front next rest shape =>
      split
      next dead =>
        refine Proc.meets_bind (retireFront_trims journal front world) ?_ ?_
        · rintro after last ⟨trimmed, -⟩
          refine (ih _ _ _).post fun result final holds => ?_
          rw [shape]
          refine ⟨.front dead holds.1, ?_⟩
          rw [Journal.Pruned, holds.2, show after = _ from trimmed]
        · rintro ⟨after, error⟩ last ⟨trimmed, segments⟩
          exact ⟨segments ▸ .none _, trimmed⟩
      · exact Proc.meets_pure ⟨.none _, rfl⟩
    · exact Proc.meets_pure ⟨.none _, rfl⟩

/-- Removal takes leading dead segments, and leaves the rest of the journal as it was. -/
theorem Journal.removeDeadSegments_dropped (journal : Journal) (world : World) :
    Dropped journal.segments (removalResult (journal.removeDeadSegments world).result).segments ∧
      journal.Pruned (removalResult (journal.removeDeadSegments world).result) :=
  (removeDead_dropped journal.segments.length journal 0 world).2

/-! ### Chapters -/

/-- One segment's part of the log: its name and link, and its batches in order. -/
structure Chapter where
  first : Nat
  prev : Nat
  batches : List (Nat × List Op)

namespace Chapter

def ops (chapter : Chapter) : List Op := chapter.batches.flatMap (·.2)

def last (chapter : Chapter) : Nat := chapter.batches.getLast?.elim chapter.prev (·.1)

end Chapter

def opsOfChapters (chapters : List Chapter) : List Op := chapters.flatMap Chapter.ops

def Linked : Nat → List Chapter → Prop
  | _, [] => True
  | last, chapter :: rest => chapter.prev = last ∧ Linked chapter.last rest

/-- The last batch up to the end of the chapters, from `last` before them. -/
def lastOf : Nat → List Chapter → Nat
  | last, [] => last
  | _, chapter :: rest => lastOf chapter.last rest

/-- What an open's scan computes over the chapters: the last batch, if every link holds. -/
def scanChain : Nat → List Chapter → Option Nat
  | last, [] => some last
  | last, chapter :: rest =>
    if chapter.prev ≠ last then none
    else scanChain (chapter.batches.getLast?.elim last (·.1)) rest

def Chapter.label (chapter : Chapter) : Nat × Nat := (chapter.first, chapter.prev)

def Segment.label (segment : Segment) : Nat × Nat := (segment.firstBatch, segment.prevBatch)

/-- The segment of a chapter as an open finds it, before any operation. -/
def Chapter.opened (file : Nat) (geometry : Geometry) (chapter : Chapter) : Segment :=
  Segment.fresh chapter.first chapter.prev file geometry

/-- The book an open makes of chapters: every operation in order, without what is below the
floor. -/
def recount (file : Nat) (geometry : Geometry) (chapters : List Chapter) (floor : UInt64) :
    Except String Book :=
  match Book.applyAll (opsOfChapters chapters) ⟨chapters.map (Chapter.opened file geometry), ∅⟩ with
  | .error message => .error message
  | .ok book => book.dropBelowFloor floor

/-- An operation as a scan finds it: an entry may be damaged, and is located all the same. -/
def Op.Reads : Op → Op → Prop
  | .put position place, .put other found => other = position ∧ found.segment = place.segment
  | .clear start stop, .clear first last => first = start ∧ last = stop
  | _, _ => False

/-- A chapter as a scan finds it: its links, and every batch with its operations. -/
structure Chapter.Reads (chapter read : Chapter) : Prop where
  label : read.label = chapter.label
  batches : Forall₂ (fun written found : Nat × List Op => found.1 = written.1 ∧
    Forall₂ Op.Reads written.2 found.2) chapter.batches read.batches

/-- What the journal has in memory, and every chapter of its log. -/
structure Telling where
  book : Book
  floor : UInt64
  lastBatch : Nat
  dropped : List Chapter
  kept : List Chapter

/-- Every chapter ever written, but for those a crash took before they held a batch. -/
def Telling.chapters (telling : Telling) : List Chapter := telling.dropped ++ telling.kept

def Segment.still (segment : Segment) : Segment := { segment with persistNext := 0, entryNext := 0 }

/-- A commit moves the cursors of a segment, and nothing else of it. -/
def Book.Moved (before after : List Segment) : Prop :=
  after.map Segment.still = before.map Segment.still

inductive Told : Telling → Prop
  | create : Told ⟨⟨[], ∅⟩, 0, 0, [], []⟩
  /-- A roll: the segment names its first batch and the last one in memory. Segments are named in
  order (`assert_invariants`). -/
  | roll {telling : Telling} {seq file : Nat} {geometry : Geometry} (told : Told telling)
      (newest : ∀ chapter ∈ telling.chapters, chapter.first < seq) :
      Told { telling with
        book := ⟨telling.book.segments ++
          [Segment.fresh seq telling.lastBatch file geometry], telling.book.index⟩
        kept := telling.kept ++ [⟨seq, telling.lastBatch, []⟩] }
  | commit {telling : Telling} {older : List Chapter} {active : Chapter} {seq : Nat}
      {ops : List Op} {floor : UInt64} {moved : List Segment} {applied after : Book}
      (told : Told telling) (current : telling.kept = older ++ [active])
      (located : ∀ op ∈ ops, op.Fits [active.first])
      (cursors : Book.Moved telling.book.segments moved)
      (memory : Book.applyAll ops ⟨moved, telling.book.index⟩ = .ok applied)
      (raised : telling.floor ≤ floor) (above : applied.dropBelowFloor floor = .ok after) :
      Told { telling with
        book := after
        floor
        lastBatch := seq
        kept := older ++ [{ active with batches := active.batches ++ [(seq, ops)] }] }
  | raise {telling : Telling} {floor : UInt64} {after : Book} (told : Told telling)
      (raised : telling.floor ≤ floor) (above : telling.book.dropBelowFloor floor = .ok after) :
      Told { telling with book := after, floor }
  /-- `remove_dead_segments`, to its end or to the call that failed. -/
  | remove {telling : Telling} {journal : Journal} {world : World} {gone remaining : List Chapter}
      (told : Told telling) (memory : journal.toBook = telling.book)
      (split : telling.kept = gone ++ remaining)
      (left : (removalResult (journal.removeDeadSegments world).result).segments.length =
        remaining.length) :
      Told { telling with
        book := (removalResult (journal.removeDeadSegments world).result).toBook
        dropped := telling.dropped ++ gone
        kept := remaining }
  /-- An open: a segment whose removal was not durable is back, and a new one without a batch may be
  gone, but not where one before it was removed. The last batch is the scan's. -/
  | reopen {telling : Telling} {older found lost read : List Chapter} {segments : List Segment}
      {lastBatch : Nat} {applied after : Book} (told : Told telling)
      (split : telling.chapters = older ++ (found ++ lost))
      (durable : older.length ≤ telling.dropped.length)
      (empty : ∀ chapter ∈ lost, chapter.batches = []) (outlives : found = [] → older = [])
      (reads : Forall₂ Chapter.Reads found read)
      (chained : scanChain (read.head?.elim 0 (·.prev)) read = some lastBatch)
      (labels : segments.map Segment.label = read.map Chapter.label)
      (idle : ∀ segment ∈ segments, segment.live = 0)
      (memory : Book.applyAll (opsOfChapters read) ⟨segments, ∅⟩ = .ok applied)
      (above : applied.dropBelowFloor telling.floor = .ok after) :
      Told ⟨after, telling.floor, lastBatch, older, read⟩

/-! ### Lemmas about chapters -/

theorem opsOfChapters_append (front back : List Chapter) :
    opsOfChapters (front ++ back) = opsOfChapters front ++ opsOfChapters back := by
  simp [opsOfChapters]

variable {chapters : List Chapter}

theorem opsOfChapters_empty (empty : ∀ chapter ∈ chapters, chapter.batches = []) :
    opsOfChapters chapters = [] := by
  unfold opsOfChapters
  rw [flatMap_eq_nil_iff]
  intro chapter member
  simp [Chapter.ops, empty chapter member]

theorem linked_append {front back : List Chapter} : ∀ {last : Nat},
    Linked last (front ++ back) ↔ Linked last front ∧ Linked (lastOf last front) back := by
  induction front with
  | nil => simp [Linked, lastOf]
  | cons chapter rest ih =>
    intro last
    simp only [cons_append, Linked, lastOf, ih, and_assoc]

theorem Linked.suffix {front back : List Chapter} {last : Nat}
    (linked : Linked last (front ++ back)) : Linked (back.head?.elim last (·.prev)) back := by
  have tail := (linked_append.mp linked).2
  cases back with
  | nil => trivial
  | cons chapter rest => exact ⟨rfl, tail.2⟩

theorem Book.SameSegments.labels {before after : List Segment}
    (same : Book.SameSegments before after) :
    after.map Segment.label = before.map Segment.label := by
  have labels := congrArg (map Segment.label) same
  simp only [map_map] at labels
  exact labels

theorem Book.Moved.map {before after : List Segment} {α : Type} {seen : Segment → α}
    (moved : Book.Moved before after) (blind : ∀ segment : Segment, seen segment.still = seen segment) :
    after.map seen = before.map seen := by
  have same := congrArg (List.map seen) moved
  simpa only [map_map, Function.comp_def, blind] using same

theorem Book.Moved.counted {before after : List Segment} {index : Index}
    (moved : Book.Moved before after) (counted : Book.Counted ⟨before, index⟩) :
    Book.Counted ⟨after, index⟩ := by
  have firsts : Book.firsts after = Book.firsts before := moved.map fun _ => rfl
  refine ⟨?_, fun position place there => ?_, fun segment member => ?_, ?_⟩
  · have ordered : (Book.firsts before).Pairwise (· < ·) := pairwise_map.mpr counted.ordered
    rw [← firsts] at ordered
    exact pairwise_map.mp ordered
  · rw [firsts]
    exact counted.located position place there
  · have inside : segment.still ∈ before.map Segment.still := moved ▸ mem_map_of_mem member
    obtain ⟨old, there, same⟩ := mem_map.mp inside
    have live := counted.live old there
    change segment.still.live = tally (·.segment) index segment.still.firstBatch
    rw [← same]
    exact live
  · have lives : after.map (·.live) = before.map (·.live) := moved.map fun _ => rfl
    have total := counted.total
    simp only [Book.liveSum] at total ⊢
    rw [lives, total]

variable {segments : List Segment}

theorem firsts_of_labels (labels : segments.map Segment.label = chapters.map Chapter.label) :
    Book.firsts segments = chapters.map Chapter.first := by
  have names := congrArg (map Prod.fst) labels
  simpa [Book.firsts, Segment.label, Chapter.label, Function.comp_def] using names

theorem Op.Fits.mono {op : Op} {some_ more : List Nat} (fits : op.Fits some_)
    (within : some_ ⊆ more) : op.Fits more := by
  cases op with
  | put position place => exact within fits
  | clear start stop => exact fits

/-- Opening chapters in order never fails, and its index is their replay. -/
theorem reread_ok {segments : List Segment} (floor : UInt64)
    (labels : segments.map Segment.label = chapters.map Chapter.label)
    (idle : ∀ segment ∈ segments, segment.live = 0)
    (ordered : chapters.Pairwise fun older newer => older.first < newer.first)
    (fits : ∀ chapter ∈ chapters, ∀ op ∈ chapter.ops, op.Fits [chapter.first]) :
    ∃ applied book, Book.applyAll (opsOfChapters chapters) ⟨segments, ∅⟩ = .ok applied ∧
      applied.dropBelowFloor floor = .ok book ∧ book.Counted ∧
      book.segments.map Segment.label = chapters.map Chapter.label ∧
      ∀ position : UInt64, book.index[position]? =
        if position < floor then none else replay Op.effect (opsOfChapters chapters) position := by
  have firsts := firsts_of_labels labels
  have counted : Book.Counted ⟨segments, ∅⟩ := by
    refine Book.counted_empty (pairwise_map.mp ?_) idle
    show (Book.firsts segments).Pairwise (· < ·)
    rw [firsts]
    exact pairwise_map.mpr ordered
  have located : ∀ op ∈ opsOfChapters chapters, op.Fits (Book.firsts segments) := by
    intro op member
    obtain ⟨chapter, found, inside⟩ := mem_flatMap.mp member
    refine (fits chapter found op inside).mono fun first same => ?_
    rw [mem_singleton.mp same, firsts]
    exact mem_map_of_mem found
  obtain ⟨applied, done, appliedCounted, same, index⟩ := Book.applyAll_ok counted located
  obtain ⟨after, dropped, afterCounted, sameAgain, final⟩ :=
    Book.dropBelowFloor_ok appliedCounted floor
  refine ⟨applied, after, done, dropped, afterCounted, ?_, fun position => ?_⟩
  · rw [sameAgain.labels, same.labels, labels]
  · rw [final position, index position]
    simp [replay]

theorem recount_ok (file : Nat) (geometry : Geometry) (floor : UInt64)
    (ordered : chapters.Pairwise fun older newer => older.first < newer.first)
    (fits : ∀ chapter ∈ chapters, ∀ op ∈ chapter.ops, op.Fits [chapter.first]) :
    ∃ book, recount file geometry chapters floor = .ok book ∧
      ∀ position : UInt64, book.index[position]? =
        if position < floor then none else replay Op.effect (opsOfChapters chapters) position := by
  obtain ⟨applied, book, done, dropped, -, -, index⟩ :=
    @reread_ok chapters (chapters.map (Chapter.opened file geometry)) floor
      (by rw [map_map]; rfl)
      (fun segment member => by obtain ⟨chapter, -, rfl⟩ := mem_map.mp member; rfl) ordered fits
  exact ⟨book, by simp only [recount, done, dropped], index⟩

/-! ### What a scan reads -/

theorem lastOf_append {front back : List Chapter} : ∀ {last : Nat},
    lastOf last (front ++ back) = lastOf (lastOf last front) back := by
  induction front with
  | nil => exact rfl
  | cons chapter rest ih => exact ih

/-- A scan that accepts the chain has seen its links, and ends at its last batch. -/
theorem linked_of_scanChain : ∀ {start last : Nat}, scanChain start chapters = some last →
    Linked start chapters ∧ lastOf start chapters = last := by
  induction chapters with
  | nil => exact fun done => ⟨trivial, Option.some.inj done⟩
  | cons chapter rest ih =>
    intro start last done
    unfold scanChain at done
    split at done
    · cases done
    next link =>
      have link : chapter.prev = start := not_not.mp link
      rw [← link] at done
      exact ⟨⟨link, (ih done).1⟩, (ih done).2⟩

theorem Op.Reads.fits {ops found : List Op} {firsts : List Nat} (reads : Forall₂ Op.Reads ops found)
    (fits : ∀ op ∈ ops, op.Fits firsts) : ∀ op ∈ found, op.Fits firsts := by
  induction reads with
  | nil => nofun
  | @cons op read _ _ same _ ih =>
    rw [forall_mem_cons] at fits ⊢
    refine ⟨?_, ih fits.2⟩
    cases op <;> cases read <;> simp_all [Op.Reads, Op.Fits]

theorem scanChain_of_linked : ∀ {start : Nat}, Linked start chapters →
    scanChain start chapters = some (lastOf start chapters) := by
  induction chapters with
  | nil => exact fun _ => rfl
  | cons chapter rest ih =>
    rintro start ⟨link, later⟩
    rw [scanChain, if_neg (not_not.mpr link), ← link]
    exact ih later

section Reads

variable {found read : List Chapter} (reads : Forall₂ Chapter.Reads found read)

include reads

theorem Chapter.Reads.labels : read.map Chapter.label = found.map Chapter.label := by
  induction reads with
  | nil => rfl
  | cons same _ ih => rw [map_cons, map_cons, ih, same.label]

/-- A chapter as read has the name of the one written. -/
theorem Chapter.Reads.named : read.map Chapter.first = found.map Chapter.first := by
  simpa [Chapter.label, Function.comp_def] using congrArg (map Prod.fst) (Chapter.Reads.labels reads)

theorem Chapter.Reads.ops : Forall₂ Op.Reads (opsOfChapters found) (opsOfChapters read) :=
  rel_flatMap reads fun _ _ chapter => rel_flatMap chapter.batches fun _ _ batch => batch.2

theorem Chapter.Reads.fits
    (fits : ∀ chapter ∈ found, ∀ op ∈ chapter.ops, op.Fits [chapter.first]) :
    ∀ chapter ∈ read, ∀ op ∈ chapter.ops, op.Fits [chapter.first] := by
  induction reads with
  | nil => nofun
  | @cons chapter other _ _ same _ ih =>
    rw [forall_mem_cons] at fits ⊢
    refine ⟨?_, ih fits.2⟩
    rw [show other.first = chapter.first from congrArg Prod.fst same.label]
    exact Op.Reads.fits (rel_flatMap same.batches fun _ _ batch => batch.2) fits.1

end Reads

theorem Op.Reads.unset {ops found : List Op} (reads : Forall₂ Op.Reads ops found)
    {position : UInt64} (unset : lastEffect Op.effect found position = none) :
    lastEffect Op.effect ops position = none := by
  induction reads with
  | nil => rfl
  | @cons op read _ _ same _ ih =>
    rw [lastEffect, Option.or_eq_none_iff] at unset ⊢
    refine ⟨ih unset.1, ?_⟩
    cases op <;> cases read <;> simp_all [Op.Reads, Op.effect]

/-! ### The invariant -/

/-- The book is the replay of every chapter above the floor. -/
structure Telling.Holds (telling : Telling) : Prop where
  counted : telling.book.Counted
  labels : telling.book.segments.map Segment.label = telling.kept.map Chapter.label
  ordered : telling.chapters.Pairwise fun older newer => older.first < newer.first
  fits : ∀ chapter ∈ telling.chapters, ∀ op ∈ chapter.ops, op.Fits [chapter.first]
  linked : Linked 0 telling.chapters
  last : lastOf 0 telling.chapters = telling.lastBatch
  index : ∀ position : UInt64, telling.book.index[position]? =
    if position < telling.floor then none
    else replay Op.effect (opsOfChapters telling.chapters) position

namespace Telling.Holds

variable {telling : Telling}

section

variable (holds : telling.Holds) {older rest : List Chapter}
  (split : telling.chapters = older ++ rest) (durable : older.length ≤ telling.dropped.length)

include holds split durable

theorem replay_suffix {position : UInt64} (above : ¬ position < telling.floor) :
    replay Op.effect (opsOfChapters telling.chapters) position =
      replay Op.effect (opsOfChapters rest) position := by
  have index := holds.index position
  rw [if_neg above] at index
  rw [split, opsOfChapters_append] at index ⊢
  refine replay_drop fun place left op member sets => ?_
  rw [left] at index
  -- What the log leaves is located in a kept segment, and no older chapter has its name.
  have located := holds.counted.located position place index
  rw [firsts_of_labels holds.labels] at located
  obtain ⟨keeper, kept, name⟩ := mem_map.mp located
  obtain ⟨chapter, inOlder, inside⟩ := mem_flatMap.mp member
  have inDropped : chapter ∈ telling.dropped := by
    have taken : older = telling.dropped.take older.length := by
      have cut := congrArg (take older.length) split
      rw [Telling.chapters, take_append_of_le_length durable] at cut
      simpa using cut.symm
    rw [taken] at inOlder
    exact mem_of_mem_take inOlder
  have apart : chapter.first < keeper.first :=
    (pairwise_append.mp holds.ordered).2.2 chapter inDropped keeper kept
  have fits := holds.fits chapter (mem_append_left _ inDropped) op inside
  cases op with
  | clear start stop =>
    simp only [Op.effect] at sets
    split at sets <;> cases sets
  | put own found =>
    simp only [Op.effect] at sets
    split at sets
    · cases sets
      have same : place.segment = chapter.first := mem_singleton.mp fits
      omega
    · cases sets

theorem recount_suffix (file : Nat) (geometry : Geometry) :
    ∃ book, recount file geometry rest telling.floor = .ok book ∧
      book.index = telling.book.index := by
  have ordered := holds.ordered
  rw [split] at ordered
  obtain ⟨book, done, index⟩ := recount_ok file geometry telling.floor
    (pairwise_append.mp ordered).2.1
    (fun chapter member => holds.fits chapter (by rw [split]; exact mem_append_right _ member))
  refine ⟨book, done, Std.ExtTreeMap.ext_getElem? fun position => ?_⟩
  rw [index position, holds.index position]
  by_cases below : position < telling.floor
  · simp [below]
  · rw [if_neg below, if_neg below, holds.replay_suffix split durable below]

end

end Telling.Holds

/-! ### Every step keeps it -/

variable {remaining : List Segment}

private theorem dropped_counted {index : Index} (dropped : Dropped segments remaining)
    (counted : Book.Counted ⟨segments, index⟩) : Book.Counted ⟨remaining, index⟩ := by
  induction dropped with
  | none segments => exact counted
  | front dead later ih => exact ih (counted.dropFront dead)

theorem Dropped.suffix (dropped : Dropped segments remaining) :
    ∃ gone, segments = gone ++ remaining := by
  induction dropped with
  | none segments => exact ⟨[], rfl⟩
  | @front front next rest remaining dead later ih =>
    obtain ⟨gone, shape⟩ := ih
    exact ⟨front :: gone, by rw [shape]; rfl⟩

variable {older : List Chapter}

variable {telling : Telling}

theorem Told.roll_holds {seq file : Nat} {geometry : Geometry} (holds : telling.Holds)
    (newest : ∀ chapter ∈ telling.chapters, chapter.first < seq) :
    Telling.Holds { telling with
      book := ⟨telling.book.segments ++
        [Segment.fresh seq telling.lastBatch file geometry], telling.book.index⟩
      kept := telling.kept ++ [⟨seq, telling.lastBatch, []⟩] } := by
  have chapters : telling.dropped ++ (telling.kept ++ [⟨seq, telling.lastBatch, []⟩]) =
      telling.chapters ++ [⟨seq, telling.lastBatch, []⟩] :=
    (append_assoc ..).symm
  refine ⟨holds.counted.roll (fun older member => ?_) rfl, ?_, ?_, ?_, ?_, ?_, fun position => ?_⟩
  · have named : older.firstBatch ∈ telling.kept.map Chapter.first := by
      rw [← firsts_of_labels holds.labels]
      exact mem_map.mpr ⟨older, member, rfl⟩
    obtain ⟨chapter, kept, name⟩ := mem_map.mp named
    rw [← name]
    exact newest chapter (mem_append_right _ kept)
  · simp [holds.labels, Segment.label, Chapter.label, Segment.fresh]
  · rw [Telling.chapters, chapters, pairwise_append]
    refine ⟨holds.ordered, pairwise_singleton _ _, fun chapter member last equal => ?_⟩
    rw [mem_singleton.mp equal]
    exact newest chapter member
  · rw [Telling.chapters, chapters]
    exact forall_mem_append.mpr ⟨holds.fits, forall_mem_singleton.mpr nofun⟩
  · rw [Telling.chapters, chapters]
    exact linked_append.mpr ⟨holds.linked, holds.last.symm, trivial⟩
  · rw [Telling.chapters, chapters, lastOf_append]
    rfl
  · change telling.book.index[position]? = if position < telling.floor then none else
      replay Op.effect (opsOfChapters
        (telling.dropped ++ (telling.kept ++ [⟨seq, telling.lastBatch, []⟩]))) position
    rw [chapters, opsOfChapters_append, holds.index position]
    simp [opsOfChapters, Chapter.ops]

private theorem opsOfChapters_commit (older : List Chapter) (active : Chapter) (seq : Nat)
    (ops : List Op) :
    opsOfChapters (older ++ [{ active with batches := active.batches ++ [(seq, ops)] }]) =
      opsOfChapters (older ++ [active]) ++ ops := by
  simp [opsOfChapters, Chapter.ops]

theorem Told.commit_holds {active : Chapter} {seq : Nat} {ops : List Op} {floor : UInt64}
    {moved : List Segment} {applied after : Book} (holds : telling.Holds)
    (current : telling.kept = older ++ [active]) (located : ∀ op ∈ ops, op.Fits [active.first])
    (cursors : Book.Moved telling.book.segments moved)
    (memory : Book.applyAll ops ⟨moved, telling.book.index⟩ = .ok applied)
    (raised : telling.floor ≤ floor) (above : applied.dropBelowFloor floor = .ok after) :
    Telling.Holds { telling with
      book := after
      floor
      lastBatch := seq
      kept := older ++ [{ active with batches := active.batches ++ [(seq, ops)] }] } := by
  have before : telling.chapters = (telling.dropped ++ older) ++ [active] := by
    rw [Telling.chapters, current, append_assoc]
  have chapters : ∀ last : Chapter, telling.dropped ++ (older ++ [last]) =
      (telling.dropped ++ older) ++ [last] := fun last => (append_assoc ..).symm
  have labels : moved.map Segment.label = telling.kept.map Chapter.label :=
    (cursors.map fun _ => rfl).trans holds.labels
  have fitsBook : ∀ op ∈ ops, op.Fits (Book.firsts moved) := by
    intro op member
    refine (located op member).mono fun first same => ?_
    rw [mem_singleton.mp same, firsts_of_labels labels, current]
    simp
  obtain ⟨middle, done, middleCounted, same, index⟩ :=
    Book.applyAll_ok (cursors.counted holds.counted) fitsBook
  cases memory.symm.trans done
  obtain ⟨final, dropped, finalCounted, sameAgain, finalIndex⟩ :=
    Book.dropBelowFloor_ok middleCounted floor
  cases above.symm.trans dropped
  have ordered := holds.ordered
  have fits := holds.fits
  have linked := holds.linked
  rw [before] at ordered fits linked
  refine ⟨finalCounted, ?_, ?_, ?_, ?_, ?_, fun position => ?_⟩
  · rw [sameAgain.labels, same.labels, labels, current]
    simp [Chapter.label]
  · rw [Telling.chapters, chapters]
    rw [pairwise_append] at ordered ⊢
    refine ⟨ordered.1, pairwise_singleton _ _, fun chapter member last equal => ?_⟩
    rw [mem_singleton.mp equal]
    exact ordered.2.2 chapter member active (mem_singleton.mpr rfl)
  · intro chapter member
    rw [Telling.chapters, chapters] at member
    rcases mem_append.mp member with earlier | last
    · exact fits chapter (mem_append_left _ earlier)
    rw [mem_singleton.mp last]
    intro op inside
    simp only [Chapter.ops, flatMap_append, mem_append] at inside
    rcases inside with old | new
    · exact fits active (by simp) op old
    · exact located op (by simpa using new)
  · rw [Telling.chapters, chapters]
    have split := linked_append.mp linked
    exact linked_append.mpr ⟨split.1, split.2.1, trivial⟩
  · rw [Telling.chapters, chapters, lastOf_append]
    simp [lastOf, Chapter.last]
  · rw [Telling.chapters, chapters, opsOfChapters_commit, finalIndex position, index position,
      holds.index position, replay_append, ← before]
    by_cases below : position < floor
    · simp [below]
    · have stillAbove : ¬ position < telling.floor := fun under =>
        below (UInt64.lt_of_lt_of_le under raised)
      simp [below, stillAbove]

theorem Told.raise_holds {floor : UInt64} {after : Book} (holds : telling.Holds)
    (raised : telling.floor ≤ floor) (above : telling.book.dropBelowFloor floor = .ok after) :
    Telling.Holds { telling with book := after, floor } := by
  obtain ⟨final, dropped, finalCounted, same, finalIndex⟩ :=
    Book.dropBelowFloor_ok holds.counted floor
  cases above.symm.trans dropped
  refine { holds with
    counted := finalCounted, labels := same.labels.trans holds.labels, index := fun position => ?_ }
  have sameChapters : Telling.chapters { telling with book := after, floor } = telling.chapters :=
    rfl
  rw [sameChapters, finalIndex position, holds.index position]
  by_cases below : position < floor
  · simp [below]
  · have stillAbove : ¬ position < telling.floor := fun under =>
      below (UInt64.lt_of_lt_of_le under raised)
    simp [below, stillAbove]

theorem Told.remove_holds {journal : Journal} {world : World} {gone remaining : List Chapter}
    (holds : telling.Holds) (memory : journal.toBook = telling.book)
    (split : telling.kept = gone ++ remaining)
    (left : (removalResult (journal.removeDeadSegments world).result).segments.length =
      remaining.length) :
    Telling.Holds { telling with
      book := (removalResult (journal.removeDeadSegments world).result).toBook
      dropped := telling.dropped ++ gone
      kept := remaining } := by
  have removed := journal.removeDeadSegments_dropped world
  set result := removalResult (journal.removeDeadSegments world).result with shape
  have dropped : Dropped telling.book.segments result.segments := by
    rw [← memory]
    exact removed.1
  have index : result.index = telling.book.index := by
    rw [← memory, removed.2.rest.1]
  have chapters : Telling.chapters { telling with
      book := result.toBook, dropped := telling.dropped ++ gone, kept := remaining } =
      telling.chapters := by
    simp [Telling.chapters, split]
  refine ⟨?_, ?_, ?_, ?_, ?_, ?_, fun position => ?_⟩
  · have counted := dropped_counted dropped holds.counted
    rw [← index] at counted
    exact counted
  · obtain ⟨front, whole⟩ := dropped.suffix
    have labels := holds.labels
    rw [whole, split, map_append, map_append] at labels
    exact append_inj_right' labels (by simpa using left)
  · rw [chapters]
    exact holds.ordered
  · rw [chapters]
    exact holds.fits
  · rw [chapters]
    exact holds.linked
  · rw [chapters]
    exact holds.last
  · rw [chapters, index]
    exact holds.index position

theorem Told.reopen_holds {found lost read : List Chapter} {lastBatch : Nat} {applied after : Book}
    (holds : telling.Holds) (split : telling.chapters = older ++ (found ++ lost))
    (durable : older.length ≤ telling.dropped.length)
    (empty : ∀ chapter ∈ lost, chapter.batches = []) (outlives : found = [] → older = [])
    (reads : Forall₂ Chapter.Reads found read)
    (chained : scanChain (read.head?.elim 0 (·.prev)) read = some lastBatch)
    (labels : segments.map Segment.label = read.map Chapter.label)
    (idle : ∀ segment ∈ segments, segment.live = 0)
    (memory : Book.applyAll (opsOfChapters read) ⟨segments, ∅⟩ = .ok applied)
    (above : applied.dropBelowFloor telling.floor = .ok after) :
    Telling.Holds ⟨after, telling.floor, lastBatch, older, read⟩ := by
  have regrouped : telling.chapters = (older ++ found) ++ lost := by
    rw [split, append_assoc]
  have ordered := holds.ordered
  have fits := holds.fits
  have linked := holds.linked
  rw [regrouped] at ordered fits linked
  -- The scan reads the names and links that were written.
  have names := Chapter.Reads.named reads
  have keptOrdered : (older ++ read).Pairwise fun older newer => older.first < newer.first := by
    have before := pairwise_map.mpr (pairwise_append.mp ordered).1
    rw [map_append, ← names, ← map_append] at before
    exact pairwise_map.mp before
  have readFits := Chapter.Reads.fits reads fun chapter member => fits chapter (by simp [member])
  obtain ⟨_, book, done, dropped, counted, sameLabels, index⟩ := reread_ok telling.floor labels idle
    (pairwise_append.mp keptOrdered).2.1 readFits
  cases memory.symm.trans done
  cases above.symm.trans dropped
  obtain ⟨chain, final⟩ := linked_of_scanChain chained
  have ends : lastOf 0 older = read.head?.elim 0 (·.prev) := by
    cases reads with
    | nil => rw [outlives rfl]; rfl
    | cons same =>
      have prev := congrArg Prod.snd same.label
      exact (linked_append.mp (linked_append.mp linked).1).2.1.symm.trans prev.symm
  refine ⟨counted, sameLabels, keptOrdered, forall_mem_append.mpr
      ⟨fun chapter member => fits chapter (by simp [member]), readFits⟩,
    linked_append.mpr ⟨(linked_append.mp (linked_append.mp linked).1).1, ?_⟩, ?_,
    fun position => ?_⟩
  · rw [ends]
    exact chain
  · rw [Telling.chapters, lastOf_append, ends]
    exact final
  change after.index[position]? = if position < telling.floor then none else
    replay Op.effect (opsOfChapters (older ++ read)) position
  rw [index position]
  by_cases below : position < telling.floor
  · simp [below]
  rw [if_neg below, if_neg below, opsOfChapters_append, replay_append]
  unfold replay
  cases unset : lastEffect Op.effect (opsOfChapters read) position with
  | some set => rfl
  | none =>
    -- Nothing found sets the position, and before the open nothing older was left there.
    have whole := holds.replay_suffix split durable below
    rw [regrouped, opsOfChapters_append, opsOfChapters_append found lost,
      opsOfChapters_empty empty, append_nil, append_nil, opsOfChapters_append, replay_append,
      Op.Reads.unset (Chapter.Reads.ops reads) unset, Option.getD_none] at whole
    unfold replay at whole
    rw [Op.Reads.unset (Chapter.Reads.ops reads) unset] at whole
    exact whole.symm

theorem Told.create_holds : Telling.Holds ⟨⟨[], ∅⟩, 0, 0, [], []⟩ where
  counted := Book.counted_empty List.Pairwise.nil (by simp)
  labels := rfl
  ordered := List.Pairwise.nil
  fits := by simp [Telling.chapters]
  linked := trivial
  last := rfl
  index := fun position => by simp [Telling.chapters, opsOfChapters, replay, lastEffect]

theorem Told.holds (told : Told telling) : telling.Holds := by
  induction told with
  | create => exact create_holds
  | roll told newest holds => exact roll_holds holds newest
  | commit told current located cursors memory raised above holds =>
    exact commit_holds holds current located cursors memory raised above
  | raise told raised above holds => exact raise_holds holds raised above
  | remove told memory split left holds => exact remove_holds holds memory split left
  | reopen told split durable empty outlives reads chained labels idle memory above holds =>
    exact reopen_holds holds split durable empty outlives reads chained labels idle memory above

/-! ### The result -/

/-- Dropping dead front segments neither resurrects nor loses an entry: whichever of them are still
there at an open, the replay is the index, the links of what is left hold, and the scan that checks
them ends at the last batch. -/
theorem Told.remaining_replay_whole {telling : Telling} (told : Told telling)
    {older rest : List Chapter} (split : telling.chapters = older ++ rest)
    (durable : older.length ≤ telling.dropped.length) (file : Nat) (geometry : Geometry) :
    ∃ part whole : Book,
      recount file geometry rest telling.floor = .ok part ∧
      recount file geometry telling.chapters telling.floor = .ok whole ∧
      part.index = whole.index ∧ part.index = telling.book.index ∧
      telling.book.segments.map Segment.label = telling.kept.map Chapter.label ∧
      Linked (rest.head?.elim 0 (·.prev)) rest ∧
      (rest ≠ [] → scanChain (rest.head?.elim 0 (·.prev)) rest = some telling.lastBatch) := by
  have holds := told.holds
  obtain ⟨part, partDone, partIndex⟩ := holds.recount_suffix split durable file geometry
  obtain ⟨whole, wholeDone, wholeIndex⟩ :=
    holds.recount_suffix (nil_append _).symm (Nat.zero_le _) file geometry
  have linked := holds.linked
  have last := holds.last
  rw [split] at linked last
  refine ⟨part, whole, partDone, wholeDone, partIndex.trans wholeIndex.symm, partIndex,
    holds.labels, linked.suffix, fun some_ => ?_⟩
  rw [scanChain_of_linked linked.suffix, ← last, lastOf_append]
  cases rest with
  | nil => exact absurd rfl some_
  | cons => rfl

/-- Two segments, each with a put at position 5; the first is dropped, and an open finds the
second. -/
theorem exists_overwritten : ∃ telling, Told telling ∧ telling.dropped.map Chapter.first = [1] ∧
    telling.kept.map Chapter.first = [2] ∧ telling.lastBatch = 2 ∧
    telling.book.segments.map (·.live) = [1] := by
  let place : Nat → Located := fun segment =>
    ⟨segment, 8192, 40960, 1, 7, Vector.replicate idSize 0, segment, 0, 1, 0, false⟩
  let names : Names := { Names.none with segments := (∅ : NameMap).insert 1 0 |>.insert 2 1 }
  let journal : Book → Journal := fun book =>
    { toBook := book, id := ⟨0⟩, config := ⟨.ordered, .small⟩, metaFile := 0,
      info := ⟨1, ⟨0⟩, 0, 0, 1, 0, .small, []⟩, lastBatch := 2, ambiguousBatch := none,
      generation := 1, poisoned := false, spare := none, sparesNamed := 0, rolls := ⟨0, 0⟩ }
  have first := @Told.commit _ [] _ 1 [.put 5 (place 1)] 0 _ _ _
    (@Told.roll _ 1 0 .small Told.create (by simp [Telling.chapters])) rfl
    (by simp [Op.Fits, place]) rfl rfl (UInt64.le_refl 0) rfl
  have second := @Told.commit _ _ _ 2 [.put 5 (place 2)] 0 _ _ _
    (@Told.roll _ 2 1 .small first (by simp [Telling.chapters])) rfl
    (by simp [Op.Fits, place]) rfl rfl (UInt64.le_refl 0) rfl
  have removed := @Told.remove _ (journal _)
    ⟨{ Disk.empty with synced := names, names := names, next := 2 }, []⟩ [_] [_] second rfl rfl rfl
  have reads : Forall₂ Chapter.Reads [⟨2, 1, [(2, [.put 5 (place 2)])]⟩]
      [⟨2, 1, [(2, [.put 5 (place 2)])]⟩] :=
    .cons ⟨rfl, .cons ⟨rfl, .cons ⟨rfl, rfl⟩ .nil⟩ .nil⟩ .nil
  have opened := @Told.reopen _ [_] [_] [] _ [.fresh 2 1 1 .small] _ _ _ removed rfl
    (le_refl _) nofun nofun reads rfl rfl (by simp [Segment.fresh]) rfl rfl
  exact ⟨_, opened, rfl, rfl, rfl, by decide⟩

theorem Told.remaining_replay_whole_overwritten :
    ∃ (telling : Telling) (part whole : Book),
      Told telling ∧ telling.dropped.map Chapter.first = [1] ∧
      telling.kept.map Chapter.first = [2] ∧
      recount 0 .small telling.kept telling.floor = .ok part ∧
      recount 0 .small telling.chapters telling.floor = .ok whole ∧
      part.index = whole.index ∧ part.index = telling.book.index ∧
      scanChain (telling.kept.head?.elim 0 (·.prev)) telling.kept = some 2 := by
  obtain ⟨telling, told, dropped, kept, last, -⟩ := exists_overwritten
  obtain ⟨part, whole, partDone, wholeDone, same, index, -, -, chained⟩ :=
    told.remaining_replay_whole rfl (le_refl _) 0 .small
  have some_ : telling.kept ≠ [] := fun none => by simp [none] at kept
  exact ⟨telling, part, whole, told, dropped, kept, partDone, wholeDone, same, index,
    last ▸ chained some_⟩

/-- Whatever was committed, rolled, raised, removed and reopened: each segment counts its index
entries, each entry lies in a listed segment, and the index is what all batches say at and above the
floor. -/
theorem Told.counts_exact {telling : Telling} (told : Told telling) :
    telling.book.Counted ∧ ∀ position : UInt64, telling.book.index[position]? =
      if position < telling.floor then none
      else Lib.replay Op.effect (opsOfChapters telling.chapters) position :=
  ⟨told.holds.counted, told.holds.index⟩

/-- After an overwrite, a removal and an open, the segment left counts its one entry. -/
theorem Told.counts_exact_overwritten :
    ∃ telling, Told telling ∧ telling.dropped.map Chapter.first = [1] ∧
      telling.kept.map Chapter.first = [2] ∧ telling.book.segments.map (·.live) = [1] ∧
      telling.book.Counted := by
  obtain ⟨telling, told, dropped, kept, -, live⟩ := exists_overwritten
  exact ⟨telling, told, dropped, kept, live, told.counts_exact.1⟩

end Moonpool.Journal
