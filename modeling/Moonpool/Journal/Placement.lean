import Moonpool.Journal.Effects

/-!
Contract: in every run of commits, from a journal just created or just opened, a batch that
fits is encoded and placed inside the two logs of a segment, on blocks no earlier batch of
that segment uses, and batch numbers grow.

Owns:
- `Grown`, the journals such runs reach, with every batch placed on the way;
- `Journal.Laid`, what every step keeps: the cursors of a segment stand on block boundaries
  past every batch placed in it, and no segment is named as a later roll will name one;
- `Journal.Numbered`, the numbers `prepare` gives while generations and batches last.

Only what a commit leaves in memory matters here, so its calls may do anything. An open is
taken with what the generation it began makes true: the batches and the segments it found
are of earlier generations.
-/

namespace Moonpool.Journal

open Lib List

set_option linter.dupNamespace false

variable [Crc32c]

/-- Where the commit of `batch` puts it: the segment and the batch placed there. -/
def Journal.placement (journal : Journal) (batch : Batch) (world : World) :
    Except CommitError (Segment × Prepared) := do
  let prepared ← journal.prepare batch
  match (journal.segmentFor prepared world).result with
  | .error (_, error) => .error error
  | .ok (_, segment) =>
    let placed ← prepared.place segment.persistNext segment.entryNext
    return (segment, placed)

theorem history_commit {journal rolled : Journal} {batch : Batch} {world : World}
    {prepared placed : Prepared} {segment : Segment} {history : List (Nat × Prepared)}
    (some : batch.writes ≠ []) (prepares : journal.prepare batch = .ok prepared)
    (chosen : (journal.segmentFor prepared world).result = .ok (rolled, segment))
    (places : prepared.place segment.persistNext segment.entryNext = .ok placed) :
    (history ++ if batch.writes.isEmpty then [] else
      (journal.placement batch world).toOption.toList.map fun at_ => (at_.1.firstBatch, at_.2)) =
      history ++ [(segment.firstBatch, placed)] := by
  have placement : journal.placement batch world = .ok (segment, placed) := by
    simp [Journal.placement, prepares, chosen, places, bind, Except.bind, pure, Except.pure]
  rw [placement, if_neg (by simpa using some)]
  rfl

omit [Crc32c] in
theorem createJournal_ok {id : JournalId} {config : JournalConfig} {bytes : List UInt8}
    {world : World} {journal : Journal}
    (done : (createJournal id config bytes world).result = .ok journal) :
    ∃ metaFile, journal =
      { segments := [], index := ∅, id := id, config := config, metaFile := metaFile,
        info := ⟨1, id, 0, 0, 1, 0, config.geometry, bytes⟩, lastBatch := 0,
        ambiguousBatch := none, generation := 1, poisoned := false, spare := none,
        sparesNamed := 0, rolls := ⟨0, 0⟩ } := by
  obtain ⟨_, -, done⟩ := Proc.ok_of_bind done
  split at done
  · cases done
  obtain ⟨_, -, done⟩ := Proc.ok_of_bind done
  obtain ⟨found, -, done⟩ := Proc.ok_of_bind done
  split at done
  · cases done
  obtain ⟨metaFile, -, done⟩ := Proc.ok_of_bind done
  cases done
  exact ⟨metaFile, rfl⟩

/-- Journals reached by commits since they were created or opened, with the batches placed on the
way and their segments' names. -/
inductive Grown (geometry : Geometry) : Journal → List (Nat × Prepared) → Prop
  | created {journal : Journal} {id : JournalId} {config : JournalConfig} {bytes : List UInt8}
      {world : World} (shape : config.geometry = geometry)
      (done : (createJournal id config bytes world).result = .ok journal) : Grown geometry journal []
  | opened {journal : Journal} {recovery : Recovery} {id : JournalId} {config : JournalConfig}
      {world : World} (shape : config.geometry = geometry)
      (done : (openJournal id config world).result = .ok (some (journal, recovery)))
      (older : generationOf journal.lastBatch < journal.generation)
      (named : ∀ segment ∈ journal.segments, segment.firstBatch < firstBatchOf journal.generation) :
      Grown geometry journal []
  | commit {journal after : Journal} {history : List (Nat × Prepared)} {batch : Batch}
      {world : World} (grown : Grown geometry journal history)
      (done : (journal.commit batch world).result = .ok after) :
      Grown geometry after (history ++
        if batch.writes.isEmpty then [] else
          (journal.placement batch world).toOption.toList.map fun at_ => (at_.1.firstBatch, at_.2))

/-- A name no roll of this journal will give again. -/
def Journal.Past (journal : Journal) (first : Nat) : Prop :=
  first ≤ journal.lastBatch ∨ first < firstBatchOf journal.generation

/-- The cursors of a segment stand on block boundaries past every batch placed in it. -/
structure Segment.Laid (geometry : Geometry) (history : List (Nat × Prepared))
    (segment : Segment) : Prop where
  shape : segment.geometry = geometry
  aligned : segment.persistNext % block = 0 ∧ segment.entryNext % block = 0
  low : Geometry.persistStart ≤ segment.persistNext ∧ geometry.entryStart ≤ segment.entryNext
  past : ∀ old ∈ history, old.1 = segment.firstBatch →
    old.2.persistAt + old.2.recordBuf.len ≤ segment.persistNext ∧
      old.2.entryAt + old.2.entriesLen ≤ segment.entryNext

structure Journal.Laid (geometry : Geometry) (journal : Journal)
    (history : List (Nat × Prepared)) : Prop where
  shape : journal.config.geometry = geometry
  segments : ∀ segment ∈ journal.segments,
    segment.Laid geometry history ∧ journal.Past segment.firstBatch
  named : ∀ old ∈ history, journal.Past old.1

section Laid

variable {geometry : Geometry} {journal after rolled : Journal} {batch : Batch} {world : World}
  {history : List (Nat × Prepared)} {prepared placed : Prepared} {segment : Segment}

omit [Crc32c] in
theorem Segment.Laid.congr {other : Segment} (laid : segment.Laid geometry history)
    (idle : other.idle = segment.idle) : other.Laid geometry history := by
  rw [Segment.eq_of_idle idle]
  exact ⟨laid.shape, laid.aligned, laid.low, laid.past⟩

/-- Whatever the generation's first number is, the next batch's is not below it. -/
theorem Prepared.Ready.past (ready : prepared.Ready journal batch) {first : Nat}
    (past : journal.Past first) : first < prepared.seq := by
  have grows := ready.grows
  rcases past with old | generation
  · omega
  · refine lt_of_lt_of_le generation ?_
    rw [ready.seq, Journal.nextSeq] at grows ⊢
    split
    next same =>
      rw [if_pos same] at grows
      have low : journal.generation <<< generationShift ≤ journal.lastBatch := by
        rw [← same, generationOf, Nat.shiftLeft_eq, Nat.shiftRight_eq_div_pow]
        exact Nat.div_mul_le_self _ _
      have small := Nat.mod_le (journal.generation <<< generationShift) (2 ^ 64)
      have short := Nat.mod_le (journal.lastBatch + 1) (2 ^ 64)
      unfold firstBatchOf
      omega
    · exact le_refl _

omit [Crc32c] in
theorem Journal.Laid.trims {segments : List Segment} (shape : after.config.geometry = geometry)
    (laid : ∀ segment ∈ segments,
      segment.Laid geometry history ∧ after.Past segment.firstBatch)
    (named : ∀ old ∈ history, after.Past old.1) (trims : Trims segments after.segments) :
    after.Laid geometry history := by
  refine ⟨shape, fun segment member => ?_, named⟩
  obtain ⟨old, there, idle⟩ := trims segment member
  refine ⟨(laid old there).1.congr idle, ?_⟩
  rw [Segment.eq_of_idle idle]
  exact (laid old there).2

theorem Journal.Laid.chosen (laid : journal.Laid geometry history)
    (ready : prepared.Ready journal batch)
    (done : (journal.segmentFor prepared world).result = .ok (rolled, segment)) :
    rolled.config = journal.config ∧ rolled.generation = journal.generation ∧
      segment ∈ rolled.segments ∧ (∀ open_ ∈ rolled.segments,
        open_.Laid geometry history ∧ open_.firstBatch ≤ prepared.seq) ∧
      segment.persistNext + Record.blocksFor batch.writes.length * block ≤ geometry.persistEnd ∧
      segment.entryNext + prepared.entriesLen ≤ geometry.entryEnd := by
  have older : ∀ open_ ∈ journal.segments,
      open_.Laid geometry history ∧ open_.firstBatch ≤ prepared.seq := fun open_ member =>
    ⟨(laid.segments open_ member).1, le_of_lt (ready.past (laid.segments open_ member).2)⟩
  rcases segmentFor_ok done with ⟨rfl, last, fits⟩ | ⟨file, rfl, rfl⟩
  · have member : segment ∈ rolled.segments := mem_of_getLast? last
    have room := ready.room_active fits
    rw [(older segment member).1.shape] at room
    exact ⟨rfl, rfl, member, older, room⟩
  · have room := ready.room_fresh file
    rw [laid.shape] at room
    have fresh : (journal.rollSegment prepared file).Laid geometry history := by
      refine ⟨laid.shape, ⟨?_, ?_⟩, ⟨le_refl _, ?_⟩, ?_⟩
      · show Geometry.persistStart % block = 0
        decide
      · exact journal.config.geometry.entryStart_aligned
      · exact le_of_eq (by rw [← laid.shape]; rfl)
      · intro old member same
        exact absurd same (ne_of_lt (ready.past (laid.named old member)))
    refine ⟨rfl, rfl, mem_append_right _ (mem_singleton.mpr rfl), ?_, room⟩
    intro open_ member
    rcases mem_append.mp member with old | new
    · exact older open_ old
    · rw [mem_singleton.mp new]
      exact ⟨fresh, le_refl _⟩

theorem Segment.Laid.moved (segments : ∀ open_ ∈ rolled.segments,
      open_.Laid geometry history ∧ open_.firstBatch ≤ prepared.seq)
    (member : segment ∈ rolled.segments) (ready : prepared.Ready journal batch)
    (done : prepared.place segment.persistNext segment.entryNext = .ok placed) :
    ∀ open_ ∈ movedCursors rolled.segments segment placed,
      open_.Laid geometry (history ++ [(segment.firstBatch, placed)]) ∧
        open_.firstBatch ≤ placed.seq := by
  obtain ⟨persist, entry, rfl⟩ := place_ok done
  intro open_ inside
  obtain ⟨old, there, rfl⟩ := mem_map.mp inside
  have laid := (segments old there).1
  have chosen := (segments segment member).1
  split
  next same =>
    refine ⟨⟨laid.shape, ⟨?_, ?_⟩, ⟨?_, ?_⟩, ?_⟩, (segments old there).2⟩
    · simp only [recordBuf_len, block] at persist ⊢
      omega
    · simp only [ready.entriesLen, alignUp, block] at entry ⊢
      omega
    · exact Nat.le_trans chosen.low.1 (Nat.le_add_right ..)
    · exact Nat.le_trans chosen.low.2 (Nat.le_add_right ..)
    · intro one among named
      rcases mem_append.mp among with before | new
      · have past := chosen.past one before (named.trans same)
        exact ⟨Nat.le_trans past.1 (Nat.le_add_right ..), Nat.le_trans past.2 (Nat.le_add_right ..)⟩
      · rw [mem_singleton.mp new]
        exact ⟨Nat.le_refl _, Nat.le_refl _⟩
  next other =>
    refine ⟨⟨laid.shape, laid.aligned, laid.low, ?_⟩, (segments old there).2⟩
    intro one among named
    rcases mem_append.mp among with before | new
    · exact laid.past one before named
    · rw [mem_singleton.mp new] at named
      exact absurd named.symm other

theorem Journal.Laid.commit (laid : journal.Laid geometry history)
    (done : (journal.commit batch world).result = .ok after) :
    after.Laid geometry (history ++
      if batch.writes.isEmpty then [] else
        (journal.placement batch world).toOption.toList.map fun at_ => (at_.1.firstBatch, at_.2)) := by
  rcases Journal.commit_ok done with ⟨none, rfl | ⟨later, done⟩⟩ |
    ⟨some, prepared, rolled, segment, placed, later, prepares, chosen, places, absorbs⟩
  · simpa only [none, isEmpty_nil, if_true, append_nil] using laid
  · obtain ⟨trims, config, generation, last⟩ := Journal.afterCommit_trims done
    have past : ∀ {first}, journal.Past first → after.Past first := fun past => by
      rwa [Journal.Past, generation, last]
    simp only [none, isEmpty_nil, if_true, append_nil]
    exact Journal.Laid.trims (by rw [config]; exact laid.shape)
      (fun segment member => (laid.segments segment member).imp_right past)
      (fun old member => past (laid.named old member)) trims
  · have ready := Journal.prepare_ok prepares
    obtain ⟨trims, config, -, last⟩ := Journal.absorb_trims absorbs
    obtain ⟨same, -, member, segments, -⟩ := laid.chosen ready chosen
    have seq : placed.seq = prepared.seq := by
      obtain ⟨-, -, rfl⟩ := place_ok places
      rfl
    have moved := Segment.Laid.moved segments member ready places
    rw [history_commit some prepares chosen places]
    refine Journal.Laid.trims (by rw [config, same]; exact laid.shape)
      (fun open_ inside => ⟨(moved open_ inside).1, .inl ?_⟩)
      (fun old among => .inl ?_) trims
    · rw [last]
      exact (moved open_ inside).2
    · rw [last, seq]
      rcases mem_append.mp among with before | new
      · exact le_of_lt (ready.past (laid.named old before))
      · rw [mem_singleton.mp new]
        exact (segments segment member).2

theorem Grown.laid (grown : Grown geometry journal history) : journal.Laid geometry history := by
  induction grown with
  | created shape done =>
    obtain ⟨-, rfl⟩ := createJournal_ok done
    exact ⟨shape, nofun, nofun⟩
  | opened shape done older named =>
    obtain ⟨config, cursors⟩ := openJournal_ok done
    refine ⟨by rw [config, shape], fun segment member => ⟨?_, .inr (named segment member)⟩, nofun⟩
    obtain ⟨same, on⟩ := cursors segment member
    rw [shape] at same on
    exact ⟨same, on.aligned, on.within, nofun⟩
  | commit grown done ih => exact ih.commit done

/-- The batches of this open are numbered from the first of its generation on. -/
def Journal.Numbered (journal : Journal) (count : Nat) : Prop :=
  count = 0 ∧ generationOf journal.lastBatch < journal.generation ∨
    0 < count ∧ journal.lastBatch = journal.generation * 2 ^ generationShift + count

omit [Crc32c] in
/-- While generations and their numbers last, the next batch has the next number. -/
theorem Journal.Numbered.next {count : Nat} (numbered : journal.Numbered count)
    (generations : journal.generation < 2 ^ 24) (numbers : count + 1 < 2 ^ generationShift) :
    Journal.nextSeq journal.generation journal.lastBatch =
        journal.generation * 2 ^ generationShift + (count + 1) ∧
      journal.lastBatch < Journal.nextSeq journal.generation journal.lastBatch := by
  simp only [Journal.Numbered, Journal.nextSeq, generationOf, firstBatchOf,
    Nat.shiftRight_eq_div_pow, Nat.shiftLeft_eq, generationShift, Nat.reducePow] at *
  rcases numbered with ⟨rfl, older⟩ | ⟨some, last⟩
  · rw [if_neg (by omega)]
    omega
  · rw [if_pos (by omega)]
    omega

theorem Grown.numbered (grown : Grown geometry journal history)
    (generations : journal.generation < 2 ^ 24) (numbers : history.length < 2 ^ generationShift) :
    journal.Numbered history.length := by
  induction grown with
  | created shape done =>
    obtain ⟨-, rfl⟩ := createJournal_ok done
    exact .inl ⟨rfl, show generationOf 0 < 1 by decide⟩
  | opened shape done older named => exact .inl ⟨rfl, older⟩
  | @commit journal after history batch world grown done ih =>
    rcases Journal.commit_ok done with ⟨none, rfl | ⟨later, done⟩⟩ |
      ⟨some, prepared, rolled, segment, placed, later, prepares, chosen, places, absorbs⟩
    · simp only [none, isEmpty_nil, if_true, append_nil] at numbers ⊢
      exact ih generations numbers
    · obtain ⟨-, -, generation, last⟩ := Journal.afterCommit_trims done
      simp only [none, isEmpty_nil, if_true, append_nil, Journal.Numbered, generation, last]
        at generations numbers ⊢
      exact ih generations numbers
    · have ready := Journal.prepare_ok prepares
      obtain ⟨-, -, generation, last⟩ := Journal.absorb_trims absorbs
      obtain ⟨-, same, -⟩ := grown.laid.chosen ready chosen
      obtain ⟨-, -, rfl⟩ := place_ok places
      rw [history_commit some prepares chosen places, length_append, length_singleton] at numbers ⊢
      rw [generation, same] at generations
      have next := (ih generations (by omega)).next generations numbers
      refine .inr ⟨Nat.succ_pos _, ?_⟩
      rw [last, generation, same]
      exact ready.seq.trans next.1

/-- Two placed batches share no block of either log. -/
def Prepared.Apart (one other : Prepared) : Prop :=
  (one.persistAt + one.recordBuf.len ≤ other.persistAt ∨
    other.persistAt + other.recordBuf.len ≤ one.persistAt) ∧
  (one.entryAt + one.entriesLen ≤ other.entryAt ∨
    other.entryAt + other.entriesLen ≤ one.entryAt)

end Laid

omit [Crc32c] in
theorem ok_of_toOption {ε α : Type} {result : Except ε α} {value : α}
    (some : result.toOption = some value) : result = .ok value := by
  cases result <;> cases some
  rfl

def onePut : Batch := Batch.new.put 5 (Vector.replicate idSize 0) [1]

omit [Crc32c] in
/-- A journal just created, and two commits: the batches share the segment named after the first. -/
theorem exists_two_placed : letI := unchecked
    ∃ journal history, Grown .small journal history ∧
      history.map (·.1) = [2 ^ 40 + 1, 2 ^ 40 + 1] ∧ journal.generation = 1 := by
  let _ := unchecked
  let world : World := ⟨.empty, []⟩
  have seen : (createJournal ⟨7⟩ ⟨.ordered, .small⟩ [] world).result.toOption.bind (fun journal =>
      (journal.commit onePut world).result.toOption.bind fun middle =>
        (middle.commit (Batch.new.clear 0 9) world).result.toOption.map fun after =>
          ((journal.placement onePut world).toOption.map (·.1.firstBatch),
            (middle.placement (Batch.new.clear 0 9) world).toOption.map (·.1.firstBatch),
            after.generation)) = some (some (2 ^ 40 + 1), some (2 ^ 40 + 1), 1) := by
    decide +kernel
  obtain ⟨journal, created, seen⟩ := Option.bind_eq_some_iff.mp seen
  obtain ⟨middle, first, seen⟩ := Option.bind_eq_some_iff.mp seen
  obtain ⟨after, second, seen⟩ := Option.map_eq_some_iff.mp seen
  simp only [Prod.mk.injEq] at seen
  obtain ⟨one, one_eq, oneFirst⟩ := Option.map_eq_some_iff.mp seen.1
  obtain ⟨two, two_eq, twoFirst⟩ := Option.map_eq_some_iff.mp seen.2.1
  have grown := ((Grown.created rfl (ok_of_toOption created)).commit (ok_of_toOption first)).commit
    (ok_of_toOption second)
  refine ⟨after, _, grown, ?_, seen.2.2⟩
  rw [one_eq, two_eq]
  simp [onePut, Batch.new, Batch.put, Batch.clear, oneFirst, twoFirst]

section

variable {geometry : Geometry} {journal : Journal} {history : List (Nat × Prepared)}

/-- Over every run of commits the batch numbers grow, and of two batches in one segment the later
one lies behind the earlier one in both logs. -/
theorem Grown.batches_follow (grown : Grown geometry journal history) :
    history.Pairwise fun old later => old.2.seq < later.2.seq ∧ (old.1 = later.1 →
      old.2.persistAt + old.2.recordBuf.len ≤ later.2.persistAt ∧
        old.2.entryAt + old.2.entriesLen ≤ later.2.entryAt) := by
  suffices both : _ ∧ ∀ old ∈ history, old.2.seq ≤ journal.lastBatch from both.1
  induction grown with
  | created => exact ⟨.nil, nofun⟩
  | opened => exact ⟨.nil, nofun⟩
  | @commit journal after history batch world grown done ih =>
    rcases Journal.commit_ok done with ⟨none, rfl | ⟨later, done⟩⟩ |
      ⟨some, prepared, rolled, segment, placed, later, prepares, chosen, places, absorbs⟩
    · simpa only [none, isEmpty_nil, if_true, append_nil] using ih
    · obtain ⟨-, -, -, last⟩ := Journal.afterCommit_trims done
      simpa only [none, isEmpty_nil, if_true, append_nil, last] using ih
    · have ready := Journal.prepare_ok prepares
      obtain ⟨-, -, -, last⟩ := Journal.absorb_trims absorbs
      obtain ⟨-, -, member, segments, -⟩ := grown.laid.chosen ready chosen
      rw [history_commit some prepares chosen places, last]
      obtain ⟨-, -, rfl⟩ := place_ok places
      have newer : ∀ old ∈ history, old.2.seq < prepared.seq := fun old among =>
        Nat.lt_of_le_of_lt (ih.2 old among) ready.grows
      simp only [forall_mem_append, forall_mem_singleton]
      refine ⟨pairwise_append.mpr ⟨ih.1, pairwise_singleton _ _, fun old among => ?_⟩,
        fun old among => (newer old among).le, le_refl _⟩
      exact forall_mem_singleton.mpr
        ⟨newer old among, (segments segment member).1.past old among⟩

end

omit [Crc32c] in
/-- Two commits into one segment. -/
theorem Grown.batches_follow_two : letI := unchecked
    ∃ journal history, Grown .small journal history ∧
      history.map (·.1) = [2 ^ 40 + 1, 2 ^ 40 + 1] ∧
      history.Pairwise fun old later => old.2.seq < later.2.seq ∧ (old.1 = later.1 →
        old.2.persistAt + old.2.recordBuf.len ≤ later.2.persistAt ∧
          old.2.entryAt + old.2.entriesLen ≤ later.2.entryAt) := by
  let _ := unchecked
  obtain ⟨journal, history, grown, names, -⟩ := exists_two_placed
  exact ⟨journal, history, grown, names, grown.batches_follow⟩

/-- What a create leaves in memory. -/
def Journal.blank (geometry : Geometry) : Journal :=
  { segments := [], index := ∅, id := ⟨7⟩, config := ⟨.ordered, geometry⟩, metaFile := 0,
    info := ⟨1, ⟨7⟩, 0, 0, 1, 0, geometry, []⟩, lastBatch := 0, ambiguousBatch := none,
    generation := 1, poisoned := false, spare := none, sparesNamed := 0, rolls := ⟨0, 0⟩ }

end Moonpool.Journal
