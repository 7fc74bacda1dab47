import Moonpool.Journal.Recover

/-!
Owns where a scan may tell an open to write, whatever the segment files hold: the cursors
and the rewritten records stay inside the two logs, past the headers.
-/

namespace Moonpool.Journal

open List

variable [Crc32c]

/-- The records of a scanned batch lie in the persist log. -/
structure BatchScan.Within (geometry : Geometry) (batch : BatchScan) : Prop where
  place : ∃ boundary, batch.persistAt = Geometry.persistStart + boundary * recordSize ∧
    boundary % recordsPerBlock = 0 ∧
    boundary + batch.count ≤ geometry.persistBlocks * recordsPerBlock
  slots : batch.slots.length = batch.count

def CursorsWithin (geometry : Geometry) (cursors : Nat × Nat) : Prop :=
  Geometry.persistStart ≤ cursors.1 ∧ geometry.entryStart ≤ cursors.2

/-- Both cursors stand on a block boundary of their log. -/
structure CursorsOn (geometry : Geometry) (cursors : Nat × Nat) : Prop where
  within : CursorsWithin geometry cursors
  aligned : cursors.1 % block = 0 ∧ cursors.2 % block = 0

section Pass1

variable {geometry : Geometry} {content : Nat → Content} {tag : UInt32} {stale : Stale}
  {segment : Segment}

theorem walkSlots_extent {read : Nat → Slot} {seq count boundary remaining : Nat} :
    ∀ {index : Nat} {walk : Option Nat} {entriesEnd final : Nat} {slots : List Found},
      walkSlots geometry content tag read seq count boundary remaining index walk entriesEnd =
        .ok (slots, final) →
      entriesEnd ≤ final ∧ slots.length = remaining := by
  induction remaining with
  | zero =>
    intro index walk entriesEnd final slots shape
    cases shape
    exact ⟨le_refl _, rfl⟩
  | succ remaining ih =>
    intro index walk entriesEnd final slots shape
    unfold walkSlots at shape
    split at shape
    · cases shape
    split at shape
    · cases shape
    next here _ =>
      split at shape
      · cases shape
      next rest last walked =>
        cases shape
        obtain ⟨later, length⟩ := ih walked
        refine ⟨?_, by simp [length]⟩
        cases next : here.walkNext with
        | none => simpa [next] using later
        | some stop =>
          rw [next] at later
          exact le_trans (le_max_left _ _) later

structure ScanState.Within (geometry : Geometry) (state : ScanState) : Prop where
  batches : ∀ batch ∈ state.batches, batch.Within geometry
  boundary : state.boundary % recordsPerBlock = 0
  entryCursor : geometry.entryStart ≤ state.entryCursor
  aligned : state.entryCursor % block = 0

theorem scanBatch_within {state next : ScanState} (within : state.Within segment.geometry)
    (taken : scanBatch segment content tag stale state = .ok (some next)) :
    next.Within segment.geometry := by
  unfold scanBatch at taken
  split at taken
  · cases taken
  · cases taken
  next seq count _ =>
    by_cases full : segment.slots < state.boundary + count
    · rw [if_pos full] at taken
      cases taken
    rw [if_neg full] at taken
    split at taken
    · cases taken
    next slots entriesEnd walked =>
      obtain ⟨later, length⟩ := walkSlots_extent walked
      cases taken
      refine ⟨fun batch member => ?_, ?_, ?_, Nat.mul_mod_left _ _⟩
      · rcases mem_append.mp member with old | new
        · exact within.batches batch old
        · rw [mem_singleton.mp new]
          exact ⟨⟨state.boundary, rfl, within.boundary, Nat.le_of_not_lt full⟩, length⟩
      · have aligned := within.boundary
        show (state.boundary + Record.blocksFor count * recordsPerBlock) %
          recordsPerBlock = 0
        rw [Nat.add_mul_mod_self_right]
        exact aligned
      · exact le_trans within.entryCursor (le_trans later (alignUp_ge _))

theorem scanBatches_within {steps : Nat} : ∀ {state final : ScanState},
    state.Within segment.geometry →
    scanBatches segment content tag stale steps state = .ok final →
    final.Within segment.geometry := by
  induction steps with
  | zero =>
    intro state final within taken
    cases taken
    exact within
  | succ steps ih =>
    intro state final within taken
    unfold scanBatches at taken
    by_cases room : state.boundary < segment.slots
    · rw [if_pos room] at taken
      split at taken
      · cases taken
      · cases taken
        exact within
      next next shape =>
        exact ih (scanBatch_within within shape) taken
    · rw [if_neg room] at taken
      cases taken
      exact within

theorem scanSegment_within {prev : Nat} {scanned : List BatchScan × Nat × Nat}
    (taken : scanSegment segment content tag stale prev = .ok scanned) :
    (∀ batch ∈ scanned.1, batch.Within segment.geometry) ∧
      CursorsOn segment.geometry scanned.2 := by
  unfold scanSegment at taken
  split at taken
  · cases taken
  next final shape =>
    have within := scanBatches_within
      ⟨fun _ member => absurd member not_mem_nil, Nat.zero_mod _, le_refl _,
        segment.geometry.entryStart_aligned⟩ shape
    cases taken
    refine ⟨within.batches, ⟨Nat.le_add_right _ _, within.entryCursor⟩, ?_, within.aligned⟩
    have whole := within.boundary
    simp only [Geometry.persistStart, recordsPerBlock, recordSize, block] at whole ⊢
    omega

theorem scanSegments_within {files : Nat → Nat → Content} {segments : List Segment} :
    ∀ {last final : Nat} {scanned : List (List BatchScan × Nat × Nat)},
      (∀ segment ∈ segments, segment.geometry = geometry) →
      scanSegments files tag stale segments last = .ok (scanned, final) →
      scanned.length = segments.length ∧ ∀ each ∈ scanned,
        (∀ batch ∈ each.1, batch.Within geometry) ∧ CursorsOn geometry each.2 := by
  induction segments with
  | nil =>
    intro last final scanned _ taken
    cases taken
    exact ⟨rfl, fun _ member => absurd member not_mem_nil⟩
  | cons segment rest ih =>
    intro last final scanned shapes taken
    unfold scanSegments at taken
    split at taken
    · cases taken
    split at taken
    · cases taken
    next here hereShape =>
      split at taken
      · cases taken
      next more finalLast moreShape =>
        cases taken
        obtain ⟨length, each⟩ := ih
          (fun other member => shapes other (mem_cons_of_mem _ member)) moreShape
        refine ⟨by simp [length], fun other member => ?_⟩
        rcases mem_cons.mp member with rfl | later
        · have within := scanSegment_within hereShape
          rw [shapes segment mem_cons_self] at within
          exact within
        · exact each other later

end Pass1

section Pass2

variable {geometry : Geometry} {content : Nat → Content} {tag : UInt32} {segment : Segment}

theorem judgeSlots_length {batch : BatchScan} {isLast : Bool} {slots : List Found} :
    ∀ {index rebuilt voided : Nat} {verdicts : List Verdict},
      judgeSlots segment content tag batch isLast index rebuilt voided slots = .ok verdicts →
      verdicts.length = slots.length := by
  induction slots with
  | nil =>
    intro index rebuilt voided verdicts judged
    unfold judgeSlots at judged
    split at judged <;> cases judged
    rfl
  | cons found rest ih =>
    intro index rebuilt voided verdicts judged
    unfold judgeSlots at judged
    split at judged
    · cases judged
    split at judged
    · cases judged
    dsimp only at judged
    split at judged
    · cases judged
    split at judged
    · cases judged
    next others shape =>
      cases judged
      simp [ih shape]

/-- Where an open may rewrite records: in the persist log of a segment below `segments`. -/
def RewriteWithin (geometry : Geometry) (segments : Nat)
    (rewrite : Option (Nat × Nat × List Record)) : Prop :=
  ∀ segmentIndex offset records, rewrite = some (segmentIndex, offset, records) →
    segmentIndex < segments ∧ Geometry.persistStart ≤ offset ∧
      offset + Record.blocksFor records.length * block ≤ geometry.persistEnd

omit [Crc32c] in
theorem BatchScan.Within.room {batch : BatchScan} (within : batch.Within geometry) :
    Geometry.persistStart ≤ batch.persistAt ∧
      batch.persistAt + Record.blocksFor batch.count * block ≤ geometry.persistEnd := by
  obtain ⟨boundary, place, aligned, room⟩ := within.place
  unfold Geometry.persistEnd Record.blocksFor alignUp
  simp only [block, recordSize, recordsPerBlock] at *
  omega

theorem judgeBatch_within {segmentIndex segments : Nat} {batch : BatchScan} {isLast : Bool}
    {out after : Scan} (within : batch.Within geometry) (named : segmentIndex < segments)
    (before : RewriteWithin geometry segments out.rewrite)
    (judged : judgeBatch segment segmentIndex content tag batch isLast out = .ok after) :
    RewriteWithin geometry segments after.rewrite ∧ after.cursors = out.cursors := by
  unfold judgeBatch at judged
  split at judged
  · cases judged
  next verdicts shape =>
    cases judged
    refine ⟨?_, rfl⟩
    intro index offset records rewritten
    split at rewritten
    · cases rewritten
      rw [length_map, judgeSlots_length shape, within.slots]
      exact ⟨named, within.room⟩
    · exact before index offset records rewritten

theorem judgeBatches_within {segmentIndex segments : Nat} {final : Bool}
    {batches : List BatchScan} (named : segmentIndex < segments) : ∀ {out after : Scan},
    (∀ batch ∈ batches, batch.Within geometry) → RewriteWithin geometry segments out.rewrite →
    judgeBatches segment segmentIndex content tag final batches out = .ok after →
    RewriteWithin geometry segments after.rewrite ∧ after.cursors = out.cursors := by
  induction batches with
  | nil =>
    intro out after _ before judged
    cases judged
    exact ⟨before, rfl⟩
  | cons batch rest ih =>
    intro out after within before judged
    unfold judgeBatches at judged
    split at judged
    · cases judged
    next middle shape =>
      obtain ⟨kept, cursors⟩ :=
        judgeBatch_within (within batch mem_cons_self) named before shape
      obtain ⟨final, same⟩ := ih
        (fun other member => within other (mem_cons_of_mem _ member)) kept judged
      exact ⟨final, same.trans cursors⟩

theorem judgeSegments_within {files : Nat → Nat → Content} {segments : List Segment} :
    ∀ {segmentIndex total : Nat} {scanned : List (List BatchScan × Nat × Nat)} {out after : Scan},
      scanned.length = segments.length → segmentIndex + segments.length ≤ total →
      (∀ each ∈ scanned, ∀ batch ∈ each.1, batch.Within geometry) →
      RewriteWithin geometry total out.rewrite →
      judgeSegments files tag segmentIndex segments scanned out = .ok after →
      RewriteWithin geometry total after.rewrite ∧
        after.cursors = out.cursors ++ scanned.map (·.2) := by
  induction segments with
  | nil =>
    intro segmentIndex total scanned out after length _ _ before judged
    rw [length_nil, length_eq_zero_iff] at length
    subst length
    cases judged
    exact ⟨before, by simp⟩
  | cons segment rest ih =>
    intro segmentIndex total scanned out after length enough within before judged
    cases scanned with
    | nil => cases length
    | cons here more =>
      unfold judgeSegments at judged
      split at judged
      · cases judged
      next middle shape =>
        simp only [length_cons] at length enough
        have named : segmentIndex < total := by omega
        obtain ⟨kept, cursors⟩ := judgeBatches_within named
          (within here mem_cons_self) (by exact before) shape
        have later : segmentIndex + 1 + rest.length ≤ total := by omega
        obtain ⟨final, same⟩ := ih (by omega) later
          (fun each member => within each (mem_cons_of_mem _ member)) kept judged
        refine ⟨final, ?_⟩
        rw [same, cursors]
        simp

end Pass2

/-- A scan's cursors and rewrite lie in the two logs, whatever the files hold. -/
theorem scan_within {geometry : Geometry} {files : Nat → Nat → Content} {segments : List Segment}
    {tag : UInt32} {stale : Stale} {scanned : Scan}
    (shapes : ∀ segment ∈ segments, segment.geometry = geometry)
    (done : scan files segments tag stale = .ok scanned) :
    RewriteWithin geometry segments.length scanned.rewrite ∧
      scanned.cursors.length = segments.length ∧
      ∀ cursors ∈ scanned.cursors, CursorsOn geometry cursors := by
  unfold scan at done
  split at done
  · cases done
  next perSegment last shape =>
    obtain ⟨length, each⟩ := scanSegments_within shapes shape
    have enough : 0 + segments.length ≤ segments.length := le_of_eq (zero_add _)
    obtain ⟨rewrite, cursors⟩ := judgeSegments_within length enough
      (fun one member => (each one member).1)
      (fun _ _ _ absurd => by cases absurd) done
    refine ⟨rewrite, by simp [cursors, length], fun pair member => ?_⟩
    rw [cursors, nil_append, mem_map] at member
    obtain ⟨one, inside, rfl⟩ := member
    exact (each one inside).2

end Moonpool.Journal
