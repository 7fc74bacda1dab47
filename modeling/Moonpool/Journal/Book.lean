import Moonpool.Lib.Replay
import Moonpool.Lib.Tally
import Moonpool.Journal.Index

/-!
Owns the correctness of the index: what each operation on the book does to the index, that
the live counts always cover it, and that no assertion in `apply`, `release` or
`drop_below_floor` can fail.

`Counted` is the invariant: the live count of every segment is the number of index
entries located in it.
-/

namespace Moonpool.Journal

open Lib List

def Op.effect : Op → UInt64 → Option (Option Located)
  | .put own place, position => if own = position then some (some place) else none
  | .clear start stop, position =>
    if start ≤ position ∧ position < stop then some none else none

/-- An operation the book can take: its entry is in a segment named in `firsts`. -/
def Op.Fits (firsts : List Nat) : Op → Prop
  | .put _ place => place.segment ∈ firsts
  | .clear start stop => start ≤ stop

def Segment.idle (segment : Segment) : Segment := { segment with live := 0 }

theorem Segment.eq_of_idle {segment other : Segment} (idle : other.idle = segment.idle) :
    other = { segment with live := other.live } :=
  congrArg (fun base : Segment => { base with live := other.live }) idle

namespace Book

def firsts (segments : List Segment) : List Nat := segments.map (·.firstBatch)

def liveSum (segments : List Segment) : Nat := (segments.map (·.live)).sum

structure Counted (book : Book) : Prop where
  ordered : book.segments.Pairwise fun older newer => older.firstBatch < newer.firstBatch
  located : ∀ (position : UInt64) (place : Located),
    book.index[position]? = some place → place.segment ∈ firsts book.segments
  live : ∀ segment ∈ book.segments,
    segment.live = tally (·.segment) book.index segment.firstBatch
  total : liveSum book.segments = book.index.size

def SameSegments (before after : List Segment) : Prop :=
  after.map Segment.idle = before.map Segment.idle

theorem SameSegments.origin {before after : List Segment} (same : SameSegments before after)
    {segment : Segment} (member : segment ∈ after) :
    ∃ old ∈ before, segment.idle = old.idle := by
  have idle : segment.idle ∈ before.map Segment.idle := same ▸ mem_map_of_mem member
  obtain ⟨old, inside, equal⟩ := mem_map.mp idle
  exact ⟨old, inside, equal.symm⟩

theorem SameSegments.firsts {before after : List Segment} (same : SameSegments before after) :
    firsts after = firsts before := by
  have names := congrArg (map Segment.firstBatch) same
  simpa [Book.firsts, Function.comp_def, Segment.idle] using names

section AdjustLive

variable {segments : List Segment} (first : Nat) (change : Nat → Nat)

theorem adjustLive_same (segments : List Segment) :
    SameSegments segments (adjustLive segments first change) := by
  unfold SameSegments adjustLive
  rw [map_map]
  refine map_congr_left fun segment _ => ?_
  by_cases named : segment.firstBatch = first <;> simp [named, Segment.idle]

theorem adjustLive_ordered
    (ordered : segments.Pairwise fun older newer => older.firstBatch < newer.firstBatch) :
    (adjustLive segments first change).Pairwise
      fun older newer => older.firstBatch < newer.firstBatch := by
  unfold adjustLive
  rw [pairwise_map]
  refine ordered.imp fun {older newer} below => ?_
  have kept : ∀ segment : Segment, (if segment.firstBatch = first then
      { segment with live := change segment.live } else segment).firstBatch =
      segment.firstBatch := by
    intro segment
    by_cases named : segment.firstBatch = first <;> simp [named]
  rw [kept, kept]
  exact below

theorem exists_of_mem_adjustLive {segment : Segment}
    (member : segment ∈ adjustLive segments first change) :
    ∃ before ∈ segments, segment.firstBatch = before.firstBatch ∧
      segment.live = if before.firstBatch = first then change before.live else before.live := by
  obtain ⟨before, found, rfl⟩ := mem_map.mp member
  refine ⟨before, found, ?_, ?_⟩ <;>
    by_cases named : before.firstBatch = first <;> simp [named]

private theorem adjustLive_absent {rest : List Segment}
    (absent : ∀ segment ∈ rest, segment.firstBatch ≠ first) :
    adjustLive rest first change = rest := by
  conv_rhs => rw [← map_id rest]
  exact map_congr_left fun segment member => by simp [absent segment member]

theorem liveSum_adjustLive
    (ordered : segments.Pairwise fun older newer => older.firstBatch < newer.firstBatch)
    {segment : Segment} (member : segment ∈ segments) :
    liveSum (adjustLive segments segment.firstBatch change) + segment.live =
      liveSum segments + change segment.live := by
  induction segments with
  | nil => cases member
  | cons head rest ih =>
    rw [pairwise_cons] at ordered
    rcases mem_cons.mp member with rfl | later
    · have absent : adjustLive rest segment.firstBatch change = rest :=
        adjustLive_absent _ change fun other found => ne_of_gt (ordered.1 other found)
      have split : adjustLive (segment :: rest) segment.firstBatch change =
          { segment with live := change segment.live } ::
            adjustLive rest segment.firstBatch change := by
        simp [adjustLive]
      rw [split, absent]
      simp only [liveSum, map_cons, sum_cons]
      omega
    · have apart : head.firstBatch ≠ segment.firstBatch := ne_of_lt (ordered.1 segment later)
      have split : adjustLive (head :: rest) segment.firstBatch change =
          head :: adjustLive rest segment.firstBatch change := by
        simp [adjustLive, apart]
      have below := ih ordered.2 later
      rw [split]
      simp only [liveSum, map_cons, sum_cons] at below ⊢
      omega

end AdjustLive

variable {segments : List Segment}

theorem segmentFor_of_mem {first : Nat} (named : first ∈ firsts segments) :
    ∃ segment ∈ segments, segmentFor segments first = some segment ∧
      segment.firstBatch = first := by
  obtain ⟨segment, member, name⟩ := mem_map.mp named
  have some_found : (segmentFor segments first).isSome := by
    rw [segmentFor, find?_isSome]
    exact ⟨segment, member, by simp [name]⟩
  obtain ⟨found, shape⟩ := Option.isSome_iff_exists.mp some_found
  have matching := find?_some shape
  exact ⟨found, mem_of_find?_eq_some shape, shape, of_decide_eq_true matching⟩

theorem release_ok {old : Located} {segment : Segment}
    (found : segmentFor segments old.segment = some segment) (live : segment.live ≠ 0) :
    release segments old = .ok (adjustLive segments old.segment (· - 1)) := by
  simp [release, found, live]

variable {book : Book}

theorem Counted.erase (counted : book.Counted) {position : UInt64} {old : Located}
    (here : book.index[position]? = some old) :
    release book.segments old = .ok (adjustLive book.segments old.segment (· - 1)) ∧
      Counted ⟨adjustLive book.segments old.segment (· - 1), book.index.erase position⟩ := by
  obtain ⟨segment, member, found, name⟩ := segmentFor_of_mem (counted.located position old here)
  have positive : 0 < segment.live := by
    rw [counted.live segment member]
    exact tally_pos here name.symm
  refine ⟨release_ok found (ne_of_gt positive), ?_⟩
  refine ⟨?_, ?_, ?_, ?_⟩
  · exact adjustLive_ordered _ (· - 1) counted.ordered
  · intro other place there
    rw [(adjustLive_same _ _ _).firsts]
    simp only [Std.ExtTreeMap.getElem?_erase] at there
    split at there
    · cases there
    · exact counted.located other place there
  · intro changed inside
    obtain ⟨before, original, sameName, count⟩ := exists_of_mem_adjustLive _ (· - 1) inside
    rw [count, sameName, tally_erase here, counted.live before original]
    by_cases named : before.firstBatch = old.segment
    · simp [named]
    · simp [named, Ne.symm named]
  · have summed := liveSum_adjustLive (· - 1) counted.ordered member
    have contained : book.index.contains position = true := by
      rw [Std.ExtTreeMap.contains_eq_isSome_getElem?, here]
      rfl
    rw [name] at summed
    have total := counted.total
    simp only [Std.ExtTreeMap.size_erase, contained, if_true]
    omega

theorem dropEntries_ok {gone : List (UInt64 × Located)} :
    ∀ {book : Book}, book.Counted →
      (gone.Pairwise fun left right => left.1 ≠ right.1) →
      (∀ entry ∈ gone, book.index[entry.1]? = some entry.2) →
      ∃ after, dropEntries gone book = .ok after ∧ after.Counted ∧
        SameSegments book.segments after.segments ∧
        ∀ position : UInt64, after.index[position]? =
          if position ∈ gone.map Prod.fst then none else book.index[position]? := by
  induction gone with
  | nil =>
    intro book counted _ _
    exact ⟨book, rfl, counted, rfl, fun position => by simp⟩
  | cons entry rest ih =>
    intro book counted distinct listed
    rw [pairwise_cons] at distinct
    obtain ⟨released, smaller⟩ := counted.erase (listed entry mem_cons_self)
    obtain ⟨after, done, finalCounted, same, final⟩ := ih smaller distinct.2
      (fun other later => by
        have apart := distinct.1 other later
        rw [Std.ExtTreeMap.getElem?_erase]
        simp only [Std.LawfulEqCmp.compare_eq_iff_eq, apart, if_false]
        exact listed other (mem_cons_of_mem _ later))
    refine ⟨after, ?_, finalCounted, ?_, fun position => ?_⟩
    · simp only [dropEntries, released]
      exact done
    · exact Eq.trans same (adjustLive_same _ (· - 1) _)
    · rw [final position]
      by_cases later : position ∈ rest.map Prod.fst
      · simp [later]
      · by_cases here : entry.1 = position
        · simp [later, here]
        · simp [later, here, Ne.symm here, Std.ExtTreeMap.getElem?_erase]

theorem mem_listed {picked : UInt64 → Bool} {entry : UInt64 × Located} :
    entry ∈ book.listed picked ↔ book.index[entry.1]? = some entry.2 ∧ picked entry.1 = true := by
  rw [listed, mem_filter, Std.ExtTreeMap.mem_toList_iff_getElem?_eq_some]

theorem dropListed_ok (counted : book.Counted) (picked : UInt64 → Bool) :
    ∃ after, dropEntries (book.listed picked) book = .ok after ∧ after.Counted ∧
      SameSegments book.segments after.segments ∧
      ∀ position : UInt64, after.index[position]? =
        if picked position then none else book.index[position]? := by
  have distinct : (book.listed picked).Pairwise fun left right => left.1 ≠ right.1 := by
    refine (Std.ExtTreeMap.distinct_keys_toList.filter _).imp fun {left right} apart same => ?_
    exact apart (by rw [same]; exact Std.ReflCmp.compare_self)
  obtain ⟨after, done, finalCounted, same, final⟩ := dropEntries_ok counted distinct
    fun entry member => (mem_listed.mp member).1
  refine ⟨after, done, finalCounted, same, fun position => ?_⟩
  rw [final position]
  by_cases chosen : picked position
  · cases here : book.index[position]? with
    | none => simp
    | some place =>
      have listed : position ∈ (book.listed picked).map Prod.fst :=
        mem_map.mpr ⟨(position, place), mem_listed.mpr ⟨here, chosen⟩, rfl⟩
      simp [listed, chosen]
  · have unlisted : position ∉ (book.listed picked).map Prod.fst := by
      rintro member
      obtain ⟨entry, listed, rfl⟩ := mem_map.mp member
      exact chosen (mem_listed.mp listed).2
    simp [unlisted, chosen]

theorem dropBelowFloor_ok (counted : book.Counted) (floor : UInt64) :
    ∃ after, book.dropBelowFloor floor = .ok after ∧ after.Counted ∧
      SameSegments book.segments after.segments ∧
      ∀ position : UInt64, after.index[position]? =
        if position < floor then none else book.index[position]? := by
  obtain ⟨after, done, finalCounted, same, final⟩ :=
    dropListed_ok counted fun position => decide (position < floor)
  exact ⟨after, done, finalCounted, same, fun position => by simpa using final position⟩

private theorem raise_counted (counted : book.Counted) {position : UInt64} {place : Located}
    (absent : book.index[position]? = none) (named : place.segment ∈ firsts book.segments) :
    Counted ⟨adjustLive book.segments place.segment (· + 1), book.index.insert position place⟩ := by
  obtain ⟨segment, member, -, name⟩ := segmentFor_of_mem named
  refine ⟨?_, ?_, ?_, ?_⟩
  · exact adjustLive_ordered _ (· + 1) counted.ordered
  · intro other found there
    rw [(adjustLive_same _ _ _).firsts]
    rw [Std.ExtTreeMap.getElem?_insert] at there
    split at there
    · cases there
      exact named
    · exact counted.located other found there
  · intro changed inside
    obtain ⟨before, original, sameName, count⟩ := exists_of_mem_adjustLive _ (· + 1) inside
    rw [count, sameName, tally_insert_new absent, counted.live before original]
    by_cases same : before.firstBatch = place.segment
    · simp [same]
    · simp [same, Ne.symm same]
  · have summed := liveSum_adjustLive (· + 1) counted.ordered member
    have outside : book.index.contains position = false := by
      rw [Std.ExtTreeMap.contains_eq_isSome_getElem?, absent]
      rfl
    rw [name] at summed
    have total := counted.total
    simp only [Std.ExtTreeMap.size_insert, outside]
    simp only [Bool.false_eq_true, if_false]
    omega

private theorem adjustLive_comm {gained lost : Nat}
    (live : ∀ segment ∈ segments, segment.firstBatch = lost → segment.live ≠ 0) :
    adjustLive (adjustLive segments gained (· + 1)) lost (· - 1) =
      adjustLive (adjustLive segments lost (· - 1)) gained (· + 1) := by
  unfold adjustLive
  rw [map_map, map_map]
  refine map_congr_left fun segment member => ?_
  have positive := live segment member
  by_cases gains : segment.firstBatch = gained <;> by_cases loses : segment.firstBatch = lost
  · have above : segment.live + 1 - 1 = segment.live - 1 + 1 := by
      omega
    simpa [← gains, ← loses] using above
  · simp [← gains, loses]
  · simp [← loses, gains]
  · simp [gains, loses]

private theorem insert_erase (index : Index) (position : UInt64) (place : Located) :
    (index.erase position).insert position place = index.insert position place := by
  apply Std.ExtTreeMap.ext_getElem?
  intro other
  simp only [Std.ExtTreeMap.getElem?_insert, Std.ExtTreeMap.getElem?_erase]
  split <;> rfl

theorem apply_put_ok (counted : book.Counted) (position : UInt64) {place : Located}
    (named : place.segment ∈ firsts book.segments) :
    ∃ after, book.apply (.put position place) = .ok after ∧ after.Counted ∧
      SameSegments book.segments after.segments ∧
      after.index = book.index.insert position place := by
  obtain ⟨own, -, ownFound, -⟩ := segmentFor_of_mem named
  cases here : book.index[position]? with
  | none =>
    refine ⟨_, ?_, raise_counted counted here named, adjustLive_same _ (· + 1) _, rfl⟩
    simp only [apply, ownFound, here]
  | some old =>
    obtain ⟨released, smaller⟩ := counted.erase here
    have openAll : ∀ segment ∈ book.segments, segment.firstBatch = old.segment →
        segment.live ≠ 0 := by
      intro segment member name
      rw [counted.live segment member]
      exact ne_of_gt (tally_pos here name.symm)
    have absent : (book.index.erase position)[position]? = none := by simp
    have stillNamed : place.segment ∈ firsts (adjustLive book.segments old.segment (· - 1)) := by
      rw [(adjustLive_same _ _ _).firsts]
      exact named
    have grown := raise_counted smaller absent stillNamed
    rw [insert_erase] at grown
    have oldNamed : old.segment ∈ firsts (adjustLive book.segments place.segment (· + 1)) := by
      rw [(adjustLive_same _ _ _).firsts]
      exact counted.located position old here
    obtain ⟨raised, member, found, name⟩ := segmentFor_of_mem oldNamed
    have raisedLive : raised.live ≠ 0 := by
      obtain ⟨before, original, sameName, count⟩ := exists_of_mem_adjustLive _ (· + 1) member
      have above := openAll before original (sameName.symm.trans name)
      rw [count]
      split
      · exact Nat.succ_ne_zero _
      · exact above
    refine ⟨⟨adjustLive (adjustLive book.segments place.segment (· + 1)) old.segment (· - 1),
      book.index.insert position place⟩, ?_, ?_, ?_, rfl⟩
    · simp only [apply, ownFound, here, release_ok found raisedLive]
    · rw [adjustLive_comm openAll]
      exact grown
    · exact Eq.trans (adjustLive_same _ (· - 1) _) (adjustLive_same _ (· + 1) _)

theorem apply_ok (counted : book.Counted) {op : Op} (fits : op.Fits (firsts book.segments)) :
    ∃ after, book.apply op = .ok after ∧ after.Counted ∧
      SameSegments book.segments after.segments ∧
      ∀ position : UInt64, after.index[position]? =
        (op.effect position).getD book.index[position]? := by
  cases op with
  | put own place =>
    obtain ⟨after, done, finalCounted, same, final⟩ := apply_put_ok counted own fits
    refine ⟨after, done, finalCounted, same, fun position => ?_⟩
    rw [final, Std.ExtTreeMap.getElem?_insert]
    by_cases here : own = position <;> simp [Op.effect, here]
  | clear start stop =>
    obtain ⟨after, done, finalCounted, same, final⟩ := dropListed_ok counted
      fun position => decide (start ≤ position ∧ position < stop)
    refine ⟨after, ?_, finalCounted, same, fun position => ?_⟩
    · have ranged : ¬ stop < start := UInt64.not_lt.mpr fits
      simp only [apply, ranged, if_false]
      exact done
    · rw [final position]
      by_cases inside : start ≤ position ∧ position < stop <;> simp [Op.effect, inside]

/-- A log of operations: it applies, keeps the counts, and leaves what it replays to. -/
theorem applyAll_ok {ops : List Op} :
    ∀ {book : Book}, book.Counted → (∀ op ∈ ops, op.Fits (firsts book.segments)) →
      ∃ after, applyAll ops book = .ok after ∧ after.Counted ∧
        SameSegments book.segments after.segments ∧
        ∀ position : UInt64, after.index[position]? =
          (lastEffect Op.effect ops position).getD book.index[position]? := by
  induction ops with
  | nil =>
    intro book counted _
    exact ⟨book, rfl, counted, rfl, fun position => rfl⟩
  | cons op rest ih =>
    intro book counted fits
    obtain ⟨middle, applied, middleCounted, same, set⟩ :=
      apply_ok counted (fits op mem_cons_self)
    obtain ⟨after, done, finalCounted, restSame, final⟩ := ih middleCounted
      (fun later member => by
        rw [same.firsts]
        exact fits later (mem_cons_of_mem _ member))
    refine ⟨after, ?_, finalCounted, Eq.trans restSame same, fun position => ?_⟩
    · simp only [applyAll, applied]
      exact done
    · rw [final position, set position, lastEffect]
      cases lastEffect Op.effect rest position <;> simp

section Same

variable {segments released : List Segment} {book after : Book} {old : Located}

theorem SameSegments.trans {before middle after : List Segment} (first : SameSegments before middle)
    (second : SameSegments middle after) : SameSegments before after :=
  Eq.trans second first

theorem release_same (done : release segments old = .ok released) :
    SameSegments segments released := by
  unfold release at done
  split at done
  · cases done
  split at done
  · cases done
  · cases done
    exact adjustLive_same _ _ _

theorem dropEntries_same {gone : List (UInt64 × Located)} : ∀ {book : Book},
    dropEntries gone book = .ok after → SameSegments book.segments after.segments := by
  induction gone with
  | nil =>
    intro book done
    cases done
    rfl
  | cons entry rest ih =>
    intro book done
    unfold dropEntries at done
    split at done
    · cases done
    next released shape => exact (release_same shape).trans (ih done)

theorem apply_same {op : Op} (done : book.apply op = .ok after) :
    SameSegments book.segments after.segments := by
  cases op with
  | put position place =>
    simp only [apply] at done
    split at done
    · cases done
    split at done
    · cases done
      exact adjustLive_same _ _ _
    split at done
    · cases done
    next released shape =>
      cases done
      exact (adjustLive_same _ _ _).trans (release_same shape)
  | clear start stop =>
    simp only [apply] at done
    split at done
    · cases done
    · exact dropEntries_same done

theorem applyAll_same {ops : List Op} : ∀ {book : Book}, applyAll ops book = .ok after →
    SameSegments book.segments after.segments := by
  induction ops with
  | nil =>
    intro book done
    cases done
    rfl
  | cons op rest ih =>
    intro book done
    unfold applyAll at done
    split at done
    · cases done
    next middle shape => exact (apply_same shape).trans (ih done)

end Same

theorem counted_empty
    (ordered : segments.Pairwise fun older newer => older.firstBatch < newer.firstBatch)
    (idle : ∀ segment ∈ segments, segment.live = 0) : Counted ⟨segments, ∅⟩ where
  ordered := ordered
  located := fun position place there => by simp at there
  live := fun segment member => by rw [idle segment member]; exact tally_empty.symm
  total := by
    have zeros : segments.map (·.live) = segments.map fun _ => 0 :=
      map_congr_left fun segment member => idle segment member
    simp [liveSum, zeros, map_const']

theorem Counted.roll (counted : book.Counted) {segment : Segment}
    (newest : ∀ older ∈ book.segments, older.firstBatch < segment.firstBatch)
    (idle : segment.live = 0) : Counted ⟨book.segments ++ [segment], book.index⟩ := by
  refine ⟨?_, ?_, ?_, ?_⟩
  · rw [pairwise_append]
    refine ⟨counted.ordered, pairwise_singleton _ _, fun older member last equal => ?_⟩
    rw [mem_singleton.mp equal]
    exact newest older member
  · intro position place there
    have named := counted.located position place there
    simp only [firsts, map_append, mem_append]
    exact .inl named
  · intro other member
    rcases mem_append.mp member with older | same
    · exact counted.live other older
    rw [mem_singleton.mp same, idle]
    by_contra some_live
    have positive : 0 < tally (·.segment) book.index segment.firstBatch :=
      pos_of_ne_zero (Ne.symm some_live)
    obtain ⟨position, place, there, located⟩ := exists_of_tally_pos positive
    obtain ⟨holder, open_, name⟩ :=
      mem_map.mp (counted.located position place there)
    have below := newest holder open_
    rw [name, located] at below
    exact lt_irrefl _ below
  · have total := counted.total
    simp only [liveSum, map_append, sum_append, map_cons, map_nil,
      sum_cons, sum_nil, idle] at total ⊢
    omega

theorem Counted.dropFront {front : Segment} {rest : List Segment} {index : Index}
    (counted : Counted ⟨front :: rest, index⟩) (dead : front.live = 0) :
    Counted ⟨rest, index⟩ := by
  have ordered := pairwise_cons.mp counted.ordered
  refine ⟨ordered.2, ?_, ?_, ?_⟩
  · intro position place there
    rcases mem_cons.mp (counted.located position place there) with same | later
    · have none_live : front.live = tally (·.segment) index front.firstBatch :=
        counted.live front mem_cons_self
      have positive : 0 < tally (·.segment) index front.firstBatch := tally_pos there same
      omega
    · exact later
  · exact fun segment member => counted.live segment (mem_cons_of_mem _ member)
  · have total := counted.total
    simp only [liveSum, map_cons, sum_cons, dead] at total ⊢
    omega

end Book

end Moonpool.Journal
