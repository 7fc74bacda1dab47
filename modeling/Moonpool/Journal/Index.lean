import Moonpool.Journal.Recover

/-!
Owns the journal's memory of what is live: the open segments with their live counts and
the index from positions to located entries, and the operations that maintain both
(`apply`, `release`, `drop_below_floor` of `journal.rs`).

An assertion that fails is an error carrying its message.
-/

namespace Moonpool.Journal

abbrev Index : Type := Std.ExtTreeMap UInt64 Located

structure Book where
  segments : List Segment
  index : Index

namespace Book

variable (segments : List Segment)

def segmentFor (first : Nat) : Option Segment :=
  segments.find? fun segment => decide (segment.firstBatch = first)

def adjustLive (first : Nat) (change : Nat → Nat) : List Segment :=
  segments.map fun segment =>
    if segment.firstBatch = first then { segment with live := change segment.live } else segment

def release (old : Located) : Except String (List Segment) :=
  match segmentFor segments old.segment with
  | none => .error "a located entry's segment is open"
  | some segment =>
    if segment.live = 0 then .error "a segment's live count covers its entries"
    else .ok (adjustLive segments old.segment (· - 1))

def dropEntries : List (UInt64 × Located) → Book → Except String Book
  | [], book => .ok book
  | (position, old) :: rest, book =>
    match release book.segments old with
    | .error message => .error message
    | .ok segments => dropEntries rest ⟨segments, book.index.erase position⟩

def listed (book : Book) (picked : UInt64 → Bool) : List (UInt64 × Located) :=
  book.index.toList.filter fun entry => picked entry.1

def apply (book : Book) : Op → Except String Book
  | .put position place =>
    match segmentFor book.segments place.segment with
    | none => .error "a located entry's segment is open"
    | some _ =>
      let raised := adjustLive book.segments place.segment (· + 1)
      match book.index[position]? with
      | none => .ok ⟨raised, book.index.insert position place⟩
      | some old =>
        match release raised old with
        | .error message => .error message
        | .ok segments => .ok ⟨segments, book.index.insert position place⟩
  | .clear start stop =>
    if stop < start then .error "range start is greater than range end in BTreeMap"
    else dropEntries (book.listed fun position => decide (start ≤ position ∧ position < stop)) book

def applyAll : List Op → Book → Except String Book
  | [], book => .ok book
  | op :: rest, book =>
    match book.apply op with
    | .error message => .error message
    | .ok book => applyAll rest book

def dropBelowFloor (book : Book) (floor : UInt64) : Except String Book :=
  dropEntries (book.listed fun position => decide (position < floor)) book

def countsCover (book : Book) : Bool :=
  decide ((book.segments.map (·.live)).sum = book.index.size)

def floorHolds (book : Book) (floor : UInt64) : Bool :=
  book.index.toList.head?.all fun entry => decide (floor ≤ entry.1)

def segmentsOrdered : Bool :=
  (segments.zip segments.tail).all fun pair => decide (pair.1.firstBatch < pair.2.firstBatch)

def assertInvariants (book : Book) (info : Meta) : Except String Unit :=
  if ¬ book.countsCover then .error "live counts cover the index"
  else if ¬ book.floorHolds info.floor then .error "nothing live below the floor"
  else if ¬ segmentsOrdered book.segments then .error "segments are ordered by their first batch"
  else if metaMax < info.bytes.length then .error "metainfo fits its block"
  else .ok ()

end Book

end Moonpool.Journal
