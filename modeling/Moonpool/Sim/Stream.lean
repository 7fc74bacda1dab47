import Mathlib.Algebra.Order.Ring.Int
import Mathlib.Data.List.TakeDrop

/-!
Owns stream reads, writes and seeks on one handle of a simulated file (`storage/file.rs`), with no
fault and no other handle.

A pending operation is remembered on the handle and completes in the simulator at any later moment,
whoever polls meanwhile.  `Cursor` is what a caller takes the handle for.
-/

namespace Moonpool.Sim.Stream

open List

structure PendingRead where
  offset : Nat
  len : Nat
  data : Option (List UInt8)

structure PendingWrite where
  offset : Nat
  data : List UInt8
  len : Option Nat

structure Cursor where
  file : List UInt8
  position : Nat

structure Handle extends Cursor where
  pendingRead : Option PendingRead
  pendingWrite : Option PendingWrite

inductive SeekFrom where
  | start (position : Nat) | fromEnd (offset : Int) | current (offset : Int)

inductive Event where
  | read (len : Nat) | write (data : List UInt8) | seek (pos : SeekFrom)
  | completeRead | completeWrite

inductive Answer where
  | pending | read (data : List UInt8) | wrote (len : Nat) | moved (position : Nat) | invalidInput

variable (fill : Nat → UInt8) (append : Bool)

namespace Cursor

variable (cursor : Cursor)

/-- What a write past the end leaves in between is the file's `fill`. -/
def writeAt (offset : Nat) (data : List UInt8) : Cursor :=
  let gap := (range (offset - cursor.file.length)).map fun i => fill (cursor.file.length + i)
  ⟨(cursor.file ++ gap).take offset ++ data ++ cursor.file.drop (offset + data.length),
    offset + data.length⟩

def target : SeekFrom → Int
  | .start position => position
  | .fromEnd offset => cursor.file.length + offset
  | .current offset => cursor.position + offset

/-- The first bytes at the cursor, and in append mode a write at the end of the file. -/
def ahead (len : Nat) : List UInt8 := (cursor.file.drop cursor.position).take len

def written (data : List UInt8) : Cursor :=
  cursor.writeAt fill (if append then cursor.file.length else cursor.position) data

/-- What the caller takes an answer for: so much was read or written at the cursor, which moved on;
`none` if that cannot be. -/
def answers : Event → Answer → Option Cursor
  | .read len, .read data =>
    if data.length ≤ len ∧ data = cursor.ahead data.length then
      some { cursor with position := cursor.position + data.length }
    else none
  | .write data, .wrote len =>
    if len = 0 then some cursor
    else if data.length < len then none
    else some (cursor.written fill append (data.take len))
  | .seek pos, .moved position =>
    if cursor.target pos = position then some { cursor with position } else none
  | _, .pending | _, .invalidInput => some cursor
  | _, _ => none

end Cursor

namespace Handle

variable (handle : Handle)

def pollRead (len : Nat) : Handle × Answer :=
  match handle.pendingRead with
  | some ⟨offset, asked, some data⟩ =>
    let data := data.take (min len asked)
    ({ handle with pendingRead := none, position := offset + data.length }, .read data)
  | some _ => (handle, .pending)
  | none =>
    let len := min len (handle.file.length - handle.position)
    if len = 0 then (handle, .read [])
    else ({ handle with pendingRead := some ⟨handle.position, len, none⟩ }, .pending)

def pollWrite (data : List UInt8) : Handle × Answer :=
  match handle.pendingWrite with
  | some ⟨_, _, some len⟩ => ({ handle with pendingWrite := none }, .wrote len)
  | some _ => (handle, .pending)
  | none =>
    if data = [] then (handle, .wrote 0)
    else ({ handle with pendingWrite := some ⟨handle.position, data, none⟩ }, .pending)

def pollSeek (pos : SeekFrom) : Handle × Answer :=
  let target := handle.target pos
  if 0 ≤ target ∧ target < 2 ^ 64 then
    ({ handle with position := target.toNat }, .moved target.toNat)
  else (handle, .invalidInput)

def step : Event → Handle × Answer
  | .read len => handle.pollRead len
  | .write data => handle.pollWrite data
  | .seek pos => handle.pollSeek pos
  | .completeRead =>
    match handle.pendingRead with
    | some ⟨offset, len, none⟩ =>
      let data := (handle.file.drop offset).take len
      ({ handle with pendingRead := some ⟨offset, len, some data⟩ }, .pending)
    | _ => (handle, .pending)
  | .completeWrite =>
    match handle.pendingWrite with
    | some ⟨aimed, data, none⟩ =>
      let offset := if append then handle.file.length else aimed
      (⟨handle.writeAt fill offset data, handle.pendingRead,
        some ⟨aimed, data, some data.length⟩⟩, .pending)
    | _ => (handle, .pending)

/-- A pending operation is polled again, a write with its own buffer, before any other call. -/
def Patient : Event → Prop
  | .read _ => handle.pendingWrite = none
  | .write data => handle.pendingRead = none ∧ ∀ write ∈ handle.pendingWrite, write.data = data
  | .seek _ => handle.pendingRead = none ∧ handle.pendingWrite = none
  | _ => True

end Handle

/-- The handle after a run, and where its answers put the cursor. -/
inductive Runs (allowed : Handle → Event → Prop) (file : List UInt8) :
    Handle → Option Cursor → Prop
  | new : Runs allowed file ⟨⟨file, 0⟩, none, none⟩ (some ⟨file, 0⟩)
  | step {handle : Handle} {cursor : Option Cursor} (event : Event)
      (runs : Runs allowed file handle cursor) (may : allowed handle event) :
      Runs allowed file (handle.step fill append event).1
        (cursor.bind (·.answers fill append event (handle.step fill append event).2))

/-- A pending operation is at the cursor, and the only one. -/
inductive Tracks (cursor : Cursor) : Handle → Prop
  | idle : Tracks cursor ⟨cursor, none, none⟩
  | reading (len : Nat) : Tracks cursor ⟨cursor, some ⟨cursor.position, len, none⟩, none⟩
  | read (len : Nat) : Tracks cursor ⟨cursor, some ⟨cursor.position, len, cursor.ahead len⟩, none⟩
  | writing {data : List UInt8} (filled : data ≠ []) :
      Tracks cursor ⟨cursor, none, some ⟨cursor.position, data, none⟩⟩
  | wrote {data : List UInt8} (aimed : Nat) (filled : data ≠ []) :
      Tracks cursor ⟨cursor.written fill append data, none, some ⟨aimed, data, data.length⟩⟩

variable {fill append} {handle : Handle} {cursor : Cursor}

theorem Tracks.step (tracks : Tracks fill append cursor handle) {event : Event}
    (patient : handle.Patient event) :
    ∃ next, cursor.answers fill append event (handle.step fill append event).2 = some next ∧
      Tracks fill append next (handle.step fill append event).1 := by
  cases tracks with
  | idle =>
    cases event with
    | read len =>
      simp only [Handle.step, Handle.pollRead]
      split
      · exact ⟨cursor, by simp [Cursor.answers, Cursor.ahead], .idle⟩
      · exact ⟨cursor, rfl, .reading _⟩
    | write data =>
      simp only [Handle.step, Handle.pollWrite]
      split
      · exact ⟨cursor, rfl, .idle⟩
      next filled => exact ⟨cursor, rfl, .writing filled⟩
    | seek pos =>
      simp only [Handle.step, Handle.pollSeek]
      split
      next inside => exact ⟨_, if_pos (Int.toNat_of_nonneg inside.1).symm, .idle⟩
      · exact ⟨cursor, rfl, .idle⟩
    | _ => exact ⟨cursor, rfl, .idle⟩
  | reading len =>
    cases event with
    | completeRead => exact ⟨cursor, rfl, .read len⟩
    | write => cases patient.1
    | seek => cases patient.1
    | _ => exact ⟨cursor, rfl, .reading len⟩
  | read len =>
    cases event with
    | read more =>
      refine ⟨_, if_pos ⟨?_, ?_⟩, .idle⟩
      · exact Nat.le_trans (length_take_le _ _) (Nat.min_le_left _ _)
      · simp [Cursor.ahead, take_take]
    | write => cases patient.1
    | seek => cases patient.1
    | _ => exact ⟨cursor, rfl, .read len⟩
  | writing filled =>
    cases event with
    | completeWrite => exact ⟨cursor, rfl, .wrote _ filled⟩
    | read => cases patient
    | seek => cases patient.2
    | _ => exact ⟨cursor, rfl, .writing filled⟩
  | @wrote data aimed filled =>
    cases event with
    | write given =>
      obtain rfl : data = given := patient.2 _ rfl
      refine ⟨cursor.written fill append data, ?_, .idle⟩
      simp [Handle.step, Handle.pollWrite, Cursor.answers, filled]
    | read => cases patient
    | seek => cases patient.2
    | _ => exact ⟨cursor, rfl, .wrote aimed filled⟩

/-- A caller that polls a pending operation until it returns finds a faithful cursor. -/
theorem Runs.faithful {file : List UInt8} {judged : Option Cursor}
    (runs : Runs fill append Handle.Patient file handle judged) :
    ∃ cursor, judged = some cursor ∧ Tracks fill append cursor handle := by
  induction runs with
  | new => exact ⟨_, rfl, .idle⟩
  | step event _ patient ih =>
    obtain ⟨cursor, rfl, tracks⟩ := ih
    exact tracks.step patient

theorem Runs.faithful_written : ∃ handle judged cursor,
    Runs (fun _ => 0) false Handle.Patient [] handle judged ∧ handle.file = [7] ∧
      judged = some cursor ∧ Tracks (fun _ => 0) false cursor handle := by
  have empty : Runs (fun _ => 0) false Handle.Patient [] _ _ := .new
  have runs := ((empty.step (.write [7]) ⟨rfl, nofun⟩).step .completeWrite trivial).step
    (.write [7]) ⟨rfl, by rintro _ ⟨⟩; rfl⟩
  obtain ⟨cursor, judged, tracks⟩ := runs.faithful
  exact ⟨_, _, cursor, runs, rfl, judged, tracks⟩

/-- A dropped write answers for the next one: the caller takes 8 for written, the file holds 7. -/
theorem dropped_write_answers : ∃ handle,
    Runs (fun _ => 0) false (fun _ _ => True) [] handle (some ⟨[8], 1⟩) ∧ handle.file = [7] := by
  have empty : Runs (fun _ => 0) false (fun _ _ => True) [] _ _ := .new
  exact ⟨_, ((empty.step (.write [7]) trivial).step .completeWrite trivial).step
    (.write [8]) trivial, rfl⟩

end Moonpool.Sim.Stream
