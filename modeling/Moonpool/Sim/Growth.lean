import Mathlib.Data.List.TakeDrop

/-!
Owns growing one simulated file: writes, `allocate` and growing `set_len` of any number of tasks,
each of which takes effect when it completes, on a disk that may have a capacity.

`allocate` looks at the size when it is called and changes the length when it completes.
-/

namespace Moonpool.Sim.Growth

inductive Op where
  | write (offset : Nat) (data : List UInt8)
  | setLen (len : Nat)

/-- `capacity` is what the disk has room for beside its other files; `landed` is what completed, in
order, with the lengths that were allocated. -/
structure File where
  visible : List UInt8
  capacity : Option Nat
  fill : Nat → UInt8
  pending : List Op
  landed : List Op

inductive Event where
  | write (offset : Nat) (data : List UInt8)
  | allocate (len : Nat)
  | setLen (len : Nat)
  | complete (index : Nat)

namespace File

variable (file : File)

def resizeVisible (len : Nat) : List UInt8 :=
  file.visible.take len ++
    (List.range (len - file.visible.length)).map fun i => file.fill (file.visible.length + i)

def hasRoom (growth : Nat) : Bool :=
  growth = 0 || file.capacity.all fun capacity => file.visible.length + growth ≤ capacity

/-- The bytes an operation leaves; `none` is `StorageFull`. -/
def complete : Op → Option (List UInt8)
  | .write offset data =>
    let stop := offset + data.length
    if file.hasRoom (stop - file.visible.length) then
      let visible := file.resizeVisible (max file.visible.length stop)
      some (visible.take offset ++ data ++ visible.drop stop)
    else none
  | .setLen len =>
    if file.hasRoom (len - file.visible.length) then some (file.resizeVisible len) else none

def step : Event → File
  | .write offset data => { file with pending := file.pending ++ [.write offset data] }
  | .setLen len => { file with pending := file.pending ++ [.setLen len] }
  | .allocate len =>
    if file.visible.length < len then { file with pending := file.pending ++ [.setLen len] }
    else { file with landed := file.landed ++ [.setLen len] }
  | .complete index =>
    match file.pending[index]? with
    | none => file
    | some op =>
      match file.complete op with
      | none => { file with pending := file.pending.eraseIdx index }
      | some visible =>
        { file with
          visible
          pending := file.pending.eraseIdx index
          landed := file.landed ++ [op] }

/-- The file did not grow past a length before that one lands. -/
def Calm (event : Event) : Prop :=
  ∀ index len, event = .complete index → file.pending[index]? = some (.setLen len) →
    file.visible.length ≤ len

end File

inductive Runs (allowed : File → Event → Prop) (start : File) : File → Prop
  | new : Runs allowed start start
  | step {file : File} (event : Event) (runs : Runs allowed start file)
      (may : allowed file event) : Runs allowed start (file.step event)

def grow (visible : List UInt8) (len : Nat) : List UInt8 :=
  visible ++ List.replicate (len - visible.length) 0

def Op.onto (visible : List UInt8) : Op → List UInt8
  | write offset data =>
    let grown := grow visible (max visible.length (offset + data.length))
    grown.take offset ++ data ++ grown.drop (offset + data.length)
  | setLen len => grow visible len

theorem length_onto (visible : List UInt8) (op : Op) :
    visible.length ≤ (op.onto visible).length ∧ ∀ len, op = .setLen len →
      len ≤ (op.onto visible).length := by
  cases op <;> grind [Op.onto, grow]

variable {file : File}

theorem resizeVisible_eq_grow (zeros : ∀ i, file.fill i = 0) {len : Nat}
    (longer : file.visible.length ≤ len) : file.resizeVisible len = grow file.visible len := by
  rw [File.resizeVisible, grow, List.take_of_length_le longer]
  simp [zeros, List.map_const']

theorem complete_eq_onto (zeros : ∀ i, file.fill i = 0) {op : Op} {visible : List UInt8}
    (longer : ∀ len, op = .setLen len → file.visible.length ≤ len)
    (done : file.complete op = some visible) : visible = op.onto file.visible := by
  cases op with
  | setLen len =>
    have same := Option.some.inj (Option.ite_none_right_eq_some.mp done).2
    rw [← same, resizeVisible_eq_grow zeros (longer len rfl)]
    rfl
  | write offset data =>
    have same := Option.some.inj (Option.ite_none_right_eq_some.mp done).2
    rw [← same, resizeVisible_eq_grow zeros (Nat.le_max_left _ _)]
    rfl

structure Grown (start : List UInt8) (file : File) : Prop where
  zeros : ∀ i, file.fill i = 0
  visible : file.visible = file.landed.foldl Op.onto start
  long : ∀ len, .setLen len ∈ file.landed → len ≤ file.visible.length

theorem Grown.step {start : List UInt8} (grown : Grown start file) {event : Event}
    (calm : file.Calm event) : Grown start (file.step event) := by
  have ⟨zeros, visible, long⟩ := grown
  cases event with
  | write => exact ⟨zeros, visible, long⟩
  | setLen => exact ⟨zeros, visible, long⟩
  | allocate len =>
    simp only [File.step]
    split
    · exact ⟨zeros, visible, long⟩
    next enough =>
      refine ⟨zeros, ?_, by grind⟩
      rw [List.foldl_append, ← visible]
      simp [Op.onto, grow, Nat.sub_eq_zero_of_le (Nat.not_lt.mp enough)]
  | complete index =>
    simp only [File.step]
    split
    · exact grown
    next op pending =>
      split
      · exact ⟨zeros, visible, long⟩
      next after done =>
        have same := complete_eq_onto zeros
          (fun len at_ => calm index len rfl (at_ ▸ pending)) done
        have longer := length_onto file.visible op
        refine ⟨zeros, ?_, by grind⟩
        rw [List.foldl_append, ← visible, same]
        rfl

/-- With a zero fill, and where the file does not grow past a length before that one lands: what
landed only grew the file, an allocated length stays, and no write inside it finds the disk full. -/
theorem Runs.allocated {start : List UInt8} {capacity : Option Nat}
    (runs : Runs File.Calm ⟨start, capacity, fun _ => 0, [], []⟩ file) :
    file.visible = file.landed.foldl Op.onto start ∧
    ∀ len, .setLen len ∈ file.landed → len ≤ file.visible.length ∧
      ∀ offset data, offset + data.length ≤ len →
        (file.complete (.write offset data)).isSome := by
  have grown : Grown start file := by
    induction runs with
    | new => exact ⟨fun _ => rfl, rfl, nofun⟩
    | step event _ calm ih => exact ih.step calm
  refine ⟨grown.visible, fun len allocated => ?_⟩
  have long := grown.long len allocated
  refine ⟨long, fun offset data inside => ?_⟩
  have fits : offset + data.length - file.visible.length = 0 := by omega
  simp [File.complete, File.hasRoom, fits]

theorem Runs.allocated_two : ∃ file,
    Runs File.Calm ⟨[], some 2, fun _ => 0, [], []⟩ file ∧ .setLen 2 ∈ file.landed ∧
      file.visible = [0, 0] ∧ 2 ≤ file.visible.length := by
  have empty : Runs File.Calm ⟨[], some 2, fun _ => 0, [], []⟩ _ := .new
  have runs := (empty.step (.allocate 2) nofun).step (.complete 0) (by rintro _ _ ⟨⟩ ⟨⟩; decide)
  exact ⟨_, runs, .head _, rfl, (runs.allocated.2 2 (.head _)).1⟩

/-- The file grows to two bytes before an allocation of one completes, which cuts it; and the bytes
that an allocation adds read the fill. -/
theorem allocate_shrinks :
    let run (fill : Nat → UInt8) := List.foldl File.step ⟨[], none, fill, [], []⟩
    (run (fun _ => 0) [.allocate 1, .write 0 [7, 8], .complete 1]).visible = [7, 8] ∧
    (run (fun _ => 0) [.allocate 1, .write 0 [7, 8], .complete 1, .complete 0]).visible = [7] ∧
    (run (fun _ => 170) [.allocate 1, .complete 0]).visible = [170] :=
  ⟨rfl, rfl, rfl⟩

end Moonpool.Sim.Growth
