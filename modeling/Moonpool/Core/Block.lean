import Moonpool.Lib.Cells

/-!
Owns the block-addressed view of one open file (`block.rs` of `moonpool-core`): every
transfer is whole or fails, and every request it makes is one the file accepts.

A file may move fewer bytes than it is asked for.  `File.moves` says, request by request,
what it answers; the requests made are kept, with the address of the buffer part each one
names.  The loops end because every round moves the frontier on.
-/

namespace Moonpool.Core

open Lib List

structure IoConstraints where
  offset : Nat
  length : Nat
  memory : Nat
  offset_pow : offset.isPowerOfTwo
  length_pow : length.isPowerOfTwo
  memory_pow : memory.isPowerOfTwo

inductive BlockError where
  | zeroBlock
  | lengthAlignment (blockSize alignment : Nat)
  | offsetAlignment (blockSize alignment : Nat)
  | notWholeBlocks (len blockSize : Nat)
  | indexOverflow (blockIndex : Nat)
  | rangeOverflow (len blockIndex : Nat)
  | misalignedBuffer (alignment : Nat)
  | unexpectedEof (done len blockIndex : Nat)
  /-- Short reads stop finer than the alignment lets a caller resume from. -/
  | stuckRead (len blockIndex done step : Nat)
  | writeZero (done len blockIndex : Nat)
  | stuckWrite (moved start done step : Nat)
  | file (error : String)
deriving DecidableEq

/-- A request: its place in the file, its length and the address of its buffer part. -/
structure Request where
  offset : Nat
  len : Nat
  address : Nat
deriving DecidableEq

def Request.Aligned (constraints : IoConstraints) (request : Request) : Prop :=
  constraints.offset ∣ request.offset ∧ constraints.length ∣ request.len ∧
    constraints.memory ∣ request.address

/-- How a file answers: what the request after so many others moves, and its size. -/
structure File where
  moves : Nat → Except String Nat
  size : Except String Nat

/-- A transfer under way: the file's bytes, the buffer, and the requests made. -/
structure Transfer where
  bytes : List UInt8
  buf : List UInt8
  requests : List Request

namespace File

def ask (start address from_ : Nat) (transfer : Transfer) : Transfer :=
  { transfer with requests := transfer.requests ++
      [⟨start + from_, transfer.buf.length - from_, address + from_⟩] }

def readAt (file : File) (start address from_ : Nat) (transfer : Transfer) :
    Except String Nat × Transfer :=
  match file.moves transfer.requests.length with
  | .error error => (.error error, ask start address from_ transfer)
  | .ok count =>
    let moved := min count
      (min (transfer.buf.length - from_) (transfer.bytes.length - (start + from_)))
    (.ok moved, { ask start address from_ transfer with
      buf := overlay transfer.buf fun index =>
        if from_ ≤ index ∧ index < from_ + moved then transfer.bytes[start + index]? else none })

def writeAt (file : File) (start address from_ : Nat) (transfer : Transfer) :
    Except String Nat × Transfer :=
  match file.moves transfer.requests.length with
  | .error error => (.error error, ask start address from_ transfer)
  | .ok count =>
    let moved := min count (transfer.buf.length - from_)
    let extended := resize transfer.bytes (max transfer.bytes.length (start + from_ + moved)) fun _ => 0
    (.ok moved, { ask start address from_ transfer with
      bytes := overlay extended fun index =>
        if start + from_ ≤ index ∧ index < start + from_ + moved then
          transfer.buf[index - start]?
        else none })

end File

/-- The loop behind every transfer, until the frontier `done` passes `len`; a round that does not
move it on ends it. -/
def transferLoop (alignDown : Nat → Nat) (call : Nat → Transfer → Except String Nat × Transfer)
    (stall : (done from_ moved : Nat) → BlockError) (len done : Nat) (transfer : Transfer) :
    Except BlockError Unit × Transfer :=
  if done < len then
    match call (alignDown done) transfer with
    | (.error error, transfer) => (.error (.file error), transfer)
    | (.ok moved, transfer) =>
      if alignDown done + moved ≤ done then (.error (stall done (alignDown done) moved), transfer)
      else transferLoop alignDown call stall len (alignDown done + moved) transfer
  else (.ok (), transfer)
termination_by len - done

structure BlockFile where
  constraints : IoConstraints
  blockSize : Nat
  transferStep : Nat

namespace BlockFile

def new (constraints : IoConstraints) (blockSize : Nat) : Except BlockError BlockFile :=
  if blockSize = 0 then .error .zeroBlock
  else if blockSize % constraints.length ≠ 0 then
    .error (.lengthAlignment blockSize constraints.length)
  else if blockSize % constraints.offset ≠ 0 then
    .error (.offsetAlignment blockSize constraints.offset)
  else
    .ok ⟨constraints, blockSize,
      max (max constraints.offset constraints.length) constraints.memory⟩

variable (view : BlockFile) (file : File)

/-- `offset & !(transfer_step - 1)` in a `usize`. -/
def alignDown (offset : Nat) : Nat := offset &&& (2 ^ 64 - 1 - (view.transferStep - 1))

def range (blockIndex len : Nat) : Except BlockError Nat :=
  if len = 0 ∨ len % view.blockSize ≠ 0 then .error (.notWholeBlocks len view.blockSize)
  else if 2 ^ 64 ≤ blockIndex * view.blockSize then .error (.indexOverflow blockIndex)
  else if 2 ^ 64 ≤ blockIndex * view.blockSize + len then .error (.rangeOverflow len blockIndex)
  else .ok (blockIndex * view.blockSize)

def checkBuffer (address : Nat) : Except BlockError Unit :=
  if address % view.constraints.memory = 0 then .ok ()
  else .error (.misalignedBuffer view.constraints.memory)

def realign (address : Nat) (buf : List UInt8) (keep : Bool) : Nat × List UInt8 :=
  if buf.isEmpty ∨ address % view.constraints.memory = 0 then (address, buf)
  else (view.constraints.memory, if keep then buf else replicate buf.length 0)

/-- The end a stalled read is given: only the file's size tells the two apart. -/
def stalledReadError (blockIndex len done : Nat) : BlockError :=
  let stop := min (2 ^ 64 - 1) (min (2 ^ 64 - 1) (blockIndex * view.blockSize) + len)
  match file.size with
  | .ok size =>
    if stop ≤ size then .stuckRead len blockIndex done view.transferStep
    else .unexpectedEof done len blockIndex
  | .error _ => .unexpectedEof done len blockIndex

/-- The end of a write that does not move on: no byte taken, or none past the frontier. -/
def stalledWriteError (blockIndex len done from_ moved : Nat) : BlockError :=
  if moved = 0 then .writeZero done len blockIndex
  else .stuckWrite moved from_ done view.transferStep

def readFrom (blockIndex start address done : Nat) (transfer : Transfer) :
    Except BlockError Unit × Transfer :=
  transferLoop view.alignDown (file.readAt start address)
    (fun done _ _ => view.stalledReadError file blockIndex transfer.buf.length done)
    transfer.buf.length done transfer

def transferFrom (blockIndex start address done : Nat) (transfer : Transfer) :
    Except BlockError Unit × Transfer :=
  transferLoop view.alignDown (file.writeAt start address)
    (view.stalledWriteError blockIndex transfer.buf.length) transfer.buf.length done transfer

def readBlocks (blockIndex address : Nat) (transfer : Transfer) :
    Except BlockError Unit × Transfer :=
  match view.range blockIndex transfer.buf.length, view.checkBuffer address with
  | .error error, _ | .ok _, .error error => (.error error, transfer)
  | .ok start, .ok _ => view.readFrom file blockIndex start address 0 transfer

def readBlocksAligned (blockIndex address : Nat) (transfer : Transfer) :
    Except BlockError Unit × Transfer :=
  match view.range blockIndex transfer.buf.length with
  | .error error => (.error error, transfer)
  | .ok start =>
    let (address, buf) := view.realign address transfer.buf false
    match file.readAt start address 0 { transfer with buf } with
    | (.error error, transfer) => (.error (.file error), transfer)
    | (.ok moved, transfer) =>
      if moved = 0 then
        (.error (view.stalledReadError file blockIndex buf.length 0), transfer)
      else if moved < buf.length then
        view.readFrom file blockIndex start address moved transfer
      else (.ok (), transfer)

/-- The write behind `write_blocks` and `write_blocks_durable`, which move the same bytes. -/
def transferBlocks (blockIndex address : Nat) (_durable : Bool) (transfer : Transfer) :
    Except BlockError Unit × Transfer :=
  match view.range blockIndex transfer.buf.length, view.checkBuffer address with
  | .error error, _ | .ok _, .error error => (.error error, transfer)
  | .ok start, .ok _ => view.transferFrom file blockIndex start address 0 transfer

/-- The write behind `write_blocks_aligned` and `write_blocks_durable_aligned`. -/
def transferBlocksOwned (blockIndex address : Nat) (_durable : Bool) (transfer : Transfer) :
    Except BlockError Unit × Transfer :=
  match view.range blockIndex transfer.buf.length with
  | .error error => (.error error, transfer)
  | .ok start =>
    let (address, buf) := view.realign address transfer.buf true
    match file.writeAt start address 0 { transfer with buf } with
    | (.error error, transfer) => (.error (.file error), transfer)
    | (.ok moved, transfer) =>
      if moved = 0 then (.error (.writeZero 0 buf.length blockIndex), transfer)
      else if moved < buf.length then
        view.transferFrom file blockIndex start address moved transfer
      else (.ok (), transfer)

/-- What `new` checks: a boundary of the step or of a block suits the alignments. -/
structure Sound : Prop where
  step_pow : view.transferStep.isPowerOfTwo
  offset : view.constraints.offset ∣ view.transferStep ∧ view.constraints.offset ∣ view.blockSize
  length : view.constraints.length ∣ view.transferStep ∧ view.constraints.length ∣ view.blockSize
  memory : view.constraints.memory ∣ view.transferStep

theorem dvd_of_le_pow {low high : Nat} (lowPow : low.isPowerOfTwo) (highPow : high.isPowerOfTwo)
    (le : low ≤ high) : low ∣ high := by
  obtain ⟨few, rfl⟩ := lowPow
  obtain ⟨many, rfl⟩ := highPow
  exact Nat.pow_dvd_pow 2 ((Nat.pow_le_pow_iff_right (by decide)).mp le)

variable {view file}

theorem new_sound {constraints : IoConstraints} {blockSize : Nat}
    (made : new constraints blockSize = .ok view) :
    view.constraints = constraints ∧ view.blockSize = blockSize ∧ view.Sound := by
  unfold new at made
  split at made
  · cases made
  split at made
  · cases made
  next lengths =>
    split at made
    · cases made
    next offsets =>
      cases made
      have step : (max (max constraints.offset constraints.length)
          constraints.memory).isPowerOfTwo :=
        max_rec' _ (max_rec' _ constraints.offset_pow constraints.length_pow)
          constraints.memory_pow
      refine ⟨rfl, rfl, step, ⟨?_, ?_⟩, ⟨?_, ?_⟩, ?_⟩
      · exact dvd_of_le_pow constraints.offset_pow step (by simp only; omega)
      · exact Nat.dvd_of_mod_eq_zero (not_not.mp offsets)
      · exact dvd_of_le_pow constraints.length_pow step (by simp only; omega)
      · exact Nat.dvd_of_mod_eq_zero (not_not.mp lengths)
      · exact dvd_of_le_pow constraints.memory_pow step (by simp only; omega)

theorem alignDown_zero : view.alignDown 0 = 0 := Nat.zero_and _

theorem alignDown_le (done : Nat) : view.alignDown done ≤ done := Nat.and_le_left

theorem Sound.alignDown (sound : view.Sound) (done : Nat) :
    view.transferStep ∣ view.alignDown done := by
  obtain ⟨bits, step⟩ := sound.step_pow
  apply Nat.dvd_of_mod_eq_zero
  have mask : (2 ^ 64 - 1 - (2 ^ bits - 1)) % 2 ^ bits = 0 := by
    rcases le_total bits 64 with small | large
    · have whole : 2 ^ 64 - 1 - (2 ^ bits - 1) = 2 ^ 64 - 2 ^ bits := by
        have := Nat.one_le_two_pow (n := bits)
        omega
      rw [whole]
      exact Nat.mod_eq_zero_of_dvd (Nat.dvd_sub (Nat.pow_dvd_pow 2 small) (Nat.dvd_refl _))
    · have := Nat.pow_le_pow_right (show 0 < 2 by decide) large
      rw [show 2 ^ 64 - 1 - (2 ^ bits - 1) = 0 by omega, Nat.zero_mod]
  rw [BlockFile.alignDown, step, Nat.and_mod_two_pow, mask, Nat.and_zero]

structure Ranged (view : BlockFile) (blockIndex start address len : Nat) : Prop where
  start : start = blockIndex * view.blockSize
  blocks : view.blockSize ∣ len
  address : view.constraints.memory ∣ address
  nonempty : 0 < len

variable {blockIndex start : Nat} {transfer : Transfer}

theorem Sound.asks (sound : view.Sound) (done : Nat) {address : Nat}
    (ranged : view.Ranged blockIndex start address transfer.buf.length)
    (aligned : ∀ request ∈ transfer.requests, request.Aligned view.constraints) :
    ∀ request ∈ (File.ask start address (view.alignDown done) transfer).requests,
      request.Aligned view.constraints := by
  intro request member
  rcases mem_append.mp member with old | new
  · exact aligned request old
  rw [mem_singleton.mp new]
  have boundary := sound.alignDown done
  refine ⟨?_, ?_, ?_⟩
  · apply Nat.dvd_add
    · rw [ranged.start]
      exact Nat.dvd_trans sound.offset.2 (Nat.dvd_mul_left ..)
    · exact Nat.dvd_trans sound.offset.1 boundary
  · exact Nat.dvd_sub (Nat.dvd_trans sound.length.2 ranged.blocks)
      (Nat.dvd_trans sound.length.1 boundary)
  · exact Nat.dvd_add ranged.address (Nat.dvd_trans sound.memory boundary)

section Loop

variable {alignDown : Nat → Nat} {call : Nat → Transfer → Except String Nat × Transfer}
  {stall : (done from_ moved : Nat) → BlockError} {len done : Nat} {transfer : Transfer}

/-- What every round keeps holds at the end, and a transfer that returns passed its end. -/
theorem transferLoop_spec {Inv : Nat → Transfer → Prop} {Good : Transfer → Prop}
    (rest : ∀ done transfer, Inv done transfer → Good transfer)
    (asks : ∀ done transfer, Inv done transfer → Good (call (alignDown done) transfer).2)
    (moves : ∀ done transfer moved, Inv done transfer →
      (call (alignDown done) transfer).1 = .ok moved →
      Inv (alignDown done + moved) (call (alignDown done) transfer).2)
    (holds : Inv done transfer) :
    Good (transferLoop alignDown call stall len done transfer).2 ∧
      ((transferLoop alignDown call stall len done transfer).1 = .ok () →
        ∃ reached, len ≤ reached ∧
          Inv reached (transferLoop alignDown call stall len done transfer).2) := by
  fun_induction transferLoop alignDown call stall len done transfer with
  | case1 done transfer _ error after called | case2 done transfer _ moved after called =>
    exact ⟨by simpa [called] using asks done transfer holds, nofun⟩
  | case3 done transfer _ moved after called _ ih =>
    exact ih (by simpa [called] using moves done transfer moved holds)
  | case4 done transfer past =>
    exact ⟨rest done transfer holds, fun _ => ⟨done, Nat.le_of_not_lt past, holds⟩⟩

theorem transferLoop_first (zero : alignDown 0 = 0) (nonempty : 0 < len) :
    transferLoop alignDown call stall len 0 transfer =
      match call 0 transfer with
      | (.error error, transfer) => (.error (.file error), transfer)
      | (.ok moved, transfer) =>
        if moved = 0 then (.error (stall 0 0 moved), transfer)
        else transferLoop alignDown call stall len moved transfer := by
  rw [transferLoop, if_pos nonempty, zero]
  simp only [zero_add, Nat.le_zero_eq]

end Loop

/-- The requests are aligned, and a read that returns got the file's bytes from `start`. -/
def ReadsWhole (constraints : IoConstraints) (start : Nat) (before : Transfer)
    (outcome : Except BlockError Unit × Transfer) : Prop :=
  (∀ request ∈ outcome.2.requests, request.Aligned constraints) ∧
    (outcome.1 = .ok () → outcome.2.buf.length = before.buf.length ∧
      ∀ index < before.buf.length, outcome.2.buf[index]? = before.bytes[start + index]?)

/-- The requests are aligned, and a write that returns left the whole buffer in the file. -/
def WritesWhole (constraints : IoConstraints) (start : Nat) (before : Transfer)
    (outcome : Except BlockError Unit × Transfer) : Prop :=
  (∀ request ∈ outcome.2.requests, request.Aligned constraints) ∧
    (outcome.1 = .ok () →
      ∀ index < before.buf.length, outcome.2.bytes[start + index]? = before.buf[index]?)

section Whole

variable {blockIndex start address : Nat} {before transfer : Transfer}
  {stall : (done from_ moved : Nat) → BlockError}

structure ReadTo (constraints : IoConstraints) (start : Nat) (before : Transfer) (done : Nat)
    (transfer : Transfer) : Prop where
  aligned : ∀ request ∈ transfer.requests, request.Aligned constraints
  bytes : transfer.bytes = before.bytes
  length : transfer.buf.length = before.buf.length
  filled : ∀ index < done, index < before.buf.length →
    transfer.buf[index]? = before.bytes[start + index]?

structure WrittenTo (constraints : IoConstraints) (start : Nat) (before : Transfer) (done : Nat)
    (transfer : Transfer) : Prop where
  aligned : ∀ request ∈ transfer.requests, request.Aligned constraints
  buf : transfer.buf = before.buf
  written : ∀ index < done, index < before.buf.length →
    transfer.bytes[start + index]? = before.buf[index]?

section

variable (sound : view.Sound) (ranged : view.Ranged blockIndex start address before.buf.length)

include sound ranged

theorem Sound.readFrom_whole (held : ReadTo view.constraints start before 0 transfer) :
    ReadsWhole view.constraints start before (transferLoop view.alignDown
      (file.readAt start address) stall before.buf.length 0 transfer) := by
  have ranges : ∀ {done : Nat} {transfer : Transfer},
      ReadTo view.constraints start before done transfer →
      view.Ranged blockIndex start address transfer.buf.length := fun held => held.length ▸ ranged
  have spec := @transferLoop_spec view.alignDown (file.readAt start address) stall
    before.buf.length 0 transfer (ReadTo view.constraints start before)
    (fun transfer => ∀ request ∈ transfer.requests, request.Aligned view.constraints)
    (fun _ _ held => held.aligned) ?_ ?_ held
  · refine ⟨spec.1, fun done => ?_⟩
    obtain ⟨reached, past, final⟩ := spec.2 done
    exact ⟨final.length, fun index below =>
      final.filled index (lt_of_lt_of_le below past) below⟩
  · intro done transfer held
    have asked := sound.asks done (ranges held) held.aligned
    unfold File.readAt
    split <;> exact asked
  · intro done transfer moved held called
    have asked := sound.asks done (ranges held) held.aligned
    unfold File.readAt at called ⊢
    split at called
    · cases called
    next count answered =>
      simp only [Except.ok.injEq] at called
      simp only [called]
      refine ⟨asked, held.bytes, by simp [held.length], fun index below inside => ?_⟩
      have there : index < transfer.buf.length := held.length ▸ inside
      rw [overlay_getElem?]
      by_cases new : view.alignDown done ≤ index
      · -- the round moved this byte, so the file holds it
        have present : start + index < before.bytes.length := by
          rw [← held.bytes]
          omega
        rw [if_pos ⟨new, below⟩, held.bytes, getElem?_eq_getElem present,
          getElem?_eq_getElem there]
        rfl
      · rw [if_neg (fun both => new both.1), held.filled index
          (Nat.lt_of_lt_of_le (Nat.lt_of_not_le new) (alignDown_le done)) inside]
        simp

theorem Sound.transferFrom_whole (held : WrittenTo view.constraints start before 0 transfer) :
    WritesWhole view.constraints start before (transferLoop view.alignDown
      (file.writeAt start address) stall before.buf.length 0 transfer) := by
  have spec := @transferLoop_spec view.alignDown (file.writeAt start address) stall
    before.buf.length 0 transfer (WrittenTo view.constraints start before)
    (fun transfer => ∀ request ∈ transfer.requests, request.Aligned view.constraints)
    (fun _ _ held => held.aligned) ?_ ?_ held
  · refine ⟨spec.1, fun done index below => ?_⟩
    obtain ⟨reached, past, final⟩ := spec.2 done
    exact final.written index (lt_of_lt_of_le below past) below
  · intro done transfer held
    have asked := sound.asks done (held.buf.symm ▸ ranged) held.aligned
    unfold File.writeAt
    split <;> exact asked
  · intro done transfer moved held called
    have asked := sound.asks done (held.buf.symm ▸ ranged) held.aligned
    unfold File.writeAt at called ⊢
    split at called
    · cases called
    next count answered =>
      simp only [Except.ok.injEq] at called
      refine ⟨asked, held.buf, fun index below inside => ?_⟩
      have there : index < transfer.buf.length := held.buf ▸ inside
      by_cases new : view.alignDown done ≤ index
      · have cell : transfer.buf[start + index - start]? = some transfer.buf[index] := by
          rw [Nat.add_sub_cancel_left, getElem?_eq_getElem there]
        rw [← held.buf, getElem?_eq_getElem there]
        refine overlay_of_some ?_ (by rw [resize_length]; omega)
        rw [if_pos (by omega), cell]
      · have old := held.written index
          (Nat.lt_of_lt_of_le (Nat.lt_of_not_le new) (alignDown_le done)) inside
        have present : start + index < transfer.bytes.length := by
          rw [← held.buf, getElem?_eq_getElem there] at old
          exact (List.getElem?_eq_some_iff.mp old).1
        rw [overlay_of_none (if_neg (by omega)), resize_getElem?_old _ (by omega) present, old]

end

end Whole

theorem range_ok {len : Nat} (done : view.range blockIndex len = .ok start) :
    start = blockIndex * view.blockSize ∧ view.blockSize ∣ len ∧ 0 < len := by
  unfold range at done
  split at done
  · cases done
  split at done
  · cases done
  split at done
  · cases done
  · cases done
    exact ⟨rfl, Nat.dvd_of_mod_eq_zero (by omega), by omega⟩

theorem realign_spec (view : BlockFile) (address : Nat) {buf : List UInt8} (keep : Bool)
    (nonempty : 0 < buf.length) :
    view.constraints.memory ∣ (view.realign address buf keep).1 ∧
      (view.realign address buf keep).2.length = buf.length ∧
      (keep = true → (view.realign address buf keep).2 = buf) := by
  unfold realign
  split
  next fine =>
    have filled : buf.isEmpty = false :=
      isEmpty_eq_false_iff.mpr (ne_nil_of_length_pos nonempty)
    rw [filled] at fine
    exact ⟨Nat.dvd_of_mod_eq_zero (by simpa using fine), rfl, fun _ => rfl⟩
  · refine ⟨Nat.dvd_refl _, ?_, fun keeps => if_pos keeps⟩
    split <;> simp

theorem readAt_length (start address from_ : Nat) (transfer : Transfer) :
    (file.readAt start address from_ transfer).2.buf.length = transfer.buf.length := by
  unfold File.readAt
  split
  · rfl
  · exact overlay_length _ _

theorem writeAt_buf (start address from_ : Nat) (transfer : Transfer) :
    (file.writeAt start address from_ transfer).2.buf = transfer.buf := by
  unfold File.writeAt
  split <;> rfl

theorem readBlocksAligned_eq {address : Nat}
    (placed : view.range blockIndex transfer.buf.length = .ok start) :
    view.readBlocksAligned file blockIndex address transfer =
      view.readFrom file blockIndex start (view.realign address transfer.buf false).1 0
        { transfer with buf := (view.realign address transfer.buf false).2 } := by
  have nonempty := (range_ok placed).2.2
  have length := (realign_spec view address false nonempty).2.1
  unfold readBlocksAligned readFrom
  rw [placed, transferLoop_first alignDown_zero (by simp only [length]; exact nonempty)]
  generalize view.realign address transfer.buf false = realigned
  have same := @readAt_length file start realigned.1 0 { transfer with buf := realigned.2 }
  dsimp only
  generalize file.readAt start realigned.1 0 { transfer with buf := realigned.2 } = called at same
  rcases called with ⟨_ | moved, after⟩
  · rfl
  dsimp only at same ⊢
  split
  · rfl
  · split
    · rw [same]
    next past => rw [transferLoop, if_neg past]

theorem transferBlocksOwned_eq {address : Nat} {durable : Bool}
    (placed : view.range blockIndex transfer.buf.length = .ok start) :
    view.transferBlocksOwned file blockIndex address durable transfer =
      view.transferFrom file blockIndex start (view.realign address transfer.buf true).1 0
        transfer := by
  have nonempty := (range_ok placed).2.2
  have kept := (realign_spec view address true nonempty).2.2 rfl
  unfold transferBlocksOwned transferFrom
  rw [placed, transferLoop_first alignDown_zero nonempty]
  dsimp only
  generalize view.realign address transfer.buf true = realigned at kept
  obtain ⟨address, buf⟩ := realigned
  obtain rfl : buf = transfer.buf := kept
  have same := @writeAt_buf file start address 0 transfer
  generalize file.writeAt start address 0 transfer = called at same
  rcases called with ⟨_ | moved, after⟩
  · rfl
  dsimp only at same ⊢
  split
  next none => rw [stalledWriteError, if_pos none]
  · split
    · rw [same]
    next past => rw [transferLoop, if_neg past]

/-- With every block size `new` accepts and every sequence of short transfers, each request is
aligned, a read that returns holds the file's bytes of the range and a write that returns has
written the whole buffer. -/
theorem transfers_whole {constraints : IoConstraints} {blockSize : Nat} {view : BlockFile}
    (made : new constraints blockSize = .ok view) (file : File) (blockIndex address : Nat)
    (bytes buf : List UInt8) (durable : Bool) :
    ReadsWhole constraints (blockIndex * blockSize) ⟨bytes, buf, []⟩
      (view.readBlocks file blockIndex address ⟨bytes, buf, []⟩) ∧
    ReadsWhole constraints (blockIndex * blockSize) ⟨bytes, buf, []⟩
      (view.readBlocksAligned file blockIndex address ⟨bytes, buf, []⟩) ∧
    WritesWhole constraints (blockIndex * blockSize) ⟨bytes, buf, []⟩
      (view.transferBlocks file blockIndex address durable ⟨bytes, buf, []⟩) ∧
    WritesWhole constraints (blockIndex * blockSize) ⟨bytes, buf, []⟩
      (view.transferBlocksOwned file blockIndex address durable ⟨bytes, buf, []⟩) := by
  obtain ⟨rfl, rfl, sound⟩ := new_sound made
  have untouched : ∀ {constraints : IoConstraints}, ∀ request ∈ ([] : List Request),
      request.Aligned constraints := nofun
  have refusedRead : ∀ error, ReadsWhole view.constraints (blockIndex * view.blockSize)
      ⟨bytes, buf, []⟩ (.error error, ⟨bytes, buf, []⟩) :=
    fun _ => ⟨untouched, nofun⟩
  have refusedWrite : ∀ error, WritesWhole view.constraints (blockIndex * view.blockSize)
      ⟨bytes, buf, []⟩ (.error error, ⟨bytes, buf, []⟩) :=
    fun _ => ⟨untouched, nofun⟩
  unfold readBlocks transferBlocks
  cases placed : view.range blockIndex buf.length with
  | error error =>
    simp only [readBlocksAligned, transferBlocksOwned, placed]
    exact ⟨refusedRead _, refusedRead _, refusedWrite _, refusedWrite _⟩
  | ok start =>
    obtain ⟨rfl, blocks, nonempty⟩ := range_ok placed
    have borrowed : ∀ _ : view.checkBuffer address = .ok (), view.Ranged blockIndex
        (blockIndex * view.blockSize) address buf.length := by
      intro checked
      refine ⟨rfl, blocks, Nat.dvd_of_mod_eq_zero ?_, nonempty⟩
      by_contra misses
      simp [checkBuffer, misses] at checked
    have owned : ∀ keep, view.Ranged blockIndex (blockIndex * view.blockSize)
        (view.realign address buf keep).1 buf.length :=
      fun keep => ⟨rfl, blocks, (realign_spec view address keep nonempty).1, nonempty⟩
    refine ⟨?_, ?_, ?_, ?_⟩
    · cases checked : view.checkBuffer address with
      | error error => exact refusedRead _
      | ok _ =>
        exact sound.readFrom_whole (borrowed checked)
          ⟨untouched, rfl, rfl, fun _ below => absurd below (Nat.not_lt_zero _)⟩
    · have length := (realign_spec view address false nonempty).2.1
      have whole := @Sound.readFrom_whole view file _ _ _ ⟨bytes, buf, []⟩
        ⟨bytes, (view.realign address buf false).2, []⟩
        (fun done _ _ => view.stalledReadError file blockIndex buf.length done) sound
        (owned false) ⟨untouched, rfl, length, fun _ below => absurd below (Nat.not_lt_zero _)⟩
      rw [readBlocksAligned_eq placed, readFrom]
      simp only [length]
      exact whole
    · cases checked : view.checkBuffer address with
      | error error => exact refusedWrite _
      | ok _ =>
        exact sound.transferFrom_whole (borrowed checked)
          ⟨untouched, rfl, fun _ below => absurd below (Nat.not_lt_zero _)⟩
    · rw [transferBlocksOwned_eq placed]
      exact sound.transferFrom_whole (owned true)
        ⟨untouched, rfl, fun _ below => absurd below (Nat.not_lt_zero _)⟩

/-- Units of 8 bytes, in the file and in memory. -/
def narrow : IoConstraints := ⟨8, 8, 8, ⟨3, rfl⟩, ⟨3, rfl⟩, ⟨3, rfl⟩⟩

/-- A file that moves 11 bytes at a time: a block of 16 takes two requests, the second of which
starts at the last whole unit moved. -/
theorem transfers_whole_short :
    let read := BlockFile.readBlocks ⟨narrow, 16, 8⟩ ⟨fun _ => .ok 11, .ok 32⟩ 1 8
      ⟨replicate 32 7, replicate 16 0, []⟩
    let written := BlockFile.transferBlocks ⟨narrow, 16, 8⟩ ⟨fun _ => .ok 11, .ok 32⟩ 1 8 false
      ⟨replicate 32 7, replicate 16 0, []⟩
    read.1 = .ok () ∧ written.1 = .ok () ∧ written.2.requests.map Request.offset = [16, 24] ∧
      ReadsWhole narrow (1 * 16) ⟨replicate 32 7, replicate 16 0, []⟩ read ∧
      WritesWhole narrow (1 * 16) ⟨replicate 32 7, replicate 16 0, []⟩ written := by
  have whole := @transfers_whole narrow 16 ⟨narrow, 16, 8⟩ (by rfl) ⟨fun _ => .ok 11, .ok 32⟩ 1 8
    (replicate 32 7) (replicate 16 0) false
  refine ⟨?_, ?_, ?_, whole.1, whole.2.2.1⟩ <;>
    simp [readBlocks, transferBlocks, readFrom, transferFrom, range, checkBuffer, narrow,
      transferLoop, alignDown, File.readAt, File.writeAt, File.ask]

end BlockFile
end Moonpool.Core
