import Moonpool.Sim.Image
import Moonpool.Lib.Codec

/-!
Owns what reads of a sector with a latent fault return (`FileImage::read` and
`corrupt_in_place` of `storage/image.rs`).

A read copies the visible bytes and then flips one bit in the part of each faulty sector it
covers.  Which byte and bit is drawn from a generator seeded with the sector's first eight
bytes, but the byte is drawn below the length of the covered part, so two reads that cut a
sector differently damage it differently.  The generator is a parameter: its two draws are
functions of the seed and the length.
-/

namespace Moonpool.Sim

open Lib List Option

/-- The two draws of the generator `corrupt_in_place` seeds: a byte of the part and a bit. -/
structure FaultRng where
  byte : UInt64 → Nat → Nat
  bit : UInt64 → Nat → Fin 8
  byte_lt : ∀ seed len, 0 < len → byte seed len < len

def faultSeed (pristine : List UInt8) : UInt64 := UInt64.ofNat (ofLittleEndian (pristine.take 8))

def bitMask (bit : Fin 8) : UInt8 := 1 <<< UInt8.ofNat bit

theorem bitMask_ne_zero (bit : Fin 8) : bitMask bit ≠ 0 := by
  revert bit
  decide

namespace Span

def overlap (span : Span) (sector : Nat) : Span :=
  ⟨max (sector * sectorSize) span.start, min (sector * sectorSize + sectorSize) span.stop⟩

def Touches (span : Span) (sector : Nat) : Prop :=
  (span.overlap sector).start < (span.overlap sector).stop

theorem overlap_contains {span : Span} {sector index : Nat} :
    (span.overlap sector).Contains index ↔
      span.Contains index ∧ index / sectorSize = sector := by
  simp only [overlap, Contains, sectorSize]
  omega

theorem touches_iff {span : Span} {sector : Nat} :
    span.Touches sector ↔ ∃ index, span.Contains index ∧ index / sectorSize = sector := by
  constructor
  · intro touched
    exact ⟨_, overlap_contains.mp ⟨le_refl _, touched⟩⟩
  · rintro ⟨index, inside⟩
    have := overlap_contains.mpr inside
    simp only [Touches, Contains] at *
    omega

end Span

section
variable (rng : FaultRng)

/-- Flip one bit of `buf`, drawn from the pristine contents and the length of `buf`. -/
def corruptInPlace (pristine buf : List UInt8) : List UInt8 :=
  if buf.isEmpty then buf
  else
    let seed := faultSeed pristine
    buf.modify (rng.byte seed buf.length) (· ^^^ bitMask (rng.bit seed buf.length))

namespace FileImage

/-- One step of the loop of `read`: the buffer of a read from `offset` after `sector`. -/
def readSector (image : FileImage) (offset : Nat) (buf : List UInt8) (sector : Nat) :
    List UInt8 :=
  if image.faults.isSet sector = false then buf
  else
    let overlap := (Span.mk offset (offset + buf.length)).overlap sector
    if overlap.stop ≤ overlap.start then buf
    else
      let part : Span := ⟨overlap.start - offset, overlap.stop - offset⟩
      let damaged :=
        corruptInPlace rng (slice image.visible (image.visibleBounds sector)) (slice buf part)
      overlay buf fun index =>
        if part.Contains index then damaged[index - part.start]? else none

def read (image : FileImage) (offset len : Nat) : Option (List UInt8) :=
  if image.visible.length < offset + len then none
  else
    some ((sectorRange offset len).foldl (image.readSector rng offset)
      (slice image.visible ⟨offset, offset + len⟩))

def readParts (image : FileImage) : Nat → List Nat → Option (List UInt8)
  | _, [] => some []
  | offset, len :: rest => do
      let first ← image.read rng offset len
      let others ← image.readParts (offset + len) rest
      return first ++ others

def damage (image : FileImage) (span : Span) (index : Nat) : UInt8 :=
  let sector := index / sectorSize
  let overlap := span.overlap sector
  let seed := faultSeed (slice image.visible (image.visibleBounds sector))
  if image.faults.isSet sector = true ∧ index = overlap.start + rng.byte seed overlap.len then
    bitMask (rng.bit seed overlap.len)
  else 0

variable {rng} {image : FileImage}

variable {span : Span} {index : Nat}

theorem damage_of_sound (sound : image.faults.isSet (index / sectorSize) = false) :
    image.damage rng span index = 0 := by
  simp [damage, sound]

theorem damage_congr {one other : Span}
    (same : one.overlap (index / sectorSize) = other.overlap (index / sectorSize)) :
    image.damage rng one index = image.damage rng other index := by
  simp only [damage, same]

variable {sector : Nat}

theorem exists_damage (faulty : image.faults.isSet sector = true) (touched : span.Touches sector) :
    ∃ index, span.Contains index ∧ index / sectorSize = sector ∧
      image.damage rng span index ≠ 0 := by
  generalize seeded : faultSeed (slice image.visible (image.visibleBounds sector)) = seed
  have below := rng.byte_lt seed (span.overlap sector).len (Nat.sub_pos_of_lt touched)
  generalize drawn : rng.byte seed (span.overlap sector).len = byte at below
  have inside : (span.overlap sector).Contains ((span.overlap sector).start + byte) := by
    simp only [Span.Contains, Span.len] at *
    omega
  have place := (Span.overlap_contains.mp inside).2
  refine ⟨_, (Span.overlap_contains.mp inside).1, place, ?_⟩
  simp only [damage, place, faulty, seeded, drawn, and_self, if_true]
  exact bitMask_ne_zero _

theorem damage_unique {one other : Nat} (sameSector : one / sectorSize = other / sectorSize)
    (first : image.damage rng span one ≠ 0) (second : image.damage rng span other ≠ 0) :
    one = other := by
  simp only [damage, sameSector, ne_eq, ite_eq_right_iff, Classical.not_imp] at first second
  exact first.1.2.trans second.1.2.symm

theorem corruptInPlace_getElem? (pristine buf : List UInt8) (index : Nat) :
    (corruptInPlace rng pristine buf)[index]? = buf[index]?.map fun old =>
      if index = rng.byte (faultSeed pristine) buf.length then
        old ^^^ bitMask (rng.bit (faultSeed pristine) buf.length)
      else old := by
  unfold corruptInPlace
  split
  next none =>
    rw [isEmpty_iff.mp none]
    rfl
  next =>
    simp only [getElem?_modify, eq_comm (a := index)]
    split <;> simp

theorem slice_getElem? (bytes : List UInt8) (span : Span) (index : Nat) :
    (slice bytes span)[index]? =
      if span.start + index < span.stop then bytes[span.start + index]? else none := by
  simp [slice, getElem?_drop, getElem?_take]

theorem slice_length {bytes : List UInt8} (inside : span.stop ≤ bytes.length) :
    (slice bytes span).length = span.stop - span.start := by
  simp [slice, inside]

variable {offset : Nat} {buf : List UInt8}

theorem readSector_getElem? (below : index < buf.length) :
    (image.readSector rng offset buf sector)[index]? = buf[index]?.map fun old =>
      if (offset + index) / sectorSize = sector then
        old ^^^ image.damage rng ⟨offset, offset + buf.length⟩ (offset + index)
      else old := by
  have inside : (Span.mk offset (offset + buf.length)).Contains (offset + index) := by
    simp only [Span.Contains]
    omega
  have own := @Span.overlap_contains ⟨offset, offset + buf.length⟩ sector (offset + index)
  unfold readSector
  split
  next sound =>
    split
    next same => simp [damage_of_sound (same ▸ sound)]
    next => simp
  next faulty =>
    have marked : image.faults.isSet sector = true := by simpa using faulty
    have low : offset ≤ ((Span.mk offset (offset + buf.length)).overlap sector).start :=
      le_max_right ..
    have high : ((Span.mk offset (offset + buf.length)).overlap sector).stop ≤
        offset + buf.length := min_le_right ..
    generalize covered : (Span.mk offset (offset + buf.length)).overlap sector = part at *
    simp only [Span.Contains] at own
    by_cases same : (offset + index) / sectorSize = sector
    · have size : (slice buf ⟨part.start - offset, part.stop - offset⟩).length = part.len := by
        rw [slice_length (by simp only; omega)]
        simp only [Span.len]
        omega
      have place : part.start - offset + (index - (part.start - offset)) = index := by omega
      have drawn : ∀ byte, index - (part.start - offset) = byte ↔
          offset + index = part.start + byte := by
        intro byte
        omega
      rw [if_neg (by omega), overlay_getElem?, if_pos (by simp only [Span.Contains]; omega),
        corruptInPlace_getElem?, size, slice_getElem?, if_pos (by simp only; omega)]
      simp only [damage, same, covered, marked, true_and, if_true, place, drawn,
        getElem?_eq_getElem below, map_some, getD_some]
      split <;> simp
    · simp only [if_neg same, Option.map_id']
      split
      · rfl
      · rw [overlay_getElem?, if_neg (by simp only [Span.Contains]; omega)]
        simp

theorem readSector_length : (image.readSector rng offset buf sector).length = buf.length := by
  simp only [readSector]
  split
  · rfl
  · split
    · rfl
    · exact overlay_length _ _

theorem readSectors_getElem? {sectors : List Nat} (distinct : sectors.Nodup)
    (below : index < buf.length) :
    (sectors.foldl (image.readSector rng offset) buf)[index]? = buf[index]?.map fun old =>
      if (offset + index) / sectorSize ∈ sectors then
        old ^^^ image.damage rng ⟨offset, offset + buf.length⟩ (offset + index)
      else old := by
  induction sectors generalizing buf with
  | nil => simp
  | cons sector rest ih =>
    obtain ⟨fresh, others⟩ := nodup_cons.mp distinct
    rw [foldl_cons, ih others (by rwa [readSector_length]),
      readSector_length, readSector_getElem? below, Option.map_map]
    congr 1
    funext old
    by_cases same : (offset + index) / sectorSize = sector
    · simp [same, fresh]
    · simp [same]

/-- `bytes` are the visible ones of a range, flipped as `flips` says. -/
def Shows (image : FileImage) (offset len : Nat) (flips : Nat → UInt8) (bytes : List UInt8) :
    Prop :=
  bytes.length = len ∧ ∀ index < len,
    bytes[index]? = image.visible[offset + index]?.map (· ^^^ flips (offset + index))

theorem read_shows {len : Nat} (fits : offset + len ≤ image.visible.length) :
    ∃ bytes, image.read rng offset len = some bytes ∧
      image.Shows offset len (image.damage rng ⟨offset, offset + len⟩) bytes := by
  have size : (slice image.visible ⟨offset, offset + len⟩).length = len := by
    rw [slice_length fits]
    simp
  have lengths : ∀ (sectors : List Nat) (buf : List UInt8),
      (sectors.foldl (image.readSector rng offset) buf).length = buf.length := fun sectors buf =>
    foldlRecOn (motive := (length · = buf.length)) sectors _ rfl
      fun _ same _ _ => readSector_length.trans same
  refine ⟨_, if_neg (by omega), (lengths _ _).trans size, ?_⟩
  intro index below
  have covered := @sector_mem_sectorRange offset len (offset + index) (by omega) (by omega)
  have distinct : (sectorRange offset len).Nodup := nodup_range'
  rw [readSectors_getElem? distinct (by omega), size, slice_getElem?,
    if_pos (by simp only; omega)]
  simp only [covered, if_true]

/-- What the reads of adjacent parts flip in the byte at `index`. -/
def partsDamage (rng : FaultRng) (image : FileImage) : Nat → List Nat → Nat → UInt8
  | _, [], _ => 0
  | offset, len :: rest, index =>
    if index < offset + len then image.damage rng ⟨offset, offset + len⟩ index
    else image.partsDamage rng (offset + len) rest index

variable {parts : List Nat}

theorem readParts_shows (fits : offset + parts.sum ≤ image.visible.length) :
    ∃ bytes, image.readParts rng offset parts = some bytes ∧
      image.Shows offset parts.sum (image.partsDamage rng offset parts) bytes := by
  induction parts generalizing offset with
  | nil => exact ⟨[], rfl, rfl, by simp⟩
  | cons len rest ih =>
    rw [sum_cons] at fits ⊢
    obtain ⟨first, reads, size, shown⟩ := @read_shows rng image offset len (by omega)
    obtain ⟨others, more, sizes, showns⟩ := @ih (offset + len) (by omega)
    refine ⟨first ++ others, by simp [readParts, reads, more], by simp [size, sizes], ?_⟩
    intro index below
    unfold partsDamage
    rcases lt_or_ge index len with inFirst | past
    · rw [getElem?_append_left (by omega), shown index inFirst, if_pos (by omega)]
    · rw [getElem?_append_right (by omega), size, showns _ (by omega),
        if_neg (by omega), show offset + len + (index - len) = offset + index by omega]

theorem xor_right_cancel {byte one other : UInt8} : byte ^^^ one = byte ^^^ other ↔ one = other := by
  constructor
  · intro same
    have := congrArg (byte ^^^ ·) same
    simpa [← UInt8.xor_assoc] using this
  · intro same
    rw [same]

theorem shows_agree_iff {len : Nat} {flips flips' : Nat → UInt8} {bytes bytes' : List UInt8}
    (fits : offset + len ≤ image.visible.length) (one : image.Shows offset len flips bytes)
    (other : image.Shows offset len flips' bytes') :
    bytes = bytes' ↔ ∀ index, (Span.mk offset (offset + len)).Contains index →
      flips index = flips' index := by
  constructor
  · intro same index inside
    have below : index - offset < len := by
      simp only [Span.Contains] at inside
      omega
    have place : offset + (index - offset) = index := Nat.add_sub_cancel' inside.1
    have both := (one.2 _ below).symm.trans (same ▸ other.2 _ below)
    rw [place, getElem?_eq_getElem (lt_of_lt_of_le inside.2 fits)] at both
    exact xor_right_cancel.mp (some.inj both)
  · intro agree
    apply ext_getElem?
    intro index
    rcases lt_or_ge index len with below | past
    · rw [one.2 _ below, other.2 _ below, agree _ (by simp only [Span.Contains]; omega)]
    · rw [getElem?_eq_none (one.1 ▸ past), getElem?_eq_none (other.1 ▸ past)]

def pieces : Nat → List Nat → List Span
  | _, [] => []
  | offset, len :: rest => ⟨offset, offset + len⟩ :: pieces (offset + len) rest

/-- No faulty sector is touched by both ranges. -/
def Apart (image : FileImage) (one other : Span) : Prop :=
  ∀ sector, image.faults.isSet sector = true → ¬ (one.Touches sector ∧ other.Touches sector)

theorem touches_append {len rest : Nat} :
    (Span.mk offset (offset + (len + rest))).Touches sector ↔
      (Span.mk offset (offset + len)).Touches sector ∨
        (Span.mk (offset + len) (offset + len + rest)).Touches sector := by
  simp only [Span.touches_iff, Span.Contains, ← exists_or]
  apply exists_congr
  intro index
  omega

theorem touches_pieces :
    (Span.mk offset (offset + parts.sum)).Touches sector ↔
      ∃ piece ∈ pieces offset parts, piece.Touches sector := by
  induction parts generalizing offset with
  | nil =>
    simp [pieces, Span.touches_iff, Span.Contains]
  | cons len rest ih =>
    rw [sum_cons, touches_append, ih]
    simp [pieces]

theorem exists_partsDamage (faulty : image.faults.isSet sector = true)
    (touched : (Span.mk offset (offset + parts.sum)).Touches sector) :
    ∃ index, (Span.mk offset (offset + parts.sum)).Contains index ∧ index / sectorSize = sector ∧
      image.partsDamage rng offset parts index ≠ 0 := by
  induction parts generalizing offset with
  | nil =>
    simp only [Span.touches_iff, Span.Contains, sum_nil] at touched
    omega
  | cons len rest ih =>
    rw [sum_cons, touches_append] at touched
    simp only [sum_cons, Span.Contains, partsDamage] at *
    rcases touched with head | later
    · obtain ⟨index, inside, place, hit⟩ := @exists_damage rng _ _ _ faulty head
      simp only [Span.Contains] at inside
      exact ⟨index, by omega, place, by rwa [if_pos inside.2]⟩
    · obtain ⟨index, inside, place, hit⟩ := ih later
      exact ⟨index, by omega, place, by rwa [if_neg (by omega)]⟩

theorem Apart.damage {low mid high : Nat} (apart : image.Apart ⟨low, mid⟩ ⟨mid, high⟩)
    (ordered : low ≤ mid ∧ mid ≤ high) (inside : low ≤ index ∧ index < high) :
    image.damage rng ⟨low, high⟩ index =
      if index < mid then image.damage rng ⟨low, mid⟩ index
      else image.damage rng ⟨mid, high⟩ index := by
  cases marked : image.faults.isSet (index / sectorSize) with
  | false => simp [damage_of_sound marked]
  | true =>
    have uncut := apart _ marked
    simp only [Span.Touches, Span.overlap, sectorSize] at uncut
    split
    · apply damage_congr
      simp only [Span.overlap, sectorSize, Span.mk.injEq, true_and]
      omega
    · apply damage_congr
      simp only [Span.overlap, sectorSize, Span.mk.injEq, and_true]
      omega

/-- Reads of the parts damage what one read damages exactly when no faulty sector is cut. -/
theorem damage_agrees_iff :
    (∀ index, (Span.mk offset (offset + parts.sum)).Contains index →
        image.partsDamage rng offset parts index =
          image.damage rng ⟨offset, offset + parts.sum⟩ index) ↔
      (pieces offset parts).Pairwise image.Apart := by
  induction parts generalizing offset with
  | nil =>
    simp [pieces, Span.Contains]
  | cons len rest ih =>
    have heads : (∀ piece ∈ pieces (offset + len) rest,
        image.Apart ⟨offset, offset + len⟩ piece) ↔
        image.Apart ⟨offset, offset + len⟩ ⟨offset + len, offset + len + rest.sum⟩ := by
      simp only [Apart, touches_pieces]
      grind
    rw [pieces, pairwise_cons, heads, ← ih, sum_cons]
    simp only [Span.Contains, partsDamage]
    constructor
    · intro agree
      have apart : image.Apart ⟨offset, offset + len⟩
          ⟨offset + len, offset + len + rest.sum⟩ := by
        -- one damaged byte on each side of the cut, but one read damages a sector once
        intro sector faulty touched
        obtain ⟨one, inFirst, place, hit⟩ := @exists_damage rng _ _ _ faulty touched.1
        obtain ⟨other, inRest, place', hit'⟩ :=
          @exists_partsDamage rng _ _ _ rest faulty touched.2
        simp only [Span.Contains] at inFirst inRest
        have first := agree one (by omega)
        have second := agree other (by omega)
        rw [if_pos inFirst.2] at first
        rw [if_neg (by omega)] at second
        have := damage_unique (place.trans place'.symm) (first ▸ hit) (second ▸ hit')
        omega
      refine ⟨apart, ?_⟩
      intro index inside
      have here := agree index (by omega)
      rw [if_neg (by omega), ← add_assoc, apart.damage (by omega) (by omega),
        if_neg (by omega)] at here
      exact here
    · rintro ⟨apart, agree⟩ index inside
      rw [← add_assoc, apart.damage (by omega) (by omega)]
      split
      · rfl
      · exact agree index (by omega)

/-- Reading a range of the file as adjacent parts returns what reading it at once does, exactly when
no sector with a latent fault is touched by two of the parts. -/
theorem split_read_iff (rng : FaultRng) (image : FileImage) (offset : Nat) (parts : List Nat)
    (fits : offset + parts.sum ≤ image.visible.length) :
    image.readParts rng offset parts = image.read rng offset parts.sum ↔
      (pieces offset parts).Pairwise image.Apart := by
  obtain ⟨bytes, reads, shown⟩ := @readParts_shows rng image offset parts fits
  obtain ⟨whole, readsWhole, shownWhole⟩ := @read_shows rng image offset parts.sum fits
  rw [reads, readsWhole, some_inj, shows_agree_iff fits shown shownWhole]
  exact damage_agrees_iff

/-- A file of so many bytes with a latent fault in its first sector. -/
def faultyImage (size : Nat) : FileImage :=
  let image := FileImage.new size fun _ _ => 0
  { image with faults := image.faults.set 0 }

def firstBitRng : FaultRng := ⟨fun _ _ => 0, fun _ _ => 0, fun _ _ => id⟩

theorem split_read_between_sectors :
    (faultyImage 1024).readParts firstBitRng 0 [512, 512] =
      (faultyImage 1024).read firstBitRng 0 1024 := by
  apply (split_read_iff firstBitRng (faultyImage 1024) 0 [512, 512] (by decide +kernel)).mpr
  apply pairwise_pair.mpr
  intro sector _ touched
  simp only [Span.Touches, Span.overlap, sectorSize] at touched
  omega

/-- Whatever is drawn, a faulty sector read in halves shows other bytes than read at once. -/
theorem halves_show_other_damage :
    ¬ ∃ rng : FaultRng, (faultyImage 512).readParts rng 0 [256, 256] =
      (faultyImage 512).read rng 0 512 := by
  rintro ⟨rng, same⟩
  have fits : 0 + [256, 256].sum ≤ (faultyImage 512).visible.length := by decide +kernel
  obtain ⟨bytes, reads, shown⟩ := @readParts_shows rng _ 0 [256, 256] fits
  obtain ⟨whole, readsWhole, shownWhole⟩ := @read_shows rng _ 0 [256, 256].sum fits
  have agree := (shows_agree_iff fits shown shownWhole).mp
    (some.inj (reads.symm.trans (same.trans readsWhole)))
  have apart := pairwise_pair.mp (damage_agrees_iff.mp agree)
  apply apart 0 (by decide +kernel)
  simp [Span.Touches, Span.overlap, sectorSize]

end FileImage
end
end Moonpool.Sim
