import Std.Data.ExtTreeMap
import Moonpool.Lib.Cells

/-!
Owns the authoritative image of one simulated file: its durable and visible bytes, the
sectors that are volatile, and the durability oracle (`storage/image.rs`).

A write changes the visible bytes and dirties its sectors; a sync copies dirty sectors to
the durable bytes and stamps them with a checksum; a crash resolves every dirty sector on
its own and then holds every stamp against the durable bytes.

CRC32C and the fill pattern are parameters.  Random draws are arguments: `lies` says which
sectors a sync lies about and `CrashDraws` what a crash rolls.  Offsets are unbounded.
-/

namespace Moonpool.Sim

open Lib List

theorem ok_of_bind {ε α β : Type} {first : Except ε α} {next : α → Except ε β} {result : β}
    (done : (first >>= next) = .ok result) :
    ∃ value, first = .ok value ∧ next value = .ok result := by
  cases first with
  | error error => cases done
  | ok value => exact ⟨value, rfl, done⟩

theorem ok_of_map {ε α β : Type} {given : Except ε α} {build : α → β} {built : β}
    (done : given.map build = .ok built) : ∃ value, given = .ok value ∧ build value = built := by
  cases given with
  | error error => cases done
  | ok value => exact ⟨value, rfl, Except.ok.inj done⟩

theorem foldlM_rec {ε σ ι : Type} {motive : σ → Prop} {step : σ → ι → Except ε σ} {items : List ι}
    {state result : σ} (start : motive state)
    (keeps : ∀ {item state next}, item ∈ items → motive state → step state item = .ok next →
      motive next)
    (done : items.foldlM step state = .ok result) : motive result := by
  induction items generalizing state with
  | nil =>
    cases done
    exact start
  | cons head rest ih =>
    obtain ⟨middle, first, done⟩ := ok_of_bind done
    exact ih (keeps mem_cons_self start first)
      (fun member => keeps (mem_cons_of_mem head member)) done

class Crc32c where
  crc32c : List UInt8 → UInt32

abbrev sectorSize : Nat := 512

def sectorCount (size : Nat) : Nat :=
  (size + (sectorSize - 1)) / sectorSize

def sectorRange (offset len : Nat) : List Nat :=
  range' (offset / sectorSize) (sectorCount (offset + len) - offset / sectorSize)

structure Span where
  start : Nat
  stop : Nat
deriving DecidableEq

namespace Span

def len (span : Span) : Nat := span.stop - span.start

abbrev Contains (span : Span) (index : Nat) : Prop := span.start ≤ index ∧ index < span.stop

end Span

def clampSector (sector limit : Nat) : Span :=
  if limit ≤ sector * sectorSize then ⟨0, 0⟩
  else ⟨sector * sectorSize, min (sector * sectorSize + sectorSize) limit⟩

theorem lt_sectorCount {sector size : Nat} :
    sector < sectorCount size ↔ sector * sectorSize < size := by
  simp only [sectorCount, sectorSize]
  omega

theorem mem_sectorRange {offset len sector : Nat} :
    sector ∈ sectorRange offset len ↔
      offset / sectorSize ≤ sector ∧ sector < sectorCount (offset + len) := by
  simp only [sectorRange, mem_range'_1]
  omega

theorem sector_mem_sectorRange {offset len index : Nat} (from_ : offset ≤ index)
    (below : index < offset + len) : index / sectorSize ∈ sectorRange offset len := by
  rw [mem_sectorRange, lt_sectorCount]
  constructor
  · exact Nat.div_le_div_right from_
  · have := Nat.div_mul_le_self index sectorSize
    omega

theorem clampSector_contains {sector limit index : Nat} :
    (clampSector sector limit).Contains index ↔ index / sectorSize = sector ∧ index < limit := by
  unfold clampSector
  split
  · simp only [Span.Contains, sectorSize] at *
    omega
  · simp only [Span.Contains, sectorSize] at *
    omega

def slice (bytes : List UInt8) (span : Span) : List UInt8 :=
  (bytes.take span.stop).drop span.start

def copySpan (target source : List UInt8) (span : Span) : List UInt8 :=
  overlay target fun index => if span.Contains index then source[index]? else none

@[simp] theorem copySpan_length (target source : List UInt8) (span : Span) :
    (copySpan target source span).length = target.length := overlay_length _ _

section

variable {target source : List UInt8} {span : Span} {index : Nat}

theorem copySpan_outside (outside : ¬ span.Contains index) :
    (copySpan target source span)[index]? = target[index]? := by
  apply overlay_of_none
  rw [if_neg outside]

theorem copySpan_inside (inside : span.Contains index) (below : index < target.length)
    (there : index < source.length) : (copySpan target source span)[index]? = source[index]? := by
  rw [getElem?_eq_getElem there]
  apply overlay_of_some _ below
  rw [if_pos inside, getElem?_eq_getElem there]

theorem copySpan_of_same (same : source[index]? = target[index]?) :
    (copySpan target source span)[index]? = target[index]? := by
  rw [copySpan, overlay_getElem?]
  split
  · rw [same]
    cases target[index]? <;> rfl
  · cases target[index]? <;> rfl

end

/-! ### Marks on sectors -/

structure SectorBitSet where
  marks : List Bool
deriving DecidableEq

namespace SectorBitSet

variable (bits : SectorBitSet)

def new (sectors : Nat) : SectorBitSet := ⟨replicate sectors false⟩

def set (bits : SectorBitSet) (sector : Nat) : SectorBitSet := ⟨bits.marks.set sector true⟩

def clear (sector : Nat) : SectorBitSet := ⟨bits.marks.set sector false⟩

def isSet (sector : Nat) : Bool := bits.marks.getD sector false

def len : Nat := bits.marks.length

def clearAll : SectorBitSet := new bits.len

def resized (newLen : Nat) : SectorBitSet :=
  ⟨resize bits.marks newLen fun _ => false⟩

variable {bits : SectorBitSet} {sector other : Nat}

theorem isSet_lt (marked : bits.isSet sector = true) : sector < bits.len := by
  apply Nat.lt_of_not_le
  intro past
  rw [isSet, getD_eq_getElem?_getD, getElem?_eq_none past] at marked
  cases marked

@[simp] theorem len_set : (bits.set sector).len = bits.len := length_set

@[simp] theorem len_clear : (bits.clear sector).len = bits.len := length_set

@[simp] theorem len_new (sectors : Nat) : (new sectors).len = sectors := length_replicate

@[simp] theorem len_resized (newLen : Nat) : (bits.resized newLen).len = newLen :=
  resize_length _ _ _

@[simp] theorem len_clearAll : bits.clearAll.len = bits.len := len_new _

theorem isSet_set_self (inside : sector < bits.len) : (bits.set sector).isSet sector = true := by
  have length : sector < bits.marks.length := inside
  simp [isSet, set, length]

@[simp] theorem isSet_set_ne (differs : other ≠ sector) :
    (bits.set sector).isSet other = bits.isSet other := by
  simp [isSet, set, getElem?_set_ne (Ne.symm differs)]

theorem isSet_set : (bits.set sector).isSet other = true ↔
    (other = sector ∧ other < bits.len) ∨ bits.isSet other = true := by
  by_cases same : other = sector
  · subst same
    refine ⟨fun marked => .inl ⟨rfl, by simpa using isSet_lt marked⟩, fun cases => ?_⟩
    exact isSet_set_self (cases.elim And.right isSet_lt)
  · rw [isSet_set_ne same, or_iff_right fun here => same here.1]

@[simp] theorem isSet_clear_self : (bits.clear sector).isSet sector = false := by
  simp only [isSet, clear, getD_eq_getElem?_getD, getElem?_set_self']
  cases bits.marks[sector]? <;> rfl

@[simp] theorem isSet_clear_ne (differs : other ≠ sector) :
    (bits.clear sector).isSet other = bits.isSet other := by
  simp [isSet, clear, getElem?_set_ne (Ne.symm differs)]

theorem isSet_of_isSet_clear (marked : (bits.clear sector).isSet other = true) :
    other ≠ sector ∧ bits.isSet other = true := by
  by_cases same : other = sector
  · rw [same, isSet_clear_self] at marked
    cases marked
  · exact ⟨same, by rwa [isSet_clear_ne same] at marked⟩

theorem isSet_clear_of_unset (unmarked : bits.isSet other = false) :
    (bits.clear sector).isSet other = false := by
  apply Bool.eq_false_iff.mpr
  intro marked
  rw [(isSet_of_isSet_clear marked).2] at unmarked
  cases unmarked

@[simp] theorem isSet_new (sectors : Nat) : (new sectors).isSet sector = false := by
  simp only [isSet, new, getD_eq_getElem?_getD, getElem?_replicate]
  split <;> rfl

@[simp] theorem isSet_clearAll : bits.clearAll.isSet sector = false := isSet_new _

theorem isSet_resized (newLen : Nat) :
    (bits.resized newLen).isSet sector = (decide (sector < newLen) && bits.isSet sector) := by
  simp only [isSet, resized, getD_eq_getElem?_getD]
  by_cases fits : sector < newLen
  · by_cases old : sector < bits.marks.length
    · rw [resize_getElem?_old _ fits old]
      simp [fits]
    · have past := Nat.le_of_not_lt old
      rw [resize_getElem?_new _ fits past, getElem?_eq_none past]
      simp
  · simp [fits]

theorem len_foldl_set (sectors : List Nat) : (sectors.foldl set bits).len = bits.len := by
  induction sectors generalizing bits with
  | nil => rfl
  | cons head rest ih =>
    rw [foldl_cons, ih, len_set]

theorem isSet_foldl_set {sectors : List Nat} : (sectors.foldl set bits).isSet sector = true ↔
    (sector ∈ sectors ∧ sector < bits.len) ∨ bits.isSet sector = true := by
  induction sectors generalizing bits with
  | nil => simp
  | cons head rest ih =>
    rw [foldl_cons, ih, isSet_set, len_set, mem_cons, ← or_assoc, ← or_and_right,
      or_comm (a := sector ∈ rest)]

theorem isSet_of_isSet_foldl_clear {sectors : List Nat}
    (marked : (sectors.foldl clear bits).isSet sector = true) :
    sector ∉ sectors ∧ bits.isSet sector = true := by
  induction sectors generalizing bits with
  | nil => exact ⟨not_mem_nil, marked⟩
  | cons head rest ih =>
    obtain ⟨absent, before⟩ := ih marked
    obtain ⟨differs, before⟩ := isSet_of_isSet_clear before
    exact ⟨not_mem_cons_of_ne_of_not_mem differs absent, before⟩

end SectorBitSet

/-! ### The image -/

/-- What a never-written or lost sector reads, byte by byte: zeros or keyed garbage. -/
abbrev FillPattern : Type := Nat → Nat → UInt8

def fillByte (fill : FillPattern) (index : Nat) : UInt8 :=
  fill (index / sectorSize) (index % sectorSize)

structure FileImage where
  /-- Durable bytes as of the last successful sync. -/
  committed : List UInt8
  visible : List UInt8
  dirty : SectorBitSet
  /-- Sectors a sync lied about: reported durable, left volatile. -/
  lied : SectorBitSet
  /-- Dirty sectors a failed writeback marked clean without making them durable. -/
  stranded : SectorBitSet
  faults : SectorBitSet
  eioRead : SectorBitSet
  eioWrite : SectorBitSet
  /-- Sectors a random fault left holding the wrong bytes. -/
  damaged : SectorBitSet
  /-- Checksum and length of the prefix of each sector the caller believes durable. -/
  oracle : Std.ExtTreeMap Nat (UInt32 × Nat)
  fill : FillPattern

inductive EioTarget where
  | read
  | write
  | readWrite
deriving DecidableEq

inductive CrashOutcome where
  | keptOld
  | keptNew
  | lost
  | latentFault
  | shorn
deriving DecidableEq

structure SectorResolution where
  sector : Nat
  outcome : CrashOutcome
  correlated : Bool
deriving DecidableEq

structure FileCrashReport where
  lengthReverted : Bool
  clean : Bool
  resolutions : List SectorResolution
  lostSynced : List Nat
deriving DecidableEq

/-- What a crash rolls.  A sector's roll falls into the band of one outcome. -/
structure CrashDraws where
  lengthSurvives : Bool
  clean : Bool
  window : Option Span
  roll : Nat → CrashOutcome
  split : Nat → Nat
  prefixNew : Nat → Bool

/-- The oracle's assertion failed: a sector reported durable changed across a crash. -/
structure SimBug where
  sector : Nat
deriving DecidableEq

namespace FileImage

variable (image : FileImage)

def sectors : Nat := sectorCount image.visible.length

def sharedBounds (sector : Nat) : Span :=
  clampSector sector (min image.visible.length image.committed.length)

def committedBounds (sector : Nat) : Span :=
  clampSector sector image.committed.length

def visibleBounds (sector : Nat) : Span :=
  clampSector sector image.visible.length

section

variable {image : FileImage} {sector index : Nat}

theorem visibleBounds_contains :
    (image.visibleBounds sector).Contains index ↔
      index / sectorSize = sector ∧ index < image.visible.length :=
  clampSector_contains

theorem committedBounds_contains :
    (image.committedBounds sector).Contains index ↔
      index / sectorSize = sector ∧ index < image.committed.length :=
  clampSector_contains

theorem sharedBounds_contains :
    (image.sharedBounds sector).Contains index ↔
      index / sectorSize = sector ∧ index < image.visible.length ∧
        index < image.committed.length := by
  rw [sharedBounds, clampSector_contains, Nat.lt_min]

end

def resizeBitsets (sectors : Nat) : FileImage :=
  { image with
    dirty := image.dirty.resized sectors
    lied := image.lied.resized sectors
    stranded := image.stranded.resized sectors
    faults := image.faults.resized sectors
    eioRead := image.eioRead.resized sectors
    eioWrite := image.eioWrite.resized sectors
    damaged := image.damaged.resized sectors }

/-- Dirty a sector that gained bytes; a stranded one is dirty again. -/
def growSector (sector : Nat) : FileImage :=
  { image with dirty := image.dirty.set sector, stranded := image.stranded.clear sector }

def resizeVisible (newLen : Nat) : FileImage :=
  let oldLen := image.visible.length
  let resized :=
    { image with visible := resize image.visible newLen (fillByte image.fill) }.resizeBitsets
      (sectorCount newLen)
  if newLen ≤ oldLen then resized
  else (sectorRange oldLen (newLen - oldLen)).foldl growSector resized

def new (size : Nat) (fill : FillPattern) : FileImage :=
  let none := SectorBitSet.new 0
  let image := resizeVisible ⟨[], [], none, none, none, none, none, none, none, ∅, fill⟩ size
  { image with committed := image.visible, dirty := image.dirty.clearAll }

/-- A written sector loses any latent fault, any lie and any durability stamp. -/
def writeSector (sector : Nat) : FileImage :=
  { image with
    damaged := image.damaged.clear sector
    dirty := image.dirty.set sector
    faults := image.faults.clear sector
    lied := image.lied.clear sector
    stranded := image.stranded.clear sector
    oracle := image.oracle.erase sector }

/-- Write `data` at `offset`, extending the file if needed. Says whether it repaired a sector. -/
def write (offset : Nat) (data : List UInt8) : FileImage × Bool :=
  let stop := offset + data.length
  let image := if image.visible.length < stop then image.resizeVisible stop else image
  let image :=
    { image with
      visible := overlay image.visible fun index =>
        if offset ≤ index then data[index - offset]? else none }
  let sectors := sectorRange offset data.length
  (sectors.foldl writeSector image, sectors.any image.damaged.isSet)

def unstamp (sectors : List Nat) : FileImage :=
  { image with oracle := sectors.foldl (fun oracle sector => oracle.erase sector) image.oracle }

/-- Narrow the durability stamp of the sector a shrink truncated into. -/
def narrowTailStamp [Crc32c] (image : FileImage) (newLen : Nat) : FileImage :=
  let sector := newLen / sectorSize
  let start := sector * sectorSize
  let surviving := newLen - start
  match image.oracle[sector]? with
  | none => image
  | some (_, stampedLen) =>
    if stampedLen ≤ surviving then image
    else
      let crc := Crc32c.crc32c (slice image.visible ⟨start, start + surviving⟩)
      { image with oracle := image.oracle.insert sector (crc, surviving) }

/-- Resize the visible image; the new length is durable only at the next sync. -/
def setLen [Crc32c] (image : FileImage) (newLen : Nat) : FileImage :=
  let oldLen := image.visible.length
  let oldSectors := image.sectors
  let image := image.resizeVisible newLen
  let image := image.unstamp (range' image.sectors (oldSectors - image.sectors))
  if newLen < oldLen then image.narrowTailStamp newLen else image

/-- Whether a sync flushes `sector`: dirty and not stranded. -/
def isFlushable (sector : Nat) : Bool :=
  image.dirty.isSet sector && !image.stranded.isSet sector

def flushableSectors : List Nat :=
  (range image.sectors).filter image.isFlushable

def dirtySectors : List Nat :=
  (range image.sectors).filter image.dirty.isSet

def syncSector [Crc32c] (lies : Nat → Bool) (image : FileImage) (sector : Nat) : FileImage :=
  let range := image.visibleBounds sector
  let stamp := (Crc32c.crc32c (slice image.visible range), range.len)
  let image := { image with oracle := image.oracle.insert sector stamp }
  if lies sector then { image with lied := image.lied.set sector }
  else
    { image with
      committed := copySpan image.committed image.visible range
      dirty := image.dirty.clear sector
      lied := image.lied.clear sector }

/-- Make every visible byte durable: the barrier.  Gives the sectors it lied about. -/
def sync [Crc32c] (image : FileImage) (lies : Nat → Bool) : FileImage × List Nat :=
  let resized := { image with committed := resize image.committed image.visible.length fun _ => 0 }
  let sectors := resized.flushableSectors
  (sectors.foldl (syncSector lies) resized, sectors.filter lies)

/-- One sector of a failed writeback: reverted to its whole durable copy, or stranded. -/
def failSector (revert : Bool) (image : FileImage) (sector : Nat) : FileImage :=
  let shared := image.sharedBounds sector
  let whole := shared.len ≠ 0 ∧ shared = image.visibleBounds sector
  if revert ∧ whole ∧ image.lied.isSet sector = false then
    { image with
      visible := copySpan image.visible image.committed shared
      dirty := image.dirty.clear sector }
  else { image with stranded := image.stranded.set sector }

/-- Fail the background writeback of every sector a sync would flush. -/
def failWriteback (revert : Bool) : FileImage × List Nat :=
  let sectors := image.flushableSectors
  (sectors.foldl (failSector revert) image, sectors)

/-- One sector dropped from the cache: it reads its durable bytes, and the fill past the durable
end. -/
def dropSector (sector : Nat) : FileImage :=
  let shared := image.sharedBounds sector
  let bounds := image.visibleBounds sector
  let visible := overlay image.visible fun index =>
    if bounds.Contains index then
      if shared.Contains index then image.committed[index]?
      else some (image.fill sector (index - bounds.start))
    else none
  { image with
    visible
    stranded := image.stranded.clear sector
    dirty := if shared = bounds then image.dirty.clear sector else image.dirty }

def dropCache : FileImage × List Nat :=
  let dropped := (range image.sectors).filter image.stranded.isSet
  (dropped.foldl dropSector image, dropped)

def corrupt (sectors : List Nat) : FileImage :=
  { image with faults := sectors.foldl SectorBitSet.set image.faults }

def failWithEio (sectors : List Nat) (target : EioTarget) : FileImage :=
  { image with
    eioRead :=
      if target = .read ∨ target = .readWrite then sectors.foldl SectorBitSet.set image.eioRead
      else image.eioRead
    eioWrite :=
      if target = .write ∨ target = .readWrite then sectors.foldl SectorBitSet.set image.eioWrite
      else image.eioWrite }

def damageMask (offset : Nat) : UInt8 :=
  ((UInt64.ofNat offset * 0x9E3779B97F4A7C15) >>> 56).toUInt8 ||| 1

/-- Flip the byte at `offset`, in the visible image too unless its sector is dirty. -/
def corruptByte (offset : Nat) : FileImage :=
  let flip := fun bytes : List UInt8 => overlay bytes fun index =>
    if index = offset then bytes[offset]?.map (· ^^^ damageMask offset) else none
  { image with
    committed := flip image.committed
    visible :=
      if offset < image.visible.length ∧ image.dirty.isSet (offset / sectorSize) = false then
        flip image.visible
      else image.visible }

/-- Stamp the damaged durable bytes of a sector that is not dirty. -/
def restamp [Crc32c] (image : FileImage) (sector : Nat) : FileImage :=
  if image.dirty.isSet sector then image
  else
    match image.oracle[sector]? with
    | none => image
    | some (_, stampedLen) =>
      let range := image.committedBounds sector
      let stamped : Span := ⟨range.start, min (range.start + stampedLen) range.stop⟩
      let crc := Crc32c.crc32c (slice image.committed stamped)
      { image with oracle := image.oracle.insert sector (crc, stamped.len) }

/-- Durably mutate exactly `bytes`, which must lie within the durable image, and re-stamp the
oracle. -/
def corruptBytes [Crc32c] (image : FileImage) (bytes : Span) : FileImage × Bool :=
  if image.committed.length < bytes.stop then (image, false)
  else
    let image := (range' bytes.start bytes.len).foldl corruptByte image
    if bytes.len = 0 then (image, true)
    else
      let first := bytes.start / sectorSize
      let sectors := range' first ((bytes.stop - 1) / sectorSize + 1 - first)
      (sectors.foldl restamp image, true)

/-! ### Crashes -/

/-- Bytes at the start of `sector` that the last sync reported durable and no write touched
since. -/
def protectedPrefix (sector : Nat) : Nat :=
  if image.lied.isSet sector then 0
  else
    match image.oracle[sector]? with
    | none => 0
    | some (_, len) => len

def chooseOutcome (roll : CrashOutcome) (lied inWindow guarded : Bool) : CrashOutcome :=
  if inWindow || lied then .keptOld
  else if roll = .latentFault ∧ guarded then .lost
  else roll

def settle (sector : Nat) : FileImage :=
  { image with dirty := image.dirty.clear sector, lied := image.lied.clear sector }

def commitSector (sector : Nat) : FileImage :=
  settle { image with
    committed := copySpan image.committed image.visible (image.sharedBounds sector) } sector

def applyOutcome (draws : CrashDraws) (image : FileImage) (sector : Nat) :
    CrashOutcome → FileImage × CrashOutcome
  | .keptOld => (image.settle sector, .keptOld)
  | .keptNew => (image.commitSector sector, .keptNew)
  | .latentFault =>
    let image := image.commitSector sector
    ({ image with faults := image.faults.set sector, damaged := image.damaged.set sector },
      .latentFault)
  | .lost =>
    let range := image.committedBounds sector
    let start := min (range.start + image.protectedPrefix sector) range.stop
    let image :=
      { image with
        committed := overlay image.committed fun index =>
          if start ≤ index ∧ index < range.stop then
            some (image.fill sector (index - range.start))
          else none }
    let image := image.settle sector
    ({ image with damaged := image.damaged.set sector }, .lost)
  | .shorn =>
    let range := image.sharedBounds sector
    if range.len ≤ 1 then (image.settle sector, .keptOld)
    else
      let split := range.start + (1 + draws.split sector % (range.len - 1))
      let kept : Span :=
        if draws.prefixNew sector then ⟨range.start, split⟩ else ⟨split, range.stop⟩
      let image := { image with committed := copySpan image.committed image.visible kept }
      let image := image.settle sector
      ({ image with damaged := image.damaged.set sector }, .shorn)

def sweepStamp [Crc32c] (lied : List Nat) (armed : Bool) (swept : FileImage × List Nat)
    (stamp : Nat × UInt32 × Nat) : Except SimBug (FileImage × List Nat) :=
  let (image, lost) := swept
  let (sector, crc, stampedLen) := stamp
  let range := image.committedBounds sector
  if range.len < stampedLen then
    .ok ({ image with oracle := image.oracle.erase sector }, lost)
  else if Crc32c.crc32c (slice image.committed ⟨range.start, range.start + stampedLen⟩) = crc then
    .ok (image, lost)
  else if armed && lied.contains sector then .ok (image, lost ++ [sector])
  else .error ⟨sector⟩

/-- Check that every sector a sync reported durable still holds that, and give those a lying sync
lost. -/
def oracleSweep [Crc32c] (image : FileImage) (lied : List Nat) (armed : Bool) :
    Except SimBug (FileImage × List Nat) := do
  let (image, lost) ← image.oracle.toList.foldlM (sweepStamp lied armed) (image, [])
  return (image.unstamp lost, lost)

def converge : FileImage :=
  let image := { image with visible := image.committed }
  let image := image.resizeBitsets image.sectors
  { image with
    dirty := image.dirty.clearAll
    lied := image.lied.clearAll
    stranded := image.stranded.clearAll }

/-- The durable image takes the visible length; what it gains reads the fill pattern. -/
def adoptLength : FileImage :=
  { image with
    committed := resize image.committed image.visible.length (fillByte image.fill) }

def revertLength : FileImage :=
  let image := { image with visible := image.visible.take image.committed.length }
  image.resizeBitsets image.sectors

def resolveLength (survives : Bool) : FileImage × Bool :=
  if image.visible.length = image.committed.length then (image, false)
  else if survives then (image.adoptLength, false)
  else (image.revertLength, true)

def landAll (dirty : List Nat) : FileImage :=
  dirty.foldl
    (fun image sector => if image.stranded.isSet sector then image else image.commitSector sector)
    image

def crashSector (draws : CrashDraws) (swept : FileImage × List SectorResolution) (sector : Nat) :
    FileImage × List SectorResolution :=
  let (image, resolutions) := swept
  let inWindow := draws.window.any fun window => decide (window.Contains sector)
  let guarded := decide (0 < image.protectedPrefix sector)
  let outcome := chooseOutcome (draws.roll sector) (image.lied.isSet sector) inWindow guarded
  let (image, applied) := image.applyOutcome draws sector outcome
  (image, resolutions ++ [⟨sector, applied, inWindow⟩])

/-- After the sectors are resolved: converge, sweep, and mark what a lying sync lost. -/
def reboot [Crc32c] (image : FileImage) (lied : List Nat) (armed : Bool) (report : FileCrashReport) :
    Except SimBug (FileImage × FileCrashReport) := do
  let (image, lost) ← image.converge.oracleSweep lied armed
  return ({ image with damaged := lost.foldl SectorBitSet.set image.damaged },
    { report with lostSynced := lost })

/-- Resolve a crash: every dirty sector lands old, new, lost, damaged or shorn, on its own. -/
def crash [Crc32c] (image : FileImage) (draws : CrashDraws) (armed : Bool) :
    Except SimBug (FileImage × FileCrashReport) :=
  let (image, reverted) := image.resolveLength draws.lengthSurvives
  let dirty := image.dirtySectors
  let lied := dirty.filter image.lied.isSet
  if draws.clean then (image.landAll dirty).reboot lied armed ⟨reverted, true, [], []⟩
  else
    let (image, resolutions) := dirty.foldl (crashSector draws) (image, [])
    image.reboot lied armed ⟨reverted, false, resolutions, []⟩

/-- A kill that keeps the page cache: every dirty sector lands new, and the length. -/
def keepCache [Crc32c] (image : FileImage) (armed : Bool) : Except SimBug (FileImage × FileCrashReport) :=
  let image :=
    if image.visible.length = image.committed.length then image else image.adoptLength
  let dirty := image.dirtySectors
  let lied := dirty.filter image.lied.isSet
  (image.landAll dirty).reboot lied armed ⟨false, true, [], []⟩

end FileImage

end Moonpool.Sim
