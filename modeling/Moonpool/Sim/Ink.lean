import Moonpool.Sim.Agree

/-!
Owns where the bytes of a file image come from: a byte no write has reached reads the fill
pattern, in both images.

Beside the image runs its ink: the same operations on an image whose fill is zero and whose
writes write only `inked` bytes.  A byte of the ink is zero where nothing written, and no
damage, has come to lie.  The two share every mark and stamp, so each operation moves the
bytes of both alike; one relation between a byte and its ink is kept by every operation.
-/

namespace Moonpool.Sim

open Lib FileImage SectorBitSet

/-! ### Related bytes -/

structure CellsRel (R : Nat → UInt8 → UInt8 → Prop) (cells inks : List UInt8) : Prop where
  length : inks.length = cells.length
  each : ∀ index cell ink, cells[index]? = some cell → inks[index]? = some ink → R index cell ink

section Cells

variable {R : Nat → UInt8 → UInt8 → Prop} {cells inks others otherInks : List UInt8}

theorem CellsRel.overlay {value inkValue : Nat → Option UInt8} (rel : CellsRel R cells inks)
    (both : ∀ index, index < cells.length → (value index = none ↔ inkValue index = none))
    (values : ∀ index cell ink, value index = some cell → inkValue index = some ink →
      R index cell ink) :
    CellsRel R (overlay cells value) (overlay inks inkValue) := by
  refine ⟨by simp [rel.length], fun index cell ink here inkHere => ?_⟩
  rw [overlay_getElem?, Option.map_eq_some_iff] at here inkHere
  obtain ⟨old, there, rfl⟩ := here
  obtain ⟨oldInk, inkThere, rfl⟩ := inkHere
  have below := (List.getElem?_eq_some_iff.mp there).1
  cases new : value index with
  | none =>
    rw [(both index below).mp new]
    exact rel.each index _ _ there inkThere
  | some cell =>
    cases inkNew : inkValue index with
    | none =>
      rw [(both index below).mpr inkNew] at new
      cases new
    | some ink => exact values index _ _ new inkNew

theorem CellsRel.copySpan (rel : CellsRel R cells inks) (source : CellsRel R others otherInks)
    (span : Span) :
    CellsRel R (copySpan cells others span) (copySpan inks otherInks span) := by
  refine rel.overlay (fun index _ => ?_) fun index cell ink here inkHere => ?_
  · split
    · simp [source.length]
    · rfl
  · split at here
    next inside =>
      rw [if_pos inside] at inkHere
      exact source.each index _ _ here inkHere
    · cases here

theorem CellsRel.resize (rel : CellsRel R cells inks) {count : Nat} {fill inkFill : Nat → UInt8}
    (new : ∀ index, cells.length ≤ index → index < count → R index (fill index) (inkFill index)) :
    CellsRel R (resize cells count fill) (resize inks count inkFill) := by
  refine ⟨by simp, fun index cell ink here inkHere => ?_⟩
  have below : index < count := by
    simpa using (List.getElem?_eq_some_iff.mp here).1
  rcases lt_or_ge index cells.length with old | gained
  · rw [resize_getElem?_old _ below old] at here
    rw [resize_getElem?_old _ below (rel.length.symm ▸ old)] at inkHere
    exact rel.each index _ _ here inkHere
  · rw [resize_getElem?_new _ below gained] at here
    rw [resize_getElem?_new _ below (rel.length.symm ▸ gained)] at inkHere
    cases here
    cases inkHere
    exact new index gained below

theorem CellsRel.take (rel : CellsRel R cells inks) (count : Nat) :
    CellsRel R (cells.take count) (inks.take count) := by
  refine ⟨by simp [rel.length], fun index cell ink here inkHere => ?_⟩
  rw [List.getElem?_take] at here inkHere
  split at here
  next below =>
    rw [if_pos below] at inkHere
    exact rel.each index _ _ here inkHere
  · cases here

theorem CellsRel.mono {S : Nat → UInt8 → UInt8 → Prop} (rel : CellsRel R cells inks)
    (weaker : ∀ index cell ink, R index cell ink → S index cell ink) : CellsRel S cells inks :=
  ⟨rel.length, fun index _ _ here inkHere => weaker index _ _ (rel.each index _ _ here inkHere)⟩

end Cells

/-! ### Related images -/

/-- An image and its ink: the same volatile sectors, and bytes related in both images. -/
structure Inks (R : Nat → UInt8 → UInt8 → Prop) (image ink : FileImage) : Prop where
  dirty : ink.dirty = image.dirty
  lied : ink.lied = image.lied
  stranded : ink.stranded = image.stranded
  visible : CellsRel R image.visible ink.visible
  committed : CellsRel R image.committed ink.committed
  fill : ∀ sector offset, offset < sectorSize →
    R (sector * sectorSize + offset) (image.fill sector offset) (ink.fill sector offset)

namespace Inks

variable {R : Nat → UInt8 → UInt8 → Prop} {image ink : FileImage}

section

variable (inks : Inks R image ink)

include inks

theorem fillByte (index : Nat) :
    R index (fillByte image.fill index) (fillByte ink.fill index) := by
  have here := inks.fill (index / sectorSize) (index % sectorSize) (Nat.mod_lt _ (by decide))
  rwa [Nat.div_add_mod'] at here

theorem fillAt {sector index start : Nat}
    (own : index / sectorSize = sector) (starts : start = sector * sectorSize) :
    R index (image.fill sector (index - start)) (ink.fill sector (index - start)) := by
  have here := inks.fill sector (index % sectorSize) (Nat.mod_lt _ (by decide))
  simp only [sectorSize] at *
  rwa [show sector * 512 + index % 512 = index by omega,
    show index % 512 = index - start by omega] at here

theorem sectors : ink.sectors = image.sectors := by
  rw [FileImage.sectors, inks.visible.length, FileImage.sectors]

theorem sharedBounds (sector : Nat) :
    ink.sharedBounds sector = image.sharedBounds sector := by
  rw [FileImage.sharedBounds, inks.visible.length, inks.committed.length, FileImage.sharedBounds]

theorem visibleBounds (sector : Nat) :
    ink.visibleBounds sector = image.visibleBounds sector := by
  rw [FileImage.visibleBounds, inks.visible.length, FileImage.visibleBounds]

theorem flushableSectors : ink.flushableSectors = image.flushableSectors := by
  unfold FileImage.flushableSectors isFlushable
  rw [inks.sectors, inks.dirty, inks.stranded]

theorem foldl {ι : Type} {step : FileImage → ι → FileImage} {items : List ι}
    (keeps : ∀ item ∈ items, ∀ {image ink}, Inks R image ink →
      Inks R (step image item) (step ink item)) :
    Inks R (items.foldl step image) (items.foldl step ink) := by
  induction items generalizing image ink with
  | nil => exact inks
  | cons item rest ih =>
    exact ih (keeps item List.mem_cons_self inks)
      fun other member => keeps other (List.mem_cons_of_mem _ member)

/-! ### Operations without draws -/

theorem resizeBitsets (sectors : Nat) :
    Inks R (image.resizeBitsets sectors) (ink.resizeBitsets sectors) :=
  { inks with
    dirty := congrArg (resized · sectors) inks.dirty
    lied := congrArg (resized · sectors) inks.lied
    stranded := congrArg (resized · sectors) inks.stranded }

theorem congr {next nextInk : FileImage}
    (same : next = { image with
      oracle := next.oracle, faults := next.faults, damaged := next.damaged })
    (sameInk : nextInk = { ink with
      oracle := nextInk.oracle, faults := nextInk.faults, damaged := nextInk.damaged }) :
    Inks R next nextInk := by
  rw [same, sameInk]
  exact { inks with }

theorem withVisible {visible inkVisible : List UInt8} (rel : CellsRel R visible inkVisible) :
    Inks R { image with visible } { ink with visible := inkVisible } :=
  { inks with visible := rel }

theorem withCommitted {committed inkCommitted : List UInt8}
    (rel : CellsRel R committed inkCommitted) :
    Inks R { image with committed } { ink with committed := inkCommitted } :=
  { inks with committed := rel }

theorem resizeVisible (newLen : Nat) :
    Inks R (image.resizeVisible newLen) (ink.resizeVisible newLen) := by
  have resized := (inks.withVisible (inks.visible.resize fun index _ (_ : index < newLen) =>
    inks.fillByte index)).resizeBitsets (sectorCount newLen)
  unfold FileImage.resizeVisible
  rw [inks.visible.length]
  dsimp only
  split
  · exact resized
  exact resized.foldl fun sector _ _ _ inks =>
    { inks with
      dirty := congrArg (set · sector) inks.dirty
      stranded := congrArg (clear · sector) inks.stranded }

end

/-- The byte every write of the ink writes: no damage makes it zero. -/
def inked : UInt8 := 2

theorem write (inks : Inks R image ink) {offset : Nat} {data : List UInt8}
    (writes : ∀ place byte, data[place]? = some byte → R (offset + place) byte inked) :
    Inks R (image.write offset data).1 (ink.write offset (data.map fun _ => inked)).1 := by
  unfold FileImage.write
  simp only [List.length_map, inks.visible.length]
  have grown : Inks R
      (if image.visible.length < offset + data.length then
        image.resizeVisible (offset + data.length) else image)
      (if image.visible.length < offset + data.length then
        ink.resizeVisible (offset + data.length) else ink) := by
    split
    · exact inks.resizeVisible _
    · exact inks
  generalize (if image.visible.length < offset + data.length then
    image.resizeVisible (offset + data.length) else image) = wide at grown ⊢
  generalize (if image.visible.length < offset + data.length then
    ink.resizeVisible (offset + data.length) else ink) = wideInk at grown ⊢
  have written : CellsRel R
      (overlay wide.visible fun index => if offset ≤ index then data[index - offset]? else none)
      (overlay wideInk.visible fun index =>
        if offset ≤ index then (data.map fun _ => inked)[index - offset]? else none) := by
    refine grown.visible.overlay (fun index _ => ?_) fun index cell stain here inkHere => ?_
    · split <;> simp
    · split at here
      next past =>
        rw [if_pos past, List.getElem?_map, here] at inkHere
        cases inkHere
        have covered := writes _ _ here
        rwa [Nat.add_sub_cancel' past] at covered
      · cases here
  exact (grown.withVisible written).foldl fun sector _ _ _ inks =>
    { inks with
      dirty := congrArg (set · sector) inks.dirty
      lied := congrArg (clear · sector) inks.lied
      stranded := congrArg (clear · sector) inks.stranded }

theorem setLen [Crc32c] (inks : Inks R image ink) (newLen : Nat) :
    Inks R (image.setLen newLen) (ink.setLen newLen) := by
  have resized := inks.resizeVisible newLen
  unfold FileImage.setLen
  dsimp only
  rw [inks.visible.length, inks.sectors, resized.sectors]
  split
  · rw [narrowTailStamp_eq, narrowTailStamp_eq (FileImage.unstamp (ink.resizeVisible newLen) _)]
    exact resized.congr rfl rfl
  · exact resized.congr rfl rfl

theorem failWriteback (inks : Inks R image ink) (revert : Bool) :
    Inks R (image.failWriteback revert).1 (ink.failWriteback revert).1 := by
  unfold FileImage.failWriteback
  rw [inks.flushableSectors]
  refine inks.foldl fun sector _ image ink inks => ?_
  unfold failSector
  rw [inks.sharedBounds, inks.visibleBounds, inks.lied]
  dsimp only
  split
  · exact { inks with
      dirty := congrArg (clear · sector) inks.dirty
      lied := rfl
      visible := inks.visible.copySpan inks.committed _ }
  · exact { inks with lied := rfl, stranded := congrArg (set · sector) inks.stranded }

theorem dropCache (inks : Inks R image ink) : Inks R image.dropCache.1 ink.dropCache.1 := by
  unfold FileImage.dropCache
  rw [inks.sectors, inks.stranded]
  refine inks.foldl fun sector _ image ink inks => ?_
  unfold dropSector
  rw [inks.sharedBounds, inks.visibleBounds]
  refine { inks with
    dirty := ?_, stranded := congrArg (clear · sector) inks.stranded, visible := ?_ }
  · rw [inks.dirty]
  · refine inks.visible.overlay (fun index _ => ?_) fun index cell stain here inkHere => ?_
    · split
      · split
        · simp [inks.committed.length]
        · simp
      · rfl
    · split at here
      next inside =>
        rw [if_pos inside] at inkHere
        split at here
        next shared =>
          rw [if_pos shared] at inkHere
          exact inks.committed.each index _ _ here inkHere
        next past =>
          rw [if_neg past] at inkHere
          cases here
          cases inkHere
          obtain ⟨own, below⟩ := visibleBounds_contains.mp inside
          refine inks.fillAt own ?_
          rw [FileImage.visibleBounds, clampSector, if_neg]
          have := Nat.div_mul_le_self index sectorSize
          rw [own] at this
          omega
      · cases here

/-! ### Syncs and damage -/

theorem syncSectors [Crc32c] {lies : Nat → Bool} {sectors : List Nat} {image ink : FileImage}
    (inks : Inks (fun index cell stain =>
      (index / sectorSize ∈ sectors ∧ lies (index / sectorSize) = false) ∨ R index cell stain)
      image ink)
    (visible : CellsRel R image.visible ink.visible)
    (fill : ∀ sector offset, offset < sectorSize →
      R (sector * sectorSize + offset) (image.fill sector offset) (ink.fill sector offset))
    (length : image.committed.length = image.visible.length) :
    Inks R (sectors.foldl (syncSector lies) image)
      (sectors.foldl (syncSector lies) ink) := by
  induction sectors generalizing image ink with
  | nil =>
    exact { inks with
      visible, fill
      committed := inks.committed.mono fun _ _ _ rel => rel.resolve_left fun listed =>
        List.not_mem_nil listed.1 }
  | cons sector rest ih =>
    have bounds := inks.visibleBounds sector
    rw [List.foldl_cons, List.foldl_cons]
    cases lie : lies sector with
    | true =>
      have kept : ∀ {index : Nat} {cell stain : UInt8},
          (index / sectorSize ∈ sector :: rest ∧ lies (index / sectorSize) = false) ∨
            R index cell stain →
          (index / sectorSize ∈ rest ∧ lies (index / sectorSize) = false) ∨
            R index cell stain := by
        intro index cell stain rel
        refine rel.imp_left fun listed => ⟨?_, listed.2⟩
        refine (List.mem_cons.mp listed.1).resolve_left fun same => ?_
        rw [same, lie] at listed
        cases listed.2
      simp only [syncSector, lie, if_true]
      refine ih ⟨inks.dirty, ?_, inks.stranded,
        inks.visible.mono fun _ _ _ => kept, inks.committed.mono fun _ _ _ => kept,
        fun sector offset below => .inr (fill sector offset below)⟩ visible fill length
      exact congrArg (set · sector) inks.lied
    | false =>
      simp only [syncSector, lie, Bool.false_eq_true, if_false, bounds]
      refine ih ⟨?_, ?_, inks.stranded,
        visible.mono fun _ _ _ => .inr, ⟨?_, ?_⟩,
        fun sector offset below => .inr (fill sector offset below)⟩ visible fill
        (by simpa using length)
      · exact congrArg (clear · sector) inks.dirty
      · exact congrArg (clear · sector) inks.lied
      · simpa using inks.committed.length
      · intro index cell stain here inkHere
        have below : index < image.committed.length := by
          simpa using (List.getElem?_eq_some_iff.mp here).1
        by_cases own : index / sectorSize = sector
        · -- flushed: the byte is now the visible one
          have inside : (image.visibleBounds sector).Contains index :=
            visibleBounds_contains.mpr ⟨own, length ▸ below⟩
          rw [copySpan_inside inside below (length ▸ below)] at here
          rw [copySpan_inside inside (inks.committed.length.symm ▸ below)
            (visible.length.symm ▸ length ▸ below)] at inkHere
          exact .inr (visible.each index _ _ here inkHere)
        · have outside : ¬ (image.visibleBounds sector).Contains index := fun inside =>
            own (visibleBounds_contains.mp inside).1
          rw [copySpan_outside outside] at here inkHere
          refine (inks.committed.each index _ _ here inkHere).imp_left fun listed => ⟨?_, listed.2⟩
          exact (List.mem_cons.mp listed.1).resolve_left own

theorem sync [Crc32c] (inks : Inks R image ink) {lies : Nat → Bool}
    (covers : ∀ index, image.committed.length ≤ index → index < image.visible.length →
      R index 0 0 ∨ (image.isFlushable (index / sectorSize) = true ∧
        lies (index / sectorSize) = false)) :
    Inks R (image.sync lies).1 (ink.sync lies).1 := by
  show Inks R (image.flushableSectors.foldl (syncSector lies) _)
    (ink.flushableSectors.foldl (syncSector lies) _)
  rw [inks.flushableSectors, inks.visible.length]
  refine syncSectors ⟨inks.dirty, inks.lied, inks.stranded, inks.visible.mono fun _ _ _ => .inr,
    ?_, fun sector offset below => .inr (inks.fill sector offset below)⟩ inks.visible inks.fill
    (by simp)
  refine (inks.committed.mono fun _ _ _ => .inr).resize fun index past below => ?_
  refine (covers index past below).symm.imp_left fun flushed => ⟨?_, flushed.2⟩
  refine List.mem_filter.mpr ⟨List.mem_range.mpr (lt_sectorCount.mpr ?_), flushed.1⟩
  have := Nat.div_mul_le_self index sectorSize
  omega

theorem corruptBytes [Crc32c] (inks : Inks R image ink) {bytes : Span}
    (flips : ∀ index cell stain, bytes.Contains index → R index cell stain →
      R index (cell ^^^ damageMask index) (stain ^^^ damageMask index)) :
    Inks R (image.corruptBytes bytes).1 (ink.corruptBytes bytes).1 := by
  have flipped : ∀ {cells stains : List UInt8} {offset : Nat}, bytes.Contains offset →
      CellsRel R cells stains → CellsRel R
        (overlay cells fun index =>
          if index = offset then cells[offset]?.map (· ^^^ damageMask offset) else none)
        (overlay stains fun index => if index = offset then
          stains[offset]?.map (· ^^^ damageMask offset) else none) := by
    intro cells stains offset inside rel
    refine rel.overlay (fun index _ => ?_) fun index cell stain here inkHere => ?_
    · split
      · simp [rel.length]
      · rfl
    · split at here
      next same =>
        rw [if_pos same] at inkHere
        obtain ⟨old, there, rfl⟩ := Option.map_eq_some_iff.mp here
        obtain ⟨oldStain, inkThere, rfl⟩ := Option.map_eq_some_iff.mp inkHere
        subst same
        exact flips index _ _ inside (rel.each index _ _ there inkThere)
      · cases here
  have bytewise : ∀ {offset : Nat}, bytes.Contains offset → ∀ {image ink : FileImage},
      Inks R image ink → Inks R (image.corruptByte offset) (ink.corruptByte offset) := by
    intro offset here image ink inks
    refine { inks with visible := ?_, committed := flipped here inks.committed }
    simp only [corruptByte, inks.visible.length, inks.dirty]
    split
    · exact flipped here inks.visible
    · exact inks.visible
  have restamped : ∀ (sectors : List Nat) {image ink : FileImage}, Inks R image ink →
      Inks R (sectors.foldl restamp image) (sectors.foldl restamp ink) := by
    intro sectors image ink inks
    refine inks.foldl fun sector _ image ink inks => ?_
    rw [restamp_eq image, restamp_eq ink]
    exact inks.congr rfl rfl
  unfold FileImage.corruptBytes
  rw [inks.committed.length]
  split
  · exact inks
  have damaged : Inks R ((List.range' bytes.start bytes.len).foldl corruptByte image)
      ((List.range' bytes.start bytes.len).foldl corruptByte ink) := by
    refine inks.foldl fun offset member => bytewise ?_
    rw [List.mem_range'_1] at member
    simp only [Span.Contains, Span.len] at *
    omega
  split
  · exact damaged
  · exact restamped _ damaged

/-! ### Crashes -/

section

variable (inks : Inks R image ink)

include inks

theorem settle (sector : Nat) :
    Inks R (image.settle sector) (ink.settle sector) :=
  { inks with
    dirty := congrArg (clear · sector) inks.dirty
    lied := congrArg (clear · sector) inks.lied }

theorem commitSector (sector : Nat) :
    Inks R (image.commitSector sector) (ink.commitSector sector) := by
  unfold FileImage.commitSector
  rw [inks.sharedBounds]
  exact (inks.withCommitted (inks.committed.copySpan inks.visible _)).settle sector

theorem landAll (sectors : List Nat) :
    Inks R (image.landAll sectors) (ink.landAll sectors) := by
  refine inks.foldl fun sector _ image ink inks => ?_
  rw [inks.stranded]
  split
  · exact inks
  · exact inks.commitSector sector

theorem adoptLength : Inks R image.adoptLength ink.adoptLength := by
  unfold FileImage.adoptLength
  rw [inks.visible.length]
  exact inks.withCommitted (inks.committed.resize fun index _ _ => inks.fillByte index)

theorem resolveLength (survives : Bool) :
    Inks R (image.resolveLength survives).1 (ink.resolveLength survives).1 := by
  unfold FileImage.resolveLength
  rw [inks.visible.length, inks.committed.length]
  split
  · exact inks
  split
  · exact inks.adoptLength
  have cut := inks.withVisible (inks.visible.take image.committed.length)
  unfold revertLength
  rw [inks.committed.length]
  dsimp only
  rw [cut.sectors]
  exact cut.resizeBitsets _

theorem converge : Inks R image.converge ink.converge := by
  have shown := inks.withVisible inks.committed
  have resized := shown.resizeBitsets { image with visible := image.committed }.sectors
  unfold FileImage.converge
  dsimp only
  rw [shown.sectors]
  exact { resized with
    dirty := congrArg clearAll resized.dirty
    lied := congrArg clearAll resized.lied
    stranded := congrArg clearAll resized.stranded }

theorem protectedPrefix (stamps : ink.oracle = image.oracle) (sector : Nat) :
    ink.protectedPrefix sector = image.protectedPrefix sector := by
  unfold FileImage.protectedPrefix
  rw [stamps, inks.lied]

theorem applyOutcome (stamps : ink.oracle = image.oracle)
    (draws : CrashDraws) (sector : Nat) (outcome : CrashOutcome) :
    Inks R (image.applyOutcome draws sector outcome).1 (ink.applyOutcome draws sector outcome).1 ∧
      (ink.applyOutcome draws sector outcome).1.oracle =
        (image.applyOutcome draws sector outcome).1.oracle := by
  have guarded := inks.protectedPrefix stamps sector
  cases outcome with
  | keptOld => exact ⟨inks.settle sector, stamps⟩
  | keptNew => exact ⟨inks.commitSector sector, stamps⟩
  | latentFault => exact ⟨(inks.commitSector sector).congr rfl rfl, stamps⟩
  | lost =>
    unfold FileImage.applyOutcome committedBounds
    rw [guarded, inks.committed.length]
    refine ⟨((inks.withCommitted (inks.committed.overlay (fun index _ => ?_)
      fun index cell stain here inkHere => ?_)).settle sector).congr rfl rfl, stamps⟩
    · split <;> simp
    · split at here
      next inside =>
        rw [if_pos inside] at inkHere
        cases here
        cases inkHere
        have within : (clampSector sector image.committed.length).Contains index :=
          ⟨by omega, inside.2⟩
        refine inks.fillAt (clampSector_contains.mp within).1 ?_
        simp only [clampSector] at within ⊢
        split at within
        · exact absurd within.2 (Nat.not_lt_zero _)
        · rw [if_neg ‹_›]
      · cases here
  | shorn =>
    unfold FileImage.applyOutcome
    rw [inks.sharedBounds]
    dsimp only
    split
    · exact ⟨inks.settle sector, stamps⟩
    · exact ⟨((inks.withCommitted (inks.committed.copySpan inks.visible _)).settle sector).congr
        rfl rfl, stamps⟩

end

end Inks

/-! ### Runs -/

def FileImage.killed (image : FileImage) : FileImage :=
  let image :=
    if image.visible.length = image.committed.length then image else image.adoptLength
  image.landAll image.dirtySectors

/-- The bytes an operation leaves, whatever the oracle says of them. -/
def act [Crc32c] (image : FileImage) : Op → FileImage
  | .write offset data => (image.write offset data).1
  | .setLen newLen => image.setLen newLen
  | .sync lies => (image.sync lies).1
  | .failWriteback revert => (image.failWriteback revert).1
  | .dropCache => image.dropCache.1
  | .corruptBytes bytes => (image.corruptBytes bytes).1
  | .corrupt sectors => image.corrupt sectors
  | .failWithEio sectors target => image.failWithEio sectors target
  | .crash draws _ => (image.crashed draws).converge
  | .keepCache _ => image.killed.converge

def Op.blot : Op → Op
  | .write offset data => .write offset (data.map fun _ => Inks.inked)
  | op => op

/-- What an operation must do for a relation between bytes and ink to stay. -/
def Op.Suits (R : Nat → UInt8 → UInt8 → Prop) (image : FileImage) : Op → Prop
  | .write offset data =>
    ∀ place byte, data[place]? = some byte → R (offset + place) byte Inks.inked
  | .sync lies => ∀ index, image.committed.length ≤ index → index < image.visible.length →
    R index 0 0 ∨ (image.isFlushable (index / sectorSize) = true ∧
      lies (index / sectorSize) = false)
  | .corruptBytes bytes => ∀ index cell stain, bytes.Contains index → R index cell stain →
    R index (cell ^^^ damageMask index) (stain ^^^ damageMask index)
  | _ => True

section Runs

variable [Crc32c] {R : Nat → UInt8 → UInt8 → Prop} {image ink next : FileImage} {op : Op}

theorem Inks.act (inks : Inks R image ink) (stamps : ink.oracle = image.oracle)
    (suits : op.Suits R image) : Inks R (act image op) (Sim.act ink op.blot) := by
  cases op with
  | write offset data => exact inks.write suits
  | setLen newLen => exact inks.setLen newLen
  | sync lies => exact inks.sync suits
  | failWriteback revert => exact inks.failWriteback revert
  | dropCache => exact inks.dropCache
  | corruptBytes bytes => exact inks.corruptBytes suits
  | corrupt _ | failWithEio _ _ =>
    exact { inks with }
  | crash draws armed =>
    refine Inks.converge ?_
    have resolved := inks.resolveLength draws.lengthSurvives
    have stampsLeft : (ink.resolveLength draws.lengthSurvives).1.oracle =
        (image.resolveLength draws.lengthSurvives).1.oracle := by
      unfold FileImage.resolveLength
      rw [inks.visible.length, inks.committed.length]
      split
      · exact stamps
      · split <;> exact stamps
    unfold crashed dirtySectors
    dsimp only
    rw [resolved.sectors, resolved.dirty]
    split
    · exact resolved.landAll _
    generalize (List.range _).filter _ = sectors
    have loop : ∀ {swept inkSwept : FileImage × List SectorResolution},
        Inks R swept.1 inkSwept.1 → inkSwept.1.oracle = swept.1.oracle →
        Inks R (sectors.foldl (crashSector draws) swept).1
          (sectors.foldl (crashSector draws) inkSwept).1 := by
      induction sectors with
      | nil => exact fun inks _ => inks
      | cons sector rest ih =>
        intro swept inkSwept inks stamps
        have chosen := inks.protectedPrefix stamps sector
        have applied := fun outcome => inks.applyOutcome stamps draws sector outcome
        refine ih ?_ ?_ <;>
          simp only [crashSector, chosen, inks.lied]
        · exact (applied _).1
        · exact (applied _).2
    exact loop resolved stampsLeft
  | keepCache armed =>
    refine Inks.converge ?_
    have adopted : Inks R
        (if image.visible.length = image.committed.length then image else image.adoptLength)
        (if image.visible.length = image.committed.length then ink else ink.adoptLength) := by
      split
      · exact inks
      · exact inks.adoptLength
    unfold FileImage.killed dirtySectors
    rw [inks.visible.length, inks.committed.length]
    dsimp only
    rw [adopted.sectors, adopted.dirty]
    exact adopted.landAll _

/-- A step does what its operation does to the bytes; stamps and marks are left to the sweep. -/
theorem step_act (done : step image op = .ok next) :
    next = { act image op with
      oracle := next.oracle, faults := next.faults, damaged := next.damaged } := by
  cases op with
  | crash draws armed =>
    obtain ⟨pair, crashed, rfl⟩ := ok_of_map done
    obtain ⟨lied, report, rebooted⟩ := crash_reboots crashed
    obtain ⟨gone, lost, same, _⟩ := reboot_ok rebooted
    rw [same]
    rfl
  | keepCache armed =>
    obtain ⟨pair, kept, rfl⟩ := ok_of_map done
    obtain ⟨gone, lost, same, _⟩ := reboot_ok kept
    rw [same]
    rfl
  | _ => cases done; rfl

variable {fill : FillPattern} {allowed : FileImage → Op → Prop} {ops : List Op}

/-- A run from a new file, its operations latest first, and the ink it leaves. -/
inductive Traced (fill : FillPattern) (allowed : FileImage → Op → Prop) :
    List Op → FileImage → FileImage → Prop where
  | new (size : Nat) :
      Traced fill allowed [] (new size fill) (new size fun _ _ => 0)
  | step {ops : List Op} {image ink next : FileImage} {op : Op} :
      Traced fill allowed ops image ink → allowed image op → step image op = .ok next →
      Traced fill allowed (op :: ops) next { act ink op.blot with oracle := next.oracle }

theorem Traced.inks (traced : Traced fill allowed ops image ink)
    (starts : ∀ index, R index (fillByte fill index) 0)
    (suits : ∀ image, ∀ op ∈ ops, allowed image op → op.Suits R image) :
    Inks R image ink ∧ ink.oracle = image.oracle := by
  induction traced with
  | new size =>
    have empty : ∀ none : SectorBitSet, Inks R
        ⟨[], [], none, none, none, none, none, none, none, ∅, fill⟩
        ⟨[], [], none, none, none, none, none, none, none, ∅, fun _ _ => 0⟩ := by
      intro none
      refine ⟨rfl, rfl, rfl, ⟨rfl, fun _ _ _ here _ => by cases here⟩,
        ⟨rfl, fun _ _ _ here _ => by cases here⟩, fun sector offset below => ?_⟩
      have here := starts (sector * sectorSize + offset)
      unfold fillByte at here
      simp only [sectorSize] at here below ⊢
      rwa [show (sector * 512 + offset) / 512 = sector by omega,
        show (sector * 512 + offset) % 512 = offset by omega] at here
    have sized := (empty (.new 0)).resizeVisible size
    refine ⟨{ sized with
      dirty := congrArg clearAll sized.dirty, committed := sized.visible }, ?_⟩
    change (FileImage.resizeVisible _ size).oracle = (FileImage.resizeVisible _ size).oracle
    rw [resizeVisible_oracle, resizeVisible_oracle]
  | step traced allows done ih =>
    obtain ⟨inks, stamps⟩ :=
      ih fun image op earlier => suits image op (List.mem_cons_of_mem _ earlier)
    have acted := inks.act stamps (suits _ _ List.mem_cons_self allows)
    exact ⟨acted.congr (step_act done) rfl, rfl⟩

/-- The operation neither writes nor damages the byte at `index`. -/
def Op.Spares (index : Nat) : Op → Prop
  | .write offset data => ¬ (offset ≤ index ∧ index < offset + data.length)
  | .corruptBytes bytes => ¬ bytes.Contains index
  | _ => True

/-- A sync extends the durable image only where it flushes honestly, or where the fill is
zero. -/
def Op.Extends (fill : FillPattern) (image : FileImage) : Op → Prop
  | .sync lies => ∀ index, image.committed.length ≤ index → index < image.visible.length →
    fillByte fill index = 0 ∨ (image.isFlushable (index / sectorSize) = true ∧
      lies (index / sectorSize) = false)
  | _ => True

/-- No write of the run lies at the byte: the ink shows none, or none covered it. -/
def Unwritten (ops : List Op) (ink : List UInt8) (index : Nat) : Prop :=
  ink[index]? = some 0 ∨ ∀ op ∈ ops, op.Spares index

/-- Ink that vouches for a byte: no ink lies on the fill, and one flip's ink on its flip. -/
def Vouches (fill : FillPattern) (index : Nat) (cell ink : UInt8) : Prop :=
  (ink = 0 → cell = fillByte fill index) ∧
    (ink = damageMask index → cell = fillByte fill index ^^^ damageMask index)

omit [Crc32c] in
theorem Op.Extends.suits (honest : op.Extends fill image) : op.Suits (Vouches fill) image := by
  cases op with
  | write offset data =>
    intro place byte _
    refine ⟨fun zero => absurd zero (by decide), fun flipped => ?_⟩
    have low := congrArg (·.toBitVec.getLsbD 0) flipped
    simp [damageMask, Inks.inked] at low
  | sync lies =>
    intro index past below
    refine (honest index past below).imp_left fun zero => ⟨fun _ => zero.symm, fun none => ?_⟩
    rw [zero, ← none]
    rfl
  | corruptBytes bytes =>
    intro index cell ink _ vouches
    refine ⟨fun none => ?_, fun flipped => ?_⟩
    · rw [vouches.2 (UInt8.xor_eq_zero_iff.mp none), UInt8.xor_assoc, UInt8.xor_self,
        UInt8.xor_zero]
    · have none := congrArg (· ^^^ damageMask index) flipped
      rw [vouches.1 (by simpa [UInt8.xor_assoc] using none)]
  | _ => trivial

omit [Crc32c] in
theorem Op.Spares.suits {index : Nat} (spares : op.Spares index) :
    op.Suits (fun place _ ink => place = index → ink = 0) image := by
  cases op with
  | write offset data =>
    rintro place byte here rfl
    exact absurd ⟨Nat.le_add_right _ _, Nat.add_lt_add_left
      (List.getElem?_eq_some_iff.mp here).1 _⟩ spares
  | sync lies => exact fun _ _ _ => .inl fun _ => rfl
  | corruptBytes bytes =>
    rintro place cell ink inside _ rfl
    exact absurd inside spares
  | _ => trivial

/-- A byte no write lies at reads the fill pattern, in every run whose syncs extend the durable
image only where they flush honestly or the fill is zero. -/
theorem Traced.reads_fill {index : Nat} {byte : UInt8}
    (traced : Traced fill (Op.Extends fill) ops image ink)
    (reads : (image.visible[index]? = some byte ∧ Unwritten ops ink.visible index) ∨
      (image.committed[index]? = some byte ∧ Unwritten ops ink.committed index)) :
    byte = fillByte fill index := by
  have inks := (traced.inks (R := Vouches fill)
    (fun _ => ⟨fun _ => rfl, fun none => by rw [← none]; simp⟩)
    fun _ _ _ honest => honest.suits).1
  have clean : ∀ {cells stains : List UInt8}, CellsRel (Vouches fill) cells stains →
      ((∀ op ∈ ops, op.Spares index) →
        CellsRel (fun place _ stain => place = index → stain = 0) cells stains) →
      cells[index]? = some byte → Unwritten ops stains index → byte = fillByte fill index := by
    intro cells stains rel spared here unwritten
    have below := (List.getElem?_eq_some_iff.mp here).1
    rw [← rel.length] at below
    have stain := List.getElem?_eq_getElem below
    refine (rel.each index _ _ here stain).1 ?_
    rcases unwritten with none | spares
    · rw [none] at stain
      exact (Option.some.inj stain).symm
    · exact (spared spares).each index _ _ here stain rfl
  have spared := fun spares : ∀ op ∈ ops, op.Spares index =>
    (traced.inks (R := fun place _ stain => place = index → stain = 0) (fun _ _ => rfl)
      fun _ op mem _ => (spares op mem).suits).1
  rcases reads with ⟨here, unwritten⟩ | ⟨here, unwritten⟩
  · exact clean inks.visible (fun spares => (spared spares).visible) here unwritten
  · exact clean inks.committed (fun spares => (spared spares).committed) here unwritten

end Runs

def sevens : FillPattern := fun _ _ => 7

/-- A written byte whose writeback fails and reverts reads the fill again. -/
theorem reverted_write_reads_fill :
    letI := sumCrc
    (((FileImage.new 4 sevens).write 1 [9]).1.failWriteback true).1.visible.getD 1 0 =
      fillByte sevens 1 := by
  let _ := sumCrc
  have written : Traced sevens (Op.Extends sevens) _ _ _ :=
    .step (.new 4) (show Op.Extends _ _ (.write 1 [9]) from trivial) rfl
  have reverted : Traced sevens (Op.Extends sevens) _ _ _ :=
    .step written (show Op.Extends _ _ (.failWriteback true) from trivial) rfl
  refine reverted.reads_fill (.inl ⟨?_, .inl ?_⟩)
  · decide +kernel
  · decide +kernel

/-- A write past the end of an empty file is stranded, and a sync: the durable image holds a zero no
write covered. -/
theorem sync_invents_zero :
    letI := sumCrc
    ∃ ops image ink, Traced sevens (fun _ _ => True) ops image ink ∧
      (∀ op ∈ ops, op.Spares 0) ∧ image.visible[0]? = some (fillByte sevens 0) ∧
      image.committed[0]? = some 0 ∧ fillByte sevens 0 ≠ 0 := by
  let _ := sumCrc
  refine ⟨_, _, _, .step (.step (.step (.new 0) trivial (rfl : step _ (.write 1 [9]) = _))
    trivial (rfl : step _ (.failWriteback false) = _)) trivial
    (rfl : step _ (.sync fun _ => false) = _), ?_, by decide +kernel, by decide +kernel,
    by decide⟩
  simp [Op.Spares]

end Moonpool.Sim
