import Moonpool.Sim.Agree

/-!
Owns that the durability oracle is never wrong: with syncs that do not lie, no crash ever
finds a stamped sector changed, and every stamped byte after a crash is the one the last
sync or the last planted damage left there.

One operation breaks it: planting damage in the stamped bytes of a dirty sector changes the
durable bytes without their stamp.
-/

namespace Moonpool.Sim

open Lib SectorBitSet FileImage List

def Within (sector len index : Nat) : Prop :=
  sector * sectorSize ≤ index ∧ index < sector * sectorSize + len

variable {index : Nat}

theorem Within.sector_eq {sector len : Nat} (within : Within sector len index)
    (short : len ≤ sectorSize) : index / sectorSize = sector := by
  obtain ⟨low, high⟩ := within
  simp only [sectorSize] at *
  omega

theorem Within.mono {sector shorter len : Nat} (within : Within sector shorter index)
    (narrower : shorter ≤ len) : Within sector len index :=
  ⟨within.1, lt_of_lt_of_le within.2 (Nat.add_le_add_left narrower _)⟩

theorem slice_congr {first second : List UInt8} {start len : Nat}
    (same : ∀ index, start ≤ index → index < start + len → first[index]? = second[index]?) :
    slice first ⟨start, start + len⟩ = slice second ⟨start, start + len⟩ := by
  apply ext_getElem?
  intro offset
  simp only [slice, getElem?_drop, getElem?_take]
  split
  next below => exact same _ (Nat.le_add_right _ _) below
  next past => rfl

theorem slice_of_empty (bytes : List UInt8) {span : Span} (empty : span.stop ≤ span.start) :
    slice bytes span = [] := by
  apply drop_eq_nil_of_le
  rw [length_take]
  omega

theorem clampSector_within {sector limit : Nat} :
    Within sector (clampSector sector limit).len index ↔
      (clampSector sector limit).Contains index := by
  simp only [Within, clampSector, Span.len, Span.Contains]
  split <;> simp only [sectorSize] at * <;> omega

theorem clampSector_len_le (sector limit : Nat) : (clampSector sector limit).len ≤ sectorSize := by
  simp only [clampSector, Span.len]
  split
  next past => exact Nat.zero_le _
  next inside =>
    simp only
    omega

theorem slice_clampSector (bytes : List UInt8) (sector limit : Nat) :
    slice bytes (clampSector sector limit) = slice bytes
      ⟨sector * sectorSize, sector * sectorSize + (clampSector sector limit).len⟩ := by
  simp only [clampSector, Span.len]
  split
  next past => simp [slice]
  next inside =>
    simp only
    congr 2
    omega

namespace FileImage

/-- The first `len` bytes of a sector are in both images, the same in both. -/
structure Rests (image : FileImage) (sector len : Nat) : Prop where
  short : len ≤ sectorSize
  durable : ∀ index, Within sector len index → index < image.committed.length
  same : ∀ index, Within sector len index → image.visible[index]? = image.committed[index]?

theorem Rests.start_eq {image : FileImage} {sector len index : Nat}
    (rests : image.Rests sector len) (within : Within sector len index) :
    (image.committedBounds sector).start = sector * sectorSize := by
  have durable := rests.durable index within
  have low := within.1
  rw [committedBounds, clampSector, if_neg (by omega)]

theorem Rests.stampedSpan {image : FileImage} {sector len : Nat}
    (rests : image.Rests sector len) :
    let range := image.committedBounds sector
    let stamped : Span := ⟨range.start, min (range.start + len) range.stop⟩
    stamped.len = len ∧ slice image.committed stamped =
      slice image.committed ⟨sector * sectorSize, sector * sectorSize + len⟩ := by
  simp only [committedBounds, clampSector]
  have short := rests.short
  rcases Nat.eq_zero_or_pos len with rfl | positive
  · have empty (start stop : Nat) (none : stop ≤ start) :
        slice image.committed ⟨start, stop⟩ = [] := slice_of_empty _ none
    rw [empty, empty]
    · refine ⟨?_, rfl⟩
      simp only [Span.len]
      omega
    · omega
    · omega
  · have last := rests.durable (sector * sectorSize + (len - 1)) ⟨by omega, by omega⟩
    rw [if_neg (by omega)]
    have whole : min (sector * sectorSize + len)
        (min (sector * sectorSize + sectorSize) image.committed.length) =
          sector * sectorSize + len := by omega
    simp only [whole, Span.len]
    constructor
    · omega
    · trivial

/-- The stamp of a sector is right: its bytes rest, and the checksum is theirs. -/
structure Stamped [Crc32c] (image : FileImage) (sector : Nat) (crc : UInt32) (len : Nat) : Prop
    extends Rests image sector len where
  crc_eq : Crc32c.crc32c (slice image.committed
    ⟨sector * sectorSize, sector * sectorSize + len⟩) = crc

structure Sound [Crc32c] (image : FileImage) : Prop where
  unlied : ∀ sector, image.lied.isSet sector = false
  stamps : ∀ sector crc len, image.oracle[sector]? = some (crc, len) →
    image.Stamped sector crc len

def Kept (image : FileImage) (left : Nat → UInt8) : Prop :=
  ∀ sector crc len, image.oracle[sector]? = some (crc, len) →
    ∀ index, Within sector len index → image.committed[index]? = some (left index)

variable [Crc32c] {image next : FileImage} {sector : Nat} {crc : UInt32} {len : Nat}

section

variable (stamped : image.Stamped sector crc len)

include stamped

theorem Stamped.visible_lt {index : Nat}
    (within : Within sector len index) : index < image.visible.length := by
  have durable := stamped.durable index within
  have same := stamped.same index within
  rw [getElem?_eq_getElem durable] at same
  exact (List.getElem?_eq_some_iff.mp same).1

theorem Stamped.transfer (stays : ∀ index, Within sector len index →
      next.committed[index]? = image.committed[index]? ∧
        next.visible[index]? = image.committed[index]?) :
    next.Stamped sector crc len where
  short := stamped.short
  durable index within := by
    have durable := stamped.durable index within
    have same := (stays index within).1
    rw [getElem?_eq_getElem durable] at same
    exact (List.getElem?_eq_some_iff.mp same).1
  same index within := (stays index within).2.trans (stays index within).1.symm
  crc_eq := by
    rw [← stamped.crc_eq]
    apply congrArg
    apply slice_congr
    intro index low high
    exact (stays index ⟨low, high⟩).1

theorem Stamped.of_bytes (committed : next.committed = image.committed)
    (visible : next.visible = image.visible) : next.Stamped sector crc len :=
  stamped.transfer fun index within => ⟨by rw [committed], visible ▸ stamped.same index within⟩

theorem Stamped.narrow {shorter : Nat}
    (narrower : shorter ≤ len) (committed : next.committed = image.committed)
    (stays : ∀ index, Within sector shorter index → next.visible[index]? = image.visible[index]?) :
    next.Stamped sector (Crc32c.crc32c (slice next.visible
      ⟨sector * sectorSize, sector * sectorSize + shorter⟩)) shorter := by
  have same (index : Nat) (within : Within sector shorter index) :
      next.visible[index]? = next.committed[index]? := by
    rw [stays index within, committed, stamped.same index (within.mono narrower)]
  refine ⟨⟨le_trans narrower stamped.short, ?_, same⟩, ?_⟩
  · intro index within
    rw [committed]
    exact stamped.durable index (within.mono narrower)
  · apply congrArg
    apply slice_congr
    intro index low high
    exact (same index ⟨low, high⟩).symm

end

/-- The stamps are right and their bytes are those in `left`. -/
structure Trusted [Crc32c] (image : FileImage) (left : Nat → UInt8) : Prop
    extends Sound image where
  kept : image.Kept left

theorem Trusted.transfer {left : Nat → UInt8} (trusted : image.Trusted left)
    (unlied : ∀ sector, next.lied.isSet sector = false)
    (stamps : ∀ (sector : Nat) (stamp : UInt32 × Nat), next.oracle[sector]? = some stamp →
      image.oracle[sector]? = some stamp)
    (stays : ∀ sector crc len, next.oracle[sector]? = some (crc, len) →
      ∀ index, Within sector len index →
        next.committed[index]? = image.committed[index]? ∧
          next.visible[index]? = image.committed[index]?) : next.Trusted left where
  unlied := unlied
  stamps sector crc len found :=
    (trusted.stamps sector crc len (stamps sector _ found)).transfer (stays sector crc len found)
  kept sector crc len found index within := by
    rw [(stays sector crc len found index within).1]
    exact trusted.kept sector crc len (stamps sector _ found) index within

/-! ### Lengths and writes -/

section Ops

variable {left : Nat → UInt8}

theorem trusted_new (size : Nat) (fill : FillPattern) : (new size fill).Trusted left := by
  have bare {sector : Nat} {stamp : UInt32 × Nat} :
      (new size fill).oracle[sector]? ≠ some stamp := by
    change (resizeVisible _ size).oracle[sector]? ≠ _
    simp [resizeVisible_oracle]
  refine ⟨⟨fun sector => ?_, fun _ _ _ found => absurd found bare⟩,
    fun _ _ _ found => absurd found bare⟩
  change (resizeVisible _ size).lied.isSet sector = false
  rw [resizeVisible_lied, isSet_resized, isSet_new, Bool.and_false]

theorem trusted_resizeVisible (trusted : image.Trusted left) (newLen : Nat) (gone : List Nat)
    (inside : ∀ sector crc len, image.oracle[sector]? = some (crc, len) → sector ∉ gone →
      ∀ index, Within sector len index → index < newLen) :
    ((image.resizeVisible newLen).unstamp gone).Trusted left := by
  have found {sector : Nat} {stamp : UInt32 × Nat}
      (there : ((image.resizeVisible newLen).unstamp gone).oracle[sector]? = some stamp) :
      sector ∉ gone ∧ image.oracle[sector]? = some stamp := by
    have before := stamp_of_unstamp there
    rwa [resizeVisible_oracle] at before
  apply trusted.transfer
  · intro sector
    change (image.resizeVisible newLen).lied.isSet sector = false
    rw [resizeVisible_lied, isSet_resized, trusted.unlied, Bool.and_false]
  · intro sector stamp there
    exact (found there).2
  · intro sector crc len there index within
    obtain ⟨stays, before⟩ := found there
    have stamped := trusted.stamps sector crc len before
    change (image.resizeVisible newLen).committed[index]? = _ ∧
      (image.resizeVisible newLen).visible[index]? = _
    rw [resizeVisible_committed, resizeVisible_visible,
      resize_getElem?_old _ (inside sector crc len before stays index within)
        (stamped.visible_lt within)]
    exact ⟨rfl, stamped.same index within⟩

variable {newLen : Nat} {lies : Nat → Bool}

theorem trusted_grow (trusted : image.Trusted left)
    (longer : image.visible.length ≤ newLen) : (image.resizeVisible newLen).Trusted left := by
  apply trusted_resizeVisible trusted newLen []
  intro sector crc len found _ index within
  exact lt_of_lt_of_le ((trusted.stamps sector crc len found).visible_lt within) longer

theorem trusted_foldl_writeSector {sectors : List Nat} (trusted : image.Trusted left)
    {changed : List UInt8}
    (outside : ∀ index, index / sectorSize ∉ sectors → changed[index]? = image.visible[index]?) :
    (sectors.foldl writeSector { image with visible := changed }).Trusted left := by
  rw [foldl_writeSector]
  apply trusted.transfer
  · intro sector
    apply Bool.eq_false_iff.mpr
    intro marked
    have before : image.lied.isSet sector = true :=
      (isSet_of_isSet_foldl_clear marked).2
    rw [trusted.unlied] at before
    cases before
  · intro sector stamp found
    exact (stamp_of_unstamp found).2
  · intro sector crc len found index within
    obtain ⟨untouched, before⟩ := stamp_of_unstamp found
    have stamped := trusted.stamps sector crc len before
    have elsewhere : index / sectorSize ∉ sectors := by
      rwa [within.sector_eq stamped.short]
    exact ⟨rfl, (outside index elsewhere).trans (stamped.same index within)⟩

theorem trusted_write (trusted : image.Trusted left) (offset : Nat) (data : List UInt8) :
    (image.write offset data).1.Trusted left := by
  have grown : (if image.visible.length < offset + data.length then
      image.resizeVisible (offset + data.length) else image).Trusted left := by
    split
    next short => exact trusted_grow trusted (le_of_lt short)
    next => exact trusted
  exact trusted_foldl_writeSector grown fun _ => written_elsewhere

theorem trusted_stamp (others : (image.unstamp [sector]).Trusted left)
    (stamped : image.Stamped sector crc len)
    (kept : ∀ index, Within sector len index → image.committed[index]? = some (left index)) :
    { image with oracle := image.oracle.insert sector (crc, len) }.Trusted left := by
  have before {other : Nat} (differs : other ≠ sector) :
      (image.unstamp [sector]).oracle[other]? = image.oracle[other]? :=
    unstamp_of_not_mem (by rwa [mem_singleton])
  refine ⟨⟨others.unlied, ?_⟩, ?_⟩
  · intro other crc' len' there
    rcases stamp_of_insert there with ⟨rfl, same⟩ | ⟨differs, found⟩
    · cases same
      exact stamped.of_bytes rfl rfl
    · exact (others.stamps other crc' len' ((before differs).trans found)).of_bytes rfl rfl
  · intro other crc' len' there index within
    rcases stamp_of_insert there with ⟨rfl, same⟩ | ⟨differs, found⟩
    · cases same
      exact kept index within
    · exact others.kept other crc' len' ((before differs).trans found) index within

def pastEnd (image : FileImage) (newLen : Nat) : List Nat :=
  range' (image.resizeVisible newLen).sectors
    (image.sectors - (image.resizeVisible newLen).sectors)

theorem within_resized (stamped : image.Stamped sector crc len) {index : Nat}
    (exists_ : sector ∉ image.pastEnd newLen)
    (whole : sector = newLen / sectorSize → len ≤ newLen - newLen / sectorSize * sectorSize)
    (within : Within sector len index) : index < newLen := by
  have below : sector < image.sectors := by
    rw [← within.sector_eq stamped.short]
    exact sector_inside (stamped.visible_lt within)
  have there : sector < sectorCount newLen := by
    apply Nat.lt_of_not_le
    intro past
    apply exists_
    have resized : (image.resizeVisible newLen).sectors = sectorCount newLen := by
      rw [sectors, resizeVisible_visible, resize_length]
    rw [pastEnd, resized, mem_range'_1]
    omega
  rw [lt_sectorCount] at there
  have short := stamped.short
  obtain ⟨low, high⟩ := within
  by_cases tail : sector = newLen / sectorSize
  · subst tail
    omega
  · simp only [sectorSize] at *
    omega

theorem trusted_cut (trusted : image.Trusted left) (gone : List Nat)
    (whole : ∀ crc len, newLen / sectorSize ∉ image.pastEnd newLen ++ gone →
      image.oracle[newLen / sectorSize]? = some (crc, len) →
      len ≤ newLen - newLen / sectorSize * sectorSize) :
    ((image.resizeVisible newLen).unstamp (image.pastEnd newLen ++ gone)).Trusted left := by
  apply trusted_resizeVisible trusted
  intro sector crc len found stays index within
  have apart : sector ∉ image.pastEnd newLen := fun member =>
    stays (mem_append_left _ member)
  apply within_resized (trusted.stamps sector crc len found) apart _ within
  rintro rfl
  exact whole crc len stays found

theorem trusted_setLen (trusted : image.Trusted left) (newLen : Nat) :
    (image.setLen newLen).Trusted left := by
  change (if newLen < image.visible.length then
    ((image.resizeVisible newLen).unstamp (image.pastEnd newLen)).narrowTailStamp newLen
    else (image.resizeVisible newLen).unstamp (image.pastEnd newLen)).Trusted left
  split
  next shorter =>
    generalize cut : (image.resizeVisible newLen).unstamp (image.pastEnd newLen) = resized
    -- Unless the stamp of the tail sector is narrowed, the cut leaves it whole.
    have uncut (whole : ∀ crc len, resized.oracle[newLen / sectorSize]? = some (crc, len) →
        len ≤ newLen - newLen / sectorSize * sectorSize) : resized.Trusted left := by
      rw [← cut, ← append_nil (image.pastEnd newLen)]
      apply trusted_cut trusted
      intro crc len stays found
      apply whole crc len
      rw [append_nil] at stays
      rw [← cut, unstamp_of_not_mem stays, resizeVisible_oracle, found]
    unfold narrowTailStamp
    simp only
    split
    next bare =>
      apply uncut
      intro crc len found
      rw [bare] at found
      cases found
    next tailCrc tailLen found =>
      split
      next fits =>
        apply uncut
        intro crc len there
        rw [found] at there
        cases there
        exact fits
      next longer =>
        have others : (resized.unstamp [newLen / sectorSize]).Trusted left := by
          rw [← cut, unstamp_unstamp]
          apply trusted_cut trusted
          intro crc len absent
          exact absurd (mem_append_right _ (mem_singleton.mpr rfl)) absent
        have before : image.oracle[newLen / sectorSize]? = some (tailCrc, tailLen) := by
          rw [← cut] at found
          have there := (stamp_of_unstamp found).2
          rwa [resizeVisible_oracle] at there
        have stamped := trusted.stamps _ _ _ before
        have narrower := Nat.le_of_lt (Nat.lt_of_not_le longer)
        have committed : resized.committed = image.committed := by
          rw [← cut]
          exact resizeVisible_committed image newLen
        apply trusted_stamp others
        · apply stamped.narrow narrower committed
          intro index within
          have below : index < newLen := by
            have := within.2
            have := Nat.div_mul_le_self newLen sectorSize
            omega
          have old := stamped.visible_lt (within.mono narrower)
          rw [← cut]
          change (image.resizeVisible newLen).visible[index]? = _
          rw [resizeVisible_visible, resize_getElem?_old _ below old]
        · intro index within
          rw [committed]
          exact trusted.kept _ _ _ before index (within.mono narrower)
  next longer =>
    apply trusted_resizeVisible trusted
    intro sector crc len found _ index within
    exact lt_of_lt_of_le ((trusted.stamps sector crc len found).visible_lt within)
      (Nat.le_of_not_lt longer)

/-! ### Syncs and the cache -/

def heldBy (image : FileImage) (left : Nat → UInt8) (index : Nat) : UInt8 :=
  image.committed[index]?.getD (left index)

theorem Sound.trusted (sound : image.Sound) (left : Nat → UInt8) :
    image.Trusted (image.heldBy left) := by
  refine ⟨sound, ?_⟩
  intro sector crc len found index within
  have durable := (sound.stamps sector crc len found).durable index within
  rw [heldBy, getElem?_eq_getElem durable, Option.getD_some]

theorem sound_syncSector (honest : lies sector = false)
    (sound : image.Sound) (covers : image.visible.length ≤ image.committed.length) :
    (image.syncSector lies sector).Sound := by
  unfold syncSector
  simp only [honest, Bool.false_eq_true, if_false]
  refine ⟨?_, ?_⟩
  · intro other
    exact isSet_clear_of_unset (sound.unlied other)
  · intro other crc len there
    rcases stamp_of_insert there with ⟨rfl, same⟩ | ⟨differs, found⟩
    · cases same
      have inside (index : Nat) (within : Within other (image.visibleBounds other).len index) :
          (copySpan image.committed image.visible (image.visibleBounds other))[index]? =
            image.visible[index]? := by
        have contains := clampSector_within.mp within
        have below := (visibleBounds_contains.mp contains).2
        exact copySpan_inside contains (lt_of_lt_of_le below covers) below
      refine ⟨⟨?_, ?_, ?_⟩, ?_⟩
      · exact clampSector_len_le _ _
      · intro index within
        have below := (visibleBounds_contains.mp (clampSector_within.mp within)).2
        simp only [copySpan_length]
        exact lt_of_lt_of_le below covers
      · intro index within
        exact (inside index within).symm
      · rw [visibleBounds, slice_clampSector image.visible]
        apply congrArg
        apply slice_congr
        intro index low high
        exact inside index ⟨low, high⟩
    · have stamped := sound.stamps other crc len found
      apply stamped.transfer
      intro index within
      have outside : ¬ (image.visibleBounds sector).Contains index := by
        rw [visibleBounds_contains, within.sector_eq stamped.short]
        exact fun contains => differs contains.1
      exact ⟨copySpan_outside outside, stamped.same index within⟩

theorem sound_foldl_syncSector (honest : ∀ sector, lies sector = false)
    (sectors : List Nat) (sound : image.Sound)
    (covers : image.visible.length ≤ image.committed.length) :
    (sectors.foldl (syncSector lies) image).Sound := by
  induction sectors generalizing image with
  | nil => exact sound
  | cons head rest ih =>
    apply ih (sound_syncSector (honest head) sound covers)
    simp only [syncSector, honest, Bool.false_eq_true, if_false, copySpan_length]
    exact covers

theorem sound_sync (sound : image.Sound)
    (honest : ∀ sector, lies sector = false) : (image.sync lies).1.Sound := by
  apply sound_foldl_syncSector honest
  · refine ⟨sound.unlied, ?_⟩
    intro sector crc len found
    have stamped := sound.stamps sector crc len found
    apply stamped.transfer
    intro index within
    exact ⟨resize_getElem?_old _ (stamped.visible_lt within) (stamped.durable index within),
      stamped.same index within⟩
  · simp only [resize_length]
    exact le_refl _

section

variable (trusted : image.Trusted left)

include trusted

theorem trusted_of_bytes (oracle : next.oracle = image.oracle)
    (unlied : ∀ sector, next.lied.isSet sector = false)
    (stays : ∀ sector crc len, image.oracle[sector]? = some (crc, len) →
      image.Stamped sector crc len → ∀ index, Within sector len index →
      next.committed[index]? = image.committed[index]? ∧
        next.visible[index]? = image.committed[index]?) : next.Trusted left := by
  apply trusted.transfer unlied
  · rw [oracle]
    intro sector stamp found
    exact found
  · rw [oracle]
    intro sector crc len found
    exact stays sector crc len found (trusted.stamps sector crc len found)

theorem trusted_of_same (oracle : next.oracle = image.oracle)
    (unlied : ∀ sector, next.lied.isSet sector = false)
    (committed : next.committed = image.committed) (visible : next.visible = image.visible) :
    next.Trusted left :=
  trusted_of_bytes trusted oracle unlied fun _ _ _ _ stamped index within =>
    ⟨by rw [committed], visible ▸ stamped.same index within⟩

theorem trusted_failSector (revert : Bool) (sector : Nat) :
    (image.failSector revert sector).Trusted left := by
  unfold failSector
  simp only
  split
  · refine trusted_of_bytes trusted rfl trusted.unlied ?_
    intro other crc len _ stamped index within
    have same := stamped.same index within
    exact ⟨rfl, (copySpan_of_same same.symm).trans same⟩
  · exact trusted_of_same trusted rfl trusted.unlied rfl rfl

theorem trusted_dropSector (sector : Nat) :
    (image.dropSector sector).Trusted left := by
  unfold dropSector
  refine trusted_of_bytes trusted rfl trusted.unlied ?_
  intro other crc len _ stamped index within
  refine ⟨rfl, ?_⟩
  have below := stamped.visible_lt within
  have durable := stamped.durable index within
  by_cases inside : (image.visibleBounds sector).Contains index
  · have shared : (image.sharedBounds sector).Contains index :=
      sharedBounds_contains.mpr ⟨(visibleBounds_contains.mp inside).1, below, durable⟩
    rw [getElem?_eq_getElem durable]
    apply overlay_of_some _ below
    rw [if_pos inside, if_pos shared, getElem?_eq_getElem durable]
  · rw [overlay_of_none (by rw [if_neg inside])]
    exact stamped.same index within

theorem trusted_dropCache : image.dropCache.1.Trusted left :=
  foldlRecOn (motive := fun image => Trusted image left) _ _ trusted
    fun _ trusted sector _ => trusted_dropSector trusted sector

end

/-! ### Damage -/

/-- Sectors being restamped: every stamp has its length in `old`, and is right or waits. -/
structure Restamping (old : FileImage) (waiting : List Nat) (image : FileImage) : Prop where
  committed : image.committed = old.committed
  visible : image.visible = old.visible
  dirty : image.dirty = old.dirty
  lied : image.lied = old.lied
  stamps : ∀ sector crc len, image.oracle[sector]? = some (crc, len) →
    (∃ crc', old.oracle[sector]? = some (crc', len)) ∧
      (image.Stamped sector crc len ∨ (sector ∈ waiting ∧ image.dirty.isSet sector = false))

theorem restamping_restamp {old : FileImage} {waiting : List Nat}
    (rests : ∀ sector crc len, old.oracle[sector]? = some (crc, len) → old.Rests sector len)
    (restamping : Restamping old (sector :: waiting) image) :
    Restamping old waiting (image.restamp sector) := by
  have others (other : Nat) (crc : UInt32) (len : Nat) (differs : other ≠ sector)
      (found : image.oracle[other]? = some (crc, len)) := by
    have ⟨before, right⟩ := restamping.stamps other crc len found
    exact (⟨before, right.imp_right fun waits =>
      ⟨(mem_cons.mp waits.1).resolve_left differs, waits.2⟩⟩ :
      (∃ crc', old.oracle[other]? = some (crc', len)) ∧ (image.Stamped other crc len ∨
        (other ∈ waiting ∧ image.dirty.isSet other = false)))
  unfold restamp
  split
  next dirty =>
    refine { restamping with stamps := ?_ }
    intro other crc len found
    by_cases same : other = sector
    · subst same
      obtain ⟨before, right⟩ := restamping.stamps other crc len found
      refine ⟨before, .inl (right.resolve_right fun waits => ?_)⟩
      rw [dirty] at waits
      cases waits.2
    · exact others other crc len same found
  next clean =>
    split
    next bare =>
      refine { restamping with stamps := ?_ }
      intro other crc len found
      apply others other crc len _ found
      rintro rfl
      rw [bare] at found
      cases found
    next oldCrc oldLen found =>
      obtain ⟨⟨firstCrc, before⟩, -⟩ := restamping.stamps sector oldCrc oldLen found
      have resting : image.Rests sector oldLen := by
        have rested := rests sector firstCrc oldLen before
        refine ⟨rested.short, ?_, ?_⟩
        · rw [restamping.committed]
          exact rested.durable
        · rw [restamping.committed, restamping.visible]
          exact rested.same
      obtain ⟨length, bytes⟩ := resting.stampedSpan
      refine ⟨restamping.committed, restamping.visible, restamping.dirty, restamping.lied, ?_⟩
      intro other crc len there
      rcases stamp_of_insert there with ⟨rfl, same⟩ | ⟨differs, found⟩
      · cases same
        rw [length, bytes]
        exact ⟨⟨firstCrc, before⟩, .inl ⟨⟨resting.short, resting.durable, resting.same⟩, rfl⟩⟩
      · obtain ⟨before, right⟩ := others other crc len differs found
        exact ⟨before, right.imp_left fun right => right.of_bytes rfl rfl⟩

theorem restamping_foldl {old : FileImage}
    (rests : ∀ sector crc len, old.oracle[sector]? = some (crc, len) → old.Rests sector len)
    (sectors : List Nat) (restamping : Restamping old sectors image) :
    Restamping old [] (sectors.foldl restamp image) := by
  induction sectors generalizing image with
  | nil => exact restamping
  | cons head rest ih =>
    exact ih (restamping_restamp rests restamping)

def CleanDamage (image : FileImage) (bytes : Span) : Prop :=
  ∀ sector crc len, image.oracle[sector]? = some (crc, len) → image.dirty.isSet sector = true →
    ∀ index, Within sector len index → ¬ bytes.Contains index

/-- What planted damage leaves: its own bytes where it was made. -/
def leftByDamage (image : FileImage) (bytes : Span) (left : Nat → UInt8) (index : Nat) : UInt8 :=
  if (image.corruptBytes bytes).2 ∧ bytes.Contains index then
    (image.corruptBytes bytes).1.heldBy left index
  else left index

theorem damaged_stamps (sound : image.Sound) {bytes : Span} (clean : image.CleanDamage bytes)
    (damages : Damages bytes image next) (found : next.oracle[sector]? = some (crc, len)) :
    next.Rests sector len ∧ (next.Stamped sector crc len ∨
      (∃ index, bytes.Contains index ∧ index / sectorSize = sector) ∧
        next.dirty.isSet sector = false) := by
  rw [damages.oracle] at found
  have stamped := sound.stamps sector crc len found
  -- A stamp none of whose bytes is damaged stays right.
  have spared (outside : ∀ index, Within sector len index → ¬ bytes.Contains index) :
      next.Stamped sector crc len := by
    apply stamped.transfer
    intro index within
    have stays := damages.outside index (outside index within)
    exact ⟨stays.1, stays.2.trans (stamped.same index within)⟩
  cases dirty : image.dirty.isSet sector with
  | true =>
    have right := spared (clean sector crc len found dirty)
    exact ⟨right.toRests, .inl right⟩
  | false =>
    refine ⟨⟨stamped.short, ?_, ?_⟩, ?_⟩
    · intro index within
      rw [damages.length]
      exact stamped.durable index within
    · intro index within
      apply damages.same index _ (stamped.same index within)
      rw [within.sector_eq stamped.short, dirty]
    · by_cases hit : ∃ index, bytes.Contains index ∧ index / sectorSize = sector
      · rw [damages.dirty]
        exact .inr ⟨hit, dirty⟩
      · apply Or.inl
        apply spared
        intro index within contains
        exact hit ⟨index, contains, within.sector_eq stamped.short⟩

section

variable (trusted : image.Trusted left)

include trusted

theorem trusted_restamped {damaged : FileImage} {bytes : Span}
    (damages : Damages bytes image damaged) (restamped : Restamping damaged [] next) :
    next.Trusted fun index => if bytes.Contains index then next.heldBy left index
      else left index := by
  have right {sector : Nat} {crc : UInt32} {len : Nat}
      (found : next.oracle[sector]? = some (crc, len)) : next.Stamped sector crc len :=
    (restamped.stamps sector crc len found).2.resolve_right fun waits =>
      not_mem_nil waits.1
  refine ⟨⟨?_, ?_⟩, ?_⟩
  · rw [restamped.lied, damages.lied]
    exact trusted.unlied
  · intro sector crc len found
    exact right found
  · intro sector crc len found index within
    simp only
    split
    next hit =>
      rw [heldBy, getElem?_eq_getElem ((right found).durable index within), Option.getD_some]
    next missed =>
      obtain ⟨before, there⟩ := (restamped.stamps sector crc len found).1
      rw [damages.oracle] at there
      rw [restamped.committed, (damages.outside index missed).1]
      exact trusted.kept sector before len there index within

/-- Damage that spares the stamped bytes of dirty sectors leaves every stamp right. -/
theorem trusted_corruptBytes {bytes : Span}
    (clean : image.CleanDamage bytes) :
    (image.corruptBytes bytes).1.Trusted (image.leftByDamage bytes left) := by
  have damages := damages_foldl image bytes
  generalize flipped : (range' bytes.start bytes.len).foldl corruptByte image = damaged
    at damages
  have stamps {sector : Nat} {crc : UInt32} {len : Nat} :=
    @damaged_stamps _ image damaged sector crc len trusted.toSound bytes clean damages
  by_cases past : image.committed.length < bytes.stop
  · have refused : image.corruptBytes bytes = (image, false) := if_pos past
    have same : image.leftByDamage bytes left = left := by
      funext index
      simp [leftByDamage, refused]
    rw [refused, same]
    exact trusted
  · have made (final : FileImage) (is : image.corruptBytes bytes = (final, true))
        (restamped : Restamping damaged [] final) :
        (image.corruptBytes bytes).1.Trusted (image.leftByDamage bytes left) := by
      have same : image.leftByDamage bytes left =
          fun index => if bytes.Contains index then final.heldBy left index else left index := by
        funext index
        simp [leftByDamage, is]
      rw [same, is]
      exact trusted_restamped trusted damages restamped
    by_cases empty : bytes.len = 0
    · apply made damaged
      · simp only [corruptBytes, if_neg past, flipped, if_pos empty]
      · refine ⟨rfl, rfl, rfl, rfl, ?_⟩
        intro sector crc len found
        refine ⟨⟨crc, found⟩, .inl ((stamps found).2.resolve_right ?_)⟩
        simp only [Span.Contains, Span.len] at *
        omega
    · apply made
      · simp only [corruptBytes, if_neg past, flipped, if_neg empty]
        rfl
      · apply restamping_foldl fun sector crc len found => (stamps found).1
        refine ⟨rfl, rfl, rfl, rfl, ?_⟩
        intro sector crc len found
        refine ⟨⟨crc, found⟩, (stamps found).2.imp_right ?_⟩
        rintro ⟨⟨index, contains, rfl⟩, undirtied⟩
        have low := Nat.div_le_div_right (c := sectorSize) contains.1
        have high := Nat.div_le_div_right (c := sectorSize) (Nat.le_sub_one_of_lt contains.2)
        exact ⟨mem_range'_1.mpr (by omega), undirtied⟩

/-! ### Crashes -/

theorem trusted_settle (sector : Nat) :
    (image.settle sector).Trusted left :=
  trusted_of_same trusted rfl (fun other => isSet_clear_of_unset (trusted.unlied other)) rfl rfl

theorem trusted_copySpan (span : Span) :
    { image with committed := copySpan image.committed image.visible span }.Trusted left := by
  refine trusted_of_bytes trusted rfl trusted.unlied ?_
  intro sector crc len _ stamped index within
  have same := stamped.same index within
  exact ⟨copySpan_of_same same, same⟩

theorem trusted_commitSector (sector : Nat) :
    (image.commitSector sector).Trusted left :=
  trusted_settle (trusted_copySpan trusted _) sector

theorem trusted_lose (sector : Nat) {lost : Nat → UInt8} :
    { image with
      committed := overlay image.committed fun index =>
        if min ((image.committedBounds sector).start + image.protectedPrefix sector)
            (image.committedBounds sector).stop ≤ index ∧
              index < (image.committedBounds sector).stop then some (lost index)
        else none }.Trusted left := by
  refine trusted_of_bytes trusted rfl trusted.unlied ?_
  intro other crc len found stamped index within
  refine ⟨overlay_of_none (if_neg ?_), stamped.same index within⟩
  rintro ⟨past, inside⟩
  -- The byte is of the lost sector, past its protected prefix, which is what is stamped.
  have beyond : (image.committedBounds sector).start + image.protectedPrefix sector ≤ index := by
    omega
  have contains : (image.committedBounds sector).Contains index :=
    ⟨Nat.le_trans (Nat.le_add_right _ _) beyond, inside⟩
  obtain ⟨here, durable⟩ := committedBounds_contains.mp contains
  rw [within.sector_eq stamped.short] at here
  subst here
  have guarded : image.protectedPrefix other = len := by
    rw [protectedPrefix, trusted.unlied, found]
    rfl
  rw [guarded, stamped.start_eq within] at beyond
  exact not_lt.mpr beyond within.2

theorem trusted_applyOutcome (draws : CrashDraws) (sector : Nat)
    (outcome : CrashOutcome) : (image.applyOutcome draws sector outcome).1.Trusted left := by
  have marked {base : FileImage} (trusted : base.Trusted left) (faults damaged : SectorBitSet) :
      { base with faults, damaged }.Trusted left :=
    trusted_of_same trusted rfl trusted.unlied rfl rfl
  cases outcome with
  | keptOld => exact trusted_settle trusted sector
  | keptNew => exact trusted_commitSector trusted sector
  | latentFault => exact marked (trusted_commitSector trusted sector) _ _
  | lost => exact marked (trusted_settle (trusted_lose trusted sector) sector) _ _
  | shorn =>
    unfold applyOutcome
    simp only
    split
    · exact trusted_settle trusted sector
    · exact marked (trusted_settle (trusted_copySpan trusted _) sector) _ _

theorem trusted_landAll (dirty : List Nat) :
    (image.landAll dirty).Trusted left := by
  apply foldlRecOn (motive := fun image => Trusted image left) _ _ trusted
  intro image trusted sector _
  split
  · exact trusted
  · exact trusted_commitSector trusted sector

theorem trusted_adoptLength : image.adoptLength.Trusted left := by
  refine trusted_of_bytes trusted rfl trusted.unlied ?_
  intro sector crc len _ stamped index within
  exact ⟨resize_getElem?_old _ (stamped.visible_lt within) (stamped.durable index within),
    stamped.same index within⟩

theorem trusted_revertLength : image.revertLength.Trusted left := by
  refine trusted_of_bytes trusted rfl (fun sector => ?_) ?_
  · simp only [revertLength, resizeBitsets, isSet_resized, trusted.unlied, Bool.and_false]
  · intro sector crc len _ stamped index within
    exact ⟨rfl, (getElem?_take_of_lt (stamped.durable index within)).trans
      (stamped.same index within)⟩

theorem trusted_resolveLength (survives : Bool) :
    (image.resolveLength survives).1.Trusted left := by
  unfold resolveLength
  split
  · exact trusted
  · split
    · exact trusted_adoptLength trusted
    · exact trusted_revertLength trusted

theorem trusted_converge : image.converge.Trusted left :=
  trusted_of_bytes trusted rfl (fun _ => isSet_clearAll) fun _ _ _ _ _ _ _ => ⟨rfl, rfl⟩

end

theorem sweepStamp_of_stamped (stamped : image.Stamped sector crc len) (lied : List Nat)
    (armed : Bool) (earlier : List Nat) :
    ∃ gone, sweepStamp lied armed (image, earlier) (sector, crc, len) =
      .ok (image.unstamp gone, earlier) := by
  unfold sweepStamp
  simp only
  split
  next cut => exact ⟨[sector], rfl⟩
  next whole =>
    have bytes : slice image.committed ⟨(image.committedBounds sector).start,
        (image.committedBounds sector).start + len⟩ =
          slice image.committed ⟨sector * sectorSize, sector * sectorSize + len⟩ := by
      rcases Nat.eq_zero_or_pos len with rfl | positive
      · rw [slice_of_empty _ (le_of_eq (add_zero _)),
          slice_of_empty _ (le_of_eq (add_zero _))]
      · rw [stamped.start_eq ⟨le_refl _, Nat.lt_add_of_pos_right positive⟩]
    rw [bytes, if_pos stamped.crc_eq]
    exact ⟨[], rfl⟩

theorem foldlM_sweepStamp_of_stamped {stamps : List (Nat × UInt32 × Nat)}
    (right : ∀ stamp ∈ stamps, image.Stamped stamp.1 stamp.2.1 stamp.2.2) (lied : List Nat)
    (armed : Bool) (earlier : List Nat) :
    ∃ gone, stamps.foldlM (sweepStamp lied armed) (image, earlier) =
      .ok (image.unstamp gone, earlier) := by
  induction stamps generalizing image with
  | nil => exact ⟨[], rfl⟩
  | cons head rest ih =>
    obtain ⟨first, passed⟩ :=
      sweepStamp_of_stamped (right head mem_cons_self) lied armed earlier
    have later : ∀ stamp ∈ rest, (image.unstamp first).Stamped stamp.1 stamp.2.1 stamp.2.2 :=
      fun stamp member => (right stamp (mem_cons_of_mem _ member)).of_bytes rfl rfl
    obtain ⟨second, done⟩ := ih later
    refine ⟨first ++ second, ?_⟩
    rw [foldlM_cons, ← unstamp_unstamp]
    exact (congrArg (· >>= _) passed).trans done

/-- A trusted image reboots: the oracle's assertion holds, and nothing is lost. -/
theorem trusted_reboot (trusted : image.Trusted left) (lied : List Nat) (armed : Bool)
    (report : FileCrashReport) :
    ∃ after report', image.reboot lied armed report = .ok (after, report') ∧
      after.Trusted left := by
  have converged := trusted_converge trusted
  have right : ∀ stamp ∈ image.converge.oracle.toList,
      image.converge.Stamped stamp.1 stamp.2.1 stamp.2.2 := by
    intro stamp member
    exact converged.stamps _ _ _ (Std.ExtTreeMap.mem_toList_iff_getElem?_eq_some.mp member)
  obtain ⟨gone, swept⟩ := foldlM_sweepStamp_of_stamped right lied armed []
  refine ⟨_, _, by rw [reboot, oracleSweep, swept]; rfl, ?_⟩
  refine converged.transfer converged.unlied (fun sector stamp found => ?_) ?_
  · have before : (image.converge.unstamp gone).oracle[sector]? = some stamp := found
    exact (stamp_of_unstamp before).2
  · intro sector crc len _ index _
    exact ⟨rfl, rfl⟩

theorem trusted_crash (trusted : image.Trusted left) (draws : CrashDraws) (armed : Bool) :
    ∃ after report, image.crash draws armed = .ok (after, report) ∧ after.Trusted left := by
  have resolved := trusted_resolveLength trusted draws.lengthSurvives
  unfold crash
  simp only
  split
  · exact trusted_reboot (trusted_landAll resolved _) _ _ _
  · exact trusted_reboot (foldlRecOn
      (motive := fun swept : FileImage × List SectorResolution => Trusted swept.1 left) _
      (crashSector draws) (b := (_, [])) resolved fun _ trusted sector _ =>
        trusted_applyOutcome trusted draws sector _) _ _ _

theorem trusted_keepCache (trusted : image.Trusted left) (armed : Bool) :
    ∃ after report, image.keepCache armed = .ok (after, report) ∧ after.Trusted left := by
  have resolved : (if image.visible.length = image.committed.length then image
      else image.adoptLength).Trusted left := by
    split
    · exact trusted
    · exact trusted_adoptLength trusted
  exact trusted_reboot (trusted_landAll resolved _) _ _ _

end Ops

end FileImage

/-- What each operation leaves at each offset: a sync and planted damage theirs, the others what was
there. -/
def leftAfter [Crc32c] (image : FileImage) (left : Nat → UInt8) : Op → Nat → UInt8
  | .sync lies => (image.sync lies).1.heldBy left
  | .corruptBytes bytes => image.leftByDamage bytes left
  | _ => left

/-- The images a run reaches, with what the last sync or planted damage left at each offset. -/
inductive Records [Crc32c] (allowed : FileImage → Op → Prop) :
    FileImage → (Nat → UInt8) → Prop where
  | new (size : Nat) (fill : FillPattern) (left : Nat → UInt8) :
      Records allowed (new size fill) left
  | step {image next : FileImage} {left : Nat → UInt8} (op : Op) : Records allowed image left →
      allowed image op → step image op = .ok next →
      Records allowed next (leftAfter image left op)

def Honest : Op → Prop
  | .sync lies => ∀ sector, lies sector = false
  | _ => True

/-- No sync lies, and no damage is planted in the stamped bytes of a dirty sector. -/
def Spares (image : FileImage) : Op → Prop
  | .corruptBytes bytes => image.CleanDamage bytes
  | op => Honest op

section Runs

variable [Crc32c] {image next : FileImage} {left : Nat → UInt8}

theorem trusted_step (trusted : image.Trusted left) {op : Op} (spares : Spares image op) :
    ∃ next, step image op = .ok next ∧ next.Trusted (leftAfter image left op) := by
  cases op with
  | write offset data => exact ⟨_, rfl, trusted_write trusted offset data⟩
  | setLen newLen => exact ⟨_, rfl, trusted_setLen trusted newLen⟩
  | sync lies => exact ⟨_, rfl, (sound_sync trusted.toSound spares).trusted left⟩
  | failWriteback revert =>
    exact ⟨_, rfl, foldlRecOn (motive := (Trusted · left)) _ _ trusted
      fun _ trusted sector _ => trusted_failSector trusted revert sector⟩
  | dropCache => exact ⟨_, rfl, trusted_dropCache trusted⟩
  | corrupt sectors | failWithEio sectors target =>
    exact ⟨_, rfl, trusted_of_same trusted rfl trusted.unlied rfl rfl⟩
  | corruptBytes bytes => exact ⟨_, rfl, trusted_corruptBytes trusted spares⟩
  | crash draws armed =>
    obtain ⟨after, report, done, holds⟩ := trusted_crash trusted draws armed
    exact ⟨after, by rw [step, done]; rfl, holds⟩
  | keepCache armed =>
    obtain ⟨after, report, done, holds⟩ := trusted_keepCache trusted armed
    exact ⟨after, by rw [step, done]; rfl, holds⟩

theorem trusted_of_records (recorded : Records Spares image left) : image.Trusted left := by
  induction recorded with
  | new size fill left => exact trusted_new size fill
  | step op _ spares done trusted =>
    obtain ⟨next, same, holds⟩ := trusted_step trusted spares
    rw [done] at same
    cases same
    exact holds

/-- As long as no sync lies and no damage is planted in the stamped bytes of a dirty sector, every
crash passes the oracle's assertion and leaves in each stamped byte what the last sync or planted
damage left. -/
theorem oracle_never_wrong (recorded : Records Spares image left) {op : Op}
    (resolves : op.Resolves) :
    ∃ next, step image op = .ok next ∧
      ∀ sector crc len, next.oracle[sector]? = some (crc, len) →
        ∀ index, sector * sectorSize ≤ index → index < sector * sectorSize + len →
          next.committed[index]? = some (left index) ∧ next.visible[index]? = some (left index) := by
  have trusted := trusted_of_records recorded
  have ⟨spares, same⟩ : Spares image op ∧ leftAfter image left op = left := by
    cases op with
    | crash draws armed => exact ⟨trivial, rfl⟩
    | keepCache armed => exact ⟨trivial, rfl⟩
    | _ => exact absurd resolves id
  obtain ⟨next, done, holds⟩ := trusted_step trusted spares
  rw [same] at holds
  refine ⟨next, done, ?_⟩
  intro sector crc len found index low high
  have kept := holds.kept sector crc len found index ⟨low, high⟩
  have seen := (holds.stamps sector crc len found).same index ⟨low, high⟩
  exact ⟨kept, seen.trans kept⟩

end Runs

def losing : CrashDraws := ⟨true, false, none, fun _ => .lost, fun _ => 0, fun _ => false⟩

/-- Two synced bytes, and the file grows in their sector: a crash that loses the sector keeps
them. -/
theorem oracle_never_wrong_grown :
    letI := sumCrc
    let synced := (((FileImage.new 0 zeros).write 0 [5, 6]).1.sync fun _ => false).1
    let left := synced.heldBy fun _ => 0
    left 1 = 6 ∧ ∃ next, step (synced.setLen 10) (.crash losing true) = .ok next ∧
      ∀ sector crc len, next.oracle[sector]? = some (crc, len) →
        ∀ index, sector * sectorSize ≤ index → index < sector * sectorSize + len →
          next.committed[index]? = some (left index) ∧ next.visible[index]? = some (left index) := by
  let _ := sumCrc
  have new : Records Spares (new 0 zeros) fun _ => 0 := .new 0 zeros fun _ => 0
  have written := Records.step (.write 0 [5, 6]) new trivial rfl
  have synced := Records.step (.sync fun _ => false) written (fun _ => rfl) rfl
  have grown := Records.step (.setLen 10) synced trivial rfl
  exact ⟨by decide +kernel, oracle_never_wrong grown trivial⟩

/-- Two synced bytes, the file grows in their sector, and the first is damaged: a crash that loses
the rest fails the assertion. -/
theorem grown_damage_fails_oracle :
    letI := sumCrc
    ∃ image left, Records (fun _ => Honest) image left ∧
      step image (.crash losing false) = .error ⟨0⟩ := by
  let _ := sumCrc
  have new : Records (fun _ => Honest) (new 0 zeros) fun _ => 0 :=
    .new 0 zeros fun _ => 0
  have written := Records.step (.write 0 [5, 6]) new trivial rfl
  have synced := Records.step (.sync fun _ => false) written (fun _ => rfl) rfl
  have grown := Records.step (.setLen 10) synced trivial rfl
  have damaged := Records.step (.corruptBytes ⟨0, 1⟩) grown trivial rfl
  refine ⟨_, _, damaged, ?_⟩
  have fails (result : Except SimBug FileImage)
      (bug : (result.map fun _ => ()) = .error ⟨0⟩) : result = .error ⟨0⟩ := by
    cases result with
    | ok image => cases bug
    | error found =>
      cases bug
      rfl
  apply fails
  decide +kernel

end Moonpool.Sim
