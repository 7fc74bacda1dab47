import Moonpool.Sim.Steps

/-!
Owns that clean sectors agree: in every image a run reaches, the visible and the durable
bytes of a sector that is not dirty are the same, and whatever is stranded or lied about is
dirty.

One operation breaks it: dropping the cache of a sector that a sync lied about and whose
writeback then failed marks it clean while the lie stays.
-/

namespace Moonpool.Sim

open Lib SectorBitSet FileImage List

/-- Clean sectors agree, and only dirty sectors are volatile. -/
structure Agrees (image : FileImage) : Prop where
  marks : image.dirty.len = image.sectors
  clean : ∀ index, index < image.visible.length →
    image.dirty.isSet (index / sectorSize) = false → image.committed[index]? = image.visible[index]?
  lied : ∀ sector, image.lied.isSet sector = true → image.dirty.isSet sector = true
  stranded : ∀ sector, image.stranded.isSet sector = true → image.dirty.isSet sector = true

namespace FileImage

variable {image : FileImage} {sector : Nat}

theorem sector_inside {index : Nat} (below : index < image.visible.length) :
    index / sectorSize < image.sectors := by
  rw [sectors, lt_sectorCount]
  exact lt_of_le_of_lt (Nat.div_mul_le_self _ _) below

section

variable (image) (newLen : Nat)

include newLen

/-- The sectors that hold a byte the image gains. -/
def gained : List Nat :=
  if newLen ≤ image.visible.length then []
  else sectorRange image.visible.length (newLen - image.visible.length)

theorem resizeVisible_eq :
    image.resizeVisible newLen =
      let resized := { image with
        visible := resize image.visible newLen (fillByte image.fill) }.resizeBitsets
          (sectorCount newLen)
      { resized with
        dirty := (image.gained newLen).foldl SectorBitSet.set resized.dirty
        stranded := (image.gained newLen).foldl SectorBitSet.clear resized.stranded } := by
  simp only [resizeVisible, gained]
  split
  · rfl
  · exact foldl_growSector _ _

@[simp] theorem resizeVisible_visible :
    (image.resizeVisible newLen).visible = resize image.visible newLen (fillByte image.fill) := by
  rw [resizeVisible_eq]
  rfl

@[simp] theorem resizeVisible_committed :
    (image.resizeVisible newLen).committed = image.committed := by
  rw [resizeVisible_eq]
  rfl

@[simp] theorem resizeVisible_oracle :
    (image.resizeVisible newLen).oracle = image.oracle := by
  rw [resizeVisible_eq]
  rfl

@[simp] theorem resizeVisible_lied :
    (image.resizeVisible newLen).lied = image.lied.resized (sectorCount newLen) := by
  rw [resizeVisible_eq]
  rfl

@[simp] theorem resizeVisible_dirty_len :
    (image.resizeVisible newLen).dirty.len = sectorCount newLen := by
  rw [resizeVisible_eq]
  exact (len_foldl_set _).trans (len_resized _)

end

theorem resizeVisible_dirty {newLen : Nat} (there : sector < sectorCount newLen)
    (volatile : sector ∈ image.gained newLen ∨ image.dirty.isSet sector = true) :
    (image.resizeVisible newLen).dirty.isSet sector = true := by
  rw [resizeVisible_eq]
  refine isSet_foldl_set.mpr (volatile.imp (fun member => ⟨member, ?_⟩) fun dirty => ?_)
  · exact Nat.lt_of_lt_of_eq there (len_resized _).symm
  · change (image.dirty.resized (sectorCount newLen)).isSet sector = true
    rw [isSet_resized, dirty, decide_eq_true there]
    rfl

theorem stranded_of_resizeVisible {newLen : Nat}
    (stranded : (image.resizeVisible newLen).stranded.isSet sector = true) :
    sector < sectorCount newLen ∧ image.stranded.isSet sector = true := by
  rw [resizeVisible_eq] at stranded
  have resized : (image.stranded.resized (sectorCount newLen)).isSet sector = true :=
    (isSet_of_isSet_foldl_clear stranded).2
  rw [isSet_resized, Bool.and_eq_true, decide_eq_true_eq] at resized
  exact resized

theorem agrees_resizeVisible (agrees : Agrees image) (newLen : Nat) :
    Agrees (image.resizeVisible newLen) where
  marks := by
    rw [resizeVisible_dirty_len, sectors, resizeVisible_visible, resize_length]
  clean index below clean := by
    rw [resizeVisible_visible, resize_length] at below
    have there : index / sectorSize < sectorCount newLen :=
      lt_sectorCount.mpr (lt_of_le_of_lt (Nat.div_mul_le_self _ _) below)
    have quiet := not_or.mp fun volatile =>
      Bool.eq_false_iff.mp clean (resizeVisible_dirty there volatile)
    have old : index < image.visible.length := by
      apply Nat.lt_of_not_le
      intro past
      refine quiet.1 ?_
      rw [gained, if_neg (by omega)]
      exact sector_mem_sectorRange past (by omega)
    have before := Bool.eq_false_iff.mpr quiet.2
    rw [resizeVisible_committed, resizeVisible_visible, resize_getElem?_old _ below old]
    exact agrees.clean index old before
  lied sector lied := by
    rw [resizeVisible_lied, isSet_resized, Bool.and_eq_true, decide_eq_true_eq] at lied
    exact resizeVisible_dirty lied.1 (.inr (agrees.lied sector lied.2))
  stranded sector stranded := by
    obtain ⟨there, before⟩ := stranded_of_resizeVisible stranded
    exact resizeVisible_dirty there (.inr (agrees.stranded sector before))

theorem agrees_new (size : Nat) (fill : FillPattern) : Agrees (new size fill) where
  marks := by
    change (SectorBitSet.clearAll _).len = _
    rw [len_clearAll, resizeVisible_dirty_len]
    simp only [new, sectors, resizeVisible_visible, resize_length]
  clean _ _ _ := rfl
  lied sector lied := by
    change (resizeVisible _ size).lied.isSet sector = true at lied
    rw [resizeVisible_lied, isSet_resized, isSet_new, Bool.and_false] at lied
    cases lied
  stranded sector stranded := by
    have before := (stranded_of_resizeVisible stranded).2
    cases before

theorem agrees_foldl_writeSector {sectors : List Nat} (agrees : Agrees image)
    {changed : List UInt8} (length : changed.length = image.visible.length)
    (outside : ∀ index, index / sectorSize ∉ sectors → changed[index]? = image.visible[index]?) :
    Agrees (sectors.foldl writeSector { image with visible := changed }) := by
  rw [foldl_writeSector]
  exact {
    marks := by
      change (sectors.foldl SectorBitSet.set image.dirty).len = sectorCount changed.length
      rw [len_foldl_set, agrees.marks, length]
      rfl
    clean := by
      intro index below clean
      change index < changed.length at below
      change (sectors.foldl SectorBitSet.set image.dirty).isSet _ = false at clean
      change image.committed[index]? = changed[index]?
      rw [length] at below
      have inside : index / sectorSize < image.dirty.len := by
        rw [agrees.marks]
        exact sector_inside below
      have quiet := not_or.mp fun volatile => Bool.eq_false_iff.mp clean
        (isSet_foldl_set.mpr volatile)
      rw [outside index fun touched => quiet.1 ⟨touched, inside⟩]
      exact agrees.clean index below (Bool.eq_false_iff.mpr quiet.2)
    lied := fun sector lied =>
      isSet_foldl_set.mpr (.inr (agrees.lied sector (isSet_of_isSet_foldl_clear lied).2))
    stranded := fun sector stranded =>
      isSet_foldl_set.mpr
        (.inr (agrees.stranded sector (isSet_of_isSet_foldl_clear stranded).2)) }

theorem written_elsewhere {bytes data : List UInt8} {offset index : Nat}
    (away : index / sectorSize ∉ sectorRange offset data.length) :
    (overlay bytes fun index => if offset ≤ index then data[index - offset]? else none)[index]? =
      bytes[index]? := by
  apply overlay_of_none
  split
  next after =>
    apply getElem?_eq_none
    apply Nat.le_of_not_lt
    intro within
    exact away (sector_mem_sectorRange after (by omega))
  next => rfl

theorem agrees_write (agrees : Agrees image) (offset : Nat) (data : List UInt8) :
    Agrees (image.write offset data).1 := by
  have grown : Agrees (if image.visible.length < offset + data.length then
      image.resizeVisible (offset + data.length) else image) := by
    split
    · exact agrees_resizeVisible agrees _
    · exact agrees
  exact agrees_foldl_writeSector grown (overlay_length _ _) fun _ => written_elsewhere

theorem agrees_of_oracle {oracle : Std.ExtTreeMap Nat (UInt32 × Nat)} (agrees : Agrees image) :
    Agrees { image with oracle } :=
  ⟨agrees.marks, agrees.clean, agrees.lied, agrees.stranded⟩

theorem agrees_setLen [Crc32c] (agrees : Agrees image) (newLen : Nat) :
    Agrees (image.setLen newLen) := by
  have resized : Agrees ((image.resizeVisible newLen).unstamp
      (range' (image.resizeVisible newLen).sectors
        (image.sectors - (image.resizeVisible newLen).sectors))) :=
    agrees_of_oracle (agrees_resizeVisible agrees newLen)
  unfold setLen
  simp only
  split
  · rw [narrowTailStamp_eq]
    exact agrees_of_oracle resized
  · exact resized

theorem nodup_flushableSectors : image.flushableSectors.Nodup :=
  List.Nodup.filter _ nodup_range

/-- A sector a sync or a failed writeback is about to take. -/
def Flushable (sector : Nat) (image : FileImage) : Prop :=
  image.dirty.isSet sector = true ∧ image.stranded.isSet sector = false

theorem flushable_of_mem (member : sector ∈ image.flushableSectors) : Flushable sector image := by
  simpa [Flushable, isFlushable] using (mem_filter.mp member).2

theorem SectorBitSet.elsewhere {bits : SectorBitSet} {sector : Nat}
    (unmarked : bits.isSet sector = false) {other : Nat} (marked : bits.isSet other = true) :
    other ≠ sector ∧ bits.isSet other = true := by
  refine ⟨?_, marked⟩
  rintro rfl
  rw [unmarked] at marked
  cases marked

theorem agrees_clean {next : FileImage} (agrees : Agrees image)
    (dirty : next.dirty = image.dirty.clear sector)
    (lied : ∀ other, next.lied.isSet other = true → other ≠ sector ∧ image.lied.isSet other = true)
    (stranded : ∀ other, next.stranded.isSet other = true →
      other ≠ sector ∧ image.stranded.isSet other = true)
    (length : next.visible.length = image.visible.length)
    (inside : ∀ index, index < next.visible.length → index / sectorSize = sector →
      next.committed[index]? = next.visible[index]?)
    (outside : ∀ index, index / sectorSize ≠ sector →
      next.committed[index]? = image.committed[index]? ∧
        next.visible[index]? = image.visible[index]?) :
    Agrees next where
  marks := by
    rw [dirty, len_clear, agrees.marks, sectors, sectors, length]
  clean index below clean := by
    by_cases own : index / sectorSize = sector
    · exact inside index below own
    obtain ⟨durable, seen⟩ := outside index own
    rw [dirty, isSet_clear_ne own] at clean
    rw [durable, seen]
    apply agrees.clean index _ clean
    rwa [← length]
  lied other marked := by
    obtain ⟨differs, before⟩ := lied other marked
    rw [dirty, isSet_clear_ne differs]
    exact agrees.lied other before
  stranded other marked := by
    obtain ⟨differs, before⟩ := stranded other marked
    rw [dirty, isSet_clear_ne differs]
    exact agrees.stranded other before

theorem agrees_syncSector [Crc32c] (lies : Nat → Bool) (agrees : Agrees image)
    (covers : image.visible.length ≤ image.committed.length) (ready : Flushable sector image) :
    Agrees (image.syncSector lies sector) := by
  obtain ⟨dirty, unstranded⟩ := ready
  unfold syncSector
  split
  next lie =>
    refine ⟨agrees.marks, agrees.clean, ?_, agrees.stranded⟩
    intro other lied
    exact (isSet_set.mp lied).elim (fun here => here.1 ▸ dirty) (agrees.lied other)
  next honest =>
    refine agrees_clean agrees rfl (fun _ => isSet_of_isSet_clear)
      (fun _ => SectorBitSet.elsewhere unstranded) rfl ?_ ?_
    · intro index below own
      exact copySpan_inside (visibleBounds_contains.mpr ⟨own, below⟩)
        (lt_of_lt_of_le below covers) below
    · intro index other
      refine ⟨copySpan_outside ?_, rfl⟩
      intro contained
      exact other (visibleBounds_contains.mp contained).1

theorem agrees_sync [Crc32c] (agrees : Agrees image) (lies : Nat → Bool) :
    Agrees (image.sync lies).1 := by
  have resized : Agrees { image with
      committed := resize image.committed image.visible.length fun _ => 0 } := by
    refine ⟨agrees.marks, ?_, agrees.lied, agrees.stranded⟩
    intro index below clean
    have same := agrees.clean index below clean
    have old : index < image.committed.length := by
      rw [getElem?_eq_getElem (show index < image.visible.length from below)] at same
      exact (List.getElem?_eq_some_iff.mp same).1
    exact (resize_getElem?_old _ below old).trans same
  refine (foldl_each (fun image => Agrees image ∧ image.visible.length ≤ image.committed.length)
    Flushable _ nodup_flushableSectors _ ⟨resized, by simp⟩ (fun _ => flushable_of_mem) ?_ ?_).1
  · intro state item holds ready
    refine ⟨agrees_syncSector lies holds.1 holds.2 ready, ?_⟩
    unfold syncSector
    split
    · exact holds.2
    · rw [copySpan_length]
      exact holds.2
  · intro state item other differs ready
    unfold syncSector
    split
    · exact ready
    · exact ⟨(isSet_clear_ne differs).trans ready.1, ready.2⟩

theorem agrees_failSector (revert : Bool) (agrees : Agrees image)
    (ready : Flushable sector image) : Agrees (image.failSector revert sector) := by
  obtain ⟨dirty, unstranded⟩ := ready
  unfold failSector
  simp only
  split
  next reverts =>
    obtain ⟨-, ⟨-, whole⟩, unlied⟩ := reverts
    refine agrees_clean agrees rfl (fun _ => SectorBitSet.elsewhere unlied)
      (fun _ => SectorBitSet.elsewhere unstranded) (copySpan_length _ _ _) ?_ ?_
    · intro index below own
      rw [copySpan_length] at below
      have contained : (image.visibleBounds sector).Contains index :=
        visibleBounds_contains.mpr ⟨own, below⟩
      rw [← whole] at contained
      have durable := (sharedBounds_contains.mp contained).2.2
      exact (copySpan_inside contained below durable).symm
    · intro index other
      refine ⟨rfl, copySpan_outside ?_⟩
      intro contained
      exact other (sharedBounds_contains.mp contained).1
  next stays =>
    refine ⟨agrees.marks, agrees.clean, agrees.lied, ?_⟩
    intro other stranded
    exact (isSet_set.mp stranded).elim (fun here => here.1 ▸ dirty) (agrees.stranded other)

theorem agrees_failWriteback (agrees : Agrees image) (revert : Bool) :
    Agrees (image.failWriteback revert).1 := by
  refine foldl_each Agrees Flushable _ nodup_flushableSectors _ agrees
    (fun _ => flushable_of_mem) ?_ ?_
  · intro state item holds ready
    exact agrees_failSector revert holds ready
  · intro state item other differs ready
    unfold failSector
    simp only
    split
    · exact ⟨(isSet_clear_ne differs).trans ready.1, ready.2⟩
    · exact ⟨ready.1, (isSet_set_ne differs).trans ready.2⟩

/-- A stranded sector about to be dropped from the cache, that no sync lied about inside the durable
end. -/
def Droppable (sector : Nat) (image : FileImage) : Prop :=
  image.stranded.isSet sector = true ∧
    (image.sharedBounds sector = image.visibleBounds sector → image.lied.isSet sector = false)

theorem dropSector_visible_length (image : FileImage) (sector : Nat) :
    (image.dropSector sector).visible.length = image.visible.length :=
  overlay_length _ _

theorem agrees_dropSector (agrees : Agrees image) (ready : Droppable sector image) :
    Agrees (image.dropSector sector) := by
  obtain ⟨stranded, honest⟩ := ready
  have dirty := agrees.stranded sector stranded
  have elsewhere {index : Nat} (other : index / sectorSize ≠ sector) :
      (image.dropSector sector).visible[index]? = image.visible[index]? := by
    apply overlay_of_none
    rw [if_neg fun contained => other (visibleBounds_contains.mp contained).1]
  by_cases whole : image.sharedBounds sector = image.visibleBounds sector
  · refine agrees_clean agrees (if_pos whole) (fun _ => SectorBitSet.elsewhere (honest whole))
      (fun _ => isSet_of_isSet_clear) (overlay_length _ _) ?_ fun _ other => ⟨rfl, elsewhere other⟩
    · intro index below own
      rw [dropSector_visible_length] at below
      have contained : (image.visibleBounds sector).Contains index :=
        visibleBounds_contains.mpr ⟨own, below⟩
      have durable : index < image.committed.length := by
        rw [← whole] at contained
        exact (sharedBounds_contains.mp contained).2.2
      change image.committed[index]? = _
      rw [getElem?_eq_getElem durable]
      symm
      apply overlay_of_some _ below
      rw [if_pos contained, whole, if_pos contained, getElem?_eq_getElem durable]
  · have same : (image.dropSector sector).dirty = image.dirty := if_neg whole
    refine ⟨?_, ?_, same ▸ agrees.lied, fun other marked =>
      same ▸ agrees.stranded other (isSet_of_isSet_clear marked).2⟩
    · rw [same, sectors, dropSector_visible_length]
      exact agrees.marks
    · intro index below clean
      rw [dropSector_visible_length] at below
      rw [same] at clean
      have other : index / sectorSize ≠ sector := by
        rintro rfl
        rw [dirty] at clean
        cases clean
      exact (agrees.clean index below clean).trans (elsewhere other).symm

theorem agrees_dropCache (agrees : Agrees image)
    (ready : ∀ sector, image.stranded.isSet sector = true → Droppable sector image) :
    Agrees image.dropCache.1 := by
  refine foldl_each Agrees Droppable _ (List.Nodup.filter _ nodup_range) _ agrees ?_ ?_ ?_
  · intro sector member
    exact ready sector (mem_filter.mp member).2
  · intro state item holds ready
    exact agrees_dropSector holds ready
  · intro state item other differs ready
    refine ⟨(isSet_clear_ne differs).trans ready.1, ?_⟩
    intro whole
    apply ready.2
    simp only [sharedBounds, visibleBounds, dropSector_visible_length] at whole
    exact whole

theorem corruptByte_foldl (image : FileImage) (offsets : List Nat) :
    (offsets.foldl corruptByte image).stranded = image.stranded ∧
      (offsets.foldl corruptByte image).visible.length = image.visible.length := by
  refine foldlRecOn (motive := fun next : FileImage => next.stranded = image.stranded ∧
    next.visible.length = image.visible.length) _ _ ⟨rfl, rfl⟩ fun next same offset _ =>
      ⟨same.1, Eq.trans ?_ same.2⟩
  rw [corruptByte]
  split
  · exact overlay_length _ _
  · rfl

theorem agrees_restamp [Crc32c] (agrees : Agrees image) (sector : Nat) :
    Agrees (image.restamp sector) := by
  rw [restamp_eq]
  exact agrees_of_oracle agrees

theorem agrees_corruptBytes [Crc32c] (agrees : Agrees image) (bytes : Span) :
    Agrees (image.corruptBytes bytes).1 := by
  have damages := damages_foldl image bytes
  obtain ⟨stranded, length⟩ := corruptByte_foldl image (range' bytes.start bytes.len)
  have damaged : Agrees ((range' bytes.start bytes.len).foldl corruptByte image) := by
    refine ⟨?_, fun index below clean => ?_, ?_, ?_⟩
    · rw [damages.dirty, agrees.marks, sectors, sectors, length]
    · rw [length] at below
      rw [damages.dirty] at clean
      exact (damages.same index clean (agrees.clean index below clean).symm).symm
    · rw [damages.lied, damages.dirty]
      exact agrees.lied
    · rw [stranded, damages.dirty]
      exact agrees.stranded
  unfold corruptBytes
  split
  · exact agrees
  split
  · exact damaged
  · exact foldlRecOn _ _ damaged fun _ holds _ _ => agrees_restamp holds _

/-- After a reboot both images are one, and nothing is dirty, lied about or stranded. -/
structure Settled (image : FileImage) : Prop where
  same : image.visible = image.committed
  dirty : ∀ sector, image.dirty.isSet sector = false
  lied : ∀ sector, image.lied.isSet sector = false
  stranded : ∀ sector, image.stranded.isSet sector = false
  marks : image.dirty.len = image.sectors

theorem settled_reboot [Crc32c] {lied : List Nat} {armed : Bool} {report report' : FileCrashReport}
    {after : FileImage} (done : image.reboot lied armed report = .ok (after, report')) :
    Settled after := by
  obtain ⟨gone, lost, rfl, _⟩ := reboot_ok done
  refine ⟨rfl, fun _ => isSet_clearAll, fun _ => isSet_clearAll,
    fun _ => isSet_clearAll, ?_⟩
  change (SectorBitSet.clearAll (SectorBitSet.resized _ _)).len = _
  rw [len_clearAll, len_resized]
  rfl

theorem Settled.agrees (settled : Settled image) : Agrees image where
  marks := settled.marks
  clean index _ _ := by rw [settled.same]
  lied sector marked := by
    rw [settled.lied sector] at marked
    cases marked
  stranded sector marked := by
    rw [settled.stranded sector] at marked
    cases marked

end FileImage

theorem settled_step [Crc32c] {image next : FileImage} {op : Op} (resolves : op.Resolves)
    (done : step image op = .ok next) : next.Settled := by
  cases op with
  | crash draws armed =>
    obtain ⟨pair, crashed, rfl⟩ := ok_of_map done
    obtain ⟨lied, report, rebooted⟩ := crash_reboots crashed
    exact FileImage.settled_reboot rebooted
  | keepCache armed =>
    obtain ⟨pair, kept, rfl⟩ := ok_of_map done
    exact FileImage.settled_reboot kept
  | _ => exact absurd resolves id

/-- The cache is dropped only where no stranded sector was lied about inside the durable image. -/
def HonestDrops (image : FileImage) (op : Op) : Prop :=
  op = .dropCache → ∀ sector, image.stranded.isSet sector = true →
    image.sharedBounds sector = image.visibleBounds sector → image.lied.isSet sector = false

theorem agrees_step [Crc32c] {image next : FileImage} {op : Op} (agrees : Agrees image)
    (honest : HonestDrops image op) (done : step image op = .ok next) : Agrees next := by
  cases op with
  | write offset data => cases done; exact FileImage.agrees_write agrees offset data
  | setLen newLen => cases done; exact FileImage.agrees_setLen agrees newLen
  | sync lies => cases done; exact FileImage.agrees_sync agrees lies
  | failWriteback revert => cases done; exact FileImage.agrees_failWriteback agrees revert
  | dropCache =>
    cases done
    apply FileImage.agrees_dropCache agrees
    intro sector stranded
    exact ⟨stranded, honest rfl sector stranded⟩
  | corrupt sectors => cases done; exact ⟨agrees.marks, agrees.clean, agrees.lied, agrees.stranded⟩
  | corruptBytes bytes => cases done; exact FileImage.agrees_corruptBytes agrees bytes
  | failWithEio sectors target =>
    cases done
    exact ⟨agrees.marks, agrees.clean, agrees.lied, agrees.stranded⟩
  | crash draws armed => exact (@settled_step _ _ _ (.crash draws armed) trivial done).agrees
  | keepCache armed => exact (@settled_step _ _ _ (.keepCache armed) trivial done).agrees

section

variable [Crc32c] {image} (reached : Reaches HonestDrops image)

include reached

theorem agrees_of_reaches :
    Agrees image := by
  induction reached with
  | new size fill => exact FileImage.agrees_new size fill
  | step _ honest done ih => exact agrees_step ih honest done

/-- As long as no cache drop takes a sector that is stranded, lied about and wholly durable: the
bytes of a clean sector are the same in both images, what is stranded or lied about is dirty, and a
crash leaves both images equal with nothing dirty. -/
theorem clean_sectors_agree :
    (∀ sector index, image.dirty.isSet sector = false → index / sectorSize = sector →
      index < image.visible.length → index < image.committed.length →
      image.visible[index]? = image.committed[index]?) ∧
    (∀ sector, image.stranded.isSet sector = true ∨ image.lied.isSet sector = true →
      image.dirty.isSet sector = true) ∧
    (∀ op next, op.Resolves → step image op = .ok next →
      next.visible = next.committed ∧ ∀ sector, next.dirty.isSet sector = false ∧
        next.lied.isSet sector = false ∧ next.stranded.isSet sector = false) := by
  have agrees := agrees_of_reaches reached
  refine ⟨?_, ?_, ?_⟩
  · rintro _ index clean rfl below _
    exact (agrees.clean index below clean).symm
  · rintro sector (stranded | lied)
    · exact agrees.stranded sector stranded
    · exact agrees.lied sector lied
  · intro op next resolves done
    have settled := settled_step resolves done
    exact ⟨settled.same, fun sector =>
      ⟨settled.dirty sector, settled.lied sector, settled.stranded sector⟩⟩

end

def zeros : FillPattern := fun _ _ => 0

/-- A checksum for the cases below: the bytes' sum. -/
abbrev sumCrc : Crc32c := ⟨fun bytes => bytes.foldl (fun sum byte => sum + byte.toUInt32) 0⟩

theorem clean_sectors_agree_second :
    letI := sumCrc
    ((FileImage.new 600 zeros).write 1 [7]).1.visible[599]? =
      ((FileImage.new 600 zeros).write 1 [7]).1.committed[599]? := by
  let _ := sumCrc
  have reached : Reaches HonestDrops ((new 600 zeros).write 1 [7]).1 := by
    refine .step (.new 600 zeros) ?_ (rfl : step _ (.write 1 [7]) = _)
    intro impossible
    cases impossible
  exact (clean_sectors_agree reached).1 1 599 (by decide +kernel) (by decide)
    (by decide +kernel) (by decide +kernel)

/-- A sync lies about a sector, its writeback fails, and the cache is dropped: it is not dirty. -/
theorem dropped_lie_not_dirty :
    letI := sumCrc
    ∃ image, Reaches (fun _ _ => True) image ∧ image.lied.isSet 0 = true ∧
      image.dirty.isSet 0 = false := by
  let _ := sumCrc
  let lied := (((new 0 zeros).write 0 [1]).1.sync fun _ => true).1
  have reached : Reaches (fun _ _ => True) (lied.failWriteback false).1.dropCache.1 :=
    .step (.step (.step (.step (.new 0 zeros) trivial (rfl : step _ (.write 0 [1]) = _)) trivial
      (rfl : step _ (.sync fun _ => true) = _)) trivial (rfl : step _ (.failWriteback false) = _))
      trivial (rfl : step _ .dropCache = _)
  exact ⟨_, reached, by decide +kernel, by decide +kernel⟩

end Moonpool.Sim
