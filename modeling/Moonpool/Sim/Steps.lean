import Moonpool.Sim.Image

/-!
Owns the operations on a file image as steps, the images a run reaches, and what each loop
of an operation leaves: a loop that marks or unmarks sectors is one update of the marks,
and the sweep after a crash changes nothing but the stamps.
-/

namespace Moonpool.Sim

open Lib List

inductive Op where
  | write (offset : Nat) (data : List UInt8)
  | setLen (newLen : Nat)
  | sync (lies : Nat → Bool)
  | failWriteback (revert : Bool)
  | dropCache
  | corrupt (sectors : List Nat)
  | corruptBytes (bytes : Span)
  | failWithEio (sectors : List Nat) (target : EioTarget)
  | crash (draws : CrashDraws) (armed : Bool)
  | keepCache (armed : Bool)

def Op.Resolves : Op → Prop
  | .crash .. | .keepCache .. => True
  | _ => False

def step [Crc32c] (image : FileImage) : Op → Except SimBug FileImage
  | .write offset data => .ok (image.write offset data).1
  | .setLen newLen => .ok (image.setLen newLen)
  | .sync lies => .ok (image.sync lies).1
  | .failWriteback revert => .ok (image.failWriteback revert).1
  | .dropCache => .ok image.dropCache.1
  | .corrupt sectors => .ok (image.corrupt sectors)
  | .corruptBytes bytes => .ok (image.corruptBytes bytes).1
  | .failWithEio sectors target => .ok (image.failWithEio sectors target)
  | .crash draws armed => (image.crash draws armed).map Prod.fst
  | .keepCache armed => (image.keepCache armed).map Prod.fst

/-- The images reached from a new file by operations that `allowed` admits where they are
made. -/
inductive Reaches [Crc32c] (allowed : FileImage → Op → Prop) : FileImage → Prop where
  | new (size : Nat) (fill : FillPattern) : Reaches allowed (FileImage.new size fill)
  | step {image next : FileImage} {op : Op} : Reaches allowed image → allowed image op →
      step image op = .ok next → Reaches allowed next

namespace FileImage

variable {image : FileImage}

theorem foldl_growSector (sectors : List Nat) (image : FileImage) :
    sectors.foldl growSector image =
      { image with
        dirty := sectors.foldl SectorBitSet.set image.dirty
        stranded := sectors.foldl SectorBitSet.clear image.stranded } := by
  induction sectors generalizing image with
  | nil => rfl
  | cons head rest ih => exact ih (image.growSector head)

theorem unstamp_cons (image : FileImage) (head : Nat) (rest : List Nat) :
    image.unstamp (head :: rest) =
      { image with oracle := image.oracle.erase head }.unstamp rest := rfl

theorem foldl_writeSector (sectors : List Nat) (image : FileImage) :
    sectors.foldl writeSector image =
      { image.unstamp sectors with
        damaged := sectors.foldl SectorBitSet.clear image.damaged
        dirty := sectors.foldl SectorBitSet.set image.dirty
        faults := sectors.foldl SectorBitSet.clear image.faults
        lied := sectors.foldl SectorBitSet.clear image.lied
        stranded := sectors.foldl SectorBitSet.clear image.stranded } := by
  induction sectors generalizing image with
  | nil => rfl
  | cons head rest ih => exact ih (image.writeSector head)

theorem oracle_unstamp (sectors : List Nat) (sector : Nat) :
    (image.unstamp sectors).oracle[sector]? =
      if sector ∈ sectors then none else image.oracle[sector]? := by
  induction sectors generalizing image with
  | nil => rfl
  | cons head rest ih =>
    rw [unstamp_cons, ih]
    change (if sector ∈ rest then none else (image.oracle.erase head)[sector]?) = _
    simp only [Std.ExtTreeMap.getElem?_erase, Std.LawfulEqCmp.compare_eq_iff_eq]
    by_cases same : sector = head
    · simp [same]
    · simp [same, Ne.symm same]

theorem stamp_of_unstamp {sectors : List Nat} {sector : Nat} {stamp : UInt32 × Nat}
    (left : (image.unstamp sectors).oracle[sector]? = some stamp) :
    sector ∉ sectors ∧ image.oracle[sector]? = some stamp := by
  rw [oracle_unstamp] at left
  split at left
  next => cases left
  next absent => exact ⟨absent, left⟩

theorem unstamp_of_not_mem {sectors : List Nat} {sector : Nat} (absent : sector ∉ sectors) :
    (image.unstamp sectors).oracle[sector]? = image.oracle[sector]? := by
  rw [oracle_unstamp, if_neg absent]

theorem stamp_of_insert {oracle : Std.ExtTreeMap Nat (UInt32 × Nat)} {sector other : Nat}
    {put stamp : UInt32 × Nat} (there : (oracle.insert sector put)[other]? = some stamp) :
    (other = sector ∧ stamp = put) ∨ (other ≠ sector ∧ oracle[other]? = some stamp) := by
  rw [Std.ExtTreeMap.getElem?_insert] at there
  split at there
  next same =>
    cases there
    exact .inl ⟨(Std.LawfulEqCmp.compare_eq_iff_eq.mp same).symm, rfl⟩
  next differs =>
    refine .inr ⟨?_, there⟩
    rintro rfl
    exact differs Std.ReflCmp.compare_self

theorem narrowTailStamp_eq [Crc32c] (image : FileImage) (newLen : Nat) :
    image.narrowTailStamp newLen =
      { image with oracle := (image.narrowTailStamp newLen).oracle } := by
  simp only [narrowTailStamp]
  split
  · rfl
  · split <;> rfl

theorem restamp_eq [Crc32c] (image : FileImage) (sector : Nat) :
    image.restamp sector = { image with oracle := (image.restamp sector).oracle } := by
  unfold restamp
  split
  · rfl
  · split <;> rfl

/-- What flipping bytes of `bytes` leaves of an image: everything else, and agreement on clean
bytes. -/
structure Damages (bytes : Span) (image next : FileImage) : Prop where
  oracle : next.oracle = image.oracle
  dirty : next.dirty = image.dirty
  lied : next.lied = image.lied
  length : next.committed.length = image.committed.length
  outside : ∀ index, ¬ bytes.Contains index →
    next.committed[index]? = image.committed[index]? ∧ next.visible[index]? = image.visible[index]?
  same : ∀ index, image.dirty.isSet (index / sectorSize) = false →
    image.visible[index]? = image.committed[index]? → next.visible[index]? = next.committed[index]?

theorem damages_corruptByte (image : FileImage) {bytes : Span} {offset : Nat}
    (inside : bytes.Contains offset) : Damages bytes image (image.corruptByte offset) where
  oracle := rfl
  dirty := rfl
  lied := rfl
  length := overlay_length _ _
  outside index away := by
    have differs : index ≠ offset := fun same => away (same ▸ inside)
    unfold corruptByte
    constructor
    · exact overlay_of_none (if_neg differs)
    · split
      · exact overlay_of_none (if_neg differs)
      · rfl
  same index clean same := by
    unfold corruptByte
    simp only
    by_cases here : index = offset
    · subst here
      by_cases below : index < image.visible.length
      · rw [if_pos ⟨below, clean⟩, overlay_getElem?, overlay_getElem?, same]
      · rw [if_neg fun both => below both.1, overlay_getElem?, ← same,
          getElem?_eq_none (Nat.le_of_not_lt below)]
        rfl
    · rw [overlay_of_none (if_neg here)]
      split
      · rw [overlay_of_none (if_neg here), same]
      · exact same

theorem Damages.trans {bytes : Span} {first second third : FileImage}
    (before : Damages bytes first second) (after : Damages bytes second third) :
    Damages bytes first third where
  oracle := after.oracle.trans before.oracle
  dirty := after.dirty.trans before.dirty
  lied := after.lied.trans before.lied
  length := after.length.trans before.length
  outside index away :=
    ⟨(after.outside index away).1.trans (before.outside index away).1,
      (after.outside index away).2.trans (before.outside index away).2⟩
  same index clean same :=
    after.same index (by rwa [before.dirty]) (before.same index clean same)

theorem damages_foldl (image : FileImage) (bytes : Span) :
    Damages bytes image ((range' bytes.start bytes.len).foldl corruptByte image) := by
  apply foldlRecOn (motive := fun next => Damages bytes image next)
  · exact ⟨rfl, rfl, rfl, rfl, fun _ _ => ⟨rfl, rfl⟩, fun _ _ same => same⟩
  · intro next damages offset member
    apply damages.trans
    apply damages_corruptByte
    rw [mem_range'_1] at member
    simp only [Span.Contains, Span.len] at *
    omega

variable {lied : List Nat} {armed : Bool} {image after : FileImage}

theorem unstamp_unstamp (image : FileImage) (first second : List Nat) :
    (image.unstamp first).unstamp second = image.unstamp (first ++ second) := by
  simp only [unstamp, foldl_append]

/-- The sweep changes nothing but the stamps, adds none, and loses only what a sync lied about. -/
theorem oracleSweep_ok [Crc32c] {lost : List Nat}
    (done : image.oracleSweep lied armed = .ok (after, lost)) :
    (∃ gone, after = image.unstamp gone) ∧ ∀ sector ∈ lost, sector ∈ lied := by
  obtain ⟨swept, looped, done⟩ := ok_of_bind done
  have loop : (∃ gone, swept.1 = image.unstamp gone) ∧ ∀ sector ∈ swept.2, sector ∈ lied := by
    refine foldlM_rec (motive := fun swept => (∃ gone, swept.1 = image.unstamp gone) ∧
      ∀ sector ∈ swept.2, sector ∈ lied) ⟨⟨[], rfl⟩, fun _ member => by cases member⟩ ?_ looped
    rintro ⟨sector, crc, stampedLen⟩ ⟨_, earlier⟩ next _ ⟨⟨gone, rfl⟩, known⟩ stepped
    simp only [sweepStamp] at stepped
    split at stepped
    · cases stepped
      exact ⟨⟨gone ++ [sector], unstamp_unstamp image gone [sector]⟩, known⟩
    split at stepped
    · cases stepped
      exact ⟨⟨gone, rfl⟩, known⟩
    split at stepped
    next lying =>
      cases stepped
      refine ⟨⟨gone, rfl⟩, fun other member => ?_⟩
      rcases mem_append.mp member with early | here
      · exact known other early
      · rw [mem_singleton.mp here]
        exact contains_iff_mem.mp (Bool.and_eq_true _ _ |>.mp lying).2
    · cases stepped
  obtain ⟨⟨gone, same⟩, known⟩ := loop
  cases done
  rw [same, unstamp_unstamp]
  exact ⟨⟨_, rfl⟩, known⟩

/-- A reboot leaves the durable image in both places, nothing volatile, and no new stamp. -/
theorem reboot_ok [Crc32c] {report report' : FileCrashReport}
    (done : image.reboot lied armed report = .ok (after, report')) :
    ∃ gone, ∃ lost : List Nat, after = { image.converge.unstamp gone with
      damaged := lost.foldl SectorBitSet.set image.converge.damaged } ∧
      ∀ sector ∈ lost, sector ∈ lied := by
  obtain ⟨⟨between, lost⟩, swept, done⟩ := ok_of_bind done
  cases done
  obtain ⟨⟨gone, rfl⟩, known⟩ := oracleSweep_ok swept
  exact ⟨gone, lost, rfl, known⟩

def crashed (image : FileImage) (draws : CrashDraws) : FileImage :=
  let image := (image.resolveLength draws.lengthSurvives).1
  if draws.clean then image.landAll image.dirtySectors
  else (image.dirtySectors.foldl (crashSector draws) (image, [])).1

theorem crash_reboots [Crc32c] {draws : CrashDraws} {report : FileCrashReport}
    (done : image.crash draws armed = .ok (after, report)) :
    ∃ lied report', (image.crashed draws).reboot lied armed report' = .ok (after, report) := by
  unfold crash at done
  unfold crashed
  simp only at done ⊢
  split at done
  next clean => exact ⟨_, _, by rw [if_pos clean]; exact done⟩
  next torn => exact ⟨_, _, by rw [if_neg torn]; exact done⟩

end FileImage

end Moonpool.Sim
