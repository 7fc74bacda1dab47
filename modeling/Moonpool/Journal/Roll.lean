import Moonpool.Journal.Names

/-!
Owns making a new segment under the crash invariant: created in a new file, or adopted
from a spare.  Either way the headers are durable before the segment has its name, so a
crash finds no segment of that name or a whole one.

The results hold for every property that does not look at spares and temporary files.
-/

namespace Moonpool.Journal

open Lib

abbrev headerRegion (header : SegmentHeader) : Nat → Option Content :=
  (headerBlocks header).region 0

/-- A file that holds nothing but (part of) the headers. -/
def Bytes.Raw (header : SegmentHeader) (bytes : Bytes) : Prop :=
  ∀ spot, bytes.content spot = .zero ∨ bytes.content spot = .damaged ∨
    bytes.content spot = .header header

def Bytes.blank (geometry : Geometry) : Bytes := ⟨geometry.totalBlocks, fun _ => .zero⟩

/-- The new segment `file`: a whole file, zeros or what it was before, under the headers. -/
def Bytes.Headed (before : Disk) (file : Nat) (header : SegmentHeader) (bytes : Bytes) : Prop :=
  ∃ base : Bytes, ((file = before.next ∧ base = .blank header.geometry) ∨
      (file < before.next ∧ (before.files (.segment file)).Resolves base)) ∧
    base.size = header.geometry.totalBlocks ∧ bytes = base.written (headerRegion header)

theorem headerRegion_eq_some {header : SegmentHeader} {spot : Nat} {value : Content}
    (fresh : headerRegion header spot = some value) :
    spot < Geometry.persistStart ∧ (value = .zero ∨ value = .header header) := by
  obtain ⟨-, high, shape⟩ := Buf.region_eq_some.mp fresh
  simp only [headerBlocks, zero_add] at high shape
  refine ⟨high, ?_⟩
  split at shape
  · exact .inr shape.symm
  · exact .inl shape.symm

theorem Bytes.Raw.overlay {header : SegmentHeader} {base bytes : Bytes} (raw : base.Raw header)
    (overlay : base.Overlay (headerRegion header) bytes) : bytes.Raw header := by
  intro spot
  rcases overlay.content spot with same | ⟨value, fresh, landed | lost⟩
  · rw [same]
    exact raw spot
  · rw [landed]
    rcases (headerRegion_eq_some fresh).2 with zero | header
    · exact .inl zero
    · exact .inr (.inr header)
  · exact .inr (.inl lost)

theorem written_headers (base : Bytes) (header : SegmentHeader) :
    (base.written (headerRegion header)).content 0 = .header header ∧
      (base.written (headerRegion header)).content block = .header header ∧
      ∀ spot, Geometry.persistStart ≤ spot →
        (base.written (headerRegion header)).content spot = base.content spot := by
  refine ⟨rfl, rfl, fun spot low => ?_⟩
  have outside : headerRegion header spot = none := by
    cases fresh : headerRegion header spot with
    | none => rfl
    | some value =>
      have := (headerRegion_eq_some fresh).1
      omega
  simp [Bytes.written, outside]

theorem headers_within {geometry : Geometry} {file : File} (header : SegmentHeader)
    (whole : geometry.totalBlocks ≤ file.size) : file.Within 0 (headerBlocks header) := by
  have small : alignUp (0 + (headerBlocks header).len) block / block = 2 := by
    simp only [headerBlocks]
    decide
  unfold File.Within
  unfold Geometry.totalBlocks at whole
  omega

/-- What making the segment of `header` in `file` leaves. -/
structure Rolled (before after : Disk) (header : SegmentHeader) (file : Nat) : Prop where
  quiet : after.Quiet
  metaFile : after.names.metaFile = before.names.metaFile
  segments : after.names.segments = before.names.segments.insert header.firstBatch file
  files : ∀ id, id ≠ .segment file → after.files id = before.files id
  next : before.next ≤ after.next
  headed : ∀ bytes, (after.files (.segment file)).Resolves bytes → bytes.Headed before file header

theorem alter_eq_insert (names : NameMap) (first file : Nat) :
    (names.alter first fun _ => some file) = names.insert first file := by
  refine Std.ExtTreeMap.ext_getElem? fun other => ?_
  rw [Std.ExtTreeMap.getElem?_alter, Std.ExtTreeMap.getElem?_insert]

section Publish

variable {faulty : Prop} {P : Shot → Prop} {world : World} {header : SegmentHeader} {file : Nat}

variable (header file) in
theorem keeps_publish (present : Names → Bool) (change : Names → Names) (names : Names)
    (blind : Blind P) (sound : Sound faulty P world) (quiet : world.disk.Quiet)
    (there : present world.disk.names = true) (shape : change world.disk.names = names)
    (metaFile : names.metaFile = world.disk.names.metaFile)
    (segments : names.segments = world.disk.names.segments.insert header.firstBatch file)
    (backed : names.Backed world.disk)
    (renamed : ∀ shot, world.disk.Resolves shot →
      P (shot.withSegments (world.disk.names.segments.insert header.firstBatch file))) :
    Keeps faulty P (do
        alterNames present change
        syncDir
        let file ← openFile fun names => names.segments[header.firstBatch]?
        pure (Segment.fresh header.firstBatch header.prevBatch file header.geometry)) world
      (fun segment disk =>
        segment = Segment.fresh header.firstBatch header.prevBatch file header.geometry ∧
        disk = { world.disk with names := names, synced := names })
      fun _ _ => True := by
  have changed : Safe P { world.disk with names } := by
    refine .renameSegment blind sound.safe quiet header.firstBatch metaFile ?_ backed ?_
    · intro other apart
      rw [segments, Std.ExtTreeMap.getElem?_insert,
        if_neg (by simpa using Ne.symm apart)]
    · intro shot resolved
      rw [segments]
      exact renamed shot resolved
  refine (keeps_alterNames sound there (by rw [shape]; exact changed) fun _ _ _ => trivial).bind ?_
  rintro _ _ fates renameSound rfl
  rw [shape] at renameSound ⊢
  refine (keeps_syncDir renameSound fun _ _ => trivial).bind ?_
  rintro _ _ fates syncSound rfl
  have named : names.segments[header.firstBatch]? = some file := by
    rw [segments, Std.ExtTreeMap.getElem?_insert_self]
  refine (keeps_openFile syncSound named trivial).bind ?_
  rintro _ _ fates openSound ⟨rfl, rfl⟩
  exact .pure openSound ⟨rfl, rfl⟩

end Publish

section Adopt

variable {faulty : Prop} {P : Shot → Prop} {world : World} {header : SegmentHeader}
  {spare file : Nat}

theorem keeps_adopt (blind : Blind P) (sound : Sound faulty P world) (quiet : world.disk.Quiet)
    (there : world.disk.names.spares[spare]? = some file)
    (whole : faulty ∨ (world.disk.files (.segment file)).size = header.geometry.totalBlocks)
    (overlays : Absorbs P world.disk (.segment file) (headerRegion header))
    (born : ∀ shot bytes, world.disk.Resolves shot → bytes.Headed world.disk file header →
      P ((shot.setFile (.segment file) bytes).withSegments
        (world.disk.names.segments.insert header.firstBatch file))) :
    Keeps faulty P (Segment.adopt spare header) world
      (fun segment disk =>
        segment = Segment.fresh header.firstBatch header.prevBatch file header.geometry ∧
        Rolled world.disk disk header file)
      fun _ _ => True := by
  have grown := sound.safe.numbered.names.spares spare file there
  refine (Keeps.mapError (keeps_openFile sound there trivial)).bind ?_
  rintro file _ fates openSound ⟨rfl, rfl⟩
  refine (Keeps.mapError (keeps_query openSound trivial)).bind ?_
  rintro _ _ fates sizeSound ⟨rfl, rfl⟩
  by_cases size : (world.disk.files (.segment file)).size = header.geometry.totalBlocks
  · rw [if_neg (not_not.mpr size)]
    have within : (world.disk.files (.segment file)).Within 0 (headerBlocks header) :=
      headers_within header (le_of_eq size.symm)
    refine .mapError ((keeps_writeBlocksDurable sizeSound within overlays
      fun _ => trivial).bind ?_)
    rintro _ _ fates writeSound rfl
    set written := (((world.disk.files (.segment file)).write 0 (headerBlocks header)).flush 0
      (headerBlocks header).len) with shape
    have headed : ∀ bytes, written.Resolves bytes → bytes.Headed world.disk file header := by
      intro bytes resolved
      obtain ⟨base, before, rfl⟩ := File.Resolves.of_durable within resolved
      refine ⟨base, .inr ⟨grown.1, before⟩, ?_, rfl⟩
      rcases before.1 with same | same
      · exact same.trans size
      · exact (same.trans grown.2).trans size
    have present : world.disk.names.spares.contains spare = true := by
      rw [Std.ExtTreeMap.contains_eq_isSome_getElem?, there]
      rfl
    let names : Names := { world.disk.names with
      spares := world.disk.names.spares.erase spare
      segments := world.disk.names.segments.insert header.firstBatch file }
    have backed : names.Backed (world.disk.setFile (.segment file) written) := by
      have before := writeSound.safe.numbered.names
      refine ⟨fun first number found => ?_, fun other number found => ?_⟩
      · rcases NameMap.of_insert found with ⟨-, rfl⟩ | old
        · exact before.spares spare number there
        · exact before.segments first number old
      · exact before.spares other number (NameMap.of_erase found).2
    have published := keeps_publish header file (fun names => names.spares.contains spare)
      (fun names => { names with
        spares := names.spares.erase spare
        segments := names.segments.alter header.firstBatch fun _ => names.spares[spare]? })
      names blind writeSound ⟨quiet.metaFile, quiet.segments⟩ present
      (by simp only [Disk.setFile_names, there, alter_eq_insert, names]) rfl rfl backed ?_
    · refine published.post ?_
      rintro segment disk - ⟨rfl, rfl⟩
      refine ⟨rfl, ⟨⟨rfl, rfl⟩, rfl, rfl, fun id apart => ?_, le_refl _, ?_⟩⟩
      · exact Disk.setFile_other _ apart _
      · intro bytes resolved
        refine headed bytes ?_
        simpa [Disk.setFile] using resolved
    · intro shot resolved
      have visible := (world.disk.files (.segment file)).resolves_visible
      obtain ⟨before, own⟩ := resolved.of_setFile visible
      have whole := born _ _ before (headed _ own)
      simpa [Shot.withSegments, Shot.setFile] using whole
  · rw [if_pos size]
    exact .fail sizeSound (whole.resolve_right size) trivial

end Adopt

/-- A new segment file: `disk` differs from `before` in that file and in temporary names only. -/
structure Growing (before disk : Disk) (first : Nat) (file : File) : Prop where
  synced : disk.synced = before.synced
  metaFile : disk.names.metaFile = before.names.metaFile
  segments : disk.names.segments = before.names.segments
  spares : disk.names.spares = before.names.spares
  temporary : disk.names.temporaries[first]? = some before.next
  files : ∀ id, id ≠ .segment before.next → disk.files id = before.files id
  file : disk.files (.segment before.next) = file
  next : disk.next = before.next + 1

namespace Growing

variable {before disk : Disk} {first : Nat} {file : File}

section

variable (growing : Growing before disk first file)

include growing

theorem setFile (after : File) :
    Growing before (disk.setFile (.segment before.next) after) first after :=
  { growing with
    files := fun id apart => by rw [Disk.setFile_other _ apart, growing.files id apart]
    file := Disk.setFile_same _ _ _ }

theorem quiet (quiet : before.Quiet) : disk.Quiet :=
  ⟨by rw [growing.synced, growing.metaFile, quiet.metaFile],
    by rw [growing.synced, growing.segments, quiet.segments]⟩

theorem grown {number : Nat}
    (grown : before.Grown number) : disk.Grown number := by
  have below := grown.1
  refine ⟨by rw [growing.next]; omega, ?_⟩
  rw [growing.files _ (by simp only [ne_eq, FileId.segment.injEq]; omega)]
  exact grown.2

theorem numbered (numbered : before.Numbered) :
    disk.Numbered := by
  refine ⟨by rw [growing.synced]; exact numbered.synced.mono fun _ => growing.grown, ?_⟩
  have names : before.names.Backed disk := numbered.names.mono fun _ => growing.grown
  exact ⟨by rw [growing.segments]; exact names.segments,
    by rw [growing.spares]; exact names.spares⟩

theorem shot {shot : Shot}
    (resolved : disk.Resolves shot) :
    file.Resolves (shot.files (.segment before.next)) ∧
      ∃ base, before.Resolves base ∧ base.names.metaFile = shot.names.metaFile ∧
        base.names.segments = shot.names.segments ∧
        (base.setFile (.segment before.next) (shot.files (.segment before.next))).files =
          shot.files := by
  have own := resolved.files (.segment before.next)
  rw [growing.file] at own
  refine ⟨own, ⟨{ before.names with
    metaFile := shot.names.metaFile, segments := shot.names.segments },
    Function.update shot.files (.segment before.next)
      (before.files (.segment before.next)).visible⟩, ⟨⟨?_, .inr rfl, fun first => ?_,
        fun _ => .inr rfl, fun _ => .inr rfl⟩, fun id => ?_⟩, rfl, rfl, ?_⟩
  · have either := resolved.names.metaFile
    rw [growing.synced, growing.metaFile] at either
    exact either
  · have either := resolved.names.segments first
    rw [growing.synced, growing.segments] at either
    exact either
  · by_cases same : id = .segment before.next
    · rw [same]
      simpa using (before.files (.segment before.next)).resolves_visible
    · have other := resolved.files id
      rw [growing.files id same] at other
      simpa [Function.update_of_ne same] using other
  · simp [Shot.setFile]

end

theorem safe {P : Shot → Prop} {header : SegmentHeader} (growing : Growing before disk first file)
    (blind : Blind P) (numbered : before.Numbered)
    (grows : ∀ shot bytes, before.Resolves shot → bytes.Raw header →
      P (shot.setFile (.segment before.next) bytes))
    (raw : ∀ bytes, file.Resolves bytes → bytes.Raw header) : Safe P disk := by
  refine ⟨growing.numbered numbered, fun shot resolved => ?_⟩
  obtain ⟨own, base, resolvedBase, metaFile, segments, files⟩ := growing.shot resolved
  have holds := grows base _ resolvedBase (raw _ own)
  have moved := blind (base.setFile (.segment before.next) (shot.files (.segment before.next)))
    shot.names metaFile.symm segments.symm holds
  rwa [files] at moved

end Growing

section Create

variable {faulty : Prop} {P : Shot → Prop} {world : World} {header : SegmentHeader}

private theorem raw_empty (blocks : Nat) {bytes : Bytes}
    (resolved : (File.empty.allocate blocks).Resolves bytes) : bytes.Raw header := by
  intro spot
  have content : bytes.content = fun _ => .zero := Image.resolves_settled.mp resolved.2
  rw [content]
  exact .inl rfl

private theorem raw_written {file : File} {bytes : Bytes}
    (raw : ∀ bytes, file.Resolves bytes → bytes.Raw header)
    (overlays : ∃ base, file.Resolves base ∧ base.Overlay (headerRegion header) bytes) :
    bytes.Raw header := by
  obtain ⟨base, before, overlay⟩ := overlays
  exact (raw base before).overlay overlay

private def fileFilled (header : SegmentHeader) : File :=
  ((File.empty.allocate header.geometry.totalBlocks).write 0 (headerBlocks header)).sync

private theorem filled_eq {bytes : Bytes} (resolved : (fileFilled header).Resolves bytes) :
    bytes = (Bytes.blank header.geometry).written (headerRegion header) := by
  have within : (File.empty.allocate header.geometry.totalBlocks).Within 0 (headerBlocks header) :=
    headers_within header (le_max_right _ _)
  have size : ((File.empty.allocate header.geometry.totalBlocks).write 0
      (headerBlocks header)).size = header.geometry.totalBlocks := by
    rw [within.size]
    exact Nat.max_eq_right (Nat.zero_le _)
  have visible := resolved.sync_eq
  rw [visible]
  simp only [File.visible, size, Bytes.written, Bytes.blank, Bytes.mk.injEq, true_and]
  funext spot
  exact Image.visible_write ..

section

variable {before : Disk} (blind : Blind P) (sound : Sound faulty P world)
  (numbered : before.Numbered) (growing : Growing before world.disk header.firstBatch .empty)
  (grows : ∀ shot bytes, before.Resolves shot → bytes.Raw header →
    P (shot.setFile (.segment before.next) bytes))

include blind sound numbered growing grows

private theorem keeps_fillNew :
    Keeps faulty P (Segment.fillNew before.next header.geometry header) world
      (fun _ disk => Growing before disk header.firstBatch (fileFilled header))
      fun _ _ => True := by
  have safe : ∀ disk file, Growing before disk header.firstBatch file →
      (∀ bytes, file.Resolves bytes → bytes.Raw header) → Safe P disk :=
    fun disk file growing raw => growing.safe blind numbered grows raw
  have raw : ∀ bytes, (File.empty.allocate header.geometry.totalBlocks).Resolves bytes →
      bytes.Raw header := fun _ => raw_empty _
  have within : (File.empty.allocate header.geometry.totalBlocks).Within 0 (headerBlocks header) :=
    headers_within header (le_max_right _ _)
  have allocated := growing.setFile (File.empty.allocate header.geometry.totalBlocks)
  refine (keeps_allocate sound (fun _ _ => trivial) ?_).bind ?_
  · rw [growing.file]
    exact safe _ _ allocated raw
  rintro _ _ fates allocateSound rfl
  rw [growing.file] at allocateSound ⊢
  refine (keeps_extend allocateSound ?_ ?_ fun _ _ => trivial).bind ?_
  · rw [Disk.setFile_same]
    exact safe _ _ (allocated.setFile _) fun _ resolved =>
      raw_written raw (File.Resolves.of_write within resolved)
  · intro fault
    rw [Disk.setFile_same]
    exact safe _ _ (allocated.setFile _) fun _ resolved =>
      raw_written raw (File.Resolves.of_writePartway within resolved)
  rintro _ _ fates writeSound rfl
  refine (keeps_syncFile writeSound fun _ _ => trivial).post ?_
  rintro _ _ - rfl
  simp only [Disk.setFile_same, Disk.setFile_setFile]
  exact growing.setFile _

private theorem keeps_fillOrDelete :
    Keeps faulty P (Segment.fillOrDelete before.next header.geometry header) world
      (fun _ disk => Growing before disk header.firstBatch (fileFilled header))
      fun _ _ => True := by
  refine (Keeps.attempt (keeps_fillNew blind sound numbered growing grows)).bind ?_
  rintro (error | _) disk fates fillSound filled
  · refine (Keeps.attempt (keeps_dropTemporary blind fillSound (.inl filled.1))).bind ?_
    intro _ _ _ dropSound _
    exact .fail dropSound filled.1 trivial
  · exact .pure fillSound filled

end

theorem keeps_createSegment (blind : Blind P) (sound : Sound faulty P world)
    (quiet : world.disk.Quiet)
    (grows : ∀ shot bytes, world.disk.Resolves shot → bytes.Raw header →
      P (shot.setFile (.segment world.disk.next) bytes))
    (born : ∀ shot bytes, world.disk.Resolves shot →
      bytes.Headed world.disk world.disk.next header →
      P ((shot.setFile (.segment world.disk.next) bytes).withSegments
        (world.disk.names.segments.insert header.firstBatch world.disk.next))) :
    Keeps faulty P (Segment.create header) world
      (fun segment disk =>
        segment = Segment.fresh header.firstBatch header.prevBatch world.disk.next
          header.geometry ∧
        Rolled world.disk disk header world.disk.next)
      fun _ _ => True := by
  have numbered := sound.safe.numbered
  refine .mapError ((keeps_query sound trivial).bind ?_)
  rintro left _ fates querySound ⟨leftShape, rfl⟩
  have cleaned : Keeps faulty P (Proc.when left (Segment.dropTemporary header.firstBatch))
      ⟨world.disk, fates⟩ (fun _ disk => ∃ temporaries, disk = { world.disk with
        names := { world.disk.names with temporaries } }) fun _ _ => True := by
    refine .when querySound (fun found => ?_) fun _ => ⟨_, rfl⟩
    refine (keeps_dropTemporary blind querySound (.inr (leftShape ▸ found))).post ?_
    rintro _ _ - rfl
    exact ⟨_, rfl⟩
  refine cleaned.bind ?_
  rintro _ _ fates cleanSound ⟨temporaries, rfl⟩
  have growing : Growing world.disk (Disk.created { world.disk with
      names := { world.disk.names with temporaries } } .segment fun number names =>
        { names with temporaries := names.temporaries.insert header.firstBatch number })
      header.firstBatch .empty :=
    ⟨rfl, rfl, rfl, rfl, Std.ExtTreeMap.getElem?_insert_self,
      fun id apart => Disk.setFile_other _ apart _, Disk.setFile_same _ _ _, rfl⟩
  refine (keeps_createFile cleanSound (fun _ _ => trivial) ?_).bind ?_
  · exact growing.safe blind numbered grows fun _ resolved => raw_empty 0 resolved
  rintro _ _ fates createSound ⟨rfl, rfl⟩
  refine (keeps_fillOrDelete blind createSound numbered growing grows).bind ?_
  intro _ disk fates fillSound filled
  have present : disk.names.temporaries.contains header.firstBatch = true := by
    rw [Std.ExtTreeMap.contains_eq_isSome_getElem?, filled.temporary]
    rfl
  have headed : ∀ bytes, (fileFilled header).Resolves bytes →
      bytes.Headed world.disk world.disk.next header := fun bytes resolved =>
    ⟨.blank header.geometry, .inl ⟨rfl, rfl⟩, rfl, filled_eq resolved⟩
  let names : Names := { disk.names with
    temporaries := disk.names.temporaries.erase header.firstBatch
    segments := disk.names.segments.insert header.firstBatch world.disk.next }
  have grown : disk.Grown world.disk.next := by
    refine ⟨by rw [filled.next]; omega, ?_⟩
    rw [filled.file]
    rfl
  have backed : names.Backed disk := by
    have before := fillSound.safe.numbered.names
    refine ⟨fun first number found => ?_, before.spares⟩
    rcases NameMap.of_insert found with ⟨-, rfl⟩ | old
    · exact grown
    · exact before.segments first number old
  have published := keeps_publish header world.disk.next
    (fun names => names.temporaries.contains header.firstBatch)
    (fun names => { names with
      temporaries := names.temporaries.erase header.firstBatch
      segments := names.segments.alter header.firstBatch fun _ =>
        names.temporaries[header.firstBatch]? })
    names blind fillSound (filled.quiet quiet) present
    (by simp only [filled.temporary, alter_eq_insert, names]) rfl rfl backed ?_
  · refine published.post ?_
    rintro segment _ - ⟨rfl, rfl⟩
    refine ⟨rfl, ⟨rfl, rfl⟩, filled.metaFile, ?_, filled.files, ?_, ?_⟩
    · simp only [names, filled.segments]
    · simp only [filled.next]
      omega
    · intro bytes resolved
      simp only [filled.file] at resolved
      exact headed bytes resolved
  · intro shot resolved
    obtain ⟨own, base, before, metaFile, segments, files⟩ := filled.shot resolved
    have whole := born base _ before (headed _ own)
    have moved := blind ((base.setFile (.segment world.disk.next)
      (shot.files (.segment world.disk.next))).withSegments
        (world.disk.names.segments.insert header.firstBatch world.disk.next))
      (shot.withSegments (world.disk.names.segments.insert header.firstBatch
        world.disk.next)).names metaFile.symm rfl whole
    rw [filled.segments]
    simpa [Shot.withSegments, files] using moved

end Create

end Moonpool.Journal
