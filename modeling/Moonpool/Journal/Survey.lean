import Moonpool.Journal.Names
import Moonpool.Journal.Journal

/-!
Owns the first steps of an open under the crash invariant: listing the directory, keeping
one spare, opening the listed segments.  Only names that recovery does not look at change.
-/

namespace Moonpool.Journal

open Lib List

/-- `after` is `before` but for names recovery does not look at, and the others are
durable. -/
structure Disk.Tidied (before after : Disk) : Prop where
  quiet : after.Quiet
  metaFile : after.names.metaFile = before.names.metaFile
  segments : after.names.segments = before.names.segments
  files : after.files = before.files
  next : after.next = before.next

section Tidy

variable {faulty : Prop} {P : Shot → Prop} {world : World}

theorem keeps_alterUnseen {change : Names → Names} (blind : Blind P) (sound : Sound faulty P world)
    (metaFile : (change world.disk.names).metaFile = world.disk.names.metaFile)
    (segments : (change world.disk.names).segments = world.disk.names.segments)
    (backed : (change world.disk.names).Backed world.disk) :
    Keeps faulty P (alterNames (fun _ => true) change) world
      (fun _ disk => disk = { world.disk with names := change world.disk.names })
      fun _ _ => True :=
  (keeps_alterNames_maybe sound (.inr rfl)
    (Safe.renameUnseen blind sound.safe metaFile segments backed)).post
      fun _ _ _ shape => shape.2

theorem keeps_deleteTemporaries (blind : Blind P) {firsts : List Nat} :
    ∀ {world : World}, Sound faulty P world →
      Keeps faulty P (deleteTemporaries firsts) world
        (fun _ disk => ∃ temporaries, disk = { world.disk with
          names := { world.disk.names with temporaries } }) fun _ _ => True := by
  induction firsts with
  | nil => exact fun sound => Keeps.pure sound ⟨_, rfl⟩
  | cons first rest ih =>
    intro world sound
    have backed := sound.safe.numbered.names
    refine (keeps_alterUnseen blind sound rfl rfl ⟨backed.segments, backed.spares⟩).bind ?_
    rintro _ _ fates dropSound rfl
    refine (ih dropSound).post ?_
    rintro _ _ - ⟨temporaries, rfl⟩
    exact ⟨temporaries, rfl⟩

theorem keeps_removeLeftover_blind (blind : Blind P) (sound : Sound faulty P world) :
    Keeps faulty P MetaFile.removeLeftover world
      (fun _ disk => ∃ metaTmp, disk = { world.disk with
        names := { world.disk.names with metaTmp } }) fun _ _ => True := by
  refine (keeps_query sound trivial).bind ?_
  rintro _ _ fates querySound ⟨rfl, rfl⟩
  refine .when querySound (fun found => ?_) fun _ => ⟨_, rfl⟩
  have backed := querySound.safe.numbered.names
  refine (keeps_alterNames_maybe querySound (.inr found)
    (Safe.renameUnseen blind querySound.safe rfl rfl ⟨backed.segments, backed.spares⟩)).post ?_
  rintro _ _ - ⟨-, rfl⟩
  exact ⟨_, rfl⟩

theorem keeps_listSegments (blind : Blind P) (sound : Sound faulty P world) :
    Keeps faulty P listSegments world
      (fun listing disk =>
        listing = ⟨world.disk.names.segments.keys, world.disk.names.spares.keys⟩ ∧
        disk.names.spares = world.disk.names.spares ∧ world.disk.Tidied disk)
      fun _ _ => True := by
  refine .mapError ((keeps_query sound trivial).bind ?_)
  rintro _ _ fates querySound ⟨rfl, rfl⟩
  refine (keeps_syncDir querySound fun _ _ => trivial).bind ?_
  rintro _ _ fates syncSound rfl
  refine (keeps_removeLeftover_blind blind syncSound).bind ?_
  rintro _ _ fates leftoverSound ⟨metaTmp, rfl⟩
  refine (keeps_deleteTemporaries blind leftoverSound).bind ?_
  rintro _ _ fates cleanSound ⟨temporaries, rfl⟩
  exact .pure cleanSound ⟨rfl, rfl, ⟨rfl, rfl⟩, rfl, rfl, rfl, rfl⟩

end Tidy

section Spares

variable {faulty : Prop} {P : Shot → Prop} {id : JournalId} {geometry : Geometry}
  {firsts : List Nat}

/-- The spare is a whole segment file whose headers name no listed segment. -/
def KeptSpare (id : JournalId) (geometry : Geometry) (firsts : List Nat) (disk : Disk)
    (spare : Nat) : Prop :=
  ∃ file, disk.names.spares[spare]? = some file ∧
    (disk.files (.segment file)).size = geometry.totalBlocks ∧
    ∀ batch ∈ namedBatches (disk.files (.segment file)).data.visible id, batch ∉ firsts

theorem keeps_spareUsable {world : World} {spare file : Nat} (sound : Sound faulty P world)
    (there : world.disk.names.spares[spare]? = some file) :
    Keeps faulty P (spareUsable id geometry firsts spare) world
      (fun usable disk => disk = world.disk ∧
        (usable = true → KeptSpare id geometry firsts world.disk spare)) fun _ _ => True := by
  refine (Keeps.mapError (keeps_openFile sound there trivial)).bind ?_
  rintro file _ fates openSound ⟨rfl, rfl⟩
  refine (Keeps.mapError (keeps_query openSound trivial)).bind ?_
  rintro _ _ fates sizeSound ⟨rfl, rfl⟩
  by_cases size : (world.disk.files (.segment file)).size = geometry.totalBlocks
  · rw [if_neg (not_not.mpr size)]
    refine (Keeps.mapError (keeps_query sizeSound trivial)).bind ?_
    rintro _ _ fates contentSound ⟨rfl, rfl⟩
    refine .pure contentSound ⟨rfl, fun usable => ⟨file, there, size, ?_⟩⟩
    intro batch named listed
    rw [Bool.not_eq_true', any_eq_false] at usable
    exact usable batch named (by simpa using listed)
  · rw [if_pos size]
    exact .pure sizeSound ⟨rfl, nofun⟩

structure Surveying (id : JournalId) (geometry : Geometry) (firsts : List Nat) (disk : Disk)
    (spares : List Nat) (kept : Option Nat) : Prop where
  quiet : disk.Quiet
  there : ∀ spare ∈ spares, ∃ file, disk.names.spares[spare]? = some file
  nodup : spares.Nodup
  kept : ∀ spare, kept = some spare →
    spare ∉ spares ∧ KeptSpare id geometry firsts disk spare

theorem Surveying.drop {disk : Disk} {spare : Nat} {spares : List Nat} {kept : Option Nat}
    (surveying : Surveying id geometry firsts disk (spare :: spares) kept) :
    Surveying id geometry firsts { disk with names := { disk.names with
      spares := disk.names.spares.erase spare } } spares kept := by
  have apart : ∀ other, other ≠ spare →
      (disk.names.spares.erase spare)[other]? = disk.names.spares[other]? := by
    intro other apart
    rw [Std.ExtTreeMap.getElem?_erase, if_neg (by simpa using Ne.symm apart)]
  have fresh := nodup_cons.mp surveying.nodup
  refine ⟨⟨surveying.quiet.metaFile, surveying.quiet.segments⟩, fun other member => ?_,
    fresh.2, fun other same => ?_⟩
  · obtain ⟨file, there⟩ := surveying.there other (mem_cons_of_mem _ member)
    refine ⟨file, ?_⟩
    rw [← there]
    exact apart other fun same => fresh.1 (same ▸ member)
  · obtain ⟨outside, file, there, rest⟩ := surveying.kept other same
    refine ⟨fun member => outside (mem_cons_of_mem _ member), file, ?_, rest⟩
    rw [← there]
    exact apart other fun same => outside (same ▸ mem_cons_self)

theorem keeps_keepOneSpare (blind : Blind P) {spares : List Nat} :
    ∀ {world : World} {kept : Option Nat} {removed : Nat}, Sound faulty P world →
      Surveying id geometry firsts world.disk spares kept →
      Keeps faulty P (keepOneSpare id geometry firsts spares kept removed) world
        (fun result disk => world.disk.Tidied disk ∧
          ∀ spare, result.1 = some spare → KeptSpare id geometry firsts disk spare)
        fun _ _ => True := by
  induction spares with
  | nil =>
    intro world kept removed sound surveying
    have synced : Keeps faulty P (Proc.when (decide (0 < removed)) (viaOpen syncDir)) world
        (fun _ disk => world.disk.Tidied disk ∧ disk.names = world.disk.names)
        fun _ _ => True := by
      refine .when sound (fun _ => ?_)
        fun _ => ⟨⟨surveying.quiet, rfl, rfl, rfl, rfl⟩, rfl⟩
      refine .mapError ((keeps_syncDir sound fun _ _ => trivial).post ?_)
      rintro _ _ - rfl
      exact ⟨⟨⟨rfl, rfl⟩, rfl, rfl, rfl, rfl⟩, rfl⟩
    refine synced.bind ?_
    rintro _ disk fates syncSound ⟨tidied, names⟩
    refine .pure syncSound ⟨tidied, fun spare same => ?_⟩
    have := (surveying.kept spare same).2
    unfold KeptSpare at this ⊢
    rw [names, tidied.files]
    exact this
  | cons spare rest ih =>
    intro world kept removed sound surveying
    obtain ⟨file, there⟩ := surveying.there spare mem_cons_self
    have judged : Keeps faulty P
        (if kept.isNone then spareUsable id geometry firsts spare else pure false) world
        (fun usable disk => disk = world.disk ∧ (usable = true → kept = none ∧
          KeptSpare id geometry firsts world.disk spare)) fun _ _ => True := by
      cases kept with
      | none =>
        refine (keeps_spareUsable sound there).post ?_
        rintro usable _ - ⟨rfl, usable⟩
        exact ⟨rfl, fun taken => ⟨rfl, usable taken⟩⟩
      | some kept => exact .pure sound ⟨rfl, nofun⟩
    refine judged.bind ?_
    rintro usable _ fates judgeSound ⟨rfl, taken⟩
    cases usable with
    | true =>
      obtain ⟨-, whole⟩ := taken rfl
      refine ih judgeSound ⟨surveying.quiet,
        fun other member => surveying.there other (mem_cons_of_mem _ member),
        (nodup_cons.mp surveying.nodup).2, ?_⟩
      rintro other ⟨⟩
      exact ⟨(nodup_cons.mp surveying.nodup).1, whole⟩
    | false =>
      have before := judgeSound.safe.numbered.names
      refine (Keeps.mapError (keeps_alterUnseen blind judgeSound rfl rfl
        ⟨before.segments, fun other number found => ?_⟩)).bind ?_
      · exact before.spares other number (NameMap.of_erase found).2
      rintro _ _ fates dropSound rfl
      refine (ih dropSound surveying.drop).post ?_
      rintro result disk - ⟨tidied, whole⟩
      exact ⟨{ tidied with }, whole⟩

end Spares

structure Bytes.Heads (header : SegmentHeader) (bytes : Bytes) : Prop where
  size : bytes.size = header.geometry.totalBlocks
  first : bytes.content 0 = .header header
  second : bytes.content block = .header header

/-- One segment of the log: its name, the batch before it and its file. -/
structure SegmentLog where
  first : Nat
  prev : Nat
  file : Nat

def SegmentLog.opened (geometry : Geometry) (part : SegmentLog) : Segment :=
  Segment.fresh part.first part.prev part.file geometry

def SegmentLog.header (id : JournalId) (geometry : Geometry) (part : SegmentLog) : SegmentHeader :=
  ⟨id, part.first, part.prev, geometry⟩

section Open

variable {faulty : Prop} {P : Shot → Prop} {id : JournalId} {geometry : Geometry}

theorem keeps_openAt {world : World} {part : SegmentLog} (sound : Sound faulty P world)
    (there : world.disk.names.segments[part.first]? = some part.file)
    (heads : (world.disk.files (.segment part.file)).visible.Heads (part.header id geometry)) :
    Keeps faulty P (Segment.openAt part.first id geometry) world
      (fun result disk => result = (part.opened geometry, false) ∧ disk = world.disk)
      fun _ _ => True := by
  refine (Keeps.mapError (keeps_openFile sound there trivial)).bind ?_
  rintro _ _ fates openSound ⟨rfl, rfl⟩
  refine (Keeps.mapError (keeps_query openSound trivial)).bind ?_
  rintro _ _ fates sizeSound ⟨rfl, rfl⟩
  have size : (world.disk.files (.segment part.file)).size = geometry.totalBlocks := heads.size
  rw [if_neg (not_not.mpr size)]
  refine (Keeps.mapError (keeps_query sizeSound trivial)).bind ?_
  rintro _ _ fates contentSound ⟨rfl, rfl⟩
  have chosen : Segment.chooseHeader part.first
      ((world.disk.files (.segment part.file)).data.visible 0).asHeader
      ((world.disk.files (.segment part.file)).data.visible block).asHeader =
      .ok (part.header id geometry, none) := by
    have first : (world.disk.files (.segment part.file)).data.visible 0 = _ := heads.first
    have second : (world.disk.files (.segment part.file)).data.visible block = _ := heads.second
    rw [first, second]
    simp [Content.asHeader, Segment.chooseHeader]
  refine (Keeps.lift chosen contentSound).bind ?_
  rintro _ _ fates chooseSound ⟨rfl, rfl⟩
  have checked : Segment.checkHeader part.first id geometry (part.header id geometry) = .ok () := by
    simp [Segment.checkHeader, SegmentLog.header]
  refine (Keeps.lift checked chooseSound).bind ?_
  rintro _ _ fates checkSound ⟨rfl, rfl⟩
  refine (Keeps.mapError (Keeps.returns checkSound)).bind ?_
  rintro _ _ fates repairSound ⟨-, rfl⟩
  exact .pure repairSound ⟨rfl, rfl⟩

theorem keeps_openSegments {parts : List SegmentLog} : ∀ {world : World}, Sound faulty P world →
    (∀ part ∈ parts, world.disk.names.segments[part.first]? = some part.file ∧
      (world.disk.files (.segment part.file)).visible.Heads (part.header id geometry)) →
    Keeps faulty P (openSegments id geometry (parts.map (·.first))) world
      (fun result disk => result.1 = parts.map (SegmentLog.opened geometry) ∧
        disk = world.disk) fun _ _ => True := by
  induction parts with
  | nil => exact fun sound _ => Keeps.pure sound ⟨rfl, rfl⟩
  | cons part rest ih =>
    intro world sound each
    obtain ⟨there, heads⟩ := each part mem_cons_self
    refine (keeps_openAt sound there heads).bind ?_
    rintro _ _ fates openSound ⟨rfl, rfl⟩
    refine (ih openSound fun other member =>
      each other (mem_cons_of_mem _ member)).bind ?_
    rintro ⟨segments, count⟩ _ fates restSound ⟨rfl, rfl⟩
    exact .pure restSound ⟨rfl, rfl⟩

end Open

end Moonpool.Journal
