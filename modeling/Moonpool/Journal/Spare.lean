import Moonpool.Journal.MetaCrash
import Moonpool.Journal.Protocol
import Moonpool.Journal.Retire
import Moonpool.Journal.Survey
import Moonpool.Journal.Extent

/-!
Owns the safety of spares over whole runs: the file kept as spare is behind no segment's
name, so adopting it never overwrites the header of a segment.

The crash invariant is `Named`: every listed segment is a whole file whose headers name it.
It is kept by every call of the journal, whether it succeeds, fails or is cut, and in every
generation.
-/

namespace Moonpool.Journal

open Lib

set_option linter.dupNamespace false

/-- Every listed segment is a whole file whose headers name it. -/
def Named (id : JournalId) (geometry : Geometry) (shot : Shot) : Prop :=
  ∀ first file : Nat, shot.names.segments[first]? = some file →
    ∃ prev, (shot.files (.segment file)).Heads ⟨id, first, prev, geometry⟩

section Named

variable {id : JournalId} {geometry : Geometry} {shot : Shot} {file : Nat} {bytes : Bytes}

theorem named_blind : Blind (Named id geometry) := by
  intro shot names _ segments named first file listed
  exact named first file (by rw [← segments]; exact listed)

section

variable (named : Named id geometry shot)

include named

theorem Named.unique {first other : Nat}
    (listed : shot.names.segments[first]? = some file)
    (again : shot.names.segments[other]? = some file) : first = other := by
  obtain ⟨prev, heads⟩ := named first file listed
  obtain ⟨prevAgain, headsAgain⟩ := named other file again
  have same := heads.first.symm.trans headsAgain.first
  cases same
  rfl

theorem Named.unlisted (absent : ∀ first : Nat, shot.names.segments[first]? ≠ some file) :
    Named id geometry (shot.setFile (.segment file) bytes) := by
  intro first number listed
  obtain ⟨prev, heads⟩ := named first number listed
  have apart : FileId.segment number ≠ .segment file := by
    rintro ⟨⟩
    exact absent first listed
  rw [Shot.setFile_other _ apart]
  exact ⟨prev, heads⟩

theorem Named.past {region : Nat → Option Content}
    (beyond : ∀ spot value, region spot = some value → Geometry.persistStart ≤ spot)
    (overlay : (shot.files (.segment file)).Overlay region bytes) :
    Named id geometry (shot.setFile (.segment file) bytes) := by
  have kept : ∀ spot, spot < Geometry.persistStart →
      bytes.content spot = (shot.files (.segment file)).content spot := by
    intro spot low
    rcases overlay.content spot with same | ⟨value, fresh, -⟩
    · exact same
    · have := beyond spot value fresh
      omega
  intro first number listed
  obtain ⟨prev, heads⟩ := named first number listed
  by_cases same : number = file
  · subst same
    rw [Shot.setFile_same]
    exact ⟨prev, by rw [overlay.size]; exact heads.size,
      by rw [kept 0 (by decide)]; exact heads.first,
      by rw [kept block (by decide)]; exact heads.second⟩
  · rw [Shot.setFile_other _ (by simpa using same)]
    exact ⟨prev, heads⟩

theorem Named.born {names : NameMap} {first prev : Nat}
    (same : shot.names.segments = names) (heads : bytes.Heads ⟨id, first, prev, geometry⟩)
    (absent : ∀ other : Nat, shot.names.segments[other]? ≠ some file) :
    Named id geometry
      ((shot.setFile (.segment file) bytes).withSegments (names.insert first file)) := by
  intro other number listed
  change (names.insert first file)[other]? = some number at listed
  rcases NameMap.of_insert listed with ⟨rfl, rfl⟩ | listed
  · exact ⟨prev, by simpa [Shot.withSegments] using heads⟩
  · exact named.unlisted absent other number (same ▸ listed)

theorem Named.erase {names : NameMap} (first : Nat)
    (same : shot.names.segments = names) :
    Named id geometry (shot.withSegments (names.erase first)) := by
  intro other number listed
  change (names.erase first)[other]? = some number at listed
  exact named other number (by rw [same]; exact (NameMap.of_erase listed).2)

end

end Named

def Deaf (P : Shot → Prop) : Prop :=
  ∀ (shot : Shot) (number : Nat) (bytes : Bytes), P shot → P (shot.setFile (.info number) bytes)

structure Disk.OffInfo (before after : Disk) : Prop where
  names : after.names = before.names
  synced : after.synced = before.synced
  next : after.next = before.next
  files : ∀ number, after.files (.segment number) = before.files (.segment number)

theorem Disk.OffInfo.refl (disk : Disk) : disk.OffInfo disk := ⟨rfl, rfl, rfl, fun _ => rfl⟩

theorem Disk.OffInfo.trans {one two three : Disk} (first : one.OffInfo two)
    (second : two.OffInfo three) : one.OffInfo three :=
  ⟨second.names.trans first.names, second.synced.trans first.synced,
    second.next.trans first.next,
    fun number => (second.files number).trans (first.files number)⟩

theorem Disk.offInfo_setFile (disk : Disk) (number : Nat) (file : File) :
    disk.OffInfo (disk.setFile (.info number) file) :=
  ⟨rfl, rfl, rfl, fun _ => Disk.setFile_other _ (by simp) _⟩

section Deaf

variable {faulty : Prop} {P : Shot → Prop} {world : World}

theorem Safe.setInfo {disk : Disk} (deaf : Deaf P) (safe : Safe P disk) (number : Nat)
    (file : File) : Safe P (disk.setFile (.info number) file) := by
  have grown : ∀ other, disk.Grown other → (disk.setFile (.info number) file).Grown other :=
    fun other grown => ⟨grown.1, by
      exact grown.2⟩
  refine ⟨⟨safe.numbered.synced.mono grown, safe.numbered.names.mono grown⟩,
    fun shot resolved => ?_⟩
  obtain ⟨before, -⟩ := resolved.of_setFile (disk.files (.info number)).resolves_visible
  have kept := deaf _ number (shot.files (.info number)) (safe.shots _ before)
  rwa [Shot.setFile_setFile, Shot.setFile_self] at kept

section

variable (deaf : Deaf P) (sound : Sound faulty P world)

include deaf sound

theorem keeps_writeInfo (number offset : Nat)
    (buf : Buf) :
    Keeps faulty P (writeBlocksDurable (.info number) offset buf) world
      (fun _ disk => world.disk.OffInfo disk) fun _ _ => True := by
  refine keeps_call sound ?_ (sound.safe.setInfo deaf number _)
    (fun _ => sound.safe.setInfo deaf number _) (fun _ => trivial)
    (world.disk.offInfo_setFile number _)
  intro effect member
  rw [List.mem_singleton.mp member]
  exact sound.safe.setInfo deaf number _

theorem keeps_syncInfo (number : Nat) :
    Keeps faulty P (syncFile (.info number)) world (fun _ disk => world.disk.OffInfo disk)
      fun _ _ => True := by
  refine keeps_call sound nofun
    (sound.safe.setInfo deaf number _) (fun _ => sound.safe.setInfo deaf number _)
    (fun _ => trivial) (world.disk.offInfo_setFile number _)

theorem keeps_updateInfo (number : Nat)
    (info : Meta) :
    Keeps faulty P (MetaFile.update number info) world (fun _ disk => world.disk.OffInfo disk)
      fun _ _ => True := by
  refine (keeps_writeInfo deaf sound number _ _).bind ?_
  intro _ disk fates writeSound first
  exact (keeps_writeInfo deaf writeSound number _ _).post fun _ _ _ second => first.trans second

end

theorem keeps_openInfo (deaf : Deaf P) (sound : Sound True P world) (id : JournalId) :
    Keeps True P (MetaFile.openAt id) world (fun _ disk => world.disk.OffInfo disk)
      fun _ _ => True := by
  refine (Keeps.mapError (keeps_query sound trivial)).bind ?_
  rintro _ _ fates querySound ⟨rfl, rfl⟩
  cases named : world.disk.names.metaFile with
  | none => exact .pure querySound (Disk.OffInfo.refl _)
  | some number =>
    refine (Keeps.mapError (keeps_openFile querySound named trivial)).bind ?_
    rintro number _ fates openSound ⟨rfl, rfl⟩
    have recovered : Keeps True P (MetaFile.recover number id) ⟨world.disk, fates⟩
        (fun _ disk => world.disk.OffInfo disk) fun _ _ => True := by
      refine (Keeps.mapError (keeps_query openSound trivial)).bind ?_
      rintro _ _ fates sizeSound ⟨rfl, rfl⟩
      split
      · exact .fail sizeSound trivial trivial
      refine (Keeps.mapError (keeps_syncInfo deaf sizeSound number)).bind ?_
      intro _ disk fates syncSound first
      refine (Keeps.mapError (keeps_query syncSound trivial)).bind ?_
      rintro _ disk fates contentSound ⟨rfl, rfl⟩
      refine (Keeps.lift_faulty trivial contentSound fun _ _ => trivial).bind ?_
      rintro ⟨info, stale⟩ disk fates chooseSound ⟨-, rfl⟩
      have repaired : Keeps True P (MetaFile.repair number info stale) ⟨disk, fates⟩
          (fun _ after => disk.OffInfo after) fun _ _ => True := by
        cases stale with
        | none => exact .pure chooseSound (Disk.OffInfo.refl _)
        | some copy => exact keeps_writeInfo deaf chooseSound number _ _
      refine (Keeps.mapError repaired).bind ?_
      intro _ after fates repairSound second
      exact .pure repairSound (first.trans second)
    refine recovered.bind ?_
    intro _ disk fates recoverSound moved
    exact .pure recoverSound moved

end Deaf

end Moonpool.Journal
