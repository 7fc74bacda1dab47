import Moonpool.Journal.Crash
import Moonpool.Journal.Segment

/-!
Owns changes of names under the crash invariant.

Two kinds of name carry meaning for recovery: the meta file's and the segments'.  Spares
and temporary files may come and go (`Blind`).  A segment's name changes only while all
such names are durable (`Quiet`), so a crash finds it changed or not, and nothing else.
-/

namespace Moonpool.Journal

open Lib

theorem NameMap.of_erase {names : NameMap} {gone name file : Nat}
    (found : (names.erase gone)[name]? = some file) : name ≠ gone ∧ names[name]? = some file := by
  rw [Std.ExtTreeMap.getElem?_erase] at found
  split at found
  · cases found
  next apart => exact ⟨fun same => apart (by simp [same]), found⟩

theorem NameMap.of_insert {names : NameMap} {new own name file : Nat}
    (found : (names.insert new own)[name]? = some file) :
    name = new ∧ file = own ∨ names[name]? = some file := by
  rw [Std.ExtTreeMap.getElem?_insert] at found
  split at found
  next same => exact .inl ⟨(Std.LawfulEqCmp.eq_of_compare same).symm, (Option.some.inj found).symm⟩
  · exact .inr found

/-- `P` looks at no name but the meta file's and the segments'. -/
def Blind (P : Shot → Prop) : Prop :=
  ∀ (shot : Shot) (names : Names), names.metaFile = shot.names.metaFile →
    names.segments = shot.names.segments → P shot → P { shot with names }

/-- The names of the meta file and of the segments are durable. -/
structure Disk.Quiet (disk : Disk) : Prop where
  metaFile : disk.synced.metaFile = disk.names.metaFile
  segments : disk.synced.segments = disk.names.segments

theorem Disk.Quiet.congr {before after : Disk} (quiet : before.Quiet)
    (synced : after.synced = before.synced) (names : after.names = before.names) :
    after.Quiet :=
  ⟨by rw [synced, names, quiet.metaFile], by rw [synced, names, quiet.segments]⟩

def Shot.withSegments (shot : Shot) (segments : NameMap) : Shot :=
  { shot with names := { shot.names with segments } }

namespace Disk

variable {disk : Disk}

theorem Quiet.segments_eq (quiet : disk.Quiet) {shot : Shot} (resolved : disk.Resolves shot) :
    shot.names.segments = disk.names.segments := by
  refine Std.ExtTreeMap.ext_getElem? fun first => ?_
  rcases resolved.names.segments first with old | new
  · rw [old, quiet.segments]
  · exact new

end Disk

section Rename

variable {P : Shot → Prop} {disk : Disk} {names : Names}

theorem Safe.renameUnseen (blind : Blind P) (safe : Safe P disk)
    (metaFile : names.metaFile = disk.names.metaFile)
    (segments : names.segments = disk.names.segments)
    (backed : names.Backed disk) : Safe P { disk with names } := by
  refine ⟨⟨safe.numbered.synced.mono fun _ grown => grown, backed.mono fun _ grown => grown⟩,
    fun shot resolved => ?_⟩
  let base : Shot := ⟨{ disk.names with
    metaFile := shot.names.metaFile, segments := shot.names.segments }, shot.files⟩
  have before : disk.Resolves base := by
    refine ⟨⟨?_, .inr rfl, fun first => ?_, fun _ => .inr rfl, fun _ => .inr rfl⟩,
      resolved.files⟩
    · exact metaFile ▸ resolved.names.metaFile
    · exact segments ▸ resolved.names.segments first
  exact blind base shot.names rfl rfl (safe.shots base before)

theorem Safe.renameSegment (blind : Blind P) (safe : Safe P disk) (quiet : disk.Quiet)
    (first : Nat) (metaFile : names.metaFile = disk.names.metaFile)
    (others : ∀ other : Nat, other ≠ first →
      names.segments[other]? = disk.names.segments[other]?)
    (backed : names.Backed disk)
    (renamed : ∀ shot, disk.Resolves shot → P (shot.withSegments names.segments)) :
    Safe P { disk with names } := by
  refine ⟨⟨safe.numbered.synced.mono fun _ grown => grown, backed.mono fun _ grown => grown⟩,
    fun shot resolved => ?_⟩
  have before : disk.Resolves ⟨disk.names, shot.files⟩ := ⟨disk.resolves_shot.names, resolved.files⟩
  have sameMeta : shot.names.metaFile = disk.names.metaFile := by
    rcases resolved.names.metaFile with old | new
    · rw [old, quiet.metaFile]
    · rw [new, metaFile]
  have elsewhere : ∀ other : Nat, other ≠ first →
      shot.names.segments[other]? = disk.names.segments[other]? := by
    intro other apart
    rcases resolved.names.segments other with old | new
    · rw [old, quiet.segments]
    · rw [new, others other apart]
  rcases resolved.names.segments first with old | new
  · have same : shot.names.segments = disk.names.segments := by
      refine Std.ExtTreeMap.ext_getElem? fun other => ?_
      by_cases named : other = first
      · rw [named, old, quiet.segments]
      · exact elsewhere other named
    exact blind ⟨disk.names, shot.files⟩ shot.names sameMeta same (safe.shots _ before)
  · have same : shot.names.segments = names.segments := by
      refine Std.ExtTreeMap.ext_getElem? fun other => ?_
      by_cases named : other = first
      · rw [named, new]
      · rw [elsewhere other named, others other named]
    exact blind ((⟨disk.names, shot.files⟩ : Shot).withSegments names.segments) shot.names
      sameMeta same (renamed _ before)

end Rename

section Calls

variable {faulty : Prop} {P : Shot → Prop} {world : World}

theorem keeps_alterNames_maybe {present : Names → Bool} {change : Names → Names}
    (sound : Sound faulty P world) (there : faulty ∨ present world.disk.names = true)
    (changed : Safe P { world.disk with names := change world.disk.names }) :
    Keeps faulty P (alterNames present change) world
      (fun _ disk => present world.disk.names = true ∧
        disk = { world.disk with names := change world.disk.names })
      fun _ _ => True := by
  by_cases found : present world.disk.names = true
  · refine (keeps_alterNames sound found changed fun _ _ _ => trivial).post ?_
    exact fun _ _ _ shape => ⟨found, shape⟩
  have missing : alterNames present change world =
      ⟨[], ⟨world.disk, world.fates.tail⟩, .error .notFound⟩ := by
    simp [alterNames, found]
  unfold Keeps Proc.Meets
  rw [missing]
  refine ⟨fun _ member => (by cases member), ⟨sound.safe, ?_⟩, there.resolve_right found, trivial⟩
  exact sound.fates.imp_right fun none => by rw [none]; rfl

theorem keeps_dropTemporary (blind : Blind P) (sound : Sound faulty P world) {first : Nat}
    (there : faulty ∨ world.disk.names.temporaries.contains first = true) :
    Keeps faulty P (Segment.dropTemporary first) world
      (fun _ disk => disk = { world.disk with names := { world.disk.names with
        temporaries := world.disk.names.temporaries.erase first } })
      fun _ _ => True := by
  have backed := sound.safe.numbered.names
  exact (keeps_alterNames_maybe sound there
    (Safe.renameUnseen blind sound.safe rfl rfl ⟨backed.segments, backed.spares⟩)).post
      fun _ _ _ shape => shape.2

end Calls

end Moonpool.Journal
