import Moonpool.Sim.Oracle
import Moonpool.Sim.TreeCrash

/-!
Owns what a run does to the directory tree: the tree stands in every state reached, and every
crash keeps the synced names, as long as no rename moves a file onto another name of the same
file.

A crash can leave one file under two names, because the two names of an unsynced rename are
resolved apart.  A rename between them first forgets the file it replaces, which is the file it
moves.
-/

namespace Moonpool.Sim

open Lib

namespace Storage

variable {storage next : Storage} {action : Action}

def renamesOntoItself (storage : Storage) : Action → Bool
  | .renameFile owner source target =>
    match storage.resolvePath owner source false, storage.resolvePath owner target false with
    | .ok (resolvedSource, _), .ok (resolvedTarget, _) =>
      decide (resolvedSource ≠ resolvedTarget) &&
        (storage.pathToFile.find (nameOf owner resolvedSource)).isSome &&
        decide (storage.pathToFile.find (nameOf owner resolvedSource) =
          storage.pathToFile.find (nameOf owner resolvedTarget))
    | _, _ => false
  | _ => false

/-- The action does not rename a file onto another name of the same file. -/
def Separate (storage : Storage) (action : Action) : Prop :=
  storage.renamesOntoItself action = false

instance : Decidable (storage.Separate action) := inferInstanceAs (Decidable (_ = false))

theorem kept_new (plans : List ReplicationPlan) (mask : Path → Nat → Bool)
    (focus : SortedMap IpAddr (Path → Nat → Bool)) : Kept (.new plans mask focus) where
  apart found := by cases found
  fileParent found := by cases found
  directoryParent listed := by cases listed
  visibleOwned found := by cases found
  durableOwned found := by cases found
  durableBelow found := by cases found
  fresh owns := by cases owns

theorem Kept.renameFile (kept : Kept storage) {owner : IpAddr} {source target : Path}
    (separate : storage.Separate (.renameFile owner source target))
    (done : storage.renameFile owner source target = .ok next) : Kept next := by
  obtain ⟨resolvedSource, resolvedTarget, passed, missing, file, looked, aimed, free, found, rfl⟩ :=
    renameFile_ok done
  split
  next => exact kept
  next differs =>
    have elsewhere : storage.pathToFile.find (nameOf owner resolvedTarget) ≠ some file := by
      intro same
      simp [Separate, renamesOntoItself, looked, aimed, differs, found, same] at separate
    exact kept.moveName found elsewhere free (parent_of_resolvePath kept.toTree aimed)

theorem Kept.orElse (kept : Kept storage) {done : Except StorageError Storage}
    (each : ∀ {next}, done = .ok next → Kept next) : Kept (storage.orElse done) := by
  cases done with
  | ok next => exact each rfl
  | error reason => exact kept

/-- Every action that keeps the names of a file apart keeps the tree. -/
theorem Kept.act [Crc32c] (kept : Kept storage) (separate : storage.Separate action)
    (done : storage.act action = .ok next) : Kept next := by
  cases action with
  | crash => exact (kept.crashProcess done).1
  | openFile =>
    cases done
    refine kept.orElse fun opened => ?_
    obtain ⟨pair, result, rfl⟩ := ok_of_map opened
    exact kept.openFile result
  | createDirAll => cases done; exact kept.orElse kept.createDirAll
  | deleteFile => cases done; exact kept.orElse kept.deleteFile
  | renameFile => cases done; exact kept.orElse (kept.renameFile separate)
  | syncDir =>
    cases done
    refine kept.orElse fun synced => ?_
    obtain ⟨directory, rfl⟩ := syncDir_ok synced
    exact kept.promoteUnder _ directory
  | closeHandle => cases done; exact kept.closeHandle _ _
  | beginOperation => cases done; exact (sameNames_beginOperation _ _).kept kept
  | endOperation => cases done; exact kept.endOperation _
  | read => cases done; exact (sameNames_completeRead _ _ _ _ _ _).kept kept
  | write => cases done; exact (sameNames_completeWrite _ _ _ _ _).kept kept
  | sync => cases done; exact (sameNames_completeSync _ _ _ _ _).kept kept
  | setLen => cases done; exact (sameNames_completeSetLen _ _ _ _).kept kept
  | dropCache => cases done; exact (sameNames_alterImage _ _ _).kept kept
  | wipe => cases done; exact kept.wipeProcess _
  | publishLayout | declare | setMask | setFocus | failDisk =>
    cases done
    refine SameNames.kept (?_ : SameNames storage _) kept
    exact .of_files rfl rfl rfl rfl rfl rfl

theorem Reaches.kept [Crc32c] (reaches : Reaches Separate storage) : Kept storage := by
  induction reaches with
  | new plans mask focus => exact kept_new plans mask focus
  | act _ separate done ih => exact ih.act separate done

/-- In every run that never renames a file onto another of its names the directories form a tree,
and a crash keeps the synced names, settles its process's namespace and touches no other one's. -/
theorem tree_survives [Crc32c] (reaches : Reaches Separate storage) :
    Tree storage ∧
      ∀ {ip closeFiles keepCache draws next},
        storage.crashProcess ip closeFiles keepCache draws = .ok next →
        Tree next ∧ Crashed storage next ip :=
  ⟨reaches.kept.toTree, fun done =>
    ⟨(reaches.kept.crashProcess done).1.toTree, (reaches.kept.crashProcess done).2⟩⟩

def unplanned : Storage := .new [] (fun _ _ => true) .empty

def creating : OpenOptions := ⟨false, true, true, false, false, false, .disabled⟩

def losingEntries (entryLost : Path → Bool) : StorageDraws := ⟨entryLost, fun _ => losing⟩

/-- A file is created and synced, another is created and renamed with no sync. -/
def halfSynced : List Action := [
  .openFile 1 "kept".toList creating 0 zeros false, .syncDir 1 dot false,
  .openFile 1 "lost".toList creating 0 zeros false,
  .renameFile 1 "lost".toList "moved".toList]

/-- A crash that loses every unsynced entry leaves the synced name. -/
theorem tree_survives_halfSynced :
    letI := sumCrc
    ∃ storage next,
      unplanned.acts halfSynced = .ok storage ∧
      storage.crashProcess 1 true false (losingEntries fun _ => true) = .ok next ∧
      next.pathToFile.keys = [nameOf 1 "kept".toList] ∧
      Tree storage ∧ Tree next ∧ Crashed storage next 1 := by
  let _ := sumCrc
  have ends : ∃ storage, unplanned.acts halfSynced = .ok storage ∧
      (storage.crashProcess 1 true false (losingEntries fun _ => true)).toOption.any
        (fun next => next.pathToFile.keys = [nameOf 1 "kept".toList]) = true :=
    exists_of_any (by decide)
  obtain ⟨storage, ran, passes⟩ := ends
  obtain ⟨next, crashed, keys⟩ := exists_of_any passes
  have reaches : Reaches Separate storage := (Reaches.new _ _ _).acts (by decide) ran
  obtain ⟨tree, survives⟩ := tree_survives reaches
  exact ⟨storage, next, ran, crashed, of_decide_eq_true keys, tree, survives crashed⟩

/-- Both names of a rename survive a crash, and the file is moved from one onto the other. -/
def movedOntoItself : List Action := [
  .openFile 1 "a".toList creating 0 zeros false, .syncDir 1 dot false,
  .renameFile 1 "a".toList "b".toList,
  .crash 1 true false (losingEntries fun path => path = "a".toList),
  .createDirAll 1 "d".toList,
  .renameFile 1 "a".toList "d/c".toList, .renameFile 1 "b".toList "d/e".toList,
  .syncDir 1 dot false,
  .renameFile 1 "d/c".toList "d/e".toList]

/-- The name the file was moved onto stands for no file. -/
theorem tree_broken_by_movedOntoItself :
    letI := sumCrc
    ∃ storage, unplanned.acts movedOntoItself = .ok storage ∧
      storage.pathToFile.find (nameOf 1 "d/e".toList) = some 0 ∧ storage.files.find 0 = none ∧
      ¬ Tree storage := by
  let _ := sumCrc
  have ends : ∃ storage, unplanned.acts movedOntoItself = .ok storage ∧
      decide (storage.pathToFile.find (nameOf 1 "d/e".toList) = some 0 ∧
        (storage.files.find 0).isNone) = true := exists_of_any (by decide)
  obtain ⟨storage, ran, passes⟩ := ends
  obtain ⟨found, gone⟩ := of_decide_eq_true passes
  have missing : storage.files.find 0 = none := Option.isNone_iff_eq_none.mp gone
  refine ⟨storage, ran, found, missing, fun tree => ?_⟩
  have owns := tree.visibleOwned found
  rw [Owns, missing] at owns
  cases owns

end Storage

end Moonpool.Sim
