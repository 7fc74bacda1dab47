import Moonpool.Sim.StorageRuns

/-!
Owns the directory tree of the simulated disks: what holds of every process's names in every
state a run reaches, as long as no rename moves a file onto another name of the same file.

The tree is said over what the name tables find.  Each operation either leaves the names and
the owners of the files alone (`SameNames`), or is one of a few changes to the tables, each with
its own lemma.
-/

namespace Moonpool.Sim

open Lib SortedMap List

/-! ### Paths -/

@[simp] theorem parentDirectory_dot : parentDirectory dot = dot := by decide

@[simp] theorem parentDirectory_slash : parentDirectory slash = slash := by decide

variable {component : Path}

theorem dropWhile_of_plain (plain : '/' ∉ component) (rest : Path) :
    (component.reverse ++ rest).dropWhile (· ≠ '/') = rest.dropWhile (· ≠ '/') := by
  apply dropWhile_append_of_pos
  intro char member
  have there := mem_reverse.mp member
  simp only [ne_eq, decide_not, Bool.not_eq_eq_eq_not, Bool.not_true, decide_eq_false_iff_not]
  rintro rfl
  exact plain there

theorem parentDirectory_stepInto (current : Path) (plain : '/' ∉ component) :
    parentDirectory (stepInto current component) = current ∨
      parentDirectory (stepInto current component) = dot ∨
        parentDirectory (stepInto current component) = slash := by
  unfold stepInto
  split
  · right; left
    have := dropWhile_of_plain plain []
    rw [append_nil] at this
    rw [parentDirectory, this]
    rfl
  split
  · right; right
    have := dropWhile_of_plain plain ['/']
    rw [parentDirectory, reverse_cons, this]
    rfl
  · have := dropWhile_of_plain plain ('/' :: current.reverse)
    rw [parentDirectory, reverse_append, reverse_cons, append_assoc,
      singleton_append, this]
    cases current with
    | nil => exact .inr (.inr rfl)
    | cons head rest =>
      simp

theorem plain_of_mem_components {raw : Path}
    (member : component ∈ Storage.components raw) : '/' ∉ component :=
  plain_of_mem_splitOn (mem_filter.mp member).1

namespace Storage

variable {storage : Storage}

variable {owner : IpAddr} {path : Path}

theorem isDirectory_iff :
    storage.isDirectory owner path = true ↔
      path = dot ∨ path = slash ∨ storage.directories.contains (nameOf owner path) = true := by
  simp only [isDirectory, Bool.or_eq_true, decide_eq_true_eq, or_assoc]

theorem isDirectory_root (root : path = dot ∨ path = slash) :
    storage.isDirectory owner path = true :=
  isDirectory_iff.mpr (root.imp_right .inl)

theorem isDirectory_congr {other : Storage} (same : other.directories = storage.directories)
    (owner : IpAddr) (path : Path) : other.isDirectory owner path = storage.isDirectory owner path := by
  rw [isDirectory, isDirectory, same]

theorem requireDirectory_ok (done : storage.requireDirectory owner path = .ok ()) :
    storage.isDirectory owner path = true := by
  unfold requireDirectory at done
  split at done
  next there => exact there
  next =>
    split at done
    · cases done
    · cases done

/-! ### The tree -/

def Owns (storage : Storage) (owner : IpAddr) (file : FileId) : Prop :=
  (storage.files.find file).map FileState.owner = some owner

/-- No name is both a file and a directory, parents are directories, and every name stands for a
file. -/
structure Tree (storage : Storage) : Prop where
  apart : ∀ {owner path file}, storage.pathToFile.find (nameOf owner path) = some file →
    storage.isDirectory owner path = false
  fileParent : ∀ {owner path file}, storage.pathToFile.find (nameOf owner path) = some file →
    storage.isDirectory owner (parentDirectory path) = true
  directoryParent : ∀ {owner path}, storage.directories.contains (nameOf owner path) = true →
    storage.isDirectory owner (parentDirectory path) = true
  visibleOwned : ∀ {owner path file}, storage.pathToFile.find (nameOf owner path) = some file →
    storage.Owns owner file
  durableOwned : ∀ {owner path file}, storage.durablePaths.find (nameOf owner path) = some file →
    storage.Owns owner file

/-- What every run keeps: the tree, no durable root, and that the next number is no file's. -/
structure Kept (storage : Storage) : Prop extends Tree storage where
  durableBelow : ∀ {owner path file}, storage.durablePaths.find (nameOf owner path) = some file →
    path ≠ dot ∧ path ≠ slash
  fresh : ∀ {owner file}, storage.Owns owner file → file < storage.nextFileId

theorem Tree.parent_isDirectory (tree : Tree storage)
    (there : storage.isDirectory owner path = true) :
    storage.isDirectory owner (parentDirectory path) = true := by
  rcases isDirectory_iff.mp there with rfl | rfl | listed
  · exact there
  · exact there
  · exact tree.directoryParent listed

variable {file : FileId}

theorem Tree.visibleBelow (tree : Tree storage)
    (found : storage.pathToFile.find (nameOf owner path) = some file) :
    path ≠ dot ∧ path ≠ slash := by
  rw [← not_or]
  intro root
  have free := tree.apart found
  rw [isDirectory_root root] at free
  cases free

def Named (storage : Storage) (name : Name) (file : FileId) : Prop :=
  storage.pathToFile.find name = some file ∨ storage.durablePaths.find name = some file

theorem Named.linked {name : Name} (named : storage.Named name file) :
    (storage.pathToFile.values ++ storage.durablePaths.values).contains file = true :=
  contains_iff_mem.mpr <| mem_append.mpr <|
    named.imp (mem_values.mpr ⟨name, ·⟩) (mem_values.mpr ⟨name, ·⟩)

theorem Kept.owned (kept : Kept storage) (named : storage.Named (nameOf owner path) file) :
    storage.Owns owner file := named.elim kept.visibleOwned kept.durableOwned

theorem Kept.below (kept : Kept storage) (named : storage.Named (nameOf owner path) file) :
    path ≠ dot ∧ path ≠ slash := named.elim kept.visibleBelow kept.durableBelow

theorem Kept.narrow {after : Storage} (kept : Kept storage)
    (same : after.directories = storage.directories)
    (visible : ∀ {owner path file}, after.pathToFile.find (nameOf owner path) = some file →
      storage.pathToFile.find (nameOf owner path) = some file)
    (durable : ∀ {owner path file}, after.durablePaths.find (nameOf owner path) = some file →
      storage.Named (nameOf owner path) file)
    (owns : ∀ {owner path file}, storage.Owns owner file → storage.Named (nameOf owner path) file →
      after.Owns owner file)
    (fresh : ∀ {owner file}, after.Owns owner file → file < after.nextFileId) : Kept after where
  apart found := by
    rw [isDirectory_congr same]
    exact kept.apart (visible found)
  fileParent found := by
    rw [isDirectory_congr same]
    exact kept.fileParent (visible found)
  directoryParent listed := by
    rw [isDirectory_congr same]
    exact kept.directoryParent (same ▸ listed)
  visibleOwned found := owns (kept.visibleOwned (visible found)) (.inl (visible found))
  durableOwned found := owns (kept.owned (durable found)) (durable found)
  durableBelow found := kept.below (durable found)
  fresh := fresh

variable {current : Path}

/-! ### Path lookup -/

variable {raw : Path} {missing : List Path}

theorem parent_of_resolveFrom (tree : Tree storage) {components : List Path} {before : List Path}
    (plain : ∀ component ∈ components, '/' ∉ component)
    (there : storage.isDirectory owner current = true)
    (done : storage.resolveFrom owner raw false components current before = .ok (path, missing)) :
    storage.isDirectory owner (parentDirectory path) = true := by
  induction components generalizing current with
  | nil =>
    cases done
    exact tree.parent_isDirectory there
  | cons component rest ih =>
    have plainRest := fun other member => plain other (mem_cons_of_mem component member)
    rw [resolveFrom] at done
    split at done
    · split at done
      · cases done
      · exact ih plainRest there done
    split at done
    · split at done
      · cases done
      · refine ih plainRest ?_ done
        split
        · exact there
        · exact tree.parent_isDirectory there
    simp only [Bool.false_eq_true, if_false] at done
    split at done
    · cases done
    next checked =>
      cases rest with
      | nil =>
        cases done
        rcases parentDirectory_stepInto current (plain component mem_cons_self) with
          same | root
        · rw [same]
          exact there
        · exact isDirectory_root root
      | cons second others =>
        exact ih plainRest (requireDirectory_ok checked) done

theorem isDirectory_rootOf (owner : IpAddr) (raw : Path) :
    storage.isDirectory owner (rootOf raw) = true := by
  unfold rootOf
  split
  · exact isDirectory_root (.inr rfl)
  · exact isDirectory_root (.inl rfl)

theorem resolvePath_ok {createDirs : Bool}
    (done : storage.resolvePath owner raw createDirs = .ok (path, missing)) :
    (createDirs = true ∧ missing = []) ∨
      storage.resolveFrom owner raw createDirs (components raw) (rootOf raw) [] =
        .ok (path, missing) := by
  unfold resolvePath at done
  split at done
  · cases done
  split at done
  · split at done
    next create =>
      cases done
      exact .inl ⟨create, rfl⟩
    · cases done
  split at done
  · cases done
  next current found walked =>
    split at done
    · cases done
    · cases done
      exact .inr walked

theorem parent_of_resolvePath (tree : Tree storage)
    (done : storage.resolvePath owner raw false = .ok (path, missing)) :
    storage.isDirectory owner (parentDirectory path) = true := by
  rcases resolvePath_ok done with ⟨impossible, _⟩ | walked
  · cases impossible
  · exact parent_of_resolveFrom tree (fun component => plain_of_mem_components)
      (isDirectory_rootOf owner raw) walked

def WillBe (storage : Storage) (owner : IpAddr) (missing : List Path) (path : Path) : Prop :=
  storage.isDirectory owner path = true ∨ path ∈ missing

/-- The directories a walk is about to create: none is a file, and each has a parent. -/
def Creatable (storage : Storage) (owner : IpAddr) (missing : List Path) : Prop :=
  ∀ path ∈ missing, storage.pathToFile.find (nameOf owner path) = none ∧
    storage.WillBe owner missing (parentDirectory path)

theorem WillBe.mono {more : List Path} (will : storage.WillBe owner missing path)
    (grows : missing ⊆ more) : storage.WillBe owner more path :=
  will.imp_right fun member => grows member

theorem creatable_of_resolveFrom (tree : Tree storage) {components : List Path}
    {before : List Path} (plain : ∀ component ∈ components, '/' ∉ component)
    (creatable : storage.Creatable owner before) (will : storage.WillBe owner before current)
    (done : storage.resolveFrom owner raw true components current before = .ok (path, missing)) :
    storage.Creatable owner missing := by
  induction components generalizing current before with
  | nil =>
    cases done
    exact creatable
  | cons component rest ih =>
    have plainRest := fun other member => plain other (mem_cons_of_mem component member)
    rw [resolveFrom] at done
    split at done
    · simp only [Bool.not_true, Bool.and_false, Bool.false_eq_true, if_false] at done
      exact ih plainRest creatable will done
    split at done
    · split at done
      · cases done
      · refine ih plainRest creatable ?_ done
        split
        · exact will
        rcases will with there | member
        · exact .inl (tree.parent_isDirectory there)
        · exact (creatable _ member).2
    simp only [if_true] at done
    split at done
    · cases done
    next noFile =>
      have absent : storage.pathToFile.find (nameOf owner (stepInto current component)) = none := by
        simpa [SortedMap.contains] using noFile
      have parent : storage.WillBe owner before (parentDirectory (stepInto current component)) := by
        rcases parentDirectory_stepInto current (plain component mem_cons_self) with
          same | root
        · rw [same]
          exact will
        · exact .inl (isDirectory_root root)
      split at done
      next known =>
        refine ih plainRest creatable ?_ done
        simpa [WillBe] using known
      next =>
        refine ih plainRest ?_ (.inr (by simp)) done
        intro other member
        rcases mem_append.mp member with old | new
        · obtain ⟨free, above⟩ := creatable other old
          exact ⟨free, above.mono (subset_append_left _ _)⟩
        · rw [mem_singleton.mp new]
          exact ⟨absent, parent.mono (subset_append_left _ _)⟩

theorem creatable_of_resolvePath (tree : Tree storage)
    (done : storage.resolvePath owner raw true = .ok (path, missing)) :
    storage.Creatable owner missing := by
  have nothing : storage.Creatable owner [] := fun path member => by cases member
  rcases resolvePath_ok done with ⟨_, rfl⟩ | walked
  · exact nothing
  · exact creatable_of_resolveFrom tree (fun component => plain_of_mem_components) nothing
      (.inl (isDirectory_rootOf owner raw)) walked

/-! ### Changes that leave the names alone -/

structure SameNames (before after : Storage) : Prop where
  nextFileId : after.nextFileId = before.nextFileId
  pathToFile : after.pathToFile = before.pathToFile
  durablePaths : after.durablePaths = before.durablePaths
  directories : after.directories = before.directories
  durableDirectories : after.durableDirectories = before.durableDirectories
  owners : ∀ owner file, after.Owns owner file ↔ before.Owns owner file

namespace SameNames

variable {before after last : Storage}

theorem refl (storage : Storage) : SameNames storage storage :=
  ⟨rfl, rfl, rfl, rfl, rfl, fun _ _ => Iff.rfl⟩

theorem trans (first : SameNames before after) (second : SameNames after last) :
    SameNames before last where
  nextFileId := second.nextFileId.trans first.nextFileId
  pathToFile := second.pathToFile.trans first.pathToFile
  durablePaths := second.durablePaths.trans first.durablePaths
  directories := second.directories.trans first.directories
  durableDirectories := second.durableDirectories.trans first.durableDirectories
  owners owner file := (second.owners owner file).trans (first.owners owner file)

theorem of_files (files : after.files = before.files) (nextFileId : after.nextFileId = before.nextFileId)
    (pathToFile : after.pathToFile = before.pathToFile)
    (durablePaths : after.durablePaths = before.durablePaths)
    (directories : after.directories = before.directories)
    (durableDirectories : after.durableDirectories = before.durableDirectories) :
    SameNames before after :=
  ⟨nextFileId, pathToFile, durablePaths, directories, durableDirectories, fun owner file => by
    rw [Owns, Owns, files]⟩

theorem kept (same : SameNames before after) (kept : Kept before) : Kept after :=
  kept.narrow same.directories (same.pathToFile ▸ ·) (.inr <| same.durablePaths ▸ ·)
    (fun owns _ => (same.owners _ _).mpr owns)
    fun owns => same.nextFileId ▸ kept.fresh ((same.owners _ _).mp owns)

theorem foldl {α : Type} {step : Storage → α → Storage}
    (each : ∀ storage item, SameNames storage (step storage item)) (items : List α)
    (storage : Storage) : SameNames storage (items.foldl step storage) :=
  List.foldlRecOn items step (refl storage) fun _ same item _ => same.trans (each _ item)

end SameNames

section

variable (storage)

theorem sameNames_noteDamageChanged :
    SameNames storage storage.noteDamageChanged := .of_files rfl rfl rfl rfl rfl rfl

variable {storage} in
theorem SameNames.noted {next : Storage} (same : SameNames storage next) (flag : Bool) :
    SameNames storage (if flag then next.noteDamageChanged else next) := by
  split
  · exact same.trans (sameNames_noteDamageChanged next)
  · exact same

theorem sameNames_settleTurns (owner : IpAddr) :
    SameNames storage (storage.settleTurns owner) := .of_files rfl rfl rfl rfl rfl rfl

theorem sameNames_modify (file : FileId) {change : FileState → FileState}
    (keeps : ∀ state, (change state).owner = state.owner) :
    SameNames storage { storage with files := storage.files.modify file change } where
  nextFileId := rfl
  pathToFile := rfl
  durablePaths := rfl
  directories := rfl
  durableDirectories := rfl
  owners owner other := by
    simp only [Owns, find_modify]
    split
    · cases storage.files.find other with
      | none => rfl
      | some state => simp [keeps]
    · rfl

theorem sameNames_alterImage (file : FileId) (change : FileImage → FileImage) :
    SameNames storage (storage.alterImage file change) :=
  sameNames_modify storage file fun _ => rfl

theorem sameNames_markDamaged (file : FileId) (sectors : List Nat) :
    SameNames storage (storage.markDamaged file sectors) :=
  (sameNames_alterImage storage file _).trans (sameNames_noteDamageChanged _)

end

theorem sameNames_plantCorruption (owner : IpAddr) (path : Path) (file : FileId)
    (drawn : Nat → Bool) (storage : Storage) (sector : Nat) :
    SameNames storage (plantCorruption owner path file drawn storage sector) := by
  unfold plantCorruption
  split
  · exact (sameNames_alterImage storage file _).trans (sameNames_markDamaged _ file _)
  · exact .refl storage

theorem sameNames_completeRead (storage : Storage) (file : FileId) (offset len : Nat) (eio : Bool)
    (drawn : Nat → Bool) : SameNames storage (storage.completeRead file offset len eio drawn) := by
  unfold completeRead
  split
  · exact .refl storage
  simp only
  split
  · exact .refl storage
  split
  · exact sameNames_settleTurns storage _
  · exact (sameNames_settleTurns storage _).trans
      (.foldl (sameNames_plantCorruption _ _ file drawn) _ _)

theorem sameNames_failWriteback (storage : Storage) (owner : IpAddr) (path : Path) (file : FileId)
    (drawn : Option Bool) : SameNames storage (storage.failWriteback owner path file drawn) := by
  unfold failWriteback
  split
  · simp only
    split
    · exact sameNames_alterImage storage file _
    · exact .refl storage
  · exact .refl storage

theorem sameNames_landWrite (storage : Storage) (file : FileId) (landedAt offset : Nat)
    (data : List UInt8) : SameNames storage (storage.landWrite file landedAt offset data) := by
  unfold landWrite
  split
  · exact .refl storage
  next state found =>
    simp only
    have noted := (sameNames_alterImage storage file fun _ =>
      (state.image.write landedAt data).1).noted (state.image.write landedAt data).2
    split
    · exact noted
    · exact (noted.trans (sameNames_markDamaged _ file _)).trans (sameNames_markDamaged _ file _)

theorem sameNames_completeWrite (storage : Storage) (file : FileId) (offset : Nat)
    (data : List UInt8) (draws : WriteDraws) :
    SameNames storage (storage.completeWrite file offset data draws) := by
  unfold completeWrite
  split
  · exact .refl storage
  simp only
  split
  · exact .refl storage
  have settled := sameNames_settleTurns storage
  split
  · exact settled _
  split
  · exact ((settled _).trans (sameNames_markDamaged _ file _)).trans
      (sameNames_failWriteback _ _ _ file _)
  · exact (((settled _).trans (sameNames_landWrite _ file _ offset data)).trans
      (.foldl (sameNames_plantCorruption _ _ file draws.corrupts) _ _)).trans
      (sameNames_failWriteback _ _ _ file _)

theorem sameNames_completeSync [Crc32c] (storage : Storage) (file : FileId) (fails violates : Bool)
    (lies : Nat → Bool) : SameNames storage (storage.completeSync file fails violates lies) := by
  unfold completeSync
  split
  · exact .refl storage
  split
  · exact .refl storage
  · refine SameNames.trans ?_ (sameNames_alterImage _ file _)
    exact .of_files rfl rfl rfl rfl rfl rfl

theorem sameNames_completeSetLen [Crc32c] (storage : Storage) (file : FileId) (newLen : Nat)
    (full : Bool) : SameNames storage (storage.completeSetLen file newLen full) := by
  unfold completeSetLen
  split
  · exact .refl storage
  · exact (sameNames_alterImage storage file _).trans (sameNames_noteDamageChanged _)

/-! ### Changes to the tables -/

variable {other : IpAddr} {target : Path}

theorem nameOf_inj : nameOf owner path = nameOf other target ↔ owner = other ∧ path = target :=
  toLex.injective.eq_iff.trans Prod.mk_inj

theorem owns_drop {dropped : FileId} (owns : storage.Owns owner file)
    (stays : file = dropped → storage.reached file = true) :
    (storage.dropFileIfUnlinked dropped).Owns owner file := by
  unfold dropFileIfUnlinked
  split
  · exact owns
  next unreached =>
    have differs : file ≠ dropped := fun same => unreached (same ▸ stays same)
    simp only [Owns, find_remove, if_neg differs]
    exact owns

theorem owns_of_sub {after : Storage} (sub : ∀ {state}, after.files.find file = some state →
    storage.files.find file = some state) (owns : after.Owns owner file) :
    storage.Owns owner file := by
  obtain ⟨state, found, same⟩ := Option.map_eq_some_iff.mp owns
  exact Option.map_eq_some_iff.mpr ⟨state, sub found, same⟩

theorem find_of_drop {dropped : FileId} {state : FileState}
    (found : (storage.dropFileIfUnlinked dropped).files.find file = some state) :
    storage.files.find file = some state := by
  unfold dropFileIfUnlinked at found
  split at found
  · exact found
  rw [find_remove] at found
  split at found
  · cases found
  · exact found

theorem drop_eq (storage : Storage) (file : FileId) :
    storage.dropFileIfUnlinked file =
      { storage with files := (storage.dropFileIfUnlinked file).files } := by
  unfold dropFileIfUnlinked
  split
  · rfl
  · rfl

section

variable (file)

theorem pathToFile_drop :
    (storage.dropFileIfUnlinked file).pathToFile = storage.pathToFile := by rw [drop_eq]

theorem directories_drop :
    (storage.dropFileIfUnlinked file).directories = storage.directories := by rw [drop_eq]

theorem durablePaths_drop :
    (storage.dropFileIfUnlinked file).durablePaths = storage.durablePaths := by rw [drop_eq]

theorem durableDirectories_drop :
    (storage.dropFileIfUnlinked file).durableDirectories = storage.durableDirectories := by
  rw [drop_eq]

theorem nextFileId_drop :
    (storage.dropFileIfUnlinked file).nextFileId = storage.nextFileId := by rw [drop_eq]

end

section

variable (kept : Kept storage)

include kept

theorem Kept.drop (file : FileId) :
    Kept (storage.dropFileIfUnlinked file) :=
  kept.narrow (directories_drop file) (pathToFile_drop file ▸ ·) (.inr <| durablePaths_drop file ▸ ·)
    (fun owns named => owns_drop owns fun _ => by rw [reached, named.linked, Bool.true_or])
    fun owns => (nextFileId_drop file).symm ▸ kept.fresh (owns_of_sub find_of_drop owns)

theorem Kept.drops (files : List FileId) :
    Kept (files.foldl dropFileIfUnlinked storage) :=
  List.foldlRecOn files _ kept fun _ kept file _ => kept.drop file

theorem Kept.removeName (name : Name) :
    Kept { storage with pathToFile := storage.pathToFile.remove name } := by
  refine kept.narrow rfl (fun found => ?_) .inr (fun owns _ => owns) kept.fresh
  change (storage.pathToFile.remove name).find _ = _ at found
  rw [find_remove] at found
  split at found
  · cases found
  · exact found

theorem Kept.insertName (free : storage.isDirectory owner path = false)
    (parent : storage.isDirectory owner (parentDirectory path) = true)
    (owns : storage.Owns owner file) :
    Kept { storage with pathToFile := storage.pathToFile.insert (nameOf owner path) file } := by
  have before {other : IpAddr} {target : Path} {found : FileId}
      (there : (storage.pathToFile.insert (nameOf owner path) file).find (nameOf other target) =
        some found) :
      (other = owner ∧ target = path ∧ found = file) ∨
        storage.pathToFile.find (nameOf other target) = some found := by
    rw [find_insert] at there
    split at there
    next same =>
      obtain ⟨sameOwner, samePath⟩ := nameOf_inj.mp same
      exact .inl ⟨sameOwner, samePath, (Option.some.inj there).symm⟩
    next => exact .inr there
  refine { kept with
    apart := fun found => ?_, fileParent := fun found => ?_, visibleOwned := fun found => ?_ }
  · rcases before found with ⟨rfl, rfl, rfl⟩ | old
    · exact free
    · exact kept.apart old
  · rcases before found with ⟨rfl, rfl, rfl⟩ | old
    · exact parent
    · exact kept.fileParent old
  · rcases before found with ⟨rfl, rfl, rfl⟩ | old
    · exact owns
    · exact kept.visibleOwned old

theorem Kept.createFile (size : Nat) (fill : FillPattern)
    (free : storage.isDirectory owner path = false)
    (parent : storage.isDirectory owner (parentDirectory path) = true) :
    Kept (storage.createFile owner path size fill).1 := by
  let stored : Storage := { storage with
    nextFileId := storage.nextFileId + 1
    files := storage.files.insert storage.nextFileId ⟨path, owner, FileImage.new size fill⟩ }
  have others {other : IpAddr} {file : FileId} (owns : storage.Owns other file) :
      stored.Owns other file := by
    have differs : file ≠ storage.nextFileId := ne_of_lt (kept.fresh owns)
    simp only [Owns, stored, find_insert_of_ne differs]
    exact owns
  have keptStored : Kept stored := by
    refine kept.narrow rfl id .inr (fun owns _ => others owns) fun owns => ?_
    simp only [Owns, stored, find_insert] at owns
    split at owns
    next same => exact same ▸ Nat.lt_succ_self _
    next => exact Nat.lt_succ_of_lt (kept.fresh owns)
  have owned : stored.Owns owner storage.nextFileId := by
    simp [Owns, stored]
  exact keptStored.insertName free parent owned

end

/-! ### Operations -/

theorem sameNames_openHandle (storage : Storage) (file : FileId) :
    SameNames storage (storage.openHandle file).1 := .of_files rfl rfl rfl rfl rfl rfl

theorem sameNames_truncated [Crc32c] (storage : Storage) (options : OpenOptions) (file : FileId) :
    SameNames storage (storage.truncated options file) := by
  unfold truncated
  split
  · exact (sameNames_alterImage storage file _).trans (sameNames_noteDamageChanged _)
  · exact .refl storage

variable {options : OpenOptions} {initialSize : Nat} {fill : FillPattern}
  {opened : Storage × HandleId}

theorem openFile_ok [Crc32c] {supported : Bool}
    (done : storage.openFile owner path options initialSize fill supported = .ok opened) :
    ∃ resolved missing, storage.resolvePath owner path false = .ok (resolved, missing) ∧
      storage.openResolved owner resolved options initialSize fill = .ok opened := by
  obtain ⟨_, _, done⟩ := ok_of_bind done
  obtain ⟨_, _, done⟩ := ok_of_bind done
  obtain ⟨⟨resolved, missing⟩, found, done⟩ := ok_of_bind done
  exact ⟨resolved, missing, found, done⟩

/-- An open finds a file, or creates one where nothing stands. -/
theorem openResolved_ok [Crc32c]
    (done : storage.openResolved owner path options initialSize fill = .ok opened) :
    (∃ file, storage.pathToFile.find (nameOf owner path) = some file ∧
        opened = (storage.truncated options file).openHandle file) ∨
      (storage.isDirectory owner path = false ∧
        storage.pathToFile.find (nameOf owner path) = none ∧
        opened = (storage.createFile owner path initialSize fill).1.openHandle
          (storage.createFile owner path initialSize fill).2) := by
  unfold openResolved at done
  split at done
  · cases done
  next free =>
    split at done
    next file found =>
      split at done
      · cases done
      · cases done
        exact .inl ⟨file, found, rfl⟩
    next absent =>
      split at done
      · split at done
        · cases done
        · cases done
          exact .inr ⟨Bool.eq_false_iff.mpr free, absent, rfl⟩
      · cases done

theorem Kept.openFile [Crc32c] (kept : Kept storage) {supported : Bool}
    (done : storage.openFile owner path options initialSize fill supported = .ok opened) :
    Kept opened.1 := by
  obtain ⟨resolved, missing, found, done⟩ := openFile_ok done
  rcases openResolved_ok done with ⟨file, _, rfl⟩ | ⟨free, _, rfl⟩
  · exact ((sameNames_truncated storage options file).trans
      (sameNames_openHandle _ file)).kept kept
  · have parent := parent_of_resolvePath kept.toTree found
    exact (sameNames_openHandle _ _).kept (kept.createFile initialSize fill free parent)

variable {next : Storage}

theorem createDirAll_ok (done : storage.createDirAll owner path = .ok next) :
    ∃ resolved missing, storage.resolvePath owner path true = .ok (resolved, missing) ∧
      next = { storage with
        directories := storage.directories.insertKeys (missing.map (nameOf owner)) } := by
  obtain ⟨⟨resolved, missing⟩, found, done⟩ := ok_of_bind done
  exact ⟨resolved, missing, found, (Except.ok.inj done).symm⟩

theorem mem_map_nameOf :
    nameOf other path ∈ missing.map (nameOf owner) ↔ other = owner ∧ path ∈ missing := by
  rw [mem_map]
  constructor
  · rintro ⟨found, member, same⟩
    obtain ⟨sameOwner, samePath⟩ := nameOf_inj.mp same
    exact ⟨sameOwner.symm, samePath ▸ member⟩
  · rintro ⟨rfl, member⟩
    exact ⟨path, member, rfl⟩

theorem isDirectory_insertKeys :
    { storage with
        directories := storage.directories.insertKeys (missing.map (nameOf owner)) }.isDirectory
          other path = true ↔
      storage.isDirectory other path = true ∨ (other = owner ∧ path ∈ missing) := by
  simp only [isDirectory_iff, contains_insertKeys, mem_map_nameOf, or_assoc]

theorem Kept.createDirAll (kept : Kept storage)
    (done : storage.createDirAll owner path = .ok next) : Kept next := by
  obtain ⟨resolved, missing, found, rfl⟩ := createDirAll_ok done
  have creatable := creatable_of_resolvePath kept.toTree found
  refine { kept with
    apart := fun found => ?_
    fileParent := fun found => isDirectory_insertKeys.mpr (.inl (kept.fileParent found))
    directoryParent := fun listed => ?_ }
  · apply Bool.eq_false_iff.mpr
    intro there
    rcases isDirectory_insertKeys.mp there with old | ⟨rfl, new⟩
    · rw [kept.apart found] at old
      cases old
    · have absent := (creatable _ new).1
      rw [absent] at found
      cases found
  · rw [isDirectory_insertKeys]
    rcases contains_insertKeys.mp listed with old | new
    · exact .inl (kept.directoryParent old)
    · obtain ⟨rfl, member⟩ := mem_map_nameOf.mp new
      exact (creatable _ member).2.imp_right fun above => ⟨rfl, above⟩

theorem deleteFile_ok (done : storage.deleteFile owner path = .ok next) :
    ∃ resolved file, storage.pathToFile.find (nameOf owner resolved) = some file ∧
      next = ({ storage with
        pathToFile := storage.pathToFile.remove (nameOf owner resolved)
      }.dropFileIfUnlinked file).noteDamageChanged := by
  obtain ⟨⟨resolved, missing⟩, found, done⟩ := ok_of_bind done
  change storage.deleteResolved owner resolved = _ at done
  unfold deleteResolved at done
  split at done
  · cases done
  split at done
  · cases done
  next file there => exact ⟨resolved, file, there, (Except.ok.inj done).symm⟩

theorem Kept.deleteFile (kept : Kept storage) (done : storage.deleteFile owner path = .ok next) :
    Kept next := by
  obtain ⟨resolved, file, _, rfl⟩ := deleteFile_ok done
  exact (sameNames_noteDamageChanged _).kept ((kept.removeName _).drop file)

/-- A rename that succeeds changes nothing, or moves a name between two paths. -/
theorem renameFile_ok {source : Path} (done : storage.renameFile owner source target = .ok next) :
    ∃ resolvedSource resolvedTarget passed missing file,
      storage.resolvePath owner source false = .ok (resolvedSource, passed) ∧
      storage.resolvePath owner target false = .ok (resolvedTarget, missing) ∧
      storage.isDirectory owner resolvedTarget = false ∧
      storage.pathToFile.find (nameOf owner resolvedSource) = some file ∧
      next = if resolvedSource = resolvedTarget then storage
        else storage.moveName owner resolvedSource resolvedTarget file := by
  obtain ⟨⟨resolvedSource, passed⟩, foundSource, done⟩ := ok_of_bind done
  obtain ⟨⟨resolvedTarget, missing⟩, foundTarget, done⟩ := ok_of_bind done
  change storage.renameResolved owner resolvedSource resolvedTarget = _ at done
  unfold renameResolved at done
  split at done
  · cases done
  split at done
  · cases done
  next free =>
    split at done
    · cases done
    next file there =>
      exact ⟨resolvedSource, resolvedTarget, passed, missing, file, foundSource, foundTarget,
        Bool.eq_false_iff.mpr free, there, (Except.ok.inj done).symm⟩

theorem directories_replaceName (storage : Storage) (owner : IpAddr) (target : Path) :
    (storage.replaceName owner target).directories = storage.directories := by
  unfold replaceName
  split
  · rfl
  · exact directories_drop _

theorem Kept.replaceName (kept : Kept storage) (owner : IpAddr) (target : Path) :
    Kept (storage.replaceName owner target) := by
  unfold Storage.replaceName
  split
  · exact kept
  · exact (kept.removeName _).drop _

theorem owns_replaceName (owns : storage.Owns other file)
    (differs : storage.pathToFile.find (nameOf owner target) ≠ some file) :
    (storage.replaceName owner target).Owns other file := by
  unfold replaceName
  split
  · exact owns
  next replaced found =>
    exact owns_drop owns fun same => absurd (same ▸ found) differs

theorem Kept.moveName (kept : Kept storage) {source : Path}
    (found : storage.pathToFile.find (nameOf owner source) = some file)
    (differs : storage.pathToFile.find (nameOf owner target) ≠ some file)
    (free : storage.isDirectory owner target = false)
    (parent : storage.isDirectory owner (parentDirectory target) = true) :
    Kept (storage.moveName owner source target file) := by
  let unnamed := { storage with pathToFile := storage.pathToFile.remove (nameOf owner source) }
  have still : unnamed.pathToFile.find (nameOf owner target) ≠ some file := by
    change (storage.pathToFile.remove (nameOf owner source)).find (nameOf owner target) ≠ some file
    rw [find_remove]
    split
    · exact nofun
    · exact differs
  have keptReplaced : Kept (unnamed.replaceName owner target) := (kept.removeName _).replaceName _ _
  have owns : (unnamed.replaceName owner target).Owns owner file :=
    owns_replaceName (kept.visibleOwned found) still
  have same := directories_replaceName unnamed owner target
  have moved := sameNames_modify (unnamed.replaceName owner target) file
    fun state => (rfl : { state with path := target }.owner = state.owner)
  refine (sameNames_noteDamageChanged _).kept ((moved.kept keptReplaced).insertName ?_ ?_ ?_)
  · rw [isDirectory_congr moved.directories, isDirectory_congr same]
    exact free
  · rw [isDirectory_congr moved.directories, isDirectory_congr same]
    exact parent
  · exact (moved.owners owner file).mpr owns

variable {ν : Type}

theorem find_promote (visible durable : SortedMap Name ν) (under : Name → Bool)
    (name : Name) : (promote visible durable under).find name =
      if under name then visible.find name else durable.find name := by
  rw [promote, find_union, find_filter, find_filter]
  cases under name with
  | true | false => cases visible.find name <;> cases durable.find name <;> rfl

theorem syncDir_ok {fails : Bool} (done : storage.syncDir owner path fails = .ok next) :
    ∃ directory, next = storage.promoteUnder owner directory := by
  obtain ⟨⟨directory, missing⟩, _, done⟩ := ok_of_bind done
  obtain ⟨_, _, done⟩ := ok_of_bind done
  split at done
  · cases done
  · exact ⟨directory, (Except.ok.inj done).symm⟩

section

variable (kept : Kept storage)

include kept

theorem Kept.promoteUnder (owner : IpAddr) (directory : Path) :
    Kept (storage.promoteUnder owner directory) := by
  refine kept.narrow rfl id (fun found => ?_) (fun owns _ => owns) kept.fresh
  change (promote storage.pathToFile storage.durablePaths (isUnder owner directory)).find _ = _
    at found
  rw [find_promote] at found
  split at found
  · exact .inl found
  · exact .inr found

theorem Kept.withHandles (handles : SortedMap HandleId HandleState) :
    Kept { storage with handles } :=
  kept.narrow rfl id .inr (fun owns _ => owns) kept.fresh

theorem Kept.releaseClosedHandle (id : HandleId) :
    Kept (storage.releaseClosedHandle id) := by
  unfold Storage.releaseClosedHandle
  split
  · exact kept
  split
  · exact (kept.withHandles _).drop _
  · exact kept

theorem Kept.closeHandle (id : HandleId) (landing : Nat) :
    Kept (storage.closeHandle id landing) := by
  unfold Storage.closeHandle
  split
  · exact kept
  · exact (kept.withHandles _).releaseClosedHandle id

end

theorem sameNames_beginOperation (storage : Storage) (id : HandleId) :
    SameNames storage (storage.beginOperation id) := by
  unfold beginOperation
  split
  · exact .refl storage
  split
  · exact .refl storage
  · exact .of_files rfl rfl rfl rfl rfl rfl

theorem Kept.endOperation (kept : Kept storage) (id : HandleId) : Kept (storage.endOperation id) := by
  unfold Storage.endOperation
  split
  · exact kept
  · exact (kept.withHandles _).releaseClosedHandle id

/-! ### A wipe -/

theorem mem_filesOwnedBy {ip : IpAddr} : file ∈ storage.filesOwnedBy ip ↔ storage.Owns ip file := by
  rw [filesOwnedBy, mem_map, Owns, Option.map_eq_some_iff]
  constructor
  · rintro ⟨entry, member, rfl⟩
    obtain ⟨listed, owned⟩ := mem_filter.mp member
    exact ⟨entry.2, find_eq_some.mpr listed, by simpa using owned⟩
  · rintro ⟨state, found, owned⟩
    exact ⟨(file, state), mem_filter.mpr ⟨find_eq_some.mp found, by simpa using owned⟩,
      rfl⟩

theorem find_foldl_remove (keys : List FileId) (map : SortedMap FileId ν) (key : FileId) :
    (keys.foldl (fun left id => left.remove id) map).find key =
      if key ∈ keys then none else map.find key := by
  induction keys generalizing map with
  | nil => rfl
  | cons head rest ih =>
    rw [foldl_cons, ih, find_remove]
    by_cases same : key = head
    · simp [same]
    · simp [same]

theorem find_otherOwners {map : SortedMap Name ν} {ip owner : IpAddr} {path : Path} {value : ν} :
    (map.filter fun name _ => decide (nameOwner name ≠ ip)).find (nameOf owner path) = some value ↔
      owner ≠ ip ∧ map.find (nameOf owner path) = some value := by
  rw [find_filter, Option.filter_eq_some_iff, decide_eq_true_iff]
  exact and_comm

theorem find_otherOwners_of_ne (map : SortedMap Name ν) {ip owner : IpAddr} (differs : owner ≠ ip)
    (path : Path) : (map.filter fun name _ => decide (nameOwner name ≠ ip)).find (nameOf owner path) =
      map.find (nameOf owner path) := by
  apply Option.ext
  intro value
  rw [find_otherOwners, and_iff_right differs]

theorem Kept.wipeProcess (kept : Kept storage) (ip : IpAddr) : Kept (storage.wipeProcess ip) := by
  have listed {owner : IpAddr} {path : Path} (differs : owner ≠ ip) :
      (storage.wipeProcess ip).isDirectory owner path = storage.isDirectory owner path := by
    have same := find_otherOwners_of_ne storage.directories differs path
    rw [isDirectory, isDirectory, SortedMap.contains, SortedMap.contains, ← same]
    rfl
  have owns {owner : IpAddr} {file : FileId} :
      (storage.wipeProcess ip).Owns owner file ↔ storage.Owns owner file ∧ owner ≠ ip := by
    change ((((storage.filesOwnedBy ip).foldl (fun left id => left.remove id) storage.files).find
      file).map FileState.owner = some owner) ↔ _
    rw [find_foldl_remove]
    split
    next mine =>
      have owned := mem_filesOwnedBy.mp mine
      refine ⟨fun impossible => (by cases impossible), ?_⟩
      rintro ⟨alsoOwned, differs⟩
      exact absurd (Option.some.inj (alsoOwned.symm.trans owned)) differs
    next other =>
      refine ⟨fun owned => ⟨owned, ?_⟩, And.left⟩
      rintro rfl
      exact other (mem_filesOwnedBy.mpr owned)
  refine ⟨⟨fun found => ?_, fun found => ?_, fun there => ?_, fun found => ?_, fun found => ?_⟩,
    fun found => kept.durableBelow (find_otherOwners.mp found).2,
    fun owned => kept.fresh (owns.mp owned).1⟩
  · obtain ⟨differs, old⟩ := find_otherOwners.mp found
    rw [listed differs]
    exact kept.apart old
  · obtain ⟨differs, old⟩ := find_otherOwners.mp found
    rw [listed differs]
    exact kept.fileParent old
  · obtain ⟨_, found⟩ := contains_eq_true.mp there
    obtain ⟨differs, old⟩ := find_otherOwners.mp found
    rw [listed differs]
    exact kept.directoryParent (contains_eq_true.mpr ⟨_, old⟩)
  · obtain ⟨differs, old⟩ := find_otherOwners.mp found
    exact owns.mpr ⟨kept.visibleOwned old, differs⟩
  · obtain ⟨differs, old⟩ := find_otherOwners.mp found
    exact owns.mpr ⟨kept.durableOwned old, differs⟩

end Storage

end Moonpool.Sim
