import Moonpool.Sim.Tree

/-!
Owns what a crash does to the directory tree: the loop that resolves unsynced names, the loop
that prunes entries without a parent, and the tree both leave.

A name is read as one entry (`visibleEntry`): resolving a name sets its entry and no other.
Pruning goes through the directories in the order of their names, in which a parent comes before
its children, so that a directory is left exactly when all its ancestors were there
(`contains_prune`).
-/

namespace Moonpool.Sim

open Lib SortedMap List Option

/-! ### Ancestors -/

def Ancestor (above path : Path) : Prop :=
  ∃ steps : Nat, above = parentDirectory^[steps + 1] path

theorem ancestor_iff {above path : Path} :
    Ancestor above path ↔ above = parentDirectory path ∨ Ancestor above (parentDirectory path) := by
  constructor
  · rintro ⟨steps, rfl⟩
    cases steps with
    | zero => exact .inl rfl
    | succ steps => exact .inr ⟨steps, rfl⟩
  · rintro (rfl | ⟨steps, rfl⟩)
    · exact ⟨0, rfl⟩
    · exact ⟨steps + 1, rfl⟩

theorem ancestor_of_root {above path : Path} (root : path = dot ∨ path = slash)
    (ancestor : Ancestor above path) : above = dot ∨ above = slash := by
  obtain ⟨steps, rfl⟩ := ancestor
  rcases root with rfl | rfl
  · exact .inl (Function.iterate_fixed parentDirectory_dot _)
  · exact .inr (Function.iterate_fixed parentDirectory_slash _)

theorem lt_append_cons (first : Path) (middle : Char) (rest : Path) :
    first < first ++ middle :: rest := by
  induction first with
  | nil => exact nil_lt_cons middle rest
  | cons head tail ih =>
    exact cons_lt_cons_iff.mpr (.inr ⟨rfl, ih⟩)

theorem parentDirectory_lt (path : Path) :
    parentDirectory path = dot ∨ parentDirectory path = slash ∨ parentDirectory path < path := by
  have parts := takeWhile_append_dropWhile (p := (· ≠ '/')) (l := path.reverse)
  unfold parentDirectory
  split
  · exact .inl rfl
  next head before found =>
    split
    · exact .inr (.inl rfl)
    right; right
    rw [found] at parts
    have whole : path = before.reverse ++ head :: (path.reverse.takeWhile (· ≠ '/')).reverse := by
      have turned := congrArg reverse parts
      rw [reverse_reverse, reverse_append, reverse_cons, append_assoc,
        singleton_append] at turned
      exact turned.symm
    rw [whole]
    simpa using lt_append_cons before.reverse head _

namespace Storage

variable {storage before after last : Storage} {ip : IpAddr}

/-! ### Entries -/

def OnlyVisible (before after : Storage) : Prop :=
  after = { before with pathToFile := after.pathToFile, directories := after.directories }

theorem OnlyVisible.refl (storage : Storage) : OnlyVisible storage storage := rfl

theorem OnlyVisible.trans (first : OnlyVisible before after) (second : OnlyVisible after last) :
    OnlyVisible before last := by
  rw [OnlyVisible, second, first]

def Apart (storage : Storage) : Prop :=
  ∀ {name file}, storage.pathToFile.find name = some file →
    storage.directories.contains name = false

variable {name : Name} {file : FileId}

theorem entryAt_file {files : SortedMap Name FileId} {directories : SortedSet Name} :
    entryAt files directories name = .file file ↔ files.find name = some file := by
  unfold entryAt
  split
  next found there => simp [there]
  next absent =>
    rw [absent]
    split <;> simp

theorem visibleEntry_file :
    storage.visibleEntry name = .file file ↔ storage.pathToFile.find name = some file := entryAt_file

theorem visibleEntry_directory (apart : Apart storage) :
    storage.visibleEntry name = .directory ↔ storage.directories.contains name = true := by
  unfold visibleEntry entryAt
  split
  next file found => simp [apart found]
  next => split <;> simp_all

theorem durableEntry_congr (only : OnlyVisible before after) (name : Name) :
    after.durableEntry name = before.durableEntry name := by
  rw [only]
  rfl

theorem find_pathToFile_setEntry (name other : Name) (entry : NamespaceEntry) :
    (storage.setEntry name entry).pathToFile.find other =
      if other = name then (match entry with | .file id => some id | _ => none)
      else storage.pathToFile.find other := by
  by_cases same : other = name
  · cases entry <;> simp [setEntry, same]
  · cases entry <;> simp [setEntry, find_insert, find_remove, same]

theorem find_directories_setEntry (name other : Name) (entry : NamespaceEntry) :
    (storage.setEntry name entry).directories.find other =
      if other = name then (if entry = .directory then some () else none)
      else storage.directories.find other := by
  by_cases same : other = name
  · cases entry <;> simp [setEntry, same]
  · cases entry <;> simp [setEntry, find_insert, find_remove, same]

theorem onlyVisible_setEntry (storage : Storage) (name : Name) (entry : NamespaceEntry) :
    OnlyVisible storage (storage.setEntry name entry) := by
  cases entry <;> rfl

theorem apart_setEntry (apart : Apart storage) (name : Name) (entry : NamespaceEntry) :
    Apart (storage.setEntry name entry) := by
  intro other file found
  rw [SortedMap.contains, find_directories_setEntry]
  rw [find_pathToFile_setEntry] at found
  split at found
  next same =>
    rw [if_pos same]
    cases entry with
    | missing => cases found
    | directory => cases found
    | file id => rfl
  next differs =>
    rw [if_neg differs]
    exact apart found

theorem visibleEntry_setEntry (name : Name) (entry : NamespaceEntry) :
    (storage.setEntry name entry).visibleEntry name = entry := by
  rw [visibleEntry, entryAt, find_pathToFile_setEntry, SortedMap.contains, find_directories_setEntry]
  cases entry with
  | missing => simp
  | directory => simp
  | file id => simp

/-! ### Resolving unsynced names -/

/-- What resolving names of `ip` leaves: each entry is the visible or the durable one. -/
structure Resolving (before after : Storage) (ip : IpAddr) : Prop where
  only : OnlyVisible before after
  apart : Apart after
  entry : ∀ path, after.visibleEntry (nameOf ip path) = before.visibleEntry (nameOf ip path) ∨
    after.visibleEntry (nameOf ip path) = before.durableEntry (nameOf ip path)
  otherFiles : ∀ {owner path}, owner ≠ ip →
    after.pathToFile.find (nameOf owner path) = before.pathToFile.find (nameOf owner path)
  otherDirectories : ∀ {owner path}, owner ≠ ip →
    after.directories.find (nameOf owner path) = before.directories.find (nameOf owner path)

theorem Resolving.step (resolving : Resolving before after ip) (lost : Path → Bool) (path : Path) :
    Resolving before (resolveEntry lost after (nameOf ip path)) ip := by
  unfold resolveEntry
  split
  · exact resolving
  have same := durableEntry_congr resolving.only (nameOf ip path)
  have differs {owner : IpAddr} {other : Path} (apart : owner ≠ ip) :
      nameOf owner other ≠ nameOf ip path := fun name => apart (nameOf_inj.mp name).1
  refine ⟨resolving.only.trans (onlyVisible_setEntry _ _ _), apart_setEntry resolving.apart _ _,
    fun other => ?_, fun apart => ?_, fun apart => ?_⟩
  · by_cases here : other = path
    · rw [here, visibleEntry_setEntry, same]
      exact .inr rfl
    · have differs : nameOf ip other ≠ nameOf ip path := fun name => here (nameOf_inj.mp name).2
      rw [visibleEntry, entryAt, find_pathToFile_setEntry, SortedMap.contains,
        find_directories_setEntry, if_neg differs, if_neg differs]
      exact resolving.entry other
  · rw [find_pathToFile_setEntry, if_neg (differs apart), resolving.otherFiles apart]
  · rw [find_directories_setEntry, if_neg (differs apart), resolving.otherDirectories apart]

theorem Resolving.run (lost : Path → Bool) {names : List Name}
    (mine : ∀ name ∈ names, nameOwner name = ip) (resolving : Resolving before after ip) :
    Resolving before (names.foldl (resolveEntry lost) after) ip := by
  refine foldlRecOn (motive := (Resolving before · ip)) names _ resolving
    fun after resolving name member => ?_
  have shape : name = nameOf ip (namePath name) := by
    rw [← mine name member]
    rfl
  rw [shape]
  exact resolving.step lost _

theorem nameOwner_of_mem_namesOf (member : name ∈ storage.namesOf ip) : nameOwner name = ip := by
  obtain ⟨_, found⟩ := mem_keys.mp member
  have listed := contains_insertKeys.mp (contains_eq_true.mpr ⟨_, found⟩)
  rcases listed with none | among
  · cases none
  · simpa using (mem_filter.mp among).2

theorem resolving_resolveUnsyncedEntries (apart : Apart storage) (ip : IpAddr)
    (lost : Path → Bool) : Resolving storage (storage.resolveUnsyncedEntries ip lost) ip :=
  Resolving.run lost (fun _ => nameOwner_of_mem_namesOf)
    ⟨.refl storage, apart, fun _ => .inl rfl, fun _ => rfl, fun _ => rfl⟩

/-! ### Pruning -/

def Upheld (storage : Storage) (ip : IpAddr) (path : Path) : Prop :=
  ∀ above, Ancestor above path → storage.isDirectory ip above = true

variable {path : Path}

theorem upheld_iff :
    storage.Upheld ip path ↔ storage.isDirectory ip (parentDirectory path) = true ∧
      storage.Upheld ip (parentDirectory path) := by
  constructor
  · intro upheld
    exact ⟨upheld _ (ancestor_iff.mpr (.inl rfl)),
      fun above higher => upheld above (ancestor_iff.mpr (.inr higher))⟩
  · rintro ⟨parent, upheld⟩ above ancestor
    rcases ancestor_iff.mp ancestor with rfl | higher
    · exact parent
    · exact upheld above higher

theorem upheld_of_root (root : path = dot ∨ path = slash) : storage.Upheld ip path := by
  intro above ancestor
  exact isDirectory_root (ancestor_of_root root ancestor)

theorem root_or_upheld_iff {listed : Prop} :
    (path = dot ∨ path = slash ∨ listed ∧ storage.Upheld ip path) ↔
      (path = dot ∨ path = slash ∨ listed) ∧ storage.Upheld ip path := by
  constructor
  · rintro (root | root | ⟨listed, upheld⟩)
    · exact ⟨.inl root, upheld_of_root (.inl root)⟩
    · exact ⟨.inr (.inl root), upheld_of_root (.inr root)⟩
    · exact ⟨.inr (.inr listed), upheld⟩
  · rintro ⟨root | root | listed, upheld⟩
    · exact .inl root
    · exact .inr (.inl root)
    · exact .inr (.inr ⟨listed, upheld⟩)

/-- The directories left are those still waiting and those whose ancestors are all there. -/
structure Pruning (before after : Storage) (ip : IpAddr) (waiting : List Name) : Prop where
  only : after = { before with directories := after.directories }
  left : ∀ path, after.directories.contains (nameOf ip path) = true ↔
    before.directories.contains (nameOf ip path) = true ∧
      (nameOf ip path ∈ waiting ∨ before.Upheld ip path)
  others : ∀ {owner path}, owner ≠ ip →
    after.directories.find (nameOf owner path) = before.directories.find (nameOf owner path)

section

variable {waiting : List Name} (pruning : Pruning before after ip (nameOf ip path :: waiting))
  (sorted : (nameOf ip path :: waiting).Pairwise (· < ·))

include pruning sorted

theorem Pruning.parent_iff :
    after.isDirectory ip (parentDirectory path) = true ↔ before.Upheld ip path := by
  rcases parentDirectory_lt path with root | root | below
  · rw [upheld_iff, isDirectory_iff, isDirectory_iff]
    simp [root, upheld_of_root]
  · rw [upheld_iff, isDirectory_iff, isDirectory_iff]
    simp [root, upheld_of_root]
  have passed : nameOf ip (parentDirectory path) ∉ nameOf ip path :: waiting := by
    have earlier : nameOf ip (parentDirectory path) < nameOf ip path :=
      Prod.Lex.toLex_lt_toLex.mpr (.inr ⟨rfl, below⟩)
    intro member
    rcases mem_cons.mp member with same | later
    · exact absurd (same ▸ earlier) (lt_irrefl _)
    · exact absurd (lt_trans earlier ((pairwise_cons.mp sorted).1 _ later)) (lt_irrefl _)
  rw [upheld_iff, isDirectory_iff, isDirectory_iff, pruning.left]
  simp only [passed, false_or]
  exact root_or_upheld_iff

theorem Pruning.step :
    Pruning before (pruneDirectory ip after (nameOf ip path)) ip waiting := by
  have judged := pruning.parent_iff sorted
  have passed : nameOf ip path ∉ waiting := fun later =>
    absurd ((pairwise_cons.mp sorted).1 _ later) (lt_irrefl _)
  have elsewhere {other : Path} (differs : other ≠ path) :
      nameOf ip other ∈ nameOf ip path :: waiting ↔ nameOf ip other ∈ waiting := by
    rw [mem_cons, or_iff_right fun same => differs (nameOf_inj.mp same).2]
  change Pruning before (if after.isDirectory ip (parentDirectory path) then _ else _) ip waiting
  split
  next there =>
    refine ⟨pruning.only, fun other => (pruning.left other).trans ?_, pruning.others⟩
    by_cases here : other = path
    · have upheld := judged.mp there
      simp [here, passed, upheld]
    · rw [elsewhere here]
  next gone =>
    have fallen : ¬ before.Upheld ip path := fun upheld => gone (judged.mpr upheld)
    refine ⟨?_, fun other => ?_, fun differs => ?_⟩
    · rw [pruning.only]
    · change (after.directories.remove (nameOf ip path)).contains _ = true ↔ _
      rw [SortedMap.contains, find_remove]
      by_cases here : other = path
      · simp [here, passed, fallen]
      · rw [if_neg fun same => here (nameOf_inj.mp same).2, ← SortedMap.contains, pruning.left,
          elsewhere here]
    · change (after.directories.remove (nameOf ip path)).find _ = _
      rw [find_remove, if_neg fun same => differs (nameOf_inj.mp same).1,
        pruning.others differs]

end

theorem Pruning.run {names : List Name} (mine : ∀ name ∈ names, nameOwner name = ip)
    (sorted : names.Pairwise (· < ·)) (pruning : Pruning before after ip names) :
    Pruning before (names.foldl (pruneDirectory ip) after) ip [] := by
  induction names generalizing after with
  | nil => exact pruning
  | cons head rest ih =>
    have shape : head = nameOf ip (namePath head) := by
      rw [← mine head mem_cons_self]
      rfl
    rw [shape] at pruning sorted
    rw [foldl_cons, shape]
    exact ih (fun name member => mine name (mem_cons_of_mem _ member))
      (pairwise_cons.mp sorted).2 (pruning.step sorted)

def prunedDirectories (storage : Storage) (ip : IpAddr) : Storage :=
  (storage.directories.keys.filter fun name => decide (nameOwner name = ip)).foldl
    (pruneDirectory ip) storage

theorem pruning_prunedDirectories (storage : Storage) (ip : IpAddr) :
    Pruning storage (storage.prunedDirectories ip) ip [] := by
  have sorted : storage.directories.keys.Pairwise (· < ·) :=
    pairwise_map.mpr storage.directories.sorted
  refine Pruning.run (fun name member => ?_) (sorted.filter _)
    ⟨rfl, fun path => ⟨fun listed => ⟨listed, .inl ?_⟩, And.left⟩, fun _ => rfl⟩
  · simpa using (mem_filter.mp member).2
  · exact mem_filter.mpr
      ⟨mem_keys.mpr (contains_eq_true.mp listed), by simp [nameOwner]⟩

theorem contains_prune :
    (storage.pruneEntriesWithoutParents ip).directories.contains (nameOf ip path) = true ↔
      storage.directories.contains (nameOf ip path) = true ∧ storage.Upheld ip path := by
  have left := (pruning_prunedDirectories storage ip).left path
  simp only [not_mem_nil, false_or] at left
  exact left

theorem isDirectory_parent_prune :
    (storage.pruneEntriesWithoutParents ip).isDirectory ip (parentDirectory path) = true ↔
      storage.Upheld ip path := by
  rw [upheld_iff, isDirectory_iff, contains_prune, isDirectory_iff]
  exact root_or_upheld_iff

theorem find_pathToFile_prune (owner : IpAddr) (path : Path) :
    (storage.pruneEntriesWithoutParents ip).pathToFile.find (nameOf owner path) =
      (storage.pathToFile.find (nameOf owner path)).filter fun _ =>
        !(decide (owner = ip) &&
          !(storage.pruneEntriesWithoutParents ip).isDirectory ip (parentDirectory path)) := by
  have only := (pruning_prunedDirectories storage ip).only
  have files : (storage.prunedDirectories ip).pathToFile = storage.pathToFile := by rw [only]
  change ((storage.prunedDirectories ip).pathToFile.filter _).find _ = _
  rw [find_filter, files]
  rfl

theorem onlyVisible_prune (storage : Storage) (ip : IpAddr) :
    OnlyVisible storage (storage.pruneEntriesWithoutParents ip) := by
  have only := (pruning_prunedDirectories storage ip).only
  change ({ storage.prunedDirectories ip with pathToFile := _ } : Storage) = _
  rw [only]
  rfl

/-! ### The namespace a crash leaves -/

theorem sameNames_refreshFilePaths (storage : Storage) (ip : IpAddr) :
    SameNames storage (storage.refreshFilePaths ip) :=
  foldlRecOn (motive := fun files => SameNames storage { storage with files }) _ _
    (.refl storage) fun files same entry _ => same.trans (sameNames_modify
      { storage with files } entry.1
      fun state => (rfl : { state with path := entry.2 }.owner = state.owner))

theorem find_durablePaths_settle (name : Name) :
    (storage.settleNamespace ip).durablePaths.find name =
      ((storage.pathToFile.find name).filter fun file =>
          (storage.filesOwnedBy ip).contains file).or
        ((storage.durablePaths.find name).filter fun file =>
          !(storage.filesOwnedBy ip).contains file) := by
  change (union _ _).find name = _
  rw [find_union, find_filter, find_filter]

theorem find_durableDirectories_settle (owner : IpAddr) (path : Path) :
    (storage.settleNamespace ip).durableDirectories.find (nameOf owner path) =
      if owner = ip then storage.directories.find (nameOf owner path)
      else storage.durableDirectories.find (nameOf owner path) := by
  change (promote _ _ _).find _ = _
  rw [find_promote]
  by_cases same : owner = ip
  · simp [nameOwner, same]
  · simp [nameOwner, same]

/-- The entry at a name is durable by a directory sync, and has not changed since. -/
def Synced (storage : Storage) (name : Name) : Prop :=
  storage.visibleEntry name = storage.durableEntry name

/-- The entry at a path and its ancestor directories are synced. -/
def Anchored (storage : Storage) (ip : IpAddr) (path : Path) : Prop :=
  storage.Synced (nameOf ip path) ∧
    ∀ above, Ancestor above path → above = dot ∨ above = slash ∨ storage.Synced (nameOf ip above)

structure Crashed (before after : Storage) (ip : IpAddr) : Prop where
  settledFiles : ∀ path,
    after.pathToFile.find (nameOf ip path) = after.durablePaths.find (nameOf ip path)
  settledDirectories : ∀ path,
    after.directories.find (nameOf ip path) = after.durableDirectories.find (nameOf ip path)
  /-- A surviving name stands for the file it stood for visibly or durably. -/
  fromBefore : ∀ {path file}, after.pathToFile.find (nameOf ip path) = some file →
    before.pathToFile.find (nameOf ip path) = some file ∨
      before.durablePaths.find (nameOf ip path) = some file
  fileSurvives : ∀ {path file}, before.pathToFile.find (nameOf ip path) = some file →
    before.Anchored ip path → after.pathToFile.find (nameOf ip path) = some file
  directorySurvives : ∀ {path}, before.directories.contains (nameOf ip path) = true →
    before.Anchored ip path → after.directories.contains (nameOf ip path) = true
  otherFiles : ∀ {owner path}, owner ≠ ip →
    after.pathToFile.find (nameOf owner path) = before.pathToFile.find (nameOf owner path) ∧
      after.durablePaths.find (nameOf owner path) = before.durablePaths.find (nameOf owner path)
  otherDirectories : ∀ {owner path}, owner ≠ ip →
    after.directories.find (nameOf owner path) = before.directories.find (nameOf owner path) ∧
      after.durableDirectories.find (nameOf owner path) =
        before.durableDirectories.find (nameOf owner path)

theorem Tree.apartNames (tree : Tree storage) : Apart storage := by
  intro name file found
  have free : storage.isDirectory (nameOwner name) (namePath name) = false := tree.apart found
  exact (Bool.or_eq_false_iff.mp free).2

theorem Tree.upheld (tree : Tree storage)
    (parent : storage.isDirectory ip (parentDirectory path) = true) : storage.Upheld ip path := by
  rintro above ⟨steps, rfl⟩
  induction steps with
  | zero => exact parent
  | succ steps ih =>
    rw [Function.iterate_succ_apply']
    exact tree.parent_isDirectory ih

section

variable (resolving : Resolving before after ip)

include resolving

theorem Resolving.keeps (synced : before.Synced (nameOf ip path)) :
    after.visibleEntry (nameOf ip path) = before.visibleEntry (nameOf ip path) := by
  rcases resolving.entry path with same | durable
  · exact same
  · rw [durable, synced]

theorem Resolving.upheld (apart : Apart before)
    (upheld : before.Upheld ip path) (anchored : before.Anchored ip path) :
    after.Upheld ip path := by
  intro above ancestor
  rw [isDirectory_iff]
  rcases anchored.2 above ancestor with root | root | synced
  · exact .inl root
  · exact .inr (.inl root)
  rcases isDirectory_iff.mp (upheld above ancestor) with root | root | listed
  · exact .inl root
  · exact .inr (.inl root)
  right; right
  rw [← visibleEntry_directory resolving.apart, resolving.keeps synced,
    visibleEntry_directory apart]
  exact listed

theorem Resolving.fromBefore (found : after.pathToFile.find (nameOf ip path) = some file) :
    before.Named (nameOf ip path) file := by
  have entry := visibleEntry_file.mpr found
  exact (resolving.entry path).imp (fun same => entryAt_file.mp (same ▸ entry))
    fun durable => entryAt_file.mp (durable ▸ entry)

end

section

variable (only : OnlyVisible before after)

include only

theorem OnlyVisible.owns (owner : IpAddr) (file : FileId) :
    after.Owns owner file ↔ before.Owns owner file := by
  rw [only]
  rfl

theorem OnlyVisible.durablePaths :
    after.durablePaths = before.durablePaths := by rw [only]

theorem OnlyVisible.durableDirectories :
    after.durableDirectories = before.durableDirectories := by rw [only]

theorem OnlyVisible.nextFileId :
    after.nextFileId = before.nextFileId := by rw [only]

end

/-- What holds once the names of `ip` are resolved, pruned and settled. -/
structure Landed (before resolved after : Storage) (ip : IpAddr) : Prop where
  resolving : Resolving before resolved ip
  files : ∀ {path file}, after.pathToFile.find (nameOf ip path) = some file ↔
    resolved.pathToFile.find (nameOf ip path) = some file ∧ resolved.Upheld ip path
  directories : ∀ {path}, after.directories.contains (nameOf ip path) = true ↔
    resolved.directories.contains (nameOf ip path) = true ∧ resolved.Upheld ip path
  parents : ∀ {path}, after.isDirectory ip (parentDirectory path) = true ↔ resolved.Upheld ip path
  otherFiles : ∀ {owner path}, owner ≠ ip →
    after.pathToFile.find (nameOf owner path) = before.pathToFile.find (nameOf owner path)
  otherDirectories : ∀ {owner path}, owner ≠ ip →
    after.directories.find (nameOf owner path) = before.directories.find (nameOf owner path)
  durableFiles : ∀ name, after.durablePaths.find name =
    ((after.pathToFile.find name).filter fun file => (before.filesOwnedBy ip).contains file).or
      ((before.durablePaths.find name).filter fun file => !(before.filesOwnedBy ip).contains file)
  durableDirectories : ∀ owner path, after.durableDirectories.find (nameOf owner path) =
    if owner = ip then after.directories.find (nameOf owner path)
    else before.durableDirectories.find (nameOf owner path)
  owns : ∀ owner file, after.Owns owner file ↔ before.Owns owner file
  nextFileId : after.nextFileId = before.nextFileId

theorem contains_filesOwnedBy (same : ∀ file, after.Owns ip file ↔ before.Owns ip file)
    (file : FileId) : (after.filesOwnedBy ip).contains file = (before.filesOwnedBy ip).contains file := by
  rw [Bool.eq_iff_iff, contains_iff_mem, contains_iff_mem, mem_filesOwnedBy,
    mem_filesOwnedBy]
  exact same file

theorem landed_settleNamespace {resolved refreshed : Storage}
    (resolving : Resolving before resolved ip)
    (refreshes : SameNames (resolved.pruneEntriesWithoutParents ip) refreshed) :
    Landed before resolved (refreshed.settleNamespace ip) ip := by
  have only := resolving.only.trans (onlyVisible_prune resolved ip)
  have owns (owner : IpAddr) (file : FileId) : refreshed.Owns owner file ↔ before.Owns owner file :=
    (refreshes.owners owner file).trans (only.owns owner file)
  have files : (refreshed.settleNamespace ip).pathToFile =
      (resolved.pruneEntriesWithoutParents ip).pathToFile := refreshes.pathToFile
  have directories : (refreshed.settleNamespace ip).directories =
      (resolved.pruneEntriesWithoutParents ip).directories := refreshes.directories
  refine ⟨resolving, ?_, ?_, ?_, ?_, ?_, fun name => ?_, fun owner path => ?_, owns, ?_⟩
  · intro path file
    rw [files, find_pathToFile_prune, filter_eq_some_iff]
    simp [isDirectory_parent_prune]
  · intro path
    rw [directories, contains_prune]
  · intro path
    rw [isDirectory_congr directories, isDirectory_parent_prune]
  · intro owner path differs
    rw [files, find_pathToFile_prune, ← resolving.otherFiles differs]
    cases resolved.pathToFile.find (nameOf owner path) <;> simp [differs]
  · intro owner path differs
    rw [directories, ← resolving.otherDirectories differs]
    exact (pruning_prunedDirectories resolved ip).others differs
  · have mine := contains_filesOwnedBy fun file => owns ip file
    rw [find_durablePaths_settle, refreshes.durablePaths, only.durablePaths, files,
      refreshes.pathToFile]
    simp only [mine]
  · rw [find_durableDirectories_settle, refreshes.durableDirectories, only.durableDirectories,
      directories, refreshes.directories]
  · exact refreshes.nextFileId.trans only.nextFileId

theorem landed_resolveNamespaceCrash (tree : Tree storage) (ip : IpAddr) (lost : Path → Bool) :
    Landed storage (storage.resolveUnsyncedEntries ip lost) (storage.resolveNamespaceCrash ip lost)
      ip :=
  landed_settleNamespace (resolving_resolveUnsyncedEntries tree.apartNames ip lost)
    (sameNames_refreshFilePaths _ ip)

section Landed

variable {resolved : Storage} (landed : Landed before resolved after ip) (kept : Kept before)

include landed

theorem Landed.fromBefore {path : Path} {file : FileId}
    (found : after.pathToFile.find (nameOf ip path) = some file) :
    before.Named (nameOf ip path) file :=
  landed.resolving.fromBefore (landed.files.mp found).1

theorem Landed.isDirectory_of_ne {owner : IpAddr} (differs : owner ≠ ip) (path : Path) :
    after.isDirectory owner path = before.isDirectory owner path := by
  rw [isDirectory, isDirectory, SortedMap.contains, SortedMap.contains,
    landed.otherDirectories differs]

include kept

theorem Landed.settledFiles (path : Path) :
    after.pathToFile.find (nameOf ip path) = after.durablePaths.find (nameOf ip path) := by
  rw [landed.durableFiles]
  cases found : after.pathToFile.find (nameOf ip path) with
  | some file => simp [filter_some, mem_filesOwnedBy.mpr (kept.owned (landed.fromBefore found))]
  | none =>
    cases durable : before.durablePaths.find (nameOf ip path) with
    | none => rfl
    | some file => simp [filter_some, mem_filesOwnedBy.mpr (kept.durableOwned durable)]

theorem Landed.otherDurable {owner : IpAddr} {path : Path} (differs : owner ≠ ip) :
    after.durablePaths.find (nameOf owner path) = before.durablePaths.find (nameOf owner path) := by
  have notMine {file : FileId} (owns : before.Owns owner file) : file ∉ before.filesOwnedBy ip :=
    fun mine => differs (some.inj (owns.symm.trans (mem_filesOwnedBy.mp mine)))
  rw [landed.durableFiles, landed.otherFiles differs, filter_eq_none_iff.mpr fun file found =>
    by simp [notMine (kept.visibleOwned found)], none_or]
  cases durable : before.durablePaths.find (nameOf owner path) with
  | none => rfl
  | some file => simp [notMine (kept.durableOwned durable)]

theorem Landed.crashed : Crashed before after ip where
  settledFiles := landed.settledFiles kept
  settledDirectories path := by rw [landed.durableDirectories, if_pos rfl]
  fromBefore := landed.fromBefore
  fileSurvives {path file} found anchored := by
    have upheld := kept.upheld (kept.fileParent found)
    refine landed.files.mpr ⟨?_, landed.resolving.upheld kept.apartNames upheld anchored⟩
    rw [← visibleEntry_file, landed.resolving.keeps anchored.1, visibleEntry_file]
    exact found
  directorySurvives {path} listed anchored := by
    have upheld := kept.upheld (kept.directoryParent listed)
    refine landed.directories.mpr ⟨?_, landed.resolving.upheld kept.apartNames upheld anchored⟩
    rw [← visibleEntry_directory landed.resolving.apart, landed.resolving.keeps anchored.1,
      visibleEntry_directory kept.apartNames]
    exact listed
  otherFiles differs := ⟨landed.otherFiles differs, landed.otherDurable kept differs⟩
  otherDirectories {owner path} differs :=
    ⟨landed.otherDirectories differs, by rw [landed.durableDirectories, if_neg differs]⟩

theorem Landed.toKept : Kept after where
  apart {owner path file} found := by
    by_cases same : owner = ip
    · subst same
      have below := kept.below (landed.fromBefore found)
      have free := landed.resolving.apart (landed.files.mp found).1
      apply Bool.eq_false_iff.mpr
      intro there
      rcases isDirectory_iff.mp there with root | root | listed
      · exact below.1 root
      · exact below.2 root
      · rw [(landed.directories.mp listed).1] at free
        cases free
    · rw [landed.isDirectory_of_ne same]
      exact kept.apart (landed.otherFiles same ▸ found)
  fileParent {owner path file} found := by
    by_cases same : owner = ip
    · subst same
      exact landed.parents.mpr (landed.files.mp found).2
    · rw [landed.isDirectory_of_ne same]
      exact kept.fileParent (landed.otherFiles same ▸ found)
  directoryParent {owner path} listed := by
    by_cases same : owner = ip
    · subst same
      exact landed.parents.mpr (landed.directories.mp listed).2
    rw [landed.isDirectory_of_ne same]
    refine kept.directoryParent ?_
    rw [SortedMap.contains, ← landed.otherDirectories same]
    exact listed
  visibleOwned {owner path file} found := by
    rw [landed.owns]
    by_cases same : owner = ip
    · subst same
      exact kept.owned (landed.fromBefore found)
    · exact kept.visibleOwned (landed.otherFiles same ▸ found)
  durableOwned {owner path file} found := by
    rw [landed.owns]
    by_cases same : owner = ip
    · subst same
      exact kept.owned (landed.fromBefore <| (landed.settledFiles kept path).trans found)
    · exact kept.durableOwned (landed.otherDurable kept same ▸ found)
  durableBelow {owner path file} found := by
    by_cases same : owner = ip
    · subst same
      exact kept.below (landed.fromBefore <| (landed.settledFiles kept path).trans found)
    · exact kept.durableBelow (landed.otherDurable kept same ▸ found)
  fresh owned := by
    rw [landed.nextFileId]
    exact kept.fresh ((landed.owns _ _).mp owned)

end Landed

/-! ### The whole crash -/

variable {keepCache : Bool} {draws : FileId → CrashDraws} {next : Storage}

section

variable [Crc32c] (done : crashFile ip keepCache draws storage file = .ok next)

include done

theorem crashFile_ok :
    (storage.files.find file = none ∧ next = storage) ∨
      ∃ state image report, storage.files.find file = some state ∧
        (if keepCache then state.image.keepCache storage.barrierViolationArmed
          else state.image.crash ((draws file).weighted (storage.weighs ip state.path))
            storage.barrierViolationArmed) = .ok (image, report) ∧
        next = if keepCache then storage.alterImage file fun _ => image
          else (storage.alterImage file fun _ => image).noteTornWholeCopies ip state.path report := by
  unfold crashFile at done
  split at done
  next missing =>
    cases done
    exact .inl ⟨missing, rfl⟩
  next state found =>
    simp only at done
    split at done
    next => cases done
    next image report crashed =>
      cases done
      exact .inr ⟨state, image, report, found, crashed, rfl⟩

theorem sameNames_crashFile :
    SameNames storage next := by
  obtain ⟨_, rfl⟩ | ⟨state, image, report, _, _, rfl⟩ := crashFile_ok done
  · exact .refl _
  · have altered := sameNames_alterImage storage file fun _ => image
    split
    · exact altered
    refine altered.trans ?_
    unfold noteTornWholeCopies
    split
    · exact .of_files rfl rfl rfl rfl rfl rfl
    · exact .refl _

end

theorem sameNames_crashFiles [Crc32c] {files : List FileId}
    (done : files.foldlM (crashFile ip keepCache draws) storage = .ok next) :
    SameNames storage next :=
  foldlM_rec (motive := SameNames storage) (.refl _)
    (fun _ same stepped => same.trans (sameNames_crashFile stepped)) done

theorem find_of_collect {state : FileState}
    (found : (storage.collectUnreachableFiles ip).files.find file = some state) :
    storage.files.find file = some state := by
  rw [collectUnreachableFiles, find_filter] at found
  exact (filter_eq_some_iff.mp found).1

theorem Kept.collectUnreachableFiles (kept : Kept storage) (ip : IpAddr) :
    Kept (storage.collectUnreachableFiles ip) := by
  refine kept.narrow rfl id .inr (fun owned named => ?_) fun owns =>
    kept.fresh (owns_of_sub find_of_collect owns)
  obtain ⟨state, found, same⟩ := map_eq_some_iff.mp owned
  refine map_eq_some_iff.mpr ⟨state, ?_, same⟩
  rw [Storage.collectUnreachableFiles, find_filter, filter_eq_some_iff, named.linked,
    Bool.or_true]
  exact ⟨found, rfl⟩

structure SameTables (before after : Storage) : Prop where
  pathToFile : after.pathToFile = before.pathToFile
  durablePaths : after.durablePaths = before.durablePaths
  directories : after.directories = before.directories
  durableDirectories : after.durableDirectories = before.durableDirectories

theorem SameNames.tables (same : SameNames before after) : SameTables before after :=
  ⟨same.pathToFile, same.durablePaths, same.directories, same.durableDirectories⟩

theorem sameTables_drops (files : List FileId) (storage : Storage) :
    SameTables storage (files.foldl dropFileIfUnlinked storage) :=
  foldlRecOn files _ ⟨rfl, rfl, rfl, rfl⟩ fun _ same file _ =>
    ⟨(pathToFile_drop file).trans same.pathToFile, (durablePaths_drop file).trans same.durablePaths,
      (directories_drop file).trans same.directories,
      (durableDirectories_drop file).trans same.durableDirectories⟩

theorem anchored_congr (same : SameTables before after) :
    after.Anchored ip path ↔ before.Anchored ip path := by
  simp only [Anchored, Synced, visibleEntry, durableEntry, same.pathToFile, same.durablePaths,
    same.directories, same.durableDirectories]

theorem Crashed.congr {earlier later : Storage} (crashed : Crashed before after ip)
    (first : SameTables earlier before) (second : SameTables after later) :
    Crashed earlier later ip := by
  have anchors (path : Path) := @anchored_congr earlier before ip path first
  constructor
  all_goals
    simp only [second.pathToFile, second.durablePaths, second.directories, second.durableDirectories,
      ← first.pathToFile, ← first.durablePaths, ← first.directories, ← first.durableDirectories,
      ← anchors]
  exacts [crashed.settledFiles, crashed.settledDirectories, crashed.fromBefore,
    crashed.fileSurvives, crashed.directorySurvives, crashed.otherFiles, crashed.otherDirectories]

/-- The disks once the turns are settled for the process that crashes. -/
def beforeCrash (storage : Storage) (ip : IpAddr) : Storage :=
  { storage with failedDisks := storage.failedDisks.remove ip }.settleTurns ip

theorem sameNames_beforeCrash (storage : Storage) (ip : IpAddr) :
    SameNames storage (storage.beforeCrash ip) := .of_files rfl rfl rfl rfl rfl rfl

/-- A crash resolves the names, then the bytes of each file, then forgets what is not reached. -/
theorem crashProcess_ok [Crc32c] {closeFiles : Bool} {draws : StorageDraws}
    (done : storage.crashProcess ip closeFiles keepCache draws = .ok next) :
    ∃ lost crashed,
      (storage.filesOwnedBy ip).foldlM (crashFile ip keepCache draws.image)
        ((storage.beforeCrash ip).resolveNamespaceCrash ip lost) = .ok crashed ∧
      next = (if closeFiles then storage.filesOwnedBy ip else []).foldl dropFileIfUnlinked
        ((crashed.collectUnreachableFiles ip).noteDamageChanged.failHandles
          (storage.filesOwnedBy ip) closeFiles) := by
  obtain ⟨crashed, ran, done⟩ := ok_of_bind done
  refine ⟨_, crashed, ran, ?_⟩
  rw [← Except.ok.inj done]
  split
  · rfl
  · rfl

/-- A crash leaves a tree, and does to the names what `Crashed` says. -/
theorem Kept.crashProcess [Crc32c] (kept : Kept storage) {closeFiles : Bool}
    {draws : StorageDraws} (done : storage.crashProcess ip closeFiles keepCache draws = .ok next) :
    Kept next ∧ Crashed storage next ip := by
  obtain ⟨lost, crashed, ran, rfl⟩ := crashProcess_ok done
  have settled := sameNames_beforeCrash storage ip
  have keptBefore := settled.kept kept
  have landed := landed_resolveNamespaceCrash keptBefore.toTree ip lost
  have images := sameNames_crashFiles ran
  constructor
  · exact ((((images.kept (landed.toKept keptBefore)).collectUnreachableFiles ip
      |> (sameNames_noteDamageChanged _).kept)).withHandles _).drops _
  · refine ((landed.crashed keptBefore).congr settled.tables ?_)
    have dropped := sameTables_drops (if closeFiles then storage.filesOwnedBy ip else [])
      ((crashed.collectUnreachableFiles ip).noteDamageChanged.failHandles
        (storage.filesOwnedBy ip) closeFiles)
    exact ⟨dropped.pathToFile.trans images.pathToFile,
      dropped.durablePaths.trans images.durablePaths,
      dropped.directories.trans images.directories,
      dropped.durableDirectories.trans images.durableDirectories⟩

end Storage

end Moonpool.Sim
