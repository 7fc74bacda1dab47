import Moonpool.Sim.Namespace

/-!
Owns what a crash or a wipe does to one process's disk: the namespace a crash leaves behind
(`storage/sim/namespace.rs`), the bytes of each file, and the handles (`storage/sim/engine.rs`).

Every unsynced name is resolved on its own, then entries whose parent is gone are pruned, then
what is left is durable.  What the crash draws is an argument: which unsynced entries it loses
and what each image rolls.  An outcome that damages a sector is drawn only where the sector's
fault weight admits it.
-/

namespace Moonpool.Sim

open Lib

inductive NamespaceEntry where
  | missing
  | file (id : FileId)
  | directory
deriving DecidableEq

structure StorageDraws where
  /-- The unsynced entries lost.  With the loss probability at zero there are none. -/
  entryLost : Path → Bool
  image : FileId → CrashDraws

/-- A damaging outcome falls back to the old bytes where a random fault may not land. -/
def CrashDraws.weighted (draws : CrashDraws) (weighs : Nat → Bool) : CrashDraws :=
  { draws with
    roll := fun sector =>
      match draws.roll sector with
      | .keptNew => .keptNew
      | .keptOld => .keptOld
      | damaging => if weighs sector then damaging else .keptOld }

def entryAt (files : SortedMap Name FileId) (directories : SortedSet Name) (name : Name) :
    NamespaceEntry :=
  match files.find name with
  | some file => .file file
  | none => if directories.contains name then .directory else .missing

namespace Storage

variable (storage : Storage) (ip : IpAddr)

def visibleEntry (name : Name) : NamespaceEntry :=
  entryAt storage.pathToFile storage.directories name

def durableEntry (name : Name) : NamespaceEntry :=
  entryAt storage.durablePaths storage.durableDirectories name

def setEntry (name : Name) (entry : NamespaceEntry) : Storage :=
  let files := storage.pathToFile.remove name
  let directories := storage.directories.remove name
  match entry with
  | .file id => { storage with pathToFile := files.insert name id, directories }
  | .directory => { storage with pathToFile := files, directories := directories.insert name () }
  | .missing => { storage with pathToFile := files, directories }

/-- One name of a crash: an unsynced entry that is lost falls back to the durable one. -/
def resolveEntry (lost : Path → Bool) (storage : Storage) (name : Name) : Storage :=
  if storage.visibleEntry name = storage.durableEntry name ∨ lost (namePath name) = false then
    storage
  else storage.setEntry name (storage.durableEntry name)

def namesOf : List Name :=
  let names := storage.directories.keys ++ storage.durableDirectories.keys ++
    storage.pathToFile.keys ++ storage.durablePaths.keys
  (SortedMap.insertKeys .empty (names.filter fun name => decide (nameOwner name = ip))).keys

def resolveUnsyncedEntries (lost : Path → Bool) : Storage :=
  (storage.namesOf ip).foldl (resolveEntry lost) storage

def pruneDirectory (storage : Storage) (name : Name) : Storage :=
  if storage.isDirectory ip (parentDirectory (namePath name)) then storage
  else { storage with directories := storage.directories.remove name }

/-- Prune directories from the top down, then file names. -/
def pruneEntriesWithoutParents : Storage :=
  let names := storage.directories.keys.filter fun name => decide (nameOwner name = ip)
  let storage := names.foldl (pruneDirectory ip) storage
  { storage with
    pathToFile := storage.pathToFile.filter fun name _ =>
      !(decide (nameOwner name = ip) &&
        !storage.isDirectory ip (parentDirectory (namePath name))) }

def canonicalPaths : SortedMap FileId Path :=
  (storage.pathToFile.entries.filter fun entry => decide (nameOwner entry.1 = ip)).foldl
    (fun canonical entry =>
      if canonical.contains entry.2 then canonical
      else canonical.insert entry.2 (namePath entry.1))
    .empty

/-- Give each surviving image its first surviving name as the path faults are judged at. -/
def refreshFilePaths : Storage :=
  { storage with
    files := (storage.canonicalPaths ip).entries.foldl
      (fun files entry => files.modify entry.1 fun state => { state with path := entry.2 })
      storage.files }

def filesOwnedBy : List FileId :=
  (storage.files.entries.filter fun entry => decide (entry.2.owner = ip)).map Prod.fst

/-- Whatever survived is what is on the disk now, for this process only. -/
def settleNamespace : Storage :=
  let mine := storage.filesOwnedBy ip
  { storage with
    durablePaths := (storage.durablePaths.filter fun _ file => !mine.contains file).union
      (storage.pathToFile.filter fun _ file => mine.contains file)
    durableDirectories :=
      promote storage.directories storage.durableDirectories fun name =>
        decide (nameOwner name = ip) }

def resolveNamespaceCrash (lost : Path → Bool) : Storage :=
  (((storage.resolveUnsyncedEntries ip lost).pruneEntriesWithoutParents ip).refreshFilePaths
    ip).settleNamespace ip

def collectUnreachableFiles : Storage :=
  let linked := storage.pathToFile.values ++ storage.durablePaths.values
  { storage with
    files := storage.files.filter fun id file =>
      decide (file.owner ≠ ip) || linked.contains id }

def crashFile [Crc32c] (ip : IpAddr) (keepCache : Bool) (draws : FileId → CrashDraws)
    (storage : Storage) (id : FileId) : Except SimBug Storage :=
  match storage.files.find id with
  | none => .ok storage
  | some file =>
    let crashed :=
      if keepCache then file.image.keepCache storage.barrierViolationArmed
      else file.image.crash ((draws id).weighted (storage.weighs ip file.path))
        storage.barrierViolationArmed
    match crashed with
    | .error bug => .error bug
    | .ok (image, report) =>
      let storage := storage.alterImage id fun _ => image
      .ok (if keepCache then storage else storage.noteTornWholeCopies ip file.path report)

/-- The process's handles: their operations fail, and a crash that closes files closes them. -/
def failHandles (files : List FileId) (close : Bool) : Storage :=
  { storage with
    handles := storage.handles.mapValues fun _ handle =>
      if files.contains handle.fileId then
        { handle with pending := 0, isClosed := handle.isClosed || close }
      else handle }

/-- Crash `ip`'s storage.  A kill that keeps the page cache keeps every unsynced entry too. -/
def crashProcess [Crc32c] (storage : Storage) (ip : IpAddr) (closeFiles keepCache : Bool)
    (draws : StorageDraws) : Except SimBug Storage := do
  let storage := { storage with failedDisks := storage.failedDisks.remove ip }
  let files := storage.filesOwnedBy ip
  let storage := storage.settleTurns ip
  -- First decide which names survive, so that the fault mask uses the name that remains.
  let storage := storage.resolveNamespaceCrash ip
    (if keepCache then fun _ => false else draws.entryLost)
  let storage ← files.foldlM (crashFile ip keepCache draws.image) storage
  let storage := (storage.collectUnreachableFiles ip).noteDamageChanged
  let storage := storage.failHandles files closeFiles
  return if closeFiles then files.foldl dropFileIfUnlinked storage else storage

def wipeProcess : Storage :=
  let files := storage.filesOwnedBy ip
  { storage with
    failedDisks := storage.failedDisks.remove ip
    focus := storage.focus.remove ip
    layouts := storage.layouts.remove ip
    pathToFile := storage.pathToFile.filter fun name _ => decide (nameOwner name ≠ ip)
    durablePaths := storage.durablePaths.filter fun name _ => decide (nameOwner name ≠ ip)
    directories := storage.directories.filter fun name _ => decide (nameOwner name ≠ ip)
    durableDirectories :=
      storage.durableDirectories.filter fun name _ => decide (nameOwner name ≠ ip)
    files := files.foldl (fun left id => left.remove id) storage.files
    handles := storage.handles.filter fun _ handle => !files.contains handle.fileId
  }.noteDamageChanged

end Storage

end Moonpool.Sim
