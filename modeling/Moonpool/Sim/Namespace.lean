import Moonpool.Sim.Storage

/-!
Owns the operations on names: path lookup (`storage/sim/namespace.rs`), opening and creating
files, directories, deletion, renaming, directory syncs, and the handles that keep an unlinked
file alive (`storage/sim/engine.rs`).

There is no operation that removes a directory: only a crash or a wipe does.  A fill pattern
for a new file, whether a directory sync fails, and which in-flight operations a closing handle
lets land are arguments.
-/

namespace Moonpool.Sim

open Lib

inductive StorageError where
  | invalidPath (path : Path)
  | notFound (path : Path)
  | alreadyExists (path : Path)
  | notADirectory (path : Path)
  | isADirectory (path : Path)
  | invalidOpenOptions (reason : String)
  | directIoUnsupported
  | directIoCreate (path : Path)
  | io (message : String)
  | outOfRange (path : Path) (stop len : Nat)
deriving DecidableEq

inductive DirectIo where
  | disabled
  | optional
  | required
deriving DecidableEq

structure OpenOptions where
  read : Bool
  write : Bool
  create : Bool
  createNew : Bool
  truncate : Bool
  append : Bool
  directIo : DirectIo
deriving DecidableEq

def OpenOptions.validate (options : OpenOptions) : Except StorageError Unit :=
  if !options.read && !options.write && !options.append then
    .error (.invalidOpenOptions "open options must set at least one of read, write or append")
  else if !options.write && !options.append && options.truncate then
    .error (.invalidOpenOptions
      "truncate requires write access: a read-only open cannot truncate")
  else if !options.write && !options.append && (options.create || options.createNew) then
    .error (.invalidOpenOptions "create and create_new require write or append access")
  else if options.append && options.truncate && !options.createNew then
    .error (.invalidOpenOptions "append and truncate contradict each other")
  else .ok ()

/-- The directory part of a canonical path, with distinct relative and absolute roots. -/
def parentDirectory (path : Path) : Path :=
  match path.reverse.dropWhile (· ≠ '/') with
  | [] => dot
  | _ :: before => if before = [] then slash else before.reverse

def stepInto (current component : Path) : Path :=
  if current = dot then component
  else if current = slash then '/' :: component
  else current ++ '/' :: component

namespace Storage

variable (storage : Storage) (owner : IpAddr) (path : Path)

def isDirectory : Bool :=
  decide (path = dot) || decide (path = slash) ||
    storage.directories.contains (nameOf owner path)

def requireDirectory :
    Except StorageError Unit :=
  if storage.isDirectory owner path then .ok ()
  else if storage.pathToFile.contains (nameOf owner path) then .error (.notADirectory path)
  else .error (.notFound path)

/-- Walk the components of `raw` from `current`; `missing` are the directories to create. -/
def resolveFrom (storage : Storage) (owner : IpAddr) (raw : Path) (createDirs : Bool) :
    List Path → Path → List Path → Except StorageError (Path × List Path)
  | [], current, missing => .ok (current, missing)
  | component :: rest, current, missing =>
    let last := rest.isEmpty
    if component = dot then
      match if last && !createDirs then storage.requireDirectory owner current else .ok () with
      | .error error => .error error
      | .ok () => storage.resolveFrom owner raw createDirs rest current missing
    else if component = dotDot then
      if current = dot then .error (.notFound raw)
      else
        let above := if current = slash then current else parentDirectory current
        storage.resolveFrom owner raw createDirs rest above missing
    else
      let next := stepInto current component
      if createDirs then
        if storage.pathToFile.contains (nameOf owner next) then
          .error (if last then .alreadyExists next else .notADirectory next)
        else
          let missing :=
            if storage.isDirectory owner next || missing.contains next then missing
            else missing ++ [next]
          storage.resolveFrom owner raw createDirs rest next missing
      else
        match if last then .ok () else storage.requireDirectory owner next with
        | .error error => .error error
        | .ok () => storage.resolveFrom owner raw createDirs rest next missing

def rootOf (raw : Path) : Path := if raw.head? = some '/' then slash else dot

def components (raw : Path) : List Path := (raw.splitOn '/').filter (· ≠ [])

/-- Resolve a path in one process's namespace. Components are checked before `..` is folded, so a
name cannot skip a missing directory or pass through a file. -/
def resolvePath (raw : Path) (createDirs : Bool) :
    Except StorageError (Path × List Path) :=
  if raw.contains (Char.ofNat 0) then .error (.invalidPath raw)
  else if raw = [] then
    if createDirs then .ok (dot, []) else .error (.notFound raw)
  else
    match storage.resolveFrom owner raw createDirs (components raw) (rootOf raw) [] with
    | .error error => .error error
    | .ok (current, missing) =>
      match if raw.getLast? = some '/' ∧ createDirs = false then
          storage.requireDirectory owner current else .ok () with
      | .error error => .error error
      | .ok () => .ok (current, missing)

/-- Whether something reaches a file: a name, or a handle that is open or still landing. -/
def reached (file : FileId) : Bool :=
  (storage.pathToFile.values ++ storage.durablePaths.values).contains file ||
    storage.handles.values.any fun handle =>
      decide (handle.fileId = file) && (!handle.isClosed || decide (handle.pending ≠ 0))

def dropFileIfUnlinked (file : FileId) : Storage :=
  if storage.reached file then storage
  else { storage with files := storage.files.remove file }

def resolveDirectIo (options : OpenOptions) (supported : Bool) : Except StorageError Unit :=
  if options.directIo = .required ∧ supported = false then .error .directIoUnsupported else .ok ()

def openHandle (file : FileId) : Storage × HandleId :=
  ({ storage with
      nextHandleId := storage.nextHandleId + 1
      handles := storage.handles.insert storage.nextHandleId ⟨file, 0, false⟩ },
    storage.nextHandleId)

def createFile (size : Nat)
    (fill : FillPattern) : Storage × FileId :=
  ({ storage with
      nextFileId := storage.nextFileId + 1
      files := storage.files.insert storage.nextFileId ⟨path, owner, FileImage.new size fill⟩
      pathToFile := storage.pathToFile.insert (nameOf owner path) storage.nextFileId },
    storage.nextFileId)

def truncated [Crc32c] (storage : Storage) (options : OpenOptions) (file : FileId) : Storage :=
  if options.truncate then (storage.alterImage file fun image => image.setLen 0).noteDamageChanged
  else storage

/-- Open the entry at a resolved path.  Direct I/O that is required never creates a file. -/
def openResolved [Crc32c] (storage : Storage) (owner : IpAddr) (path : Path)
    (options : OpenOptions) (initialSize : Nat) (fill : FillPattern) :
    Except StorageError (Storage × HandleId) :=
  if storage.isDirectory owner path then
    .error (if options.createNew then .alreadyExists path else .isADirectory path)
  else
    match storage.pathToFile.find (nameOf owner path) with
    | some file =>
      if options.createNew then .error (.alreadyExists path)
      else .ok ((storage.truncated options file).openHandle file)
    | none =>
      if options.create || options.createNew then
        if options.directIo = .required then .error (.directIoCreate path)
        else
          let created := storage.createFile owner path initialSize fill
          .ok (created.1.openHandle created.2)
      else .error (.notFound path)

def openFile [Crc32c] (storage : Storage) (owner : IpAddr) (path : Path) (options : OpenOptions)
    (initialSize : Nat) (fill : FillPattern) (directIoSupported : Bool) :
    Except StorageError (Storage × HandleId) := do
  options.validate
  resolveDirectIo options directIoSupported
  let resolved ← storage.resolvePath owner path false
  storage.openResolved owner resolved.1 options initialSize fill

def createDirAll :
    Except StorageError Storage := do
  let resolved ← storage.resolvePath owner path true
  return { storage with
    directories := storage.directories.insertKeys (resolved.2.map (nameOf owner)) }

def deleteResolved :
    Except StorageError Storage :=
  if storage.isDirectory owner path then .error (.isADirectory path)
  else
    match storage.pathToFile.find (nameOf owner path) with
    | none => .error (.notFound path)
    | some file =>
      let unnamed := { storage with pathToFile := storage.pathToFile.remove (nameOf owner path) }
      .ok (unnamed.dropFileIfUnlinked file).noteDamageChanged

def deleteFile :
    Except StorageError Storage := do
  let resolved ← storage.resolvePath owner path false
  storage.deleteResolved owner resolved.1

def replaceName (target : Path) : Storage :=
  match storage.pathToFile.find (nameOf owner target) with
  | none => storage
  | some replaced =>
    { storage with
      pathToFile := storage.pathToFile.remove (nameOf owner target) }.dropFileIfUnlinked replaced

def moveName (source target : Path) (file : FileId) :
    Storage :=
  let unnamed := { storage with pathToFile := storage.pathToFile.remove (nameOf owner source) }
  let replaced := unnamed.replaceName owner target
  let moved := { replaced with
    files := replaced.files.modify file fun state => { state with path := target } }
  { moved with pathToFile := moved.pathToFile.insert (nameOf owner target) file }.noteDamageChanged

def renameResolved (source target : Path) :
    Except StorageError Storage :=
  if storage.isDirectory owner source then .error (.isADirectory source)
  else if storage.isDirectory owner target then .error (.isADirectory target)
  else
    match storage.pathToFile.find (nameOf owner source) with
    | none => .error (.notFound source)
    | some file =>
      .ok (if source = target then storage else storage.moveName owner source target file)

def renameFile (source target : Path) :
    Except StorageError Storage := do
  let resolvedSource ← storage.resolvePath owner source false
  let resolvedTarget ← storage.resolvePath owner target false
  storage.renameResolved owner resolvedSource.1 resolvedTarget.1

def isUnder (directory : Path) (name : Name) : Bool :=
  decide (nameOwner name = owner) && decide (parentDirectory (namePath name) = directory)

/-- `durable` with the entries `under` picks replaced by those of `visible`. -/
def promote {ν : Type} (visible durable : SortedMap Name ν) (under : Name → Bool) :
    SortedMap Name ν :=
  (durable.filter fun name _ => !under name).union (visible.filter fun name _ => under name)

def promoteUnder (directory : Path) : Storage :=
  { storage with
    durablePaths := promote storage.pathToFile storage.durablePaths (isUnder owner directory)
    durableDirectories :=
      promote storage.directories storage.durableDirectories (isUnder owner directory) }

def syncDir (fails : Bool) :
    Except StorageError Storage := do
  let resolved ← storage.resolvePath owner path false
  storage.requireDirectory owner resolved.1
  if fails then .error (.io "directory sync failed (simulated I/O error)")
  else .ok (storage.promoteUnder owner resolved.1)

/-- Forget a closed handle once the last of its dropped operations has landed. -/
def releaseClosedHandle (id : HandleId) : Storage :=
  match storage.handles.find id with
  | none => storage
  | some handle =>
    if handle.isClosed && decide (handle.pending = 0) then
      { storage with handles := storage.handles.remove id }.dropFileIfUnlinked handle.fileId
    else storage

/-- Close a handle: its reads are cancelled, and the writes `landing` counts are left to land. -/
def closeHandle (id : HandleId) (landing : Nat) : Storage :=
  match storage.handles.find id with
  | none => storage
  | some handle =>
    { storage with
      handles := storage.handles.insert id
        { handle with isClosed := true, pending := min landing handle.pending }
    }.releaseClosedHandle id

def beginOperation (id : HandleId) : Storage :=
  match storage.handles.find id with
  | none => storage
  | some handle =>
    if handle.isClosed then storage
    else { storage with
      handles := storage.handles.insert id { handle with pending := handle.pending + 1 } }

def endOperation (id : HandleId) : Storage :=
  match storage.handles.find id with
  | none => storage
  | some handle =>
    { storage with
      handles := storage.handles.insert id { handle with pending := handle.pending - 1 }
    }.releaseClosedHandle id

end Storage

end Moonpool.Sim
