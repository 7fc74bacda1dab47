import Std.Data.ExtTreeMap
import Moonpool.Lib.Image
import Moonpool.Lib.Proc
import Moonpool.Journal.Format

/-!
Owns the storage under a journal: the files of its directory, their names, what a crash
may leave of both, and the provider calls the journal makes.

A file is a map from byte offsets to contents.  A structure that is written and read
whole (a header copy, a persist record, a metainfo copy) stands at its first byte; an
entry stands as one content per byte, since a crash may keep any part of it.  Reading a
structure succeeds only on exactly what was written there as one: CRC32C is taken to
reject everything else.

A crash resolves each byte and each name in flight on its own, which covers every choice
made sector by sector.  A call may be told to fail (`Fate`), leaving part of its effect.
-/

namespace Moonpool.Journal

open Lib

/-! ### Contents -/

structure EntryImage where
  header : EntryHeader
  payload : List UInt8
deriving DecidableEq

def EntryImage.size (entry : EntryImage) : Nat :=
  recordSize + entry.payload.length

inductive Copy where
  | a
  | b
deriving DecidableEq

def Copy.start : Copy → Nat
  | a => 0
  | b => metaCopyBAt

inductive Content where
  | zero
  | damaged
  | header (header : SegmentHeader)
  | record (record : Record)
  | entry (entry : EntryImage) (nth : Nat)
  | metainfo (copy : Copy) (info : Meta)
deriving DecidableEq

namespace Content

def asHeader : Content → Option SegmentHeader
  | header found => some found
  | _ => none

def asSlot : Content → Slot
  | zero => .zero
  | record found => if found.index < found.count then .valid found else .damaged
  | _ => .damaged

def asMeta (copy : Copy) : Content → Option Meta
  | metainfo found info => if found = copy then some info else none
  | _ => none

end Content

/-- The entry whose every byte stands at `offset`, with its header's own check. -/
def intactAt (bytes : Nat → Content) (offset : Nat) : Option EntryImage :=
  match bytes offset with
  | .entry found 0 =>
    if found.header.index < found.header.count ∧ found.header.len = found.payload.length ∧
        ∀ nth ∈ List.range found.size, bytes (offset + nth) = .entry found nth then
      some found
    else
      none
  | _ => none

structure Buf where
  len : Nat
  content : Nat → Content

def Buf.region (buf : Buf) (offset : Nat) : Nat → Option Content := fun spot =>
  if offset ≤ spot ∧ spot < offset + buf.len then some (buf.content (spot - offset)) else none

/-! ### Files -/

/-- A file: its size in blocks, visible and synced, and its bytes. -/
structure File where
  size : Nat
  syncedSize : Nat
  data : Image Nat Content

structure Bytes where
  size : Nat
  content : Nat → Content

namespace File

def empty : File := ⟨0, 0, .settled fun _ => .zero⟩

def visible (file : File) : Bytes := ⟨file.size, file.data.visible⟩

def write (file : File) (offset : Nat) (buf : Buf) : File :=
  { file with
    size := max file.size (alignUp (offset + buf.len) block / block)
    data := file.data.write (buf.region offset) }

def flush (file : File) (offset len : Nat) : File :=
  { file with data := file.data.flush fun spot => decide (offset ≤ spot ∧ spot < offset + len) }

def sync (file : File) : File := ⟨file.size, file.size, file.data.sync⟩

def allocate (file : File) (blocks : Nat) : File := { file with size := max file.size blocks }

def Resolves (file : File) (bytes : Bytes) : Prop :=
  (bytes.size = file.size ∨ bytes.size = file.syncedSize) ∧
    file.data.Resolves (· = .damaged) bytes.content

def ofBytes (bytes : Bytes) : File := ⟨bytes.size, bytes.size, .settled bytes.content⟩

end File

/-! ### Names -/

abbrev NameMap : Type := Std.ExtTreeMap Nat Nat

/-- The names in the journal's directory; each kind of name has its own table. -/
structure Names where
  metaFile : Option Nat
  metaTmp : Option Nat
  /-- `seg-<first batch>.wal`. -/
  segments : NameMap
  /-- `seg-<first batch>.wal.tmp`. -/
  temporaries : NameMap
  /-- `spare-<generation>-<number>.wal`, by `spareName`. -/
  spares : NameMap

def Names.none : Names := ⟨Option.none, Option.none, ∅, ∅, ∅⟩

def spareName (generation number : Nat) : Nat :=
  generation * 2 ^ 32 + number

/-- The names a crash may leave: each is as it was synced or as it was last seen. -/
structure Names.Resolves (synced seen names : Names) : Prop where
  metaFile : names.metaFile = synced.metaFile ∨ names.metaFile = seen.metaFile
  metaTmp : names.metaTmp = synced.metaTmp ∨ names.metaTmp = seen.metaTmp
  segments : ∀ first : Nat, names.segments[first]? = synced.segments[first]? ∨
    names.segments[first]? = seen.segments[first]?
  temporaries : ∀ first : Nat, names.temporaries[first]? = synced.temporaries[first]? ∨
    names.temporaries[first]? = seen.temporaries[first]?
  spares : ∀ spare : Nat, names.spares[spare]? = synced.spares[spare]? ∨
    names.spares[spare]? = seen.spares[spare]?

/-! ### The disk -/

inductive FileId where
  | info (number : Nat)
  | segment (number : Nat)
deriving DecidableEq

/-- The journal's directory and files, with what is not yet durable. -/
structure Disk where
  synced : Names
  names : Names
  files : FileId → File
  next : Nat

structure Shot where
  names : Names
  files : FileId → Bytes

namespace Disk

def empty : Disk := ⟨.none, .none, fun _ => .empty, 0⟩

def setFile (disk : Disk) (id : FileId) (file : File) : Disk :=
  { disk with files := Function.update disk.files id file }

def shot (disk : Disk) : Shot := ⟨disk.names, fun id => (disk.files id).visible⟩

structure Resolves (disk : Disk) (shot : Shot) : Prop where
  names : disk.synced.Resolves disk.names shot.names
  files : ∀ id, (disk.files id).Resolves (shot.files id)

def crashed (disk : Disk) (shot : Shot) : Disk :=
  ⟨shot.names, shot.names, fun id => .ofBytes (shot.files id), disk.next⟩

end Disk

/-! ### Provider calls -/

/-- What a failing call leaves: which of its bytes (or its name change, at 0) became visible, and
which durable. -/
structure Fault where
  shown : Nat → Bool
  kept : Nat → Bool

inductive Fate where
  | done
  | fails (fault : Fault)

/-- The disk and the fate of each call to come; past the list every call succeeds. -/
structure World where
  disk : Disk
  fates : List Fate

inductive IoError where
  | failed
  | notFound
deriving DecidableEq

abbrev Task (ε α : Type) : Type := Proc World ε α

/-- One provider call. It passes through the stages `midway` and has the effect `full`; when it
fails it leaves `partway`. -/
def call {α : Type} (midway : List (Disk → Disk)) (full : Disk → Disk)
    (partway : Fault → Disk → Disk) (answer : Disk → α) : Task IoError α := fun world =>
  match world.fates with
  | .fails fault :: rest =>
    ⟨[⟨partway fault world.disk, rest⟩], ⟨partway fault world.disk, rest⟩, .error .failed⟩
  | fates =>
    ⟨(midway ++ [full]).map fun effect => ⟨effect world.disk, fates.tail⟩,
      ⟨full world.disk, fates.tail⟩, .ok (answer world.disk)⟩

def query {α : Type} (answer : Disk → α) : Task IoError α := fun world =>
  match world.fates with
  | .fails _ :: rest => ⟨[], ⟨world.disk, rest⟩, .error .failed⟩
  | fates => ⟨[], ⟨world.disk, fates.tail⟩, .ok (answer world.disk)⟩

def openFile (name : Names → Option Nat) : Task IoError Nat := do
  match ← query fun disk => name disk.names with
  | some number => pure number
  | none => Proc.fail .notFound

/-- `provider.rename` and `provider.delete`: change the visible names. -/
def alterNames (present : Names → Bool) (change : Names → Names) : Task IoError Unit := fun world =>
  if present world.disk.names then
    call [] (fun disk => { disk with names := change disk.names })
      (fun fault disk => if fault.shown 0 then { disk with names := change disk.names } else disk)
      (fun _ => ()) world
  else
    ⟨[], ⟨world.disk, world.fates.tail⟩, .error .notFound⟩

def syncDir : Task IoError Unit :=
  call [] (fun disk => { disk with synced := disk.names })
    (fun fault disk => if fault.kept 0 then { disk with synced := disk.names } else disk)
    fun _ => ()

def Disk.created (disk : Disk) (kind : Nat → FileId) (named : Nat → Names → Names) : Disk :=
  { disk.setFile (kind disk.next) .empty with
    names := named disk.next disk.names, next := disk.next + 1 }

/-- `provider.open` with `create_new`. -/
def createFile (kind : Nat → FileId) (named : Nat → Names → Names) : Task IoError Nat :=
  call [] (fun disk => disk.created kind named)
    (fun fault disk => if fault.shown 0 then disk.created kind named else disk)
    fun disk => disk.next

def allocate (id : FileId) (blocks : Nat) : Task IoError Unit :=
  call [] (fun disk => disk.setFile id ((disk.files id).allocate blocks))
    (fun fault disk =>
      if fault.shown 0 then disk.setFile id ((disk.files id).allocate blocks) else disk)
    fun _ => ()

/-- The part of a buffer a failed write leaves: nothing outside `shown`. -/
def Buf.shownBy (buf : Buf) (offset : Nat) (shown : Nat → Bool) : Nat → Option Content :=
  fun spot => if shown spot then buf.region offset spot else none

/-- What a failed write leaves: the bytes `kept` picks are durable, the others `shown` picks are
visible. -/
def File.writePartway (file : File) (offset : Nat) (buf : Buf) (fault : Fault) : File :=
  { file with
    size := if fault.shown 0 then (file.write offset buf).size else file.size
    data := (file.data.write (buf.shownBy offset fun spot => fault.shown spot || fault.kept spot)).flush
      fun spot => decide (offset ≤ spot ∧ spot < offset + buf.len) && fault.kept spot }

def writeBlocks (id : FileId) (offset : Nat) (buf : Buf) : Task IoError Unit :=
  call [] (fun disk => disk.setFile id ((disk.files id).write offset buf))
    (fun fault disk => disk.setFile id ((disk.files id).writePartway offset buf fault))
    fun _ => ()

/-- `write_blocks_durable`: visible first, then durable, its own range only. -/
def writeBlocksDurable (id : FileId) (offset : Nat) (buf : Buf) : Task IoError Unit :=
  call [fun disk => disk.setFile id ((disk.files id).write offset buf)]
    (fun disk => disk.setFile id (((disk.files id).write offset buf).flush offset buf.len))
    (fun fault disk => disk.setFile id ((disk.files id).writePartway offset buf fault))
    fun _ => ()

/-- `file.sync` and `file.sync_data`: one, since no file changes size after its first sync. -/
def syncFile (id : FileId) : Task IoError Unit :=
  call [] (fun disk => disk.setFile id (disk.files id).sync)
    (fun fault disk => disk.setFile id
      { disk.files id with data := (disk.files id).data.flush fault.kept })
    fun _ => ()

end Moonpool.Journal
