import Moonpool.Journal.Batch

/-!
Owns the meta file: two checksummed copies of the metainfo in one file, written one after
the other, each durable before the next (`meta.rs`).
-/

namespace Moonpool.Journal

open Lib

namespace MetaFile

def copyBuf (copy : Copy) (info : Meta) : Buf :=
  ⟨block, fun spot => if spot = 0 then .metainfo copy info else .zero⟩

def imageBuf (info : Meta) : Buf :=
  ⟨metaFileBlocks * block, fun spot =>
    if spot = 0 then .metainfo .a info else if spot = metaCopyBAt then .metainfo .b info else .zero⟩

def removeLeftover : Task IoError PUnit := do
  let found ← query fun disk => disk.names.metaTmp.isSome
  Proc.when found (alterNames (·.metaTmp.isSome) fun names => { names with metaTmp := none })

/-- Create the meta file with both copies of `info`: a synced temporary file, published by a
rename. -/
def create (info : Meta) : Task OpenError Nat := viaOpen do
  removeLeftover
  let file ← createFile .info fun number names => { names with metaTmp := some number }
  writeBlocks (.info file) 0 (imageBuf info)
  syncFile (.info file)
  alterNames (·.metaTmp.isSome) fun names =>
    { names with metaFile := names.metaTmp, metaTmp := none }
  syncDir
  openFile (·.metaFile)

/-- The valid copy with the higher sequence number, and the copy that is stale, if one is. Two
damaged copies, or two of one sequence that disagree, are lost. -/
def choose (content : Nat → Content) (journal : JournalId) :
    Except OpenError (Meta × Option Copy) :=
  let chosen : Except OpenError (Meta × Option Copy) :=
    match (content Copy.a.start).asMeta .a, (content Copy.b.start).asMeta .b with
    | some a, some b =>
      if a = b then .ok (a, none)
      else if a.seq = b.seq then .error .metaLost
      else if a.seq > b.seq then .ok (a, some .b)
      else .ok (b, some .a)
    | some a, none => .ok (a, some .b)
    | none, some b => .ok (b, some .a)
    | none, none => .error .metaLost
  match chosen with
  | .error error => .error error
  | .ok (info, stale) =>
    if info.journal ≠ journal then .error (.wrongJournal info.journal) else .ok (info, stale)

def writeDurable (file : Nat) (copy : Copy) (info : Meta) : Task IoError Unit :=
  writeBlocksDurable (.info file) copy.start (copyBuf copy info)

def update (file : Nat) (info : Meta) : Task IoError Unit := do
  writeDurable file .a info
  writeDurable file .b info

def repair (file : Nat) (info : Meta) : Option Copy → Task IoError Unit
  | some copy => writeDurable file copy info
  | none => pure ()

/-- The current value of the meta file `file`; a stale copy is rewritten, once the other is on the
disk. -/
def recover (file : Nat) (journal : JournalId) : Task OpenError (Nat × Meta × Bool) := do
  let size ← viaOpen (query fun disk => (disk.files (.info file)).size)
  if size ≠ metaFileBlocks then
    Proc.fail .metaLost
  else do
    viaOpen (syncFile (.info file))
    let content ← viaOpen (query fun disk => (disk.files (.info file)).data.visible)
    let (info, stale) ← Proc.lift (choose content journal)
    viaOpen (repair file info stale)
    pure (file, info, stale.isSome)

/-- Open the meta file and choose its current value; `none` when there is no meta file. -/
def openAt (journal : JournalId) : Task OpenError (Option (Nat × Meta × Bool)) := do
  match ← viaOpen (query fun disk => disk.names.metaFile) with
  | none => pure none
  | some _ => do
      let file ← viaOpen (openFile (·.metaFile))
      let found ← recover file journal
      pure (some found)

end MetaFile

end Moonpool.Journal
