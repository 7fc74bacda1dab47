import Moonpool.Journal.Spare
import Moonpool.Journal.Effects

/-!
Owns the runs of a journal as far as spares go: every commit and every open keeps the
spare's file apart from the files of the listed segments.
-/

namespace Moonpool.Journal

open Lib List

set_option linter.dupNamespace false

/-! ### What an open journal relies on -/

structure Disk.Steady (before after : Disk) : Prop where
  names : after.names = before.names
  synced : after.synced = before.synced
  sizes : ∀ number, (after.files (.segment number)).size = (before.files (.segment number)).size

theorem Disk.Steady.refl (disk : Disk) : disk.Steady disk := ⟨rfl, rfl, fun _ => rfl⟩

theorem Disk.Steady.trans {one two three : Disk} (first : one.Steady two)
    (second : two.Steady three) : one.Steady three :=
  ⟨second.names.trans first.names, second.synced.trans first.synced,
    fun number => (second.sizes number).trans (first.sizes number)⟩

theorem Disk.OffInfo.steady {before after : Disk} (off : before.OffInfo after) :
    before.Steady after :=
  ⟨off.names, off.synced, fun number => by rw [off.files]⟩

theorem Disk.steady_setFile (disk : Disk) {number : Nat} {file : File}
    (same : file.size = (disk.files (.segment number)).size) :
    disk.Steady (disk.setFile (.segment number) file) := by
  refine ⟨rfl, rfl, fun other => ?_⟩
  by_cases equal : other = number
  · rw [equal, Disk.setFile_same]
    exact same
  · rw [Disk.setFile_other _ (by simpa using equal)]

def Spared (journal : Journal) (disk : Disk) : Prop :=
  ∀ spare, journal.spare = some spare → ∃ file, disk.names.spares[spare]? = some file ∧
    ∀ first : Nat, disk.names.segments[first]? ≠ some file

/-- What an open journal keeps up for its spare. -/
structure Guards (id : JournalId) (geometry : Geometry) (journal : Journal) (disk : Disk) :
    Prop where
  own : journal.id = id
  shape : journal.config.geometry = geometry
  quiet : disk.Quiet
  segments : ∀ segment ∈ journal.segments, segment.geometry = geometry ∧
    CursorsWithin geometry (segment.persistNext, segment.entryNext) ∧
    (disk.files (.segment segment.file)).size = geometry.totalBlocks
  spare : Spared journal disk

structure Listed (journal : Journal) (disk : Disk) : Prop where
  names : ∀ segment ∈ journal.segments,
    disk.names.segments[segment.firstBatch]? = some segment.file
  nodup : (journal.segments.map (·.firstBatch)).Nodup

section Guards

variable {id : JournalId} {geometry : Geometry} {journal after : Journal} {disk later : Disk}

theorem Guards.steady (guards : Guards id geometry journal disk) (steady : disk.Steady later) :
    Guards id geometry journal later where
  own := guards.own
  shape := guards.shape
  quiet := guards.quiet.congr steady.synced steady.names
  segments := fun segment member => by
    rw [steady.sizes]
    exact guards.segments segment member
  spare := by
    unfold Spared
    rw [steady.names]
    exact guards.spare

theorem Guards.congr (guards : Guards id geometry journal disk) (own : after.id = journal.id)
    (shape : after.config = journal.config) (spare : after.spare = journal.spare)
    (segments : ∀ segment ∈ after.segments, ∃ old ∈ journal.segments,
      segment.geometry = old.geometry ∧ segment.file = old.file ∧
      CursorsWithin geometry (segment.persistNext, segment.entryNext)) :
    Guards id geometry after disk where
  own := own.trans guards.own
  shape := by rw [shape]; exact guards.shape
  quiet := guards.quiet
  segments := fun segment member => by
    obtain ⟨old, inside, sameGeometry, sameFile, within⟩ := segments segment member
    obtain ⟨oldGeometry, -, size⟩ := guards.segments old inside
    exact ⟨sameGeometry.trans oldGeometry, within, by rw [sameFile]; exact size⟩
  spare := by
    unfold Spared
    rw [spare]
    exact guards.spare

theorem Guards.withBook {book : Book} (guards : Guards id geometry journal disk)
    (same : Book.SameSegments journal.segments book.segments) :
    Guards id geometry { journal with toBook := book } disk := by
  refine guards.congr rfl rfl rfl fun segment member => ?_
  obtain ⟨old, inside, idle⟩ := same.origin member
  rw [Segment.eq_of_idle idle]
  exact ⟨old, inside, rfl, rfl, (guards.segments old inside).2.1⟩

end Guards

/-! ### Removing dead segments -/

section Removal

variable {id : JournalId} {geometry : Geometry} {journal : Journal} {disk : Disk}
  {front next : Segment} {rest : List Segment}

private def retiredDisk (journal : Journal) (disk : Disk) (first : Nat) : Disk :=
  { disk with names := disk.names.retire journal first, synced := disk.names.retire journal first }

theorem Guards.retire (guards : Guards id geometry journal disk)
    (named : Named id geometry disk.shot)
    (there : disk.names.segments.contains front.firstBatch = true)
    (shape : journal.segments = front :: next :: rest) :
    Guards id geometry { journal.retired with segments := next :: rest }
      (retiredDisk journal disk front.firstBatch) := by
  have own : journal.retired.id = journal.id := by
    unfold Journal.retired
    split <;> rfl
  have config : journal.retired.config = journal.config := by
    unfold Journal.retired
    split <;> rfl
  refine ⟨own.trans guards.own, by rw [← guards.shape, ← config], ⟨rfl, rfl⟩,
    fun segment member => guards.segments segment ?_, ?_⟩
  · rw [shape]
    exact mem_cons_of_mem _ member
  · intro spare kept
    have segments : (retiredDisk journal disk front.firstBatch).names.segments =
        disk.names.segments.erase front.firstBatch := Names.retire_segments _ _
    rw [segments]
    change journal.retired.spare = some spare at kept
    cases before : journal.spare with
    | none =>
      -- The retired segment's file is the spare: no other segment's name stands for it.
      rw [Std.ExtTreeMap.contains_eq_isSome_getElem?, Option.isSome_iff_exists] at there
      obtain ⟨file, listed⟩ := there
      have name : spare = spareName journal.generation journal.sparesNamed := by
        simpa [Journal.retired, before] using kept.symm
      have spares : (retiredDisk journal disk front.firstBatch).names.spares =
          disk.names.spares.alter spare fun _ => disk.names.segments[front.firstBatch]? := by
        simp [retiredDisk, Names.retire, before, name]
      refine ⟨file, ?_, fun first found => ?_⟩
      · rw [spares, Std.ExtTreeMap.getElem?_alter_self]
        exact listed
      · obtain ⟨apart, also⟩ := NameMap.of_erase found
        exact apart (named.unique also listed)
    | some old =>
      have same : spare = old := by simpa [Journal.retired, before] using kept.symm
      have spares : (retiredDisk journal disk front.firstBatch).names.spares =
          disk.names.spares := by
        simp [retiredDisk, Names.retire, before]
      obtain ⟨file, stands, absent⟩ := guards.spare old before
      refine ⟨file, ?_, fun first found => absent first (NameMap.of_erase found).2⟩
      rw [spares, same]
      exact stands

theorem Listed.retire (listed : Listed journal disk)
    (shape : journal.segments = front :: next :: rest) :
    Listed { journal.retired with segments := next :: rest }
      (retiredDisk journal disk front.firstBatch) := by
  have nodup := listed.nodup
  rw [shape, map_cons, nodup_cons] at nodup
  refine ⟨fun segment member => ?_, nodup.2⟩
  have segments : (retiredDisk journal disk front.firstBatch).names.segments =
      disk.names.segments.erase front.firstBatch := Names.retire_segments _ _
  rw [segments, Std.ExtTreeMap.getElem?_erase, if_neg, listed.names segment]
  · rw [shape]
    exact mem_cons_of_mem _ member
  · intro same
    have equal : front.firstBatch = segment.firstBatch := Std.LawfulEqCmp.eq_of_compare same
    exact nodup.1 (equal ▸ mem_map_of_mem member)

theorem keeps_removeDeadGuarded {world : World} (listed : Prop)
    (sound : Sound True (Named id geometry) world)
    (guards : Guards id geometry journal world.disk) (names : listed → Listed journal world.disk) :
    Keeps True (Named id geometry) journal.removeDeadSegments world
      (fun result disk => Guards id geometry result.1 disk ∧ (listed → Listed result.1 disk))
      fun _ _ => True := by
  refine (keeps_removeDead (fun journal disk => Guards id geometry journal disk ∧
    (listed → Listed journal disk)) ?_ _ journal 0 world sound ⟨guards, names⟩
    (le_refl _)).post fun _ _ _ holds => holds.1
  rintro journal disk fates front next rest sound ⟨guards, names⟩ shape -
  refine (keeps_retireFront named_blind sound guards.quiet (.inl trivial) ?_).post ?_
  · intro shot resolved
    exact (sound.safe.shots shot resolved).erase _ (guards.quiet.segments_eq resolved)
  · rintro _ _ - ⟨rfl, there, rfl⟩
    exact ⟨guards.retire sound.safe.visible there shape,
      fun wanted => (names wanted).retire shape⟩

end Removal

/-! ### Writes into a segment -/

section Writes

/-- The task leaves names and sizes as they are, and the segments named throughout. -/
abbrev Steadies {ε α : Type} (id : JournalId) (geometry : Geometry) (body : Task ε α)
    (world : World) : Prop :=
  Keeps True (Named id geometry) body world (fun _ disk => world.disk.Steady disk) fun _ _ => True

variable {id : JournalId} {geometry : Geometry} {world : World} {file offset : Nat} {buf : Buf}

theorem Steadies.bind {ε α β : Type} {first : Task ε α} {next : α → Task ε β}
    (one : Steadies id geometry first world)
    (two : ∀ value disk fates, Sound True (Named id geometry) ⟨disk, fates⟩ →
      world.disk.Steady disk → Steadies id geometry (next value) ⟨disk, fates⟩) :
    Steadies id geometry (first >>= next) world :=
  Keeps.bind one fun value disk fates sound steady =>
    (two value disk fates sound steady).post fun _ _ _ later => steady.trans later

theorem named_absorbs (safe : Safe (Named id geometry) world.disk)
    (low : Geometry.persistStart ≤ offset) :
    Absorbs (Named id geometry) world.disk (.segment file) (buf.region offset) := by
  intro shot bytes resolved overlay
  refine (safe.shots shot resolved).past (fun spot value fresh => ?_) overlay
  obtain ⟨inside, -, -⟩ := Buf.region_eq_some.mp fresh
  omega

section

variable (sound : Sound True (Named id geometry) world)
  (whole : (world.disk.files (.segment file)).size = geometry.totalBlocks)
  (low : Geometry.persistStart ≤ offset) (room : offset + buf.len ≤ geometry.entryEnd)

include sound whole low room

theorem keeps_writeNamed :
    Steadies id geometry (writeBlocks (.segment file) offset buf) world := by
  have within : (world.disk.files (.segment file)).Within offset buf := within_of_le whole room
  refine (keeps_writeBlocks sound within (named_absorbs sound.safe low) fun _ => trivial).post ?_
  rintro _ _ - rfl
  exact world.disk.steady_setFile within.size

theorem keeps_writeDurableNamed :
    Steadies id geometry (writeBlocksDurable (.segment file) offset buf) world := by
  have within : (world.disk.files (.segment file)).Within offset buf := within_of_le whole room
  refine (keeps_writeBlocksDurable sound within (named_absorbs sound.safe low)
    fun _ => trivial).post ?_
  rintro _ _ - rfl
  exact world.disk.steady_setFile within.size

end

theorem keeps_syncNamed (sound : Sound True (Named id geometry) world) (file : Nat) :
    Steadies id geometry (syncFile (.segment file)) world := by
  refine (keeps_syncFile sound fun _ _ => trivial).post ?_
  rintro _ _ - rfl
  exact world.disk.steady_setFile rfl

variable {prepared : Prepared}

theorem keeps_syncBatchNamed (inside : prepared.Inside geometry) {retries : Nat} :
    ∀ {world : World}, Sound True (Named id geometry) world →
      (world.disk.files (.segment file)).size = geometry.totalBlocks →
      Steadies id geometry (syncBatch file prepared retries) world := by
  induction retries with
  | zero => exact fun sound _ => keeps_syncNamed sound file
  | succ retries ih =>
    intro world sound whole
    -- A failed sync changes no size; the batch is written again.
    have tried : Keeps True (Named id geometry) (syncFile (.segment file)) world
        (fun _ disk => world.disk.Steady disk) fun _ disk => world.disk.Steady disk := by
      refine keeps_call sound nofun
        (sound.safe.syncFile _) (fun fault => ?_) (fun _ => world.disk.steady_setFile rfl)
        (world.disk.steady_setFile rfl)
      refine .setFile sound.safe.numbered (fun durable => durable) fun shot resolved =>
        sound.safe.shots shot ?_
      exact resolved.narrow fun _ own => ⟨own.1, Image.resolves_of_flush own.2⟩
    refine (Keeps.attempt tried).bind ?_
    rintro (error | _) disk fates trySound steady
    · have wholeNow := (steady.2.sizes file).trans whole
      refine ((keeps_writeNamed trySound wholeNow inside.entries.1 inside.entries.2).bind ?_).post
        fun _ _ _ later => steady.2.trans later
      intro _ entriesDisk fates entrySound entrySteady
      have wholeThen := (entrySteady.sizes file).trans wholeNow
      refine (keeps_writeNamed entrySound wholeThen inside.records.1 inside.records.2).bind ?_
      intro _ recordsDisk fates recordSound recordSteady
      exact ih recordSound ((recordSteady.sizes file).trans wholeThen)
    · exact .pure trySound steady

theorem named_deaf : Deaf (Named id geometry) := by
  intro shot number bytes named first other listed
  obtain ⟨prev, heads⟩ := named first other listed
  refine ⟨prev, ?_⟩
  exact heads

theorem keeps_writeProtocolNamed (inside : prepared.Inside geometry)
    (sound : Sound True (Named id geometry) world)
    (whole : (world.disk.files (.segment file)).size = geometry.totalBlocks) (metaFile : Nat)
    (info : Option Meta) (durability : Durability) :
    Steadies id geometry (writeProtocol file metaFile prepared info durability) world := by
  have update : ∀ info disk fates, Sound True (Named id geometry) ⟨disk, fates⟩ →
      world.disk.Steady disk → Steadies id geometry
        ((MetaFile.update metaFile info).mapError (·, Durable.unknown)) ⟨disk, fates⟩ := by
    intro info disk fates batchSound _
    exact .mapError ((keeps_updateInfo named_deaf batchSound metaFile info).post
      fun _ _ _ off => off.steady)
  have ordered : Steadies id geometry (writeOrdered file prepared) world := by
    refine .bind (.mapError (keeps_writeDurableNamed sound whole inside.entries.1
      inside.entries.2)) ?_
    intro _ disk fates entrySound entrySteady
    exact .mapError (keeps_writeDurableNamed entrySound
      ((entrySteady.sizes file).trans whole) inside.records.1 inside.records.2)
  have batched : Steadies id geometry (writeBatched file prepared) world := by
    refine .bind (.mapError (keeps_writeNamed sound whole inside.entries.1
      inside.entries.2)) ?_
    intro _ disk fates entrySound entrySteady
    have wholeNow := (entrySteady.sizes file).trans whole
    refine .bind (.mapError (keeps_writeNamed entrySound wholeNow inside.records.1
      inside.records.2)) ?_
    intro _ disk fates recordSound recordSteady
    exact .mapError (keeps_syncBatchNamed inside recordSound
      ((recordSteady.sizes file).trans wholeNow))
  cases info with
  | none =>
    cases durability with
    | ordered => exact ordered.bind fun _ _ _ written _ => .pure written (.refl _)
    | batched => exact batched.bind fun _ _ _ written _ => .pure written (.refl _)
  | some info =>
    cases durability with
    | ordered => exact ordered.bind fun _ => update info
    | batched => exact batched.bind fun _ => update info

end Writes

/-! ### Commits -/

section Commit

variable {id : JournalId} {geometry : Geometry} {world : World} {journal : Journal}
  {prepared : Prepared}

section

variable (guards : Guards id geometry journal world.disk)

include guards

theorem Guards.unlisted (sound : Sound True (Named id geometry) world) {file : Nat}
    (onto : journal.RollsOnto world.disk file) (first : Nat) :
    world.disk.names.segments[first]? ≠ some file := by
  intro listed
  unfold Journal.RollsOnto at onto
  cases spare : journal.spare with
  | none =>
    rw [spare] at onto
    have below := (sound.safe.numbered.names.segments first file listed).1
    omega
  | some name =>
    rw [spare] at onto
    obtain ⟨number, stands, absent⟩ := guards.spare name spare
    simp only at onto
    rw [stands] at onto
    cases onto
    exact absent first listed

theorem Guards.rollSafe (sound : Sound True (Named id geometry) world) :
    RollSafe (Named id geometry) journal prepared world.disk := by
  have unlisted : ∀ file, journal.RollsOnto world.disk file → ∀ shot, world.disk.Resolves shot →
      ∀ first : Nat, shot.names.segments[first]? ≠ some file := by
    intro file onto shot resolved first
    rw [guards.quiet.segments_eq resolved]
    exact guards.unlisted sound onto first
  have header : journal.rollHeader prepared = ⟨id, prepared.seq, journal.lastBatch, geometry⟩ := by
    rw [Journal.rollHeader, guards.own, guards.shape]
  refine ⟨fun spare kept => ?_, fun none shot bytes resolved _ => ?_,
    fun file shot bytes onto resolved headed => ?_⟩
  · obtain ⟨file, stands, -⟩ := guards.spare spare kept
    refine ⟨file, stands, fun shot bytes resolved _ => ?_⟩
    have onto : journal.RollsOnto world.disk file := by simpa [Journal.RollsOnto, kept] using stands
    exact (sound.safe.shots shot resolved).unlisted (unlisted file onto shot resolved)
  · have onto : journal.RollsOnto world.disk world.disk.next := by
      simp [Journal.RollsOnto, none]
    exact (sound.safe.shots shot resolved).unlisted (unlisted _ onto shot resolved)
  · rw [header] at headed
    obtain ⟨base, -, size, rfl⟩ := headed
    obtain ⟨first, second, -⟩ := written_headers base _
    exact (sound.safe.shots shot resolved).born (guards.quiet.segments_eq resolved)
      ⟨size, first, second⟩ (unlisted file onto shot resolved)

theorem Guards.rolled {disk : Disk}
    {result : Journal × Segment} {file : Nat}
    (done : RollDone journal prepared world.disk result disk file) :
    Guards id geometry result.1 disk := by
  have size : (disk.files (.segment file)).size = geometry.totalBlocks := by
    obtain ⟨base, -, size, same⟩ := done.rolled.headed _ (File.resolves_visible _)
    have visible : (disk.files (.segment file)).visible.size = base.size := by rw [same]; rfl
    rw [← guards.shape]
    exact visible.trans size
  have others : ∀ number, (world.disk.files (.segment number)).size = geometry.totalBlocks →
      (disk.files (.segment number)).size = geometry.totalBlocks := by
    intro number whole
    by_cases same : number = file
    · rw [same]
      exact size
    · rw [done.rolled.files _ (by simpa using same)]
      exact whole
  rw [done.memory]
  refine ⟨guards.own, guards.shape, done.rolled.quiet, fun segment member => ?_,
    fun spare kept => by cases kept⟩
  rcases mem_append.mp member with old | new
  · obtain ⟨sameGeometry, within, whole⟩ := guards.segments segment old
    exact ⟨sameGeometry, within, others _ whole⟩
  · rw [mem_singleton.mp new, done.segment]
    refine ⟨guards.shape, ⟨le_refl _, ?_⟩, size⟩
    exact le_of_eq (by rw [← guards.shape]; rfl)

end

/-- A commit that fails has been refused only if it changed nothing. -/
def Refusal (journal : Journal) (before : Disk) (failure : Journal × CommitError) (after : Disk) :
    Prop :=
  failure.2.refuses = true → failure.1 = journal ∧ after = before

theorem Refusal.of_not {before after : Disk} {failure : Journal × CommitError}
    (hard : failure.2.refuses = false) : Refusal journal before failure after := by
  intro refused
  rw [hard] at refused
  cases refused

theorem keeps_withBook {book : Except String Book}
    (sound : Sound True (Named id geometry) world) :
    Keeps True (Named id geometry) (journal.withBook book) world
      (fun after disk => disk = world.disk ∧ ∃ found, book = .ok found ∧
        after = { journal with toBook := found })
      fun failure _ => failure.2.refuses = false := by
  cases book with
  | ok found => exact .pure sound ⟨rfl, found, rfl, rfl⟩
  | error message => exact .fail sound trivial rfl

theorem keeps_afterCommitGuarded (sound : Sound True (Named id geometry) world)
    (guards : Guards id geometry journal world.disk) :
    Keeps True (Named id geometry) journal.afterCommit world
      (Guards id geometry)
      fun failure _ => failure.2.refuses = false := by
  refine (keeps_withBook sound).bind ?_
  rintro _ _ fates bookSound ⟨rfl, book, dropped, rfl⟩
  have kept := guards.withBook (Book.dropEntries_same dropped)
  refine (Keeps.attempt (keeps_removeDeadGuarded False bookSound kept fun absurd =>
    absurd.elim)).bind ?_
  rintro (⟨after, error⟩ | ⟨after, count⟩) disk fates removeSound holds
  · exact .fail removeSound trivial rfl
  · cases checked : after.toBook.assertInvariants after.info with
    | ok _ =>
      simp only [checked]
      exact .pure removeSound holds.1
    | error message =>
      simp only [checked]
      exact .fail removeSound trivial rfl

theorem keeps_absorbGuarded {batch : Batch} {segment : Segment}
    (inside : prepared.Inside geometry) (sound : Sound True (Named id geometry) world)
    (guards : Guards id geometry journal world.disk) :
    Keeps True (Named id geometry) (journal.absorb batch prepared segment) world
      (Guards id geometry)
      fun failure _ => failure.2.refuses = false := by
  refine (keeps_withBook sound).bind ?_
  rintro _ _ fates bookSound ⟨rfl, book, applied, rfl⟩
  have moved : Guards id geometry { journal with
      segments := journal.segments.map fun open_ =>
        if open_.firstBatch = segment.firstBatch then
          { open_ with
            persistNext := prepared.persistAt + prepared.recordBuf.len
            entryNext := prepared.entryAt + prepared.entriesLen }
        else
          open_ } world.disk := by
    refine guards.congr rfl rfl rfl fun moved member => ?_
    obtain ⟨old, within, rfl⟩ := mem_map.mp member
    split
    · refine ⟨old, within, rfl, rfl, ?_⟩
      have persist := inside.persistAt
      have entry := inside.entryAt
      exact ⟨by simp only; omega, by simp only; omega⟩
    · exact ⟨old, within, rfl, rfl, (guards.segments old within).2.1⟩
  have kept : Guards id geometry { journal with toBook := book } world.disk :=
    moved.withBook (Book.applyAll_same applied)
  exact keeps_afterCommitGuarded bookSound
    (kept.congr rfl rfl rfl fun open_ member =>
      ⟨open_, member, rfl, rfl, (kept.segments open_ member).2.1⟩)

variable [Crc32c]

section

variable {batch : Batch} (sound : Sound True (Named id geometry) world)
  (guards : Guards id geometry journal world.disk)

include sound guards

theorem keeps_commitWritesGuarded :
    Keeps True (Named id geometry) (journal.commitWrites batch) world
      (Guards id geometry)
      (Refusal journal world.disk) := by
  have prepares : Keeps True (Named id geometry)
      (Proc.lift ((journal.prepare batch).mapError (journal, ·))) world
      (fun prepared disk => prepared.Ready journal batch ∧ disk = world.disk)
      (Refusal journal world.disk) := by
    refine (Keeps.lift_faulty trivial sound fun error shape => ?_).post ?_
    · obtain ⟨cause, -, rfl⟩ := mapError_error shape
      exact fun _ => ⟨rfl, rfl⟩
    · rintro prepared _ - ⟨shape, rfl⟩
      exact ⟨Journal.prepare_ok (mapError_ok shape), rfl⟩
  refine prepares.bind ?_
  rintro prepared _ fates prepareSound ⟨ready, rfl⟩
  have chosen : Keeps True (Named id geometry) (journal.segmentFor prepared) ⟨world.disk, fates⟩
      (fun result disk => Guards id geometry result.1 disk ∧ result.2 ∈ result.1.segments ∧
        result.2.persistNext + Record.blocksFor batch.writes.length * block ≤ geometry.persistEnd ∧
        result.2.entryNext + prepared.entriesLen ≤ geometry.entryEnd)
      (Refusal journal world.disk) := by
    refine (keeps_segmentFor named_blind prepareSound guards.quiet (.inl trivial)
      fun _ => guards.rollSafe sound).mono ?_ fun _ _ hard => Refusal.of_not hard
    rintro ⟨after, segment⟩ disk - (⟨rfl, rfl, last, fits⟩ | ⟨-, file, done⟩)
    · have member : segment ∈ after.segments := mem_of_getLast? last
      have room := ready.room_active fits
      rw [(guards.segments segment member).1] at room
      exact ⟨guards, member, room⟩
    · have room := ready.room_fresh file
      rw [guards.shape, ← done.segment] at room
      refine ⟨guards.rolled done, ?_, room⟩
      rw [done.memory]
      exact mem_append_right _ (mem_singleton.mpr rfl)
  refine chosen.bind ?_
  rintro ⟨rolled, segment⟩ disk fates chosenSound ⟨rolledGuards, member, persist, entry⟩
  have places : Keeps True (Named id geometry)
      (Proc.lift ((prepared.place segment.persistNext segment.entryNext).mapError (rolled, ·)))
      ⟨disk, fates⟩ (fun placed after => placed.Inside geometry ∧ after = disk)
      (Refusal journal world.disk) := by
    refine (Keeps.lift_faulty trivial chosenSound fun error shape => ?_).post ?_
    · obtain ⟨cause, failed, rfl⟩ := mapError_error shape
      obtain ⟨message, rfl⟩ := place_panics failed
      exact .of_not rfl
    · rintro placed _ - ⟨shape, rfl⟩
      exact ⟨ready.inside (mapError_ok shape)
        (rolledGuards.segments segment member).2.1 persist entry, rfl⟩
  refine places.bind ?_
  rintro placed disk fates placeSound ⟨inside, rfl⟩
  refine (Keeps.mapError ((keeps_writeProtocolNamed inside placeSound
    (rolledGuards.segments segment member).2.2 _ _ _).failing
      fun _ _ _ => Refusal.of_not rfl)).bind ?_
  intro _ after fates writeSound steady
  exact (keeps_absorbGuarded inside writeSound (rolledGuards.steady steady)).failing
    fun _ _ => Refusal.of_not

theorem keeps_commitGuarded :
    Keeps True (Named id geometry) (journal.commit batch) world
      (Guards id geometry)
      (Refusal journal world.disk) := by
  have refuses : ∀ error : CommitError, Keeps True (Named id geometry)
      (Proc.fail (journal, error) : Task (Journal × CommitError) Journal) world
      (Guards id geometry) (Refusal journal world.disk) :=
    fun _ => Keeps.fail sound trivial fun _ => ⟨rfl, rfl⟩
  unfold Journal.commit
  split
  · exact refuses _
  split
  · exact refuses _
  split
  · exact refuses _
  split
  · exact refuses _
  split
  · exact refuses _
  split
  · unfold Journal.commitMetaOnly
    split
    · refine (Keeps.mapError ((keeps_updateInfo named_deaf sound _ _).failing
        fun _ _ _ => Refusal.of_not rfl)).bind ?_
      intro _ disk fates updateSound off
      have kept : Guards id geometry { journal with info := journal.nextMeta batch } disk :=
        (guards.steady off.steady).congr rfl rfl rfl fun segment member =>
          ⟨segment, member, rfl, rfl, (guards.segments segment member).2.1⟩
      exact (keeps_afterCommitGuarded updateSound kept).failing fun _ _ => Refusal.of_not
    · exact .pure sound guards
  · exact keeps_commitWritesGuarded sound guards

end

end Commit

/-! ### Opens -/

section Open

variable {id : JournalId} {geometry : Geometry} {world : World}

theorem exists_preimages {α β : Type} {image : β → α} {Q : β → Prop} {values : List α}
    (each : ∀ value ∈ values, ∃ source, image source = value ∧ Q source) :
    ∃ sources : List β, sources.map image = values ∧ ∀ source ∈ sources, Q source := by
  induction values with
  | nil => exact ⟨[], rfl, nofun⟩
  | cons value rest ih =>
    obtain ⟨source, rfl, holds⟩ := each value mem_cons_self
    obtain ⟨sources, rfl, all⟩ := ih fun other member =>
      each other (mem_cons_of_mem _ member)
    refine ⟨source :: sources, rfl, fun other member => ?_⟩
    rcases mem_cons.mp member with rfl | later
    · exact holds
    · exact all other later

variable {disk : Disk}

theorem mem_keys {names : NameMap} {name : Nat} :
    name ∈ names.keys ↔ ∃ file, names[name]? = some file := by
  rw [Std.ExtTreeMap.mem_keys, Std.ExtTreeMap.mem_iff_contains,
    Std.ExtTreeMap.contains_eq_isSome_getElem?, Option.isSome_iff_exists]

theorem Named.parts (named : Named id geometry disk.shot) :
    ∃ parts : List SegmentLog, parts.map (·.first) = disk.names.segments.keys ∧
      ∀ part ∈ parts, disk.names.segments[part.first]? = some part.file ∧
        (disk.files (.segment part.file)).visible.Heads (part.header id geometry) := by
  refine exists_preimages fun first member => ?_
  obtain ⟨file, listed⟩ := mem_keys.mp member
  obtain ⟨prev, heads⟩ := named first file listed
  exact ⟨⟨first, prev, file⟩, rfl, listed, heads⟩

structure Opening (geometry : Geometry) (parts : List SegmentLog) (spare : Option Nat)
    (disk : Disk) : Prop where
  quiet : disk.Quiet
  names : ∀ part ∈ parts, disk.names.segments[part.first]? = some part.file
  sizes : ∀ part ∈ parts, (disk.files (.segment part.file)).size = geometry.totalBlocks
  nodup : (parts.map (·.first)).Nodup
  spare : ∀ name, spare = some name → ∃ file, disk.names.spares[name]? = some file ∧
    ∀ first : Nat, disk.names.segments[first]? ≠ some file

variable {spare : Option Nat}

theorem Opening.steady {parts : List SegmentLog} {later : Disk}
    (opening : Opening geometry parts spare disk) (steady : disk.Steady later) :
    Opening geometry parts spare later where
  quiet := opening.quiet.congr steady.synced steady.names
  names := by rw [steady.names]; exact opening.names
  sizes := fun part member => by rw [steady.sizes]; exact opening.sizes part member
  nodup := opening.nodup
  spare := by rw [steady.names]; exact opening.spare

theorem KeptSpare.spared {spare : Nat} (named : Named id geometry disk.shot)
    (kept : KeptSpare id geometry disk.names.segments.keys disk spare) :
    ∃ file, disk.names.spares[spare]? = some file ∧
      ∀ first : Nat, disk.names.segments[first]? ≠ some file := by
  obtain ⟨file, stands, -, apart⟩ := kept
  refine ⟨file, stands, fun first listed => ?_⟩
  obtain ⟨prev, heads⟩ := named first file listed
  refine apart first ?_ (mem_keys.mpr ⟨file, listed⟩)
  have header : (disk.files (.segment file)).data.visible 0 =
      .header ⟨id, first, prev, geometry⟩ := heads.first
  have twin : (disk.files (.segment file)).data.visible block =
      .header ⟨id, first, prev, geometry⟩ := heads.second
  simp [namedBatches, header, twin, Content.asHeader]

variable {segments : List Segment}

theorem keeps_syncSegmentsNamed : ∀ {world : World},
    Sound True (Named id geometry) world →
    Steadies id geometry (syncSegments segments) world := by
  induction segments with
  | nil => exact fun sound => Keeps.pure sound (Disk.Steady.refl _)
  | cons segment rest ih =>
    intro world sound
    refine (keeps_syncNamed sound segment.file).bind ?_
    exact fun _ _ _ syncSound _ => ih syncSound

theorem keeps_rewriteNamed {rewrite : Option (Nat × Nat × List Record)}
    (sound : Sound True (Named id geometry) world)
    (inside : RewriteWithin geometry segments.length rewrite)
    (sizes : ∀ segment ∈ segments,
      (world.disk.files (.segment segment.file)).size = geometry.totalBlocks) :
    Steadies id geometry (rewriteBatch segments rewrite) world := by
  rcases rewrite with _ | ⟨segmentIndex, offset, records⟩
  · exact .pure sound (Disk.Steady.refl _)
  obtain ⟨there, low, high⟩ := inside _ _ _ rfl
  have found : segments[segmentIndex]? = some (segments.get ⟨segmentIndex, there⟩) :=
    List.getElem?_eq_getElem there
  simp only [rewriteBatch, found]
  have whole := sizes _ (get_mem segments ⟨segmentIndex, there⟩)
  refine .mapError ((keeps_syncNamed sound _).bind ?_)
  intro _ disk fates syncSound first
  refine keeps_writeNamed syncSound ((first.sizes _).trans whole) low (le_trans high ?_)
  unfold Geometry.entryEnd Geometry.entryStart
  omega

variable {journal : Journal}

variable {durability : Durability}

theorem Opening.guards {parts : List SegmentLog} {cursors : List (Nat × Nat)}
    (opening : Opening geometry parts spare disk)
    (shape : segments = withCursors (parts.map (SegmentLog.opened geometry)) cursors)
    (length : cursors.length = parts.length)
    (within : ∀ pair ∈ cursors, CursorsWithin geometry pair) (own : journal.id = id)
    (config : journal.config = ⟨durability, geometry⟩) (kept : journal.spare = spare)
    (same : Book.SameSegments segments journal.segments) :
    Guards id geometry journal disk ∧ Listed journal disk := by
  have origin : ∀ segment ∈ journal.segments, ∃ part ∈ parts, ∃ pair ∈ cursors,
      segment = { part.opened geometry with
        persistNext := pair.1, entryNext := pair.2, live := segment.live } := by
    intro segment member
    obtain ⟨old, inside, idle⟩ := same.origin member
    rw [shape, withCursors, zipWith_map_left, ← map_uncurry_zip_eq_zipWith] at inside
    obtain ⟨⟨part, pair⟩, paired, rfl⟩ := mem_map.mp inside
    exact ⟨part, (of_mem_zip paired).1, pair, (of_mem_zip paired).2,
      Segment.eq_of_idle idle⟩
  have firsts : journal.segments.map (·.firstBatch) = parts.map (·.first) := by
    have names := same.firsts
    unfold Book.firsts at names
    rw [names, shape, withCursors, zipWith_map_left, ← map_uncurry_zip_eq_zipWith, map_map]
    have short : (parts.zip cursors).map Prod.fst = parts :=
      map_fst_zip (le_of_eq length.symm)
    have moved := congrArg (List.map SegmentLog.first) short
    rw [map_map] at moved
    exact moved
  refine ⟨⟨own, by rw [config], opening.quiet, fun segment member => ?_, ?_⟩,
    fun segment member => ?_, by rw [firsts]; exact opening.nodup⟩
  · obtain ⟨part, inside, pair, paired, equal⟩ := origin segment member
    rw [equal]
    exact ⟨rfl, within pair paired, opening.sizes part inside⟩
  · unfold Spared
    rw [kept]
    exact opening.spare
  · obtain ⟨part, inside, pair, paired, equal⟩ := origin segment member
    rw [equal]
    exact opening.names part inside

/-- What an open leaves for its caller, as far as its spare goes. -/
def Handed (id : JournalId) (geometry : Geometry) (result : Option (Journal × Recovery))
    (disk : Disk) : Prop :=
  ∀ journal recovery, result = some (journal, recovery) →
    Guards id geometry journal disk ∧ Listed journal disk

theorem keeps_finishOpenGuarded {recovery : Recovery}
    (sound : Sound True (Named id geometry) world)
    (guards : Guards id geometry journal world.disk) (listed : Listed journal world.disk) :
    Keeps True (Named id geometry) (finishOpen journal recovery) world (Handed id geometry)
      fun _ _ => True := by
  refine (Keeps.attempt (keeps_removeDeadGuarded True sound guards fun _ => listed)).bind ?_
  rintro (⟨after, error⟩ | ⟨after, count⟩) disk fates removeSound holds
  · exact .fail removeSound trivial trivial
  · cases checked : after.toBook.assertInvariants after.info with
    | ok _ =>
      simp only [checked]
      refine .pure removeSound ?_
      rintro _ _ ⟨⟩
      exact ⟨holds.1, holds.2 trivial⟩
    | error message =>
      simp only [checked]
      exact .fail removeSound trivial trivial

variable [Crc32c]

theorem keeps_recoverLogGuarded {listing : Listing} {metaFile : Nat} {info : Meta}
    {metaRepaired : Bool} (sound : Sound True (Named id geometry) world)
    (quiet : world.disk.Quiet)
    (listed : listing = ⟨world.disk.names.segments.keys, world.disk.names.spares.keys⟩) :
    Keeps True (Named id geometry)
      (recoverLog id ⟨durability, geometry⟩ listing metaFile info metaRepaired) world
      (Handed id geometry) fun _ _ => True := by
  subst listed
  have surveying : Surveying id geometry world.disk.names.segments.keys world.disk
      world.disk.names.spares.keys none :=
    ⟨quiet, fun spare => mem_keys.mp, Std.ExtTreeMap.nodup_keys, nofun⟩
  refine (keeps_keepOneSpare named_blind sound surveying).bind ?_
  rintro ⟨spare, removed⟩ disk fates spareSound ⟨tidied, keptSpare⟩
  rw [← tidied.segments] at keptSpare ⊢
  obtain ⟨parts, keys, each⟩ := spareSound.safe.visible.parts
  have opening : Opening geometry parts spare disk := by
    refine ⟨tidied.quiet, fun part member => (each part member).1,
      fun part member => (each part member).2.size, by rw [keys]; exact Std.ExtTreeMap.nodup_keys, ?_⟩
    exact fun name same => (keptSpare name same).spared spareSound.safe.visible
  have opens := keeps_openSegments spareSound each
  rw [keys] at opens
  refine opens.bind ?_
  rintro ⟨segments, repaired⟩ disk fates openSound ⟨rfl, rfl⟩
  refine (Keeps.mapError (keeps_query openSound trivial)).bind ?_
  rintro shot disk fates shotSound ⟨-, rfl⟩
  refine (Keeps.lift_faulty trivial shotSound fun _ _ => trivial).bind ?_
  rintro scanned disk fates scanSound ⟨done, rfl⟩
  have shapes : ∀ segment ∈ parts.map (SegmentLog.opened geometry),
      segment.geometry = geometry := by
    intro segment member
    obtain ⟨part, -, rfl⟩ := mem_map.mp member
    rfl
  obtain ⟨rewrite, length, on⟩ := scan_within shapes done
  have cursors := fun pair member => (on pair member).within
  rw [length_map] at rewrite length
  split
  · exact .fail scanSound trivial trivial
  have sizes : ∀ segment ∈ withCursors (parts.map (SegmentLog.opened geometry)) scanned.cursors,
      (disk.files (.segment segment.file)).size = geometry.totalBlocks := by
    intro segment member
    rw [withCursors, zipWith_map_left, ← map_uncurry_zip_eq_zipWith] at member
    obtain ⟨⟨part, pair⟩, paired, rfl⟩ := mem_map.mp member
    exact opening.sizes part (of_mem_zip paired).1
  have total : (withCursors (parts.map (SegmentLog.opened geometry)) scanned.cursors).length =
      parts.length := by
    simp [withCursors, length]
  refine .bind (keeps_rewriteNamed scanSound (by rw [total]; exact rewrite) sizes) ?_
  intro _ rewritten fates rewriteSound first
  refine (Keeps.mapError (keeps_syncSegmentsNamed rewriteSound)).bind ?_
  intro _ synced fates syncSound second
  refine (Keeps.mapError (keeps_syncInfo named_deaf syncSound metaFile)).bind ?_
  intro _ settled fates infoSound third
  have began : Keeps True (Named id geometry)
      (beginGeneration metaFile info scanned.lastBatch) ⟨settled, fates⟩
      (fun _ disk => settled.OffInfo disk) fun _ _ => True := by
    unfold beginGeneration
    split
    · exact .fail infoSound trivial trivial
    split
    · exact .fail infoSound trivial trivial
    · refine (Keeps.mapError (keeps_updateInfo named_deaf infoSound metaFile _)).bind ?_
      intro _ updated fates updateSound off
      exact .pure updateSound off
  refine began.bind ?_
  intro newInfo begun fates beginSound fourth
  have later := (first.trans second).trans (third.steady.trans fourth.steady)
  refine (Keeps.lift_faulty trivial beginSound fun _ _ => trivial).bind ?_
  rintro journal begun fates assembleSound ⟨assembled, rfl⟩
  obtain ⟨own, config, kept, same⟩ := assemble_ok (mapError_ok assembled)
  obtain ⟨guards, names⟩ := (opening.steady later).guards rfl length cursors own config kept same
  exact keeps_finishOpenGuarded assembleSound guards names

theorem keeps_openGuarded (sound : Sound True (Named id geometry) world) :
    Keeps True (Named id geometry) (openJournal id ⟨durability, geometry⟩) world
      (Handed id geometry) fun _ _ => True := by
  refine (Keeps.lift_faulty trivial sound fun _ _ => trivial).bind ?_
  rintro _ disk fates checkSound ⟨-, rfl⟩
  refine (keeps_listSegments named_blind checkSound).bind ?_
  rintro listing listed fates listSound ⟨shape, spares, tidied⟩
  refine (keeps_openInfo named_deaf listSound id).bind ?_
  rintro found disk fates infoSound off
  have quiet : disk.Quiet := tidied.quiet.congr off.synced off.names
  have names : listing = ⟨disk.names.segments.keys, disk.names.spares.keys⟩ := by
    rw [shape, off.names, tidied.segments, spares]
  rcases found with _ | ⟨metaFile, info, repaired⟩
  · dsimp only
    split
    · exact .pure infoSound fun _ _ absurd => by cases absurd
    · exact .fail infoSound trivial trivial
  · dsimp only
    split
    · exact .fail infoSound trivial trivial
    · exact keeps_recoverLogGuarded infoSound quiet names

omit [Crc32c] in
theorem named_nursery (safe : Safe (Named id geometry) disk) (info : Meta) :
    Nursery (Named id geometry) disk info := by
  have kept : ∀ base shot, disk.Resolves base → base.Beside disk.next shot →
      Named id geometry shot := by
    intro base shot resolved beside first file listed
    rw [beside.segments] at listed
    rw [beside.files _ (by simp)]
    exact safe.shots base resolved first file listed
  exact ⟨fun base shot resolved beside _ => kept base shot resolved beside,
    fun base shot resolved beside _ _ => kept base shot resolved beside⟩

omit [Crc32c] in
theorem keeps_createGuarded {bytes : List UInt8} (sound : Sound True (Named id geometry) world) :
    Keeps True (Named id geometry) (createJournal id ⟨durability, geometry⟩ bytes) world
      (Guards id geometry) fun _ _ => True := by
  refine (Keeps.lift_faulty trivial sound fun _ _ => trivial).bind ?_
  rintro _ disk fates checkSound ⟨-, rfl⟩
  split
  · exact .fail checkSound trivial trivial
  refine (Keeps.mapError (keeps_syncDir checkSound fun _ _ => trivial)).bind ?_
  rintro _ _ fates syncSound rfl
  refine (Keeps.mapError (keeps_query syncSound trivial)).bind ?_
  rintro _ _ fates foundSound ⟨rfl, rfl⟩
  split
  · exact .fail foundSound trivial trivial
  next missing =>
    have absent : world.disk.names.metaFile = none := by simpa using missing
    refine (MetaFile.keeps_create foundSound rfl absent
      (named_nursery foundSound.safe _)).bind ?_
    rintro number after fates createSound ⟨-, -, settled, -, -⟩
    exact .pure createSound ⟨rfl, rfl, ⟨by rw [settled], by rw [settled]⟩,
      nofun, nofun⟩

end Open

/-! ### Runs -/

section Runs

variable [Crc32c] {id : JournalId} {geometry : Geometry} {faulty : Prop}
  {allowed : Journal → Batch → Prop}

structure System.SpareSafe (id : JournalId) (geometry : Geometry) (system : System) : Prop where
  safe : Safe (Named id geometry) system.disk
  guards : ∀ journal, system.live = some journal → Guards id geometry journal system.disk

namespace System.SpareSafe

variable {system next : System}

omit [Crc32c] in
private theorem sound (holds : system.SpareSafe id geometry) (fates : List Fate) :
    Sound True (Named id geometry) ⟨system.disk, fates⟩ :=
  ⟨holds.safe, .inl trivial⟩

omit [Crc32c] in
private theorem closed (idle : system.live = none) (safe : Safe (Named id geometry) system.disk) :
    system.SpareSafe id geometry :=
  ⟨safe, fun _ live => by rw [idle] at live; cases live⟩

theorem step (taken : Step id geometry faulty allowed system next)
    (holds : system.SpareSafe id geometry) : next.SpareSafe id geometry := by
  cases taken with
  | create closed calls done =>
    obtain ⟨safe, guards⟩ := (keeps_createGuarded (holds.sound _)).of_ok done
    exact ⟨safe, fun _ live => by cases live; exact guards⟩
  | createCut idle calls cut =>
    exact closed idle ((keeps_createGuarded (holds.sound _)).cut cut)
  | commit live phase calls asked done =>
    obtain ⟨safe, guards⟩ :=
      (keeps_commitGuarded (holds.sound _) (holds.guards _ live)).of_ok done
    exact ⟨safe, fun _ live => by cases live; exact guards⟩
  | commitCut live phase calls asked cut =>
    rcases cut with seen | ⟨rfl, after, error, shape, -⟩
    · exact closed rfl ((keeps_commitGuarded (holds.sound _) (holds.guards _ live)).passing seen)
    · exact closed rfl
        ((keeps_commitGuarded (holds.sound _) (holds.guards _ live)).of_error shape).1
  | refused live calls done refusal =>
    obtain ⟨safe, -, same⟩ :=
      (keeps_commitGuarded (holds.sound _) (holds.guards _ live)).of_error done
    obtain ⟨rfl, disk⟩ := same refusal
    refine ⟨safe, fun _ after => ?_⟩
    cases after
    rw [disk]
    exact holds.guards _ live
  | stop => exact closed rfl holds.safe
  | crash left => exact closed rfl (holds.safe.crashed left)
  | opened idle calls done =>
    obtain ⟨safe, handed⟩ := (keeps_openGuarded (holds.sound _)).of_ok done
    exact ⟨safe, fun _ live => by cases live; exact (handed _ _ rfl).1⟩
  | openedNone idle calls done =>
    exact closed idle ((keeps_openGuarded (holds.sound _)).of_ok done).1
  | openCut idle calls cut =>
    exact closed idle ((keeps_openGuarded (holds.sound _)).cut cut)

omit [Crc32c] in
theorem start : System.start.SpareSafe id geometry := by
  have backed : Names.none.Backed Disk.empty :=
    ⟨fun _ _ there => by simp [Names.none] at there, fun _ _ there => by simp [Names.none] at there⟩
  refine closed rfl ⟨⟨backed, backed⟩, fun shot resolved first file listed => ?_⟩
  have either := resolved.names.segments first
  simp [System.start, Disk.empty, Names.none, listed] at either

end System.SpareSafe

/-- In every run, with any calls failing and crashes anywhere: every listed segment is a whole file
whose headers name it, and the spare is not the file of any segment. -/
theorem Runs.spare_never_live {system : System}
    (runs : Runs id geometry faulty allowed .start system) :
    (∀ shot, system.disk.Resolves shot → Named id geometry shot) ∧
    (∀ journal, system.live = some journal → Spared journal system.disk) ∧
    (system.live = none → ∀ durability fates journal recovery,
      (openJournal id ⟨durability, geometry⟩ ⟨system.disk, fates⟩).result =
        .ok (some (journal, recovery)) →
      ∀ spare, journal.spare = some spare → ∃ file,
        (openJournal id ⟨durability, geometry⟩
          ⟨system.disk, fates⟩).last.disk.names.spares[spare]? = some file ∧
        (∀ first : Nat, (openJournal id ⟨durability, geometry⟩
          ⟨system.disk, fates⟩).last.disk.names.segments[first]? ≠ some file) ∧
        ∀ segment ∈ journal.segments, segment.file ≠ file) := by
  have holds : system.SpareSafe id geometry :=
    runs.invariant (fun _ _ taken holds => holds.step taken) System.SpareSafe.start
  refine ⟨holds.safe.shots, fun journal live => (holds.guards journal live).spare, ?_⟩
  intro _ durability fates journal recovery done spare kept
  obtain ⟨-, handed⟩ :=
    (keeps_openGuarded ⟨holds.safe, .inl trivial⟩ : Keeps True _ _ ⟨_, fates⟩ _ _).of_ok done
  obtain ⟨guards, listed⟩ := handed journal recovery rfl
  obtain ⟨file, stands, absent⟩ := guards.spare spare kept
  refine ⟨file, stands, absent, fun segment member same => ?_⟩
  exact absent segment.firstBatch (by rw [listed.names segment member, same])

end Runs

/-- A run that overwrites its only entry, so that its first segment becomes the spare, and then
crashes. -/
def recycling : List Command :=
  let put : Batch := ⟨[.put 5 (Vector.replicate idSize 0) [1]], none, none⟩
  [.create .ordered [], .commit put, .commit put, .crash]

/-- The open after that run keeps the spare, which is none of its segments. -/
theorem Runs.spare_never_live_recycled :
    ∃ (system : System) (journal : Journal) (recovery : Recovery) (spare file : Nat),
      @Runs unchecked ⟨7⟩ .tiny False (fun _ _ => True) .start system ∧
      (@openJournal unchecked ⟨7⟩ ⟨.ordered, .tiny⟩ ⟨system.disk, []⟩).result =
        .ok (some (journal, recovery)) ∧
      journal.spare = some spare ∧ journal.segments.length = 1 ∧
      (@openJournal unchecked ⟨7⟩ ⟨.ordered, .tiny⟩
        ⟨system.disk, []⟩).last.disk.names.spares[spare]? = some file ∧
      ∀ segment ∈ journal.segments, segment.file ≠ file := by
  let _ := unchecked
  have ends : ((System.start.script ⟨7⟩ .tiny recycling).bind fun system =>
      (openJournal ⟨7⟩ ⟨.ordered, .tiny⟩ ⟨system.disk, []⟩).result.toOption.join.bind fun opened =>
        opened.1.spare.map fun spare =>
          (system.live.isNone, spare, opened.1.segments.length)) =
      some (true, spareName 1 0, 1) := by
    decide +kernel
  obtain ⟨system, ran, ends⟩ := Option.bind_eq_some_iff.mp ends
  obtain ⟨⟨journal, recovery⟩, opened, ends⟩ := Option.bind_eq_some_iff.mp ends
  obtain ⟨spare, kept, ends⟩ := Option.map_eq_some_iff.mp ends
  have closed : system.live = none := by simpa using (Prod.mk.inj ends).1
  have one : journal.segments.length = 1 := (Prod.mk.inj (Prod.mk.inj ends).2).2
  have done : (openJournal ⟨7⟩ ⟨.ordered, .tiny⟩ ⟨system.disk, []⟩).result =
      .ok (some (journal, recovery)) := ok_of_join opened
  have runs : Runs ⟨7⟩ .tiny False (fun _ _ => True) .start system :=
    System.script_runs (fun _ _ => trivial) ran
  obtain ⟨-, -, handed⟩ := runs.spare_never_live
  obtain ⟨file, stands, -, apart⟩ := handed closed _ _ _ _ done spare kept
  exact ⟨system, journal, recovery, spare, file, runs, done, kept, one, stands, apart⟩

end Moonpool.Journal
