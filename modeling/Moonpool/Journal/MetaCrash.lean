import Moonpool.Journal.Crash
import Moonpool.Journal.MetaFile

/-!
Owns the meta file under crashes: which value an open chooses from the two copies in
every state an update, a repair or a crash may leave.

A file `Holds` a value when both copies are that value whatever a crash leaves, and
`Elects` it when an open chooses it.
-/

namespace Moonpool.Journal

open Lib MetaFile

def Elects (id : JournalId) (content : Nat → Content) (info : Meta) : Prop :=
  ∃ stale, choose content id = .ok (info, stale)

structure Bytes.Pair (info : Meta) (bytes : Bytes) : Prop where
  size : bytes.size = metaFileBlocks
  copyA : bytes.content Copy.a.start = .metainfo .a info
  copyB : bytes.content Copy.b.start = .metainfo .b info

def copyOf (copy : Copy) (content : Nat → Content) : Option Meta :=
  (content copy.start).asMeta copy

@[simp] theorem asMeta_own (copy : Copy) (info : Meta) :
    (Content.metainfo copy info).asMeta copy = some info := by
  simp [Content.asMeta]

theorem copyOf_eq {copy : Copy} {content : Nat → Content} {info : Meta}
    (stands : content copy.start = .metainfo copy info) : copyOf copy content = some info := by
  rw [copyOf, stands, asMeta_own]

section Choose

variable {id : JournalId} {content : Nat → Content} {info old next : Meta}

theorem choose_both (own : info.journal = id) (copyA : copyOf .a content = some info)
    (copyB : copyOf .b content = some info) :
    choose content id = .ok (info, none) := by
  unfold copyOf at copyA copyB
  simp [choose, copyA, copyB, own]

theorem choose_a (own : info.journal = id) (copyA : copyOf .a content = some info)
    (older : ∀ twin, copyOf .b content = some twin → twin.seq < info.seq) :
    choose content id = .ok (info, some .b) := by
  unfold copyOf at copyA older
  cases copyB : (content Copy.b.start).asMeta .b with
  | none => simp [choose, copyA, copyB, own]
  | some twin =>
    have below := older twin copyB
    have apart : info ≠ twin := fun same => by rw [same] at below; exact lt_irrefl _ below
    simp [choose, copyA, copyB, own, apart, below, ne_of_gt below]

theorem choose_b (own : info.journal = id) (copyB : copyOf .b content = some info)
    (older : ∀ twin, copyOf .a content = some twin → twin.seq < info.seq) :
    choose content id = .ok (info, some .a) := by
  unfold copyOf at copyB older
  cases copyA : (content Copy.a.start).asMeta .a with
  | none => simp [choose, copyA, copyB, own]
  | some twin =>
    have below := older twin copyA
    have apart : twin ≠ info := fun same => by rw [same] at below; exact lt_irrefl _ below
    simp [choose, copyA, copyB, own, apart, ne_of_lt below, Nat.not_lt_of_gt below]

theorem choose_ok {stale : Option Copy} (chosen : choose content id = .ok (info, stale)) :
    info.journal = id ∧
      ((stale = none ∧ copyOf .a content = some info ∧ copyOf .b content = some info) ∨
        (stale = some .b ∧ copyOf .a content = some info ∧
          ∀ twin, copyOf .b content = some twin → twin.seq < info.seq) ∨
        (stale = some .a ∧ copyOf .b content = some info ∧
          ∀ twin, copyOf .a content = some twin → twin.seq < info.seq)) := by
  unfold copyOf
  unfold choose at chosen
  cases copyA : (content Copy.a.start).asMeta .a with
  | none =>
    cases copyB : (content Copy.b.start).asMeta .b with
    | none => simp [copyA, copyB] at chosen
    | some b =>
      simp only [copyA, copyB] at chosen
      split at chosen
      · cases chosen
      next own =>
        cases chosen
        exact ⟨not_not.mp own, .inr (.inr ⟨rfl, rfl, by simp⟩)⟩
  | some a =>
    cases copyB : (content Copy.b.start).asMeta .b with
    | none =>
      simp only [copyA, copyB] at chosen
      split at chosen
      · cases chosen
      next own =>
        cases chosen
        exact ⟨not_not.mp own, .inr (.inl ⟨rfl, rfl, by simp⟩)⟩
    | some b =>
      simp only [copyA, copyB] at chosen
      by_cases same : a = b
      · subst same
        simp only [if_true] at chosen
        split at chosen
        · cases chosen
        next own =>
          cases chosen
          exact ⟨not_not.mp own, .inl ⟨rfl, rfl, rfl⟩⟩
      · by_cases level : a.seq = b.seq
        · simp [same, level] at chosen
        · by_cases above : a.seq > b.seq
          · simp only [same, level, above, if_true, if_false] at chosen
            split at chosen
            · cases chosen
            next own =>
              cases chosen
              exact ⟨not_not.mp own, .inr (.inl ⟨rfl, rfl, by simpa using above⟩)⟩
          · simp only [same, level, above, if_false] at chosen
            split at chosen
            · cases chosen
            next own =>
              cases chosen
              refine ⟨not_not.mp own, .inr (.inr ⟨rfl, rfl, ?_⟩)⟩
              intro twin twinShape
              cases twinShape
              omega

end Choose

section InFlight

variable {copy other : Copy} {info : Meta} {base bytes : Bytes}

@[simp] theorem copyRegion_own :
    (copyBuf copy info).region copy.start copy.start = some (.metainfo copy info) := by
  simp [Buf.region, copyBuf]

theorem copyRegion_other (apart : other ≠ copy) :
    (copyBuf copy info).region copy.start other.start = none := by
  cases copy <;> cases other <;>
    simp_all [Buf.region, copyBuf, Copy.start, block, metaCopyBAt]

theorem overlay_copies (overlay : base.Overlay ((copyBuf copy info).region copy.start) bytes) :
    (copyOf copy bytes.content = copyOf copy base.content ∨
      copyOf copy bytes.content = some info ∨ copyOf copy bytes.content = none) ∧
    ∀ other, other ≠ copy → copyOf other bytes.content = copyOf other base.content := by
  constructor
  · rcases overlay.content copy.start with same | ⟨value, fresh, landed | lost⟩
    · exact .inl (by rw [copyOf, copyOf, same])
    · rw [copyRegion_own] at fresh
      cases fresh
      exact .inr (.inl (copyOf_eq landed))
    · exact .inr (.inr (by rw [copyOf, lost]; rfl))
  · intro other apart
    rcases overlay.content other.start with same | ⟨value, fresh, -⟩
    · rw [copyOf, copyOf, same]
    · rw [copyRegion_other apart] at fresh
      cases fresh

theorem written_own :
    (base.written ((copyBuf copy info).region copy.start)).content copy.start =
      .metainfo copy info := by
  simp [Bytes.written]

theorem written_other (apart : other ≠ copy) :
    (base.written ((copyBuf copy info).region copy.start)).content other.start =
      base.content other.start := by
  simp [Bytes.written, copyRegion_other apart]

end InFlight

theorem copy_within {file : File} (whole : file.size = metaFileBlocks) (copy : Copy) (info : Meta) :
    file.Within copy.start (copyBuf copy info) := by
  unfold File.Within
  rw [whole]
  change alignUp (copy.start + block) block / block ≤ metaFileBlocks
  cases copy <;> decide

/-- Both copies are `info`, whatever a crash leaves of the file. -/
def File.Holds (info : Meta) (file : File) : Prop :=
  ∀ bytes, file.Resolves bytes → bytes.Pair info

namespace MetaFile

variable {id : JournalId} {faulty : Prop} {P : Shot → Prop} {world : World} {file : Nat}
  {old next : Meta}

variable {base bytes : Bytes} {info : Meta} {copy : Copy}

private theorem elects_a (own : old.journal = id) (ownNext : next.journal = id)
    (newer : old.seq < next.seq) (pair : base.Pair old)
    (overlay : base.Overlay ((copyBuf .a next).region Copy.a.start) bytes) :
    Elects id bytes.content old ∨ Elects id bytes.content next := by
  obtain ⟨copyA, others⟩ := overlay_copies overlay
  have copyB : copyOf .b bytes.content = some old := by
    rw [others .b (by decide), copyOf_eq pair.copyB]
  rw [copyOf_eq pair.copyA] at copyA
  rcases copyA with same | landed | lost
  · exact .inl ⟨_, choose_both own same copyB⟩
  · refine .inr ⟨_, choose_a ownNext landed fun twin shape => ?_⟩
    rw [copyB] at shape
    cases shape
    exact newer
  · exact .inl ⟨_, choose_b own copyB fun twin shape => by rw [lost] at shape; cases shape⟩

private theorem elects_b (ownNext : next.journal = id)
    (newer : old.seq < next.seq) (copyA : copyOf .a base.content = some next)
    (copyB : copyOf .b base.content = some old)
    (overlay : base.Overlay ((copyBuf .b next).region Copy.b.start) bytes) :
    Elects id bytes.content next := by
  obtain ⟨final, others⟩ := overlay_copies overlay
  have still : copyOf .a bytes.content = some next := by rw [others .a (by decide), copyA]
  rw [copyB] at final
  rcases final with same | landed | lost
  · refine ⟨_, choose_a ownNext still fun twin shape => ?_⟩
    rw [same] at shape
    cases shape
    exact newer
  · exact ⟨_, choose_both ownNext still landed⟩
  · exact ⟨_, choose_a ownNext still fun twin shape => by rw [lost] at shape; cases shape⟩

/-- An update passes only through states that show the old or the new value, and ends with both
copies new. -/
theorem keeps_update (sound : Sound faulty P world)
    (holds : (world.disk.files (.info file)).Holds old)
    (own : old.journal = id) (ownNext : next.journal = id) (newer : old.seq < next.seq)
    (absorbs : ∀ shot bytes, world.disk.Resolves shot → bytes.size = metaFileBlocks →
      Elects id bytes.content old ∨ Elects id bytes.content next →
      P (shot.setFile (.info file) bytes)) :
    Keeps faulty P (update file next) world
      (fun _ disk => ∃ after, disk = world.disk.setFile (.info file) after ∧ after.Holds next)
      fun _ _ => True := by
  have pairOf : ∀ shot, world.disk.Resolves shot → (shot.files (.info file)).Pair old :=
    fun shot resolved => holds _ (resolved.files _)
  have whole : (world.disk.files (.info file)).size = metaFileBlocks :=
    (holds _ (File.resolves_visible _)).size
  refine (keeps_writeBlocksDurable sound (copy_within whole ..) ?_ fun _ => trivial).bind ?_
  · intro shot bytes resolved overlay
    have pair := pairOf shot resolved
    exact absorbs shot bytes resolved (overlay.size.trans pair.size)
      (elects_a own ownNext newer pair overlay)
  rintro _ disk fates halfSound shape
  have halfway : ∀ bytes, (disk.files (.info file)).Resolves bytes →
      bytes.size = metaFileBlocks ∧ bytes.content Copy.a.start = .metainfo .a next ∧
        bytes.content Copy.b.start = .metainfo .b old := by
    intro bytes resolved
    rw [shape, Disk.setFile_same] at resolved
    obtain ⟨base, before, rfl⟩ := File.Resolves.of_durable (copy_within whole ..) resolved
    have pair := holds base before
    refine ⟨pair.size, written_own, ?_⟩
    exact pair.copyB
  have stillWhole : (disk.files (.info file)).size = metaFileBlocks :=
    (halfway _ (File.resolves_visible _)).1
  refine (keeps_writeBlocksDurable halfSound (copy_within stillWhole ..) ?_
    fun _ => trivial).post ?_
  · intro shot bytes resolved overlay
    obtain ⟨size, copyA, copyB⟩ := halfway _ (resolved.files _)
    rw [shape] at resolved
    have before := resolved.of_setFile (File.resolves_visible _)
    have final := absorbs _ bytes before.1 (overlay.size.trans size)
      (.inr (elects_b ownNext newer (copyOf_eq copyA) (copyOf_eq copyB) overlay))
    simpa using final
  · rintro - after - rfl
    refine ⟨_, by rw [shape, Disk.setFile_setFile], fun bytes resolved => ?_⟩
    rw [← shape] at resolved
    obtain ⟨base, before, rfl⟩ := File.Resolves.of_durable (copy_within stillWhole ..) resolved
    obtain ⟨size, copyA, -⟩ := halfway base before
    refine ⟨size, ?_, written_own⟩
    exact copyA

private theorem elects_repair
    (chosen : choose base.content id = .ok (info, some copy))
    (overlay : base.Overlay ((copyBuf copy info).region copy.start) bytes) :
    Elects id bytes.content info := by
  obtain ⟨own, cases⟩ := choose_ok chosen
  obtain ⟨final, others⟩ := overlay_copies overlay
  rcases cases with ⟨none, -⟩ | ⟨shape, copyA, older⟩ | ⟨shape, copyB, older⟩
  · cases none
  · cases shape
    have still : copyOf .a bytes.content = some info := by rw [others .a (by decide), copyA]
    rcases final with same | landed | lost
    · exact ⟨_, choose_a own still fun twin there => older twin (same ▸ there)⟩
    · exact ⟨_, choose_both own still landed⟩
    · exact ⟨_, choose_a own still fun twin there => by rw [lost] at there; cases there⟩
  · cases shape
    have still : copyOf .b bytes.content = some info := by rw [others .b (by decide), copyB]
    rcases final with same | landed | lost
    · exact ⟨_, choose_b own still fun twin there => older twin (same ▸ there)⟩
    · exact ⟨_, choose_both own landed still⟩
    · exact ⟨_, choose_b own still fun twin there => by rw [lost] at there; cases there⟩

theorem stands_of_copyOf {content : Nat → Content}
    (reads : copyOf copy content = some info) : content copy.start = .metainfo copy info := by
  unfold copyOf at reads
  cases stands : content copy.start with
  | metainfo found value =>
    rw [stands] at reads
    simp only [Content.asMeta] at reads
    split at reads
    next same =>
      cases reads
      rw [same]
    · cases reads
  | zero | damaged | header | record | entry =>
    rw [stands] at reads
    cases reads

section

variable (sound : Sound faulty P world)
  (whole : (world.disk.files (.info file)).visible.size = metaFileBlocks) {info : Meta}
  (elects : Elects id (world.disk.files (.info file)).data.visible info)
  (absorbs : ∀ shot bytes, world.disk.Resolves shot → bytes.size = metaFileBlocks → Elects id
    bytes.content info → P (shot.setFile (.info file) bytes))

include sound whole elects absorbs

/-- Opening the meta file never fails, shows the same value throughout, and ends with both copies
that value. -/
theorem keeps_recover :
    Keeps faulty P (recover file id) world
      (fun found disk => found.1 = file ∧ found.2.1 = info ∧
        ∃ after, disk = world.disk.setFile (.info file) after ∧ after.Holds info)
      fun _ _ => True := by
  obtain ⟨stale, chosen⟩ := elects
  refine (Keeps.mapError (keeps_query sound trivial)).bind ?_
  rintro _ _ fates sizeSound ⟨rfl, rfl⟩
  have sized : ¬ (world.disk.files (.info file)).size ≠ metaFileBlocks := not_not.mpr whole
  simp only [sized, if_false]
  refine (Keeps.mapError (keeps_syncFile sizeSound fun _ _ => trivial)).bind ?_
  rintro _ _ fates syncSound rfl
  refine (Keeps.mapError (keeps_query syncSound trivial)).bind ?_
  rintro _ _ fates readSound ⟨rfl, rfl⟩
  rw [Disk.setFile_same]
  refine (Keeps.lift chosen readSound).bind ?_
  rintro _ _ fates chosenSound ⟨rfl, rfl⟩
  have synced : ∀ bytes, (world.disk.files (.info file)).sync.Resolves bytes →
      bytes = (world.disk.files (.info file)).visible := fun bytes => File.Resolves.sync_eq
  cases stale with
  | none =>
    refine (Keeps.mapError (Keeps.returns chosenSound)).bind ?_
    rintro _ _ fates finalSound ⟨rfl, rfl⟩
    refine .pure finalSound ⟨rfl, rfl, _, rfl, fun bytes resolved => ?_⟩
    rcases (choose_ok chosen).2 with ⟨-, copyA, copyB⟩ | ⟨none, -⟩ | ⟨none, -⟩
    · rw [synced bytes resolved]
      exact ⟨whole, stands_of_copyOf copyA, stands_of_copyOf copyB⟩
    · cases none
    · cases none
  | some copy =>
    have stillWhole : ((world.disk.setFile (.info file)
        (world.disk.files (.info file)).sync).files (.info file)).size = metaFileBlocks := by
      rw [Disk.setFile_same]
      exact whole
    refine (Keeps.mapError (keeps_writeBlocksDurable chosenSound
      (copy_within stillWhole ..) ?_ fun _ => trivial)).bind ?_
    · intro shot bytes resolved overlay
      have before := resolved.of_setFile (File.resolves_visible _)
      have base := synced _ before.2
      rw [base] at overlay
      have final := absorbs _ bytes before.1 (overlay.size.trans whole)
        (elects_repair chosen overlay)
      simpa using final
    · rintro _ _ fates finalSound rfl
      refine .pure finalSound ⟨rfl, rfl, _, Disk.setFile_setFile .., fun bytes resolved => ?_⟩
      obtain ⟨base, before, rfl⟩ := File.Resolves.of_durable (copy_within stillWhole ..) resolved
      rw [Disk.setFile_same] at before
      rw [synced base before]
      obtain ⟨-, cases⟩ := choose_ok chosen
      rcases cases with ⟨none, -⟩ | ⟨shape, copyA, -⟩ | ⟨shape, copyB, -⟩
      · cases none
      · cases shape
        exact ⟨whole, (written_other (by decide)).trans (stands_of_copyOf copyA), written_own⟩
      · cases shape
        exact ⟨whole, written_own, (written_other (by decide)).trans (stands_of_copyOf copyB)⟩

theorem keeps_openAt (named : world.disk.names.metaFile = some file) :
    Keeps faulty P (openAt id) world
      (fun found disk => (∃ repaired, found = some (file, info, repaired)) ∧
        ∃ after, disk = world.disk.setFile (.info file) after ∧ after.Holds info)
      fun _ _ => True := by
  refine (Keeps.mapError (keeps_query sound trivial)).bind ?_
  rintro _ _ fates nameSound ⟨rfl, rfl⟩
  rw [named]
  refine (Keeps.mapError (keeps_openFile nameSound named trivial)).bind ?_
  rintro _ _ fates openSound ⟨rfl, rfl⟩
  refine (keeps_recover openSound whole elects absorbs).bind ?_
  rintro ⟨found, value, repaired⟩ disk fates finalSound ⟨rfl, rfl, final⟩
  exact .pure finalSound ⟨⟨repaired, rfl⟩, final⟩

end

end MetaFile

/-- `shot` differs from `base` at most in the meta file `number` and its names. -/
structure Shot.Beside (number : Nat) (base shot : Shot) : Prop where
  segments : shot.names.segments = base.names.segments
  temporaries : shot.names.temporaries = base.names.temporaries
  spares : shot.names.spares = base.names.spares
  files : ∀ id, id ≠ .info number → shot.files id = base.files id

/-- `later` differs from `disk` at most in the meta file `number` and its names. -/
structure Disk.Beside (number : Nat) (disk later : Disk) : Prop where
  synced : later.synced = { disk.synced with
    metaFile := later.synced.metaFile, metaTmp := later.synced.metaTmp }
  names : later.names = { disk.names with
    metaFile := later.names.metaFile, metaTmp := later.names.metaTmp }
  files : ∀ id, id ≠ .info number → later.files id = disk.files id
  next : disk.next ≤ later.next

section

variable {number : Nat} {disk later : Disk} (beside : disk.Beside number later)

include beside

theorem Disk.Beside.shot {shot : Shot} (resolved : later.Resolves shot) :
    ∃ base, disk.Resolves base ∧ base.Beside number shot := by
  have names := resolved.names
  rw [beside.synced, beside.names] at names
  refine ⟨⟨{ shot.names with metaFile := disk.names.metaFile, metaTmp := disk.names.metaTmp },
    Function.update shot.files (.info number) (disk.files (.info number)).visible⟩,
    ⟨⟨.inr rfl, .inr rfl, names.segments, names.temporaries, names.spares⟩, fun id => ?_⟩,
    ⟨rfl, rfl, rfl, fun id apart => ?_⟩⟩
  · by_cases same : id = .info number
    · rw [same]
      simpa using (disk.files (.info number)).resolves_visible
    · have own := resolved.files id
      rw [beside.files id same] at own
      simpa [Function.update_of_ne same] using own
  · simp [Function.update_of_ne apart]

theorem Disk.Beside.numbered (numbered : disk.Numbered) : later.Numbered := by
  have grown : ∀ file, disk.Grown file → later.Grown file := by
    rintro file ⟨below, durable⟩
    refine ⟨lt_of_lt_of_le below beside.next, ?_⟩
    rwa [beside.files _ (by simp)]
  refine ⟨?_, ?_⟩
  · rw [beside.synced]
    exact ⟨(numbered.synced.mono grown).segments, (numbered.synced.mono grown).spares⟩
  · rw [beside.names]
    exact ⟨(numbered.names.mono grown).segments, (numbered.names.mono grown).spares⟩

end

section Create

variable {faulty : Prop} {P : Shot → Prop} {world : World} {info : Meta}

private theorem image_size (info : Meta) :
    (File.empty.write 0 (imageBuf info)).size = metaFileBlocks := by
  change max 0 (alignUp (0 + metaFileBlocks * block) block / block) = metaFileBlocks
  decide

/-- Creation changes only the meta file and its names, and the name stands for a whole file. -/
structure Nursery (P : Shot → Prop) (disk : Disk) (info : Meta) : Prop where
  quiet : ∀ base shot, disk.Resolves base → base.Beside disk.next shot →
    shot.names.metaFile = none → P shot
  born : ∀ base shot, disk.Resolves base → base.Beside disk.next shot →
    shot.names.metaFile = some disk.next → (shot.files (.info disk.next)).Pair info → P shot

section

variable {disk later : Disk} (nursery : Nursery P disk info) (numbered : disk.Numbered)
  (beside : disk.Beside disk.next later)

include nursery numbered beside

private theorem Nursery.unborn
    (synced : later.synced.metaFile = none) (names : later.names.metaFile = none) :
    Safe P later := by
  refine ⟨beside.numbered numbered, fun shot resolved => ?_⟩
  obtain ⟨base, before, same⟩ := beside.shot resolved
  refine nursery.quiet base shot before same ?_
  rcases resolved.names.metaFile with old | new
  · rw [old, synced]
  · rw [new, names]

private theorem Nursery.named
    (synced : later.synced.metaFile = none ∨ later.synced.metaFile = some disk.next)
    (names : later.names.metaFile = some disk.next)
    (holds : (later.files (.info disk.next)).Holds info) : Safe P later := by
  refine ⟨beside.numbered numbered, fun shot resolved => ?_⟩
  obtain ⟨base, before, same⟩ := beside.shot resolved
  have pair := holds _ (resolved.files (.info disk.next))
  have name : shot.names.metaFile = none ∨ shot.names.metaFile = some disk.next := by
    rcases resolved.names.metaFile with old | new
    · rw [old]
      exact synced
    · rw [new]
      exact .inr names
  rcases name with absent | present
  · exact nursery.quiet base shot before same absent
  · exact nursery.born base shot before same present pair

end

/-- `disk` is `before` with a nameless meta file: under its temporary name at most. -/
structure Filling (before disk : Disk) (file : File) : Prop where
  beside : before.Beside before.next disk
  synced : disk.synced.metaFile = none
  names : disk.names.metaFile = none
  temporary : disk.names.metaTmp = some before.next
  file : disk.files (.info before.next) = file

variable {before disk : Disk}

private theorem Filling.setFile {file : File} (filling : Filling before disk file)
    (after : File) : Filling before (disk.setFile (.info before.next) after) after :=
  { filling with
    beside := { filling.beside with
      files := fun id apart => by rw [Disk.setFile_other _ apart, filling.beside.files id apart] }
    file := Disk.setFile_same _ _ _ }

private theorem keeps_removeLeftover (sound : Sound faulty P world)
    (absent : world.disk.names.metaFile = none) (absentSynced : world.disk.synced.metaFile = none)
    (nursery : Nursery P world.disk info) :
    Keeps faulty P removeLeftover world (fun _ disk =>
      world.disk.Beside world.disk.next disk ∧ disk.synced.metaFile = none ∧
        disk.names.metaFile = none ∧ disk.next = world.disk.next) fun _ _ => True := by
  refine (keeps_query sound trivial).bind ?_
  rintro _ _ fates nameSound ⟨rfl, rfl⟩
  have beside : world.disk.Beside world.disk.next
      { world.disk with names := { world.disk.names with metaTmp := none } } :=
    ⟨rfl, rfl, fun _ _ => rfl, le_refl _⟩
  refine .when nameSound (fun there => ?_) fun _ =>
    ⟨⟨rfl, rfl, fun _ _ => rfl, le_refl _⟩, absentSynced, absent, rfl⟩
  refine (keeps_alterNames nameSound there
    (nursery.unborn sound.safe.numbered beside absentSynced absent) fun _ _ _ => trivial).post ?_
  rintro - disk - rfl
  exact ⟨beside, absentSynced, absent, rfl⟩

private theorem created_filling (beside : before.Beside before.next disk)
    (synced : disk.synced.metaFile = none) (names : disk.names.metaFile = none)
    (next : disk.next = before.next) :
    Filling before (disk.created .info fun number names => { names with metaTmp := some number })
      .empty := by
  have files : (disk.created .info fun number names =>
      { names with metaTmp := some number }).files =
      (disk.setFile (.info before.next) .empty).files := by
    rw [← next]
    rfl
  refine ⟨⟨beside.synced, ?_, fun id apart => ?_, ?_⟩, synced, names, ?_, ?_⟩
  · have shape := beside.names
    simp only [Disk.created]
    rw [shape]
  · rw [files, Disk.setFile_other _ apart, beside.files id apart]
  · exact le_trans beside.next (Nat.le_succ _)
  · simp [Disk.created, next]
  · rw [files, Disk.setFile_same]

private theorem published_beside {file : File}
    (filling : Filling before disk file) :
    before.Beside before.next { disk with
      names := { disk.names with metaFile := disk.names.metaTmp, metaTmp := none } } :=
  { filling.beside with
    names := by
      have shape := filling.beside.names
      rw [shape] }

/-- Creation passes only through states with no meta file or a whole one, and ends with a durable
name for both copies of `info`. -/
theorem MetaFile.keeps_create (sound : Sound faulty P world)
    (settled : world.disk.synced = world.disk.names)
    (absent : world.disk.names.metaFile = none) (nursery : Nursery P world.disk info) :
    Keeps faulty P (create info) world
      (fun number disk => number = world.disk.next ∧
        world.disk.Beside world.disk.next disk ∧ disk.synced = disk.names ∧
        disk.names.metaFile = some world.disk.next ∧
        (disk.files (.info world.disk.next)).Holds info) fun _ _ => True := by
  have numbered := sound.safe.numbered
  have absentSynced : world.disk.synced.metaFile = none := by rw [settled, absent]
  have unborn : ∀ disk file, Filling world.disk disk file → Safe P disk := fun disk file filling =>
    nursery.unborn numbered filling.beside filling.synced filling.names
  refine .mapError ((keeps_removeLeftover sound absent absentSynced nursery).bind ?_)
  rintro _ disk fates cleanSound ⟨beside, synced, names, next⟩
  have created := created_filling beside synced names next
  refine (keeps_createFile cleanSound (fun _ _ => trivial) (unborn _ _ created)).bind ?_
  rintro _ disk fates createdSound ⟨rfl, rfl⟩
  rw [next]
  refine (keeps_extend createdSound (unborn _ _ (created.setFile _))
    (fun _ => unborn _ _ (created.setFile _)) fun _ _ => trivial).bind ?_
  rintro _ disk fates writtenSound rfl
  have written := created.setFile (File.empty.write 0 (imageBuf info))
  rw [created.file] at writtenSound ⊢
  refine (keeps_syncFile writtenSound fun _ _ => trivial).bind ?_
  rintro _ whole fates wholeSound rfl
  rw [written.file] at wholeSound ⊢
  -- The name: whatever a crash leaves of it, the file behind it is whole.
  have filled := written.setFile (File.empty.write 0 (imageBuf info)).sync
  generalize Disk.setFile _ _ (File.empty.write 0 (imageBuf info)).sync = whole at *
  have beside := published_beside filled
  have holds : (whole.files (.info world.disk.next)).Holds info := by
    rw [filled.file]
    intro bytes resolved
    rw [resolved.sync_eq]
    refine ⟨image_size info, ?_, ?_⟩ <;>
      simp [File.visible, File.write, Image.visible_write, Buf.region, imageBuf, Copy.start,
        block, metaCopyBAt, metaFileBlocks]
  refine (keeps_alterNames wholeSound (by simp [filled.temporary])
    (nursery.named numbered beside (.inl filled.synced) filled.temporary holds)
    fun _ _ _ => trivial).bind ?_
  rintro _ _ fates renamedSound rfl
  refine (keeps_syncDir renamedSound fun _ _ => trivial).bind ?_
  rintro _ _ fates finalSound rfl
  refine (keeps_openFile finalSound filled.temporary trivial).post ?_
  rintro _ _ - ⟨rfl, rfl⟩
  refine ⟨rfl, ⟨?_, beside.names, beside.files, beside.next⟩, rfl, filled.temporary, holds⟩
  rw [settled]
  exact beside.names

end Create

end Moonpool.Journal
