import Moonpool.Journal.Batch

/-!
Owns the crash logic of the journal's procedures: what a crash may leave after each
provider call, and the rules that carry a property of everything a crash may leave
through a procedure.

`Safe P` is the crash invariant: whatever a crash leaves of the disk satisfies `P`.
`Keeps P body` says that every state `body` passes through is `Safe P`, whether its calls
succeed or fail, and that it fails only where a call was told to.
-/

namespace Moonpool.Journal

open Lib List

/-! ### What a crash leaves of a file -/

namespace File

variable {file : File} {bytes : Bytes}

theorem resolves_visible (file : File) : file.Resolves file.visible :=
  ⟨.inl rfl, Image.resolves_visible⟩

theorem Resolves.of_sync (resolved : file.sync.Resolves bytes) : file.Resolves bytes :=
  ⟨.inl (by rcases resolved.1 with same | same <;> exact same),
    Image.resolves_of_sync resolved.2⟩

theorem Resolves.sync_eq (resolved : file.sync.Resolves bytes) : bytes = file.visible := by
  obtain ⟨size, content⟩ := bytes
  have sameSize : size = file.size := by rcases resolved.1 with same | same <;> exact same
  have sameContent : content = file.data.visible := Image.resolves_settled.mp resolved.2
  rw [sameSize, sameContent]
  rfl

theorem resolves_ofBytes {left : Bytes} (resolved : (ofBytes left).Resolves bytes) :
    bytes = left := by
  obtain ⟨size, content⟩ := bytes
  have sameSize : size = left.size := by rcases resolved.1 with same | same <;> exact same
  have sameContent : content = left.content := Image.resolves_settled.mp resolved.2
  rw [sameSize, sameContent]

end File

theorem Buf.region_eq_some {buf : Buf} {offset spot : Nat} {value : Content} :
    buf.region offset spot = some value ↔
      offset ≤ spot ∧ spot < offset + buf.len ∧ buf.content (spot - offset) = value := by
  unfold Buf.region
  split
  next inside => simp [inside]
  next outside =>
    simp only [reduceCtorEq, false_iff]
    exact fun ⟨low, high, _⟩ => outside ⟨low, high⟩

structure Bytes.Overlay (region : Nat → Option Content) (base bytes : Bytes) : Prop where
  size : bytes.size = base.size
  content : Image.Overlay (· = .damaged) region base.content bytes.content

def Bytes.written (base : Bytes) (region : Nat → Option Content) : Bytes :=
  ⟨base.size, fun spot => (region spot).getD (base.content spot)⟩

theorem Bytes.overlay_written (base : Bytes) (region : Nat → Option Content) :
    base.Overlay region (base.written region) where
  size := rfl
  content := fun spot => by
    cases fresh : region spot with
    | none => exact .inl (by simp [written, fresh])
    | some value => exact .inr ⟨value, rfl, .inl (by simp [written, fresh])⟩

namespace File

variable {file : File} {bytes : Bytes} {offset : Nat} {buf : Buf}

def Within (file : File) (offset : Nat) (buf : Buf) : Prop :=
  alignUp (offset + buf.len) block / block ≤ file.size

theorem Within.size (within : file.Within offset buf) : (file.write offset buf).size = file.size :=
  Nat.max_eq_left within

theorem Resolves.of_write (within : file.Within offset buf)
    (resolved : (file.write offset buf).Resolves bytes) :
    ∃ base, file.Resolves base ∧ base.Overlay (buf.region offset) bytes := by
  obtain ⟨content, base, overlay⟩ := resolved.2.write_overlay
  have size := resolved.1
  rw [within.size] at size
  exact ⟨⟨bytes.size, content⟩, ⟨size, base⟩, ⟨rfl, overlay⟩⟩

theorem Resolves.of_writePartway {fault : Fault} (within : file.Within offset buf)
    (resolved : (file.writePartway offset buf fault).Resolves bytes) :
    ∃ base, file.Resolves base ∧ base.Overlay (buf.region offset) bytes := by
  obtain ⟨content, base, overlay⟩ := (Image.resolves_of_flush resolved.2).write_overlay
  have size : bytes.size = file.size ∨ bytes.size = file.syncedSize := by
    have either := resolved.1
    simp only [writePartway, within.size, ite_self] at either
    exact either
  refine ⟨⟨bytes.size, content⟩, ⟨size, base⟩, ⟨rfl, overlay.mono ?_⟩⟩
  intro spot value shown
  by_cases picked : fault.shown spot || fault.kept spot
  · simpa [Buf.shownBy, picked] using shown
  · simp [Buf.shownBy, picked] at shown

theorem Resolves.of_durable (within : file.Within offset buf)
    (resolved : ((file.write offset buf).flush offset buf.len).Resolves bytes) :
    ∃ base, file.Resolves base ∧ bytes = base.written (buf.region offset) := by
  have covers : ∀ spot, decide (offset ≤ spot ∧ spot < offset + buf.len) =
      (buf.region offset spot).isSome := by
    intro spot
    by_cases inside : offset ≤ spot ∧ spot < offset + buf.len <;> simp [Buf.region, inside]
  obtain ⟨content, base, whole⟩ := resolved.2.flush_write covers
  have size : bytes.size = file.size ∨ bytes.size = file.syncedSize := by
    have either := resolved.1
    simp only [flush, within.size] at either
    exact either
  refine ⟨⟨bytes.size, content⟩, ⟨size, base⟩, ?_⟩
  obtain ⟨size, final⟩ := bytes
  simp only [Bytes.written, Bytes.mk.injEq, true_and]
  exact funext whole

end File

/-! ### What a crash leaves of the disk -/

namespace Shot

def setFile (shot : Shot) (id : FileId) (bytes : Bytes) : Shot :=
  { shot with files := Function.update shot.files id bytes }

@[simp] theorem setFile_same (shot : Shot) (id : FileId) (bytes : Bytes) :
    (shot.setFile id bytes).files id = bytes := Function.update_self ..

theorem setFile_other (shot : Shot) {id other : FileId} (apart : other ≠ id) (bytes : Bytes) :
    (shot.setFile id bytes).files other = shot.files other := Function.update_of_ne apart ..

@[simp] theorem setFile_setFile (shot : Shot) (id : FileId) (first second : Bytes) :
    (shot.setFile id first).setFile id second = shot.setFile id second := by
  simp [setFile]

@[simp] theorem setFile_self (shot : Shot) (id : FileId) :
    shot.setFile id (shot.files id) = shot := by
  simp [setFile]

end Shot

namespace Disk

variable {disk : Disk} {id : FileId} {file : File} {shot : Shot}

@[simp] theorem setFile_names (disk : Disk) (id : FileId) (file : File) :
    (disk.setFile id file).names = disk.names := rfl

@[simp] theorem setFile_same (disk : Disk) (id : FileId) (file : File) :
    (disk.setFile id file).files id = file := Function.update_self ..

theorem setFile_other (disk : Disk) {id other : FileId} (apart : other ≠ id) (file : File) :
    (disk.setFile id file).files other = disk.files other := Function.update_of_ne apart ..

@[simp] theorem setFile_setFile (disk : Disk) (id : FileId) (first second : File) :
    (disk.setFile id first).setFile id second = disk.setFile id second := by
  simp [setFile]

theorem resolves_shot (disk : Disk) : disk.Resolves disk.shot where
  names := ⟨.inr rfl, .inr rfl, fun _ => .inr rfl, fun _ => .inr rfl, fun _ => .inr rfl⟩
  files := fun id => (disk.files id).resolves_visible

theorem Resolves.of_setFile {base : Bytes} (resolved : (disk.setFile id file).Resolves shot)
    (before : (disk.files id).Resolves base) :
    disk.Resolves (shot.setFile id base) ∧ file.Resolves (shot.files id) := by
  have own := resolved.files id
  rw [setFile_same] at own
  refine ⟨⟨resolved.names, fun other => ?_⟩, own⟩
  by_cases same : other = id
  · rw [same, Shot.setFile_same]
    exact before
  · rw [Shot.setFile_other _ same]
    simpa [setFile_other _ same] using resolved.files other

theorem Resolves.narrow (resolved : (disk.setFile id file).Resolves shot)
    (narrows : ∀ bytes, file.Resolves bytes → (disk.files id).Resolves bytes) :
    disk.Resolves shot := by
  have own := resolved.files id
  rw [setFile_same] at own
  have before := (resolved.of_setFile (narrows _ own)).1
  rwa [Shot.setFile_self] at before

theorem resolves_crashed {left : Shot} (resolved : (disk.crashed left).Resolves shot) :
    shot = left := by
  have files : shot.files = left.files :=
    funext fun id => File.resolves_ofBytes (resolved.files id)
  have names : shot.names = left.names := by
    have each := resolved.names
    have segments : shot.names.segments = left.names.segments :=
      Std.ExtTreeMap.ext_getElem? fun first => or_self_iff.mp (each.segments first)
    have temporaries : shot.names.temporaries = left.names.temporaries :=
      Std.ExtTreeMap.ext_getElem? fun first => or_self_iff.mp (each.temporaries first)
    have spares : shot.names.spares = left.names.spares :=
      Std.ExtTreeMap.ext_getElem? fun spare => or_self_iff.mp (each.spares spare)
    have metaFile : shot.names.metaFile = left.names.metaFile := or_self_iff.mp each.metaFile
    have metaTmp : shot.names.metaTmp = left.names.metaTmp := or_self_iff.mp each.metaTmp
    obtain ⟨⟨_, _, _, _, _⟩, _⟩ := shot
    simp_all
  obtain ⟨_, _⟩ := shot
  simp_all

end Disk

/-! ### The crash invariant -/

def Disk.Grown (disk : Disk) (file : Nat) : Prop :=
  file < disk.next ∧
    (disk.files (.segment file)).syncedSize = (disk.files (.segment file)).size

/-- Every segment and spare in `names` stands for a grown file. -/
structure Names.Backed (names : Names) (disk : Disk) : Prop where
  segments : ∀ first file : Nat, names.segments[first]? = some file → disk.Grown file
  spares : ∀ spare file : Nat, names.spares[spare]? = some file → disk.Grown file

/-- No name stands for a file yet to be created or grown. -/
structure Disk.Numbered (disk : Disk) : Prop where
  synced : disk.synced.Backed disk
  names : disk.names.Backed disk

theorem Names.Backed.mono {names : Names} {disk later : Disk} (backed : names.Backed disk)
    (grown : ∀ file, disk.Grown file → later.Grown file) : names.Backed later :=
  ⟨fun first file there => grown file (backed.segments first file there),
    fun spare file there => grown file (backed.spares spare file there)⟩

/-- A change of a file that leaves a durable size durable. -/
def File.Steady (before after : File) : Prop :=
  before.syncedSize = before.size → after.syncedSize = after.size

theorem Disk.Numbered.setFile {disk : Disk} (numbered : disk.Numbered) {id : FileId} {file : File}
    (steady : (disk.files id).Steady file) : (disk.setFile id file).Numbered := by
  have grown : ∀ number, disk.Grown number → (disk.setFile id file).Grown number := by
    rintro number ⟨below, durable⟩
    refine ⟨below, ?_⟩
    by_cases same : FileId.segment number = id
    · rw [same] at durable ⊢
      rw [Disk.setFile_same]
      exact steady durable
    · rw [Disk.setFile_other _ same]
      exact durable
  exact ⟨numbered.synced.mono grown, numbered.names.mono grown⟩

/-- Whatever a crash leaves of the disk satisfies `P`. -/
structure Safe (P : Shot → Prop) (disk : Disk) : Prop where
  numbered : disk.Numbered
  shots : ∀ shot, disk.Resolves shot → P shot

namespace Safe

variable {P Q : Shot → Prop} {disk : Disk}

theorem visible (safe : Safe P disk) : P disk.shot :=
  safe.shots _ disk.resolves_shot

theorem mono (safe : Safe P disk) (weaken : ∀ shot, P shot → Q shot) : Safe Q disk :=
  ⟨safe.numbered, fun shot resolved => weaken shot (safe.shots shot resolved)⟩

theorem crashed (safe : Safe P disk) {shot : Shot} (resolved : disk.Resolves shot) :
    Safe P (disk.crashed shot) := by
  have backed : shot.names.Backed disk := by
    refine ⟨fun first file there => ?_, fun spare file there => ?_⟩
    · rcases resolved.names.segments first with old | new
      · exact safe.numbered.synced.segments first file (old ▸ there)
      · exact safe.numbered.names.segments first file (new ▸ there)
    · rcases resolved.names.spares spare with old | new
      · exact safe.numbered.synced.spares spare file (old ▸ there)
      · exact safe.numbered.names.spares spare file (new ▸ there)
  have after : shot.names.Backed (disk.crashed shot) := backed.mono fun _ grown => ⟨grown.1, rfl⟩
  refine ⟨⟨after, after⟩, fun left after => ?_⟩
  rw [Disk.resolves_crashed after]
  exact safe.shots shot resolved

theorem setFile {id : FileId} {file : File} (numbered : disk.Numbered)
    (steady : (disk.files id).Steady file)
    (shots : ∀ shot, (disk.setFile id file).Resolves shot → P shot) :
    Safe P (disk.setFile id file) :=
  ⟨numbered.setFile steady, shots⟩

end Safe

/-! ### Procedures under the crash invariant -/

/-- The crash invariant holds, and calls may be told to fail only where `faulty`. -/
structure Sound (faulty : Prop) (P : Shot → Prop) (world : World) : Prop where
  safe : Safe P world.disk
  fates : faulty ∨ world.fates = []

/-- Every state `body` passes through is `Safe P`. It ends with `done`, or, where calls may fail,
with `failed`. -/
def Keeps {ε α : Type} (faulty : Prop) (P : Shot → Prop) (body : Task ε α) (world : World)
    (done : α → Disk → Prop) (failed : ε → Disk → Prop) : Prop :=
  Proc.Meets body world (fun passed => Safe P passed.disk) fun result last =>
    Sound faulty P last ∧
      match result with
      | .ok value => done value last.disk
      | .error error => faulty ∧ failed error last.disk

namespace Keeps

variable {ε ε' α β : Type} {faulty : Prop} {P Q : Shot → Prop} {world : World}

variable {body : Task ε α} {done : α → Disk → Prop} {failed : ε → Disk → Prop}

theorem passing (keeps : Keeps faulty P body world done failed) {passed : World}
    (cut : passed ∈ (body world).seen) : Safe P passed.disk :=
  keeps.1 passed cut

variable {value : α}

section

variable (keeps : Keeps faulty P body world done failed)

include keeps

theorem of_ok (shape : (body world).result = .ok value) :
    Safe P (body world).last.disk ∧ done value (body world).last.disk := by
  obtain ⟨-, sound, holds⟩ := keeps
  rw [shape] at holds
  exact ⟨sound.safe, holds⟩

theorem of_error {error : ε}
    (shape : (body world).result = .error error) :
    Safe P (body world).last.disk ∧ faulty ∧ failed error (body world).last.disk := by
  obtain ⟨-, sound, holds⟩ := keeps
  rw [shape] at holds
  exact ⟨sound.safe, holds⟩

theorem cut {passed : World}
    (cutAt : (body world).CutAt passed) : Safe P passed.disk := by
  rcases cutAt with seen | ⟨rfl, error, shape⟩
  · exact keeps.passing seen
  · exact (keeps.of_error shape).1

end

theorem total (keeps : Keeps False P body world done failed) :
    ∃ value, (body world).result = .ok value ∧ Safe P (body world).last.disk ∧
      done value (body world).last.disk := by
  cases shape : (body world).result with
  | ok value => exact ⟨value, rfl, (keeps.of_ok shape).1, (keeps.of_ok shape).2⟩
  | error error => exact (keeps.of_error shape).2.1.elim

theorem mono {done' : α → Disk → Prop} {failed' : ε → Disk → Prop}
    (keeps : Keeps faulty P body world done failed)
    (done_le : ∀ value disk, Safe P disk → done value disk → done' value disk)
    (failed_le : ∀ error disk, failed error disk → failed' error disk) :
    Keeps faulty P body world done' failed' := by
  refine Proc.Meets.mono keeps (fun _ safe => safe) ?_
  rintro (error | value) last ⟨sound, holds⟩
  · exact ⟨sound, holds.1, failed_le _ _ holds.2⟩
  · exact ⟨sound, done_le _ _ sound.safe holds⟩

theorem post {done' : α → Disk → Prop} (keeps : Keeps faulty P body world done failed)
    (done_le : ∀ value disk, Safe P disk → done value disk → done' value disk) :
    Keeps faulty P body world done' failed :=
  keeps.mono done_le fun _ _ holds => holds

theorem failing {failed' : ε → Disk → Prop} (keeps : Keeps faulty P body world done failed)
    (failed_le : ∀ error disk, failed error disk → failed' error disk) :
    Keeps faulty P body world done failed' :=
  keeps.mono (fun _ _ _ holds => holds) failed_le

theorem pure (sound : Sound faulty P world) (holds : done value world.disk) :
    Keeps faulty P (Pure.pure value : Task ε α) world done failed :=
  Proc.meets_pure ⟨sound, holds⟩

theorem returns (sound : Sound faulty P world) :
    Keeps faulty P (Pure.pure value : Task ε α) world
      (fun found disk => found = value ∧ disk = world.disk) failed :=
  Keeps.pure sound ⟨rfl, rfl⟩

theorem fail {error : ε} (sound : Sound faulty P world) (fault : faulty)
    (holds : failed error world.disk) :
    Keeps faulty P (Proc.fail error : Task ε α) world done failed :=
  Proc.meets_fail ⟨sound, fault, holds⟩

theorem bind {first : Task ε α} {next : α → Task ε β} {middle : α → Disk → Prop}
    {done : β → Disk → Prop} (keeps : Keeps faulty P first world middle failed)
    (continues : ∀ value disk fates, Sound faulty P ⟨disk, fates⟩ → middle value disk →
      Keeps faulty P (next value) ⟨disk, fates⟩ done failed) :
    Keeps faulty P (first >>= next) world done failed := by
  refine Proc.meets_bind keeps ?_ ?_
  · exact fun value last holds => continues value last.disk last.fates holds.1 holds.2
  · exact fun error last holds => holds

theorem mapError {rename : ε → ε'} {failed : ε' → Disk → Prop}
    (keeps : Keeps faulty P body world done fun error => failed (rename error)) :
    Keeps faulty P (Proc.mapError rename body) world done failed := by
  refine Proc.meets_mapError (Proc.Meets.post keeps ?_)
  rintro (error | value) last holds <;> exact holds

theorem lift {result : Except ε α} (shape : result = .ok value) (sound : Sound faulty P world) :
    Keeps faulty P (Proc.lift result : Task ε α) world
      (fun found disk => found = value ∧ disk = world.disk) failed := by
  subst shape
  exact Proc.meets_lift ⟨sound, rfl, rfl⟩

theorem lift_faulty {result : Except ε α} (fault : faulty) (sound : Sound faulty P world)
    (failing : ∀ error, result = .error error → failed error world.disk) :
    Keeps faulty P (Proc.lift result : Task ε α) world
      (fun found disk => result = .ok found ∧ disk = world.disk) failed := by
  refine Proc.meets_lift ⟨sound, ?_⟩
  cases result with
  | ok value => exact ⟨rfl, rfl⟩
  | error error => exact ⟨fault, failing error rfl⟩

theorem when {condition : Bool} {body : Task ε PUnit} {done : PUnit → Disk → Prop}
    (sound : Sound faulty P world)
    (taken : condition = true → Keeps faulty P body world done failed)
    (skipped : condition = false → done ⟨⟩ world.disk) :
    Keeps faulty P (Proc.when condition body) world done failed :=
  Proc.meets_when taken fun off => ⟨sound, skipped off⟩

theorem attempt {failed' : ε' → Disk → Prop} (keeps : Keeps faulty P body world done failed) :
    Keeps faulty P (Proc.attempt body : Task ε' (Except ε α)) world
      (fun result disk => match result with
        | .ok value => done value disk
        | .error error => faulty ∧ failed error disk) failed' := by
  refine Proc.meets_attempt (Proc.Meets.post keeps ?_)
  rintro (error | value) last holds <;> exact holds

end Keeps

/-! ### The provider calls -/

section Calls

variable {α : Type} {faulty : Prop} {P : Shot → Prop} {world : World} {failed : IoError → Disk → Prop}

theorem keeps_call {midway : List (Disk → Disk)} {full : Disk → Disk}
    {partway : Fault → Disk → Disk} {answer : Disk → α} {done : α → Disk → Prop}
    (sound : Sound faulty P world)
    (passes : ∀ effect ∈ midway, Safe P (effect world.disk)) (completes : Safe P (full world.disk))
    (breaks : ∀ fault, Safe P (partway fault world.disk))
    (failing : ∀ fault, failed .failed (partway fault world.disk))
    (finish : done (answer world.disk) (full world.disk)) :
    Keeps faulty P (call midway full partway answer) world done failed := by
  obtain ⟨disk, fates⟩ := world
  have finishes : ∀ rest : List Fate, (faulty ∨ rest = []) →
      Keeps faulty P (fun _ : World =>
        ⟨(midway ++ [full]).map fun effect => ⟨effect disk, rest⟩, ⟨full disk, rest⟩,
          .ok (answer disk)⟩) ⟨disk, fates⟩ done failed := by
    intro rest allowed
    refine ⟨?_, ⟨completes, allowed⟩, finish⟩
    simp only [map_append, mem_append, mem_map, map_cons, map_nil,
      mem_singleton]
    rintro passed (⟨effect, member, rfl⟩ | rfl)
    · exact passes effect member
    · exact completes
  rcases fates with _ | ⟨⟨⟩ | fault, rest⟩
  · exact finishes [] (.inr rfl)
  · exact finishes rest (sound.fates.imp_right nofun)
  have fault : faulty := sound.fates.resolve_right (by simp)
  refine ⟨fun passed member => ?_, ⟨breaks _, .inl fault⟩, fault, failing _⟩
  rw [mem_singleton.mp member]
  exact breaks _

variable {disk : Disk}

private theorem noStage :
    ∀ effect ∈ ([] : List (Disk → Disk)), Safe P (effect disk) :=
  nofun

theorem keeps_atomic {full : Disk → Disk} {picks : Fault → Bool} {answer : Disk → α}
    (sound : Sound faulty P world) (completes : Safe P (full world.disk))
    (failing : ∀ disk, Safe P disk → disk = world.disk ∨ disk = full world.disk →
      failed .failed disk) :
    Keeps faulty P (call [] full (fun fault disk => if picks fault then full disk else disk) answer)
      world (fun value disk => value = answer world.disk ∧ disk = full world.disk) failed := by
  have breaks (fault : Fault) : Safe P (if picks fault then full world.disk else world.disk) := by
    split
    · exact completes
    · exact sound.safe
  refine keeps_call sound noStage completes breaks (fun fault => ?_) ⟨rfl, rfl⟩
  refine failing _ (breaks fault) ?_
  split
  · exact .inr rfl
  · exact .inl rfl

theorem keeps_query {answer : Disk → α} (sound : Sound faulty P world)
    (failing : failed .failed world.disk) :
    Keeps faulty P (query answer) world
      (fun value disk => value = answer world.disk ∧ disk = world.disk) failed := by
  obtain ⟨disk, fates⟩ := world
  rcases fates with _ | ⟨⟨⟩ | fault, rest⟩
  · exact ⟨by simp [query], ⟨sound.safe, .inr rfl⟩, rfl, rfl⟩
  · exact ⟨by simp [query], ⟨sound.safe, sound.fates.imp_right nofun⟩, rfl, rfl⟩
  · have fault : faulty := sound.fates.resolve_right (by simp)
    exact ⟨by simp [query], ⟨sound.safe, .inl fault⟩, fault, failing⟩

theorem keeps_openFile {name : Names → Option Nat} {number : Nat} (sound : Sound faulty P world)
    (there : name world.disk.names = some number) (failing : failed .failed world.disk) :
    Keeps faulty P (openFile name) world
      (fun value disk => value = number ∧ disk = world.disk) failed := by
  refine (keeps_query sound failing).bind ?_
  rintro _ _ fates reachedSound ⟨rfl, rfl⟩
  rw [there]
  exact .pure reachedSound ⟨rfl, rfl⟩

theorem keeps_alterNames {present : Names → Bool} {change : Names → Names}
    (sound : Sound faulty P world) (there : present world.disk.names = true)
    (changed : Safe P { world.disk with names := change world.disk.names })
    (failing : ∀ disk, Safe P disk →
      disk = world.disk ∨ disk = { world.disk with names := change world.disk.names } →
      failed .failed disk) :
    Keeps faulty P (alterNames present change) world
      (fun _ disk => disk = { world.disk with names := change world.disk.names }) failed := by
  have called := @keeps_atomic _ _ _ _ _ (fun disk => { disk with names := change disk.names })
    (fun fault => fault.shown 0) (fun _ => ()) sound changed failing
  unfold Keeps Proc.Meets alterNames
  rw [if_pos there]
  exact called.post fun _ _ _ done => done.2

theorem Safe.syncDir (safe : Safe P disk) :
    Safe P { disk with synced := disk.names } := by
  have backed : disk.names.Backed { disk with synced := disk.names } :=
    safe.numbered.names.mono fun _ grown => grown
  refine ⟨⟨backed, backed⟩, fun shot resolved => ?_⟩
  refine safe.shots shot ⟨?_, resolved.files⟩
  have names := resolved.names
  exact ⟨.inr (or_self_iff.mp names.metaFile), .inr (or_self_iff.mp names.metaTmp),
    fun first => .inr (or_self_iff.mp (names.segments first)),
    fun first => .inr (or_self_iff.mp (names.temporaries first)),
    fun spare => .inr (or_self_iff.mp (names.spares spare))⟩

theorem keeps_syncDir (sound : Sound faulty P world)
    (failing : ∀ disk, Safe P disk → failed .failed disk) :
    Keeps faulty P syncDir world
      (fun _ disk => disk = { world.disk with synced := world.disk.names }) failed :=
  (keeps_atomic sound sound.safe.syncDir fun disk safe _ => failing disk safe).post
    fun _ _ _ done => done.2

/-- Part of a write over what a crash may leave is safe. -/
def Absorbs (P : Shot → Prop) (disk : Disk) (id : FileId) (region : Nat → Option Content) : Prop :=
  ∀ shot bytes, disk.Resolves shot → (shot.files id).Overlay region bytes →
    P (shot.setFile id bytes)

theorem Absorbs.safe {id : FileId} {region : Nat → Option Content} {file : File}
    (absorbs : Absorbs P disk id region) (numbered : disk.Numbered)
    (steady : (disk.files id).Steady file)
    (overlays : ∀ bytes, file.Resolves bytes →
      ∃ base, (disk.files id).Resolves base ∧ base.Overlay region bytes) :
    Safe P (disk.setFile id file) := by
  refine .setFile numbered steady fun shot resolved => ?_
  have own := resolved.files id
  rw [Disk.setFile_same] at own
  obtain ⟨base, before, overlay⟩ := overlays _ own
  have whole := absorbs (shot.setFile id base) (shot.files id)
    (resolved.of_setFile before).1 (by rwa [Shot.setFile_same])
  simpa [Shot.setFile] using whole

section Writes

variable {id : FileId} {offset : Nat} {buf : Buf}

theorem File.Within.steady {file : File} (within : file.Within offset buf) :
    file.Steady (file.write offset buf) := fun durable => by
  rw [within.size]
  exact durable

theorem File.Within.steadyPartway {file : File} (within : file.Within offset buf) (fault : Fault) :
    file.Steady (file.writePartway offset buf fault) := fun durable => by
  simp only [File.writePartway, within.size, ite_self]
  exact durable

section

variable {disk : Disk} (absorbs : Absorbs P disk id (buf.region offset)) (numbered : disk.Numbered)
  (within : (disk.files id).Within offset buf)

include absorbs numbered within

private theorem Absorbs.partway (fault : Fault) :
    Safe P (disk.setFile id ((disk.files id).writePartway offset buf fault)) :=
  absorbs.safe numbered (within.steadyPartway fault) fun _ => File.Resolves.of_writePartway within

private theorem Absorbs.inFlight :
    Safe P (disk.setFile id ((disk.files id).write offset buf)) :=
  absorbs.safe numbered within.steady fun _ => File.Resolves.of_write within

end

theorem keeps_extend (sound : Sound faulty P world)
    (whole : Safe P (world.disk.setFile id ((world.disk.files id).write offset buf)))
    (parts : ∀ fault, Safe P
      (world.disk.setFile id ((world.disk.files id).writePartway offset buf fault)))
    (failing : ∀ disk, Safe P disk → failed .failed disk) :
    Keeps faulty P (writeBlocks id offset buf) world
      (fun _ disk => disk = world.disk.setFile id ((world.disk.files id).write offset buf))
      failed :=
  keeps_call sound noStage whole parts (fun fault => failing _ (parts fault)) rfl

section

variable (sound : Sound faulty P world) (within : (world.disk.files id).Within offset buf)
  (absorbs : Absorbs P world.disk id (buf.region offset))
  (failing : ∀ fault, failed .failed
    (world.disk.setFile id ((world.disk.files id).writePartway offset buf fault)))

include sound within absorbs failing

theorem keeps_writeBlocks :
    Keeps faulty P (writeBlocks id offset buf) world
      (fun _ disk => disk = world.disk.setFile id ((world.disk.files id).write offset buf))
      failed :=
  keeps_call sound noStage (absorbs.inFlight sound.safe.numbered within)
    (absorbs.partway sound.safe.numbered within) failing rfl

theorem keeps_writeBlocksDurable :
    Keeps faulty P (writeBlocksDurable id offset buf) world
      (fun _ disk => disk = world.disk.setFile id
        (((world.disk.files id).write offset buf).flush offset buf.len)) failed := by
  have durable : Safe P (world.disk.setFile id
      (((world.disk.files id).write offset buf).flush offset buf.len)) :=
    absorbs.safe sound.safe.numbered within.steady fun bytes resolved => by
      obtain ⟨base, before, rfl⟩ := File.Resolves.of_durable within resolved
      exact ⟨base, before, base.overlay_written _⟩
  refine keeps_call sound ?_ durable (absorbs.partway sound.safe.numbered within) failing rfl
  intro effect member
  rw [mem_singleton.mp member]
  exact absorbs.inFlight sound.safe.numbered within

end

end Writes

theorem Safe.syncFile (safe : Safe P disk) (id : FileId) :
    Safe P (disk.setFile id (disk.files id).sync) :=
  Safe.setFile safe.numbered (fun _ => rfl) fun shot resolved =>
    safe.shots shot (resolved.narrow fun _ => File.Resolves.of_sync)

section

variable (sound : Sound faulty P world) (failing : ∀ disk, Safe P disk → failed .failed disk)

include sound failing

theorem keeps_syncFile {id : FileId} :
    Keeps faulty P (syncFile id) world
      (fun _ disk => disk = world.disk.setFile id (world.disk.files id).sync) failed := by
  have breaks : ∀ fault : Fault, Safe P (world.disk.setFile id
      { world.disk.files id with data := (world.disk.files id).data.flush fault.kept }) := by
    intro fault
    refine .setFile sound.safe.numbered (fun durable => durable) fun shot resolved =>
      sound.safe.shots shot ?_
    exact resolved.narrow fun _ own => ⟨own.1, Image.resolves_of_flush own.2⟩
  exact keeps_call sound noStage (sound.safe.syncFile id) breaks
    (fun fault => failing _ (breaks fault)) rfl

theorem keeps_allocate {id : FileId} {blocks : Nat}
    (allocated : Safe P (world.disk.setFile id ((world.disk.files id).allocate blocks))) :
    Keeps faulty P (allocate id blocks) world
      (fun _ disk => disk = world.disk.setFile id ((world.disk.files id).allocate blocks))
      failed :=
  (keeps_atomic sound allocated fun disk safe _ => failing disk safe).post
    fun _ _ _ done => done.2

theorem keeps_createFile {kind : Nat → FileId} {named : Nat → Names → Names}
    (created : Safe P (world.disk.created kind named)) :
    Keeps faulty P (createFile kind named) world
      (fun number disk => number = world.disk.next ∧ disk = world.disk.created kind named)
      failed :=
  keeps_atomic sound created fun disk safe _ => failing disk safe

end

end Calls

end Moonpool.Journal
