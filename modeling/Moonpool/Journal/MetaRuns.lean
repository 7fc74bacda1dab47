import Moonpool.Journal.MetaCrash
import Moonpool.Journal.Journal

/-!
Owns the meta file over whole runs: any sequence of updates, opens with their repairs and
generation bumps, each perhaps cut by a crash, a failing call or the end of the process.

An open always finds the value of the last update that completed, or of the one in
flight, and no single damaged copy changes that.
-/

namespace Moonpool.Journal

open Lib MetaFile

structure MetaState where
  disk : Disk
  /-- The value of the last completed update, or the one the last open found. -/
  current : Meta
  /-- The value of the update that was cut, if one was. -/
  flight : Option Meta
  /-- The journal is open, and has seen no call fail. -/
  live : Bool

inductive MetaReach (id : JournalId) (file : Nat) : MetaState → Prop
  | created {disk : Disk} {fates : List Fate} {info : Meta} (numbered : disk.Numbered)
      (settled : disk.synced = disk.names) (absent : disk.names.metaFile = none)
      (own : info.journal = id) (done : (create info ⟨disk, fates⟩).result = .ok file) :
      MetaReach id file ⟨(create info ⟨disk, fates⟩).last.disk, info, none, true⟩
  /-- A completed update: every caller bumps the sequence number by one. -/
  | updated {state : MetaState} {fates : List Fate} {next : Meta} (reach : MetaReach id file state)
      (live : state.live = true) (own : next.journal = id)
      (bumped : next.seq = state.current.seq + 1)
      (done : (MetaFile.update file next ⟨state.disk, fates⟩).result = .ok ()) :
      MetaReach id file
        ⟨(MetaFile.update file next ⟨state.disk, fates⟩).last.disk, next, none, true⟩
  | updateCut {state : MetaState} {fates : List Fate} {next : Meta} {passed : World}
      (reach : MetaReach id file state) (live : state.live = true) (own : next.journal = id)
      (bumped : next.seq = state.current.seq + 1)
      (cut : passed ∈ (MetaFile.update file next ⟨state.disk, fates⟩).seen) :
      MetaReach id file ⟨passed.disk, state.current, some next, false⟩
  | began {state : MetaState} {fates : List Fate} {next : Meta} {last : Nat}
      (reach : MetaReach id file state) (live : state.live = true)
      (done : (beginGeneration file state.current last ⟨state.disk, fates⟩).result = .ok next) :
      MetaReach id file
        ⟨(beginGeneration file state.current last ⟨state.disk, fates⟩).last.disk, next, none, true⟩
  | beginCut {state : MetaState} {fates : List Fate} {last : Nat} {passed : World}
      (reach : MetaReach id file state) (live : state.live = true)
      (cut : passed ∈ (beginGeneration file state.current last ⟨state.disk, fates⟩).seen) :
      MetaReach id file ⟨passed.disk, state.current, some { state.current with
        seq := state.current.seq + 1
        lastBatch := last
        openGeneration := state.current.openGeneration + 1
        openLast := last }, false⟩
  | stopped {state : MetaState} (reach : MetaReach id file state) :
      MetaReach id file { state with live := false }
  | crashed {state : MetaState} {shot : Shot} (reach : MetaReach id file state)
      (left : state.disk.Resolves shot) :
      MetaReach id file { state with disk := state.disk.crashed shot, live := false }
  | opened {state : MetaState} {fates : List Fate} {number : Nat} {info : Meta} {repaired : Bool}
      (reach : MetaReach id file state) (closed : state.live = false)
      (done : (openAt id ⟨state.disk, fates⟩).result =
        .ok (some (number, info, repaired))) :
      MetaReach id file ⟨(openAt id ⟨state.disk, fates⟩).last.disk, info, none, true⟩
  | openCut {state : MetaState} {fates : List Fate} {passed : World}
      (reach : MetaReach id file state) (closed : state.live = false)
      (cut : passed ∈ (openAt id ⟨state.disk, fates⟩).seen) :
      MetaReach id file { state with disk := passed.disk }

/-- An open finds `current` or the value in `flight`. -/
structure Survives (id : JournalId) (file : Nat) (current : Meta) (flight : Option Meta)
    (shot : Shot) : Prop where
  named : shot.names.metaFile = some file
  whole : (shot.files (.info file)).size = metaFileBlocks
  elects : ∃ info, (info = current ∨ flight = some info) ∧
    Elects id (shot.files (.info file)).content info

structure MetaState.Holds (id : JournalId) (file : Nat) (state : MetaState) : Prop where
  own : state.current.journal = id
  safe : Safe (Survives id file state.current state.flight) state.disk
  both : state.live = true → (state.disk.files (.info file)).Holds state.current

section Steps

variable {id : JournalId} {file : Nat} {state : MetaState}

theorem Survives.mono {current : Meta} {flight : Option Meta} {shot : Shot} {next : Meta}
    (survives : Survives id file current flight shot) (idle : flight = none) :
    Survives id file current (some next) shot := by
  obtain ⟨info, found, elects⟩ := survives.elects
  refine ⟨survives.named, survives.whole, info, .inl ?_, elects⟩
  rcases found with same | flying
  · exact same
  · rw [idle] at flying
    cases flying

theorem elects_of_pair {bytes : Bytes} {info : Meta} (own : info.journal = id)
    (pair : bytes.Pair info) : Elects id bytes.content info :=
  ⟨none, choose_both own (copyOf_eq pair.copyA) (copyOf_eq pair.copyB)⟩

theorem Safe.settle {disk : Disk} {current info : Meta} {flight : Option Meta}
    (safe : Safe (Survives id file current flight) disk) (own : info.journal = id)
    (holds : (disk.files (.info file)).Holds info) :
    Safe (Survives id file info none) disk := by
  refine ⟨safe.numbered, fun shot resolved => ?_⟩
  have pair := holds _ (resolved.files (.info file))
  exact ⟨(safe.shots shot resolved).named, pair.size, info, .inl rfl, elects_of_pair own pair⟩

theorem File.Holds.at_setFile {disk : Disk} {after : File} {info : Meta} (pair : after.Holds info) :
    ((disk.setFile (.info file) after).files (.info file)).Holds info := by
  rw [Disk.setFile_same]
  exact pair

theorem MetaState.Holds.update (holds : state.Holds id file) (live : state.live = true)
    {next : Meta} (own : next.journal = id) (newer : state.current.seq < next.seq)
    (fates : List Fate) :
    Keeps True (Survives id file state.current (some next)) (MetaFile.update file next)
      ⟨state.disk, fates⟩
      (fun _ disk => Safe (Survives id file next none) disk ∧
        (disk.files (.info file)).Holds next) fun _ _ => True := by
  have both := holds.both live
  have settled : Safe (Survives id file state.current none) state.disk :=
    holds.safe.settle holds.own both
  have sound : Sound True (Survives id file state.current (some next)) ⟨state.disk, fates⟩ :=
    ⟨settled.mono fun _ survives => survives.mono rfl, .inl trivial⟩
  refine (keeps_update sound both holds.own own newer ?_).post ?_
  · intro shot bytes resolved size elects
    refine ⟨(settled.shots shot resolved).named, by simpa using size, ?_⟩
    rw [Shot.setFile_same]
    rcases elects with old | new
    · exact ⟨_, .inl rfl, old⟩
    · exact ⟨_, .inr rfl, new⟩
  · rintro - disk safe ⟨after, rfl, pair⟩
    exact ⟨safe.settle own pair.at_setFile, pair.at_setFile⟩

theorem MetaState.Holds.begin (holds : state.Holds id file) (live : state.live = true)
    (last : Nat) (fates : List Fate) :
    let next := { state.current with
      seq := state.current.seq + 1
      lastBatch := last
      openGeneration := state.current.openGeneration + 1
      openLast := last }
    Keeps True (Survives id file state.current (some next))
      (beginGeneration file state.current last) ⟨state.disk, fates⟩
      (fun found disk => found = next ∧ Safe (Survives id file next none) disk ∧
        (disk.files (.info file)).Holds next) fun _ _ => True := by
  intro next
  have own : next.journal = id := holds.own
  have updated := holds.update live own (Nat.lt_succ_self _) fates
  have settled : Safe (Survives id file state.current none) state.disk :=
    holds.safe.settle holds.own (holds.both live)
  have sound : Sound True (Survives id file state.current (some next)) ⟨state.disk, fates⟩ :=
    ⟨settled.mono fun _ survives => survives.mono rfl, .inl trivial⟩
  unfold beginGeneration
  split
  · exact .fail sound trivial trivial
  split
  · exact .fail sound trivial trivial
  · refine (Keeps.mapError updated).bind ?_
    rintro _ disk rest sound final
    exact .pure sound ⟨rfl, final⟩

/-- An open of a closed meta file finds a value it should, and ends with both copies that value. -/
theorem MetaState.Holds.open (holds : state.Holds id file) (faulty : Prop) (fates : List Fate)
    (allowed : faulty ∨ fates = []) :
    ∃ info, (info = state.current ∨ state.flight = some info) ∧ info.journal = id ∧
      Keeps faulty (Survives id file state.current state.flight) (openAt id)
        ⟨state.disk, fates⟩
        (fun found disk => (∃ repaired, found = some (file, info, repaired)) ∧
          Safe (Survives id file info none) disk ∧ (disk.files (.info file)).Holds info)
        fun _ _ => True := by
  have visible := holds.safe.visible
  obtain ⟨info, found, stale, chosen⟩ := visible.elects
  have own := (choose_ok chosen).1
  refine ⟨info, found, own, ?_⟩
  have sound : Sound faulty (Survives id file state.current state.flight) ⟨state.disk, fates⟩ :=
    ⟨holds.safe, allowed⟩
  refine (keeps_openAt sound visible.whole ⟨stale, chosen⟩ ?_ visible.named).post ?_
  · intro shot bytes resolved size elects
    refine ⟨(holds.safe.shots shot resolved).named, by simpa using size, info, found, ?_⟩
    rw [Shot.setFile_same]
    exact elects
  · rintro value disk safe ⟨shape, after, rfl, pair⟩
    exact ⟨shape, safe.settle own pair.at_setFile, pair.at_setFile⟩

end Steps

theorem MetaReach.holds {id : JournalId} {file : Nat} {state : MetaState}
    (reach : MetaReach id file state) : state.Holds id file := by
  induction reach with
  | @created disk fates info numbered settled absent own done =>
    have sound : Sound True (fun _ => True) ⟨disk, fates⟩ :=
      ⟨⟨numbered, fun _ _ => trivial⟩, .inl trivial⟩
    have nursery : Nursery (fun _ => True) disk info :=
      ⟨fun _ _ _ _ _ => trivial, fun _ _ _ _ _ _ => trivial⟩
    have keeps := keeps_create sound settled absent nursery
    obtain ⟨final, rfl, -, synced, named, pair⟩ := keeps.of_ok done
    refine ⟨own, ⟨final.numbered, fun shot resolved => ?_⟩, fun _ => pair⟩
    have both := pair _ (resolved.files _)
    refine ⟨?_, both.size, info, .inl rfl, elects_of_pair own both⟩
    rcases resolved.names.metaFile with old | new
    · rw [old, synced]
      exact named
    · exact new.trans named
  | @updated state fates next reach live own bumped done holds =>
    have newer : state.current.seq < next.seq := by omega
    obtain ⟨-, safe, pair⟩ := (holds.update live own newer fates).of_ok done
    exact ⟨own, safe, fun _ => pair⟩
  | @updateCut state fates next passed reach live own bumped cut holds =>
    have newer : state.current.seq < next.seq := by omega
    exact ⟨holds.own, (holds.update live own newer fates).passing cut, by simp⟩
  | @began state fates next last reach live done holds =>
    obtain ⟨-, rfl, safe, pair⟩ := (holds.begin live last fates).of_ok done
    exact ⟨holds.own, safe, fun _ => pair⟩
  | @beginCut state fates last passed reach live cut holds =>
    exact ⟨holds.own, (holds.begin live last fates).passing cut, by simp⟩
  | stopped reach holds => exact ⟨holds.own, holds.safe, by simp⟩
  | crashed reach left holds => exact ⟨holds.own, holds.safe.crashed left, by simp⟩
  | @opened state fates number info repaired reach closed done holds =>
    obtain ⟨found, -, own, keeps⟩ := holds.open True fates (.inl trivial)
    obtain ⟨-, ⟨_, shape⟩, safe, pair⟩ := keeps.of_ok done
    cases shape
    exact ⟨own, safe, fun _ => pair⟩
  | @openCut state fates passed reach closed cut holds =>
    obtain ⟨found, -, own, keeps⟩ := holds.open True fates (.inl trivial)
    exact ⟨holds.own, keeps.passing cut, by simp [closed]⟩

def Shot.rot (shot : Shot) (file : Nat) (copy : Copy) (bad : Content) : Shot :=
  shot.setFile (.info file) { shot.files (.info file) with
    content := Function.update (shot.files (.info file)).content copy.start bad }

section Rot

variable {id : JournalId} {file : Nat} {current : Meta} {shot : Shot} {copy : Copy} {bad : Content}

theorem elects_rot (own : current.journal = id) (pair : (shot.files (.info file)).Pair current)
    (unreadable : bad.asMeta copy = none) :
    Elects id ((shot.rot file copy bad).files (.info file)).content current := by
  have lost : copyOf copy ((shot.rot file copy bad).files (.info file)).content = none := by
    simp [copyOf, Shot.rot, unreadable]
  have spared : ∀ other, other ≠ copy →
      copyOf other ((shot.rot file copy bad).files (.info file)).content =
        copyOf other (shot.files (.info file)).content := by
    intro other apart
    have places : other.start ≠ copy.start := by
      cases other <;> cases copy <;> simp_all [Copy.start, metaCopyBAt, block]
    simp [copyOf, Shot.rot, Function.update_of_ne places]
  cases copy with
  | a =>
    refine ⟨_, choose_b own ?_ fun twin there => by rw [lost] at there; cases there⟩
    rw [spared .b (by decide), copyOf_eq pair.copyB]
  | b =>
    refine ⟨_, choose_a own ?_ fun twin there => by rw [lost] at there; cases there⟩
    rw [spared .a (by decide), copyOf_eq pair.copyA]

end Rot

/-- In every run, an open finds the value of the last completed update or of the one in flight; once
an update or open has completed, also with either copy damaged. -/
theorem MetaReach.survives_crash_and_rot {id : JournalId} {file : Nat} {state : MetaState}
    (reach : MetaReach id file state) :
    (∃ info repaired,
      (MetaFile.openAt id ⟨state.disk, []⟩).result = .ok (some (file, info, repaired)) ∧
      (info = state.current ∨ state.flight = some info) ∧
      (state.live = true → info = state.current)) ∧
    (state.live = true → ∀ (shot : Shot) (copy : Copy) (bad : Content),
      state.disk.Resolves shot → bad.asMeta copy = none →
      ∃ repaired, (MetaFile.openAt id
        ⟨state.disk.crashed (shot.rot file copy bad), []⟩).result =
          .ok (some (file, state.current, repaired))) := by
  have holds := reach.holds
  refine ⟨?_, fun live shot copy bad resolved unreadable => ?_⟩
  · obtain ⟨info, found, own, keeps⟩ := holds.open False [] (.inr rfl)
    obtain ⟨value, shape, -, ⟨repaired, rfl⟩, -⟩ := keeps.total
    refine ⟨info, repaired, shape, found, fun live => ?_⟩
    -- A live state holds its value in both copies, so it is the one there is to find.
    have alone : MetaState.Holds id file { state with flight := none } :=
      ⟨holds.own, holds.safe.settle holds.own (holds.both live), holds.both⟩
    obtain ⟨only, isCurrent, -, again⟩ := alone.open False [] (.inr rfl)
    obtain ⟨_, sameShape, -, ⟨_, rfl⟩, -⟩ := again.total
    have same := shape.symm.trans sameShape
    simp only [Except.ok.injEq, Option.some.injEq, Prod.mk.injEq, true_and] at same
    rw [same.1]
    rcases isCurrent with current | flying
    · exact current
    · cases flying
  · have pair := holds.both live _ (resolved.files _)
    have elects := elects_rot holds.own pair unreadable
    have rotten : MetaState.Holds id file
        ⟨state.disk.crashed (shot.rot file copy bad), state.current, none, false⟩ := by
      have numbered := (holds.safe.crashed resolved).numbered
      have grown : ∀ number, (state.disk.crashed shot).Grown number →
          (state.disk.crashed (shot.rot file copy bad)).Grown number :=
        fun _ grown => ⟨grown.1, rfl⟩
      refine ⟨holds.own, ⟨⟨numbered.synced.mono grown, numbered.names.mono grown⟩,
        fun left after => ?_⟩, by simp⟩
      rw [Disk.resolves_crashed after]
      refine ⟨(holds.safe.shots shot resolved).named, ?_, _, .inl rfl, elects⟩
      simpa [Shot.rot] using pair.size
    obtain ⟨info, found, -, keeps⟩ := rotten.open False [] (.inr rfl)
    obtain ⟨value, shape, -, ⟨repaired, rfl⟩, -⟩ := keeps.total
    rcases found with rfl | flying
    · exact ⟨repaired, shape⟩
    · cases flying

/-- A journal just created, whose first update is cut with copy A in flight. -/
theorem MetaReach.survives_first_update_cut :
    ∃ state : MetaState, state.flight.isSome ∧
      ∃ info repaired,
        (MetaFile.openAt ⟨7⟩ ⟨state.disk, []⟩).result = .ok (some (0, info, repaired)) ∧
        (info = state.current ∨ state.flight = some info) := by
  let info : Meta := ⟨1, ⟨7⟩, 0, 0, 1, 0, .small, [1]⟩
  let next : Meta := { info with seq := 2, floor := 9 }
  have numbered : Disk.empty.Numbered :=
    ⟨⟨fun _ _ there => by simp [Disk.empty, Names.none] at there,
      fun _ _ there => by simp [Disk.empty, Names.none] at there⟩,
    ⟨fun _ _ there => by simp [Disk.empty, Names.none] at there,
      fun _ _ there => by simp [Disk.empty, Names.none] at there⟩⟩
  have created := @MetaReach.created ⟨7⟩ 0 Disk.empty [] info numbered rfl rfl rfl rfl
  have cut := @MetaReach.updateCut ⟨7⟩ 0 _ [] next _ created rfl rfl rfl List.mem_cons_self
  obtain ⟨found, repaired, shape, which, -⟩ := cut.survives_crash_and_rot.1
  exact ⟨_, rfl, found, repaired, shape, which⟩

end Moonpool.Journal
