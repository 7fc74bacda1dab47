import Moonpool.Journal.Crash
import Moonpool.Journal.Ledger

/-!
Owns whole runs: one journal's directory and the process over it, step by step, with
crashes between any two steps and inside every one of them.

The caller's knowledge goes along with the state: what it was told (`Ledger`), the batch of
a commit that never returned, and the batch numbers given out so far.
-/

namespace Moonpool.Journal

open Lib

set_option linter.dupNamespace false

variable [Crc32c]

inductive Phase where
  /-- No journal was acknowledged; creations with these metainfos did not return one. -/
  | blank (tried : List (List UInt8))
  /-- The journal holds `ledger`; a commit of `pending` did not return. -/
  | kept (ledger : Ledger) (pending : Option Batch)

/-- A creation with the metainfo `bytes` returned no journal. -/
def Phase.attempt (bytes : List UInt8) : Phase → Phase
  | .blank tried => .blank (bytes :: tried)
  | .kept ledger pending => .kept ledger pending

structure System where
  disk : Disk
  live : Option Journal
  phase : Phase
  /-- The batch numbers commits took, in order. -/
  numbers : List Nat

def System.start : System := ⟨.empty, none, .blank [], []⟩

def Journal.ledger (journal : Journal) (disk : Disk) : Ledger :=
  ⟨journal.read disk.shot, journal.info.floor, journal.info.bytes⟩

def Journal.taken (journal : Journal) (batch : Batch) : List Nat :=
  if batch.writes.isEmpty then [] else [Journal.nextSeq journal.generation journal.lastBatch]

/-- The commit was refused before it wrote anything; the journal is usable. -/
def CommitError.refuses : CommitError → Bool
  | .belowFloor _ _ | .metaTooLarge _ | .batchTooLarge | .poisoned => true
  | .io _ _ | .panicked _ => false

/-- A commit was cut in `state`: inside it, or by a failure that is no refusal. -/
def CommitCut (ran : Ran World (Journal × CommitError) Journal) (state : World) : Prop :=
  state ∈ ran.seen ∨ (state = ran.last ∧ ∃ after error, ran.result = .error (after, error) ∧
    error.refuses = false)

section Steps

variable (id : JournalId) (geometry : Geometry)

/-- One step of a run. Calls may fail where `faulty`, commits are as `allowed`. -/
inductive Step (faulty : Prop) (allowed : Journal → Batch → Prop) : System → System → Prop
  | create {system : System} {durability : Durability} {bytes : List UInt8} {fates : List Fate}
      {journal : Journal} (closed : system.live = none) (calls : faulty ∨ fates = [])
      (done : (createJournal id ⟨durability, geometry⟩ bytes ⟨system.disk, fates⟩).result =
        .ok journal) :
      Step faulty allowed system { system with
        disk := (createJournal id ⟨durability, geometry⟩ bytes ⟨system.disk, fates⟩).last.disk
        live := some journal
        phase := .kept (.fresh bytes) none }
  | createCut {system : System} {durability : Durability} {bytes : List UInt8}
      {fates : List Fate} {passed : World} (closed : system.live = none)
      (calls : faulty ∨ fates = [])
      (cut : (createJournal id ⟨durability, geometry⟩ bytes ⟨system.disk, fates⟩).CutAt passed) :
      Step faulty allowed system { system with
        disk := passed.disk
        phase := system.phase.attempt bytes }
  | commit {system : System} {journal after : Journal} {ledger : Ledger} {batch : Batch}
      {fates : List Fate} (live : system.live = some journal)
      (phase : system.phase = .kept ledger none) (calls : faulty ∨ fates = [])
      (asked : allowed journal batch)
      (done : (journal.commit batch ⟨system.disk, fates⟩).result = .ok after) :
      Step faulty allowed system
        { disk := (journal.commit batch ⟨system.disk, fates⟩).last.disk
          live := some after
          phase := .kept (ledger.commit batch) none
          numbers := system.numbers ++ journal.taken batch }
  | commitCut {system : System} {journal : Journal} {ledger : Ledger} {batch : Batch}
      {fates : List Fate} {passed : World} (live : system.live = some journal)
      (phase : system.phase = .kept ledger none) (calls : faulty ∨ fates = [])
      (asked : allowed journal batch)
      (cut : CommitCut (journal.commit batch ⟨system.disk, fates⟩) passed) :
      Step faulty allowed system
        { disk := passed.disk
          live := none
          phase := .kept ledger (some batch)
          numbers := system.numbers ++ journal.taken batch }
  | refused {system : System} {journal after : Journal} {batch : Batch} {error : CommitError}
      {fates : List Fate} (live : system.live = some journal) (calls : faulty ∨ fates = [])
      (done : (journal.commit batch ⟨system.disk, fates⟩).result = .error (after, error))
      (refusal : error.refuses = true) :
      Step faulty allowed system { system with
        disk := (journal.commit batch ⟨system.disk, fates⟩).last.disk
        live := some after }
  | stop {system : System} : Step faulty allowed system { system with live := none }
  | crash {system : System} {shot : Shot} (left : system.disk.Resolves shot) :
      Step faulty allowed system { system with
        disk := system.disk.crashed shot
        live := none }
  /-- An open that returns a journal: what it shows is what the caller knows from now on. -/
  | opened {system : System} {durability : Durability} {fates : List Fate} {journal : Journal}
      {recovery : Recovery} (closed : system.live = none) (calls : faulty ∨ fates = [])
      (done : (openJournal id ⟨durability, geometry⟩ ⟨system.disk, fates⟩).result =
        .ok (some (journal, recovery))) :
      Step faulty allowed system { system with
        disk := (openJournal id ⟨durability, geometry⟩ ⟨system.disk, fates⟩).last.disk
        live := some journal
        phase := .kept (journal.ledger
          (openJournal id ⟨durability, geometry⟩ ⟨system.disk, fates⟩).last.disk) none }
  | openedNone {system : System} {durability : Durability} {fates : List Fate}
      (closed : system.live = none) (calls : faulty ∨ fates = [])
      (done : (openJournal id ⟨durability, geometry⟩ ⟨system.disk, fates⟩).result = .ok none) :
      Step faulty allowed system { system with
        disk := (openJournal id ⟨durability, geometry⟩ ⟨system.disk, fates⟩).last.disk }
  | openCut {system : System} {durability : Durability} {fates : List Fate} {passed : World}
      (closed : system.live = none) (calls : faulty ∨ fates = [])
      (cut : (openJournal id ⟨durability, geometry⟩ ⟨system.disk, fates⟩).CutAt passed) :
      Step faulty allowed system { system with disk := passed.disk }

abbrev Runs (faulty : Prop) (allowed : Journal → Batch → Prop) : System → System → Prop :=
  Relation.ReflTransGen (Step id geometry faulty allowed)

variable {id geometry}

theorem Runs.invariant {faulty : Prop} {allowed : Journal → Batch → Prop} {Inv : System → Prop}
    {before after : System} (runs : Runs id geometry faulty allowed before after)
    (steps : ∀ system next, Step id geometry faulty allowed system next → Inv system → Inv next)
    (initial : Inv before) : Inv after := by
  induction runs with
  | refl => exact initial
  | tail _ step ih => exact steps _ _ step ih

end Steps

/-- What happens in a run in which no call fails; a crash loses every name not synced. -/
inductive Command where
  | create (durability : Durability) (bytes : List UInt8)
  | commit (batch : Batch)
  | crash

section Script

variable (id : JournalId) (geometry : Geometry)

def System.exec (system : System) : Command → Option System
  | .create durability bytes =>
    let ran := createJournal id ⟨durability, geometry⟩ bytes ⟨system.disk, []⟩
    match system.live, ran.result with
    | none, .ok journal => some { system with
        disk := ran.last.disk
        live := some journal
        phase := .kept (.fresh bytes) none }
    | _, _ => none
  | .commit batch =>
    match system.live, system.phase with
    | some journal, .kept ledger none =>
      let ran := journal.commit batch ⟨system.disk, []⟩
      match ran.result with
      | .ok after => some
          { disk := ran.last.disk
            live := some after
            phase := .kept (ledger.commit batch) none
            numbers := system.numbers ++ journal.taken batch }
      | .error _ => none
    | _, _ => none
  | .crash => some { system with
      disk := system.disk.crashed { system.disk.shot with names := system.disk.synced }
      live := none }

def System.script (system : System) : List Command → Option System
  | [] => some system
  | command :: rest => (system.exec id geometry command).bind fun next => next.script rest

variable {id geometry} {faulty : Prop} {allowed : Journal → Batch → Prop}

/-- A checksum that checks nothing, for runs on fixed inputs. -/
@[reducible] def unchecked : Crc32c := ⟨fun _ => 0⟩

def Geometry.tiny : Geometry := ⟨1, 0, 1⟩

theorem System.exec_step {system next : System} {command : Command}
    (asks : ∀ journal batch, allowed journal batch)
    (done : system.exec id geometry command = some next) :
    Step id geometry faulty allowed system next := by
  cases command with
  | create durability bytes =>
    simp only [System.exec] at done
    split at done
    next closed shape =>
      cases done
      exact .create closed (.inr rfl) shape
    · cases done
  | commit batch =>
    simp only [System.exec] at done
    split at done
    next journal ledger live phase =>
      split at done
      next shape =>
        cases done
        exact .commit live phase (.inr rfl) (asks _ _) shape
      · cases done
    · cases done
  | crash =>
    cases done
    exact .crash ⟨⟨.inl rfl, .inl rfl, fun _ => .inl rfl, fun _ => .inl rfl, fun _ => .inl rfl⟩,
      system.disk.resolves_shot.files⟩

theorem System.script_runs {commands : List Command} (asks : ∀ journal batch, allowed journal batch) :
    ∀ {system final : System}, system.script id geometry commands = some final →
      Runs id geometry faulty allowed system final := by
  induction commands with
  | nil =>
    intro system final done
    cases done
    exact .refl
  | cons command rest ih =>
    intro system final done
    obtain ⟨next, first, later⟩ := Option.bind_eq_some_iff.mp done
    exact .head (exec_step asks first) (ih later)

end Script

end Moonpool.Journal
