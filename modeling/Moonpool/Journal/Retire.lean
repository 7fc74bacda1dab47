import Moonpool.Journal.Names
import Moonpool.Journal.Journal

/-!
Owns taking dead front segments off the disk under the crash invariant: one name changes
at a time, and is durable before the next.
-/

namespace Moonpool.Journal

open Lib

set_option linter.dupNamespace false

/-- The journal once it retired a segment: the file is its spare if it had none. -/
def Journal.retired (journal : Journal) : Journal :=
  match journal.spare with
  | none => { journal with
      sparesNamed := (journal.sparesNamed + 1) % 2 ^ 32
      spare := some (spareName journal.generation journal.sparesNamed) }
  | some _ => journal

def Names.retire (names : Names) (journal : Journal) (first : Nat) : Names :=
  match journal.spare with
  | .none => { names with
      segments := names.segments.erase first
      spares := names.spares.alter (spareName journal.generation journal.sparesNamed) fun _ =>
        names.segments[first]? }
  | .some _ => { names with segments := names.segments.erase first }

section Retire

variable {faulty : Prop} {P : Shot → Prop} {world : World} {journal : Journal} {front : Segment}

@[simp] theorem Names.retire_segments (names : Names) (first : Nat) :
    (names.retire journal first).segments = names.segments.erase first := by
  unfold Names.retire
  split <;> rfl

@[simp] theorem Names.retire_metaFile (names : Names) (first : Nat) :
    (names.retire journal first).metaFile = names.metaFile := by
  unfold Names.retire
  split <;> rfl

private theorem retire_backed {disk : Disk} (backed : disk.names.Backed disk) (first : Nat) :
    (disk.names.retire journal first).Backed disk := by
  refine ⟨fun other file found => ?_, fun spare file found => ?_⟩
  · rw [Names.retire_segments] at found
    exact backed.segments other file (NameMap.of_erase found).2
  · unfold Names.retire at found
    split at found
    · simp only [Std.ExtTreeMap.getElem?_alter] at found
      split at found
      · exact backed.segments first file found
      · exact backed.spares spare file found
    · exact backed.spares spare file found

theorem keeps_retireFront (blind : Blind P) (sound : Sound faulty P world)
    (quiet : world.disk.Quiet)
    (there : faulty ∨ world.disk.names.segments.contains front.firstBatch = true)
    (removed : ∀ shot, world.disk.Resolves shot →
      P (shot.withSegments (world.disk.names.segments.erase front.firstBatch))) :
    Keeps faulty P (journal.retireFront front) world
      (fun after disk => after = journal.retired ∧
        world.disk.names.segments.contains front.firstBatch = true ∧
        disk = { world.disk with
          names := world.disk.names.retire journal front.firstBatch
          synced := world.disk.names.retire journal front.firstBatch })
      fun _ _ => True := by
  have changed : Safe P { world.disk with
      names := world.disk.names.retire journal front.firstBatch } := by
    refine .renameSegment blind sound.safe quiet front.firstBatch (Names.retire_metaFile _ _)
      ?_ (retire_backed sound.safe.numbered.names _) ?_
    · intro other apart
      rw [Names.retire_segments, Std.ExtTreeMap.getElem?_erase,
        if_neg (by simpa using Ne.symm apart)]
    · intro shot resolved
      rw [Names.retire_segments]
      exact removed shot resolved
  unfold Journal.retireFront
  cases spare : journal.spare with
  | _ =>
    simp only [Names.retire, spare] at changed ⊢
    refine .mapError ((keeps_alterNames_maybe sound there changed).bind ?_)
    rintro _ _ fates renameSound ⟨found, rfl⟩
    refine (keeps_syncDir renameSound fun _ _ => trivial).bind ?_
    rintro _ _ fates syncSound rfl
    refine .pure syncSound ⟨?_, found, rfl⟩
    simp [Journal.retired, Journal.nextSpareName, spare]

/-- No more than the active segment may hold nothing live at the front. -/
def Journal.Trimmed (journal : Journal) : Prop :=
  ∀ front next rest, journal.segments = front :: next :: rest → front.live ≠ 0

theorem keeps_removeDead (Inv : Journal → Disk → Prop)
    (retires : ∀ journal disk fates front next rest, Sound faulty P ⟨disk, fates⟩ →
      Inv journal disk → journal.segments = front :: next :: rest → front.live = 0 →
      Keeps faulty P (journal.retireFront front) ⟨disk, fates⟩
        (fun after disk => Inv { after with segments := next :: rest } disk) fun _ _ => True) :
    ∀ (steps : Nat) (journal : Journal) (removed : Nat) (world : World),
      Sound faulty P world → Inv journal world.disk → journal.segments.length ≤ steps →
      Keeps faulty P (Journal.removeDead steps journal removed) world
        (fun result disk => Inv result.1 disk ∧ result.1.Trimmed) fun _ _ => True := by
  intro steps
  induction steps with
  | zero =>
    intro journal removed world sound holds enough
    refine .pure sound ⟨holds, fun front next rest shape => ?_⟩
    rw [shape] at enough
    simp at enough
  | succ steps ih =>
    intro journal removed world sound holds enough
    unfold Journal.removeDead
    split
    next front next rest shape =>
      by_cases dead : front.live = 0
      · rw [if_pos dead]
        refine (retires journal world.disk world.fates front next rest sound holds shape
          dead).bind ?_
        intro after disk fates retireSound holdsAfter
        refine ih _ _ _ retireSound holdsAfter ?_
        rw [shape] at enough
        simpa using enough
      · rw [if_neg dead]
        refine .pure sound ⟨holds, fun first second others same => ?_⟩
        rw [shape] at same
        cases same
        exact dead
    next other =>
      refine .pure sound ⟨holds, fun front next rest shape => ?_⟩
      exact absurd shape (other front next rest)

end Retire

end Moonpool.Journal
