import Mathlib.Data.List.MinMax
import Mathlib.Data.List.Nodup
import Mathlib.Data.Prod.Lex

/-!
Owns the discoveries of one run of the explorer: the bounded journal that coalesces them by state
and gives up its weakest entry, and the anchor that is chosen from it.
-/

namespace Moonpool.Explorer

open List

inductive DiscoveryKind where
  | sometimesPass | watermarkImprovement | frontierAdvance | bucketFirst | bucketQuality
  | booleanCombination
deriving DecidableEq

structure DiscoveryEvent where
  callCount : Nat
  kind : DiscoveryKind
  stateId : Nat
deriving DecidableEq

def maxJournalEntries : Nat := 256

namespace DiscoveryEvent

variable (event : DiscoveryEvent)

def isProgress : Bool :=
  event.kind matches .watermarkImprovement | .frontierAdvance | .bucketQuality

def guidancePriority : Nat :=
  if event.isProgress then 2
  else if event.kind matches .bucketFirst | .booleanCombination then 1 else 0

def retentionKey : ℕ ×ₗ ℕ := toLex (event.guidancePriority, event.callCount)

end DiscoveryEvent

def record (journal : List DiscoveryEvent) (event : DiscoveryEvent) : List DiscoveryEvent :=
  match journal.find? (·.stateId = event.stateId) with
  | some existing =>
    if existing.retentionKey < event.retentionKey then journal.replace existing event else journal
  | none =>
    if journal.length < maxJournalEntries then journal ++ [event]
    else match journal.argmin DiscoveryEvent.retentionKey with
      | none => journal
      | some weakest =>
        if weakest.retentionKey < event.retentionKey then journal.replace weakest event else journal

/-- The journal holds the best event of each of its states, and the states it does not hold were
never better than any of them. -/
structure Keeps (events journal : List DiscoveryEvent) : Prop where
  bounded : journal.length ≤ maxJournalEntries
  states : (journal.map (·.stateId)).Nodup
  recorded : ∀ entry ∈ journal, entry ∈ events
  best : ∀ entry ∈ journal, ∀ event ∈ events, event.stateId = entry.stateId →
    event.retentionKey ≤ entry.retentionKey
  others : ∀ event ∈ events, (∀ entry ∈ journal, entry.stateId ≠ event.stateId) →
    journal.length = maxJournalEntries ∧ ∀ entry ∈ journal, event.retentionKey ≤ entry.retentionKey

theorem replace_eq {entry : DiscoveryEvent} {journal : List DiscoveryEvent}
    (member : entry ∈ journal) (event : DiscoveryEvent) :
    ∃ before after, journal = before ++ entry :: after ∧
      journal.replace entry event = before ++ event :: after := by
  induction journal with
  | nil => cases member
  | cons head rest ih =>
    by_cases same : entry = head
    · exact ⟨[], rest, by simp [same], by simp [same]⟩
    · obtain ⟨before, after, split, replaced⟩ := ih ((mem_cons.mp member).resolve_left same)
      refine ⟨head :: before, after, by rw [split, cons_append], ?_⟩
      rw [replace_cons, beq_false_of_ne same, replaced]
      rfl

variable {events journal : List DiscoveryEvent} {event : DiscoveryEvent}

theorem Keeps.ignore (keeps : Keeps events journal)
    (worse : (∃ entry ∈ journal, entry.stateId = event.stateId ∧
        event.retentionKey ≤ entry.retentionKey) ∨
      journal.length = maxJournalEntries ∧
        ∀ entry ∈ journal, event.retentionKey ≤ entry.retentionKey) :
    Keeps (events ++ [event]) journal := by
  have ⟨bounded, states, recorded, best, others⟩ := keeps
  refine ⟨bounded, states, ?_, ?_, ?_⟩ <;> grind

theorem Keeps.replace (keeps : Keeps events journal) {entry : DiscoveryEvent}
    (member : entry ∈ journal) (better : entry.retentionKey < event.retentionKey)
    (gives : entry.stateId = event.stateId ∨
      (∀ other ∈ journal, other.stateId ≠ event.stateId) ∧
      journal.length = maxJournalEntries ∧
        ∀ other ∈ journal, entry.retentionKey ≤ other.retentionKey) :
    Keeps (events ++ [event]) (journal.replace entry event) := by
  obtain ⟨before, after, rfl, replaced⟩ := replace_eq member event
  have ⟨bounded, states, recorded, best, others⟩ := keeps
  refine ⟨?_, ?_, ?_, ?_, ?_⟩ <;> grind

theorem Keeps.record (keeps : Keeps events journal) (event : DiscoveryEvent) :
    Keeps (events ++ [event]) (record journal event) := by
  unfold Explorer.record
  split
  next existing found =>
    have member := mem_of_find?_eq_some found
    have same := find?_some found
    split
    next better => exact keeps.replace member better (.inl (by simpa using same))
    next worse => exact keeps.ignore (.inl ⟨existing, member, by simpa using same, not_lt.mp worse⟩)
  next absent =>
    have differs : ∀ entry ∈ journal, entry.stateId ≠ event.stateId := by
      simpa [find?_eq_none] using absent
    split
    next room =>
      have ⟨bounded, states, recorded, best, others⟩ := keeps
      refine ⟨?_, ?_, ?_, ?_, ?_⟩ <;> grind
    next full =>
      have full := keeps.bounded.antisymm (not_lt.mp full)
      split
      next none =>
        rw [argmin_eq_none.mp none] at full
        cases full
      next weakest least =>
        have member := argmin_mem least
        have least (other) (held : other ∈ journal) := le_of_mem_argmin held least
        split
        next better => exact keeps.replace member better (.inr ⟨differs, full, least⟩)
        next worse =>
          refine keeps.ignore (.inr ⟨full, fun entry held => ?_⟩)
          exact (not_lt.mp worse).trans (least entry held)

end Moonpool.Explorer
