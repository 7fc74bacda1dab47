import Mathlib.Algebra.Order.Ring.Nat

/-!
Owns the replay of a log of operations over a map: each operation sets some keys (to a
value or to nothing) and leaves the others alone, and the last one to set a key decides.

The one fact a log that drops its oldest part rests on is `replay_drop`: a part whose
every value is set again later adds nothing to the replay.
-/

namespace Moonpool.Lib

universe u v w

variable {ω : Type u} {κ : Type v} {ν : Type w}

/-- What the last operation to set `key` set it to; `none` when no operation does. -/
def lastEffect (effect : ω → κ → Option (Option ν)) : List ω → κ → Option (Option ν)
  | [], _ => none
  | op :: rest, key => (lastEffect effect rest key).or (effect op key)

/-- What a log leaves at `key`, starting from nothing. -/
def replay (effect : ω → κ → Option (Option ν)) (ops : List ω) (key : κ) : Option ν :=
  (lastEffect effect ops key).getD none

variable {effect : ω → κ → Option (Option ν)} {older newer ops : List ω} {key : κ} {value : ν}

theorem lastEffect_append :
    lastEffect effect (older ++ newer) key =
      (lastEffect effect newer key).or (lastEffect effect older key) := by
  induction older with
  | nil => simp [lastEffect]
  | cons op rest ih =>
    simp [lastEffect, ih, Option.or_assoc]

theorem replay_append :
    replay effect (older ++ newer) key =
      (lastEffect effect newer key).getD (replay effect older key) := by
  unfold replay
  rw [lastEffect_append]
  cases lastEffect effect newer key <;> simp

theorem exists_of_lastEffect (left : lastEffect effect ops key = some (some value)) :
    ∃ op ∈ ops, effect op key = some (some value) := by
  induction ops with
  | nil => cases left
  | cons op rest ih =>
    rw [lastEffect, Option.or_eq_some_iff] at left
    rcases left with later | ⟨-, here⟩
    · obtain ⟨found, member, sets⟩ := ih later
      exact ⟨found, List.mem_cons_of_mem _ member, sets⟩
    · exact ⟨op, List.mem_cons_self, here⟩

theorem replay_drop
    (dead : ∀ value, replay effect (older ++ newer) key = some value →
      ∀ op ∈ older, effect op key ≠ some (some value)) :
    replay effect (older ++ newer) key = replay effect newer key := by
  rw [replay_append]
  unfold replay
  cases later : lastEffect effect newer key with
  | some set => rfl
  | none =>
    cases earlier : lastEffect effect older key with
    | none => rfl
    | some set =>
      cases set with
      | none => rfl
      | some value =>
        have left : replay effect (older ++ newer) key = some value := by
          simp [replay, lastEffect_append, later, earlier]
        obtain ⟨op, member, sets⟩ := exists_of_lastEffect earlier
        exact absurd sets (dead value left op member)

end Moonpool.Lib
