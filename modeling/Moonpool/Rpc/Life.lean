import Mathlib.Algebra.Order.Ring.Nat

/-!
Owns the life of one call, abstractly: when its frame may be queued and written, what its
end may claim, and what every life so far proves.

A call is pending with at most one frame alive, queued or in a writer's hand.  It ends
once.  Its end may claim that it was not admitted if no attempt was written and no frame is
left, or if the server itself rejected the current attempt and no earlier one was written.
-/

namespace Moonpool.Rpc

open List

inductive Moment where
  | started (retained : Bool)
  | queued
  | written
  /-- The call ended: `unadmitted` claims that no handler saw it, `rejected` that the server said
  so. -/
  | ended (unadmitted rejected : Bool)
deriving DecidableEq

inductive CallState where
  | unborn
  | pending (transmitted earlier retained live : Bool)
  | past (live : Bool)
deriving DecidableEq

inductive Life : CallState → List Moment → CallState → Prop where
  | skip : Life .unborn [] (.past false)
  | start (retained : Bool) :
      Life .unborn [.started retained, .queued] (.pending false false retained true)
  | startHere (retained : Bool) : Life .unborn [.started retained] (.pending true false false false)
  | lose {transmitted earlier retained : Bool} :
      Life (.pending transmitted earlier retained true) []
        (.pending transmitted earlier retained false)
  | loseOver : Life (.past true) [] (.past false)
  | write {transmitted earlier retained : Bool} :
      Life (.pending transmitted earlier retained true) [.written]
        (.pending true earlier retained false)
  /-- A frame whose call is over may still leave. -/
  | writeOver : Life (.past true) [.written] (.past false)
  /-- The connection ended: a retained call waits for its next attempt. -/
  | wait {transmitted earlier : Bool} :
      Life (.pending transmitted earlier true false) []
        (.pending false (earlier || transmitted) true false)
  | requeue {earlier : Bool} :
      Life (.pending false earlier true false) [.queued] (.pending false earlier true true)
  | finish {transmitted earlier retained live unadmitted rejected : Bool}
      (unsent : unadmitted = true → rejected = false →
        transmitted = false ∧ earlier = false ∧ live = false)
      (first : unadmitted = true → rejected = true → earlier = false) :
      Life (.pending transmitted earlier retained live) [.ended unadmitted rejected] (.past live)

inductive Lives : CallState → List Moment → CallState → Prop where
  | rest (state : CallState) : Lives state [] state
  | next {first second third : CallState} {before after : List Moment} :
      Lives first before second → Life second after third → Lives first (before ++ after) third

variable {first second : CallState} {moments : List Moment}

theorem Life.lives (life : Life first moments second) : Lives first moments second :=
  .next (.rest first) life

variable {before after : List Moment}

theorem Lives.trans {third : CallState} (earlier : Lives first before second)
    (later : Lives second after third) : Lives first (before ++ after) third := by
  induction later with
  | rest => rwa [append_nil]
  | next _ life ih =>
    rw [← append_assoc]
    exact .next ih life

namespace Moment

def isQueued : Moment → Bool
  | queued => true
  | _ => false

def isWritten : Moment → Bool
  | written => true
  | _ => false

def isEnded : Moment → Bool
  | ended _ _ => true
  | _ => false

end Moment

/-- A frame was written and another attempt was queued after it. -/
def Overtaken (moments : List Moment) : Prop :=
  ∃ before after, moments = before ++ after ∧ Moment.written ∈ before ∧ Moment.queued ∈ after

theorem overtaken_append (overtaken : Overtaken (before ++ after)) :
    Overtaken before ∨ (Moment.written ∈ before ∧ Moment.queued ∈ after) ∨ Overtaken after := by
  obtain ⟨first, second, split, wrote, requeued⟩ := overtaken
  rcases append_eq_append_iff.mp split with ⟨middle, rfl, rfl⟩ | ⟨middle, rfl, rfl⟩
  · rcases mem_append.mp wrote with early | late
    · exact .inr (.inl ⟨early, mem_append_right _ requeued⟩)
    · exact .inr (.inr ⟨middle, second, rfl, late, requeued⟩)
  · rcases mem_append.mp requeued with early | late
    · exact .inl ⟨first, middle, rfl, wrote, early⟩
    · exact .inr (.inl ⟨mem_append_left _ wrote, late⟩)

theorem not_overtaken_of_not_queued (unqueued : Moment.queued ∉ moments) : ¬ Overtaken moments := by
  rintro ⟨before, after, rfl, -, requeued⟩
  exact unqueued (mem_append_right _ requeued)

/-- What is known of a call whose life was `moments` and whose frame may be alive. -/
structure Accounted (moments : List Moment) (live : Bool) : Prop where
  frames : moments.countP Moment.isWritten + live.toNat ≤ moments.countP Moment.isQueued
  once : Moment.started false ∈ moments → moments.countP Moment.isQueued ≤ 1
  begun : Moment.queued ∈ moments → ∃ retained, Moment.started retained ∈ moments

def Known (moments : List Moment) : CallState → Prop
  | .unborn => moments = []
  | .pending transmitted earlier retained live =>
    Accounted moments live ∧ (∃ kept, Moment.started kept ∈ moments) ∧
      moments.countP Moment.isEnded = 0 ∧
      (Moment.written ∈ moments → transmitted = true ∨ earlier = true) ∧
      (Overtaken moments → earlier = true) ∧
      (Moment.started false ∈ moments → retained = false)
  | .past live =>
    Accounted moments live ∧ moments.countP Moment.isEnded ≤ 1 ∧
      (Moment.ended true false ∈ moments → Moment.written ∉ moments ∧ live = false) ∧
      (Moment.ended true true ∈ moments → ¬ Overtaken moments)

theorem Accounted.append {live next : Bool} (accounted : Accounted before live)
    (frames : after.countP Moment.isWritten + next.toNat ≤
      live.toNat + after.countP Moment.isQueued) (unstarted : Moment.started false ∉ after)
    (once : Moment.started false ∈ before → after.countP Moment.isQueued = 0)
    (begun : Moment.queued ∈ after → ∃ retained, Moment.started retained ∈ before) :
    Accounted (before ++ after) next where
  frames := by
    have earlier := accounted.frames
    rw [countP_append, countP_append]
    omega
  once started := by
    have started := (mem_append.mp started).resolve_right unstarted
    rw [countP_append, once started]
    exact accounted.once started
  begun queued := by
    have started := (mem_append.mp queued).elim accounted.begun begun
    obtain ⟨retained, started⟩ := started
    exact ⟨retained, mem_append_left _ started⟩

theorem overtaken_of_append_unqueued (unqueued : Moment.queued ∉ after)
    (overtaken : Overtaken (before ++ after)) : Overtaken before := by
  rcases overtaken_append overtaken with early | ⟨-, requeued⟩ | late
  · exact early
  · exact absurd requeued unqueued
  · exact absurd late (not_overtaken_of_not_queued unqueued)

theorem known_of_life (known : Known before first) (life : Life first after second) :
    Known (before ++ after) second := by
  cases life with
  | skip =>
    cases known
    refine ⟨⟨by decide, fun started => ?_, fun queued => ?_⟩, by decide, fun ended => ?_,
      fun ended => ?_⟩
    all_goals cases not_mem_nil ‹_›
  | start retained =>
    cases known
    have started : Moment.started retained ∈ [] ++ [Moment.started retained, .queued] := by simp
    refine ⟨⟨le_refl 1, fun _ => le_refl 1, fun _ => ⟨_, started⟩⟩, ⟨_, started⟩, rfl,
      by simp, ?_, by simp⟩
    rintro ⟨first, second, split, wrote, -⟩
    have wrote : Moment.written ∈ [Moment.started retained, .queued] := by
      rw [nil_append] at split
      exact split ▸ mem_append_left _ wrote
    simp at wrote
  | startHere retained =>
    cases known
    have started : Moment.started retained ∈ [] ++ [Moment.started retained] := by simp
    refine ⟨⟨Nat.le_refl 0, fun _ => Nat.zero_le 1, fun _ => ⟨_, started⟩⟩, ⟨_, started⟩, rfl,
      by simp, ?_, by simp⟩
    intro overtaken
    exact absurd overtaken (not_overtaken_of_not_queued (by simp))
  | lose =>
    obtain ⟨accounted, ⟨kept, begun⟩, unended, wrote, overtook, retained⟩ := known
    rw [append_nil]
    exact ⟨⟨Nat.le_of_succ_le accounted.frames, accounted.once, accounted.begun⟩, ⟨kept, begun⟩,
      unended, wrote, overtook, retained⟩
  | loseOver =>
    obtain ⟨accounted, ended, unsent, first⟩ := known
    rw [append_nil]
    exact ⟨⟨Nat.le_of_succ_le accounted.frames, accounted.once, accounted.begun⟩, ended,
      fun claimed => ⟨(unsent claimed).1, rfl⟩, first⟩
  | write =>
    obtain ⟨accounted, ⟨kept, begun⟩, unended, wrote, overtook, retained⟩ := known
    refine ⟨accounted.append (by decide) (by simp) (fun _ => by decide) (by simp),
      ⟨kept, mem_append_left _ begun⟩, ?_, fun _ => .inl rfl,
      fun overtaken => overtook (overtaken_of_append_unqueued (by simp) overtaken), ?_⟩
    · rw [countP_append, unended]
      decide
    · intro started
      exact retained (by simpa using started)
  | writeOver =>
    obtain ⟨accounted, ended, unsent, first⟩ := known
    refine ⟨accounted.append (by decide) (by simp) (fun _ => by decide) (by simp), ?_, ?_, ?_⟩
    · rw [countP_append]
      exact ended
    · intro claimed
      have claimed : Moment.ended true false ∈ before := by simpa using claimed
      cases (unsent claimed).2
    · intro claimed overtaken
      have claimed : Moment.ended true true ∈ before := by simpa using claimed
      exact first claimed (overtaken_of_append_unqueued (by simp) overtaken)
  | wait =>
    obtain ⟨accounted, ⟨kept, begun⟩, unended, wrote, overtook, retained⟩ := known
    rw [append_nil]
    refine ⟨accounted, ⟨kept, begun⟩, unended, fun written => .inr ?_, fun overtaken => ?_,
      retained⟩
    · rcases wrote written with now | earlier
      · rw [now, Bool.or_true]
      · rw [earlier, Bool.true_or]
    · rw [overtook overtaken, Bool.true_or]
  | requeue =>
    obtain ⟨accounted, ⟨kept, begun⟩, unended, wrote, overtook, retained⟩ := known
    have resumed : Moment.started false ∉ before := fun started => by cases retained started
    refine ⟨accounted.append (by decide) (by simp) (fun started => absurd started resumed)
      (fun _ => ⟨kept, begun⟩), ⟨kept, mem_append_left _ begun⟩, ?_, ?_, ?_, ?_⟩
    · rw [countP_append, unended]
      decide
    · intro written
      exact wrote (by simpa using written)
    · intro overtaken
      rcases overtaken_append overtaken with early | ⟨written, -⟩ | late
      · exact overtook early
      · exact (wrote written).resolve_left (by simp)
      · obtain ⟨first, second, split, written, -⟩ := late
        have written : Moment.written ∈ [Moment.queued] := split ▸ mem_append_left _ written
        simp at written
    · intro started
      exact absurd (by simpa using started) resumed
  | @finish transmitted earlier retained live unadmitted rejected unsent first =>
    obtain ⟨accounted, ⟨kept, begun⟩, unended, wrote, overtook, retained⟩ := known
    have quiet : ∀ claim rejection, Moment.ended claim rejection ∉ before := by
      intro claim rejection member
      have positive := countP_pos_iff.mpr ⟨_, member, (rfl : Moment.isEnded _ = true)⟩
      omega
    refine ⟨accounted.append (by simp [Moment.isWritten, Moment.isQueued]) (by simp)
      (fun _ => by simp [Moment.isQueued]) (by simp), ?_, ?_, ?_⟩
    · rw [countP_append, unended]
      exact le_refl 1
    · intro claimed
      have claimed := (mem_append.mp claimed).resolve_left (quiet _ _)
      cases mem_singleton.mp claimed
      obtain ⟨untransmitted, unearlier, dead⟩ := unsent rfl rfl
      refine ⟨fun written => ?_, dead⟩
      have written : Moment.written ∈ before := by simpa using written
      rcases wrote written with now | then_
      · rw [untransmitted] at now
        cases now
      · rw [unearlier] at then_
        cases then_
    · intro claimed overtaken
      have claimed := (mem_append.mp claimed).resolve_left (quiet _ _)
      cases mem_singleton.mp claimed
      have early := overtook (overtaken_of_append_unqueued (by simp) overtaken)
      rw [first rfl rfl] at early
      cases early

variable {state : CallState}

/-- Whatever a call's life so far, this much is known. -/
theorem known_of_lives (lives : Lives .unborn moments state) : Known moments state := by
  generalize born : CallState.unborn = first at lives
  induction lives with
  | rest =>
    cases born
    rfl
  | next _ life ih =>
    exact known_of_life ih life

theorem lives_over (lives : Lives (.past false) moments state) :
    moments = [] ∧ state = .past false := by
  induction lives with
  | rest => exact ⟨rfl, rfl⟩
  | next _ life ih =>
    obtain ⟨rfl, rfl⟩ := ih
    cases life

theorem pending_or_ended {transmitted earlier retained live : Bool}
    (lives : Lives (.pending transmitted earlier retained live) moments state) :
    (∃ transmitted earlier retained live, state = .pending transmitted earlier retained live) ∨
      ((∃ live, state = .past live) ∧
        ∃ unadmitted rejected, Moment.ended unadmitted rejected ∈ moments) := by
  generalize born : CallState.pending transmitted earlier retained live = first at lives
  induction lives with
  | rest =>
    cases born
    exact .inl ⟨_, _, _, _, rfl⟩
  | next _ life ih =>
    rcases ih with ⟨_, _, _, _, rfl⟩ | ⟨⟨_, rfl⟩, _, _, ended⟩
    · cases life with
      | finish unsent first =>
        exact .inr ⟨⟨_, rfl⟩, _, _, mem_append_right _ (mem_singleton.mpr rfl)⟩
      | _ => exact .inl ⟨_, _, _, _, rfl⟩
    · cases life with
      | _ => exact .inr ⟨⟨_, rfl⟩, _, _, mem_append_left _ ended⟩

end Moonpool.Rpc
