import Moonpool.Rpc.Wire

/-!
Owns the credit of one stream (`stream/credit.rs`): the producer's reservations and its judgement
of acknowledgements, and the consumer's intake.
-/

namespace Moonpool.Rpc

open List

def checkedAdd (left right : Nat) : Option Nat :=
  if left + right < 2 ^ 64 then some (left + right) else none

inductive Refusal where
  | tooLarge (size limit : Nat)
  | wait
  | overflow
deriving DecidableEq

inductive AckOutcome where
  | advanced
  | duplicate
deriving DecidableEq

inductive AckViolation where
  | regressing (acked got : Nat)
  | excess (sent got : Nat)
  | misaligned (got : Nat)
deriving DecidableEq

structure Credit where
  window : Nat
  sent : Nat
  acked : Nat
  /-- Cumulative `sent` after each item not yet acknowledged, oldest first. -/
  boundaries : List Nat
  nextSequence : Nat
deriving DecidableEq

namespace Credit

variable (credit : Credit)

def new (window : Nat) : Credit := ⟨window, 0, 0, [], 0⟩

def limitWindow (limit : Nat) : Credit := { credit with window := min credit.window limit }

def reserve (size : Nat) : Credit × Except Refusal Nat :=
  if credit.window < size then (credit, .error (.tooLarge size credit.window))
  else
    match checkedAdd credit.sent size, checkedAdd credit.nextSequence 1 with
    | some sent, some next =>
      if credit.window < sent - credit.acked then (credit, .error .wait)
      else
        ({ credit with
            sent, nextSequence := next, boundaries := credit.boundaries ++ [sent] },
          .ok credit.nextSequence)
    | _, _ => (credit, .error .overflow)

/-- A cumulative acknowledgement: the queue is strictly increasing, so one boundary may equal it. -/
def ack (consumed : Nat) : Credit × Except AckViolation AckOutcome :=
  if consumed = credit.acked then (credit, .ok .duplicate)
  else if consumed < credit.acked then (credit, .error (.regressing credit.acked consumed))
  else if credit.sent < consumed then (credit, .error (.excess credit.sent consumed))
  else
    match credit.boundaries.findIdx? (· = consumed) with
    | some index =>
      ({ credit with boundaries := credit.boundaries.drop (index + 1), acked := consumed },
        .ok .advanced)
    | none => (credit, .error (.misaligned consumed))

end Credit

inductive IntakeViolation where
  | gap (expected got : Nat)
  | reordered (expected got : Nat)
  | overflow
  | windowExceeded (buffered window : Nat)
deriving DecidableEq

structure Intake where
  window : Nat
  nextSequence : Nat
  received : Nat
  consumed : Nat
deriving DecidableEq

namespace Intake

variable (intake : Intake)

def new (window : Nat) : Intake := ⟨window, 0, 0, 0⟩

def accept (sequence size : Nat) : Intake × Except IntakeViolation Unit :=
  let expected := intake.nextSequence
  if expected < sequence then (intake, .error (.gap expected sequence))
  else if sequence < expected then (intake, .error (.reordered expected sequence))
  else
    match checkedAdd intake.received size, checkedAdd expected 1 with
    | some received, some next =>
      let buffered := received - intake.consumed
      if intake.window < buffered then
        (intake, .error (.windowExceeded buffered intake.window))
      else ({ intake with received, nextSequence := next }, .ok ())
    | _, _ => (intake, .error .overflow)

/-- The application took `size` bytes; never more than was received. -/
def consume (size : Nat) : Intake :=
  { intake with consumed := min (min (intake.consumed + size) (2 ^ 64 - 1)) intake.received }

end Intake

/-- A producer's runs, with the ends of all items sent; every acknowledgement is possible. -/
inductive Credit.Runs (window : Nat) : Credit → List Nat → Prop where
  | new : Runs window (.new window) []
  | limitWindow {credit : Credit} {ends : List Nat} (limit : Nat) :
      Runs window credit ends → Runs window (credit.limitWindow limit) ends
  | reserve {credit next : Credit} {ends : List Nat} (bodyLen : Nat) {sequence : Nat} :
      Runs window credit ends →
      credit.reserve (streamItemFrameLen bodyLen) = (next, .ok sequence) →
      Runs window next (next.sent :: ends)
  | ack {credit : Credit} {ends : List Nat} (consumed : Nat) :
      Runs window credit ends → Runs window (credit.ack consumed).1 ends

inductive Intake.Runs (window : Nat) : Intake → Prop where
  | new : Runs window (.new window)
  | accept {intake : Intake} (sequence size : Nat) :
      Runs window intake → Runs window (intake.accept sequence size).1
  | consume {intake : Intake} (size : Nat) : Runs window intake → Runs window (intake.consume size)

/-- The counters agree with the queue of boundaries, and with the items sent. -/
structure Credit.Sound (credit : Credit) (ends : List Nat) : Prop where
  behind : credit.acked ≤ credit.sent
  fits : credit.sent < 2 ^ 64 ∧ credit.nextSequence < 2 ^ 64
  sorted : credit.boundaries.Pairwise (· < ·)
  between : ∀ boundary ∈ credit.boundaries, credit.acked < boundary ∧ boundary ≤ credit.sent
  known : ∀ boundary ∈ credit.boundaries, boundary ∈ ends
  acked : credit.acked = 0 ∨ credit.acked ∈ ends

structure Intake.Sound (window : Nat) (intake : Intake) : Prop where
  behind : intake.consumed ≤ intake.received
  fits : intake.received < 2 ^ 64 ∧ intake.nextSequence < 2 ^ 64
  within : intake.received - intake.consumed ≤ intake.window
  announced : intake.window = window

theorem checkedAdd_eq_some {left right sum : Nat} (added : checkedAdd left right = some sum) :
    sum = left + right ∧ sum < 2 ^ 64 := by
  unfold checkedAdd at added
  split at added
  next fits =>
    cases added
    exact ⟨rfl, fits⟩
  · cases added

variable {credit next : Credit} {ends : List Nat} {window : Nat} {intake : Intake}

theorem Credit.Sound.reserve {size sequence : Nat} (sound : credit.Sound ends) (some_ : 0 < size)
    (reserved : credit.reserve size = (next, .ok sequence)) : next.Sound (next.sent :: ends) := by
  unfold Credit.reserve at reserved
  split at reserved
  · cases reserved
  split at reserved
  next sent following added counted =>
    split at reserved
    · cases reserved
    cases reserved
    obtain ⟨rfl, fits⟩ := checkedAdd_eq_some added
    have behind := sound.behind
    refine ⟨Nat.le_add_right_of_le behind, ⟨fits, (checkedAdd_eq_some counted).2⟩, ?_, ?_, ?_,
      sound.acked.imp_right (.tail _)⟩
    · refine pairwise_append.mpr ⟨sound.sorted, pairwise_singleton _ _, ?_⟩
      intro boundary member last equal
      have bound := (sound.between boundary member).2
      rw [mem_singleton.mp equal]
      omega
    · intro boundary member
      rcases mem_append.mp member with old | new
      · exact (sound.between boundary old).imp_right Nat.le_add_right_of_le
      · rw [mem_singleton.mp new]
        exact ⟨by simp only; omega, le_refl _⟩
    · exact forall_mem_append.mpr ⟨fun boundary old => .tail _ (sound.known boundary old),
        forall_mem_singleton.mpr (.head _)⟩
  · cases reserved

theorem Credit.Sound.ack (sound : credit.Sound ends) (consumed : Nat) :
    (credit.ack consumed).1.Sound ends := by
  unfold Credit.ack
  split_ifs with duplicate regresses exceeds
  · exact sound
  · exact sound
  · exact sound
  split
  next index found =>
    obtain ⟨bound, equal, -⟩ := List.findIdx?_eq_some_iff_getElem.mp found
    have here : credit.boundaries[index] = consumed := by simpa using equal
    -- Everything behind the boundary that was found is larger.
    have rest := sound.sorted.sublist (drop_sublist index _)
    rw [drop_eq_getElem_cons bound, here, pairwise_cons] at rest
    have old {boundary : Nat} (member : boundary ∈ credit.boundaries.drop (index + 1)) :=
      mem_of_mem_drop member
    exact ⟨Nat.le_of_not_lt exceeds, sound.fits, rest.2,
      fun boundary member => ⟨rest.1 boundary member, (sound.between boundary (old member)).2⟩,
      fun boundary member => sound.known boundary (old member),
      .inr (sound.known consumed (here ▸ getElem_mem bound))⟩
  · exact sound

theorem Credit.Runs.sound (runs : Runs window credit ends) : credit.Sound ends := by
  induction runs with
  | new =>
    exact ⟨le_refl _, ⟨Nat.two_pow_pos 64, Nat.two_pow_pos 64⟩, .nil, nofun, nofun, .inl rfl⟩
  | limitWindow _ _ ih => exact { ih with }
  | reserve bodyLen _ reserved ih =>
    refine ih.reserve ?_ reserved
    unfold streamItemFrameLen headerLen streamItemEnvelopeLen
    omega
  | ack consumed _ ih => exact ih.ack consumed

theorem Intake.Runs.sound (runs : Runs window intake) : intake.Sound window := by
  induction runs with
  | new =>
    exact ⟨Nat.le_refl _, ⟨Nat.two_pow_pos 64, Nat.two_pow_pos 64⟩, Nat.zero_le _, rfl⟩
  | accept sequence size _ ih =>
    unfold Intake.accept
    dsimp only
    split_ifs
    · exact ih
    · exact ih
    split
    next received following added counted =>
      split_ifs with exceeds
      · exact ih
      · obtain ⟨rfl, fits⟩ := checkedAdd_eq_some added
        exact ⟨Nat.le_add_right_of_le ih.behind, ⟨fits, (checkedAdd_eq_some counted).2⟩,
          Nat.le_of_not_lt exceeds, ih.announced⟩
    · exact ih
  | @consume intake size _ ih =>
    obtain ⟨behind, fits, within, announced⟩ := ih
    exact ⟨min_le_right _ _, fits, by simp only [Intake.consume]; omega, announced⟩

/-- Whatever is acknowledged or sent, a refused value changes nothing, the acknowledged bytes end at
an item that was sent, no counter wraps or passes the one it is subtracted from, and a consumer
holds no more than its window. -/
theorem peers_cannot_corrupt_credit :
    (∀ (window : Nat) (credit : Credit) (ends : List Nat), Credit.Runs window credit ends →
      (∀ consumed violation, (credit.ack consumed).2 = .error violation →
        (credit.ack consumed).1 = credit) ∧
      (∀ size refusal, (credit.reserve size).2 = .error refusal →
        (credit.reserve size).1 = credit) ∧ credit.Sound ends) ∧
    ∀ (window : Nat) (intake : Intake), Intake.Runs window intake →
      (∀ sequence size violation, (intake.accept sequence size).2 = .error violation →
        (intake.accept sequence size).1 = intake) ∧ intake.Sound window := by
  refine ⟨fun window credit ends runs => ⟨fun consumed violation refused => ?_,
    fun size refusal refused => ?_, runs.sound⟩,
    fun window intake runs => ⟨fun sequence size violation refused => ?_, runs.sound⟩⟩
  · unfold Credit.ack at refused ⊢
    grind
  · unfold Credit.reserve at refused ⊢
    grind
  · unfold Intake.accept at refused ⊢
    grind

/-- One item is out; an acknowledgement inside it is refused, and so is an item out of turn. -/
theorem forged_acknowledgement_changes_nothing :
    ((Credit.new 900).reserve (streamItemFrameLen 3)).1.ack 5 =
        (((Credit.new 900).reserve (streamItemFrameLen 3)).1, .error (.misaligned 5)) ∧
      (Intake.new 900).accept 7 1 = (.new 900, .error (.gap 0 7)) := by
  have runs : Credit.Runs 900 ((Credit.new 900).reserve (streamItemFrameLen 3)).1 _ :=
    .reserve 3 .new rfl
  exact ⟨Prod.ext ((peers_cannot_corrupt_credit.1 _ _ _ runs).1 5 (.misaligned 5) (by decide))
      (by decide),
    Prod.ext ((peers_cannot_corrupt_credit.2 _ _ .new).1 7 1 (.gap 0 7) (by decide)) (by decide)⟩

end Moonpool.Rpc
