import Mathlib.Algebra.Order.Ring.Nat
import Mathlib.Data.Finset.Card
import Mathlib.Data.List.Sort
import Mathlib.Data.List.TakeWhile
import Mathlib.Data.Prod.Lex

/-!
Owns the event scheduler: logical time, the order of delayed items and their cancellation.

A cancelled item stays in the heap as a tombstone.  `Queue` is the scheduler without tombstones: a
list sorted by time and id from which a cancelled item is gone at once.  The heap is a library
type, known by what it holds and what it pops, so it is the list of its items in that order.
-/

open List

namespace Moonpool.Sim.Events

structure Scheduled (E : Type) where
  time : Nat
  value : E
  id : Nat

variable {E : Type}

/-- What `Scheduled::cmp` compares, the other way round: the heap pops its greatest item. -/
def Scheduled.key (item : Scheduled E) : Nat ×ₗ Nat := toLex (item.time, item.id)

inductive ScheduleError where
  | timeOverflow
  | sequenceOverflow

/-- `u64::MAX` seconds and `999_999_999` nanoseconds. -/
def maxDuration : Nat := 2 ^ 64 * 1000000000 - 1

def compactSlack : Nat := 64

abbrev Scheduled.Due (one other : Scheduled E) : Prop := one.key ≤ other.key

def push (item : Scheduled E) (heap : List (Scheduled E)) : List (Scheduled E) :=
  heap.orderedInsert Scheduled.Due item

structure Scheduler (E : Type) where
  now : Nat := 0
  nextSequence : Nat := 0
  heap : List (Scheduled E) := []
  live : Finset Nat := ∅

inductive Op (E : Type) where
  | scheduleAt (time : Nat) (value : E)
  | scheduleAfter (delay : Nat) (value : E)
  | cancel (id : Nat)
  | pop

inductive Answer (E : Type) where
  | scheduled (result : Except ScheduleError Nat)
  | cancelled (done : Bool)
  | popped (item : Option (Scheduled E))

namespace Scheduler

variable (scheduler : Scheduler E)

def scheduleAt (time : Nat) (value : E) : Answer E × Scheduler E :=
  if 2 ^ 64 - 1 ≤ scheduler.nextSequence then (.scheduled (.error .sequenceOverflow), scheduler)
  else (.scheduled (.ok scheduler.nextSequence), { scheduler with
    nextSequence := scheduler.nextSequence + 1
    live := insert scheduler.nextSequence scheduler.live
    heap := push ⟨max time scheduler.now, value, scheduler.nextSequence⟩ scheduler.heap })

def cancel (id : Nat) : Answer E × Scheduler E :=
  if id ∈ scheduler.live then
    let live := scheduler.live.erase id
    (.cancelled true, { scheduler with
      live
      heap := if 2 * live.card + compactSlack < scheduler.heap.length then
        scheduler.heap.filter (·.id ∈ live) else scheduler.heap })
  else (.cancelled false, scheduler)

/-- The loop of `pop` drops tombstones up to the first live item. -/
def pop : Answer E × Scheduler E :=
  match scheduler.heap.dropWhile (·.id ∉ scheduler.live) with
  | [] => (.popped none, { scheduler with heap := [] })
  | item :: heap => (.popped (some item),
      { scheduler with now := item.time, heap, live := scheduler.live.erase item.id })

def len : Nat := scheduler.live.card

def isEmpty : Bool := scheduler.live = ∅

def iter : List (Scheduled E) := scheduler.heap.filter (·.id ∈ scheduler.live)

def act : Op E → Answer E × Scheduler E
  | .scheduleAt time value => scheduler.scheduleAt time value
  | .scheduleAfter delay value =>
    if maxDuration < scheduler.now + delay then (.scheduled (.error .timeOverflow), scheduler)
    else scheduler.scheduleAt (scheduler.now + delay) value
  | .cancel id => scheduler.cancel id
  | .pop => scheduler.pop

end Scheduler

structure Queue (E : Type) where
  now : Nat := 0
  nextSequence : Nat := 0
  items : List (Scheduled E) := []

namespace Queue

variable (queue : Queue E)

def scheduleAt (time : Nat) (value : E) : Answer E × Queue E :=
  if 2 ^ 64 - 1 ≤ queue.nextSequence then (.scheduled (.error .sequenceOverflow), queue)
  else (.scheduled (.ok queue.nextSequence), { queue with
    nextSequence := queue.nextSequence + 1
    items := push ⟨max time queue.now, value, queue.nextSequence⟩ queue.items })

def act : Op E → Answer E × Queue E
  | .scheduleAt time value => queue.scheduleAt time value
  | .scheduleAfter delay value =>
    if maxDuration < queue.now + delay then (.scheduled (.error .timeOverflow), queue)
    else queue.scheduleAt (queue.now + delay) value
  | .cancel id => (.cancelled (queue.items.any (·.id = id)),
      { queue with items := queue.items.filter (·.id ≠ id) })
  | .pop => (.popped queue.items.head?,
      { queue with
        now := (queue.items.head?.map (·.time)).getD queue.now
        items := queue.items.tail })

end Queue

def run (ops : List (Op E)) : Scheduler E × Queue E :=
  ops.foldl (fun both op => ((both.1.act op).2, (both.2.act op).2)) ({}, {})

namespace Scheduler

variable {scheduler : Scheduler E}

def queue (scheduler : Scheduler E) : Queue E :=
  ⟨scheduler.now, scheduler.nextSequence, scheduler.iter⟩

structure Ordered (items : List (Scheduled E)) : Prop where
  sorted : items.Pairwise Scheduled.Due
  ids : (items.map (·.id)).Nodup

structure Sound (scheduler : Scheduler E) : Prop extends Ordered scheduler.heap where
  fresh : ∀ item ∈ scheduler.heap, item.id < scheduler.nextSequence
  future : ∀ item ∈ scheduler.heap, scheduler.now ≤ item.time
  live : ∀ id ∈ scheduler.live, ∃ item ∈ scheduler.heap, item.id = id

instance : IsTrans (Scheduled E) Scheduled.Due := ⟨fun _ _ _ => le_trans⟩

instance : Std.Total (Scheduled.Due (E := E)) := ⟨fun _ _ => le_total _ _⟩

section

variable {items others : List (Scheduled E)} {item : Scheduled E}

theorem perm_push : (push item items).Perm (item :: items) := perm_orderedInsert ..

variable (ordered : Ordered items)

include ordered

theorem Ordered.strict : items.Pairwise (·.key < ·.key) :=
  (ordered.sorted.and (pairwise_map.mp ordered.ids)).imp fun both =>
    lt_of_le_of_ne both.1 fun same => both.2 (congrArg Prod.snd same)

theorem Ordered.sublist (sub : others.Sublist items) : Ordered others :=
  ⟨ordered.sorted.sublist sub, ordered.ids.sublist (sub.map _)⟩

theorem Ordered.push (fresh : ∀ old ∈ items, old.id ≠ item.id) :
    Ordered (push item items) := by
  refine ⟨ordered.sorted.orderedInsert item _, ?_⟩
  rw [(perm_push.map _).nodup_iff, map_cons, nodup_cons]
  refine ⟨fun member => ?_, ordered.ids⟩
  obtain ⟨old, there, same⟩ := mem_map.mp member
  exact fresh old there same

theorem Ordered.eq_of_perm (other : Ordered others) (perm : items.Perm others) : items = others :=
  perm.eq_of_pairwise (fun _ _ _ _ less greater => absurd less greater.asymm) ordered.strict
    other.strict

end

section

variable (sound : scheduler.Sound)

include sound

theorem Sound.len_eq : scheduler.len = scheduler.iter.length := by
  have same : scheduler.live = (scheduler.iter.map (·.id)).toFinset := by
    ext id
    simp only [iter, mem_toFinset, mem_map, mem_filter, decide_eq_true_eq]
    constructor
    · intro there
      obtain ⟨item, member, rfl⟩ := sound.live id there
      exact ⟨item, ⟨member, there⟩, rfl⟩
    · rintro ⟨item, ⟨-, there⟩, rfl⟩
      exact there
  rw [len, same, toFinset_card_of_nodup, length_map]
  exact (sound.toOrdered.sublist filter_sublist).ids

theorem Sound.scheduleAt (time : Nat) (value : E) :
    scheduler.queue.scheduleAt time value =
      ((scheduler.scheduleAt time value).1, (scheduler.scheduleAt time value).2.queue) ∧
    (scheduler.scheduleAt time value).2.Sound := by
  unfold Scheduler.scheduleAt Queue.scheduleAt
  change (if 2 ^ 64 - 1 ≤ scheduler.nextSequence then _ else _) = _ ∧ _
  split
  · exact ⟨rfl, sound⟩
  let item : Scheduled E := ⟨max time scheduler.now, value, scheduler.nextSequence⟩
  have fresh : ∀ old ∈ scheduler.heap, old.id ≠ item.id :=
    fun old member => (sound.fresh old member).ne
  have ordered := sound.toOrdered.push fresh
  have origin : ∀ {old}, old ∈ push item scheduler.heap → old = item ∨ old ∈ scheduler.heap :=
    fun member => mem_cons.mp (perm_push.mem_iff.mp member)
  refine ⟨?_, ordered, fun old member => ?_, fun old member => ?_, fun id member => ?_⟩
  · congr 2
    refine (Ordered.push (sound.toOrdered.sublist filter_sublist) fun old member =>
      fresh old (mem_of_mem_filter member)).eq_of_perm (ordered.sublist filter_sublist) ?_
    refine perm_push.trans (.trans ?_ (perm_push.filter _).symm)
    rw [filter_cons_of_pos (by simp)]
    refine .cons _ (.of_eq (filter_congr fun old member => ?_))
    have differs : old.id ≠ scheduler.nextSequence := fresh old member
    simp [differs]
  · rcases origin member with rfl | there
    · exact Nat.lt_succ_self _
    · exact Nat.lt_succ_of_lt (sound.fresh old there)
  · rcases origin member with rfl | there
    · exact le_max_right _ _
    · exact sound.future old there
  · rcases Finset.mem_insert.mp member with rfl | there
    · exact ⟨item, perm_push.mem_iff.mpr (.head _), rfl⟩
    · obtain ⟨old, inside, same⟩ := sound.live id there
      exact ⟨old, perm_push.mem_iff.mpr (.tail _ inside), same⟩

theorem Sound.sublist {heap : List (Scheduled E)} {live : Finset Nat} {now : Nat}
    (sub : heap.Sublist scheduler.heap) (future : ∀ item ∈ heap, now ≤ item.time)
    (less : live ⊆ scheduler.live)
    (left : ∀ item ∈ scheduler.heap, item.id ∈ live → item ∈ heap) :
    Sound { scheduler with heap, live, now } := by
  refine ⟨sound.toOrdered.sublist sub, fun item member => sound.fresh item (sub.mem member),
    future, fun id there => ?_⟩
  obtain ⟨item, member, rfl⟩ := sound.live id (less there)
  exact ⟨item, left item member there, rfl⟩

theorem Sound.cancel (id : Nat) :
    scheduler.queue.act (.cancel id) =
      ((scheduler.cancel id).1, (scheduler.cancel id).2.queue) ∧ (scheduler.cancel id).2.Sound ∧
    ((scheduler.cancel id).1 = .cancelled true → (scheduler.cancel id).2.heap.length ≤
      2 * (scheduler.cancel id).2.len + compactSlack) := by
  have listed : (scheduler.iter.any (·.id = id)) = decide (id ∈ scheduler.live) := by
    rw [Bool.eq_iff_iff, any_eq_true, decide_eq_true_iff]
    constructor
    · rintro ⟨item, member, same⟩
      simpa [of_decide_eq_true same] using (mem_filter.mp member).2
    · intro there
      obtain ⟨item, member, rfl⟩ := sound.live id there
      exact ⟨item, mem_filter.mpr ⟨member, by simpa using there⟩, by simp⟩
  have shown : scheduler.iter.filter (·.id ≠ id) =
      scheduler.heap.filter (·.id ∈ scheduler.live.erase id) := by
    rw [iter, filter_filter]
    exact filter_congr fun item _ => by simp
  unfold Scheduler.cancel Queue.act
  dsimp only [queue]
  rw [listed, shown]
  split
  next there =>
    have after : Sound { scheduler with live := scheduler.live.erase id } :=
      sound.sublist (.refl _) sound.future (Finset.erase_subset ..) fun _ member _ => member
    have length := after.len_eq
    rw [decide_eq_true there]
    split
    next =>
      refine ⟨?_, after.sublist filter_sublist (fun item member =>
        sound.future item (mem_of_mem_filter member)) subset_rfl fun item member there =>
          mem_filter.mpr ⟨member, by simpa using there⟩, fun _ => ?_⟩
      · rw [iter, filter_filter]
        simp
      · rw [iter, len] at length
        simp only [len] at length ⊢
        omega
    next small => exact ⟨rfl, after, fun _ => not_lt.mp small⟩
  next gone =>
    refine ⟨?_, sound, nofun⟩
    rw [decide_eq_false gone, Finset.erase_eq_of_notMem gone]
    rfl

theorem Sound.pop :
    scheduler.queue.act .pop = (scheduler.pop.1, scheduler.pop.2.queue) ∧ scheduler.pop.2.Sound ∧
      scheduler.now ≤ scheduler.pop.2.now := by
  cases shown : scheduler.iter with
  | nil =>
    have gone : scheduler.heap.dropWhile (·.id ∉ scheduler.live) = [] := by
      simpa [iter] using shown
    unfold Scheduler.pop Queue.act queue
    rw [gone, shown]
    refine ⟨rfl, sound.sublist (nil_sublist _) nofun subset_rfl fun item member there => ?_,
      le_rfl⟩
    rw [← shown]
    exact mem_filter.mpr ⟨member, by simpa using there⟩
  | cons item rest =>
    obtain ⟨dead, heap, shape, gone, there, kept⟩ := filter_eq_cons_iff.mp shown
    have found : scheduler.heap.dropWhile (·.id ∉ scheduler.live) = item :: heap := by
      rw [shape, dropWhile_append_of_pos (by simpa using gone), dropWhile_cons_of_neg]
      simpa using there
    have suffix : (item :: heap).Sublist scheduler.heap := shape ▸ sublist_append_right ..
    have ordered := sound.toOrdered.sublist suffix
    have apart : ∀ other ∈ heap, other.id ≠ item.id := fun other member same =>
      (nodup_cons.mp ordered.ids).1 (mem_map.mpr ⟨other, member, same⟩)
    have left : heap.filter (·.id ∈ scheduler.live.erase item.id) = rest := by
      rw [← kept]
      exact filter_congr fun other member => by simp [apart other member]
    unfold Scheduler.pop Queue.act queue
    rw [found, shown]
    refine ⟨?_, sound.sublist (.trans (sublist_cons_self ..) suffix) (fun other member => ?_)
      (Finset.erase_subset ..) fun other member live => ?_,
      sound.future item (suffix.mem (.head _))⟩
    · rw [← left]
      rfl
    · exact (Prod.Lex.toLex_le_toLex.mp ((pairwise_cons.mp ordered.sorted).1 other member)).elim
        le_of_lt fun same => same.1.le
    · obtain ⟨differs, live⟩ := Finset.mem_erase.mp live
      have inside : other ∈ item :: rest := shown ▸ mem_filter.mpr ⟨member, by simpa using live⟩
      rcases mem_cons.mp inside with rfl | later
      · exact absurd rfl differs
      · exact mem_of_mem_filter (kept.symm ▸ later)

theorem Sound.act (op : Op E) :
    scheduler.queue.act op = ((scheduler.act op).1, (scheduler.act op).2.queue) ∧
      (scheduler.act op).2.Sound ∧ scheduler.now ≤ (scheduler.act op).2.now := by
  have placed (time : Nat) (value : E) :
      scheduler.now ≤ (scheduler.scheduleAt time value).2.now := by
    unfold Scheduler.scheduleAt
    split <;> exact le_rfl
  cases op with
  | scheduleAt time value =>
    exact ⟨(sound.scheduleAt time value).1, (sound.scheduleAt time value).2, placed time value⟩
  | scheduleAfter delay value =>
    have later := sound.scheduleAt (scheduler.now + delay) value
    unfold Scheduler.act Queue.act queue
    dsimp only
    split
    · exact ⟨rfl, sound, le_rfl⟩
    · exact ⟨later.1, later.2, placed _ value⟩
  | cancel id =>
    refine ⟨(sound.cancel id).1, (sound.cancel id).2.1, ?_⟩
    unfold Scheduler.act Scheduler.cancel
    dsimp only
    split <;> exact le_rfl
  | pop => exact sound.pop

end

theorem sound_run (ops : List (Op E)) :
    (run ops).1.Sound ∧ (run ops).2 = (run ops).1.queue := by
  refine foldlRecOn (motive := fun both : Scheduler E × Queue E =>
    both.1.Sound ∧ both.2 = both.1.queue) ops _ ?_ fun both holds op _ => ?_
  · exact ⟨⟨⟨.nil, .nil⟩, nofun, nofun, nofun⟩, rfl⟩
  · have acted := holds.1.act op
    exact ⟨acted.2.1, by rw [holds.2, acted.1]⟩

/-- The scheduler answers every operation as the sorted queue does and shows its items, time does
not go back, and a successful cancel leaves few tombstones. -/
theorem scheduler_is_sorted_queue (ops : List (Op E)) (op : Op E) :
    let (scheduler, queue) := run ops
    (scheduler.act op).1 = (queue.act op).1 ∧
    scheduler.iter = queue.items ∧ scheduler.len = queue.items.length ∧
    scheduler.isEmpty = queue.items.isEmpty ∧ queue.items.Pairwise (·.key < ·.key) ∧
    (∀ item ∈ queue.items, scheduler.now ≤ item.time) ∧
    scheduler.now ≤ (scheduler.act op).2.now ∧
    ∀ id, (scheduler.cancel id).1 = .cancelled true → (scheduler.cancel id).2.heap.length ≤
      2 * (scheduler.cancel id).2.len + compactSlack := by
  obtain ⟨sound, same⟩ := sound_run ops
  have acted := sound.act op
  have length := sound.len_eq
  dsimp only
  rw [same]
  refine ⟨congrArg Prod.fst acted.1.symm, rfl, length, ?_,
    (sound.toOrdered.sublist filter_sublist).strict,
    fun item member => sound.future item (mem_of_mem_filter member), acted.2.2,
    fun id => (sound.cancel id).2.2⟩
  rw [Bool.eq_iff_iff, isEmpty, decide_eq_true_iff, List.isEmpty_iff, ← Finset.card_eq_zero,
    ← length_eq_zero_iff]
  exact iff_of_eq (congrArg (· = 0) length)

end Scheduler

end Moonpool.Sim.Events
