import Moonpool.Net.Stream

/-!
Owns the abstract model of one direction of a connection: a pipe of bytes with a window, the
moves it can make, and what every sequence of moves keeps.
-/

namespace Moonpool.Net

open InFlightPayload List

/-- One direction: what its writer gave, where the bytes are, and what its reader got. -/
structure Pipe where
  accepted : List UInt8
  queue : List UInt8
  flight : List InFlightPayload
  buffer : List UInt8
  returned : List UInt8
  capacity : Nat
  outstanding : Nat
  swallowed : Nat
  discarded : List UInt8
  finOver : Option (List UInt8)
  sendShut : Bool
  recvShut : Bool
  holed : Bool
  finPending : Bool
  finSeen : Bool

namespace Pipe

def new (capacity : Nat) : Pipe where
  accepted := []
  queue := []
  flight := []
  buffer := []
  returned := []
  capacity
  outstanding := 0
  swallowed := 0
  discarded := []
  finOver := none
  sendShut := false
  recvShut := false
  holed := false
  finPending := false
  finSeen := false

def flightBytes (pipe : Pipe) : List UInt8 := pipe.flight.flatMap bytes

/-- What can happen to one direction; its reader is shut only where `shuts` allows it. -/
inductive Move (faults : Faults) (shuts : Prop) : Pipe → Pipe → Prop where
  | write (pipe : Pipe) (bytes : List UInt8) (writable : pipe.sendShut = false)
      (fits : pipe.outstanding + bytes.length ≤ pipe.capacity) :
      Move faults shuts pipe
        { pipe with
          accepted := pipe.accepted ++ bytes
          queue := pipe.queue ++ bytes
          outstanding := pipe.outstanding + bytes.length }
  | send (pipe : Pipe) (bytes rest : List UInt8) (queued : pipe.queue = bytes ++ rest)
      (mayGo : pipe.sendShut = true → pipe.finPending = true) :
      Move faults shuts pipe { pipe with queue := rest, flight := pipe.flight ++ [.data bytes] }
  | owe (pipe : Pipe) (writable : pipe.sendShut = false) :
      Move faults shuts pipe { pipe with sendShut := true, finPending := true }
  | fin (pipe : Pipe) (pending : pipe.finPending = true) (drained : pipe.queue = []) :
      Move faults shuts pipe
        { pipe with
          flight := pipe.flight ++ [.fin]
          finPending := false
          finOver := some pipe.discarded }
  | arrive (pipe : Pipe) (bytes delivered : List UInt8) (rest : List InFlightPayload)
      (head : pipe.flight = .data bytes :: rest) (whole : pipe.holed = false)
      (reading : pipe.recvShut = false) (same : delivered.length = bytes.length)
      (exact : faults.flips = false → delivered = bytes) :
      Move faults shuts pipe { pipe with flight := rest, buffer := pipe.buffer ++ delivered }
  | refuse (pipe : Pipe) (bytes : List UInt8) (rest : List InFlightPayload)
      (head : pipe.flight = .data bytes :: rest) (shut : pipe.recvShut = true) :
      Move faults shuts pipe
        { pipe with flight := rest, outstanding := pipe.outstanding - bytes.length }
  | swallow (pipe : Pipe) (item : InFlightPayload) (rest : List InFlightPayload)
      (head : pipe.flight = item :: rest) (holed : pipe.holed = true) :
      Move faults shuts pipe { pipe with flight := rest, swallowed := pipe.swallowed + item.len }
  | arriveFin (pipe : Pipe) (rest : List InFlightPayload) (seen : Bool)
      (head : pipe.flight = .fin :: rest) :
      Move faults shuts pipe { pipe with flight := rest, finSeen := pipe.finSeen || seen }
  | read (pipe : Pipe) (bytes rest : List UInt8) (reading : pipe.recvShut = false)
      (head : pipe.buffer = bytes ++ rest) :
      Move faults shuts pipe
        { pipe with
          buffer := rest
          returned := pipe.returned ++ bytes
          outstanding := pipe.outstanding - bytes.length }
  | dropQueue (pipe : Pipe) (shut : pipe.sendShut = true)
      (spared : faults.spoils = false → pipe.finPending = true → pipe.queue = []) :
      Move faults shuts pipe
        { pipe with
          queue := []
          discarded := pipe.discarded ++ pipe.queue
          outstanding := pipe.outstanding - pipe.queue.length }
  | dropFlight (pipe : Pipe) (shut : pipe.sendShut = true) (drained : pipe.queue = []) :
      Move faults shuts pipe
        { pipe with
          flight := []
          discarded := pipe.discarded ++ pipe.flightBytes
          outstanding := pipe.outstanding - pipe.flightBytes.length
          finPending := false }
  | dropBuffer (pipe : Pipe) (shut : pipe.recvShut = true) :
      Move faults shuts pipe
        { pipe with buffer := [], outstanding := pipe.outstanding - pipe.buffer.length }
  | shutSend (pipe : Pipe) : Move faults shuts pipe { pipe with sendShut := true }
  | abandon (pipe : Pipe) : Move faults shuts pipe { pipe with finPending := false }
  | shutRecv (pipe : Pipe) (may : shuts) : Move faults shuts pipe { pipe with recvShut := true }
  | hole (pipe : Pipe) (allowed : faults.holes = true) :
      Move faults shuts pipe { pipe with holed := true }

abbrev Moves (faults : Faults) (shuts : Prop) : Pipe → Pipe → Prop :=
  Relation.ReflTransGen (Move faults shuts)

def Reached (faults : Faults) (pipe : Pipe) : Prop :=
  ∃ capacity, Moves faults True (new capacity) pipe

theorem Move.permit {faults : Faults} {shuts : Prop} {pipe next : Pipe}
    (move : Move faults shuts pipe next) : Move faults True pipe next := by
  cases move with
  | shutRecv => exact .shutRecv _ trivial
  | _ => constructor <;> assumption

theorem Reached.moves {faults : Faults} {shuts : Prop} {pipe next : Pipe}
    (reached : Reached faults pipe) (moves : Moves faults shuts pipe next) : Reached faults next :=
  let ⟨capacity, before⟩ := reached
  ⟨capacity, before.trans (Relation.ReflTransGen.mono (fun _ _ => Move.permit) _ _ moves)⟩

theorem Reached.invariant {faults : Faults} {property : Pipe → Prop} {pipe : Pipe}
    (reached : Reached faults pipe) (first : ∀ capacity, property (new capacity))
    (kept : ∀ {pipe next}, property pipe → Move faults True pipe next → property next) :
    property pipe := by
  obtain ⟨capacity, moves⟩ := reached
  induction moves with
  | refl => exact first capacity
  | tail _ move ih => exact kept ih move

variable {faults : Faults} {shuts : Prop} {pipe next : Pipe}

def landed (pipe : Pipe) : List UInt8 := pipe.returned ++ pipe.buffer

theorem Move.landed (move : Move faults False pipe next) (reading : pipe.recvShut = false) :
    next.recvShut = false ∧ pipe.landed <+: next.landed := by
  cases move with
  | arrive bytes delivered rest =>
    refine ⟨reading, ?_⟩
    rw [Pipe.landed, Pipe.landed, ← append_assoc]
    exact prefix_append _ _
  | read bytes rest _ head =>
    refine ⟨reading, ?_⟩
    simp [Pipe.landed, head]
  | dropBuffer shut => cases shut.symm.trans reading
  | shutRecv may => exact may.elim
  | _ => exact ⟨reading, prefix_rfl⟩

/-- Until its reader is shut, what has landed in a pipe stays read or readable. -/
theorem Moves.landed (moves : Moves faults False pipe next) (reading : pipe.recvShut = false) :
    next.recvShut = false ∧ pipe.landed <+: next.landed := by
  induction moves with
  | refl => exact ⟨reading, prefix_rfl⟩
  | tail _ move ih =>
    obtain ⟨still, grown⟩ := move.landed ih.1
    exact ⟨still, ih.2.trans grown⟩

def Settled (pipe : Pipe) : Prop := pipe.sendShut = false → pipe.finPending = false

theorem Settled.move (settled : pipe.Settled) (move : Move faults shuts pipe next) : next.Settled := by
  cases move with
  | owe writable | shutSend => exact fun shut => by cases shut
  | fin pending drained => exact fun _ => rfl
  | dropFlight shut drained => exact fun _ => rfl
  | abandon => exact fun _ => rfl
  | write | send | arrive | refuse | swallow | arriveFin | read | dropQueue | dropBuffer
  | shutRecv | hole => exact settled

theorem Reached.settled (reached : Reached faults pipe) : pipe.Settled :=
  reached.invariant (fun _ _ => rfl) Settled.move

/-- Every byte the window counts is in one of the four places, or swallowed. -/
structure Balanced (pipe : Pipe) : Prop where
  counted : pipe.outstanding =
    pipe.queue.length + pipe.flightBytes.length + pipe.buffer.length + pipe.swallowed
  bounded : pipe.outstanding ≤ pipe.capacity

theorem balanced_new (capacity : Nat) : (new capacity).Balanced := ⟨rfl, Nat.zero_le _⟩

theorem Balanced.move (balanced : pipe.Balanced) (move : Move faults shuts pipe next) :
    next.Balanced := by
  have counted := balanced.counted
  have bounded := balanced.bounded
  unfold flightBytes at counted
  cases move with
  | write bytes writable fits =>
    exact ⟨by simp only [flightBytes, length_append]; omega, fits⟩
  | send bytes rest queued mayGo =>
    rw [queued, length_append] at counted
    refine ⟨?_, bounded⟩
    simp only [flightBytes, flatMap_append, flatMap_cons, flatMap_nil,
      append_nil, bytes_data, length_append]
    omega
  | owe | shutSend | abandon | shutRecv | hole => exact ⟨counted, bounded⟩
  | fin pending drained =>
    exact ⟨by simpa [flightBytes] using counted, bounded⟩
  | arrive bytes delivered rest head whole reading same exact_ =>
    simp only [head, flatMap_cons, bytes_data, length_append] at counted
    refine ⟨?_, bounded⟩
    simp only [flightBytes, length_append]
    omega
  | refuse bytes rest head shut =>
    simp only [head, flatMap_cons, bytes_data, length_append] at counted
    exact ⟨by simp only [flightBytes]; omega, le_trans (Nat.sub_le _ _) bounded⟩
  | swallow item rest head holed =>
    simp only [head, flatMap_cons, length_append] at counted
    exact ⟨by simp only [flightBytes, len]; omega, bounded⟩
  | arriveFin rest seen head =>
    simp only [head, flatMap_cons, bytes_fin, nil_append] at counted
    exact ⟨counted, bounded⟩
  | read bytes rest reading head =>
    rw [head, length_append] at counted
    exact ⟨by simp only [flightBytes]; omega, le_trans (Nat.sub_le _ _) bounded⟩
  | dropQueue shut spared | dropBuffer shut =>
    exact ⟨by simp only [flightBytes, length_nil]; omega,
      le_trans (Nat.sub_le _ _) bounded⟩
  | dropFlight shut drained =>
    refine ⟨?_, le_trans (Nat.sub_le _ _) bounded⟩
    simp only [flightBytes, flatMap_nil, length_nil]
    omega

theorem Reached.balanced (reached : Reached faults pipe) : pipe.Balanced :=
  reached.invariant balanced_new Balanced.move

/-- What is on its way to a reader, in the order it will get it. -/
def upcoming (pipe : Pipe) : List UInt8 :=
  pipe.returned ++ pipe.buffer ++ pipe.flightBytes ++ pipe.queue

/-- The reader got a prefix of what the writer gave, and what it can still get continues it. -/
structure Ordered (pipe : Pipe) : Prop where
  returned : pipe.returned <+: pipe.accepted
  buffered : pipe.recvShut = false → pipe.returned ++ pipe.buffer <+: pipe.accepted
  upcoming : pipe.recvShut = false → pipe.holed = false → pipe.upcoming <+: pipe.accepted
  complete : pipe.recvShut = false → pipe.holed = false → pipe.sendShut = false →
    pipe.upcoming = pipe.accepted

theorem ordered_new (capacity : Nat) : (new capacity).Ordered :=
  ⟨prefix_rfl, fun _ => prefix_rfl, fun _ _ => prefix_rfl, fun _ _ _ => rfl⟩

theorem Ordered.same (ordered : pipe.Ordered) (accepted : next.accepted = pipe.accepted)
    (returned : next.returned = pipe.returned) (buffer : next.buffer = pipe.buffer)
    (upcoming : next.upcoming = pipe.upcoming)
    (recvShut : next.recvShut = false → pipe.recvShut = false)
    (holed : next.holed = false → pipe.holed = false)
    (sendShut : next.sendShut = false → pipe.sendShut = false) : next.Ordered := by
  refine ⟨?_, ?_, ?_, ?_⟩
  · rw [accepted, returned]
    exact ordered.returned
  · intro reading
    rw [accepted, returned, buffer]
    exact ordered.buffered (recvShut reading)
  · intro reading whole
    rw [accepted, upcoming]
    exact ordered.upcoming (recvShut reading) (holed whole)
  · intro reading whole writable
    rw [accepted, upcoming]
    exact ordered.complete (recvShut reading) (holed whole) (sendShut writable)

theorem Ordered.move (exact_ : faults.flips = false) (ordered : pipe.Ordered)
    (move : Move faults shuts pipe next) : next.Ordered := by
  cases move with
  | write bytes writable fits =>
    have longer : pipe.accepted <+: pipe.accepted ++ bytes := prefix_append _ _
    refine ⟨ordered.returned.trans longer, fun reading => (ordered.buffered reading).trans longer,
      fun reading whole => ?_, fun reading whole _ => ?_⟩
    all_goals
      have all := ordered.complete reading whole writable
      unfold Pipe.upcoming at all ⊢
      rw [← all]
      simp [flightBytes]
  | send bytes rest queued mayGo =>
    refine ordered.same rfl rfl rfl ?_ id id id
    simp [Pipe.upcoming, flightBytes, queued]
  | owe writable | shutSend => exact ordered.same rfl rfl rfl rfl id id (fun shut => by cases shut)
  | fin pending drained =>
    refine ordered.same rfl rfl rfl ?_ id id id
    simp [Pipe.upcoming, flightBytes]
  | arrive bytes delivered rest head whole reading same exactly =>
    -- The bytes only change their place.
    have kept : { pipe with flight := rest, buffer := pipe.buffer ++ delivered }.upcoming =
        pipe.upcoming := by
      simp [Pipe.upcoming, flightBytes, head, exactly exact_]
    have upcoming := ordered.upcoming reading whole
    refine ⟨ordered.returned, fun _ => ?_, fun _ _ => ?_, fun _ _ writable => ?_⟩
    · rw [← kept] at upcoming
      unfold Pipe.upcoming at upcoming
      rw [append_assoc] at upcoming
      exact (prefix_append _ _).trans upcoming
    · rw [kept]
      exact upcoming
    · rw [kept]
      exact ordered.complete reading whole writable
  | refuse bytes rest head shut | dropBuffer shut =>
    refine ⟨ordered.returned, ?_, ?_, ?_⟩ <;>
      intro reading <;> rw [shut] at reading <;> cases reading
  | swallow item rest head holed =>
    refine ⟨ordered.returned, ordered.buffered, ?_, ?_⟩ <;>
      intro _ whole <;> rw [holed] at whole <;> cases whole
  | arriveFin rest seen head =>
    refine ordered.same rfl rfl rfl ?_ id id id
    simp [Pipe.upcoming, flightBytes, head]
  | read bytes rest reading head =>
    have upcoming : { pipe with
        buffer := rest
        returned := pipe.returned ++ bytes
        outstanding := pipe.outstanding - bytes.length }.upcoming = pipe.upcoming := by
      simp [Pipe.upcoming, flightBytes, head]
    have buffered := ordered.buffered reading
    rw [head, ← append_assoc] at buffered
    refine ⟨(prefix_append _ _).trans buffered, fun _ => buffered, fun _ whole => ?_,
      fun _ whole writable => ?_⟩
    · rw [upcoming]
      exact ordered.upcoming reading whole
    · rw [upcoming]
      exact ordered.complete reading whole writable
  | dropQueue shut spared =>
    refine ⟨ordered.returned, ordered.buffered, fun reading whole => ?_,
      fun _ _ writable => by cases shut.symm.trans writable⟩
    have upcoming := ordered.upcoming reading whole
    unfold Pipe.upcoming at upcoming ⊢
    rw [append_nil]
    exact (prefix_append _ _).trans upcoming
  | dropFlight shut drained =>
    refine ⟨ordered.returned, ordered.buffered, fun reading _ => ?_,
      fun _ _ writable => by cases shut.symm.trans writable⟩
    simpa [Pipe.upcoming, flightBytes, drained] using ordered.buffered reading
  | abandon => exact ordered.same rfl rfl rfl rfl id id id
  | shutRecv => exact ordered.same rfl rfl rfl rfl (fun shut => by cases shut) id id
  | hole allowed => exact ordered.same rfl rfl rfl rfl id (fun holed => by cases holed) id

theorem Reached.ordered (exact_ : faults.flips = false) (reached : Reached faults pipe) :
    pipe.Ordered :=
  reached.invariant ordered_new (Ordered.move exact_)

/-- A FIN on the wire, or seen by the reader, says that nothing was lost before it. -/
structure Truthful (pipe : Pipe) : Prop where
  whole : pipe.holed = false
  untouched : pipe.sendShut = false → pipe.discarded = []
  owed : pipe.finPending = true → pipe.sendShut = true ∧ pipe.discarded = []
  clean : ∀ lost, pipe.finOver = some lost → lost = []
  past : pipe.finOver ≠ none →
    pipe.sendShut = true ∧ pipe.finPending = false ∧ pipe.queue = []
  put : .fin ∈ pipe.flight ∨ pipe.finSeen = true → pipe.finOver ≠ none ∧ pipe.discarded = []
  last : .fin ∈ pipe.flight → ∃ chunks, pipe.flight = chunks ++ [.fin] ∧ .fin ∉ chunks
  ended : pipe.finSeen = true → pipe.flight = []
  complete : pipe.recvShut = false → pipe.discarded = [] →
    pipe.accepted.length = pipe.returned.length + pipe.buffer.length +
      pipe.flightBytes.length + pipe.queue.length

theorem truthful_new (capacity : Nat) : (new capacity).Truthful := by
  constructor <;> simp [new, flightBytes]

section

variable (truthful : pipe.Truthful)

include truthful

theorem Truthful.unput (never : pipe.finOver = none) :
    .fin ∉ pipe.flight ∧ pipe.finSeen = false := by
  have put := truthful.put
  constructor
  · exact fun member => (put (.inl member)).1 never
  · by_contra seen
    exact (put (.inr (by simpa using seen))).1 never

theorem Truthful.unsent
    (going : pipe.sendShut = true → pipe.finPending = true) : pipe.finOver = none := by
  by_contra put
  obtain ⟨shut, settled, -⟩ := truthful.past put
  rw [going shut] at settled
  cases settled

theorem Truthful.send {bytes rest : List UInt8}
    (queued : pipe.queue = bytes ++ rest)
    (mayGo : pipe.sendShut = true → pipe.finPending = true) :
    Truthful { pipe with queue := rest, flight := pipe.flight ++ [.data bytes] } := by
  have never := truthful.unsent mayGo
  obtain ⟨absent, unseen⟩ := truthful.unput never
  have still : InFlightPayload.fin ∉ pipe.flight ++ [.data bytes] := by simp [absent]
  refine { truthful with
    past := fun put => absurd never put
    put := fun ended => by simp [unseen, still] at ended
    last := fun member => absurd member still
    ended := fun seen => absurd seen (by simp [unseen])
    complete := fun reading kept => ?_ }
  · have complete := truthful.complete reading kept
    rw [queued, length_append] at complete
    simp only [flightBytes, flatMap_append, flatMap_cons, flatMap_nil,
      append_nil, bytes_data, length_append] at complete ⊢
    omega

theorem Truthful.fin (pending : pipe.finPending = true)
    (drained : pipe.queue = []) :
    Truthful
      { pipe with
        flight := pipe.flight ++ [.fin]
        finPending := false
        finOver := some pipe.discarded } := by
  obtain ⟨shut, kept⟩ := truthful.owed pending
  have never := truthful.unsent fun _ => pending
  obtain ⟨absent, unseen⟩ := truthful.unput never
  exact { truthful with
    owed := nofun
    clean := fun lost same => Option.some.inj same ▸ kept
    past := fun _ => ⟨shut, rfl, drained⟩
    put := fun _ => ⟨by simp, kept⟩
    last := fun _ => ⟨_, rfl, absent⟩
    ended := fun seen => absurd seen (by simp [unseen])
    complete := fun reading _ => by simpa [flightBytes] using truthful.complete reading kept }

theorem Truthful.landing {bytes buffer : List UInt8}
    {rest : List InFlightPayload} {outstanding : Nat} (head : pipe.flight = .data bytes :: rest)
    (taken : pipe.recvShut = false → buffer.length = pipe.buffer.length + bytes.length) :
    { pipe with flight := rest, buffer, outstanding }.Truthful := by
  have shorter : .fin ∈ rest → InFlightPayload.fin ∈ pipe.flight := fun member => by
    rw [head]
    exact mem_cons_of_mem _ member
  have unseen : pipe.finSeen ≠ true := fun seen => by
    have empty := truthful.ended seen
    rw [head] at empty
    cases empty
  refine { truthful with
    put := fun ended => truthful.put (ended.imp_left shorter)
    last := fun member => ?_
    ended := fun seen => absurd seen unseen
    complete := fun reading kept => ?_ }
  · obtain ⟨chunks, split, before⟩ := truthful.last (shorter member)
    rw [head] at split
    cases chunks with
    | nil =>
      simp only [nil_append, cons.injEq] at split
      exact absurd split.1 nofun
    | cons first others =>
      simp only [cons_append, cons.injEq] at split
      exact ⟨others, split.2, fun member => before (mem_cons_of_mem _ member)⟩
  · have counted := truthful.complete reading kept
    have arrived := taken reading
    simp only [flightBytes, head, flatMap_cons, bytes_data,
      length_append] at counted ⊢
    omega

theorem Truthful.arriveFin {rest : List InFlightPayload} {seen : Bool}
    (head : pipe.flight = .fin :: rest) :
    { pipe with flight := rest, finSeen := pipe.finSeen || seen }.Truthful := by
  have member : InFlightPayload.fin ∈ pipe.flight := by simp [head]
  obtain ⟨chunks, split, before⟩ := truthful.last member
  -- The FIN is the last item, so nothing is behind it.
  have nothing : rest = [] := by
    rw [head] at split
    cases chunks with
    | nil => simpa using split
    | cons first others =>
      simp only [cons_append, cons.injEq] at split
      exact absurd (by simp [split.1]) before
  exact { truthful with
    put := fun _ => truthful.put (.inl member)
    last := fun still => by simp [nothing] at still
    ended := fun _ => nothing
    complete := fun reading kept => by
      simpa [flightBytes, head] using truthful.complete reading kept }

end

theorem Truthful.dropQueue (spoils : faults.spoils = false) (truthful : pipe.Truthful)
    (shut : pipe.sendShut = true)
    (spared : faults.spoils = false → pipe.finPending = true → pipe.queue = []) :
    { pipe with
      queue := []
      discarded := pipe.discarded ++ pipe.queue
      outstanding := pipe.outstanding - pipe.queue.length }.Truthful := by
  refine { truthful with
    untouched := fun writable => by cases shut.symm.trans writable
    owed := fun pending => ⟨shut, ?_⟩
    past := fun put => ⟨shut, (truthful.past put).2.1, rfl⟩
    put := fun ended => ?_
    complete := fun reading kept => ?_ }
  · simp [(truthful.owed pending).2, spared spoils pending]
  · obtain ⟨put, kept⟩ := truthful.put ended
    exact ⟨put, by simp [kept, (truthful.past put).2.2]⟩
  · obtain ⟨kept, empty⟩ := append_eq_nil_iff.mp kept
    simpa [flightBytes, empty] using truthful.complete reading kept

theorem Truthful.dropFlight (truthful : pipe.Truthful) (shut : pipe.sendShut = true)
    (drained : pipe.queue = []) :
    { pipe with
      flight := []
      discarded := pipe.discarded ++ pipe.flightBytes
      outstanding := pipe.outstanding - pipe.flightBytes.length
      finPending := false }.Truthful := by
  refine { truthful with
    untouched := fun writable => by cases shut.symm.trans writable
    owed := nofun
    past := fun _ => ⟨shut, rfl, drained⟩
    put := fun ended => ?_
    last := nofun
    ended := fun _ => rfl
    complete := fun reading kept => ?_ }
  · have seen := ended.resolve_left not_mem_nil
    obtain ⟨put, kept⟩ := truthful.put (.inr seen)
    exact ⟨put, by simp [kept, flightBytes, truthful.ended seen]⟩
  · obtain ⟨kept, empty⟩ := append_eq_nil_iff.mp kept
    have complete := truthful.complete reading kept
    rw [empty] at complete
    exact complete

theorem Truthful.move (holes : faults.holes = false) (spoils : faults.spoils = false)
    (truthful : pipe.Truthful) (move : Move faults shuts pipe next) : next.Truthful := by
  cases move with
  | write bytes writable fits =>
    have never := truthful.unsent fun shut => by cases shut.symm.trans writable
    refine { truthful with
      past := fun put => absurd never put
      complete := fun reading kept => ?_ }
    have complete := truthful.complete reading kept
    simp only [flightBytes, length_append] at complete ⊢
    omega
  | send bytes rest queued mayGo => exact truthful.send queued mayGo
  | owe writable =>
    have never := truthful.unsent fun shut => by cases shut.symm.trans writable
    exact { truthful with
      untouched := fun open_ => by cases open_
      owed := fun _ => ⟨rfl, truthful.untouched writable⟩
      past := fun put => absurd never put }
  | fin pending drained => exact truthful.fin pending drained
  | arrive bytes delivered rest head whole reading same exactly =>
    exact truthful.landing head fun _ => by rw [length_append, same]
  | refuse bytes rest head shut =>
    exact truthful.landing head fun reading => by cases shut.symm.trans reading
  | swallow item rest head holed =>
    rw [truthful.whole] at holed
    cases holed
  | arriveFin rest seen head => exact truthful.arriveFin head
  | read bytes rest reading head =>
    refine { truthful with complete := fun reading kept => ?_ }
    have complete := truthful.complete reading kept
    rw [head] at complete
    simp only [flightBytes, length_append] at complete ⊢
    omega
  | dropQueue shut spared => exact truthful.dropQueue spoils shut spared
  | dropFlight shut drained => exact truthful.dropFlight shut drained
  | dropBuffer shut =>
    exact { truthful with complete := fun reading _ => by cases shut.symm.trans reading }
  | shutSend =>
    exact { truthful with
      untouched := fun open_ => by cases open_
      owed := fun pending => ⟨rfl, (truthful.owed pending).2⟩
      past := fun put => ⟨rfl, (truthful.past put).2⟩ }
  | abandon =>
    exact { truthful with
      owed := fun pending => by cases pending
      past := fun put => ⟨(truthful.past put).1, rfl, (truthful.past put).2.2⟩ }
  | shutRecv =>
    exact { truthful with complete := fun reading => by cases reading }
  | hole allowed =>
    rw [holes] at allowed
    cases allowed

theorem Reached.truthful (holes : faults.holes = false) (spoils : faults.spoils = false)
    (reached : Reached faults pipe) : pipe.Truthful :=
  reached.invariant truthful_new (Truthful.move holes spoils)

theorem Truthful.all_readable (truthful : pipe.Truthful) (seen : pipe.finSeen = true)
    (reading : pipe.recvShut = false) :
    pipe.accepted.length = pipe.returned.length + pipe.buffer.length := by
  obtain ⟨put, kept⟩ := truthful.put (.inr seen)
  have complete := truthful.complete reading kept
  have landed := truthful.ended seen
  have drained := (truthful.past put).2.2
  simpa [flightBytes, landed, drained] using complete

end Pipe

end Moonpool.Net
