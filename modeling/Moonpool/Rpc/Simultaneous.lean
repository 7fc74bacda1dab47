import Moonpool.Rpc.Displacement
import Moonpool.Rpc.Completion

/-!
Owns the simultaneous connect: two runtimes that listen and dial each other, with the
handshakes of their sessions delivered in any order, connections closed and clocks read at
any time, and any other traffic in between.

Each connection is in order: an end reads the other end's `Hello` after that one wrote it.
Nobody else claims either runtime's address.
-/

namespace Moonpool.Rpc

open Option List

inductive Side where
  | smaller
  | larger
deriving DecidableEq

def Side.other : Side → Side
  | smaller => larger
  | larger => smaller

/-- A dial that the other runtime accepted, with its connection at either end. -/
structure Link where
  dialer : Side
  dial : ConnectionId
  accepted : ConnectionId
deriving DecidableEq

def Link.endAt (link : Link) (side : Side) : ConnectionId :=
  if side = link.dialer then link.dial else link.accepted

structure Pair where
  smaller : Runtime
  larger : Runtime
  links : List Link
  /-- The connections that wrote their `Hello`. -/
  greeted : List (Side × ConnectionId)

namespace Pair

def new (smaller larger : RpcConfig) (maxFailed : Nat) : Pair :=
  ⟨.new smaller maxFailed, .new larger maxFailed, [], []⟩

def runtime (pair : Pair) : Side → Runtime
  | .smaller => pair.smaller
  | .larger => pair.larger

def setRuntime (pair : Pair) (side : Side) (runtime : Runtime) : Pair :=
  match side with
  | .smaller => { pair with smaller := runtime }
  | .larger => { pair with larger := runtime }

inductive Move where
  /-- One side does anything on its own, other runtimes' connections included. -/
  | acts (side : Side) (action : Action)
  /-- A side's dial reaches the other one, which sees it come from `observed`. -/
  | accepts (dialer : Side) (dial : ConnectionId) (observed : SocketAddr) (now : Duration)
  | greets (reader : Side) (link : Link) (hello : Hello) (now : Duration)

/-- A side on its own: it reads no `Hello` of the other side or of that one's address. -/
def permits (pair : Pair) (side : Side) : Action → Bool
  | .hello id hello _ =>
    decide (∀ link ∈ pair.links, link.endAt side ≠ id) &&
      decide (hello.listen ≠ (pair.runtime side.other).config.address)
  | _ => true

def writesHello (runtime : Runtime) (id : ConnectionId) : Bool :=
  (runtime.runs id).any fun session =>
    !session.connection.isClosed && !session.connection.control.isEmpty

def greetedBy (pair : Pair) (side : Side) : Action → List (Side × ConnectionId)
  | .pop id =>
    if writesHello (pair.runtime side) id then (side, id) :: pair.greeted else pair.greeted
  | _ => pair.greeted

def dials (pair : Pair) (side : Side) (dial : ConnectionId) : Bool :=
  (((pair.runtime side).sessions dial).any fun session =>
      decide (session.connection.direction = .outbound ∧
        session.connection.peerAddress = (pair.runtime side.other).config.address)) &&
    decide (∀ link ∈ pair.links, ¬ (link.dialer = side ∧ link.dial = dial))

def step [Xxh3] (pair : Pair) : Move → Option Pair
  | .acts side action =>
    if pair.permits side action then
      ((pair.runtime side).act action).map fun reached =>
        { pair.setRuntime side reached.1 with greeted := pair.greetedBy side action }
    else none
  | .accepts dialer dial observed now =>
    if pair.dials dialer dial then
      ((pair.runtime dialer.other).act (.accept (some observed) now)).map fun reached =>
        { pair.setRuntime dialer.other reached.1 with
          links := ⟨dialer, dial, (pair.runtime dialer.other).nextConnectionId⟩ :: pair.links }
    else none
  | .greets reader link hello now =>
    if link ∈ pair.links ∧ (reader.other, link.endAt reader.other) ∈ pair.greeted ∧
        hello.listen = (pair.runtime reader.other).config.address then
      ((pair.runtime reader).act (.hello (link.endAt reader) hello now)).map fun reached =>
        pair.setRuntime reader reached.1
    else none

def steps [Xxh3] (allowed : Pair → Move → Prop) [∀ pair move, Decidable (allowed pair move)]
    (pair : Pair) : List Move → Option Pair
  | [] => some pair
  | move :: moves =>
    if allowed pair move then (pair.step move).bind fun next => next.steps allowed moves
    else none

end Pair

/-- The states two runtimes reach from their start, by moves that `allowed` holds of. -/
inductive PairRuns [Xxh3] (allowed : Pair → Pair.Move → Prop) (smaller larger : RpcConfig)
    (maxFailed : Nat) : Pair → Prop where
  | new : PairRuns allowed smaller larger maxFailed (.new smaller larger maxFailed)
  | step {pair next : Pair} (move : Pair.Move) :
      PairRuns allowed smaller larger maxFailed pair → allowed pair move →
      pair.step move = some next → PairRuns allowed smaller larger maxFailed next

theorem PairRuns.steps [Xxh3] {allowed : Pair → Pair.Move → Prop}
    [∀ pair move, Decidable (allowed pair move)] {smaller larger : RpcConfig} {maxFailed : Nat}
    {pair next : Pair} {moves : List Pair.Move}
    (runs : PairRuns allowed smaller larger maxFailed pair)
    (stepped : pair.steps allowed moves = some next) :
    PairRuns allowed smaller larger maxFailed next := by
  induction moves generalizing pair with
  | nil =>
    cases stepped
    exact runs
  | cons move moves ih =>
    simp only [Pair.steps] at stepped
    split at stepped
    next permitted =>
      obtain ⟨middle, taken, further⟩ := bind_eq_some_iff.mp stepped
      exact ih (runs.step move permitted taken) further
    · cases stepped

namespace Pair

/-- The side closed its own dial to the other one in favour of an accepted session. -/
def GivesUp (pair : Pair) (side : Side) : Prop :=
  ∃ dial facet, (pair.runtime side).facet dial = some facet ∧ facet.direction = .outbound ∧
    facet.address = (pair.runtime side.other).config.address ∧ facet.closed = some .replaced

def Completed (pair : Pair) (link : Link) : Prop :=
  ∀ side, ∃ facet, (pair.runtime side).facet (link.endAt side) = some facet ∧
    facet.established = true

/-- Neither end closed, unless in favour of another session. -/
def Unbroken (pair : Pair) (link : Link) : Prop :=
  ∀ side facet, (pair.runtime side).facet (link.endAt side) = some facet →
    facet.closed = none ∨ facet.closed = some .replaced

/-- Both sides have the link, open, as their selected connection to the other one. -/
def Keeps (pair : Pair) (link : Link) : Prop :=
  ∀ side, ∃ address peer facet, (pair.runtime side.other).config.address = some address ∧
    (pair.runtime side).peers.get address = some peer ∧ peer.current = some (link.endAt side) ∧
    (pair.runtime side).facet (link.endAt side) = some facet ∧ facet.closed = none

def Move.clock (side : Side) : Move → Option Duration
  | .acts acting action => if acting = side then action.clock else none
  | .accepts _ _ _ _ => none
  | .greets reader _ _ now => if reader = side then some now else none

/-- The larger address finds its dial not overdue, and the smaller one may share what it accepts. -/
structure Orderly (here there : SocketAddr) (pair : Pair) (move : Move) : Prop where
  timely : ∀ now, move.clock .larger = some now → ¬ pair.larger.Overdue here now
  shared : ∀ link hello now, move = .greets .smaller link hello now → link.dialer = .larger →
    pair.smaller.Shares link.accepted there now

def orderly (here there : SocketAddr) (pair : Pair) (move : Move) : Bool :=
  ((move.clock .larger).all fun now => !decide (pair.larger.Overdue here now)) &&
    match move with
    | .greets .smaller link _ now =>
      decide (link.dialer = .larger → pair.smaller.Shares link.accepted there now)
    | _ => true

theorem orderly_iff {here there : SocketAddr} {pair : Pair} {move : Move} :
    pair.orderly here there move = true ↔ pair.Orderly here there move := by
  unfold orderly
  rw [Bool.and_eq_true_iff]
  constructor
  · rintro ⟨timely, shared⟩
    refine ⟨fun now clock => ?_, ?_⟩
    · simpa [clock] using timely
    · rintro link hello now rfl
      exact of_decide_eq_true shared
  · rintro ⟨timely, shared⟩
    refine ⟨?_, ?_⟩
    · cases clock : move.clock .larger with
      | none => rfl
      | some now => simpa using timely now clock
    · split
      next link hello now => exact decide_eq_true (shared link hello now rfl)
      · rfl

instance (here there : SocketAddr) (pair : Pair) (move : Move) :
    Decidable (pair.Orderly here there move) :=
  decidable_of_iff _ orderly_iff

/-- The accepted end of a dial from the larger address. -/
def Linked (links : List Link) (id : ConnectionId) : Prop :=
  ∃ link ∈ links, link.dialer = .larger ∧ link.accepted = id

/-- What holds of the two runtimes between any two moves. -/
structure Holds (here there : SocketAddr) (pair : Pair) : Prop where
  smallerAt : pair.smaller.config.address = some here
  largerAt : pair.larger.config.address = some there
  sound : ∀ side, (pair.runtime side).Sound
  dialed : ∀ link ∈ pair.links, ∃ facet,
    (pair.runtime link.dialer).facet link.dial = some facet ∧ facet.direction = .outbound ∧
      facet.address = (pair.runtime link.dialer.other).config.address
  accepted : ∀ link ∈ pair.links, ∃ facet,
    (pair.runtime link.dialer.other).facet link.accepted = some facet ∧
      facet.direction = .inbound
  undisplaced : pair.larger.Undisplaced here
  joined : pair.smaller.Joined there (Linked pair.links)

variable {here there : SocketAddr} {pair next : Pair}

theorem runtime_set (pair : Pair) (side other : Side) (runtime : Runtime) :
    (pair.setRuntime side runtime).runtime other =
      if other = side then runtime else pair.runtime other := by
  cases side <;> cases other <;> rfl

theorem Holds.configured (holds : pair.Holds here there) :
    ∀ side, (pair.runtime side).config.address =
      some (match side with | .smaller => here | .larger => there)
  | .smaller => holds.smallerAt
  | .larger => holds.largerAt

variable {runtime : Runtime}

theorem Holds.turns {side : Side} {action : Action}
    (holds : pair.Holds here there) (order : here.Smaller there)
    (turns : Runtime.Turns (pair.runtime side) action runtime)
    (timely : side = .larger → ∀ now, action.clock = some now → ¬ pair.larger.Overdue here now)
    (honest : side = .smaller → ∀ {id facet hello now}, action = .hello id hello now →
      pair.smaller.facet id = some facet → facet.direction = .inbound →
      (Linked pair.links id ↔ hello.listen = some there))
    (shares : side = .smaller → ∀ {id hello now}, action = .hello id hello now →
      Linked pair.links id → pair.smaller.Shares id there now) :
    (pair.setRuntime side runtime).Holds here there := by
  have asymmetric : ¬ there.Smaller here := List.lt_asymm order
  have differs : there ≠ here := by
    rintro rfl
    exact asymmetric order
  have links : (pair.setRuntime side runtime).links = pair.links := by cases side <;> rfl
  have config : ∀ other, ((pair.setRuntime side runtime).runtime other).config =
      (pair.runtime other).config := by
    intro other
    rw [runtime_set]
    split
    next same => rw [same, turns.config]
    · rfl
  have kept : ∀ {other id before}, (pair.runtime other).facet id = some before →
      ∃ after, ((pair.setRuntime side runtime).runtime other).facet id = some after ∧
        before.Stays after := by
    intro other id before found
    rw [runtime_set]
    split
    next same =>
      subst same
      exact turns.kept (holds.sound other) found
    · exact ⟨before, found, (Facet.Ages.refl before).stays⟩
  refine ⟨?_, ?_, ?_, ?_, ?_, ?_, ?_⟩
  · exact (congrArg RpcConfig.address (config .smaller)).trans holds.smallerAt
  · exact (congrArg RpcConfig.address (config .larger)).trans holds.largerAt
  · intro other
    rw [runtime_set]
    split
    · exact (holds.sound side).turn turns
    · exact holds.sound other
  · intro link member
    rw [links] at member
    obtain ⟨facet, found, outbound, selected⟩ := holds.dialed link member
    obtain ⟨after, located, stays⟩ := kept found
    refine ⟨after, located, stays.direction.trans outbound, ?_⟩
    rw [config, holds.configured]
    exact stays.address (selected.trans (holds.configured _))
  · intro link member
    rw [links] at member
    obtain ⟨facet, found, inbound⟩ := holds.accepted link member
    obtain ⟨after, located, stays⟩ := kept found
    exact ⟨after, located, stays.direction.trans inbound⟩
  · cases side with
    | smaller => exact holds.undisplaced
    | larger =>
      exact turns.undisplaced (holds.sound .larger) holds.largerAt asymmetric (timely rfl)
        holds.undisplaced
  · cases side with
    | smaller =>
      exact turns.joined (holds.sound .smaller) holds.smallerAt order differs (honest rfl)
        (shares rfl) holds.joined
    | larger => exact holds.joined

theorem Holds.greeted (holds : pair.Holds here there) (greeted : List (Side × ConnectionId)) :
    Holds here there { pair with greeted } :=
  { holds with
    sound := fun
      | .smaller => holds.sound .smaller
      | .larger => holds.sound .larger }

theorem joined_cons {links : List Link} {link : Link}
    (joined : runtime.Joined there (Linked links))
    (fresh : link.dialer = .larger → ∀ facet, runtime.facet link.accepted = some facet →
      facet.established = false ∧ runtime.driver.greeted ≠ some link.accepted) :
    runtime.Joined there (Linked (link :: links)) := by
  have grows : ∀ {id}, Linked links id → Linked (link :: links) id := by
    rintro id ⟨other, member, linked⟩
    exact ⟨other, mem_cons_of_mem _ member, linked⟩
  refine ⟨fun found inbound selected => grows (joined.named found inbound selected),
    fun found named => grows (joined.candidate found named), ?_⟩
  rintro id facet ⟨other, member, dialer, rfl⟩ found inbound late
  rcases mem_cons.mp member with rfl | earlier
  · obtain ⟨unestablished, ungreeted⟩ := fresh dialer facet found
    rcases late with established | greeted
    · cases unestablished.symm.trans established
    · exact absurd greeted ungreeted
  · exact joined.greeted ⟨other, earlier, dialer, rfl⟩ found inbound late

theorem Holds.accepts [Xxh3] {dialer : Side} {dial : ConnectionId} {observed : SocketAddr}
    {now : Duration} {events : List Event} (holds : pair.Holds here there)
    (order : here.Smaller there) (dials : pair.dials dialer dial = true)
    (acted : (pair.runtime dialer.other).act (.accept (some observed) now) =
      some (runtime, events)) :
    Holds here there { pair.setRuntime dialer.other runtime with
      links := ⟨dialer, dial, (pair.runtime dialer.other).nextConnectionId⟩ :: pair.links } := by
  have turned : (pair.setRuntime dialer.other runtime).Holds here there :=
    holds.turns order ((holds.sound dialer.other).turns acted)
      (fun _ now clock => by cases clock) (fun _ {_ _ _ _} acts => by cases acts)
      (fun _ {_ _ _} acts => by cases acts)
  have made : runtime = ((pair.runtime dialer.other).newConnection (some observed) .inbound now).1 := by
    simp only [Runtime.act] at acted
    split at acted
    · cases acted
    · cases acted
      rfl
  have fresh : runtime.facet (pair.runtime dialer.other).nextConnectionId =
      some ⟨.inbound, false, none, none⟩ := by
    rw [made]
    exact (Runtime.facet_setSession _ _ _ _).trans (if_pos rfl)
  have links : (pair.setRuntime dialer.other runtime).links = pair.links := by
    cases dialer <;> rfl
  have same : ∀ side, Pair.runtime { pair.setRuntime dialer.other runtime with
      links := ⟨dialer, dial, (pair.runtime dialer.other).nextConnectionId⟩ :: pair.links } side =
      (pair.setRuntime dialer.other runtime).runtime side := by
    intro side
    cases side <;> rfl
  refine ⟨turned.smallerAt, turned.largerAt, fun side => ?_, ?_, ?_, turned.undisplaced, ?_⟩
  · exact turned.sound side
  · intro link member
    simp only [same]
    rcases mem_cons.mp member with rfl | earlier
    · have named := (Bool.and_eq_true_iff.mp dials).1
      cases found : (pair.runtime dialer).sessions dial with
      | none =>
        rw [found] at named
        cases named
      | some session =>
        rw [found] at named
        obtain ⟨outbound, selected⟩ := of_decide_eq_true named
        have apart : dialer ≠ dialer.other := by cases dialer <;> simp [Side.other]
        refine ⟨session.connection.facet, ?_, outbound, ?_⟩
        · rw [runtime_set, if_neg apart]
          exact Runtime.facet_of_found found
        · rw [turned.configured, ← holds.configured]
          exact selected
    · exact turned.dialed link (links ▸ earlier)
  · intro link member
    rcases mem_cons.mp member with rfl | earlier
    · exact ⟨_, (congrArg (Runtime.facet · _) ((runtime_set _ _ _ _).trans (if_pos rfl))).trans fresh,
        rfl⟩
    · exact turned.accepted link (links ▸ earlier)
  · have joined := turned.joined
    rw [links] at joined
    refine joined_cons joined ?_
    rintro rfl facet found
    cases fresh.symm.trans found
    refine ⟨rfl, fun greeted => ?_⟩
    rw [made] at greeted
    obtain ⟨facet, found⟩ := (holds.sound .smaller).greeting greeted
    exact lt_irrefl _ ((holds.sound .smaller).made found)

theorem Holds.dialed_there {link : Link} {facet : Facet} (holds : pair.Holds here there)
    (member : link ∈ pair.links) (found : pair.smaller.facet (link.endAt .smaller) = some facet)
    (inbound : facet.direction = .inbound) :
    link.dialer = .larger ∧ link.endAt .smaller = link.accepted := by
  cases side : link.dialer with
  | larger => exact ⟨rfl, by simp [Link.endAt, side]⟩
  | smaller =>
    obtain ⟨again, located, outbound, -⟩ := holds.dialed link member
    rw [side] at located
    simp only [Link.endAt, side, if_pos] at found
    cases located.symm.trans found
    cases inbound.symm.trans outbound

theorem Holds.step [Xxh3] {move : Move} (holds : pair.Holds here there)
    (order : here.Smaller there) (orderly : pair.Orderly here there move)
    (stepped : pair.step move = some next) : next.Holds here there := by
  cases move with
  | acts side action =>
    simp only [Pair.step] at stepped
    split at stepped
    next permitted =>
      obtain ⟨⟨runtime, events⟩, acted, rfl⟩ := map_eq_some_iff.mp stepped
      refine Holds.greeted (holds.turns order ((holds.sound side).turns acted) ?_ ?_ ?_) _
      · rintro rfl now clock
        exact orderly.timely now (by simpa [Move.clock] using clock)
      · rintro rfl id facet hello now rfl found inbound
        obtain ⟨apart, unclaimed⟩ := Bool.and_eq_true_iff.mp permitted
        have apart := of_decide_eq_true apart
        have unclaimed := of_decide_eq_true unclaimed
        constructor
        · rintro ⟨link, member, dialer, rfl⟩
          exact absurd (by simp [Link.endAt, dialer]) (apart link member)
        · intro claim
          exact absurd (claim.trans holds.largerAt.symm) unclaimed
      · rintro rfl id hello now rfl ⟨link, member, dialer, rfl⟩
        obtain ⟨apart, -⟩ := Bool.and_eq_true_iff.mp permitted
        exact absurd (by simp [Link.endAt, dialer]) (of_decide_eq_true apart link member)
    · cases stepped
  | accepts dialer dial observed now =>
    simp only [Pair.step] at stepped
    split at stepped
    next dials =>
      obtain ⟨⟨runtime, events⟩, acted, rfl⟩ := map_eq_some_iff.mp stepped
      exact holds.accepts order dials acted
    · cases stepped
  | greets reader link hello now =>
    simp only [Pair.step] at stepped
    split at stepped
    next ready =>
      obtain ⟨member, -, claim⟩ := ready
      obtain ⟨⟨runtime, events⟩, acted, rfl⟩ := map_eq_some_iff.mp stepped
      refine holds.turns order ((holds.sound reader).turns acted) ?_ ?_ ?_
      · rintro rfl read clock
        cases clock
        exact orderly.timely now (by simp [Move.clock])
      · rintro rfl id facet said read heard found inbound
        cases heard
        have claims : hello.listen = some there := claim.trans holds.largerAt
        refine ⟨fun _ => claims, fun _ => ?_⟩
        obtain ⟨dialer, ends⟩ := holds.dialed_there member found inbound
        exact ⟨link, member, dialer, ends.symm⟩
      · rintro rfl id said read heard ⟨other, memberOther, dialer, same⟩
        cases heard
        obtain ⟨facet, found, inbound⟩ := holds.accepted other memberOther
        rw [dialer, same] at found
        obtain ⟨dialerHere, ends⟩ := holds.dialed_there member found inbound
        rw [ends]
        exact orderly.shared link hello now rfl dialerHere
    · cases stepped

theorem holds_new {smaller larger : RpcConfig} (smallerAt : smaller.address = some here)
    (largerAt : larger.address = some there) (maxFailed : Nat) :
    (Pair.new smaller larger maxFailed).Holds here there where
  smallerAt := smallerAt
  largerAt := largerAt
  sound := fun
    | .smaller => Runtime.sound_new smaller maxFailed
    | .larger => Runtime.sound_new larger maxFailed
  dialed _ member := by cases member
  accepted _ member := by cases member
  undisplaced _ _ found := by cases found
  joined := ⟨fun found => (by cases found), fun found => (by cases found),
    fun _ found => (by cases found)⟩

theorem Holds.keeps {theirs : Link} (holds : pair.Holds here there)
    (member : theirs ∈ pair.links) (dialer : theirs.dialer = .larger)
    (only : ∀ link ∈ pair.links, link.dialer = .larger → link = theirs)
    (completed : pair.Completed theirs) (unbroken : pair.Unbroken theirs) :
    pair.Keeps theirs := by
  intro side
  cases side with
  | smaller =>
    obtain ⟨facet, found, established⟩ := completed .smaller
    have ends : theirs.endAt .smaller = theirs.accepted := by simp [Link.endAt, dialer]
    obtain ⟨again, located, inbound⟩ := holds.accepted theirs member
    rw [ends] at found
    rw [dialer] at located
    cases located.symm.trans found
    have selected := holds.joined.greeted ⟨theirs, member, dialer, rfl⟩ found inbound
      (.inl established)
    have opened : facet.closed = none := by
      refine (unbroken .smaller facet (ends ▸ found)).resolve_right (fun replaced => ?_)
      -- The session it was replaced by would be another dial from the larger address.
      obtain ⟨address, other, adopted, selectedHere, differs, otherAt, otherInbound, same⟩ :=
        (holds.sound .smaller).replaced found replaced
      cases selected.symm.trans selectedHere
      obtain ⟨link, linkMember, linkDialer, rfl⟩ := holds.joined.named otherAt otherInbound same
      exact differs (congrArg Link.accepted (only link linkMember linkDialer))
    obtain ⟨peer, known, current⟩ := (holds.sound .smaller).only found selected opened
    exact ⟨there, peer, facet, holds.largerAt, known, ends ▸ current, ends ▸ found, opened⟩
  | larger =>
    have ends : theirs.endAt .larger = theirs.dial := by simp [Link.endAt, dialer]
    obtain ⟨facet, found, outbound, selected⟩ := holds.dialed theirs member
    rw [dialer] at found selected
    have selected : facet.address = some here := selected.trans holds.smallerAt
    have opened : facet.closed = none :=
      (unbroken .larger facet (ends ▸ found)).resolve_right
        (holds.undisplaced _ facet found outbound selected)
    obtain ⟨peer, known, current⟩ := (holds.sound .larger).only found selected opened
    exact ⟨here, peer, facet, holds.smallerAt, known, ends ▸ current, ends ▸ found, opened⟩

end Pair

section Outcome

variable [Xxh3] {smaller larger : RpcConfig} {here there : SocketAddr} {maxFailed : Nat}
  {pair : Pair}

section

variable (smallerAt : smaller.address = some here) (largerAt : larger.address = some there)
  (order : here.Smaller there)
  (runs : PairRuns (Pair.Orderly here there) smaller larger maxFailed pair)

include smallerAt largerAt order runs

theorem PairRuns.holds :
    pair.Holds here there := by
  induction runs with
  | new => exact Pair.holds_new smallerAt largerAt maxFailed
  | step move _ orderly stepped ih =>
    exact ih.step order orderly stepped

/-- Two runtimes that dial each other never both give up their own dial, and keep the same one once
both completed and the larger address's did not break: as long as that one is never found overdue,
and the other side may share what it accepts. -/
theorem simultaneous_connect_settles :
    ¬ (pair.GivesUp .smaller ∧ pair.GivesUp .larger) ∧
      ∀ own ∈ pair.links, ∀ theirs ∈ pair.links, own.dialer = .smaller →
        theirs.dialer = .larger → (∀ link ∈ pair.links, link.dialer = .larger → link = theirs) →
        pair.Completed own → pair.Completed theirs → pair.Unbroken theirs →
        ∃ kept, (kept = own ∨ kept = theirs) ∧ pair.Keeps kept := by
  have holds := runs.holds smallerAt largerAt order
  constructor
  · rintro ⟨-, dial, facet, found, outbound, selected, replaced⟩
    exact holds.undisplaced dial facet found outbound (selected.trans holds.smallerAt) replaced
  · intro own _ theirs member _ dialer only _ completed unbroken
    exact ⟨theirs, .inr rfl, holds.keeps member dialer only completed unbroken⟩

end

end Outcome

def smallerAddress : SocketAddr := privateAddress 1 4500

def largerAddress : SocketAddr := privateAddress 2 4500

/-- A runtime that listens at `address` and shares the sessions of a peer's own host. -/
def serverConfig (address : SocketAddr) : RpcConfig :=
  { callerConfig with address := some address, sharing := .sameIp }

def serverHello (address : SocketAddr) : Hello := { greeting with listen := some address }

def questionTo (address : SocketAddr) : Runtime.Start :=
  { question none with endpoint := { (question none).endpoint with address } }

namespace Pair

def calls (side : Side) (address : SocketAddr) (now : Duration) : List Move :=
  [.acts side (.start (questionTo address) (.reply .atMostOnce) ⟨now, 0, 0⟩),
    .acts side (.dialed address now fun wait => wait)]

/-- A dial is accepted, and both ends write their `Hello`. -/
def meets (dialer : Side) (dial accepted : ConnectionId) (observed : SocketAddr) (now : Duration) :
    List Move :=
  [.accepts dialer dial observed now, .acts dialer (.upgraded dial ⟨"peer", none, none⟩),
    .acts dialer.other (.upgraded accepted ⟨"peer", none, none⟩), .acts dialer (.pop dial),
    .acts dialer.other (.pop accepted)]

/-- The larger address's dials failed for too long. Then both dials cross, and each side first reads
the other one's `Hello`. -/
def crossing : List Move :=
  calls .larger smallerAddress 0 ++
    [.acts .larger (.closeConnection 0 (.connectFailed "connect timed out") 5 false)] ++
    calls .larger smallerAddress 16 ++ calls .smaller largerAddress 16 ++
    meets .larger 1 1 (privateAddress 2 50001) 16 ++
    meets .smaller 0 2 (privateAddress 1 50001) 16 ++
    [.greets .smaller ⟨.larger, 1, 1⟩ (serverHello largerAddress) 17,
      .greets .larger ⟨.smaller, 0, 2⟩ (serverHello smallerAddress) 17]

end Pair

/-- Each side gives up its own dial for the other one's: both sessions are lost. -/
theorem simultaneous_connect_loses_both :
    letI := constantHash
    ∃ pair, PairRuns (fun _ _ => True) (serverConfig smallerAddress) (serverConfig largerAddress)
        0 pair ∧
      pair.links = [⟨.smaller, 0, 2⟩, ⟨.larger, 1, 1⟩] ∧
      pair.smaller.facet 0 = some ⟨.outbound, false, some largerAddress, some .replaced⟩ ∧
      pair.larger.facet 1 = some ⟨.outbound, false, some smallerAddress, some .replaced⟩ ∧
      pair.GivesUp .smaller ∧ pair.GivesUp .larger := by
  let _ := constantHash
  have happened : ((Pair.new (serverConfig smallerAddress) (serverConfig largerAddress) 0).steps
      (fun _ _ => True) Pair.crossing).map (fun pair =>
        (pair.links, pair.smaller.config.address, pair.larger.config.address,
          pair.smaller.facet 0, pair.larger.facet 1)) =
      some ([⟨.smaller, 0, 2⟩, ⟨.larger, 1, 1⟩], some smallerAddress, some largerAddress,
        some ⟨.outbound, false, some largerAddress, some .replaced⟩,
        some ⟨.outbound, false, some smallerAddress, some .replaced⟩) := by
    decide +kernel
  obtain ⟨pair, stepped, seen⟩ := map_eq_some_iff.mp happened
  simp only [Prod.mk.injEq] at seen
  obtain ⟨links, smallerAt, largerAt, own, theirs⟩ := seen
  exact ⟨pair, PairRuns.new.steps stepped, links, own, theirs,
    ⟨0, _, own, rfl, largerAt.symm, rfl⟩, ⟨1, _, theirs, rfl, smallerAt.symm, rfl⟩⟩

/-- Both sides dial at once and every `Hello` arrives in time. -/
def Pair.meeting : List Pair.Move :=
  Pair.calls .smaller largerAddress 0 ++ Pair.calls .larger smallerAddress 0 ++
    Pair.meets .larger 0 1 (privateAddress 2 50001) 1 ++
    Pair.meets .smaller 0 1 (privateAddress 1 50001) 1 ++
    [.greets .smaller ⟨.larger, 0, 1⟩ (serverHello largerAddress) 2,
      .acts .smaller (.establish 2), .acts .smaller .settle,
      .greets .larger ⟨.smaller, 0, 1⟩ (serverHello smallerAddress) 2,
      .acts .larger (.establish 2),
      .greets .larger ⟨.larger, 0, 1⟩ (serverHello smallerAddress) 3,
      .acts .larger (.establish 3), .acts .larger .settle,
      .greets .smaller ⟨.smaller, 0, 1⟩ (serverHello largerAddress) 3,
      .acts .smaller (.establish 3), .acts .smaller .settle]

/-- Both servers keep the dial from the larger address. -/
theorem simultaneous_connect_settles_meeting :
    letI := constantHash
    ∃ pair, PairRuns (Pair.Orderly smallerAddress largerAddress) (serverConfig smallerAddress)
        (serverConfig largerAddress) 0 pair ∧
      pair.Completed ⟨.smaller, 0, 1⟩ ∧ pair.Completed ⟨.larger, 0, 1⟩ ∧
      pair.Unbroken ⟨.larger, 0, 1⟩ ∧
      ∃ kept, (kept = ⟨.smaller, 0, 1⟩ ∨ kept = ⟨.larger, 0, 1⟩) ∧ pair.Keeps kept := by
  let _ := constantHash
  have happened : ((Pair.new (serverConfig smallerAddress) (serverConfig largerAddress) 0).steps
      (Pair.Orderly smallerAddress largerAddress) Pair.meeting).map (fun pair =>
        (pair.links, pair.smaller.facet 0, pair.smaller.facet 1, pair.larger.facet 0,
          pair.larger.facet 1)) =
      some ([⟨.smaller, 0, 1⟩, ⟨.larger, 0, 1⟩],
        some ⟨.outbound, true, some largerAddress, some .replaced⟩,
        some ⟨.inbound, true, some largerAddress, none⟩,
        some ⟨.outbound, true, some smallerAddress, none⟩,
        some ⟨.inbound, true, none, none⟩) := by
    decide +kernel
  obtain ⟨pair, stepped, seen⟩ := map_eq_some_iff.mp happened
  simp only [Prod.mk.injEq] at seen
  obtain ⟨links, ownHere, theirsHere, theirsThere, ownThere⟩ := seen
  have runs := PairRuns.new.steps stepped
  have ownCompleted : pair.Completed ⟨.smaller, 0, 1⟩ := fun
    | .smaller => ⟨_, ownHere, rfl⟩
    | .larger => ⟨_, ownThere, rfl⟩
  have theirsCompleted : pair.Completed ⟨.larger, 0, 1⟩ := fun
    | .smaller => ⟨_, theirsHere, rfl⟩
    | .larger => ⟨_, theirsThere, rfl⟩
  have unbroken : pair.Unbroken ⟨.larger, 0, 1⟩ := by
    intro side facet found
    cases side with
    | smaller =>
      cases theirsHere.symm.trans found
      exact .inl rfl
    | larger =>
      cases theirsThere.symm.trans found
      exact .inl rfl
  refine ⟨pair, runs, ownCompleted, theirsCompleted, unbroken, ?_⟩
  exact (simultaneous_connect_settles rfl rfl (by decide) runs).2 _ (by simp [links]) _
    (by simp [links]) rfl rfl (by simp [links]) ownCompleted theirsCompleted unbroken

section

variable [Xxh3] {config : RpcConfig} {maxFailed : Nat} {runtime : Runtime} {history : List Event}

theorem Runs.sound (runs : Runs config maxFailed runtime history) : runtime.Sound := by
  induction runs with
  | new => exact Runtime.sound_new config maxFailed
  | step action _ acted ih => exact ih.turn (ih.turns acted)

/-- In every interleaving at most one open connection is selected for an address, each peer's current
connection is selected for it, and a connection is replaced only by an accepted one of its peer. -/
theorem one_open_connection_per_peer (runs : Runs config maxFailed runtime history) :
    (∀ {id other session rival address}, runtime.sessions id = some session →
      runtime.sessions other = some rival → session.connection.peerAddress = some address →
      rival.connection.peerAddress = some address → session.connection.closed = none →
      rival.connection.closed = none → id = other) ∧
    (∀ {address peer id}, runtime.peers.get address = some peer → peer.current = some id →
      ∃ session, runtime.sessions id = some session ∧
        session.connection.peerAddress = some address) ∧
    ∀ {id session}, runtime.sessions id = some session →
      session.connection.closed = some .replaced →
      ∃ other adopted address, other ≠ id ∧ runtime.sessions other = some adopted ∧
        adopted.connection.direction = .inbound ∧
        session.connection.peerAddress = some address ∧
        adopted.connection.peerAddress = some address := by
  have sound := runs.sound
  have facet {id session} (found : runtime.sessions id = some session) :
      runtime.facet id = some session.connection.facet := congrArg (Option.map _) found
  refine ⟨fun found located here there opened open_ => ?_, fun found current => ?_,
    fun found replaced => ?_⟩
  · obtain ⟨peer, listed, current⟩ := sound.only (facet found) here opened
    obtain ⟨again, relisted, recurrent⟩ := sound.only (facet located) there open_
    cases listed.symm.trans relisted
    exact some.inj (current.symm.trans recurrent)
  · obtain ⟨_, seen, selected⟩ := sound.current found current
    obtain ⟨session, located, rfl⟩ := map_eq_some_iff.mp seen
    exact ⟨session, located, selected⟩
  · obtain ⟨address, other, _, selected, differs, seen, inbound, adopted⟩ :=
      sound.replaced (facet found) replaced
    obtain ⟨session, located, rfl⟩ := map_eq_some_iff.mp seen
    exact ⟨other, session, address, differs, located, inbound, selected, adopted⟩

end

/-- A server dials a larger address, and accepts a session from there before its dial completes. -/
def overtaken : List Action :=
  [.start (questionTo largerAddress) (.reply .atMostOnce) ⟨0, 0, 0⟩,
    .accept (some (privateAddress 2 50001)) 1, .upgraded 1 ⟨"peer", none, none⟩,
    .hello 1 (serverHello largerAddress) 2]

/-- The dial is replaced by the accepted session, which that address is reached by from then on. -/
theorem one_open_connection_per_peer_replaced :
    letI := constantHash
    ∃ runtime history dialed other adopted address,
      Runs (serverConfig smallerAddress) 0 runtime history ∧
      runtime.sessions 0 = some dialed ∧ dialed.connection.closed = some .replaced ∧
      other ≠ 0 ∧ runtime.sessions other = some adopted ∧
      dialed.connection.peerAddress = some address ∧
      adopted.connection.peerAddress = some address := by
  let _ := constantHash
  have happened : ((Runtime.new (serverConfig smallerAddress) 0).steps overtaken).bind
      (fun reached => (reached.1.sessions 0).map (·.connection.closed)) =
        some (some .replaced) := by
    decide +kernel
  obtain ⟨⟨runtime, history⟩, stepped, seen⟩ := bind_eq_some_iff.mp happened
  obtain ⟨dialed, found, replaced⟩ := map_eq_some_iff.mp seen
  have runs : Runs (serverConfig smallerAddress) 0 runtime history := Runs.new.steps stepped
  obtain ⟨other, adopted, address, differs, located, -, selected, same⟩ :=
    (one_open_connection_per_peer runs).2.2 found replaced
  exact ⟨runtime, history, dialed, other, adopted, address, runs, found, replaced, differs, located,
    selected, same⟩

end Moonpool.Rpc
