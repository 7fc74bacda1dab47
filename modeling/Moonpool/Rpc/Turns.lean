import Moonpool.Rpc.Adoption

/-!
Contract: any step of a runtime changes at most one selected connection, and for a reason that
can be read off the state before it.

Owns:
- `Turns`, what a step does to the selected connections: nothing, one dial, one adoption or one
  session remembered;
- the reasons: the step reads the clock (`Action.clock`), the own dial is `Overdue`, the
  accepted session `Shares` its claim, or it is the one just heard (`Hears`);
- `Sound.turns`: every step turns that way, one case for each action.

The cases follow the source: `peer_connection` dials or adopts a remembered candidate,
`select_inbound` adopts, remembers or keeps.  All else rests.

Does not own what two runtimes do to each other (see `Moonpool.Rpc.Simultaneous`).
-/

namespace Moonpool.Rpc

open Option

def Action.clock : Action → Option Duration
  | .start _ _ readings | .sendOneWay _ readings => some readings.now
  | .hello _ _ now | .retransmit _ now => some now
  | _ => none

namespace Runtime

variable {runtime before next : Runtime} {id : ConnectionId} {listen address : SocketAddr}
  {replaced : Option ConnectionId} {action : Action} {now : Duration}

/-- The own dial to `address` is open, and has been unestablished for too long. -/
def Overdue (runtime : Runtime) (address : SocketAddr) (now : Duration) : Prop :=
  ∃ peer current, runtime.peers.get address = some peer ∧
    runtime.standing peer = some current ∧ current.direction = .outbound ∧
    current.established = false ∧
    peer.dialingStalled now runtime.config.peer.alwaysAcceptAfter = true

/-- The session `id` may be shared: its claim to `listen` passes, and the peer table has it or
room. -/
def Shares (runtime : Runtime) (id : ConnectionId) (listen : SocketAddr) (now : Duration) : Prop :=
  (∃ session, runtime.sessions id = some session ∧
      sharingAllows runtime.config.sharing session.connection listen = true) ∧
    (((runtime.trimPeers listen now).peers.get listen).isSome = true ∨
      (runtime.trimPeers listen now).peers.length < runtime.config.peer.maxTrackedAddresses)

instance (runtime : Runtime) (address : SocketAddr) (now : Duration) :
    Decidable (runtime.Overdue address now) :=
  decidable_of_iff (((runtime.peers.get address).any fun peer =>
      (runtime.standing peer).any fun current =>
        decide (current.direction = .outbound ∧ current.established = false ∧
          peer.dialingStalled now runtime.config.peer.alwaysAcceptAfter = true)) = true) (by
    simp [Overdue, any_eq_true])

instance (runtime : Runtime) (id : ConnectionId) (listen : SocketAddr) (now : Duration) :
    Decidable (runtime.Shares id listen now) :=
  decidable_of_iff (((runtime.sessions id).any fun session =>
      sharingAllows runtime.config.sharing session.connection listen) = true ∧
    (((runtime.trimPeers listen now).peers.get listen).isSome = true ∨
      (runtime.trimPeers listen now).peers.length < runtime.config.peer.maxTrackedAddresses)) (by
    simp [Shares, any_eq_true])

/-- The accepted session `id` greets, and claims to listen at `listen`. -/
def Hears (runtime : Runtime) (action : Action) (id : ConnectionId) (listen : SocketAddr)
    (now : Duration) : Prop :=
  (∃ hello, action = .hello id hello now ∧ hello.listen = some listen) ∧
    runtime.driver.greeted = none ∧
    ∃ facet, runtime.facet id = some facet ∧ facet.direction = .inbound ∧
      facet.established = false

/-- What a step does to the selected connections. -/
inductive Turns (runtime : Runtime) (action : Action) (next : Runtime) : Prop where
  | rests (rests : Rests runtime next)
  | dials {before : Runtime} {address : SocketAddr} {now : Duration} (earlier : Rests runtime before)
      (unlive : ∀ peer, before.peers.get address = some peer → before.standing peer = none)
      (later : Rests (before.select address now).1 next)
  | greets {before : Runtime} {id : ConnectionId} {accepted : PeerHello} {facet : Facet}
      (earlier : Rests runtime before) (idle : runtime.driver.greeted = none)
      (found : runtime.facet id = some facet)
      (heard : ∃ hello now, action = .hello id hello now ∧
        ∀ listen here, facet.direction = .inbound → hello.listen = some listen →
          runtime.config.address = some here → listen ≠ here → ¬ runtime.Shares id listen now)
      (same : next = { before with driver := .greeting id accepted })
  | adopts {before : Runtime} {id : ConnectionId} {listen here : SocketAddr}
      {replaced : Option ConnectionId} {now : Duration} {accepted : PeerHello}
      (earlier : Rests runtime before) (hears : runtime.Hears action id listen now)
      (adoptable : before.Adoptable id listen replaced)
      (address : runtime.config.address = some here)
      (displaces : ∀ old facet, replaced = some old → before.facet old = some facet →
        facet.direction = .outbound → here.Smaller listen ∨ runtime.Overdue listen now)
      (same : next = { before.adopt listen id replaced now with driver := .greeting id accepted })
  | remembers {before : Runtime} {id : ConnectionId} {listen here : SocketAddr} {now : Duration}
      {accepted : PeerHello} (earlier : Rests runtime before)
      (hears : runtime.Hears action id listen now)
      (address : runtime.config.address = some here) (unsmaller : ¬ here.Smaller listen)
      (same : next = { before with
        peers := before.peers.update listen fun peer => { peer with candidate := some id }
        driver := .greeting id accepted })
  /-- A call rides on a session that was remembered. -/
  | reuses {before : Runtime} {id : ConnectionId} {address : SocketAddr}
      {replaced : Option ConnectionId} {now : Duration} {peer : Peer} {facet : Facet}
      (earlier : Rests runtime before) (adoptable : before.Adoptable id address replaced)
      (known : before.peers.get address = some peer) (named : peer.candidate = some id)
      (found : before.facet id = some facet) (established : facet.established = true)
      (clock : action.clock = some now)
      (displaces : ∀ old facet, replaced = some old → before.facet old = some facet →
        facet.direction = .outbound → runtime.Overdue address now)
      (later : Rests (before.adopt address id replaced now) next)

theorem Rests.idle (rests : Rests runtime next) (idle : runtime.driver.greeted = none) :
    next.driver.greeted = none := by
  cases greeting : next.driver.greeted with
  | none => rfl
  | some other => cases idle.symm.trans (rests.greeted greeting)

theorem Hears.rest (hears : runtime.Hears action id listen now) (rests : Rests runtime next) :
    ∃ facet, next.facet id = some facet ∧ facet.direction = .inbound ∧
      facet.established = false := by
  obtain ⟨-, idle, facet, found, inbound, unestablished⟩ := hears
  obtain ⟨after, located, ages⟩ := rests.kept found
  refine ⟨after, located, ages.direction.trans inbound, ?_⟩
  by_contra established
  rcases rests.established located (by simpa using established) with ⟨facet, again, early⟩ | greeted
  · cases again.symm.trans found
    cases early.symm.trans unestablished
  · cases idle.symm.trans greeted

/-- A turn keeps what holds of the selected connections. -/
theorem Sound.turn (sound : runtime.Sound) (turns : Turns runtime action next) : next.Sound := by
  cases turns with
  | rests rests => exact sound.rest rests
  | dials earlier unlive later => exact ((sound.rest earlier).dials _ _ unlive).rest later
  | greets earlier idle found heard same =>
    subst same
    have still := sound.rest earlier
    obtain ⟨after, located, -⟩ := earlier.kept found
    refine { still with
      greeting := fun greeted => ?_
      fresh := fun located inbound unestablished _ => ?_ }
    · cases greeted
      exact ⟨after, located⟩
    · refine still.fresh located inbound unestablished (fun greeted => ?_)
      cases idle.symm.trans (earlier.greeted greeted)
  | adopts earlier hears adoptable address displaces same =>
    subst same
    exact (sound.rest earlier).adopts adoptable _ (.inr ⟨earlier.idle hears.2.1, rfl⟩)
  | remembers earlier hears address unsmaller same =>
    subst same
    obtain ⟨facet, found, inbound, unestablished⟩ := hears.rest earlier
    exact (sound.rest earlier).remembers (earlier.idle hears.2.1) found inbound unestablished rfl
  | reuses earlier adoptable known named found established clock displaces later =>
    exact ((sound.rest earlier).reuses adoptable found established _).rest later

/-- Asking for the connection to a peer dials, adopts its candidate, or finds the one there is. -/
theorem Sound.turns_peerConnection (sound : before.Sound) (earlier : Rests runtime before)
    (overdue : before.Overdue address now → runtime.Overdue address now)
    (clock : action.clock = some now)
    (later : Rests (before.peerConnection address now).1 next) : Turns runtime action next := by
  unfold peerConnection at later
  split at later
  · exact .rests (earlier.trans later)
  simp only at later
  split at later
  next id replaced usable choice =>
    obtain ⟨peer, known, usable⟩ := bind_eq_some_iff.mp usable
    rw [known] at choice
    obtain ⟨stalled, same, unestablished⟩ := adoptsCandidate_spec choice
    obtain ⟨named, session, stored, -, established⟩ := usableCandidate_eq usable
    obtain ⟨facet, found, inbound, selected⟩ := sound.candidate known named
    have established : facet.established = true := by
      cases (facet_of_found stored).symm.trans found
      exact established
    refine .reuses earlier ⟨⟨facet, found, inbound, selected⟩, ⟨peer, known, same⟩, ?_, ?_⟩
      known named found established clock ?_ later
    · intro replaces
      obtain ⟨current, live, rfl⟩ := map_eq_some_iff.mp (same.symm.trans replaces)
      obtain ⟨-, standing, standingAt, -, -, early⟩ := standing_facet live
      cases standingAt.symm.trans found
      rw [established, unestablished current live] at early
      cases early
    · intro other rival elsewhere rivalKnown rivalNamed
      exact elsewhere (sound.single known rivalKnown named rivalNamed)
    · intro old oldFacet replaces oldFound outbound
      obtain ⟨current, live, rfl⟩ := map_eq_some_iff.mp (same.symm.trans replaces)
      obtain ⟨-, standing, standingAt, -, direction, -⟩ := standing_facet live
      cases standingAt.symm.trans oldFound
      exact overdue ⟨peer, current, known, live, direction.symm.trans outbound,
        unestablished current live, stalled⟩
  · exact .rests (earlier.trans later)
  next live _ =>
    split at later
    · exact .rests (earlier.trans later)
    have unlive : ∀ peer, before.peers.get address = some peer →
        before.standing peer = none := by
      intro peer known
      rw [known] at live
      exact live
    have told : Rests (before.select address now).1 (before.dial address now).1 := by
      unfold dial
      simp only
      split
      · exact .refl _
      split
      · exact .refl _
      next session found =>
        exact (drifts_setSession found (session.connection.fades_close (by simp))).rests
    exact .dials earlier unlive (told.trans later)

section Acts

variable [Xxh3]

theorem Sound.turns_startCall (sound : runtime.Sound) (start : Start) (kind : CallKind)
    (readings : Readings) :
    Turns runtime (.start start kind readings) (runtime.startCall start kind readings).1 := by
  have stays : Turns runtime (.start start kind readings) runtime :=
    .rests (.refl runtime)
  unfold startCall
  split
  · exact stays
  split
  · exact stays
  split
  · exact stays
  split
  · exact stays
  have counted : Rests runtime { runtime with nextCallId := runtime.nextCallId + 1 } :=
    Drifts.rests (.of_facets rfl rfl rfl rfl (fun _ => rfl))
  have connects : ∀ {after}, Rests (peerConnection
      { runtime with nextCallId := runtime.nextCallId + 1 } start.endpoint.address
        readings.now).1 after → Turns runtime (.start start kind readings) after :=
    (sound.rest counted).turns_peerConnection counted (fun overdue => overdue) rfl
  simp only
  split
  · exact .rests (counted.trans (drifts_setCall _ _ _).rests)
  split
  · exact .rests counted
  split
  next reached error connected =>
    rw [connected] at connects
    exact connects (.refl _)
  next frame _ _ reached id connected =>
    rw [connected] at connects
    have pushed := drifts_pushRequest reached id frame (some runtime.nextCallId) readings
    split
    next refused =>
      rw [refused] at pushed
      exact connects pushed.rests
    next queued =>
      rw [queued] at pushed
      exact connects (pushed.trans (drifts_setCall _ _ _)).rests

theorem Sound.turns_sendOneWay (sound : runtime.Sound) (start : Start) (readings : Readings) :
    Turns runtime (.sendOneWay start readings) (runtime.sendOneWay start readings).1 := by
  have stays : Turns runtime (.sendOneWay start readings) runtime :=
    .rests (.refl runtime)
  unfold sendOneWay
  split
  · exact stays
  split
  · exact stays
  split
  · exact stays
  split
  · exact stays
  split
  · exact stays
  have connects : ∀ {after}, Rests (runtime.peerConnection start.endpoint.address
      readings.now).1 after → Turns runtime (.sendOneWay start readings) after :=
    sound.turns_peerConnection (.refl runtime) (fun overdue => overdue) rfl
  split
  next reached error connected =>
    rw [connected] at connects
    exact connects (.refl _)
  next frame _ _ reached id connected =>
    rw [connected] at connects
    have pushed := drifts_pushRequest reached id frame none readings
    split
    next refused =>
      rw [refused] at pushed
      exact connects pushed.rests
    next queued =>
      rw [queued] at pushed
      exact connects pushed.rests

theorem Sound.turns_retransmit {gone : ConnectionId} {copies : List Resend} (sound : runtime.Sound)
    (resending : runtime.driver = .resending gone address copies)
    (credential : CallId → Option (List UInt8)) (now : Duration) :
    Turns runtime (.retransmit credential now)
      { (runtime.retransmit address gone copies credential now).1 with driver := .idle } := by
  have connects : ∀ {after}, Rests (runtime.peerConnection address now).1 after →
      Turns runtime (.retransmit credential now) after :=
    sound.turns_peerConnection (.refl runtime) (fun overdue => overdue) rfl
  have resent := Drifts.foldl Prod.fst
    (resendCall gone (runtime.peerConnection address now).2 now)
    (copies.map (copyFrame runtime.config.maxFrameBytes credential))
    ((runtime.peerConnection address now).1, [])
    (drifts_resendCall gone (runtime.peerConnection address now).2 now)
  refine connects (resent.trans (drifts_driver _ ?_)).rests
  rw [resent.greeted]
  show none = (runtime.peerConnection address now).1.driver.greeted
  rw [(quiet_peerConnection runtime address now).driver, resending]
  rfl

end Acts

section

variable {peer : Peer} {live : Option Standing} {here : SocketAddr} {delay : Duration}

/-- Why `select_inbound` gives up an own dial: this address is the smaller one, or the dial is not
established and has stalled. -/
theorem select_adopt (adopts : peer.select live listen here now delay = .adopt replaced) :
    replaced = live.map Standing.connection ∧
      ∀ current, live = some current → current.direction = .outbound →
        here.Smaller listen ∨
          current.established = false ∧ peer.dialingStalled now delay = true := by
  unfold Peer.select at adopts
  split at adopts
  · cases adopts
    exact ⟨rfl, fun current impossible => by cases impossible⟩
  next current =>
    split at adopts
    next inbound =>
      cases adopts
      refine ⟨rfl, fun other same outbound => ?_⟩
      cases same
      cases inbound.symm.trans outbound
    · split at adopts
      next smaller =>
        cases adopts
        exact ⟨rfl, fun _ _ _ => .inl smaller⟩
      · split at adopts
        next stalled =>
          cases adopts
          refine ⟨rfl, fun other same _ => ?_⟩
          cases same
          exact .inr ⟨stalled.2, stalled.1⟩
        · cases adopts

theorem select_keep (keeps : peer.select live listen here now delay = .keep) :
    ¬ here.Smaller listen := by
  intro smaller
  unfold Peer.select at keeps
  split at keeps
  · cases keeps
  · split at keeps
    · cases keeps
    · cases keeps

end

/-- A Hello on an accepted session makes it the peer's connection, its candidate, or nothing. -/
theorem Sound.turns_selectInbound {session : Session} {hello : Hello} {accepted : PeerHello}
    (sound : runtime.Sound) (idle : runtime.driver = .idle)
    (found : runtime.sessions id = some session)
    (unestablished : session.connection.established = false)
    (inbound : session.connection.direction = .inbound) (claim : hello.listen = some listen) :
    Turns runtime (.hello id hello now)
      { runtime.selectInbound id session.connection listen now with
        driver := .greeting id accepted } := by
  have located := facet_of_found found
  have quiet : runtime.driver.greeted = none := by rw [idle]; rfl
  have hears : runtime.Hears (.hello id hello now) id listen now :=
    ⟨⟨hello, rfl, claim⟩, quiet, _, located, inbound, unestablished⟩
  -- A claim that is not looked at: the session is only served.
  have serves : ∀ before : Runtime, Rests runtime before →
      (∀ here, runtime.config.address = some here → listen ≠ here →
        ¬ runtime.Shares id listen now) →
      Turns runtime (.hello id hello now) { before with driver := .greeting id accepted } := by
    intro before earlier unshared
    refine .greets earlier quiet located ⟨hello, now, rfl, fun other here _ claimed => ?_⟩ rfl
    cases claim.symm.trans claimed
    exact unshared here
  have trims := rests_trimPeers sound listen now
  obtain ⟨peers, kept, same⟩ := trimPeers_eq runtime listen now
  unfold selectInbound
  split
  next nowhere =>
    refine serves runtime (.refl runtime) (fun here somewhere => ?_)
    cases nowhere.symm.trans somewhere
  next here somewhere =>
    split
    next refused =>
      refine serves runtime (.refl runtime) (fun other also differs shares => ?_)
      cases somewhere.symm.trans also
      obtain ⟨⟨again, foundAgain, allowed⟩, -⟩ := shares
      cases found.symm.trans foundAgain
      rw [refused.resolve_left differs] at allowed
      cases allowed
    · simp only
      split
      next full =>
        refine serves _ trims (fun _ _ _ shares => ?_)
        obtain ⟨-, known | room⟩ := shares
        · rw [isNone_iff_eq_none.mp full.1] at known
          cases known
        · obtain ⟨-, full⟩ := full
          rw [trims.config] at full
          exact not_lt.mpr full room
      · rw [same] at trims ⊢
        have noted := trims.trans
          (rests_put { runtime with peers := peers } listen runtime.config.peer)
        have still := sound.rest noted
        have lookup := (Peers.get_put peers listen listen
          ((peers.get listen).getD (.new runtime.config.peer))).trans (if_pos rfl)
        obtain ⟨facet, again, -, early⟩ := hears.rest noted
        obtain ⟨unselected, unnamed⟩ := still.fresh again (by
          cases located.symm.trans again
          exact inbound) early (by simp [idle, Phase.greeted])
        split
        next replaced chosen =>
          obtain ⟨replaces, favoured⟩ := select_adopt chosen
          have standing : ∀ old, replaced = some old → ∃ current,
              runtime.standing ((peers.get listen).getD (.new runtime.config.peer)) =
                some current ∧ current.connection = old := by
            intro old gone
            obtain ⟨current, live, named⟩ := map_eq_some_iff.mp (replaces.symm.trans gone)
            exact ⟨current, live, named⟩
          refine .adopts noted hears ⟨⟨facet, again, ?_, .inl unselected⟩,
            ⟨_, lookup, replaces⟩, ?_, fun _ => unnamed⟩ somewhere ?_ rfl
          · cases located.symm.trans again
            exact inbound
          · intro gone
            obtain ⟨current, live, rfl⟩ := standing id gone
            obtain ⟨other, sameAgain, selected⟩ := still.current lookup (standing_facet live).1
            cases again.symm.trans sameAgain
            cases unselected.symm.trans selected
          · intro old oldFacet gone oldFound outbound
            obtain ⟨current, live, rfl⟩ := standing old gone
            obtain ⟨named, standingFacet, standingAt, -, direction, -⟩ := standing_facet live
            cases standingAt.symm.trans oldFound
            refine (favoured current live (direction.symm.trans outbound)).imp_right ?_
            rintro ⟨early, stalled⟩
            cases known : peers.get listen with
            | none =>
              rw [known] at named
              cases named
            | some peer =>
              rw [known] at live stalled
              exact ⟨peer, current, sound.distinct.get (kept _ (Peers.mem_of_get known)), live,
                direction.symm.trans outbound, early, stalled⟩
        next chosen => exact .remembers noted hears somewhere (select_keep chosen) rfl

section Steps

variable {events : List Event}

theorem Turns.of_drifts {step : Runtime × List Event} (drifts : Drifts runtime step.1)
    (acted : some step = some (next, events)) : Turns runtime action next := by
  cases some.inj acted
  exact .rests drifts.rests

theorem rests_closeConnection {session : Session} {returned : CloseReason} {watched : Bool}
    (idle : runtime.driver = .idle) (found : runtime.sessions id = some session)
    (reported : returned = .replaced → session.connection.isClosed = true) :
    Rests runtime (runtime.closeConnection id returned now watched).1 := by
  have ended := rests_ended found reported now
  have quiet : (runtime.ended id session returned now).driver.greeted = none := by
    unfold Runtime.ended
    split
    all_goals
      show runtime.driver.greeted = none
      rw [idle]
      rfl
  unfold closeConnection
  rw [found]
  simp only
  have dropped := Drifts.foldl (fun dropped : Runtime × List Resend × List Event => dropped.1)
    (dropCall session.connection.peerAddress
      ((session.connection.close returned).closed.getD returned) session.connection.established)
    ((runtime.ended id session returned now).carried id)
    (runtime.ended id session returned now, [], []) (drifts_dropCall _ _ _)
  split
  · exact ended.trans dropped.rests
  split
  · exact ended.trans dropped.rests
  · refine ended.trans (dropped.trans (drifts_driver _ ?_)).rests
    rw [dropped.greeted, quiet]
    rfl

variable [Xxh3]

theorem Sound.turns_hello {hello : Hello} (sound : runtime.Sound)
    (acted : runtime.act (.hello id hello now) = some (next, events)) :
    Turns runtime (.hello id hello now) next := by
  simp only [act] at acted
  split at acted
  · cases acted
  next session runs =>
    obtain ⟨idle, found, -⟩ := runs_spec runs
    split at acted
    · cases acted
    next unestablished =>
      obtain ⟨accepted, -, result⟩ := map_eq_some_iff.mp acted
      cases result
      split
      next listen inbound claim =>
        exact sound.turns_selectInbound idle found (by simpa using unestablished) inbound claim
      next unclaimed =>
        refine .greets (.refl runtime) (by rw [idle]; rfl) (facet_of_found found)
          ⟨hello, now, rfl, fun listen _ inbound claim => ?_⟩ rfl
        exact (unclaimed listen inbound claim).elim

/-- Every step of a runtime, one case for each action. -/
theorem Sound.turns (sound : runtime.Sound) (acted : runtime.act action = some (next, events)) :
    Turns runtime action next := by
  cases action <;> simp only [act] at acted
  case start start kind readings =>
    cases some.inj acted
    exact sound.turns_startCall start kind readings
  case sendOneWay start readings =>
    cases some.inj acted
    exact sound.turns_sendOneWay start readings
  case abandon call => exact .of_drifts (drifts_abandon runtime call) acted
  case completeHere call outcome race =>
    exact .of_drifts (drifts_complete runtime .here call outcome race) acted
  case endHere call error violation =>
    split at acted
    · exact .of_drifts (drifts_streamEnd runtime .here call error violation) acted
    · cases acted
  case refuseHere call violation =>
    split at acted
    · exact .of_drifts (drifts_streamRefused runtime call violation) acted
    · cases acted
  case traffic id traffic =>
    exact .of_drifts (drifts_onConnection runtime id fun connection =>
      connection.fades_carry traffic) acted
  case beginShutdown =>
    split at acted
    · cases acted
    · exact .of_drifts (.of_facets rfl rfl rfl rfl (fun _ => rfl)) acted
  case terminate race => exact .of_drifts (drifts_terminate runtime race) acted
  case dropCommands => exact .of_drifts (.of_facets rfl rfl rfl rfl (fun _ => rfl)) acted
  case accept peer now =>
    split at acted
    · cases acted
    · cases acted
      exact .rests (rests_newConnection sound peer now)
  case dialed address now jitter =>
    split at acted
    · cases acted
    · cases acted
      exact .rests (rests_update runtime address (fun _ => ⟨.inr rfl, rfl⟩) fun named _ _ => named)
  case upgraded id context =>
    split at acted
    next session _ found =>
      split at acted
      · have upgrades : Drifts runtime (runtime.setSession id { session with
            connection := session.connection.setPeerContext context, stage := .running }) :=
          drifts_setSession found .same
        exact .of_drifts upgrades acted
      · cases acted
    · cases acted
  case pop id =>
    obtain ⟨session, -, result⟩ := map_eq_some_iff.mp acted
    cases result
    exact .rests (drifts_pop runtime id).rests
  case judge =>
    split at acted
    next id frame held writing =>
      obtain ⟨session, -, result⟩ := map_eq_some_iff.mp acted
      refine .of_drifts (Drifts.trans (drifts_driver runtime ?_)
        (drifts_admitTransmit _ session.connection held frame)) (congrArg some result)
      rw [writing]
      rfl
    · cases acted
  case hello id hello now => exact sound.turns_hello acted
  case establish now =>
    split at acted
    next id accepted greeting =>
      obtain ⟨session, found, result⟩ := map_eq_some_iff.mp acted
      cases result
      refine .rests (rests_establish greeting found ?_)
      cases (session.connection.establish accepted now).peerAddress <;> rfl
    · cases acted
  case settle =>
    split at acted
    next address settling =>
      cases acted
      have noted : Rests runtime { runtime with
          peers := runtime.peers.update address Peer.established } :=
        rests_update runtime address (fun _ => ⟨.inr rfl, rfl⟩) fun named _ _ => named
      refine .rests (noted.trans (drifts_driver _ ?_).rests)
      show none = runtime.driver.greeted
      rw [settling]
      rfl
    · cases acted
  case reply id call outcome =>
    obtain ⟨session, -, result⟩ := map_eq_some_iff.mp acted
    exact .of_drifts (drifts_complete runtime (.connection id) call outcome none)
      (congrArg some result)
  case refuseItem id call | streamEnd id call error =>
    split at acted
    · cases acted
    next session hears =>
      split at acted
      · refine .of_drifts (drifts_driver runtime ?_) acted
        rw [(hears_spec hears).1]
        rfl
      · cases acted
  case takeRefused violation =>
    split at acted
    next id call refusing =>
      refine .of_drifts (Drifts.trans (drifts_driver runtime ?_)
        ((drifts_streamRefused _ call violation).trans (drifts_onConnection _ id
          fun connection => connection.fades_signalCancel call))) acted
      rw [refusing]
      rfl
    · cases acted
  case takeEnded violation =>
    split at acted
    next id call error ending =>
      refine .of_drifts (Drifts.trans (drifts_driver runtime ?_)
        (drifts_streamEnd _ (.connection id) call error violation)) acted
      rw [ending]
      rfl
    · cases acted
  case closeIfIdle id now =>
    obtain ⟨session, hears, result⟩ := map_eq_some_iff.mp acted
    cases result
    exact .rests (drifts_idleOut (hears_spec hears).2.1 now).rests
  case closeConnection id returned now watched =>
    split at acted
    next session idle found =>
      split at acted
      · cases acted
      next begun =>
        have closes : Rests runtime (runtime.closeConnection id returned now watched).1 := by
          refine rests_closeConnection idle found (fun replaced => ?_)
          by_contra opened
          exact begun (.inr (.inr ⟨replaced, by simpa using opened⟩))
        rw [some.inj acted] at closes
        exact .rests closes
    · cases acted
  case retransmit credential now =>
    split at acted
    next id address copies resending =>
      cases some.inj acted
      exact sound.turns_retransmit resending credential now
    · cases acted

end Steps

end Runtime

end Moonpool.Rpc
