import Moonpool.Rpc.Tenure

/-!
Owns the three ways a connection becomes a peer's: it is dialed, it is accepted and adopted,
or it is accepted and remembered.  Each keeps what holds of the selected connections.
-/

namespace Moonpool.Rpc

open Option

/-- The session closed for another one, unless it was closed before. -/
def Facet.displaced (facet : Facet) : Facet :=
  { facet with closed := some (facet.closed.getD .replaced) }

/-- What adopting `id` for `listen`, in place of `replaced`, makes of the session `other`. -/
def Facet.turned (listen : SocketAddr) (id : ConnectionId) (replaced : Option ConnectionId)
    (other : ConnectionId) (facet : Facet) : Facet :=
  { facet with
    address := if other = id then some listen else facet.address
    closed := if replaced = some other then some (facet.closed.getD .replaced) else facet.closed }

namespace Runtime

variable {runtime next : Runtime} {id : ConnectionId} {listen : SocketAddr}
  {replaced : Option ConnectionId}

theorem facet_onConnection {change : Connection → Connection} (onFacet : Facet → Facet)
    (acts : ∀ connection, (change connection).facet = onFacet connection.facet)
    (runtime : Runtime) (id other : ConnectionId) :
    (runtime.onConnection id change).facet other =
      (runtime.facet other).map fun facet => if other = id then onFacet facet else facet := by
  unfold onConnection
  split
  next absent =>
    by_cases same : other = id
    · simp [same, facet, absent]
    · simp [same]
  next session found =>
    rw [facet_setSession, acts]
    by_cases same : other = id
    · simp [same, facet_of_found found]
    · simp [same]

theorem facet_onConnection_same {change : Connection → Connection}
    (acts : ∀ connection, (change connection).facet = connection.facet) (runtime : Runtime)
    (id : ConnectionId) : (runtime.onConnection id change).facet = runtime.facet := by
  funext other
  simp [facet_onConnection (fun facet => facet) acts]

theorem facet_takeOver (runtime : Runtime) (id old : ConnectionId) (session : Session)
    (now : Duration) (other : ConnectionId) :
    (runtime.takeOver id old session now).facet other =
      (runtime.facet other).map fun facet => if other = old then facet.displaced else facet := by
  have given : ∀ (moved : List QueuedRequest) (connection : Connection),
      (connection.adoptRequests moved now).1.facet = connection.facet := by
    intro moved connection
    obtain ⟨same, closed, -⟩ := connection.adoptRequests_spec moved now
    exact same.facet closed
  unfold takeOver
  simp only [foldl_moveCall]
  rw [facet_onConnection Facet.displaced (fun _ => rfl), facet_onConnection_same (given _)]
  have emptied : (runtime.onConnection old fun connection => connection.takeRequests.1).facet =
      runtime.facet :=
    facet_onConnection_same (fun connection => (rfl : connection.takeRequests.1.facet = _))
      runtime old
  exact congrArg (Option.map _) (congrFun emptied other)

theorem facet_adopt (runtime : Runtime) (listen : SocketAddr) (id : ConnectionId)
    (replaced : Option ConnectionId) (now : Duration) (other : ConnectionId) :
    (runtime.adopt listen id replaced now).facet other =
      (runtime.facet other).map (Facet.turned listen id replaced other) := by
  have chosen : (runtime.choose listen id now).facet other =
      (runtime.facet other).map (Facet.turned listen id none other) := by
    have selected := facet_onConnection (fun facet => { facet with address := some listen })
      (fun connection : Connection => (rfl : (connection.selectFor listen).facet = _))
      runtime id other
    refine selected.trans (congrArg (Option.map · _) (funext fun facet => ?_))
    by_cases same : other = id <;> simp [Facet.turned, same]
  unfold adopt
  simp only
  split
  · exact chosen
  next old =>
    split
    next absent =>
      by_cases same : other = old
      · have gone : (runtime.choose listen id now).facet other = none := by
          rw [same]
          simp [facet, absent]
        rw [gone]
        rw [chosen] at gone
        rw [map_eq_none_iff.mp gone]
        rfl
      · rw [chosen]
        cases runtime.facet other <;> simp [Facet.turned, Ne.symm same]
    next session _ =>
      rw [facet_takeOver, chosen, map_map]
      refine congrArg (Option.map · _) (funext fun facet => ?_)
      by_cases same : other = old
      · simp [Facet.turned, Facet.displaced, same]
      · simp [Facet.turned, same, Ne.symm same]

theorem adopt_spec (runtime : Runtime) (listen : SocketAddr) (id : ConnectionId)
    (replaced : Option ConnectionId) (now : Duration) :
    (runtime.adopt listen id replaced now).config = runtime.config ∧
      (runtime.adopt listen id replaced now).nextConnectionId = runtime.nextConnectionId ∧
      (runtime.adopt listen id replaced now).peers = runtime.peers.update listen fun peer =>
        { peer with current := some id, candidate := none }.adopted now := by
  have onConnection : ∀ (runtime : Runtime) (id : ConnectionId) (change : Connection → Connection),
      (runtime.onConnection id change).config = runtime.config ∧
        (runtime.onConnection id change).nextConnectionId = runtime.nextConnectionId ∧
        (runtime.onConnection id change).peers = runtime.peers := by
    intro runtime id change
    unfold Runtime.onConnection
    split
    · exact ⟨rfl, rfl, rfl⟩
    · exact ⟨rfl, rfl, rfl⟩
  have chosen : (runtime.choose listen id now).config = runtime.config ∧
      (runtime.choose listen id now).nextConnectionId = runtime.nextConnectionId ∧
      (runtime.choose listen id now).peers = runtime.peers.update listen fun peer =>
        { peer with current := some id, candidate := none }.adopted now := by
    obtain ⟨config, made, peers⟩ :=
      onConnection runtime id fun connection => connection.selectFor listen
    refine ⟨config, made, ?_⟩
    simp only [choose, peers]
  unfold adopt
  simp only
  split
  · exact chosen
  split
  · exact chosen
  · unfold takeOver
    simp only [foldl_moveCall, onConnection]
    exact chosen

/-- The accepted session `id` may become the connection to `listen`. -/
structure Adoptable (runtime : Runtime) (id : ConnectionId) (listen : SocketAddr)
    (replaced : Option ConnectionId) : Prop where
  target : ∃ facet, runtime.facet id = some facet ∧ facet.direction = .inbound ∧
    (facet.address = none ∨ facet.address = some listen)
  peer : ∃ peer, runtime.peers.get listen = some peer ∧
    replaced = (runtime.standing peer).map Standing.connection
  differs : replaced ≠ some id
  alone : ∀ {address peer}, address ≠ listen → runtime.peers.get address = some peer →
    peer.candidate ≠ some id

theorem standing_facet {peer : Peer} {current : Standing}
    (live : runtime.standing peer = some current) :
    peer.current = some current.connection ∧
      ∃ facet, runtime.facet current.connection = some facet ∧ facet.closed = none ∧
        facet.direction = current.direction ∧ facet.established = current.established := by
  obtain ⟨chosen, session, found, opened, established, direction⟩ := standing_eq live
  refine ⟨chosen, _, facet_of_found found, ?_, direction, established⟩
  simpa [Connection.isClosed, Connection.facet] using opened

theorem Adoptable.selected {old : ConnectionId} (sound : runtime.Sound)
    (adoptable : runtime.Adoptable id listen replaced) (gone : replaced = some old) :
    ∃ facet, runtime.facet old = some facet ∧ facet.address = some listen ∧
      facet.closed = none := by
  obtain ⟨peer, known, same⟩ := adoptable.peer
  obtain ⟨current, live, rfl⟩ := map_eq_some_iff.mp (same.symm.trans gone)
  obtain ⟨named, facet, found, opened, -⟩ := standing_facet live
  obtain ⟨other, located, selected⟩ := sound.current known named
  cases found.symm.trans located
  exact ⟨facet, found, selected, opened⟩

theorem Adoptable.turned {other : ConnectionId} {facet : Facet} {address : SocketAddr}
    (adoptable : runtime.Adoptable id listen replaced) (found : runtime.facet other = some facet)
    (selected : facet.address = some address) :
    (facet.turned listen id replaced other).address = some address := by
  obtain ⟨target, targetAt, -, unselected⟩ := adoptable.target
  simp only [Facet.turned]
  split
  next same =>
    rw [same, targetAt] at found
    cases found
    rcases unselected with none | here
    · cases none.symm.trans selected
    · exact here.symm.trans selected
  · exact selected

/-- Adopting an adoptable session keeps what holds of the selected connections. -/
theorem Sound.adopts {phase : Phase} (sound : runtime.Sound)
    (adoptable : runtime.Adoptable id listen replaced) (now : Duration)
    (greeted : (∃ facet, runtime.facet id = some facet ∧ facet.established = true) ∧
        phase.greeted = runtime.driver.greeted ∨
      runtime.driver.greeted = none ∧ phase.greeted = some id) :
    Sound { runtime.adopt listen id replaced now with driver := phase } := by
  obtain ⟨-, made, peers⟩ := adopt_spec runtime listen id replaced now
  obtain ⟨target, targetAt, targetInbound, -⟩ := adoptable.target
  obtain ⟨peer, known, live⟩ := adoptable.peer
  have facets : ∀ other, Runtime.facet { runtime.adopt listen id replaced now with
      driver := phase } other = (runtime.facet other).map (Facet.turned listen id replaced other) :=
    facet_adopt runtime listen id replaced now
  have lookup : ∀ address, Peers.get (runtime.adopt listen id replaced now).peers address =
      if address = listen then
        some ({ peer with current := some id, candidate := none }.adopted now)
      else runtime.peers.get address := by
    intro address
    rw [peers, Peers.get_update, known, map_some]
  have found : ∀ {other before}, runtime.facet other = some before →
      Runtime.facet { runtime.adopt listen id replaced now with driver := phase } other =
        some (before.turned listen id replaced other) := by
    intro other before located
    rw [facets, located, map_some]
  refine ⟨peers ▸ sound.distinct.update listen _, ?_, ?_, ?_, ?_, ?_, ?_, ?_, ?_⟩
  · intro other after located
    rw [facets] at located
    obtain ⟨before, earlier, -⟩ := map_eq_some_iff.mp located
    exact made.symm ▸ sound.made earlier
  · intro other busy
    rcases greeted with ⟨-, same⟩ | ⟨-, greeting⟩
    · obtain ⟨facet, located⟩ := sound.greeting (same.symm.trans busy)
      exact ⟨_, found located⟩
    · cases greeting.symm.trans busy
      exact ⟨_, found targetAt⟩
  · intro address named other lookedUp current
    rw [lookup] at lookedUp
    split at lookedUp
    next same =>
      cases lookedUp
      cases current
      exact ⟨_, found targetAt, by simp [Facet.turned, same]⟩
    next differs =>
      obtain ⟨before, earlier, selected⟩ := sound.current lookedUp current
      exact ⟨_, found earlier, adoptable.turned earlier selected⟩
  · intro address named other lookedUp candidate
    rw [lookup] at lookedUp
    split at lookedUp
    · cases lookedUp
      cases candidate
    next differs =>
      obtain ⟨before, earlier, inbound, selected⟩ := sound.candidate lookedUp candidate
      refine ⟨_, found earlier, inbound, ?_⟩
      have apart : other ≠ id := by
        rintro rfl
        exact adoptable.alone differs lookedUp candidate
      simpa [Facet.turned, apart] using selected
  · intro address named rival other id first second candidate rivalCandidate
    rw [lookup] at first second
    split at first
    · cases first
      cases candidate
    split at second
    · cases second
      cases rivalCandidate
    · exact sound.single first second candidate rivalCandidate
  · intro other after located inbound unestablished ungreeted
    rw [facets] at located
    obtain ⟨before, earlier, rfl⟩ := map_eq_some_iff.mp located
    have apart : other ≠ id := by
      rintro rfl
      rcases greeted with ⟨⟨facet, again, established⟩, -⟩ | ⟨-, greeting⟩
      · cases again.symm.trans earlier
        cases established.symm.trans unestablished
      · exact ungreeted greeting
    have quiet : runtime.driver.greeted ≠ some other := by
      rcases greeted with ⟨-, same⟩ | ⟨none, -⟩
      · exact same ▸ ungreeted
      · rw [none]
        simp
    obtain ⟨unselected, unnamed⟩ := sound.fresh earlier inbound unestablished quiet
    refine ⟨by simp [Facet.turned, apart, unselected], fun lookedUp => ?_⟩
    rw [lookup] at lookedUp
    split at lookedUp
    · cases lookedUp
      simp [Peer.adopted]
    · exact unnamed lookedUp
  · intro other after address located selected opened
    rw [facets] at located
    obtain ⟨before, earlier, rfl⟩ := map_eq_some_iff.mp located
    have kept : replaced ≠ some other := by
      intro same
      simp [Facet.turned, same] at opened
    have wasOpen : before.closed = none := by simpa [Facet.turned, kept] using opened
    by_cases same : other = id
    · have here : listen = address := by simpa [Facet.turned, same] using selected
      subst same here
      exact ⟨_, (lookup listen).trans (if_pos rfl), rfl⟩
    · have selected : before.address = some address := by
        simpa [Facet.turned, same] using selected
      obtain ⟨named, lookedUp, current⟩ := sound.only earlier selected wasOpen
      have elsewhere : address ≠ listen := by
        rintro rfl
        cases known.symm.trans lookedUp
        rw [standing_of_open current earlier wasOpen] at live
        exact kept live
      exact ⟨named, (lookup address).trans ((if_neg elsewhere).trans lookedUp), current⟩
  · intro other after located closed
    rw [facets] at located
    obtain ⟨before, earlier, rfl⟩ := map_eq_some_iff.mp located
    by_cases gone : replaced = some other
    · -- The session that was replaced just now.
      have apart : other ≠ id := by
        rintro rfl
        exact adoptable.differs gone
      obtain ⟨facet, again, selected, -⟩ := adoptable.selected sound gone
      cases again.symm.trans earlier
      exact ⟨listen, id, _, by simp [Facet.turned, apart, selected], Ne.symm apart,
        found targetAt, targetInbound, by simp [Facet.turned]⟩
    · have closed : before.closed = some .replaced := by simpa [Facet.turned, gone] using closed
      obtain ⟨address, winner, adopted, selected, differs, winnerAt, inbound, same⟩ :=
        sound.replaced earlier closed
      exact ⟨address, winner, _, adoptable.turned earlier selected, differs, found winnerAt,
        inbound, adoptable.turned winnerAt same⟩

theorem Sound.reuses {facet : Facet} (sound : runtime.Sound)
    (adoptable : runtime.Adoptable id listen replaced) (found : runtime.facet id = some facet)
    (established : facet.established = true) (now : Duration) :
    (runtime.adopt listen id replaced now).Sound := by
  have driver := (quiet_adopt runtime listen id replaced now).driver
  have adopted : Sound { runtime.adopt listen id replaced now with
      driver := (runtime.adopt listen id replaced now).driver } :=
    sound.adopts adoptable now (.inl ⟨⟨facet, found, established⟩, congrArg Phase.greeted driver⟩)
  exact adopted

/-- So does remembering an accepted session as a peer's candidate. -/
theorem Sound.remembers {phase : Phase} {facet : Facet} (sound : runtime.Sound)
    (idle : runtime.driver.greeted = none) (found : runtime.facet id = some facet)
    (inbound : facet.direction = .inbound) (unestablished : facet.established = false)
    (greeted : phase.greeted = some id) :
    Sound { runtime with
      peers := runtime.peers.update listen fun peer => { peer with candidate := some id }
      driver := phase } := by
  obtain ⟨unselected, unnamed⟩ := sound.fresh found inbound unestablished (by simp [idle])
  have lookup : ∀ {address peer}, Peers.get (runtime.peers.update listen fun peer =>
      { peer with candidate := some id }) address = some peer →
        ∃ earlier, runtime.peers.get address = some earlier ∧ peer.current = earlier.current ∧
          (peer.candidate = earlier.candidate ∧ address ≠ listen ∨
            peer.candidate = some id ∧ address = listen) := by
    intro address peer lookedUp
    rw [Peers.get_update] at lookedUp
    split at lookedUp
    next same =>
      obtain ⟨earlier, known, rfl⟩ := map_eq_some_iff.mp lookedUp
      exact ⟨earlier, same ▸ known, rfl, .inr ⟨rfl, same⟩⟩
    next differs => exact ⟨peer, lookedUp, rfl, .inl ⟨rfl, differs⟩⟩
  refine ⟨sound.distinct.update listen _, sound.made, ?_, ?_, ?_, ?_, ?_, ?_, sound.replaced⟩
  · intro other busy
    cases greeted.symm.trans busy
    exact ⟨facet, found⟩
  · intro address peer other lookedUp current
    obtain ⟨earlier, known, same, -⟩ := lookup lookedUp
    exact sound.current known (same.symm.trans current)
  · intro address peer other lookedUp candidate
    obtain ⟨earlier, known, -, ⟨same, -⟩ | ⟨same, -⟩⟩ := lookup lookedUp
    · exact sound.candidate known (same.symm.trans candidate)
    · cases same.symm.trans candidate
      exact ⟨facet, found, inbound, .inl unselected⟩
  · intro address peer other rival named first second candidate rivalCandidate
    obtain ⟨earlier, known, -, ⟨same, -⟩ | ⟨same, here⟩⟩ := lookup first
    · obtain ⟨former, knownOther, -, ⟨rivalSame, -⟩ | ⟨rivalSame, -⟩⟩ := lookup second
      · exact sound.single known knownOther (same.symm.trans candidate)
          (rivalSame.symm.trans rivalCandidate)
      · cases rivalSame.symm.trans rivalCandidate
        exact absurd (same.symm.trans candidate) (unnamed known)
    · obtain ⟨former, knownOther, -, ⟨rivalSame, -⟩ | ⟨-, there⟩⟩ := lookup second
      · cases same.symm.trans candidate
        exact absurd (rivalSame.symm.trans rivalCandidate) (unnamed knownOther)
      · exact there.trans here.symm
  · intro other after located otherInbound early ungreeted
    obtain ⟨unselected, unnamed⟩ := sound.fresh located otherInbound early (by simp [idle])
    refine ⟨unselected, fun lookedUp candidate => ?_⟩
    obtain ⟨earlier, known, -, ⟨same, -⟩ | ⟨same, -⟩⟩ := lookup lookedUp
    · exact unnamed known (same.symm.trans candidate)
    · cases same.symm.trans candidate
      exact ungreeted greeted
  · intro other after address located selected opened
    obtain ⟨peer, known, current⟩ := sound.only located selected opened
    show ∃ peer, Peers.get (runtime.peers.update listen _) address = some peer ∧ _
    rw [Peers.get_update]
    split
    next same =>
      rw [← same, known]
      exact ⟨_, rfl, current⟩
    · exact ⟨peer, known, current⟩

theorem facet_select (runtime : Runtime) (address : SocketAddr) (now : Duration)
    (other : ConnectionId) :
    (runtime.select address now).1.facet other =
      if other = runtime.nextConnectionId then some ⟨.outbound, false, some address, none⟩
      else runtime.facet other := by
  obtain ⟨-, -, -, -, made, others, -⟩ := select_spec runtime address now
  split
  next same =>
    rw [same, facet_of_found made]
    rfl
  next differs =>
    unfold facet
    rw [others other differs]

theorem select_candidate {address other : SocketAddr} {now : Duration} {peer : Peer}
    (found : (runtime.select address now).1.peers.get other = some peer)
    (named : peer.candidate = some id) :
    ∃ earlier, (runtime.trimPeers address now).peers.get other = some earlier ∧
      earlier.candidate = some id := by
  obtain ⟨-, -, -, -, -, -, -, -, peers⟩ := select_spec runtime address now
  rw [peers, Peers.get_put] at found
  split at found
  next equal =>
    cases found
    subst equal
    cases known : (runtime.trimPeers other now).peers.get other with
    | none =>
      rw [known] at named
      cases named
    | some earlier =>
      rw [known] at named
      exact ⟨earlier, rfl, named⟩
  · exact ⟨peer, found, named⟩

/-- So does a dial, to a peer without a live session. -/
theorem Sound.dials (sound : runtime.Sound) (address : SocketAddr) (now : Duration)
    (unlive : ∀ peer, runtime.peers.get address = some peer → runtime.standing peer = none) :
    (runtime.select address now).1.Sound := by
  have trims := rests_trimPeers sound address now
  have trimmed := sound.rest trims
  obtain ⟨peers, -, same⟩ := trimPeers_eq runtime address now
  obtain ⟨-, quiet, -, connections, -, -, -, -, chosen⟩ := select_spec runtime address now
  rw [same] at trims trimmed chosen
  have facets := facet_select runtime address now
  have found : ∀ {other facet}, runtime.facet other = some facet →
      (runtime.select address now).1.facet other = some facet := by
    intro other facet located
    rw [facets, if_neg (ne_of_lt (sound.made located)), located]
  have lookup : ∀ {other peer}, (runtime.select address now).1.peers.get other = some peer →
      other = address ∧ peer.current = some runtime.nextConnectionId ∨
        peers.get other = some peer := by
    intro other peer lookedUp
    rw [chosen, Peers.get_put] at lookedUp
    split at lookedUp
    next equal =>
      cases lookedUp
      exact .inl ⟨equal, rfl⟩
    · exact .inr lookedUp
  have remembered : ∀ {other peer named},
      (runtime.select address now).1.peers.get other = some peer → peer.candidate = some named →
      ∃ earlier, peers.get other = some earlier ∧ earlier.candidate = some named := by
    intro other peer named lookedUp candidate
    have known := select_candidate lookedUp candidate
    rwa [same] at known
  refine ⟨chosen ▸ trimmed.distinct.put address _, ?_, ?_, ?_, ?_, ?_, ?_, ?_, ?_⟩
  · intro other facet located
    rw [facets] at located
    rw [connections]
    split at located
    next equal => exact equal ▸ Nat.lt_succ_self _
    · exact Nat.lt_succ_of_lt (sound.made located)
  · intro other busy
    rw [quiet.driver] at busy
    obtain ⟨facet, located⟩ := sound.greeting busy
    exact ⟨facet, found located⟩
  · intro other peer named lookedUp current
    obtain ⟨equal, dialed⟩ | known := lookup lookedUp
    · cases dialed.symm.trans current
      exact ⟨_, (facets _).trans (if_pos rfl), equal ▸ rfl⟩
    · obtain ⟨facet, located, selected⟩ := trimmed.current known current
      exact ⟨facet, found located, selected⟩
  · intro other peer named lookedUp candidate
    obtain ⟨earlier, known, candidate⟩ := remembered lookedUp candidate
    obtain ⟨facet, located, selected⟩ := trimmed.candidate known candidate
    exact ⟨facet, found located, selected⟩
  · intro other peer third rival named first second candidate rivalCandidate
    obtain ⟨earlier, known, candidate⟩ := remembered first candidate
    obtain ⟨former, knownOther, rivalCandidate⟩ := remembered second rivalCandidate
    exact trimmed.single known knownOther candidate rivalCandidate
  · intro other facet located inbound unestablished ungreeted
    rw [facets] at located
    split at located
    · cases located
      cases inbound
    obtain ⟨unselected, unnamed⟩ := trimmed.fresh located inbound unestablished
      (fun greeted => ungreeted (quiet.driver ▸ greeted))
    refine ⟨unselected, fun lookedUp candidate => ?_⟩
    obtain ⟨earlier, known, candidate⟩ := remembered lookedUp candidate
    exact unnamed known candidate
  · intro other facet selectedFor located selected opened
    rw [facets] at located
    split at located
    next equal =>
      cases located
      cases selected
      exact ⟨_, chosen ▸ (Peers.get_put peers address address _).trans (if_pos rfl), equal ▸ rfl⟩
    · have elsewhere : selectedFor ≠ address := by
        rintro rfl
        obtain ⟨peer, known, current⟩ := sound.only located selected opened
        have live := standing_of_open current located opened
        rw [unlive peer known] at live
        cases live
      obtain ⟨peer, known, current⟩ := trimmed.only located selected opened
      exact ⟨peer, chosen ▸ (Peers.get_put peers address selectedFor _).trans
        ((if_neg elsewhere).trans known), current⟩
  · intro other facet located closed
    rw [facets] at located
    split at located
    · cases located
      cases closed
    · obtain ⟨selectedFor, winner, adopted, selected, differs, winnerAt, inbound, same⟩ :=
        sound.replaced located closed
      exact ⟨selectedFor, winner, adopted, selected, differs, found winnerAt, inbound, same⟩

end Runtime

end Moonpool.Rpc
