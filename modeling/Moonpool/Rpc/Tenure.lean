import Moonpool.Rpc.Selection

/-!
Owns which connection of a runtime is the selected one: the open connection that is or was
selected for an address is the one its peer names, and a connection is replaced only by an
accepted session of the same peer.
-/

namespace Moonpool.Rpc

namespace Facet

/-- A session keeps its direction and its peer, and closes for reasons of its own. -/
structure Ages (before after : Facet) : Prop where
  direction : after.direction = before.direction
  address : after.address = before.address
  established : before.established = true → after.established = true
  opened : after.closed = none → before.closed = none
  replaced : after.closed = some .replaced → before.closed = some .replaced

theorem Ages.refl (facet : Facet) : facet.Ages facet :=
  ⟨rfl, rfl, fun kept => kept, fun kept => kept, fun kept => kept⟩

theorem Ages.trans {first second third : Facet} (before : first.Ages second)
    (after : second.Ages third) : first.Ages third :=
  ⟨after.direction.trans before.direction, after.address.trans before.address,
    after.established ∘ before.established, before.opened ∘ after.opened,
    before.replaced ∘ after.replaced⟩

variable {before after : Facet}

theorem Ages.unestablished (ages : before.Ages after)
    (unestablished : after.established = false) : before.established = false := by
  by_contra established
  rw [ages.established (by simpa using established)] at unestablished
  cases unestablished

theorem Fades.ages (fades : before.Fades after) : before.Ages after := by
  cases fades with
  | same => exact .refl before
  | closed opened other =>
    refine ⟨rfl, rfl, fun kept => kept, fun still => (by cases still), fun replaced => ?_⟩
    exact absurd (Option.some.inj replaced) other

theorem Fades.established (fades : before.Fades after) :
    after.established = before.established := by
  cases fades <;> rfl

end Facet

namespace Runtime

/-- What holds of a runtime's selected connections between any two of its steps. -/
structure Sound (runtime : Runtime) : Prop where
  distinct : runtime.peers.Distinct
  made : ∀ {id facet}, runtime.facet id = some facet → id < runtime.nextConnectionId
  greeting : ∀ {id}, runtime.driver.greeted = some id → ∃ facet, runtime.facet id = some facet
  current : ∀ {address peer id}, runtime.peers.get address = some peer →
    peer.current = some id → ∃ facet, runtime.facet id = some facet ∧ facet.address = some address
  candidate : ∀ {address peer id}, runtime.peers.get address = some peer →
    peer.candidate = some id → ∃ facet, runtime.facet id = some facet ∧
      facet.direction = .inbound ∧ (facet.address = none ∨ facet.address = some address)
  single : ∀ {address peer other rival id}, runtime.peers.get address = some peer →
    runtime.peers.get other = some rival → peer.candidate = some id →
    rival.candidate = some id → other = address
  /-- An accepted session that has not greeted yet is no peer's. -/
  fresh : ∀ {id facet}, runtime.facet id = some facet → facet.direction = .inbound →
    facet.established = false → runtime.driver.greeted ≠ some id →
    facet.address = none ∧
      ∀ {address peer}, runtime.peers.get address = some peer → peer.candidate ≠ some id
  /-- At most one open connection is selected for an address. -/
  only : ∀ {id facet address}, runtime.facet id = some facet → facet.address = some address →
    facet.closed = none → ∃ peer, runtime.peers.get address = some peer ∧ peer.current = some id
  /-- A connection was replaced by an accepted session of the same peer. -/
  replaced : ∀ {id facet}, runtime.facet id = some facet → facet.closed = some .replaced →
    ∃ address other adopted, facet.address = some address ∧ other ≠ id ∧
      runtime.facet other = some adopted ∧ adopted.direction = .inbound ∧
      adopted.address = some address

theorem sound_new (config : RpcConfig) (maxFailed : Nat) : (Runtime.new config maxFailed).Sound where
  distinct := List.nodup_nil
  made found := by cases found
  greeting greeted := by cases greeted
  current found := by cases found
  candidate found := by cases found
  single found := by cases found
  fresh found := by cases found
  only found := by cases found
  replaced found := by cases found

variable {runtime next : Runtime} {id : ConnectionId} {session : Session}

/-- Nothing is selected: peers and connections are only forgotten, closed, established or
accepted. -/
structure Rests (runtime next : Runtime) : Prop where
  config : next.config = runtime.config
  distinct : runtime.peers.Distinct → next.peers.Distinct
  made : runtime.nextConnectionId ≤ next.nextConnectionId
  kept : ∀ {id before}, runtime.facet id = some before →
    ∃ after, next.facet id = some after ∧ before.Ages after
  accepted : ∀ {id after}, next.facet id = some after → runtime.facet id = none →
    id < next.nextConnectionId ∧ after.address = none ∧ after.closed ≠ some .replaced
  /-- A handshake goes on until the session establishes, and none begins. -/
  greeting : ∀ {id before after}, runtime.facet id = some before → next.facet id = some after →
    after.established = false → runtime.driver.greeted = some id → next.driver.greeted = some id
  greeted : ∀ {id}, next.driver.greeted = some id → runtime.driver.greeted = some id
  established : ∀ {id after}, next.facet id = some after → after.established = true →
    (∃ before, runtime.facet id = some before ∧ before.established = true) ∨
      runtime.driver.greeted = some id
  known : ∀ {address peer}, next.peers.get address = some peer →
    (peer.current = none ∧ peer.candidate = none) ∨
    ∃ earlier, runtime.peers.get address = some earlier ∧
      (peer.current = none ∨ peer.current = earlier.current) ∧
      (peer.candidate = none ∨ peer.candidate = earlier.candidate)
  /-- An open selected connection stays selected. -/
  tenured : ∀ {address peer id before after}, runtime.peers.get address = some peer →
    peer.current = some id → runtime.facet id = some before → next.facet id = some after →
    after.closed = none → ∃ later, next.peers.get address = some later ∧ later.current = some id

section

variable {address : SocketAddr} {peer : Peer} (rests : Rests runtime next)
  (found : next.peers.get address = some peer)

include rests found

theorem Rests.candidate (named : peer.candidate = some id) :
    ∃ earlier, runtime.peers.get address = some earlier ∧ earlier.candidate = some id := by
  rcases rests.known found with ⟨-, unnamed⟩ | ⟨earlier, known, -, unnamed | same⟩
  · cases unnamed.symm.trans named
  · cases unnamed.symm.trans named
  · exact ⟨earlier, known, same.symm.trans named⟩

theorem Rests.current (named : peer.current = some id) :
    ∃ earlier, runtime.peers.get address = some earlier ∧ earlier.current = some id := by
  rcases rests.known found with ⟨unnamed, -⟩ | ⟨earlier, known, unnamed | same, -⟩
  · cases unnamed.symm.trans named
  · cases unnamed.symm.trans named
  · exact ⟨earlier, known, same.symm.trans named⟩

end

theorem Rests.aged {after : Facet} (rests : Rests runtime next)
    (found : next.facet id = some after) :
    (∃ before, runtime.facet id = some before ∧ before.Ages after) ∨
      runtime.facet id = none ∧ id < next.nextConnectionId ∧ after.address = none ∧
        after.closed ≠ some .replaced := by
  cases earlier : runtime.facet id with
  | none => exact .inr ⟨rfl, rests.accepted found earlier⟩
  | some before =>
    obtain ⟨later, located, ages⟩ := rests.kept earlier
    cases found.symm.trans located
    exact .inl ⟨before, rfl, ages⟩

theorem Rests.selected {after : Facet} {address : SocketAddr} (rests : Rests runtime next)
    (found : next.facet id = some after) (selected : after.address = some address) :
    ∃ before, runtime.facet id = some before ∧ before.Ages after := by
  rcases rests.aged found with known | ⟨-, -, unselected, -⟩
  · exact known
  · cases unselected.symm.trans selected

theorem Rests.trans {last : Runtime} (first : Rests runtime next) (second : Rests next last) :
    Rests runtime last where
  config := second.config.trans first.config
  distinct distinct := second.distinct (first.distinct distinct)
  made := le_trans first.made second.made
  kept found := by
    obtain ⟨middle, located, ages⟩ := first.kept found
    obtain ⟨after, located, further⟩ := second.kept located
    exact ⟨after, located, ages.trans further⟩
  accepted found absent := by
    rcases second.aged found with ⟨middle, located, ages⟩ | ⟨-, accepted⟩
    · obtain ⟨within, unselected, unreplaced⟩ := first.accepted located absent
      exact ⟨lt_of_lt_of_le within second.made, ages.address.trans unselected,
        fun replaced => unreplaced (ages.replaced replaced)⟩
    · exact accepted
  greeting earlier found unestablished greeted := by
    obtain ⟨middle, located, ages⟩ := first.kept earlier
    obtain ⟨after, later, further⟩ := second.kept located
    cases found.symm.trans later
    have early := further.unestablished unestablished
    exact second.greeting located found unestablished
      (first.greeting earlier located early greeted)
  greeted busy := first.greeted (second.greeted busy)
  established found established := by
    rcases second.established found established with ⟨middle, located, early⟩ | greeted
    · exact first.established located early
    · exact .inr (first.greeted greeted)
  known found := by
    rcases second.known found with unnamed | ⟨middle, known, current, candidate⟩
    · exact .inl unnamed
    rcases first.known known with ⟨noCurrent, noCandidate⟩ | ⟨earlier, known, before, former⟩
    · exact .inl ⟨current.elim id (·.trans noCurrent), candidate.elim id (·.trans noCandidate)⟩
    refine .inr ⟨earlier, known, current.elim .inl ?_, candidate.elim .inl ?_⟩
    · intro same
      rwa [same]
    · intro same
      rwa [same]
  tenured found named earlier later opened := by
    obtain ⟨middle, located, ages⟩ := first.kept earlier
    obtain ⟨after, final, further⟩ := second.kept located
    cases later.symm.trans final
    obtain ⟨peer, known, named⟩ := first.tenured found named earlier located (further.opened opened)
    exact second.tenured known named located later opened

theorem Sound.rest (sound : runtime.Sound) (rests : Rests runtime next) : next.Sound where
  distinct := rests.distinct sound.distinct
  made found := by
    rcases rests.aged found with ⟨before, earlier, -⟩ | ⟨-, within, -⟩
    · exact lt_of_lt_of_le (sound.made earlier) rests.made
    · exact within
  greeting greeted := by
    obtain ⟨before, found⟩ := sound.greeting (rests.greeted greeted)
    obtain ⟨after, located, -⟩ := rests.kept found
    exact ⟨after, located⟩
  current found named := by
    obtain ⟨earlier, known, named⟩ := rests.current found named
    obtain ⟨before, located, selected⟩ := sound.current known named
    obtain ⟨after, located, ages⟩ := rests.kept located
    exact ⟨after, located, ages.address.trans selected⟩
  candidate found named := by
    obtain ⟨earlier, known, named⟩ := rests.candidate found named
    obtain ⟨before, located, inbound, selected⟩ := sound.candidate known named
    obtain ⟨after, located, ages⟩ := rests.kept located
    exact ⟨after, located, ages.direction.trans inbound, ages.address ▸ selected⟩
  single found foundOther named namedOther := by
    obtain ⟨earlier, known, named⟩ := rests.candidate found named
    obtain ⟨rival, knownOther, namedOther⟩ := rests.candidate foundOther namedOther
    exact sound.single known knownOther named namedOther
  fresh {id after} found inbound unestablished ungreeted := by
    rcases rests.aged found with ⟨before, earlier, ages⟩ | ⟨absent, -, unselected, -⟩
    · obtain ⟨unselected, unnamed⟩ := sound.fresh earlier (ages.direction ▸ inbound)
        (ages.unestablished unestablished)
        (fun greeted => ungreeted (rests.greeting earlier found unestablished greeted))
      refine ⟨ages.address.trans unselected, fun known named => ?_⟩
      obtain ⟨peer, known, named⟩ := rests.candidate known named
      exact unnamed known named
    · refine ⟨unselected, fun known named => ?_⟩
      obtain ⟨peer, known, named⟩ := rests.candidate known named
      obtain ⟨facet, located, -⟩ := sound.candidate known named
      cases absent.symm.trans located
  only found selected opened := by
    obtain ⟨before, earlier, ages⟩ := rests.selected found selected
    obtain ⟨peer, known, named⟩ := sound.only earlier (ages.address ▸ selected) (ages.opened opened)
    exact rests.tenured known named earlier found opened
  replaced found closed := by
    rcases rests.aged found with ⟨before, earlier, ages⟩ | ⟨-, -, -, unreplaced⟩
    · obtain ⟨address, other, adopted, selected, differs, located, inbound, same⟩ :=
        sound.replaced earlier (ages.replaced closed)
      obtain ⟨after, located, adoptedAges⟩ := rests.kept located
      exact ⟨address, other, after, ages.address.trans selected, differs, located,
        adoptedAges.direction.trans inbound, adoptedAges.address.trans same⟩
    · exact absurd closed unreplaced

theorem Rests.of_facets (config : next.config = runtime.config)
    (peers : next.peers = runtime.peers) (made : next.nextConnectionId = runtime.nextConnectionId)
    (greeting : ∀ {id after}, next.facet id = some after → after.established = false →
      runtime.driver.greeted = some id → next.driver.greeted = some id)
    (greeted : ∀ {id}, next.driver.greeted = some id → runtime.driver.greeted = some id)
    (facets : ∀ id, Option.Rel (fun before after => before.Ages after ∧
      (after.established = true → before.established = true ∨ runtime.driver.greeted = some id))
      (runtime.facet id) (next.facet id)) :
    Rests runtime next where
  config := config
  distinct distinct := peers ▸ distinct
  made := le_of_eq made.symm
  kept {id before} found := by
    have aged := facets id
    rw [found] at aged
    generalize next.facet id = after at aged ⊢
    cases aged with
    | some ages => exact ⟨_, rfl, ages.1⟩
  accepted {id after} found absent := by
    have aged := facets id
    rw [found, absent] at aged
    cases aged
  greeting _ := greeting
  greeted := greeted
  established {id after} found established := by
    have aged := facets id
    rw [found] at aged
    generalize runtime.facet id = before at aged ⊢
    cases aged with
    | some ages => exact (ages.2 established).imp_left fun early => ⟨_, rfl, early⟩
  known found := by
    rw [peers] at found
    exact .inr ⟨_, found, .inr rfl, .inr rfl⟩
  tenured found named _ _ _ := ⟨_, peers ▸ found, named⟩

theorem Drifts.rests (drifts : Drifts runtime next) : Rests runtime next := by
  refine .of_facets drifts.config drifts.peers drifts.made
    (fun _ _ greeted => drifts.greeted.trans greeted)
    (fun greeted => drifts.greeted.symm.trans greeted) (fun id => ?_)
  have faded := drifts.facets id
  generalize runtime.facet id = before at faded ⊢
  generalize next.facet id = after at faded ⊢
  cases faded with
  | none => exact .none
  | some fades => exact .some ⟨fades.ages, fun late => .inl (fades.established ▸ late)⟩

theorem Rests.refl (runtime : Runtime) : Rests runtime runtime := Drifts.rests (.refl runtime)

theorem rests_peers {peers : Peers} (runtime : Runtime)
    (distinct : runtime.peers.Distinct → peers.Distinct)
    (known : ∀ {address peer}, peers.get address = some peer →
      (peer.current = none ∧ peer.candidate = none) ∨
      ∃ earlier, runtime.peers.get address = some earlier ∧
        (peer.current = none ∨ peer.current = earlier.current) ∧
        (peer.candidate = none ∨ peer.candidate = earlier.candidate))
    (tenured : ∀ {address peer id facet}, runtime.peers.get address = some peer →
      peer.current = some id → runtime.facet id = some facet → facet.closed = none →
      ∃ later, peers.get address = some later ∧ later.current = some id) :
    Rests runtime { runtime with peers } where
  config := rfl
  distinct := distinct
  made := le_refl _
  kept found := ⟨_, found, .refl _⟩
  accepted found absent := by cases absent.symm.trans found
  greeting _ _ _ greeted := greeted
  greeted greeted := greeted
  established found established := .inl ⟨_, found, established⟩
  known := known
  tenured found named _ located opened := tenured found named located opened

theorem rests_update {change : Peer → Peer} (runtime : Runtime) (address : SocketAddr)
    (same : ∀ peer, ((change peer).current = none ∨ (change peer).current = peer.current) ∧
      (change peer).candidate = peer.candidate)
    (tenured : ∀ {peer id facet}, peer.current = some id → runtime.facet id = some facet →
      facet.closed = none → (change peer).current = some id) :
    Rests runtime { runtime with peers := runtime.peers.update address change } := by
  refine rests_peers runtime (fun distinct => distinct.update address change) ?_ ?_
  · intro other peer found
    rw [Peers.get_update] at found
    split at found
    next equal =>
      obtain ⟨earlier, known, rfl⟩ := Option.map_eq_some_iff.mp found
      exact .inr ⟨earlier, equal ▸ known, (same earlier).1, .inr (same earlier).2⟩
    · exact .inr ⟨peer, found, .inr rfl, .inr rfl⟩
  · intro other peer id facet found named located opened
    rw [Peers.get_update]
    split
    next equal =>
      rw [← equal, found]
      exact ⟨change peer, rfl, tenured named located opened⟩
    · exact ⟨peer, found, named⟩

theorem rests_put (runtime : Runtime) (address : SocketAddr) (policy : PeerPolicy) :
    Rests runtime { runtime with
      peers := runtime.peers.put address ((runtime.peers.get address).getD (.new policy)) } := by
  refine rests_peers runtime (fun distinct => distinct.put address _) ?_ ?_
  · intro other peer found
    rw [Peers.get_put] at found
    split at found
    next equal =>
      cases found
      cases known : runtime.peers.get address with
      | none => exact .inl ⟨rfl, rfl⟩
      | some earlier => exact .inr ⟨earlier, equal ▸ known, .inr rfl, .inr rfl⟩
    · exact .inr ⟨peer, found, .inr rfl, .inr rfl⟩
  · intro other peer id facet found named _ _
    rw [Peers.get_put]
    split
    next equal =>
      rw [← equal, found]
      exact ⟨peer, rfl, named⟩
    · exact ⟨peer, found, named⟩

theorem standing_of_open {peer : Peer} {facet : Facet} (named : peer.current = some id)
    (found : runtime.facet id = some facet) (opened : facet.closed = none) :
    runtime.standing peer = some ⟨id, facet.direction, facet.established⟩ := by
  obtain ⟨session, present, rfl⟩ := Option.map_eq_some_iff.mp found
  have opened : session.connection.isClosed = false := by
    rw [Connection.isClosed, show session.connection.closed = none from opened]
    rfl
  simp [standing, named, present, opened, Connection.facet]

theorem rests_trimPeers (sound : runtime.Sound) (address : SocketAddr) (now : Duration) :
    Rests runtime (runtime.trimPeers address now) := by
  unfold trimPeers
  split
  · refine rests_peers runtime (fun distinct => distinct.filter _) ?_ ?_
    · intro other peer found
      have member := (List.mem_filter.mp (Peers.mem_of_get found)).1
      exact .inr ⟨peer, sound.distinct.get member, .inr rfl, .inr rfl⟩
    · intro other peer id facet found named located opened
      have live := standing_of_open named located opened
      refine ⟨peer, (sound.distinct.filter _).get (List.mem_filter.mpr
        ⟨Peers.mem_of_get found, ?_⟩), named⟩
      simp [Peer.isForgettable, live]
  · exact .refl runtime

theorem rests_newConnection (sound : runtime.Sound) (peer : Option SocketAddr) (now : Duration) :
    Rests runtime (runtime.newConnection peer .inbound now).1 := by
  have facets : ∀ other, (runtime.newConnection peer .inbound now).1.facet other =
      if other = runtime.nextConnectionId then some ⟨.inbound, false, none, none⟩
      else runtime.facet other :=
    fun other => facet_setSession runtime _ other _
  have known : ∀ {other facet}, runtime.facet other = some facet →
      (runtime.newConnection peer .inbound now).1.facet other = some facet := by
    intro other facet found
    rw [facets, if_neg (ne_of_lt (sound.made found)), found]
  refine ⟨rfl, fun distinct => distinct, Nat.le_succ _, fun found => ⟨_, known found, .refl _⟩,
    fun found absent => ?_, fun _ _ _ greeted => greeted, fun greeted => greeted,
    fun found established => ?_, fun found => .inr ⟨_, found, .inr rfl, .inr rfl⟩,
    fun found named _ _ _ => ⟨_, found, named⟩⟩
  · rw [facets] at found
    split at found
    next same =>
      cases found
      exact ⟨same ▸ Nat.lt_succ_self _, rfl, by simp⟩
    · cases absent.symm.trans found
  · rw [facets] at found
    split at found
    · cases found
      cases established
    · exact .inl ⟨_, found, established⟩

theorem rests_ended {returned : CloseReason} (found : runtime.sessions id = some session)
    (reported : returned = .replaced → session.connection.isClosed = true) (now : Duration) :
    Rests runtime (runtime.ended id session returned now) := by
  have fades : session.connection.facet.Fades (session.connection.close returned).facet := by
    by_cases replaced : returned = .replaced
    · have closed := reported replaced
      obtain ⟨reason, closed⟩ := Option.isSome_iff_exists.mp closed
      have same : (session.connection.close returned).facet = session.connection.facet := by
        simp [Connection.facet, Connection.close, closed]
      rw [same]
      exact .same
    · exact session.connection.fades_close replaced
  have closes : Rests runtime (runtime.setSession id
      ⟨session.connection.close returned, false, .ended⟩) :=
    (drifts_setSession found fades).rests
  unfold ended
  split
  · exact closes
  next address _ =>
    refine closes.trans (rests_update _ address (fun peer => ?_) ?_)
    · split
      · exact ⟨.inl rfl, rfl⟩
      · exact ⟨.inr rfl, rfl⟩
    · intro peer named facet current located opened
      have differs : named ≠ id := by
        rintro rfl
        rw [facet_setSession, if_pos rfl] at located
        cases located
        cases opened
      simp [current, differs]

theorem rests_establish {accepted : PeerHello} {phase : Phase} {now : Duration}
    (greeting : runtime.driver = .greeting id accepted)
    (found : runtime.sessions id = some session) (calm : phase.greeted = none) :
    Rests runtime { runtime.setSession id
      { session with connection := session.connection.establish accepted now } with
        driver := phase } := by
  have facets : ∀ other, Runtime.facet { runtime.setSession id
      { session with connection := session.connection.establish accepted now } with
        driver := phase } other =
      if other = id then some { session.connection.facet with established := true }
      else runtime.facet other :=
    fun other => facet_setSession runtime id other _
  refine .of_facets rfl rfl rfl ?_ (fun greeted => ?_) (fun other => ?_)
  · intro other after located unestablished greeted
    rw [greeting] at greeted
    cases greeted
    rw [facets, if_pos rfl] at located
    cases located
    cases unestablished
  · cases calm.symm.trans greeted
  · rw [facets]
    split
    next same =>
      rw [same, facet_of_found found]
      refine .some ⟨⟨rfl, rfl, fun _ => rfl, fun kept => kept, fun kept => kept⟩, fun _ => .inr ?_⟩
      rw [greeting]
      rfl
    · cases runtime.facet other with
      | none => exact .none
      | some facet => exact .some ⟨.refl facet, fun kept => .inl kept⟩

end Runtime

end Moonpool.Rpc
