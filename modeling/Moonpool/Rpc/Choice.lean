import Moonpool.Rpc.Carrying

/-!
Owns what choosing, making and adopting a connection to a peer does to the lives of calls.
-/

namespace Moonpool.Rpc.Runtime

open Option

variable {runtime next : Runtime} {id : ConnectionId}

/-- Neither the driver nor the next call id changes. -/
structure Quiet (runtime next : Runtime) : Prop where
  driver : next.driver = runtime.driver
  ids : next.nextCallId = runtime.nextCallId

theorem Quiet.refl (runtime : Runtime) : Quiet runtime runtime := ⟨rfl, rfl⟩

theorem Quiet.trans {last : Runtime} (first : Quiet runtime next) (second : Quiet next last) :
    Quiet runtime last :=
  ⟨second.driver.trans first.driver, second.ids.trans first.ids⟩

theorem quiet_onConnection (runtime : Runtime) (id : ConnectionId)
    (change : Connection → Connection) : Quiet runtime (runtime.onConnection id change) := by
  unfold onConnection
  split
  · exact .refl runtime
  · exact ⟨rfl, rfl⟩

theorem quiet_takeOver (runtime : Runtime) (id old : ConnectionId) (session : Session)
    (now : Duration) : Quiet runtime (runtime.takeOver id old session now) := by
  unfold takeOver
  simp only [foldl_moveCall]
  refine .trans ?_ (quiet_onConnection _ _ _)
  refine .trans ?_ (quiet_onConnection _ _ _)
  exact { quiet_onConnection _ _ _ with }

theorem quiet_choose (runtime : Runtime) (listen : SocketAddr) (id : ConnectionId)
    (now : Duration) : Quiet runtime (runtime.choose listen id now) :=
  { quiet_onConnection runtime id _ with }

theorem quiet_adopt (runtime : Runtime) (listen : SocketAddr) (id : ConnectionId)
    (replaced : Option ConnectionId) (now : Duration) :
    Quiet runtime (runtime.adopt listen id replaced now) := by
  have chosen := quiet_choose runtime listen id now
  unfold adopt
  simp only
  split
  · exact chosen
  · split
    · exact chosen
    · exact chosen.trans (quiet_takeOver _ _ _ _ _)

theorem evolves_selectFor (session : Session) (listen : SocketAddr) :
    session.Evolves { session with connection := session.connection.selectFor listen } :=
  ⟨rfl, fun _ => rfl, id, id, id, id⟩

variable {session : Session} {peer : Peer}

theorem trimPeers_eq (runtime : Runtime) (address : SocketAddr) (now : Duration) :
    ∃ peers : Peers, (∀ entry ∈ peers, entry ∈ runtime.peers) ∧
      runtime.trimPeers address now = { runtime with peers } := by
  unfold trimPeers
  split
  · exact ⟨_, fun entry member => (List.mem_filter.mp member).1, rfl⟩
  · exact ⟨runtime.peers, fun entry member => member, rfl⟩

def dialed (runtime : Runtime) (address : SocketAddr) (now : Duration) : Session :=
  ⟨(Connection.new runtime.nextConnectionId (some address) .outbound runtime.config.hello
    runtime.config.limits now).selectFor address, true, .connecting⟩

theorem select_spec (runtime : Runtime) (address : SocketAddr) (now : Duration) :
    (runtime.select address now).2 = runtime.nextConnectionId ∧
      Quiet runtime (runtime.select address now).1 ∧
      (runtime.select address now).1.pending = runtime.pending ∧
      (runtime.select address now).1.nextConnectionId = runtime.nextConnectionId + 1 ∧
      (runtime.select address now).1.sessions runtime.nextConnectionId =
        some (runtime.dialed address now) ∧
      (∀ other, other ≠ runtime.nextConnectionId →
        (runtime.select address now).1.sessions other = runtime.sessions other) ∧
      (∀ entry ∈ (runtime.select address now).1.peers,
        entry ∈ runtime.peers ∨ entry.2.current = some runtime.nextConnectionId) ∧
      (runtime.select address now).1.config = runtime.config ∧
      (runtime.select address now).1.peers =
        (runtime.trimPeers address now).peers.put address
          { ((runtime.trimPeers address now).peers.get address).getD (.new runtime.config.peer) with
            current := some runtime.nextConnectionId } := by
  obtain ⟨peers, kept, same⟩ := trimPeers_eq runtime address now
  have made : (newConnection { runtime with peers } (some address) .outbound now).1.sessions
      runtime.nextConnectionId = some ⟨.new runtime.nextConnectionId (some address) .outbound
        runtime.config.hello runtime.config.limits now, true, .connecting⟩ :=
    setSession_same runtime _ _
  unfold select
  simp only [same]
  have chosen := onConnection_of_found made (·.selectFor address)
  refine ⟨rfl, ?_⟩
  rw [show (newConnection { runtime with peers } (some address) .outbound now).2 =
    runtime.nextConnectionId from rfl, chosen]
  refine ⟨⟨rfl, rfl⟩, rfl, rfl, setSession_same _ _ _, fun other differs => ?_, ?_, rfl, rfl⟩
  · exact (setSession_other _ _ differs).trans (setSession_other runtime _ differs)
  · intro entry member
    rcases Peers.mem_of_put member with rfl | earlier
    · exact .inr rfl
    · exact .inl (kept entry earlier)

theorem standing_eq {current : Standing}
    (live : runtime.standing peer = some current) :
    peer.current = some current.connection ∧
      ∃ session, runtime.sessions current.connection = some session ∧
        session.connection.isClosed = false ∧
        session.connection.established = current.established ∧
        session.connection.direction = current.direction := by
  obtain ⟨id, chosen, live⟩ := bind_eq_some_iff.mp live
  obtain ⟨session, found, live⟩ := bind_eq_some_iff.mp live
  split at live
  · cases live
  next opened =>
    cases live
    exact ⟨chosen, session, found, by simpa using opened, rfl, rfl⟩

theorem usableCandidate_eq (usable : runtime.usableCandidate peer = some id) :
    peer.candidate = some id ∧ ∃ session, runtime.sessions id = some session ∧
      session.connection.isClosed = false ∧ session.connection.established = true := by
  obtain ⟨candidate, named, usable⟩ := bind_eq_some_iff.mp usable
  obtain ⟨session, found, usable⟩ := bind_eq_some_iff.mp usable
  split at usable
  · cases usable
  next opened =>
    cases usable
    exact ⟨named, session, found, by simpa using opened⟩

/-- A remembered candidate is taken when dialing has stalled, in place of an unestablished session. -/
theorem adoptsCandidate_spec {live : Option Standing} {usable : Bool} {now delay : Duration}
    {replaced : Option ConnectionId}
    (adopts : peer.adoptsCandidate live usable now delay = some replaced) :
    peer.dialingStalled now delay = true ∧ replaced = live.map Standing.connection ∧
      ∀ current, live = some current → current.established = false := by
  unfold Peer.adoptsCandidate at adopts
  split at adopts
  next stalled =>
    split at adopts
    · cases adopts
      exact ⟨stalled.1, rfl, fun current impossible => by cases impossible⟩
    next current =>
      split at adopts
      · cases adopts
      next unestablished =>
        cases adopts
        refine ⟨stalled.1, rfl, fun other same => ?_⟩
        cases same
        simpa using unestablished
  · cases adopts

theorem quiet_peerConnection (runtime : Runtime) (address : SocketAddr) (now : Duration) :
    Quiet runtime (runtime.peerConnection address now).1 := by
  unfold peerConnection
  split
  · exact .refl runtime
  simp only
  split
  · exact quiet_adopt _ _ _ _ _
  · exact .refl runtime
  · split
    · exact .refl runtime
    · obtain ⟨-, quiet, -⟩ := select_spec runtime address now
      unfold dial
      simp only
      split
      · exact quiet
      · split
        · exact quiet
        · exact { quiet with }

variable [Xxh3]

theorem coherent_selectFor (coherent : session.Coherent)
    (listen : SocketAddr) :
    Session.Coherent { session with connection := session.connection.selectFor listen } :=
  { coherent with }

theorem Founded.listed_of_open (founded : runtime.Founded)
    (found : runtime.sessions id = some session)
    (opened : session.connection.isClosed = false) : session.listed = true := by
  by_contra unlisted
  have closed := (founded.known found).2.2.unlisted (by simpa using unlisted)
  rw [opened] at closed
  cases closed

section

variable {target : Session}

section

variable (found : runtime.sessions id = some target) (listen : SocketAddr) (now : Duration)

include found listen now

omit [Xxh3] in
theorem choose_sessions :
    (runtime.choose listen id now).sessions =
      (runtime.setSession id
        { target with connection := target.connection.selectFor listen }).sessions := by
  unfold choose
  rw [onConnection_of_found found]

theorem Founded.chooses (founded : runtime.Founded) :
    Advances runtime [] (runtime.choose listen id now) := by
  unfold choose
  rw [onConnection_of_found found]
  have evolves := evolves_selectFor target listen
  have chosen := advances_setSession founded found evolves
    (coherent_selectFor (founded.known found).2.2 listen) (fun _ => le_refl _)
  refine chosen.trans (advances_rest chosen.founded rfl rfl rfl rfl rfl ?_)
  intro entry member other current
  rcases Peers.mem_of_update member with kept | ⟨peer, -, rfl⟩
  · exact chosen.founded.selected kept current
  · cases current
    exact ⟨_, setSession_same _ _ _, rfl⟩

omit [Xxh3] in
theorem choose_target : (runtime.choose listen id now).sessions id =
    some { target with connection := target.connection.selectFor listen } := by
  rw [choose_sessions found, setSession_same]

omit [Xxh3] in
theorem keeps_adopt (replaced : Option ConnectionId) :
    Keeps runtime (runtime.adopt listen id replaced now) ∧
      (runtime.adopt listen id replaced now).Selected id := by
  have sessions := choose_sessions found listen now
  have chosen : Keeps runtime (runtime.choose listen id now) := by
    intro other session located
    rw [sessions]
    exact keeps_setSession found (evolves_selectFor target listen) other session located
  have targetAt := choose_target found listen now
  have selected : (runtime.choose listen id now).Selected id := ⟨_, targetAt, rfl⟩
  unfold adopt
  simp only
  split
  · exact ⟨chosen, selected⟩
  split
  · exact ⟨chosen, selected⟩
  next session foundOld =>
    obtain ⟨getting, gettingAt, -⟩ :=
      keeps_setSession foundOld (evolves_emptied session) _ _ targetAt
    have taken := keeps_takeOver gettingAt foundOld now
    exact ⟨chosen.trans taken, selected.keep taken⟩

/-- Adopting a session, in place of another one or of none, lives every call on. -/
theorem Filed.adopts {replaced : Option ConnectionId} (filed : runtime.Filed)
    (listed : target.listed = true)
    (calm : runtime.driver = .idle ∨ target.connection.isClosed = false ∧
      ∀ old session, replaced = some old → runtime.sessions old = some session →
        session.connection.established = false) :
    Advances runtime [] (runtime.adopt listen id replaced now) := by
  have chosen := filed.toFounded.chooses found listen now
  have sessions := choose_sessions found listen now
  have quiet := quiet_choose runtime listen id now
  have targetAt := choose_target found listen now
  unfold adopt
  simp only
  split
  · exact chosen
  next old =>
    split
    · exact chosen
    next session foundOld =>
      refine chosen.trans ((filed.advance chosen).takesOver foundOld targetAt listed rfl ?_ now)
      refine calm.imp (fun idle => quiet.driver.trans idle) (fun both => ⟨both.1, ?_⟩)
      by_cases same : old = id
      · rw [same, targetAt] at foundOld
        cases foundOld
        exact both.2 old target rfl (same ▸ found)
      · rw [sessions, setSession_other _ _ same] at foundOld
        exact both.2 old session rfl foundOld

end

end

theorem Filed.unmade (filed : runtime.Filed) :
    runtime.sessions runtime.nextConnectionId = none := by
  cases found : runtime.sessions runtime.nextConnectionId with
  | none => rfl
  | some session => exact absurd (filed.known found).1 (lt_irrefl _)

theorem Filed.makes {made : Session} (filed : runtime.Filed)
    (pending : next.pending = runtime.pending) (quiet : Quiet runtime next)
    (fresh : next.sessions runtime.nextConnectionId = some made)
    (others : ∀ other, other ≠ runtime.nextConnectionId →
      next.sessions other = runtime.sessions other)
    (connections : next.nextConnectionId = runtime.nextConnectionId + 1)
    (coherent : made.Coherent) (named : made.connection.id = runtime.nextConnectionId)
    (empty : made.connection.requests = [])
    (selected : ∀ {entry}, entry ∈ next.peers → ∀ {id}, entry.2.current = some id →
      runtime.Selected id ∨ next.Selected id) : Advances runtime [] next := by
  have unmade := filed.unmade
  have keeps : Keeps runtime next := by
    intro other session found
    have differs : other ≠ runtime.nextConnectionId := by
      rintro rfl
      rw [unmade] at found
      cases found
    exact ⟨session, (others other differs).trans found, .refl session⟩
  refine ⟨filed.toFounded.evolve (fun found => pending ▸ found) (le_of_eq quiet.ids.symm)
    quiet.driver ?_ keeps (fun member _ current => (selected member current).elim
      (fun earlier => earlier.keep keeps) (fun now => now)), ?_⟩
  · intro other session found
    rw [connections]
    by_cases same : other = runtime.nextConnectionId
    · rw [same, fresh] at found
      cases found
      rw [same]
      exact ⟨Nat.lt_succ_self _, named, coherent⟩
    · rw [others other same] at found
      obtain ⟨before, identity, coherent⟩ := filed.known found
      exact ⟨Nat.lt_succ_of_lt before, identity, coherent⟩
  · refine simulates_of_fewer quiet.ids pending (fun call other => ?_)
    have hand : next.inHand call other = runtime.inHand call other := by
      unfold inHand
      rw [quiet.driver]
    unfold frames
    rw [hand]
    apply Nat.add_le_add_right
    by_cases same : other = runtime.nextConnectionId
    · rw [same, queuedOn_of_found fresh, empty]
      exact Nat.zero_le _
    · unfold queuedOn
      exact le_of_eq (by rw [others other same])

theorem coherent_new (id : ConnectionId) (peer : Option SocketAddr) (direction : Direction)
    (hello : List UInt8) (limits : QueueLimits) (now : Duration) :
    Session.Coherent ⟨.new id peer direction hello limits now, true, .connecting⟩ where
  emptied _ := rfl
  unlisted gone := by cases gone
  current _ := rfl
  connecting _ := rfl
  greeted done := by cases done
  failed _ closed := by cases closed
  encoded _ member := by cases member

theorem coherent_ended (coherent : session.Coherent) (reason : CloseReason) :
    Session.Coherent ⟨session.connection.close reason, false, .ended⟩ where
  emptied _ := rfl
  unlisted _ := rfl
  current early := absurd rfl early
  connecting late := by cases late
  greeted := coherent.greeted
  failed _ _ _ := rfl
  encoded _ member := by cases member

theorem Filed.accepts (filed : runtime.Filed) (peer : Option SocketAddr) (direction : Direction)
    (now : Duration) : Advances runtime [] (runtime.newConnection peer direction now).1 := by
  have sessions : (runtime.newConnection peer direction now).1.sessions =
      (runtime.setSession runtime.nextConnectionId ⟨.new runtime.nextConnectionId peer direction
        runtime.config.hello runtime.config.limits now, true, .connecting⟩).sessions := rfl
  refine filed.makes rfl ⟨rfl, rfl⟩ (sessions ▸ setSession_same _ _ _)
    (fun other differs => sessions ▸ setSession_other _ _ differs) rfl
    (coherent_new _ _ _ _ _ _) rfl rfl (fun member _ current => ?_)
  exact .inl (filed.selected member current)

theorem Founded.trims (founded : runtime.Founded) (address : SocketAddr) (now : Duration) :
    Advances runtime [] (runtime.trimPeers address now) := by
  obtain ⟨peers, kept, same⟩ := trimPeers_eq runtime address now
  rw [same]
  exact advances_rest founded rfl rfl rfl rfl rfl
    (fun member _ current => founded.selected (kept _ member) current)

theorem Filed.dials (filed : runtime.Filed) (address : SocketAddr) (now : Duration) :
    Advances runtime [] (runtime.dial address now).1 ∧
      ∀ id, (runtime.dial address now).2 = .ok id → (runtime.dial address now).1.Selected id := by
  obtain ⟨named, quiet, pending, connections, made, others, peers, -⟩ :=
    select_spec runtime address now
  have fresh := coherent_selectFor (coherent_new runtime.nextConnectionId (some address) .outbound
    runtime.config.hello runtime.config.limits now) address
  have selected : ∀ {next : Runtime}, next.Selected runtime.nextConnectionId →
      ∀ {entry}, entry ∈ (runtime.select address now).1.peers → ∀ {id},
        entry.2.current = some id → runtime.Selected id ∨ next.Selected id := by
    intro next chosen entry member id current
    rcases peers _ member with earlier | now
    · exact .inl (filed.selected earlier current)
    · cases now.symm.trans current
      exact .inr chosen
  unfold dial
  simp only
  split
  · refine ⟨filed.makes pending quiet made others connections fresh rfl rfl
      (selected ⟨_, made, rfl⟩), ?_⟩
    rintro id ⟨⟩
    rw [named]
    exact ⟨_, made, rfl⟩
  · rw [named, made]
    refine ⟨?_, fun id gone => by cases gone⟩
    exact filed.makes pending { quiet with } (setSession_same _ _ _)
      (fun other differs => (setSession_other _ _ differs).trans (others other differs)) connections
      (coherent_ended fresh .fromHere) rfl rfl (selected ⟨_, setSession_same _ _ _, rfl⟩)

/-- Whichever connection is chosen for a peer, every call lives on, and it is a selected one. -/
theorem Filed.connects (filed : runtime.Filed) (address : SocketAddr) (now : Duration) :
    Advances runtime [] (runtime.peerConnection address now).1 ∧
      ∀ id, (runtime.peerConnection address now).2 = .ok id →
        (runtime.peerConnection address now).1.Selected id := by
  have stays : Advances runtime [] runtime := .refl filed.toFounded
  unfold peerConnection
  split
  · exact ⟨stays, fun id gone => by cases gone⟩
  simp only
  split
  next id replaced usable choice =>
    obtain ⟨peer, -, usable⟩ := bind_eq_some_iff.mp usable
    obtain ⟨-, target, found, opened, -⟩ := usableCandidate_eq usable
    have listed := filed.toFounded.listed_of_open found opened
    have unestablished : ∀ old session, replaced = some old →
        runtime.sessions old = some session → session.connection.established = false := by
      rintro old session rfl located
      obtain ⟨peer, -, adopts⟩ := bind_eq_some_iff.mp choice
      obtain ⟨-, same, unestablished⟩ := adoptsCandidate_spec adopts
      obtain ⟨current, live, rfl⟩ := map_eq_some_iff.mp same.symm
      have early := unestablished current live
      obtain ⟨peer, -, live⟩ := bind_eq_some_iff.mp live
      obtain ⟨-, standing, standingAt, -, same, -⟩ := standing_eq live
      obtain rfl := some.inj (standingAt.symm.trans located)
      exact same.trans early
    refine ⟨filed.adopts found address now listed (.inr ⟨opened, unestablished⟩),
      fun other same => ?_⟩
    cases same
    exact (keeps_adopt found address now replaced).2
  next current live _ =>
    refine ⟨stays, fun id same => ?_⟩
    cases same
    obtain ⟨peer, located, live⟩ := bind_eq_some_iff.mp live
    exact filed.selected (Peers.mem_of_get located) (standing_eq live).1
  · split
    · exact ⟨stays, fun id gone => by cases gone⟩
    · exact filed.dials address now

theorem Filed.selectsInbound {target : Session} (filed : runtime.Filed)
    (idle : runtime.driver = .idle) (found : runtime.sessions id = some target)
    (listed : target.listed = true) (connection : Connection) (listen : SocketAddr)
    (now : Duration) :
    Advances runtime [] (runtime.selectInbound id connection listen now) ∧
      Quiet runtime (runtime.selectInbound id connection listen now) ∧
      Keeps runtime (runtime.selectInbound id connection listen now) := by
  have stays : Advances runtime [] runtime ∧ Quiet runtime runtime ∧ Keeps runtime runtime :=
    ⟨.refl filed.toFounded, .refl runtime, keeps_of_eq rfl⟩
  have trimmed := filed.toFounded.trims listen now
  obtain ⟨peers, -, same⟩ := trimPeers_eq runtime listen now
  unfold selectInbound
  split
  · exact stays
  next here =>
    split
    · exact stays
    simp only
    rw [same] at trimmed ⊢
    split
    · exact ⟨trimmed, ⟨rfl, rfl⟩, keeps_of_eq rfl⟩
    have noted : Advances runtime [] { runtime with
        peers := peers.put listen ((peers.get listen).getD (.new runtime.config.peer)) } := by
      refine trimmed.trans (advances_rest trimmed.founded rfl rfl rfl rfl rfl ?_)
      intro entry member other current
      rcases Peers.mem_of_put member with rfl | earlier
      · cases known : peers.get listen with
        | none =>
          rw [known] at current
          cases current
        | some peer =>
          rw [known] at current
          exact trimmed.founded.selected (Peers.mem_of_get known) current
      · exact trimmed.founded.selected earlier current
    split
    next replaced _ =>
      have located : Runtime.sessions { runtime with
        peers := peers.put listen ((peers.get listen).getD (.new runtime.config.peer)) } id =
          some target := found
      have quiet := quiet_adopt { runtime with
        peers := peers.put listen ((peers.get listen).getD (.new runtime.config.peer)) }
          listen id replaced now
      exact ⟨noted.trans ((filed.advance noted).adopts located listen now listed (.inl idle)),
        { quiet with }, (keeps_adopt located listen now replaced).1⟩
    · refine ⟨noted.trans (advances_rest noted.founded rfl rfl rfl rfl rfl ?_), ⟨rfl, rfl⟩,
        keeps_of_eq rfl⟩
      intro entry member other current
      rcases Peers.mem_of_update member with earlier | ⟨peer, earlier, rfl⟩ <;>
        exact noted.founded.selected earlier current

end Moonpool.Rpc.Runtime
