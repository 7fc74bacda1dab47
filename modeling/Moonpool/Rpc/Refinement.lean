import Moonpool.Rpc.Retransmission

/-!
Owns that every step of a runtime keeps the invariant and lives every call on, and so that
every run does.
-/

namespace Moonpool.Rpc

open Option

namespace Runtime

variable [Xxh3] {runtime next : Runtime} {id : ConnectionId} {session : Session}
  {events : List Event}

omit [Xxh3] in
theorem runs_spec (runs : runtime.runs id = some session) :
    runtime.driver = .idle ∧ runtime.sessions id = some session ∧ session.stage = .running := by
  unfold Runtime.runs at runs
  split at runs
  next idle found =>
    split at runs
    next running =>
      cases runs
      exact ⟨idle, found, running⟩
    · cases runs
  · cases runs

omit [Xxh3] in
theorem hears_spec (hears : runtime.hears id = some session) :
    runtime.driver = .idle ∧ runtime.sessions id = some session ∧ session.stage = .running ∧
      session.connection.established = true := by
  obtain ⟨runs, established⟩ := filter_eq_some_iff.mp hears
  obtain ⟨idle, found, running⟩ := runs_spec runs
  exact ⟨idle, found, running, established⟩

theorem Advances.of_some {step : Runtime × List Event} (advances : Advances runtime step.2 step.1)
    (acted : some step = some (next, events)) : Advances runtime events next := by
  rwa [some.inj acted] at advances

theorem Founded.begins {phase : Phase} (founded : runtime.Founded)
    (idle : runtime.driver = .idle)
    (unheld : ∀ id frame call, phase ≠ .writing id frame call) (driven : runtime.Driven phase) :
    Advances runtime [] { runtime with driver := phase } :=
  advances_phase founded (fun id call _ _ _ => not_awaits_of_driver (by simp [idle]) id call)
    unheld driven

section

variable (founded : runtime.Founded)

include founded

theorem Founded.rests (other : ∀ id address copies, runtime.driver ≠ .resending id address copies) :
    Advances runtime [] { runtime with driver := .idle } :=
  advances_phase founded (fun id call _ _ _ => not_awaits_of_driver other id call) (by simp) trivial

theorem Founded.upgrades
    (found : runtime.sessions id = some session) (early : session.stage = .connecting)
    (context : PeerContext) :
    Advances runtime [] (runtime.setSession id
      { session with
        connection := session.connection.setPeerContext context, stage := .running }) := by
  have coherent := (founded.known found).2.2
  refine advances_setSession founded found
    ⟨rfl, fun kept => kept, fun kept => kept, fun kept => kept, fun _ => rfl, fun kept => kept⟩
    { coherent with
      current := fun _ => coherent.current (by simp [early])
      connecting := fun late => (by cases late)
      failed := fun reason closed failed => ?_ } (fun _ => le_refl _)
  have past := coherent.failed reason closed failed
  rw [early] at past
  cases past

theorem Founded.establishes
    (found : runtime.sessions id = some session) (running : session.stage = .running)
    (hello : PeerHello) (now : Duration) :
    Advances runtime [] (runtime.setSession id
      { session with connection := session.connection.establish hello now }) := by
  have coherent := (founded.known found).2.2
  refine advances_setSession founded found
    ⟨rfl, fun kept => kept, fun _ => rfl, fun kept => kept, fun kept => kept, fun kept => kept⟩
    { coherent with connecting := fun early => ?_, greeted := fun _ => rfl }
    (fun _ => le_refl _)
  rw [running] at early
  cases early

theorem Founded.updates (address : SocketAddr) (change : Peer → Peer)
    (same : ∀ peer, (change peer).current = peer.current) :
    Advances runtime [] { runtime with peers := runtime.peers.update address change } := by
  refine advances_rest founded rfl rfl rfl rfl rfl (fun member _ current => ?_)
  rcases Peers.mem_of_update member with kept | ⟨peer, earlier, rfl⟩
  · exact founded.selected kept current
  · exact founded.selected earlier ((same peer).symm.trans current)

end

section

variable (filed : runtime.Filed)

include filed

theorem Filed.greets {hello : Hello} {now : Duration}
    (acted : runtime.act (.hello id hello now) = some (next, events)) :
    Advances runtime events next := by
  simp only [act] at acted
  split at acted
  · cases acted
  next session runs =>
    obtain ⟨idle, found, running⟩ := runs_spec runs
    split at acted
    · cases acted
    obtain ⟨accepted, -, result⟩ := map_eq_some_iff.mp acted
    cases result
    have listed := (filed.known found).2.2.running running
    have still : ∀ after, Advances runtime [] after → Quiet runtime after →
        Keeps runtime after →
        Advances runtime [] { after with driver := .greeting id accepted } := by
      intro after advances quiet keeps
      obtain ⟨later, located, evolves⟩ := keeps _ _ found
      exact advances.trans (advances.founded.begins (quiet.driver.trans idle) (by simp)
        ⟨later, located, evolves.running running⟩)
    split
    next listen _ _ =>
      obtain ⟨advances, quiet, keeps⟩ :=
        filed.selectsInbound idle found listed session.connection listen now
      exact still _ advances quiet keeps
    · exact still runtime (.refl filed.toFounded) (.refl runtime) (keeps_of_eq rfl)

theorem Filed.settlesGreeting {now : Duration}
    (acted : runtime.act (.establish now) = some (next, events)) :
    Advances runtime events next := by
  simp only [act] at acted
  split at acted
  next id accepted greeting =>
    obtain ⟨session, found, result⟩ := map_eq_some_iff.mp acted
    cases result
    obtain ⟨running, located, stage⟩ := filed.drivenAt greeting
    cases located.symm.trans found
    have established := filed.toFounded.establishes found stage accepted now
    have busy : (runtime.setSession id { session with
        connection := session.connection.establish accepted now }).driver =
          .greeting id accepted := greeting
    refine established.trans (advances_phase established.founded ?_ ?_ ?_)
    · exact fun id call _ _ _ => not_awaits_of_driver (by simp [busy]) id call
    · intro id frame call
      cases (session.connection.establish accepted now).peerAddress <;> simp
    · cases (session.connection.establish accepted now).peerAddress <;> trivial
  · cases acted

theorem Filed.takesEnded {violation : Option String}
    (acted : runtime.act (.takeEnded violation) = some (next, events)) :
    Advances runtime events next := by
  simp only [act] at acted
  split at acted
  next id call error ending =>
    have rests := filed.toFounded.rests (by simp [ending])
    have driven := filed.drivenAt ending
    exact (rests.trans ((filed.advance rests).endsStream (.connection id) call error violation
      (fun pending found => (driven.2.2 pending found).2))).of_some acted
  · cases acted

theorem Filed.takesRefused {violation : String}
    (acted : runtime.act (.takeRefused violation) = some (next, events)) :
    Advances runtime events next := by
  simp only [act] at acted
  split at acted
  next id call refusing =>
    have rests := filed.toFounded.rests (by simp [refusing])
    have refused := rests.trans (rests.founded.refusesStream call violation)
    have both := refused.trans (advances_onConnection refused.founded id
      (fun connection => connection.calm_signalCancel call))
    rw [List.append_nil] at both
    exact Advances.of_some both acted
  · cases acted

/-- Every step keeps the invariant and lives every call on. -/
theorem Filed.acts {action : Action}
    (acted : runtime.act action = some (next, events)) : Advances runtime events next := by
  have founded := filed.toFounded
  cases action <;> simp only [act] at acted
  case start start kind readings =>
    exact (filed.starts start kind readings).of_some acted
  case sendOneWay start readings =>
    exact (filed.sendsOneWay start readings).of_some acted
  case abandon call => exact (filed.abandons call).of_some acted
  case completeHere call outcome race =>
    exact (filed.completes .here call outcome race).of_some acted
  case endHere call error violation =>
    split at acted
    next consumes =>
      obtain ⟨pending, found, -, streams⟩ := consumes_iff.mp consumes
      refine (filed.endsStream .here call error violation (fun other located => ?_)).of_some acted
      obtain rfl := some.inj (found.symm.trans located)
      exact streams
    · cases acted
  case refuseHere call violation =>
    split at acted
    · exact (founded.refusesStream call violation).of_some acted
    · cases acted
  case traffic id traffic =>
    cases acted
    exact advances_onConnection founded id (fun connection => connection.calm_carry traffic)
  case beginShutdown =>
    split at acted
    · cases acted
    · cases acted
      exact advances_rest founded rfl rfl rfl rfl rfl founded.selected
  case terminate race =>
    exact (filed.terminates race).of_some acted
  case dropCommands =>
    cases acted
    exact advances_rest founded rfl rfl rfl rfl rfl founded.selected
  case accept peer now =>
    split at acted
    · cases acted
    · cases acted
      exact filed.accepts peer .inbound now
  case dialed address now jitter =>
    split at acted
    · cases acted
    · cases acted
      exact founded.updates address _ (fun _ => rfl)
  case upgraded id context =>
    split at acted
    next session _ found =>
      split at acted
      next early =>
        cases acted
        exact founded.upgrades found early context
      · cases acted
    · cases acted
  case pop id =>
    obtain ⟨session, -, result⟩ := map_eq_some_iff.mp acted
    cases result
    exact advances_pop founded id
  case judge =>
    split at acted
    next id frame held writing =>
      obtain ⟨session, found, result⟩ := map_eq_some_iff.mp acted
      exact (advances_judge filed writing found).of_some (congrArg some result)
    · cases acted
  case hello id hello now => exact filed.greets acted
  case establish now => exact filed.settlesGreeting acted
  case settle =>
    split at acted
    next address settling =>
      cases acted
      have updated := founded.updates address Peer.established (fun _ => rfl)
      exact updated.trans (updated.founded.rests (by simp [settling]))
    · cases acted
  case reply id call outcome =>
    obtain ⟨session, -, result⟩ := map_eq_some_iff.mp acted
    exact (filed.completes (.connection id) call outcome none).of_some (congrArg some result)
  case refuseItem id call =>
    split at acted
    · cases acted
    next session hears =>
      split at acted
      · cases acted
        exact founded.begins (hears_spec hears).1 (by simp) trivial
      · cases acted
  case takeRefused violation => exact filed.takesRefused acted
  case streamEnd id call error =>
    split at acted
    · cases acted
    next session hears =>
      split at acted
      next consumes =>
        cases acted
        obtain ⟨idle, found, running, established⟩ := hears_spec hears
        obtain ⟨pending, located, rides, streams⟩ := consumes_iff.mp consumes
        refine founded.begins idle (by simp) ⟨⟨session, found, running, established⟩,
          (filed.kept located).1, fun other again => ?_⟩
        obtain rfl := some.inj (located.symm.trans again)
        exact ⟨rides, streams⟩
      · cases acted
  case takeEnded violation => exact filed.takesEnded acted
  case closeIfIdle id now =>
    obtain ⟨session, hears, result⟩ := map_eq_some_iff.mp acted
    cases result
    unfold idleOut
    simp only
    split
    · exact .refl founded
    · exact advances_calm founded (hears_spec hears).2.1 (session.connection.calm_closeIfIdle _ _ _)
  case closeConnection id returned now watched =>
    split at acted
    next session idle found =>
      split at acted
      · cases acted
      next begun =>
        exact (filed.closes idle found (fun past => begun (past.imp_right .inl)) now
          watched).of_some acted
    · cases acted
  case retransmit credential now =>
    split at acted
    next id address copies resending =>
      exact Advances.of_some (filed.retransmits resending credential now) acted
    · cases acted

end

theorem filed_new (config : RpcConfig) (maxFailed : Nat) : (Runtime.new config maxFailed).Filed where
  known found := by cases found
  carried found := by cases found
  driven := trivial
  selected member := by cases member
  shown _ := ⟨_, .unborn (Nat.zero_le _) rfl (fun _ => rfl)⟩

end Runtime

variable [Xxh3] {config : RpcConfig} {maxFailed : Nat} {runtime : Runtime} {history : List Event}

/-- A run keeps the invariant, and every call's life is one the abstract machine has. -/
theorem Runs.filed (runs : Runs config maxFailed runtime history) :
    runtime.Filed ∧ ∀ call, ∃ state, runtime.Shows call state ∧
      Lives .unborn (moments call history) state := by
  induction runs with
  | new =>
    refine ⟨Runtime.filed_new config maxFailed, fun call => ⟨.unborn, ?_, .rest _⟩⟩
    exact .unborn (Nat.zero_le _) rfl (fun _ => rfl)
  | step action _ acted ih =>
    obtain ⟨filed, lived⟩ := ih
    have advances := filed.acts acted
    refine ⟨filed.advance advances, fun call => ?_⟩
    obtain ⟨state, shows, lives⟩ := lived call
    obtain ⟨after, shown, livedOn⟩ := advances.simulates call state shows
    rw [moments_append]
    exact ⟨after, shown, lives.trans livedOn⟩

end Moonpool.Rpc
