import Moonpool.Rpc.Turns

/-!
Owns what each of two runtimes that dial each other never does: the one with the larger
address gives up no dial that is not overdue, and the one with the smaller address leaves no
session of the other unselected that it may share.
-/

namespace Moonpool.Rpc

open Option

/-- A session stays, with its direction and the peer it was selected for. -/
structure Facet.Stays (before after : Facet) : Prop where
  direction : after.direction = before.direction
  address : ∀ {address}, before.address = some address → after.address = some address

theorem Facet.Ages.stays {before after : Facet} (ages : before.Ages after) : before.Stays after :=
  ⟨ages.direction, fun selected => ages.address.trans selected⟩

theorem Facet.Stays.trans {first second third : Facet} (before : first.Stays second)
    (after : second.Stays third) : first.Stays third :=
  ⟨after.direction.trans before.direction, fun selected => after.address (before.address selected)⟩

namespace Runtime

variable {runtime next : Runtime} {action : Action} {there : SocketAddr} {id : ConnectionId}

theorem Turns.config (turns : Turns runtime action next) : next.config = runtime.config := by
  cases turns with
  | rests rests => exact rests.config
  | dials earlier unlive later =>
    obtain ⟨-, -, -, -, -, -, -, same, -⟩ := select_spec _ _ _
    exact later.config.trans (same.trans earlier.config)
  | greets earlier idle found heard same | remembers earlier hears address unsmaller same =>
    exact same ▸ earlier.config
  | adopts earlier hears adoptable address displaces same =>
    exact same ▸ (adopt_spec _ _ _ _ _).1.trans earlier.config
  | reuses earlier adoptable known named found established clock displaces later =>
    exact later.config.trans ((adopt_spec _ _ _ _ _).1.trans earlier.config)

variable {listen : SocketAddr} {replaced : Option ConnectionId}

theorem Turns.kept {before : Facet} (turns : Turns runtime action next) (sound : runtime.Sound)
    (found : runtime.facet id = some before) :
    ∃ after, next.facet id = some after ∧ before.Stays after := by
  cases turns with
  | rests rests =>
    obtain ⟨after, located, ages⟩ := rests.kept found
    exact ⟨after, located, ages.stays⟩
  | dials earlier unlive later =>
    obtain ⟨middle, located, ages⟩ := earlier.kept found
    obtain ⟨after, final, further⟩ := later.kept ((facet_select _ _ _ id).trans
      ((if_neg (ne_of_lt ((sound.rest earlier).made located))).trans located))
    exact ⟨after, final, ages.stays.trans further.stays⟩
  | greets earlier idle found' heard same | remembers earlier hears address unsmaller same =>
    obtain ⟨after, located, ages⟩ := earlier.kept found
    exact ⟨after, same ▸ located, ages.stays⟩
  | adopts earlier hears adoptable address displaces same =>
    subst same
    obtain ⟨middle, located, ages⟩ := earlier.kept found
    exact ⟨_, (facet_adopt _ _ _ _ _ id).trans (congrArg (Option.map _) located),
      ages.stays.trans ⟨rfl, adoptable.turned located⟩⟩
  | reuses earlier adoptable known named found' established clock displaces later =>
    obtain ⟨middle, located, ages⟩ := earlier.kept found
    obtain ⟨after, final, further⟩ := later.kept
      ((facet_adopt _ _ _ _ _ id).trans (congrArg (Option.map _) located))
    exact ⟨after, final, further.direction.trans ages.direction, fun selected =>
      further.stays.address (adoptable.turned located (ages.stays.address selected))⟩

def Undisplaced (runtime : Runtime) (there : SocketAddr) : Prop :=
  ∀ id facet, runtime.facet id = some facet → facet.direction = .outbound →
    facet.address = some there → facet.closed ≠ some .replaced

theorem Undisplaced.rest (undisplaced : runtime.Undisplaced there) (rests : Rests runtime next) :
    next.Undisplaced there := by
  intro id after found outbound selected closed
  obtain ⟨before, earlier, ages⟩ := rests.selected found selected
  exact undisplaced id before earlier (ages.direction ▸ outbound) (ages.address ▸ selected)
    (ages.replaced closed)

theorem Undisplaced.adopt
    (undisplaced : runtime.Undisplaced there) (sound : runtime.Sound)
    (adoptable : runtime.Adoptable id listen replaced)
    (spares : ∀ old facet, replaced = some old → runtime.facet old = some facet →
      facet.direction = .outbound → listen ≠ there) (now : Duration) :
    (runtime.adopt listen id replaced now).Undisplaced there := by
  intro other after located outbound selected closed
  rw [facet_adopt] at located
  obtain ⟨before, earlier, rfl⟩ := map_eq_some_iff.mp located
  have apart : other ≠ id := by
    rintro rfl
    obtain ⟨target, targetAt, inbound, -⟩ := adoptable.target
    cases targetAt.symm.trans earlier
    cases inbound.symm.trans outbound
  have selected : before.address = some there := by simpa [Facet.turned, apart] using selected
  by_cases gone : replaced = some other
  · obtain ⟨facet, again, here, -⟩ := adoptable.selected sound gone
    cases again.symm.trans earlier
    exact spares other before gone earlier outbound (some.inj (here.symm.trans selected))
  · exact undisplaced other before earlier outbound selected
      (by simpa [Facet.turned, gone] using closed)

theorem Turns.undisplaced {here : SocketAddr} (turns : Turns runtime action next)
    (sound : runtime.Sound) (address : runtime.config.address = some here)
    (larger : ¬ here.Smaller there)
    (timely : ∀ now, action.clock = some now → ¬ runtime.Overdue there now)
    (undisplaced : runtime.Undisplaced there) : next.Undisplaced there := by
  cases turns with
  | rests rests => exact undisplaced.rest rests
  | dials earlier unlive later =>
    refine Undisplaced.rest ?_ later
    intro id facet found outbound selected
    rw [facet_select] at found
    split at found
    · cases found
      simp
    · exact undisplaced.rest earlier id facet found outbound selected
  | greets earlier idle found heard same | remembers earlier hears somewhere unsmaller same =>
    subst same
    have still := undisplaced.rest earlier
    exact still
  | adopts earlier hears adoptable somewhere displaces same =>
    cases address.symm.trans somewhere
    obtain ⟨⟨hello, rfl, -⟩, -⟩ := hears
    subst same
    refine (undisplaced.rest earlier).adopt (sound.rest earlier) adoptable ?_ _
    rintro old facet gone found outbound rfl
    rcases displaces old facet gone found outbound with smaller | overdue
    · exact larger smaller
    · exact timely _ rfl overdue
  | reuses earlier adoptable known named found established clock displaces later =>
    refine Undisplaced.rest ((undisplaced.rest earlier).adopt (sound.rest earlier) adoptable
      ?_ _) later
    rintro old facet gone found outbound rfl
    exact timely _ clock (displaces old facet gone found outbound)

/-- The accepted sessions of the peer at `there` are those `linked` names, each selected as soon as
it greets. -/
structure Joined (runtime : Runtime) (there : SocketAddr) (linked : ConnectionId → Prop) :
    Prop where
  named : ∀ {id facet}, runtime.facet id = some facet → facet.direction = .inbound →
    facet.address = some there → linked id
  candidate : ∀ {peer id}, runtime.peers.get there = some peer → peer.candidate = some id →
    linked id
  greeted : ∀ {id facet}, linked id → runtime.facet id = some facet →
    facet.direction = .inbound →
    (facet.established = true ∨ runtime.driver.greeted = some id) → facet.address = some there

variable {linked : ConnectionId → Prop}

theorem Joined.rest (joined : runtime.Joined there linked) (sound : runtime.Sound)
    (rests : Rests runtime next) : next.Joined there linked where
  named found inbound selected := by
    obtain ⟨before, earlier, ages⟩ := rests.selected found selected
    exact joined.named earlier (ages.direction ▸ inbound) (ages.address ▸ selected)
  candidate found named := by
    obtain ⟨peer, known, named⟩ := rests.candidate found named
    exact joined.candidate known named
  greeted {id after} member found inbound late := by
    have before : (∃ facet, runtime.facet id = some facet ∧ facet.established = true) ∨
        runtime.driver.greeted = some id :=
      late.elim (rests.established found) (fun greeted => .inr (rests.greeted greeted))
    have known : ∃ facet, runtime.facet id = some facet ∧
        (facet.established = true ∨ runtime.driver.greeted = some id) := by
      rcases before with ⟨facet, earlier, established⟩ | greeted
      · exact ⟨facet, earlier, .inl established⟩
      · obtain ⟨facet, earlier⟩ := sound.greeting greeted
        exact ⟨facet, earlier, .inr greeted⟩
    obtain ⟨facet, earlier, late⟩ := known
    obtain ⟨again, located, ages⟩ := rests.kept earlier
    cases found.symm.trans located
    exact ages.address.trans (joined.greeted member earlier (ages.direction ▸ inbound) late)

theorem Joined.adopt {phase : Phase}
    (joined : runtime.Joined there linked) (linkedHere : linked id ↔ listen = there)
    (now : Duration)
    (greeted : ∀ {other}, phase.greeted = some other →
      other = id ∨ runtime.driver.greeted = some other) :
    Joined { runtime.adopt listen id replaced now with driver := phase } there linked := by
  have facets : ∀ other, Runtime.facet { runtime.adopt listen id replaced now with
      driver := phase } other = (runtime.facet other).map (Facet.turned listen id replaced other) :=
    facet_adopt runtime listen id replaced now
  refine ⟨?_, ?_, ?_⟩
  · intro other after found inbound selected
    rw [facets] at found
    obtain ⟨before, earlier, rfl⟩ := map_eq_some_iff.mp found
    by_cases same : other = id
    · have here : listen = there := by simpa [Facet.turned, same] using selected
      exact same ▸ linkedHere.mpr here
    · exact joined.named earlier inbound (by simpa [Facet.turned, same] using selected)
  · intro peer other found named
    rw [show Runtime.peers { runtime.adopt listen id replaced now with driver := phase } = _ from
      (adopt_spec runtime listen id replaced now).2.2, Peers.get_update] at found
    split at found
    · obtain ⟨earlier, -, rfl⟩ := map_eq_some_iff.mp found
      cases named
    · exact joined.candidate found named
  · intro other after member found inbound late
    rw [facets] at found
    obtain ⟨before, earlier, rfl⟩ := map_eq_some_iff.mp found
    by_cases same : other = id
    · have here := linkedHere.mp (same ▸ member)
      simp [Facet.turned, same, here]
    · have selected := joined.greeted member earlier inbound
        (late.imp_right fun busy => (greeted busy).resolve_left same)
      simpa [Facet.turned, same] using selected

theorem Turns.joined {here : SocketAddr} (turns : Turns runtime action next)
    (sound : runtime.Sound) (address : runtime.config.address = some here)
    (smaller : here.Smaller there) (differs : there ≠ here)
    (honest : ∀ {id facet hello now}, action = .hello id hello now →
      runtime.facet id = some facet → facet.direction = .inbound →
      (linked id ↔ hello.listen = some there))
    (shares : ∀ {id hello now}, action = .hello id hello now → linked id →
      runtime.Shares id there now)
    (joined : runtime.Joined there linked) : next.Joined there linked := by
  cases turns with
  | rests rests => exact joined.rest sound rests
  | dials earlier unlive later =>
    rename_i before address now
    have still := sound.rest earlier
    have trimmed := (joined.rest sound earlier).rest still (rests_trimPeers still address now)
    refine Joined.rest ⟨?_, ?_, ?_⟩ (still.dials _ _ unlive) later
    · intro id facet found inbound selected
      rw [facet_select] at found
      split at found
      · cases found
        cases inbound
      · exact (joined.rest sound earlier).named found inbound selected
    · intro peer id found named
      obtain ⟨peer, known, named⟩ := select_candidate found named
      exact trimmed.candidate known named
    · intro id facet member found inbound late
      rw [facet_select] at found
      split at found
      · cases found
        cases inbound
      · obtain ⟨-, quiet, -⟩ := select_spec before address now
        exact (joined.rest sound earlier).greeted member found inbound (quiet.driver ▸ late)
  | greets earlier idle found heard same =>
    subst same
    have still := joined.rest sound earlier
    refine ⟨still.named, still.candidate, fun {id facet} member located inbound late => ?_⟩
    rcases late with established | greeted
    · exact still.greeted member located inbound (.inl established)
    -- The other runtime's session greets: it would have been adopted.
    cases greeted
    obtain ⟨hello, now, acts, unshared⟩ := heard
    obtain ⟨after, again, ages⟩ := earlier.kept found
    cases located.symm.trans again
    have inbound := ages.direction.symm.trans inbound
    have claim := (honest acts found inbound).mp member
    exact absurd (shares acts member) (unshared there here inbound claim address differs)
  | adopts earlier hears adoptable somewhere displaces same =>
    subst same
    obtain ⟨⟨hello, acts, claim⟩, idle, facet, found, inbound, -⟩ := hears
    have linkedHere := honest acts found inbound
    rw [claim] at linkedHere
    refine (joined.rest sound earlier).adopt
      (linkedHere.trans ⟨some.inj, congrArg some⟩) _ (fun greeted => ?_)
    cases greeted
    exact .inl rfl
  | remembers earlier hears somewhere unsmaller same =>
    subst same
    cases address.symm.trans somewhere
    rename_i listen now greeting
    have still := joined.rest sound earlier
    obtain ⟨⟨hello, acts, claim⟩, idle, facet, found, inbound, -⟩ := hears
    have linkedHere := honest acts found inbound
    rw [claim] at linkedHere
    have apart : listen ≠ there := by
      rintro rfl
      exact unsmaller smaller
    refine ⟨still.named, fun {peer id} located named => ?_, fun {id facet} member located inbound
      late => ?_⟩
    · rw [show Runtime.peers _ = _ from rfl, Peers.get_update, if_neg (Ne.symm apart)] at located
      exact still.candidate located named
    · rcases late with established | greeted
      · exact still.greeted member located inbound (.inl established)
      · cases greeted
        exact absurd (some.inj (linkedHere.mp member)) apart
  | reuses earlier adoptable known named found established clock displaces later =>
    rename_i before id address replaced now peer facet
    have still := joined.rest sound earlier
    have sounder := sound.rest earlier
    have driver := (quiet_adopt before address id replaced now).driver
    obtain ⟨again, located, inbound, selected⟩ := sounder.candidate known named
    cases found.symm.trans located
    have linkedHere : linked id ↔ address = there := by
      constructor
      · intro member
        have there := still.greeted member found inbound (.inl established)
        exact some.inj ((selected.resolve_left (by simp [there])).symm.trans there)
      · rintro rfl
        exact still.candidate known named
    have adopted : Joined { before.adopt address id replaced now with
        driver := (before.adopt address id replaced now).driver } there linked := by
      refine still.adopt linkedHere now (fun greeted => .inr ?_)
      rwa [driver] at greeted
    exact adopted.rest (sounder.reuses adoptable found established now) later

end Runtime

end Moonpool.Rpc
