import Moonpool.Rpc.Starting

/-!
Owns what the end of a connection does to the lives of the calls it carried: the at-most-once
ones fail, the retained ones wait and are queued again; and the end of the whole runtime.
-/

namespace Moonpool.Rpc.Runtime

open List

variable {runtime : Runtime} {id : ConnectionId} {call : CallId} {session : Session}

theorem ended_eq (runtime : Runtime) (id : ConnectionId) (session : Session)
    (returned : CloseReason) (now : Duration) :
    ∃ peers : Peers, runtime.ended id session returned now =
        { runtime.setSession id ⟨session.connection.close returned, false, .ended⟩ with peers } ∧
      ∀ entry ∈ peers, ∀ other, entry.2.current = some other →
        ∃ before ∈ runtime.peers, before.2.current = some other := by
  unfold ended
  split
  · exact ⟨runtime.peers, rfl, fun entry member other current => ⟨entry, member, current⟩⟩
  next address _ =>
    refine ⟨_, rfl, fun entry member other current => ?_⟩
    rcases Peers.mem_of_update member with kept | ⟨peer, earlier, rfl⟩
    · exact ⟨entry, kept, current⟩
    split at current
    · cases current
    · exact ⟨_, earlier, current⟩

/-- While the calls of the closed connection `id` are dropped, `rest` being those to come. -/
structure Dropping (before closed : Runtime) (id : ConnectionId) (session : Session)
    (rest : List CallId) (dropped : Runtime × List Resend × List Event) : Prop where
  same : dropped.1 = { closed with pending := dropped.1.pending }
  simulates : Simulates before dropped.2.2 dropped.1
  others : ∀ call pending, dropped.1.pending call = some pending →
    pending.origin ≠ .connection id → before.pending call = some pending
  left : ∀ call pending, dropped.1.pending call = some pending →
    pending.origin = .connection id →
    (pending.transmitted = true → session.connection.established = true) ∧
      ∀ other, closed.frames call other = 0
  rides : ∀ call ∈ rest, ∀ pending, dropped.1.pending call = some pending →
    pending.origin = .connection id
  waiting : ∀ call pending, dropped.1.pending call = some pending →
    pending.origin = .connection id → call ∈ rest ∨
      (∃ copy ∈ dropped.2.1, copy.call = call) ∧ pending.retained.isSome = true ∧
        pending.transmitted = false

section Dropping

variable {before closed : Runtime} {rest : List CallId}
  {dropped : Runtime × List Resend × List Event}

theorem Dropping.frames (dropping : Dropping before closed id session rest dropped) (call : CallId)
    (other : ConnectionId) : dropped.1.frames call other = closed.frames call other := by
  rw [dropping.same]
  rfl

theorem simulates_wait {pending : PendingCall} (found : runtime.pending call = some pending)
    (unheld : ∀ other, runtime.frames call other = 0)
    (retained : pending.retained.isSome = true) :
    Simulates runtime [] (runtime.setCall call (some { pending with
      earlierTransmitted := pending.earlierTransmitted || pending.transmitted
      transmitted := false })) := by
  refine simulates_of_touch call rfl (fun other differs => setCall_other _ _ differs)
    (fun _ _ _ => le_refl _) (fun _ _ => rfl) (fun state shows => ?_)
  obtain ⟨place, rfl, used, kept, located, -⟩ := shows.inv found
  have nowhere : (runtime.setCall call (some { pending with
      earlierTransmitted := pending.earlierTransmitted || pending.transmitted
      transmitted := false })).At call none := unheld
  have gone : place = none := located.none_of_unheld unheld
  refine ⟨_, .pending used (setCall_same _ _ _) ⟨fun _ => retained, kept.retained⟩ nowhere
    nofun, ?_⟩
  rw [gone, retained]
  exact Life.wait.lives

variable {reason : CloseReason}

theorem unsent_of_disconnectError {pending : PendingCall}
    (failed : reason.isConnectFailed = true → session.connection.established = false)
    (left : pending.transmitted = true → session.connection.established = true)
    (claimed : (disconnectError reason session.connection.established pending).execution =
      .notAdmitted) : pending.transmitted = false := by
  by_contra transmitted
  have transmitted : pending.transmitted = true := by simpa using transmitted
  have established := left transmitted
  unfold disconnectError at claimed
  split at claimed
  · have unestablished := failed rfl
    rw [established] at unestablished
    cases unestablished
  · rw [established, transmitted] at claimed
    cases claimed

theorem Dropping.put (dropping : Dropping before closed id session (call :: rest) dropped)
    (value : Option PendingCall) (copies : List Resend) (events : List Event)
    (simulates : Simulates dropped.1 events (dropped.1.setCall call value))
    (waits : ∀ pending, value = some pending → pending.origin = .connection id ∧
      (∃ copy ∈ copies, copy.call = call) ∧ pending.retained.isSome = true ∧
        pending.transmitted = false ∧ ∀ other, closed.frames call other = 0)
    (more : ∀ copy ∈ dropped.2.1, copy ∈ copies) :
    Dropping before closed id session rest
      (dropped.1.setCall call value, copies, dropped.2.2 ++ events) where
  same := by
    have same := dropping.same
    rw [same]
    rfl
  simulates := dropping.simulates.trans simulates
  others other pending located elsewhere := by
    rcases pending_of_setCall located with ⟨-, held⟩ | ⟨-, held⟩
    · exact absurd (waits pending held).1 elsewhere
    · exact dropping.others other pending held elsewhere
  left other pending located rides := by
    rcases pending_of_setCall located with ⟨rfl, held⟩ | ⟨-, held⟩
    · obtain ⟨-, -, -, untransmitted, unheld⟩ := waits pending held
      refine ⟨fun transmitted => ?_, unheld⟩
      cases untransmitted.symm.trans transmitted
    · exact dropping.left other pending held rides
  rides other member pending located := by
    rcases pending_of_setCall located with ⟨-, held⟩ | ⟨-, held⟩
    · exact (waits pending held).1
    · exact dropping.rides other (mem_cons_of_mem _ member) pending held
  waiting other pending located rides := by
    rcases pending_of_setCall located with ⟨rfl, held⟩ | ⟨differs, held⟩
    · obtain ⟨-, copied, retained, untransmitted, -⟩ := waits pending held
      exact .inr ⟨copied, retained, untransmitted⟩
    · rcases dropping.waiting other pending held rides with later | ⟨⟨copy, member, named⟩, kept⟩
      · exact .inl ((mem_cons.mp later).resolve_left differs)
      · exact .inr ⟨⟨copy, more copy member, named⟩, kept⟩

variable [Xxh3]

theorem Dropping.step {address : SocketAddr} (filed : before.Filed)
    (dropping : Dropping before closed id session (call :: rest) dropped)
    (failed : reason.isConnectFailed = true → session.connection.established = false) :
    Dropping before closed id session rest
      (dropCall (some address) reason session.connection.established dropped call) := by
  unfold dropCall
  simp only
  split
  next absent =>
    refine { dropping with
      rides := fun other member => dropping.rides other (mem_cons_of_mem _ member)
      waiting := fun other pending located rides => ?_ }
    refine (dropping.waiting other pending located rides).imp_left (fun later => ?_)
    refine (mem_cons.mp later).resolve_left (fun equal => ?_)
    rw [equal, absent] at located
    cases located
  next pending found =>
    have rides := dropping.rides call mem_cons_self pending found
    obtain ⟨left, unheld⟩ := dropping.left call pending found rides
    have nothing : ∀ other, dropped.1.frames call other = 0 :=
      fun other => (dropping.frames call other).trans (unheld other)
    obtain ⟨state, shows⟩ := filed.shown call
    obtain ⟨after, shown, -⟩ := dropping.simulates call state shows
    obtain ⟨-, -, -, kept, -, -⟩ := shown.inv found
    split
    next body resumes =>
      have retained : pending.retained = some body := by
        split at resumes
        · exact resumes
        · cases resumes
      have isSome : pending.retained.isSome = true := by rw [retained]; rfl
      have put := dropping.put _
        (dropped.2.1 ++ [⟨call, pending.endpoint, pending.identity, body⟩]) []
        (simulates_wait found nothing isSome) ?_ (fun copy => mem_append_left _)
      · rwa [append_nil] at put
      · rintro waiting ⟨⟩
        exact ⟨rides, ⟨_, mem_append_right _ (mem_singleton.mpr rfl), rfl⟩, isSome, rfl,
          unheld⟩
    next fails =>
      have unkept : pending.earlierTransmitted = false := by
        by_contra earlier
        have retained := kept.earlier (by simpa using earlier)
        rw [if_pos ⟨rfl, kept.retained retained⟩] at fails
        rw [fails] at retained
        cases retained
      refine dropping.put none dropped.2.1 _ (simulates_end found (ends_finished _ _ _) ?_ ?_)
        nofun (fun copy member => member)
      · intro claimed _
        exact ⟨unsent_of_disconnectError failed left (of_decide_eq_true claimed), unkept, nothing⟩
      · intro _ rejected
        cases rejected

theorem Dropping.all
    (dropping : Dropping before closed id session rest dropped) (address : SocketAddr)
    (filed : before.Filed)
    (failed : reason.isConnectFailed = true → session.connection.established = false) :
    Dropping before closed id session []
      (rest.foldl (dropCall (some address) reason session.connection.established) dropped) := by
  induction rest generalizing dropped with
  | nil => exact dropping
  | cons call rest ih =>
    exact ih (dropping.step filed failed)

end Dropping

section Ending

variable [Xxh3] {returned : CloseReason} {now : Duration}

omit [Xxh3] in
theorem mem_carried {runtime : Runtime} :
    call ∈ runtime.carried id ↔ call < runtime.nextCallId ∧
      ∃ pending, runtime.pending call = some pending ∧ pending.origin = .connection id := by
  unfold carried pendingCalls
  simp only [mem_filter, mem_range, Option.any_eq_true, decide_eq_true_eq]
  constructor
  · rintro ⟨⟨used, -⟩, found⟩
    exact ⟨used, found⟩
  · rintro ⟨used, pending, found, rides⟩
    exact ⟨⟨used, by rw [found]; rfl⟩, pending, found, rides⟩

theorem Filed.dropping (filed : runtime.Filed) (idle : runtime.driver = .idle)
    (found : runtime.sessions id = some session) (returned : CloseReason) (now : Duration) :
    Dropping runtime (runtime.ended id session returned now) id session
      ((runtime.ended id session returned now).carried id)
      (runtime.ended id session returned now, [], []) := by
  obtain ⟨peers, same, -⟩ := ended_eq runtime id session returned now
  have records : (runtime.ended id session returned now).pending = runtime.pending := by
    rw [same]
    rfl
  have ids : (runtime.ended id session returned now).nextCallId = runtime.nextCallId := by
    rw [same]
    rfl
  have count : ∀ call other, (runtime.ended id session returned now).frames call other =
      (runtime.setSession id ⟨session.connection.close returned, false, .ended⟩).frames call
        other := by
    rw [same]
    exact fun _ _ => rfl
  refine ⟨rfl, ?_, fun call pending located _ => records ▸ located, ?_, ?_, ?_⟩
  · refine simulates_of_fewer ids records (fun call other => ?_)
    rw [count]
    exact frames_setSession_le found (fun _ => Nat.zero_le _) call other
  · intro call pending located rides
    have recorded : runtime.pending call = some pending := records ▸ located
    obtain ⟨carrier, carrierAt, -, left, -⟩ := filed.carried recorded rides
    cases carrierAt.symm.trans found
    refine ⟨left, fun other => ?_⟩
    by_cases equal : other = id
    · have hand : (runtime.setSession id
          ⟨session.connection.close returned, false, .ended⟩).inHand call id = 0 :=
        inHand_idle idle call id
      rw [count, equal, frames, queuedOn_setSession_same, hand]
      rfl
    · have most : (runtime.setSession id ⟨session.connection.close returned, false, .ended⟩).frames
          call other ≤ runtime.frames call other :=
        frames_setSession_le found (fun _ => Nat.zero_le _) call other
      rw [filed.frames_elsewhere recorded rides equal] at most
      rw [count]
      exact Nat.le_zero.mp most
  · intro call member pending located
    obtain ⟨-, carried, carriedAt, rides⟩ := mem_carried.mp member
    cases carriedAt.symm.trans located
    exact rides
  · intro call pending located rides
    have used := (filed.kept (records ▸ located)).1
    exact .inl (mem_carried.mpr ⟨ids ▸ used, pending, located, rides⟩)

section

variable {dropped : Runtime × List Resend × List Event} {phase : Phase} (filed : runtime.Filed)
  (idle : runtime.driver = .idle) (found : runtime.sessions id = some session)
  (dropping : Dropping runtime (runtime.ended id session returned now) id session [] dropped)
  (phased : phase = .idle ∧ dropped.2.1 = [] ∨
    ∃ address, phase = .resending id address dropped.2.1 ∧
      session.connection.peerAddress.isSome = true)

include filed idle found dropping phased

theorem Filed.founded_dropped :
    Founded { dropped.1 with driver := phase } := by
  obtain ⟨peers, same, kept⟩ := ended_eq runtime id session returned now
  have sessions : dropped.1.sessions =
      (runtime.setSession id ⟨session.connection.close returned, false, .ended⟩).sessions := by
    rw [dropping.same, same]
  have here : dropped.1.sessions id =
      some ⟨session.connection.close returned, false, .ended⟩ := by
    rw [sessions, setSession_same]
  have others : ∀ other, other ≠ id → dropped.1.sessions other = runtime.sessions other := by
    intro other differs
    rw [sessions, setSession_other _ _ differs]
  have selected : ∀ other, runtime.Selected other →
      Runtime.Selected { dropped.1 with driver := phase } other := by
    rintro other ⟨chosen, chosenAt, picked⟩
    by_cases equal : other = id
    · rw [equal] at chosenAt ⊢
      cases chosenAt.symm.trans found
      exact ⟨_, here, picked⟩
    · exact ⟨chosen, (others other equal).trans chosenAt, picked⟩
  refine ⟨fun {other after} located => ?_, fun {call pending other} located rides => ?_, ?_,
    fun {entry} member {other} current => ?_⟩
  · have connections : dropped.1.nextConnectionId = runtime.nextConnectionId := by
      rw [dropping.same, same]
      rfl
    have known : other < runtime.nextConnectionId ∧ after.connection.id = other ∧
        after.Coherent := by
      rw [sessions] at located
      exact known_setSession filed.toFounded found (by rfl)
        (coherent_ended (filed.known found).2.2 returned) located
    exact ⟨connections ▸ known.1, known.2⟩
  · by_cases equal : other = id
    · rw [equal] at rides ⊢
      rcases dropping.waiting call pending located rides with gone | ⟨copied, -, untransmitted⟩
      · cases gone
      rcases phased with ⟨-, empty⟩ | ⟨address, resending, picked⟩
      · obtain ⟨copy, member, -⟩ := copied
        rw [empty] at member
        cases member
      · refine ⟨_, here, picked, fun left => ?_, .inr ⟨address, dropped.2.1, resending, copied⟩⟩
        rw [untransmitted] at left
        cases left
    · have earlier := dropping.others call pending located
        (fun same => equal (Origin.connection.inj (rides.symm.trans same)))
      obtain ⟨carrier, carrierAt, picked, left, listed⟩ := filed.carried earlier rides
      refine ⟨carrier, (others other equal).trans carrierAt, picked, left, .inl ?_⟩
      exact listed.resolve_right (not_awaits_of_driver (by simp [idle]) _ _)
  · rcases phased with ⟨rest, -⟩ | ⟨address, resending, -⟩
    · simp only [rest]
      trivial
    · simp only [resending]
      refine ⟨⟨_, here, rfl⟩, fun copy _ pending located rides => ?_⟩
      rcases dropping.waiting copy.call pending located rides with gone | ⟨-, kept⟩
      · cases gone
      · exact kept
  · have member : entry ∈ peers := by
      have peersOf : dropped.1.peers = peers := by rw [dropping.same, same]
      exact peersOf ▸ member
    obtain ⟨before, earlier, chosen⟩ := kept entry member other current
    exact selected other (filed.selected earlier chosen)

theorem Filed.drops :
    Advances runtime dropped.2.2 { dropped.1 with driver := phase } := by
  refine ⟨filed.founded_dropped idle found dropping phased, ?_⟩
  have unheld : ∀ call other,
      Runtime.inHand { dropped.1 with driver := phase } call other = 0 := by
    intro call other
    rcases phased with ⟨rest, -⟩ | ⟨address, resending, -⟩
    · rw [rest]
      rfl
    · rw [resending]
      rfl
  have last : Simulates dropped.1 [] { dropped.1 with driver := phase } :=
    simulates_of_fewer rfl rfl (fun call other => by
      unfold frames
      rw [unheld]
      exact Nat.le_add_right _ _)
  have all := dropping.simulates.trans last
  rwa [append_nil] at all

end

theorem Filed.closes (filed : runtime.Filed) (idle : runtime.driver = .idle)
    (found : runtime.sessions id = some session)
    (begun : ¬ (session.stage = .ended ∨
      (session.stage = .running ∧ returned.isConnectFailed = true)))
    (now : Duration) (watched : Bool) :
    Advances runtime (runtime.closeConnection id returned now watched).2
      (runtime.closeConnection id returned now watched).1 := by
  have coherent := (filed.known found).2.2
  have failed : ((session.connection.close returned).closed.getD returned).isConnectFailed = true →
      session.connection.established = false := by
    intro failed
    cases earlier : session.connection.closed with
    | some reason =>
      simp only [Connection.close, earlier, Option.getD_some] at failed
      exact absurd (.inl (coherent.failed reason earlier failed)) begun
    | none =>
      simp only [Connection.close, earlier, Option.getD_none, Option.getD_some] at failed
      have early : session.stage = .connecting := by
        cases stage : session.stage with
        | connecting => rfl
        | running => exact absurd (.inr ⟨stage, failed⟩) begun
        | ended => exact absurd (.inl stage) begun
      exact coherent.connecting early
  have dropping := filed.dropping idle found returned now
  have driver : ∀ dropped : Runtime × List Resend × List Event,
      Dropping runtime (runtime.ended id session returned now) id session [] dropped →
      dropped.1 = { dropped.1 with driver := .idle } := by
    intro dropped all
    have still : dropped.1.driver = .idle := by
      obtain ⟨peers, same, -⟩ := ended_eq runtime id session returned now
      rw [all.same, same]
      exact idle
    rw [← still]
  unfold closeConnection
  rw [found]
  simp only
  rcases named : session.connection.peerAddress with _ | address
  · -- A connection that was never selected carries no call.
    have none : (runtime.ended id session returned now).carried id = [] := by
      rw [eq_nil_iff_forall_not_mem]
      intro call member
      obtain ⟨-, pending, located, rides⟩ := mem_carried.mp member
      have recorded : runtime.pending call = some pending := by
        obtain ⟨peers, same, -⟩ := ended_eq runtime id session returned now
        rw [same] at located
        exact located
      obtain ⟨carrier, carrierAt, picked, -⟩ := filed.carried recorded rides
      cases carrierAt.symm.trans found
      rw [named] at picked
      cases picked
    rw [none] at dropping ⊢
    have drops := filed.drops idle found dropping (.inl ⟨rfl, rfl⟩)
    rwa [← driver _ dropping] at drops
  · have all := dropping.all address filed failed
    have picked : session.connection.peerAddress.isSome = true := by rw [named]; rfl
    simp only
    split
    next quiet =>
      have drops := filed.drops idle found all (.inl ⟨rfl, quiet.1⟩)
      rwa [← driver _ all] at drops
    · exact filed.drops idle found all (.inr ⟨address, rfl, picked⟩)

end Ending

end Moonpool.Rpc.Runtime
