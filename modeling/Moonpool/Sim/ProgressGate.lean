import Moonpool.Sim.ShardBook

/-!
Owns the shard gate for progress (`runner/shard.rs`): kills and partitions are admitted only
if every replication they touch can still progress.

Cuts add up pairwise and the gate counts a replica with any cut link as missing, so the replicas
it counts are connected to each other, and stay so after the fault it admits.
-/

namespace Moonpool.Sim

open List

/-- The processes that are dead, and which cannot reach which. -/
structure Outage where
  dead : List IpAddr
  cut : IpAddr → IpAddr → Bool

def isCut (outage : Outage) (ip : IpAddr) (peers : List IpAddr) : Bool :=
  peers.any fun peer => peer ≠ ip && !outage.dead.contains peer && outage.cut ip peer

def downOk (requirements : Requirements) (outage : Outage) (victims : List IpAddr) : Bool :=
  requirements.entries.all fun entry => entry.2.all fun replication =>
    let ips := ipsOf replication
    if !ips.any fun ip => victims.contains ip then true
    else holdsWithout replication.progress fun ip =>
      outage.dead.contains ip || victims.contains ip || isCut outage ip ips

def splitOk (requirements : Requirements) (outage : Outage) (a b : List IpAddr) : Bool :=
  if b.isEmpty then downOk requirements outage a
  else
    requirements.entries.all fun entry => entry.2.all fun replication =>
      let ips := ipsOf replication
      if !(ips.any fun ip => a.contains ip) || !(ips.any fun ip => b.contains ip) then true
      else
        let lost ip := outage.dead.contains ip || isCut outage ip ips
        (holdsWithout replication.progress fun ip => lost ip || b.contains ip) ||
          holdsWithout replication.progress fun ip => lost ip || a.contains ip

/-- A fault the gate judges.  An empty second group cuts the first one off from everyone. -/
inductive Outage.Fault where
  | kill (victims : List IpAddr)
  | split (a b : List IpAddr)

namespace Outage

variable (outage : Outage)

def admits (requirements : Requirements) : Fault → Bool
  | .kill victims => downOk requirements outage victims
  | .split a b => splitOk requirements outage a b

def Fault.cuts : Fault → IpAddr → IpAddr → Bool
  | .kill _, _, _ => false
  | .split a b, ip, peer =>
    if b.isEmpty then a.contains ip || a.contains peer
    else a.contains ip && b.contains peer || b.contains ip && a.contains peer

def strike (fault : Fault) : Outage where
  dead := match fault with
    | .kill victims => victims ++ outage.dead
    | .split _ _ => outage.dead
  cut ip peer := outage.cut ip peer || fault.cuts ip peer

/-- Whether the fault meets a replication: a victim of a kill, or a replica on each side. -/
def Fault.touches (replication : Replication) : Fault → Bool
  | .kill victims => (ipsOf replication).any fun ip => victims.contains ip
  | .split a b => ((ipsOf replication).any fun ip => a.contains ip) &&
      (b.isEmpty || (ipsOf replication).any fun ip => b.contains ip)

/-- The replicas `chosen` are alive, reach each other and satisfy the need for progress. -/
structure Quorum (replication : Replication) (chosen : Replica → Bool) : Prop where
  named : ∀ replica, chosen replica = true → replica ∈ replicasOf replication
  alive : ∀ {replica ip}, chosen replica = true → replica.ip = some ip → ip ∉ outage.dead
  connected : ∀ {replica other ip peer}, chosen replica = true → chosen other = true →
    replica.ip = some ip → other.ip = some peer → ip ≠ peer → outage.cut ip peer = false
  progress : replication.progress.holds chosen = true

/-- A replication the fault touches has a quorum afterwards, and any other keeps its own. -/
def Fault.Keeps (fault : Fault) (replication : Replication) : Prop :=
  (fault.touches replication = true → ∃ chosen, (outage.strike fault).Quorum replication chosen) ∧
    (fault.touches replication = false → ∀ chosen, outage.Quorum replication chosen →
      (outage.strike fault).Quorum replication chosen)

def Required (requirements : Requirements) (replication : Replication) : Prop :=
  ∃ entry ∈ requirements.entries, replication ∈ entry.2

section

variable {outage} {requirements : Requirements} {replication : Replication} {fault : Fault}

/-- The replicas the gate counts, outside of `group` and not missing already, are enough. -/
def Counts (outage : Outage) (replication : Replication) (group : List IpAddr) : Prop :=
  (holdsWithout replication.progress fun ip => outage.dead.contains ip ||
    isCut outage ip (ipsOf replication) || group.contains ip) = true

/-- A fault harms the replicas of a group only: the others stay alive and keep their links. -/
def Fault.Spares (fault : Fault) (outage : Outage) (group : IpAddr → Prop) : Prop :=
  (∀ ip, ¬ group ip → ip ∈ (outage.strike fault).dead → ip ∈ outage.dead) ∧
    ∀ ip peer, ¬ group ip → ¬ group peer → fault.cuts ip peer = false

theorem counted_of_admits (admitted : outage.admits requirements fault = true)
    (required : Required requirements replication) (touched : fault.touches replication = true) :
    ∃ group : List IpAddr, fault.Spares outage (· ∈ group) ∧ outage.Counts replication group := by
  obtain ⟨entry, listed, member⟩ := required
  have down (victims : List IpAddr) (ok : downOk requirements outage victims = true)
      (hit : ((ipsOf replication).any fun ip => victims.contains ip) = true) :
      outage.Counts replication victims := by
    have held := all_eq_true.mp (all_eq_true.mp ok entry listed) replication member
    simpa only [Counts, hit, Bool.not_true, Bool.false_eq_true, if_false,
      Bool.or_right_comm] using held
  cases fault with
  | kill victims =>
    refine ⟨victims, ⟨fun ip spared dead => ?_, fun _ _ _ _ => rfl⟩, down victims admitted touched⟩
    exact (mem_append.mp dead).resolve_left spared
  | split a b =>
    simp only [Fault.touches, Bool.and_eq_true, Bool.or_eq_true] at touched
    simp only [admits, splitOk] at admitted
    split at admitted
    next alone =>
      refine ⟨a, ⟨fun _ _ dead => dead, fun ip peer apart away => ?_⟩, down a admitted touched.1⟩
      simp [Fault.cuts, alone, apart, away]
    next both =>
      have held := all_eq_true.mp (all_eq_true.mp admitted entry listed) _ member
      simp only [touched.1, touched.2.resolve_left both, Bool.not_true, Bool.or_self,
        Bool.false_eq_true, if_false, Bool.or_eq_true] at held
      obtain held | held := held
      · refine ⟨b, ⟨fun _ _ dead => dead, fun ip peer apart away => ?_⟩, held⟩
        simp [Fault.cuts, both, apart, away]
      · refine ⟨a, ⟨fun _ _ dead => dead, fun ip peer apart away => ?_⟩, held⟩
        simp [Fault.cuts, both, apart, away]

theorem quorum_of_counted {group : List IpAddr}
    (held : outage.Counts replication group) :
    ∃ chosen, outage.Quorum replication chosen ∧
      ∀ {replica ip}, chosen replica = true → replica.ip = some ip → ip ∉ group := by
  let counted ip := !(outage.dead.contains ip || isCut outage ip (ipsOf replication) ||
    group.contains ip)
  let chosen (replica : Replica) := decide (replica ∈ replicasOf replication) &&
    replica.ip.all counted
  have known {replica : Replica} {ip : IpAddr} (taken : chosen replica = true)
      (at_ : replica.ip = some ip) : ip ∈ ipsOf replication ∧ ip ∉ outage.dead ∧
        isCut outage ip (ipsOf replication) = false ∧ ip ∉ group := by
    simp only [chosen, counted, at_, Option.all_some, Bool.and_eq_true, decide_eq_true_eq,
      Bool.not_eq_true', Bool.or_eq_false_iff, contains_eq_mem,
      decide_eq_false_iff_not] at taken
    exact ⟨mem_ipsOf taken.1 at_, taken.2.1.1, taken.2.1.2, taken.2.2⟩
  refine ⟨chosen, ⟨fun replica taken => ?_, fun taken at_ => (known taken at_).2.1,
    fun taken also at_ away apart => ?_, ?_⟩, fun taken at_ => (known taken at_).2.2.2⟩
  · simp only [chosen, Bool.and_eq_true, decide_eq_true_eq] at taken
    exact taken.1
  · obtain ⟨listed, alive, -⟩ := known also away
    have clear := any_eq_false.mp (known taken at_).2.2.1 _ listed
    simpa [alive, apart.symm] using clear
  · refine replication.progress.holds_mono (fun replica member ok => ?_) held
    simp only [chosen, Bool.and_eq_true, decide_eq_true_eq]
    exact ⟨mem_append_left _ (mem_append_right _ member), ok⟩

theorem Quorum.spared {chosen : Replica → Bool} {group : IpAddr → Prop}
    (quorum : outage.Quorum replication chosen) (spares : fault.Spares outage group)
    (outside : ∀ {replica ip}, chosen replica = true → replica.ip = some ip → ¬ group ip) :
    (outage.strike fault).Quorum replication chosen :=
  { quorum with
    alive := fun taken at_ dead => quorum.alive taken at_ (spares.1 _ (outside taken at_) dead)
    connected := fun taken also at_ away apart => Bool.or_eq_false_iff.mpr
      ⟨quorum.connected taken also at_ away apart,
        spares.2 _ _ (outside taken at_) (outside also away)⟩ }

theorem Fault.spares_of_untouched (untouched : fault.touches replication = false) :
    fault.Spares outage (· ∉ ipsOf replication) := by
  simp only [Fault.Spares, not_not]
  cases fault with
  | kill victims =>
    refine ⟨fun ip member dead => (mem_append.mp dead).resolve_left fun victim => ?_,
      fun _ _ _ _ => rfl⟩
    simpa [victim] using any_eq_false.mp untouched ip member
  | split a b =>
    refine ⟨fun _ _ dead => dead, fun ip peer here there => ?_⟩
    simp only [Fault.touches, Bool.and_eq_false_iff, Bool.or_eq_false_iff,
      any_eq_false] at untouched
    obtain away | ⟨both, away⟩ := untouched <;>
    · simp_all [Fault.cuts]

theorem keeps_of_admits (admitted : outage.admits requirements fault = true)
    (required : Required requirements replication) : fault.Keeps outage replication := by
  constructor
  · intro touched
    obtain ⟨group, spares, held⟩ := counted_of_admits admitted required touched
    obtain ⟨chosen, quorum, outside⟩ := quorum_of_counted held
    exact ⟨chosen, quorum.spared spares outside⟩
  · intro untouched chosen quorum
    exact quorum.spared (Fault.spares_of_untouched untouched) fun taken at_ =>
      not_not.mpr (mem_ipsOf (quorum.named _ taken) at_)

end

def admitsAll (requirements : Requirements) : Outage → List Fault → Bool
  | _, [] => true
  | outage, fault :: faults =>
    outage.admits requirements fault && admitsAll requirements (outage.strike fault) faults

/-- After a fault the gate admits, every required replication it touches has live, connected
replicas that can progress, and any other keeps those it had; so does every sequence of such
faults. -/
theorem gate_keeps_progress_quorums (requirements : Requirements) :
    (∀ (outage : Outage) (fault : Fault), outage.admits requirements fault = true →
      ∀ replication, Required requirements replication → fault.Keeps outage replication) ∧
    ∀ (outage : Outage) (faults : List Fault), outage.admitsAll requirements faults = true →
      (∀ replication, Required requirements replication →
        ∃ chosen, outage.Quorum replication chosen) →
      ∀ replication, Required requirements replication →
        ∃ chosen, (faults.foldl strike outage).Quorum replication chosen := by
  refine ⟨fun outage fault admitted replication => keeps_of_admits admitted,
    fun outage faults admitted healthy => ?_⟩
  induction faults generalizing outage with
  | nil => exact healthy
  | cons fault faults ih =>
    rw [admitsAll, Bool.and_eq_true] at admitted
    refine ih (outage.strike fault) admitted.2 fun replication required => ?_
    obtain ⟨touched, untouched⟩ := keeps_of_admits admitted.1 required
    obtain ⟨chosen, quorum⟩ := healthy replication required
    cases meets : fault.touches replication with
    | true => exact touched meets
    | false => exact ⟨chosen, untouched meets chosen quorum⟩

def trio : Replication :=
  let replicas := [1, 2, 3].map replicaAt
  ⟨replicas, .atLeast 2 replicas, .atLeast 1 replicas⟩

/-- One of them may be killed while the other two reach each other. -/
theorem gate_keeps_progress_quorums_killed :
    ∃ chosen, (strike ⟨[], fun _ _ => false⟩ (.kill [3])).Quorum trio chosen := by
  refine ((gate_keeps_progress_quorums (.insert .empty [] [trio])).1 _ _ (by decide) trio
    ⟨([], [trio]), ?_, ?_⟩).1 (by decide)
  · exact mem_singleton.mpr rfl
  · exact mem_singleton.mpr rfl

end Outage

end Moonpool.Sim
