import Mathlib.Data.Finset.Card
import Mathlib.Data.Finset.Range
import Mathlib.Data.List.Infix
import Mathlib.Data.Nat.ModEq
import Moonpool.Sim.Replication

/-!
Contract: a drawn fault pattern never lets random damage reach more copies than the group
tolerates.

Owns:
- what `draw` makes of the members' localities: a tolerance below the number of domains, and
  few enough marked domains under the minority and the striped pattern (`draw_spec`);
- the domains one turn of a pattern covers: a rolling window of `tolerance` domains, the marked
  domains, and of the others at most one for each stripe;
- `draw_spares`: at one turn, and for one stripe, the domains whose copies may be damaged are at
  most the tolerance and not all of them.

Does not own what a run of turns does to one domain after the other.
-/

namespace Moonpool.Sim

open Lib List

namespace ReplicationPlan

theorem length_le_tolerance (plan : ReplicationPlan) (turn : Nat) {domains : List Nat}
    (distinct : domains.Nodup)
    (inside : ∀ domain ∈ domains,
      domain < plan.domainCount ∧ plan.inWindow domain turn = true) :
    domains.length ≤ plan.tolerance := by
  let offset := fun domain => (domain + plan.domainCount - turn % plan.domainCount) % plan.domainCount
  have apart : (domains.map offset).Nodup := by
    refine List.Nodup.map_on (fun first member second other same => ?_) distinct
    have below := (inside first member).1
    have start : turn % plan.domainCount ≤ plan.domainCount :=
      Nat.le_of_lt (Nat.mod_lt _ (Nat.lt_of_le_of_lt (Nat.zero_le _) below))
    have shifted : first + (plan.domainCount - turn % plan.domainCount) ≡
        second + (plan.domainCount - turn % plan.domainCount) [MOD plan.domainCount] := by
      rw [← Nat.add_sub_assoc start, ← Nat.add_sub_assoc start]
      exact same
    exact (Nat.ModEq.add_right_cancel' _ shifted).eq_of_lt_of_lt below (inside second other).1
  have bounded : (domains.map offset).toFinset ⊆ Finset.range plan.tolerance := by
    intro value member
    obtain ⟨domain, there, rfl⟩ := mem_map.mp (mem_toFinset.mp member)
    exact Finset.mem_range.mpr (of_decide_eq_true (inside domain there).2)
  calc domains.length = (domains.map offset).toFinset.card := by
        rw [toFinset_card_of_nodup apart, length_map]
    _ ≤ (Finset.range plan.tolerance).card := Finset.card_le_card bounded
    _ = plan.tolerance := Finset.card_range _

theorem count_mark (draws : List Nat) (picks : Nat) (pool : List Nat) (marked : List Bool) :
    (mark draws picks pool marked).length = marked.length ∧
      (mark draws picks pool marked).count true ≤ marked.count true + picks := by
  induction picks generalizing draws pool marked with
  | zero => exact ⟨rfl, le_refl _⟩
  | succ picks ih =>
    obtain ⟨length, count⟩ := ih draws.tail
      ((pool.set (draws.headD 0 % pool.length) (pool.getLastD 0)).dropLast)
      (marked.set (pool.getD (draws.headD 0 % pool.length) 0) true)
    refine ⟨length.trans length_set, count.trans ?_⟩
    generalize pool.getD (draws.headD 0 % pool.length) 0 = domain
    rw [Nat.add_comm picks, ← Nat.add_assoc]
    apply Nat.add_le_add_right
    by_cases inside : domain < marked.length
    · rw [count_set inside, beq_self_eq_true, if_pos rfl]
      exact Nat.add_le_add_right (Nat.sub_le _ _) 1
    · rw [set_eq_of_length_le (Nat.le_of_not_lt inside)]
      exact Nat.le_succ _

variable {plan : ReplicationPlan}

theorem length_le_marked {domains : List Nat} (distinct : domains.Nodup)
    (inside : ∀ domain ∈ domains, plan.marked.getD domain false = true) :
    domains.length ≤ plan.marked.count true := by
  have listed : domains ⊆ (range plan.marked.length).filter (plan.marked.getD · false) := by
    intro domain member
    have marked := inside domain member
    grind
  have all : (range plan.marked.length).map (plan.marked.getD · false) = plan.marked := by
    apply ext_getElem <;> grind
  calc domains.length
      ≤ ((range plan.marked.length).filter (plan.marked.getD · false)).length :=
        (distinct.subperm listed).length_le
    _ = ((range plan.marked.length).map (plan.marked.getD · false)).count true := by
        rw [count, countP_map, countP_eq_length_filter]
        simp [Function.comp_def]
    _ = plan.marked.count true := by rw [all]

theorem le_of_rotatesTo {domain other stripe : Nat} (known : domain < plan.domainCount)
    (here : plan.rotatesTo domain stripe = true) (there : plan.rotatesTo other stripe = true) :
    other ≤ domain := by
  by_contra! later
  unfold rotatesTo at here there
  split at here
  · cases here
  next unmarked =>
  split at there
  · cases there
  have more : ((plan.marked.take (domain + 1)).filter (!·)).length ≤
      ((plan.marked.take other).filter (!·)).length :=
    ((take_isPrefix_take.mpr (.inl later)).sublist.filter _).length_le
  rw [take_add_one, getElem?_eq_getElem known, filter_append, length_append] at more
  grind [domainCount]

theorem draw_spec {tolerance : Nat} (localities : SortedMap IpAddr Text) (kind : PatternKind)
    (draws : List Nat) (positive : 0 < tolerance) :
    let plan := draw tolerance localities kind draws
    plan.tolerance ≤ min tolerance (plan.domainCount - 1) ∧
      (∀ {owner domain}, plan.domain owner = some domain → domain < plan.domainCount) ∧
      (plan.pattern = .minority → plan.marked.count true ≤ plan.tolerance) ∧
      (plan.pattern = .striped → plan.marked.count true < plan.tolerance) := by
  simp only [draw, domain, domainCount]
  generalize (SortedMap.insertKeys .empty localities.values).keys = domains
  have marks (picks : Nat) :=
    count_mark draws picks (range domains.length) (replicate domains.length false)
  simp only [length_replicate, count_replicate, beq_iff_eq, Bool.false_eq_true, if_false,
    Nat.zero_add] at marks
  generalize made : foldl _ (SortedMap.empty : SortedMap IpAddr Nat) localities.entries = domainOf
  have known : ∀ owner domain, domainOf.find owner = some domain → domain < domains.length := by
    rw [← made]
    refine foldlRecOn (motive := fun placed => ∀ owner domain,
      SortedMap.find placed owner = some domain → domain < domains.length) _ _ nofun ?_
    intro placed below entry _ owner domain found
    split at found
    next index position =>
      have inside := (findIdx?_eq_some_iff_getElem.mp position).1
      grind [SortedMap.find_insert]
    next => exact below owner domain found
  split
  · simpa only [length_replicate] using ⟨Nat.zero_le _, known _ _, nofun, nofun⟩
  cases kind with
  | rolling => simpa only [length_replicate] using ⟨le_refl _, known _ _, nofun, nofun⟩
  | striped =>
    simp only [(marks _).1]
    refine ⟨le_refl _, known _ _, nofun, fun _ => ?_⟩
    have few := (marks (min tolerance (domains.length - 1) - 1)).2
    omega
  | minority =>
    simp only [(marks _).1]
    exact ⟨le_refl _, known _ _, fun _ => (marks _).2, nofun⟩

/-- However a plan is drawn, damage that may hit the bytes of a stripe, or bytes that are in none,
hits at most `tolerance` domains, and spares one. -/
theorem draw_spares {tolerance : Nat} (localities : SortedMap IpAddr Text) (kind : PatternKind)
    (draws : List Nat) (positive : 0 < tolerance) (turn stripe : Nat) {domains : List Nat}
    (distinct : domains.Nodup) :
    let plan := draw tolerance localities kind draws
    (∀ domain ∈ domains, ∃ owner layout path sector, plan.domain owner = some domain ∧
      plan.allows owner layout path sector turn = true ∧
      let stripes := (layout.map fun layout => layout.stripes path sector).getD []
      stripes = [] ∨ none ∈ stripes ∨ some stripe ∈ stripes) →
    domains.length ≤ min tolerance (plan.domainCount - 1) := by
  intro plan damaged
  obtain ⟨clamped, known, minority, striped⟩ := draw_spec localities kind draws positive
  refine le_trans ?_ clamped
  cases pattern : plan.pattern with
  | spared =>
    cases domains with
    | nil => exact Nat.zero_le _
    | cons domain domains =>
      obtain ⟨owner, layout, path, sector, placed, allowed, -⟩ := damaged domain mem_cons_self
      simp [allows, placed, pattern] at allowed
  | minority =>
    refine le_trans (length_le_marked distinct fun domain member => ?_) (minority pattern)
    obtain ⟨owner, layout, path, sector, placed, allowed, -⟩ := damaged domain member
    simpa only [allows, placed, pattern] using allowed
  | rolling =>
    refine length_le_tolerance plan turn distinct fun domain member => ?_
    obtain ⟨owner, layout, path, sector, placed, allowed, -⟩ := damaged domain member
    exact ⟨known placed, by simpa only [allows, placed, pattern] using allowed⟩
  | striped =>
    have rotates {domain : Nat} (member : domain ∈ domains)
        (unmarked : ¬plan.marked.getD domain false = true) :
        domain < plan.domainCount ∧ plan.rotatesTo domain stripe = true := by
      obtain ⟨owner, layout, path, sector, placed, allowed, holds⟩ := damaged domain member
      refine ⟨known placed, ?_⟩
      simp only [allows, placed, pattern, unmarked] at allowed
      grind
    have fewer : plan.marked.count true < plan.tolerance := striped pattern
    change domains.length ≤ plan.tolerance
    by_cases all : ∀ domain ∈ domains, plan.marked.getD domain false = true
    · exact (length_le_marked distinct all).trans fewer.le
    · push Not at all
      obtain ⟨last, member, unmarked⟩ := all
      have rest := length_le_marked (distinct.erase last) fun domain other => by
        obtain ⟨differs, there⟩ := distinct.mem_erase_iff.mp other
        by_contra free
        have here := rotates member unmarked
        have too := rotates there free
        exact differs (le_antisymm (le_of_rotatesTo here.1 here.2 too.2)
          (le_of_rotatesTo too.1 too.2 here.2))
      rw [length_erase_of_mem member] at rest
      omega

/-- Of two domains the first may lose the second stripe. -/
theorem draw_spares_striped :
    let plan := draw 1 ((SortedMap.empty.insert 1 ['a']).insert 2 ['b']) .striped []
    let layout := LayoutIndex.new [⟨['f'], ⟨0, 512⟩, some 2, none⟩]
    plan.allows 1 (some layout) ['f'] 0 0 = true ∧ [0].length ≤ min 1 (plan.domainCount - 1) :=
  have allowed := by decide
  ⟨allowed, draw_spares _ _ _ Nat.one_pos 0 2 (nodup_singleton 0) fun domain member =>
    ⟨1, _, ['f'], 0, by rw [mem_singleton.mp member]; decide, allowed, by decide⟩⟩

end ReplicationPlan

end Moonpool.Sim
