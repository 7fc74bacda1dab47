import Mathlib.Algebra.Order.Ring.Nat
import Std.Data.ExtTreeMap

/-!
Owns counting the entries of an ordered map by group: how many entries of a map fall in a
group, and how inserting and erasing a key changes that.
-/

namespace Moonpool.Lib

open Std

universe u v w

variable {κ : Type u} {ν : Type v} {γ : Type w} [DecidableEq γ] {cmp : κ → κ → Ordering}
  [TransCmp cmp] [LawfulEqCmp cmp] {map : ExtTreeMap κ ν cmp} {group : ν → γ} {key : κ}
  {value old : ν} {place : γ}

def tally (group : ν → γ) (map : ExtTreeMap κ ν cmp) (place : γ) : Nat :=
  (map.filter fun _ value => decide (group value = place)).size

private theorem filter_insert_in (same : group value = place) :
    (map.insert key value).filter (fun _ value => decide (group value = place)) =
      (map.filter fun _ value => decide (group value = place)).insert key value := by
  apply ExtTreeMap.ext_getElem?
  intro other
  simp only [ExtTreeMap.getElem?_filter', ExtTreeMap.getElem?_insert]
  split <;> simp [same]

private theorem filter_insert_out (apart : group value ≠ place) :
    (map.insert key value).filter (fun _ value => decide (group value = place)) =
      (map.filter fun _ value => decide (group value = place)).erase key := by
  apply ExtTreeMap.ext_getElem?
  intro other
  simp only [ExtTreeMap.getElem?_filter', ExtTreeMap.getElem?_insert, ExtTreeMap.getElem?_erase]
  split <;> simp [apart]

private theorem filter_erase :
    (map.erase key).filter (fun _ value => decide (group value = place)) =
      (map.filter fun _ value => decide (group value = place)).erase key := by
  apply ExtTreeMap.ext_getElem?
  intro other
  simp only [ExtTreeMap.getElem?_filter', ExtTreeMap.getElem?_erase]
  split <;> simp

private theorem contains_filter (here : map[key]? = some old) :
    (map.filter fun _ value => decide (group value = place)).contains key =
      decide (group old = place) := by
  rw [ExtTreeMap.contains_eq_isSome_getElem?, ExtTreeMap.getElem?_filter', here]
  by_cases same : group old = place <;> simp [same]

private theorem not_contains_filter (absent : map[key]? = none) :
    (map.filter fun _ value => decide (group value = place)).contains key = false := by
  rw [ExtTreeMap.contains_eq_isSome_getElem?, ExtTreeMap.getElem?_filter', absent]
  rfl

theorem tally_pos (here : map[key]? = some old) (same : group old = place) :
    0 < tally group map place := by
  have listed : (key, old) ∈ (map.filter fun _ value => decide (group value = place)).toList := by
    rw [ExtTreeMap.mem_toList_iff_getElem?_eq_some, ExtTreeMap.getElem?_filter', here]
    simp [same]
  have positive := List.length_pos_of_mem listed
  rwa [ExtTreeMap.length_toList] at positive

theorem exists_of_tally_pos (positive : 0 < tally group map place) :
    ∃ (key : κ) (value : ν), map[key]? = some value ∧ group value = place := by
  rw [tally, ← ExtTreeMap.length_toList] at positive
  obtain ⟨⟨key, value⟩, member⟩ := List.exists_mem_of_length_pos positive
  rw [ExtTreeMap.mem_toList_iff_getElem?_eq_some, ExtTreeMap.getElem?_filter',
    Option.filter_eq_some_iff] at member
  exact ⟨key, value, member.1, of_decide_eq_true member.2⟩

theorem tally_insert_new (absent : map[key]? = none) :
    tally group (map.insert key value) place =
      tally group map place + if group value = place then 1 else 0 := by
  unfold tally
  by_cases same : group value = place
  · rw [filter_insert_in same, ExtTreeMap.size_insert, not_contains_filter absent]
    simp [same]
  · rw [filter_insert_out same, ExtTreeMap.size_erase, not_contains_filter absent]
    simp [same]

theorem tally_erase (here : map[key]? = some old) :
    tally group (map.erase key) place =
      tally group map place - if group old = place then 1 else 0 := by
  unfold tally
  rw [filter_erase, ExtTreeMap.size_erase, contains_filter here]
  by_cases same : group old = place <;> simp [same]

theorem tally_empty : tally group (∅ : ExtTreeMap κ ν cmp) place = 0 := by
  have empty : (∅ : ExtTreeMap κ ν cmp).filter (fun _ value => decide (group value = place)) = ∅ := by
    apply ExtTreeMap.ext_getElem?
    intro other
    simp
  unfold tally
  rw [empty]
  simp

end Moonpool.Lib
