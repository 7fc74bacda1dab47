import Mathlib.Algebra.Order.Ring.Nat

/-!
Owns finite maps kept as a list of entries sorted by key: the map an ordered tree holds,
and the order in which it is walked.

A map is known by what it finds at each key.  Insertion, removal and filtering are given by
what they leave there, so that a proof about a program that uses a map never looks at the
list.  The walk visits every entry once, in the order of the keys (`sorted`).
-/

namespace Moonpool.Lib

open List

universe u v

/-- Entries sorted by key, each key at most once. -/
structure SortedMap (κ : Type u) (ν : Type v) [LinearOrder κ] where
  entries : List (κ × ν)
  sorted : entries.Pairwise fun first second => first.1 < second.1

/-- A sorted set is a map that says nothing about its keys. -/
abbrev SortedSet (κ : Type u) [LinearOrder κ] : Type u := SortedMap κ Unit

namespace SortedMap

variable {κ : Type u} {ν : Type v} [LinearOrder κ] (map : SortedMap κ ν)

def empty : SortedMap κ ν := ⟨[], List.Pairwise.nil⟩

def find (map : SortedMap κ ν) (key : κ) : Option ν :=
  (map.entries.find? fun entry => entry.1 = key).map Prod.snd

def contains (key : κ) : Bool := (map.find key).isSome

def keys : List κ := map.entries.map Prod.fst

def values : List ν := map.entries.map Prod.snd

def insertEntry (key : κ) (value : ν) : List (κ × ν) → List (κ × ν)
  | [] => [(key, value)]
  | head :: rest =>
    if key < head.1 then (key, value) :: head :: rest
    else if key = head.1 then (key, value) :: rest
    else head :: insertEntry key value rest

variable {key : κ} {value : ν} {entries : List (κ × ν)}

theorem mem_insertEntry {entry : κ × ν} (member : entry ∈ insertEntry key value entries) :
    entry = (key, value) ∨ entry ∈ entries := by
  induction entries with
  | nil => exact .inl (mem_singleton.mp member)
  | cons head rest ih =>
    rw [insertEntry] at member
    split at member
    · exact mem_cons.mp member
    split at member
    · rcases mem_cons.mp member with same | later
      · exact .inl same
      · exact .inr (mem_cons_of_mem _ later)
    · rcases mem_cons.mp member with rfl | later
      · exact .inr mem_cons_self
      · exact (ih later).imp_right (mem_cons_of_mem _)

theorem sorted_insertEntry (key : κ) (value : ν)
    (sorted : entries.Pairwise fun first second => first.1 < second.1) :
    (insertEntry key value entries).Pairwise fun first second => first.1 < second.1 := by
  induction entries with
  | nil => exact pairwise_singleton _ _
  | cons head rest ih =>
    obtain ⟨above, sortedRest⟩ := pairwise_cons.mp sorted
    rw [insertEntry]
    split
    next below =>
      refine pairwise_cons.mpr ⟨fun entry member => ?_, sorted⟩
      rcases mem_cons.mp member with rfl | later
      · exact below
      · exact lt_trans below (above entry later)
    split
    next same => exact pairwise_cons.mpr ⟨fun entry member => same ▸ above entry member,
      sortedRest⟩
    next notBelow differs =>
      refine pairwise_cons.mpr ⟨fun entry member => ?_, ih sortedRest⟩
      rcases mem_insertEntry member with rfl | later
      · exact lt_of_le_of_ne (not_lt.mp notBelow) (Ne.symm differs)
      · exact above entry later

def insert (key : κ) (value : ν) : SortedMap κ ν :=
  ⟨insertEntry key value map.entries, sorted_insertEntry key value map.sorted⟩

def filter (map : SortedMap κ ν) (keep : κ → ν → Bool) : SortedMap κ ν :=
  ⟨map.entries.filter fun entry => keep entry.1 entry.2, map.sorted.filter _⟩

def remove (key : κ) : SortedMap κ ν :=
  map.filter fun other _ => decide (other ≠ key)

def modify (key : κ) (change : ν → ν) : SortedMap κ ν :=
  match map.find key with
  | none => map
  | some value => map.insert key (change value)

def mapValues (change : κ → ν → ν) : SortedMap κ ν :=
  ⟨map.entries.map fun entry => (entry.1, change entry.1 entry.2),
    pairwise_map.mpr map.sorted⟩

def union (map other : SortedMap κ ν) : SortedMap κ ν :=
  other.entries.foldl (fun joined entry => joined.insert entry.1 entry.2) map

def insertKeys (set : SortedSet κ) (keys : List κ) : SortedSet κ :=
  keys.foldl (fun set key => set.insert key ()) set

theorem eq_of_mem_of_mem {first second : ν}
    (sorted : entries.Pairwise fun first second => first.1 < second.1)
    (one : (key, first) ∈ entries) (other : (key, second) ∈ entries) : first = second := by
  induction entries with
  | nil => cases one
  | cons head rest ih =>
    obtain ⟨above, sortedRest⟩ := pairwise_cons.mp sorted
    rcases mem_cons.mp one with isHead | later
    · rcases mem_cons.mp other with alsoHead | alsoLater
      · exact congrArg Prod.snd (isHead.trans alsoHead.symm)
      · have := above _ alsoLater
        rw [← isHead] at this
        exact absurd this (lt_irrefl key)
    · rcases mem_cons.mp other with alsoHead | alsoLater
      · have := above _ later
        rw [← alsoHead] at this
        exact absurd this (lt_irrefl key)
      · exact ih sortedRest later alsoLater

variable {map : SortedMap κ ν}

theorem find_eq_some : map.find key = some value ↔ (key, value) ∈ map.entries := by
  rw [find, Option.map_eq_some_iff]
  constructor
  · rintro ⟨entry, found, rfl⟩
    have here : entry.1 = key := by simpa using find?_some found
    rw [← here]
    exact mem_of_find?_eq_some found
  · intro member
    cases found : map.entries.find? fun entry => decide (entry.1 = key) with
    | none =>
      have := find?_eq_none.mp found _ member
      simp at this
    | some entry =>
      refine ⟨entry, rfl, ?_⟩
      have here : entry.1 = key := by simpa using find?_some found
      have there : (key, entry.2) ∈ map.entries := by
        rw [← here]
        exact mem_of_find?_eq_some found
      exact eq_of_mem_of_mem map.sorted there member

theorem find_congr {other : SortedMap κ ν}
    (same : ∀ value, (key, value) ∈ map.entries ↔ (key, value) ∈ other.entries) :
    map.find key = other.find key := by
  apply Option.ext
  intro value
  rw [find_eq_some, find_eq_some, same value]

@[simp] theorem find_empty (key : κ) : (empty : SortedMap κ ν).find key = none := rfl

theorem contains_eq_true : map.contains key = true ↔ ∃ value, map.find key = some value :=
  Option.isSome_iff_exists

theorem mem_keys : key ∈ map.keys ↔ ∃ value, map.find key = some value := by
  simp only [keys, mem_map, find_eq_some]
  constructor
  · rintro ⟨entry, member, rfl⟩
    exact ⟨entry.2, member⟩
  · rintro ⟨value, member⟩
    exact ⟨(key, value), member, rfl⟩

theorem mem_values : value ∈ map.values ↔ ∃ key, map.find key = some value := by
  simp only [values, mem_map, find_eq_some]
  constructor
  · rintro ⟨entry, member, rfl⟩
    exact ⟨entry.1, member⟩
  · rintro ⟨key, member⟩
    exact ⟨(key, value), member, rfl⟩

theorem mem_insertEntry_self (key : κ) (value : ν) (entries : List (κ × ν)) :
    (key, value) ∈ insertEntry key value entries := by
  induction entries with
  | nil => exact mem_singleton.mpr rfl
  | cons head rest ih =>
    rw [insertEntry]
    split
    · exact mem_cons_self
    split
    · exact mem_cons_self
    · exact mem_cons_of_mem _ ih

theorem mem_insertEntry_of_ne {entry : κ × ν} (differs : entry.1 ≠ key) (member : entry ∈ entries) :
    entry ∈ insertEntry key value entries := by
  induction entries with
  | nil => cases member
  | cons head rest ih =>
    rw [insertEntry]
    split
    · exact mem_cons_of_mem _ member
    split
    next same =>
      rcases mem_cons.mp member with rfl | later
      · exact absurd same.symm differs
      · exact mem_cons_of_mem _ later
    · rcases mem_cons.mp member with rfl | later
      · exact mem_cons_self
      · exact mem_cons_of_mem _ (ih later)

@[simp] theorem find_insert_self (map : SortedMap κ ν) (key : κ) (value : ν) :
    (map.insert key value).find key = some value :=
  find_eq_some.mpr (mem_insertEntry_self key value map.entries)

theorem find_insert_of_ne {other : κ} (differs : other ≠ key) :
    (map.insert key value).find other = map.find other := by
  apply find_congr
  intro found
  constructor
  · intro member
    rcases mem_insertEntry member with same | there
    · exact absurd (congrArg Prod.fst same) differs
    · exact there
  · exact mem_insertEntry_of_ne differs

section

variable (map)

theorem find_insert (key other : κ) (value : ν) :
    (map.insert key value).find other = if other = key then some value else map.find other := by
  split
  next same => rw [same, find_insert_self]
  next differs => exact find_insert_of_ne differs

theorem find_filter (keep : κ → ν → Bool) (key : κ) :
    (map.filter keep).find key = (map.find key).filter (keep key) := by
  apply Option.ext
  intro value
  rw [find_eq_some, Option.filter_eq_some_iff, find_eq_some]
  exact mem_filter

theorem find_remove (key other : κ) :
    (map.remove key).find other = if other = key then none else map.find other := by
  rw [remove, find_filter]
  split
  next same => cases map.find other <;> simp [same]
  next differs => cases map.find other <;> simp [differs]

@[simp] theorem find_remove_self (key : κ) :
    (map.remove key).find key = none := by
  rw [find_remove, if_pos rfl]

theorem find_modify (key other : κ) (change : ν → ν) :
    (map.modify key change).find other =
      if other = key then (map.find other).map change else map.find other := by
  unfold modify
  split
  next absent =>
    split
    next same => rw [same, absent]; rfl
    next => rfl
  next value there =>
    rw [find_insert]
    split
    next same => rw [same, there]; rfl
    next => rfl

theorem find_foldl_insert (key : κ)
    (sorted : entries.Pairwise fun first second => first.1 < second.1) :
    (entries.foldl (fun joined entry => joined.insert entry.1 entry.2) map).find key =
      ((⟨entries, sorted⟩ : SortedMap κ ν).find key).or (map.find key) := by
  induction entries generalizing map with
  | nil => rfl
  | cons head rest ih =>
    obtain ⟨above, sortedRest⟩ := pairwise_cons.mp sorted
    rw [foldl_cons, ih _ sortedRest, find_insert]
    by_cases same : key = head.1
    · have absent : (⟨rest, sortedRest⟩ : SortedMap κ ν).find key = none := by
        apply Option.eq_none_iff_forall_ne_some.mpr
        intro value found
        have past : head.1 < key := above (key, value) (find_eq_some.mp found)
        exact absurd (same ▸ past) (lt_irrefl key)
      have here : (⟨head :: rest, sorted⟩ : SortedMap κ ν).find key = some head.2 := by
        rw [find_eq_some, same]
        exact mem_cons_self
      rw [absent, here, if_pos same]
      rfl
    · have later : (⟨head :: rest, sorted⟩ : SortedMap κ ν).find key =
          (⟨rest, sortedRest⟩ : SortedMap κ ν).find key := by
        apply find_congr
        intro value
        refine ⟨fun member => ?_, mem_cons_of_mem head⟩
        rcases mem_cons.mp member with isHead | inRest
        · exact absurd (congrArg Prod.fst isHead) same
        · exact inRest
      rw [later, if_neg same]

end

theorem find_union (map other : SortedMap κ ν) (key : κ) :
    (map.union other).find key = (other.find key).or (map.find key) :=
  find_foldl_insert map key other.sorted

theorem contains_insertKeys {set : SortedSet κ} {keys : List κ} :
    (insertKeys set keys).contains key = true ↔ set.contains key = true ∨ key ∈ keys := by
  induction keys generalizing set with
  | nil => simp [insertKeys]
  | cons head rest ih =>
    refine ih.trans ?_
    rw [contains_eq_true, find_insert, contains_eq_true, mem_cons]
    by_cases same : key = head
    · simp [same]
    · simp [same]

end SortedMap

end Moonpool.Lib
