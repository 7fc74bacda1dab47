import Mathlib.Algebra.Order.Ring.Nat
import Mathlib.Data.List.Nodup

/-!
Owns lists of cells that are changed in place, and loops that change them.

`overlay` rewrites the cells a partial function names and keeps the rest; `resize` cuts or
extends.  Both are given by what they leave at each position.  `foldl_each` is the rule
for a loop over distinct items whose steps only disturb their own item.
-/

namespace Moonpool.Lib

open List

universe u v

variable {α : Type u} {σ : Type v}

def overlay (cells : List α) (value : Nat → Option α) : List α :=
  cells.mapIdx fun index old => (value index).getD old

@[simp] theorem overlay_length (cells : List α) (value : Nat → Option α) :
    (overlay cells value).length = cells.length := by
  simp [overlay]

theorem overlay_getElem? (cells : List α) (value : Nat → Option α) (index : Nat) :
    (overlay cells value)[index]? = cells[index]?.map fun old => (value index).getD old := by
  simp [overlay]

section

variable {cells : List α} {value : Nat → Option α} {index : Nat}

theorem overlay_of_none
    (silent : value index = none) : (overlay cells value)[index]? = cells[index]? := by
  rw [overlay_getElem?, silent]
  simp

theorem overlay_of_some {cell : α}
    (written : value index = some cell) (inside : index < cells.length) :
    (overlay cells value)[index]? = some cell := by
  rw [overlay_getElem?, written, getElem?_eq_getElem inside]
  rfl

end

/-- `cells` cut or extended to `count`, `fill` giving the new ones. -/
def resize (cells : List α) (count : Nat) (fill : Nat → α) : List α :=
  cells.take count ++ (range' cells.length (count - cells.length)).map fill

@[simp] theorem resize_length (cells : List α) (count : Nat) (fill : Nat → α) :
    (resize cells count fill).length = count := by
  simp only [resize, length_append, length_take, length_map, length_range']
  omega

section

variable {cells : List α} {count index : Nat} (fill : Nat → α) (inside : index < count)

include fill inside

theorem resize_getElem?_old (old : index < cells.length) :
    (resize cells count fill)[index]? = cells[index]? := by
  rw [resize, getElem?_append_left (by rw [length_take]; omega),
    getElem?_take_of_lt inside]

theorem resize_getElem?_new (gained : cells.length ≤ index) :
    (resize cells count fill)[index]? = some (fill index) := by
  have whole : cells.take count = cells := take_of_length_le (by omega)
  rw [resize, whole, getElem?_append_right gained, getElem?_map,
    getElem?_range' (by omega)]
  simp only [Option.map_some, one_mul]
  rw [Nat.add_sub_cancel' gained]

end

/-- A loop over distinct items keeps `inv` when each step does, and leaves the others ready. -/
theorem foldl_each {ι : Type} {step : σ → ι → σ} (inv : σ → Prop) (ready : ι → σ → Prop)
    (items : List ι) (distinct : items.Nodup) (state : σ) (holds : inv state)
    (start : ∀ item ∈ items, ready item state)
    (keeps : ∀ state item, inv state → ready item state → inv (step state item))
    (apart : ∀ state item other, other ≠ item → ready other state → ready other (step state item)) :
    inv (items.foldl step state) := by
  induction items generalizing state with
  | nil => exact holds
  | cons item rest ih =>
    obtain ⟨absent, distinct⟩ := nodup_cons.mp distinct
    apply ih distinct
    · exact keeps state item holds (start item mem_cons_self)
    · intro other member
      have differs : other ≠ item := fun same => absent (same ▸ member)
      exact apart state item other differs (start other (mem_cons_of_mem item member))

end Moonpool.Lib
