import Mathlib.Algebra.Order.Ring.Nat

/-!
Owns stable storage as a map of cells under writes that are not yet synced.

An `Image` is what a crash keeps (`durable`) and the writes still in flight
(`pending`).  A crash resolves every cell in flight on its own: to its old value,
to its new one, or to a value the predicate `lost` admits.  Cells with no write in
flight never change.  Nothing here knows what the cells hold.
-/

namespace Moonpool.Lib

universe u v

/-- Cells on stable storage and the writes not yet synced to them. -/
structure Image (α : Type u) (β : Type v) where
  durable : α → β
  pending : α → Option β

namespace Image

variable {α : Type u} {β : Type v} (image : Image α β)

def settled (cells : α → β) : Image α β :=
  ⟨cells, fun _ => none⟩

/-- What a reader sees: the write in flight, else what is durable. -/
def visible (cell : α) : β :=
  (image.pending cell).getD (image.durable cell)

/-- Put a write in flight on every cell `region` gives a value. -/
def write (region : α → Option β) : Image α β :=
  { image with pending := fun cell => (region cell).or (image.pending cell) }

/-- Make the cells `chosen` picks durable as a reader sees them. -/
def flush (chosen : α → Bool) : Image α β where
  durable cell := if chosen cell then image.visible cell else image.durable cell
  pending cell := if chosen cell then none else image.pending cell

def sync : Image α β :=
  settled image.visible

/-- The cells a crash may leave: each write in flight is absent, complete, or lost. -/
def Resolves (lost : β → Prop) (image : Image α β) (cells : α → β) : Prop :=
  ∀ cell, cells cell = image.durable cell ∨
    ∃ value, image.pending cell = some value ∧ (cells cell = value ∨ lost (cells cell))

/-- `cells` is `base` under part of a write: each cell of `region` may hold it, or be lost. -/
def Overlay (lost : β → Prop) (region : α → Option β) (base cells : α → β) : Prop :=
  ∀ cell, cells cell = base cell ∨
    ∃ value, region cell = some value ∧ (cells cell = value ∨ lost (cells cell))

theorem visible_write (region : α → Option β) (cell : α) :
    (image.write region).visible cell = (region cell).getD (image.visible cell) := by
  cases fresh : region cell <;> simp [visible, write, fresh]

section Resolves

variable {lost : β → Prop} {image : Image α β} {cells : α → β}

theorem resolves_visible : image.Resolves lost image.visible := by
  intro cell
  cases shape : image.pending cell with
  | none => exact .inl (by simp [visible, shape])
  | some value => exact .inr ⟨value, rfl, .inl (by simp [visible, shape])⟩

theorem Resolves.unchanged (resolved : image.Resolves lost cells) {cell : α}
    (quiet : image.pending cell = none) : cells cell = image.durable cell := by
  rcases resolved cell with same | ⟨value, shape, -⟩
  · exact same
  · rw [quiet] at shape
    cases shape

theorem resolves_settled {final : α → β} :
    (settled final).Resolves lost cells ↔ cells = final := by
  constructor
  · intro resolved
    funext cell
    exact resolved.unchanged rfl
  · rintro rfl cell
    exact .inl rfl

theorem resolves_of_sync (resolved : image.sync.Resolves lost cells) :
    image.Resolves lost cells := by
  rw [sync, resolves_settled] at resolved
  subst resolved
  exact resolves_visible

theorem resolves_of_flush {chosen : α → Bool} (resolved : (image.flush chosen).Resolves lost cells) :
    image.Resolves lost cells := by
  intro cell
  have here := resolved cell
  by_cases picked : chosen cell
  · have landed : cells cell = image.visible cell := by
      simpa [flush, picked] using here
    have shown : image.Resolves lost image.visible := resolves_visible
    rw [landed]
    exact shown cell
  · simpa [flush, picked] using here

theorem Resolves.write_overlay {region : α → Option β}
    (resolved : (image.write region).Resolves lost cells) :
    ∃ base, image.Resolves lost base ∧ Overlay lost region base cells := by
  classical
  refine ⟨fun cell => if (region cell).isSome then image.durable cell else cells cell, ?_, ?_⟩
  · intro cell
    cases fresh : region cell with
    | some written => exact .inl (by simp [fresh])
    | none => simpa [write, fresh] using resolved cell
  · intro cell
    cases fresh : region cell with
    | none => exact .inl (by simp [fresh])
    | some written =>
      rcases resolved cell with same | ⟨value, shape, landed⟩
      · exact .inl (by simpa [fresh, write] using same)
      · refine .inr ⟨value, ?_, landed⟩
        simpa [write, fresh] using shape

theorem Resolves.flush_write {region : α → Option β} {chosen : α → Bool}
    (covers : ∀ cell, chosen cell = (region cell).isSome)
    (resolved : ((image.write region).flush chosen).Resolves lost cells) :
    ∃ base, image.Resolves lost base ∧ ∀ cell, cells cell = (region cell).getD (base cell) := by
  refine ⟨fun cell => if chosen cell then image.durable cell else cells cell, ?_, ?_⟩
  · intro cell
    by_cases picked : chosen cell
    · exact .inl (by simp [picked])
    · have absent : region cell = none := by simpa [covers] using picked
      simpa [picked, flush, write, absent] using resolved cell
  · intro cell
    by_cases picked : chosen cell
    · have landed : cells cell = (image.write region).visible cell := by
        simpa [flush, picked] using resolved cell
      obtain ⟨value, fresh⟩ := Option.isSome_iff_exists.mp ((covers cell).symm.trans picked)
      rw [landed, visible_write, fresh]
      rfl
    · have absent : region cell = none := by simpa [covers] using picked
      simp [picked, absent]

theorem Overlay.mono {region wider : α → Option β} {base : α → β}
    (overlay : Overlay lost region base cells)
    (within : ∀ cell value, region cell = some value → wider cell = some value) :
    Overlay lost wider base cells := by
  intro cell
  rcases overlay cell with same | ⟨value, fresh, landed⟩
  · exact .inl same
  · exact .inr ⟨value, within cell value fresh, landed⟩

end Resolves

end Image

end Moonpool.Lib
