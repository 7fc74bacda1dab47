import Moonpool.Lib.Cells

/-!
Owns fixed layouts: fields written at their offsets into a buffer, and read back from there.

A field is an offset and the bytes for it.  Fields written one behind the other are all
read back.
-/

namespace Moonpool.Lib

open List

def put (buffer : List UInt8) (field : Nat × List UInt8) : List UInt8 :=
  overlay buffer fun index => if field.1 ≤ index then field.2[index - field.1]? else none

def bytesAt (buffer : List UInt8) (start len : Nat) : List UInt8 := (buffer.drop start).take len

/-- `one` ends where `other` starts or earlier. -/
abbrev Before (one other : Nat × List UInt8) : Prop := one.1 + one.2.length ≤ other.1

instance : Trans Before Before Before where
  trans first second := le_trans first (Nat.le_of_add_right_le second)

variable {buffer : List UInt8} {field : Nat × List UInt8} {start len : Nat}

theorem bytesAt_getElem? (buffer : List UInt8) (start len index : Nat) :
    (bytesAt buffer start len)[index]? = if index < len then buffer[start + index]? else none := by
  rw [bytesAt, getElem?_take, getElem?_drop]

theorem bytesAt_length (inside : start + len ≤ buffer.length) :
    (bytesAt buffer start len).length = len := by
  rw [bytesAt, length_take, length_drop]
  omega

@[simp] theorem put_length (buffer : List UInt8) (field : Nat × List UInt8) :
    (put buffer field).length = buffer.length := overlay_length _ _

theorem put_outside {index : Nat} (outside : index < field.1 ∨ field.1 + field.2.length ≤ index) :
    (put buffer field)[index]? = buffer[index]? := by
  apply overlay_of_none
  split
  · exact getElem?_eq_none (by omega)
  · rfl

theorem bytesAt_put (inside : field.1 + field.2.length ≤ buffer.length) :
    bytesAt (put buffer field) field.1 field.2.length = field.2 := by
  apply ext_getElem?
  intro index
  rw [bytesAt_getElem?]
  split
  next below =>
    rw [getElem?_eq_getElem below]
    apply overlay_of_some _ (by omega)
    rw [if_pos (Nat.le_add_right _ _), Nat.add_sub_cancel_left, getElem?_eq_getElem below]
  next past => exact (getElem?_eq_none (Nat.le_of_not_lt past)).symm

theorem put_put {other : List UInt8} (same : other.length = field.2.length) :
    put (put buffer (field.1, other)) field = put buffer field := by
  apply ext_getElem?
  intro index
  by_cases inside : field.1 ≤ index ∧ index < field.1 + field.2.length
  · have here : field.2[index - field.1]? ≠ none := by
      rw [ne_eq, getElem?_eq_none_iff]
      omega
    obtain ⟨byte, here⟩ := Option.ne_none_iff_exists'.mp here
    simp only [put, overlay_getElem?, if_pos inside.1, here, Option.getD_some, Option.map_map]
    rfl
  · rw [put_outside (by omega), put_outside (by simp only [same]; omega), put_outside (by omega)]

theorem bytesAt_append_left {front behind : List UInt8} (inside : start + len ≤ front.length) :
    bytesAt (front ++ behind) start len = bytesAt front start len := by
  apply ext_getElem?
  intro index
  rw [bytesAt_getElem?, bytesAt_getElem?]
  split
  · exact getElem?_append_left (by omega)
  · rfl

theorem bytesAt_put_of_apart (apart : start + len ≤ field.1 ∨ field.1 + field.2.length ≤ start) :
    bytesAt (put buffer field) start len = bytesAt buffer start len := by
  apply ext_getElem?
  intro index
  rw [bytesAt_getElem?, bytesAt_getElem?]
  split
  · exact put_outside (by omega)
  · rfl

theorem puts_length (fields : List (Nat × List UInt8)) :
    (fields.foldl put buffer).length = buffer.length := by
  induction fields generalizing buffer with
  | nil => rfl
  | cons head rest ih => rw [foldl_cons, ih, put_length]

theorem bytesAt_puts_of_apart {fields : List (Nat × List UInt8)}
    (apart : ∀ field ∈ fields, start + len ≤ field.1 ∨ field.1 + field.2.length ≤ start) :
    bytesAt (fields.foldl put buffer) start len = bytesAt buffer start len := by
  refine foldlRecOn (motive := fun after => bytesAt after start len = bytesAt buffer start len)
    fields put rfl fun after same field member => ?_
  exact (bytesAt_put_of_apart (apart field member)).trans same

theorem bytesAt_puts {fields : List (Nat × List UInt8)} (chain : fields.IsChain Before)
    (inside : ∀ field ∈ fields, field.1 + field.2.length ≤ buffer.length)
    (member : field ∈ fields) :
    bytesAt (fields.foldl put buffer) field.1 field.2.length = field.2 := by
  have ordered := isChain_iff_pairwise.mp chain
  clear chain
  induction fields generalizing buffer with
  | nil => cases member
  | cons head rest ih =>
    obtain ⟨first, ordered⟩ := pairwise_cons.mp ordered
    rw [foldl_cons]
    rcases mem_cons.mp member with rfl | later
    · rw [bytesAt_puts_of_apart fun other within => .inl (first other within)]
      exact bytesAt_put (inside field mem_cons_self)
    apply ih _ later ordered
    intro other within
    rw [put_length]
    exact inside other (mem_cons_of_mem _ within)

end Moonpool.Lib
