import Mathlib.Algebra.Order.Ring.Nat

/-!
Owns byte strings read from the front: little-endian numbers, codecs for fields, and
readers that consume a byte string field by field.

A `Codec` is a field with both laws: reading what was written gives it back and leaves
the rest, and whatever is read was written.  A `Reading` is a reader that may also stop
with an error; the two bind lemmas say what a successful one consumed.
-/

namespace Moonpool.Lib

universe u

/-! ### Little-endian numbers -/

/-- The `width` low bytes of `value`, least significant first. -/
def littleEndian (width value : Nat) : List UInt8 :=
  (List.range width).map fun index => UInt8.ofNat (value / 256 ^ index)

/-- The number `bytes` spell, least significant first. -/
def ofLittleEndian (bytes : List UInt8) : Nat :=
  bytes.foldr (fun byte rest => byte.toNat + 256 * rest) 0

@[simp] theorem littleEndian_length (width value : Nat) :
    (littleEndian width value).length = width := by
  simp [littleEndian]

theorem littleEndian_succ (width value : Nat) :
    littleEndian (width + 1) value = UInt8.ofNat value :: littleEndian width (value / 256) := by
  rw [littleEndian, List.range_succ_eq_map, List.map_cons, List.map_map, Nat.pow_zero,
    Nat.div_one]
  apply congrArg (UInt8.ofNat value :: ·)
  apply List.map_congr_left
  intro index _
  simp only [Function.comp_apply, Nat.succ_eq_add_one, Nat.pow_succ']
  rw [Nat.div_div_eq_div_mul]

theorem ofLittleEndian_cons (byte : UInt8) (rest : List UInt8) :
    ofLittleEndian (byte :: rest) = byte.toNat + 256 * ofLittleEndian rest := rfl

theorem ofLittleEndian_digits (width : Nat) : ∀ value : Nat,
    ofLittleEndian (littleEndian width value) = value % 256 ^ width := by
  induction width with
  | zero => intro value; simp [littleEndian, ofLittleEndian, Nat.mod_one]
  | succ width ih =>
    intro value
    have split : value % 256 ^ (width + 1) = value % 256 + 256 * (value / 256 % 256 ^ width) := by
      rw [Nat.pow_succ', Nat.mod_mul]
    rw [littleEndian_succ, ofLittleEndian_cons, ih, UInt8.toNat_ofNat', split]

theorem ofLittleEndian_littleEndian {width value : Nat} (fits : value < 256 ^ width) :
    ofLittleEndian (littleEndian width value) = value := by
  rw [ofLittleEndian_digits, Nat.mod_eq_of_lt fits]

theorem ofLittleEndian_lt (bytes : List UInt8) : ofLittleEndian bytes < 256 ^ bytes.length := by
  induction bytes with
  | nil => simp [ofLittleEndian]
  | cons byte rest ih =>
    have low := byte.toNat_lt
    rw [ofLittleEndian_cons, List.length_cons, Nat.pow_succ']
    omega

theorem littleEndian_ofLittleEndian (bytes : List UInt8) :
    littleEndian bytes.length (ofLittleEndian bytes) = bytes := by
  induction bytes with
  | nil => rfl
  | cons byte rest ih =>
    have low := byte.toNat_lt
    rw [List.length_cons, littleEndian_succ, ofLittleEndian_cons]
    have high : (byte.toNat + 256 * ofLittleEndian rest) / 256 = ofLittleEndian rest := by omega
    have head : UInt8.ofNat (byte.toNat + 256 * ofLittleEndian rest) = byte := by
      apply UInt8.toNat.inj
      rw [UInt8.toNat_ofNat']
      omega
    rw [high, head, ih]

/-! ### Fields -/

/-- A field of a byte string: what is written is read back, and what is read is what would be
written. -/
structure Codec (α : Type u) where
  encode : α → List UInt8
  read : List UInt8 → Option (α × List UInt8)
  read_encode : ∀ value rest, read (encode value ++ rest) = some (value, rest)
  encode_read : ∀ {input value rest}, read input = some (value, rest) → input = encode value ++ rest

def readSlice (count : Nat) (input : List UInt8) : Option (List UInt8 × List UInt8) :=
  if input.length < count then none else some (input.take count, input.drop count)

theorem readSlice_append {count : Nat} {front : List UInt8} (rest : List UInt8)
    (long : front.length = count) : readSlice count (front ++ rest) = some (front, rest) := by
  subst long
  simp [readSlice]

theorem readSlice_eq {count : Nat} {input front rest : List UInt8}
    (taken : readSlice count input = some (front, rest)) :
    front.length = count ∧ input = front ++ rest := by
  unfold readSlice at taken
  split at taken
  next short => contradiction
  next enough =>
    cases taken
    constructor
    · rw [List.length_take]
      omega
    · exact (List.take_append_drop count input).symm

namespace Codec

variable {α : Type u}

/-- A number of `width` bytes, least significant first, in a type exactly as wide. -/
def unsigned (width : Nat) (toNat : α → Nat) (ofNat : Nat → α)
    (bounded : ∀ value, toNat value < 256 ^ width) (back : ∀ value, ofNat (toNat value) = value)
    (forth : ∀ number, number < 256 ^ width → toNat (ofNat number) = number) : Codec α where
  encode value := littleEndian width (toNat value)
  read input := (readSlice width input).map fun taken => (ofNat (ofLittleEndian taken.1), taken.2)
  read_encode value rest := by
    rw [readSlice_append rest (littleEndian_length _ _), Option.map_some,
      ofLittleEndian_littleEndian (bounded value), back]
  encode_read := by
    intro input value rest found
    obtain ⟨⟨front, after⟩, taken, same⟩ := Option.map_eq_some_iff.mp found
    obtain ⟨long, whole⟩ := readSlice_eq taken
    cases same
    subst long
    rw [forth _ (ofLittleEndian_lt front), littleEndian_ofLittleEndian]
    exact whole

def octets (count : Nat) : Codec (Vector UInt8 count) where
  encode value := value.toList
  read input :=
    if long : (input.take count).length = count then
      some (⟨(input.take count).toArray, long⟩, input.drop count)
    else none
  read_encode value rest := by
    have front : (value.toList ++ rest).take count = value.toList := by simp
    have after : (value.toList ++ rest).drop count = rest := by simp
    simp only [front, after, Vector.length_toList, ↓reduceDIte]
    rfl
  encode_read := by
    intro input value rest found
    split at found
    next long =>
      cases found
      exact (List.take_append_drop count input).symm
    next short => contradiction

end Codec

/-! ### Readers -/

/-- A reader that consumes bytes from the front, or stops with an error. -/
abbrev Reading (ε α : Type) : Type := StateT (List UInt8) (Except ε) α

namespace Reading

variable {ε α β : Type}

def field (codec : Codec α) (short : ε) : Reading ε α := fun input =>
  match codec.read input with
  | some taken => .ok taken
  | none => .error short

def slice (count : Nat) (short : ε) : Reading ε (List UInt8) := fun input =>
  match readSlice count input with
  | some taken => .ok taken
  | none => .error short

def rest : Reading ε (List UInt8) := fun input => .ok (input, [])

def ended (trailing : ε) : Reading ε Unit := fun input =>
  if input.isEmpty then .ok ((), input) else .error trailing

/-- Go on with what was computed from the fields read so far, or stop with its error. -/
def decoded (result : Except ε α) : Reading ε α := fun input =>
  match result with
  | .ok value => .ok (value, input)
  | .error error => .error error

variable {first : Reading ε α} {next : α → Reading ε β} {codec : Codec α} {short : ε}
  {input after : List UInt8} {value : α} {result : β × List UInt8}

theorem bind_of_ok (taken : first input = .ok (value, after)) :
    (first >>= next) input = next value after := by
  change (first input).bind _ = _
  rw [taken]
  rfl

theorem ok_of_bind (done : (first >>= next) input = .ok result) :
    ∃ value after, first input = .ok (value, after) ∧ next value after = .ok result := by
  change (first input).bind _ = _ at done
  cases taken : first input with
  | error error => rw [taken] at done; cases done
  | ok pair => rw [taken] at done; exact ⟨pair.1, pair.2, rfl, done⟩

@[simp] theorem field_encode (codec : Codec α) (short : ε) (value : α) (after : List UInt8) :
    field codec short (codec.encode value ++ after) = .ok (value, after) := by
  unfold field
  rw [codec.read_encode]

@[simp] theorem field_bind_encode (codec : Codec α) (short : ε) (next : α → Reading ε β)
    (value : α) (after : List UInt8) :
    (field codec short >>= next) (codec.encode value ++ after) = next value after :=
  bind_of_ok (field_encode codec short value after)

@[simp] theorem field_bind_encode_last (codec : Codec α) (short : ε) (next : α → Reading ε β)
    (value : α) : (field codec short >>= next) (codec.encode value) = next value [] := by
  rw [← List.append_nil (codec.encode value), field_bind_encode]

theorem ok_of_field (done : (field codec short >>= next) input = .ok result) :
    ∃ value after, input = codec.encode value ++ after ∧ next value after = .ok result := by
  obtain ⟨value, after, taken, later⟩ := ok_of_bind done
  unfold field at taken
  split at taken
  next found =>
    cases taken
    exact ⟨value, after, codec.encode_read found, later⟩
  next missing => cases taken

@[simp] theorem rest_bind (next : List UInt8 → Reading ε β) (input : List UInt8) :
    (rest >>= next) input = next input [] := rfl

theorem slice_bind_append {count : Nat} {front : List UInt8} (short : ε)
    (next : List UInt8 → Reading ε β) (after : List UInt8) (long : front.length = count) :
    (slice count short >>= next) (front ++ after) = next front after := by
  apply bind_of_ok
  unfold slice
  rw [readSlice_append after long]

theorem ok_of_slice {count : Nat} {next : List UInt8 → Reading ε β}
    (done : (slice count short >>= next) input = .ok result) :
    ∃ front after, front.length = count ∧ input = front ++ after ∧ next front after = .ok result := by
  obtain ⟨front, after, taken, later⟩ := ok_of_bind done
  unfold slice at taken
  split at taken
  next found =>
    cases taken
    exact ⟨front, after, (readSlice_eq found).1, (readSlice_eq found).2, later⟩
  next missing => cases taken

@[simp] theorem ended_bind_nil (trailing : ε) (next : Unit → Reading ε β) :
    (ended trailing >>= next) [] = next () [] := rfl

@[simp] theorem decoded_bind_ok (value : α) (next : α → Reading ε β) (input : List UInt8) :
    (decoded (.ok value) >>= next) input = next value input := rfl

@[simp] theorem pure_run (value : β) (input : List UInt8) :
    (pure value : Reading ε β) input = .ok (value, input) := rfl

theorem ok_of_ended {trailing : ε} {next : Unit → Reading ε β}
    (done : (ended trailing >>= next) input = .ok result) :
    input = [] ∧ next () [] = .ok result := by
  obtain ⟨_, last, taken, later⟩ := ok_of_bind done
  cases input with
  | nil =>
    cases taken
    exact ⟨rfl, later⟩
  | cons byte rest => cases taken

theorem ok_of_decoded {given : Except ε α}
    (done : (decoded given >>= next) input = .ok result) :
    ∃ value, given = .ok value ∧ next value input = .ok result := by
  cases given with
  | error error => cases done
  | ok value => exact ⟨value, rfl, done⟩

theorem ok_of_map {build : α → β} {given : Except ε α} {built : β}
    (done : build <$> given = .ok built) : ∃ value, given = .ok value ∧ build value = built := by
  cases given with
  | error error => cases done
  | ok value => exact ⟨value, rfl, Except.ok.inj done⟩

end Reading

end Moonpool.Lib
