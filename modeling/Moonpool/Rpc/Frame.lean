import Moonpool.Lib.Codec

/-!
Owns the frames of a connection: the header, the encoder and the incremental parser
(`protocol/frame.rs`).

A frame is a length, a checksum over the length and the payload, and the payload.  The
parser is fed whatever a read returned.  `scan` says what a whole byte string holds,
with no buffer and no feeds; the parser refines it under every way of cutting the
string into feeds.

XXH3 is a parameter: any function of the bytes.  `usize` is 64 bits wide.
-/

namespace Moonpool.Rpc

open Lib List

class Xxh3 where
  digest : List UInt8 → UInt64

abbrev headerLen : Nat := 12

inductive FrameError where
  | tooLarge (size : Nat) (limit : UInt32)
  | empty
  | checksum (expected computed : UInt64)
deriving DecidableEq

/-! ### The incremental parser -/

/-- Incremental frame parser over arbitrarily split input. -/
structure FrameDecoder where
  buffer : List UInt8
  start : Nat
  maxFrameBytes : UInt32
  failed : Option FrameError
  within : start ≤ buffer.length

namespace FrameDecoder

variable (decoder : FrameDecoder)

def new (maxFrameBytes : UInt32) : FrameDecoder :=
  ⟨[], 0, maxFrameBytes, none, le_refl 0⟩

/-- Append received bytes, dropping a consumed front once it is half of the buffer. -/
def feed (bytes : List UInt8) : FrameDecoder :=
  if 0 < decoder.start ∧ decoder.buffer.length / 2 ≤ decoder.start then
    { decoder with
      buffer := decoder.buffer.drop decoder.start ++ bytes
      start := 0
      within := Nat.zero_le _ }
  else
    { decoder with
      buffer := decoder.buffer ++ bytes
      within := by have := decoder.within; rw [length_append]; omega }

def pending : List UInt8 :=
  decoder.buffer.drop decoder.start

def buffered : Nat :=
  decoder.buffer.length - decoder.start

def fail (error : FrameError) :
    Except FrameError (Option (List UInt8)) × FrameDecoder :=
  (.error error, { decoder with failed := some error })

/-- Step over a frame of `total` bytes; an emptied buffer is cleared. -/
def advance (total : Nat) (holds : total ≤ decoder.pending.length) :
    FrameDecoder :=
  if decoder.start + total = decoder.buffer.length then
    { decoder with buffer := [], start := 0, within := le_refl 0 }
  else
    { decoder with
      start := decoder.start + total
      within := by have := decoder.within; simp [pending] at holds; omega }

variable {decoder : FrameDecoder}

section

variable (decoder) (bytes : List UInt8)

include bytes

@[simp] theorem feed_pending :
    (decoder.feed bytes).pending = decoder.pending ++ bytes := by
  unfold feed pending
  split
  · rfl
  · exact drop_append_of_le_length decoder.within

@[simp] theorem feed_failed :
    (decoder.feed bytes).failed = decoder.failed := by
  unfold feed
  split <;> rfl

@[simp] theorem feed_maxFrameBytes :
    (decoder.feed bytes).maxFrameBytes = decoder.maxFrameBytes := by
  unfold feed
  split <;> rfl

end

theorem buffered_eq (decoder : FrameDecoder) : decoder.buffered = decoder.pending.length := by
  rw [buffered, pending, length_drop]

section

variable {total : Nat} (holds : total ≤ decoder.pending.length)

include holds

theorem advance_pending :
    (decoder.advance total holds).pending = decoder.pending.drop total := by
  unfold advance pending
  rw [drop_drop]
  split
  next all => rw [all, drop_length, drop_nil]
  next part => rfl

theorem advance_failed :
    (decoder.advance total holds).failed = decoder.failed := by
  unfold advance
  split <;> rfl

theorem advance_maxFrameBytes :
    (decoder.advance total holds).maxFrameBytes = decoder.maxFrameBytes := by
  unfold advance
  split <;> rfl

end

end FrameDecoder

section Hashed

variable [Xxh3]

def checksum (length payload : List UInt8) : UInt64 :=
  Xxh3.digest (length ++ payload)

def encodeFrame (payload : List UInt8) (maxFrameBytes : UInt32) :
    Except FrameError (List UInt8) :=
  if maxFrameBytes.toNat < payload.length then
    .error (.tooLarge payload.length maxFrameBytes)
  else if payload.isEmpty then .error .empty
  else if 2 ^ 32 ≤ payload.length then .error (.tooLarge payload.length maxFrameBytes)
  else
    let length := littleEndian 4 payload.length
    .ok (length ++ littleEndian 8 (checksum length payload).toNat ++ payload)

def FrameDecoder.nextFrame (decoder : FrameDecoder) :
    Except FrameError (Option (List UInt8)) × FrameDecoder :=
  match decoder.failed with
  | some error => (.error error, decoder)
  | none =>
    let pending := decoder.pending
    if pending.length < 4 then (.ok none, decoder)
    else
      let lengthBytes := pending.take 4
      let length := ofLittleEndian lengthBytes
      if decoder.maxFrameBytes.toNat < length then
        decoder.fail (.tooLarge length decoder.maxFrameBytes)
      else if length = 0 then decoder.fail .empty
      else
        let total := length + headerLen
        -- The checked addition on `usize`.
        if 2 ^ 64 ≤ total then decoder.fail (.tooLarge length decoder.maxFrameBytes)
        else if holds : pending.length < total then (.ok none, decoder)
        else
          let expected := UInt64.ofNat (ofLittleEndian ((pending.take headerLen).drop 4))
          let payload := (pending.take total).drop headerLen
          let computed := checksum lengthBytes payload
          if computed ≠ expected then decoder.fail (.checksum expected computed)
          else (.ok (some payload), decoder.advance total (Nat.le_of_not_lt holds))

/-! ### What a byte string holds -/

/-- The front of a byte string: part of a frame, broken, or a whole frame with what follows. -/
inductive Verdict where
  | wait
  | lost (error : FrameError)
  | whole (payload rest : List UInt8)
deriving DecidableEq

def judge (limit : UInt32) (bytes : List UInt8) : Verdict :=
  if bytes.length < 4 then .wait
  else
    let length := ofLittleEndian (bytes.take 4)
    if limit.toNat < length then .lost (.tooLarge length limit)
    else if length = 0 then .lost .empty
    else if bytes.length < length + headerLen then .wait
    else
      let expected := UInt64.ofNat (ofLittleEndian ((bytes.take headerLen).drop 4))
      let payload := (bytes.take (length + headerLen)).drop headerLen
      let computed := checksum (bytes.take 4) payload
      if computed ≠ expected then .lost (.checksum expected computed)
      else .whole payload (bytes.drop (length + headerLen))

variable {limit : UInt32} {bytes payload rest : List UInt8}

theorem judge_whole_shorter (found : judge limit bytes = .whole payload rest) :
    rest.length < bytes.length := by
  simp only [judge] at found
  repeat' split at found
  all_goals first | contradiction | skip
  cases found
  rw [length_drop]
  omega

private def frameOf (payload : List UInt8) : List UInt8 :=
  littleEndian 4 payload.length ++
    littleEndian 8 (checksum (littleEndian 4 payload.length) payload).toNat ++ payload

variable {frame : List UInt8}

theorem encodeFrame_ok :
    encodeFrame payload limit = .ok frame ↔
      payload.length ≤ limit.toNat ∧ payload ≠ [] ∧ frame = frameOf payload := by
  have narrow := limit.toNat_lt
  unfold encodeFrame
  split
  next large =>
    constructor
    · intro framed
      cases framed
    · omega
  next fits =>
    split
    next void =>
      have gone : payload = [] := isEmpty_iff.mp void
      simp [gone]
    next filled =>
      have some : payload ≠ [] := fun gone => filled (isEmpty_iff.mpr gone)
      rw [if_neg (by omega)]
      simp only [frameOf, Except.ok.injEq, some, ne_eq, not_false_eq_true, true_and]
      constructor
      · intro same
        exact ⟨by omega, same.symm⟩
      · intro same
        exact same.2.symm

private theorem frameOf_length (payload : List UInt8) :
    (frameOf payload).length = payload.length + headerLen := by
  simp only [frameOf, headerLen, length_append, littleEndian_length]
  omega

section

variable (framed : encodeFrame payload limit = .ok frame)

include framed

theorem encodeFrame_length :
    frame.length = payload.length + headerLen := by
  obtain ⟨-, -, rfl⟩ := encodeFrame_ok.mp framed
  exact frameOf_length payload

theorem encodeFrame_drop :
    frame.drop headerLen = payload := by
  obtain ⟨-, -, rfl⟩ := encodeFrame_ok.mp framed
  apply drop_left'
  simp only [length_append, littleEndian_length]

theorem judge_frame :
    judge limit (frame ++ rest) = .whole payload rest := by
  obtain ⟨fits, filled, rfl⟩ := encodeFrame_ok.mp framed
  have narrow := limit.toNat_lt
  have positive : 0 < payload.length := length_pos_iff.mpr filled
  have size := frameOf_length payload
  have lengthBytes : (frameOf payload ++ rest).take 4 = littleEndian 4 payload.length := by
    rw [frameOf, append_assoc, append_assoc, take_left' (littleEndian_length _ _)]
  have length : ofLittleEndian (littleEndian 4 payload.length) = payload.length := by
    apply ofLittleEndian_littleEndian
    omega
  have header : (frameOf payload ++ rest).take headerLen =
      littleEndian 4 payload.length ++
        littleEndian 8 (checksum (littleEndian 4 payload.length) payload).toNat := by
    rw [frameOf, append_assoc, take_left' (by simp)]
  have body : (frameOf payload ++ rest).take (payload.length + headerLen) = frameOf payload :=
    take_left' size
  have expected : UInt64.ofNat (ofLittleEndian
      (littleEndian 8 (checksum (littleEndian 4 payload.length) payload).toNat)) =
      checksum (littleEndian 4 payload.length) payload := by
    rw [ofLittleEndian_littleEndian (UInt64.toNat_lt _)]
    exact UInt64.ofNat_toNat
  have inner : (frameOf payload).drop headerLen = payload := by
    rw [frameOf, drop_left' (by simp)]
  have after : (frameOf payload ++ rest).drop (payload.length + headerLen) = rest :=
    drop_left' size
  have enough : ¬ (frameOf payload ++ rest).length < payload.length + headerLen := by
    rw [length_append, size]
    omega
  unfold judge
  rw [if_neg (by simp only [headerLen] at enough; omega)]
  simp only [lengthBytes, length, header, body, inner, after,
    drop_left' (littleEndian_length 4 payload.length), expected]
  rw [if_neg (by omega), if_neg (by omega), if_neg enough, if_neg (by simp)]

end

theorem frame_of_judge (found : judge limit bytes = .whole payload rest) :
    ∃ frame, encodeFrame payload limit = .ok frame ∧ bytes = frame ++ rest := by
  simp only [judge] at found
  repeat' split at found
  all_goals first | contradiction | skip
  next enough small positive long matching =>
  cases found
  generalize size : ofLittleEndian (bytes.take 4) = length at *
  have front : (bytes.take 4).length = 4 := by rw [length_take]; omega
  have spelled : littleEndian 4 length = bytes.take 4 := by
    have back := littleEndian_ofLittleEndian (bytes.take 4)
    rwa [front, size] at back
  have payloadLength : ((bytes.take (length + headerLen)).drop headerLen).length = length := by
    rw [length_drop, length_take]
    omega
  refine ⟨_, encodeFrame_ok.mpr ⟨by omega, ?_, rfl⟩, ?_⟩
  · intro gone
    rw [gone] at payloadLength
    exact positive payloadLength.symm
  · have second : ((bytes.take headerLen).drop 4).length = 8 := by
      rw [length_drop, length_take]
      simp only [headerLen] at long ⊢
      omega
    have sum := Decidable.not_not.mp matching
    have sumBytes : littleEndian 8 (checksum (bytes.take 4)
        ((bytes.take (length + headerLen)).drop headerLen)).toNat =
        (bytes.take headerLen).drop 4 := by
      have back := littleEndian_ofLittleEndian ((bytes.take headerLen).drop 4)
      have bound := ofLittleEndian_lt ((bytes.take headerLen).drop 4)
      rw [second] at back bound
      rw [sum, UInt64.toNat_ofNat_of_lt' bound, back]
    rw [frameOf, payloadLength, spelled, sumBytes]
    have head : bytes.take 4 = (bytes.take headerLen).take 4 := by
      rw [take_take]
      rfl
    have inner : bytes.take headerLen = (bytes.take (length + headerLen)).take headerLen := by
      rw [take_take, Nat.min_eq_left (Nat.le_add_left _ _)]
    rw [head, take_append_drop, inner, take_append_drop, take_append_drop]

theorem judge_append_whole (found : judge limit bytes = .whole payload rest) (more : List UInt8) :
    judge limit (bytes ++ more) = .whole payload (rest ++ more) := by
  obtain ⟨frame, framed, rfl⟩ := frame_of_judge found
  rw [append_assoc]
  exact judge_frame framed

theorem judge_append_lost {error : FrameError} (found : judge limit bytes = .lost error)
    (more : List UInt8) : judge limit (bytes ++ more) = .lost error := by
  have enough : 4 ≤ bytes.length := by
    apply Nat.le_of_not_lt
    intro short
    rw [judge, if_pos short] at found
    cases found
  have front : (bytes ++ more).take 4 = bytes.take 4 := take_append_of_le_length enough
  unfold judge at found ⊢
  rw [if_neg (by omega)] at found
  rw [if_neg (by rw [length_append]; omega)]
  simp only [front] at found ⊢
  split at found
  · rwa [if_pos ‹_›]
  rw [if_neg ‹_›]
  split at found
  · rwa [if_pos ‹_›]
  rw [if_neg ‹_›]
  split at found
  · cases found
  next small positive long =>
  have header : (bytes ++ more).take headerLen = bytes.take headerLen :=
    take_append_of_le_length (by omega)
  have body : (bytes ++ more).take (ofLittleEndian (bytes.take 4) + headerLen) =
      bytes.take (ofLittleEndian (bytes.take 4) + headerLen) :=
    take_append_of_le_length (by omega)
  rw [if_neg (by rw [length_append]; omega), header, body]
  split at found
  · rwa [if_pos ‹_›]
  · cases found

theorem judge_wait_short (found : judge limit bytes = .wait) :
    bytes.length < headerLen + limit.toNat := by
  simp only [judge, headerLen] at found ⊢
  repeat' split at found
  all_goals first | contradiction | omega

/-- What a byte string holds: its payloads, why it stops being frames, and what is left. -/
structure Scan where
  payloads : List (List UInt8)
  failure : Option FrameError
  left : List UInt8

def Scan.after (earlier : List (List UInt8)) (scan : Scan) : Scan :=
  { scan with payloads := earlier ++ scan.payloads }

/-- Take frames off the front of `bytes` until it ends or breaks. -/
def scan (limit : UInt32) (bytes : List UInt8) : Scan :=
  match _found : judge limit bytes with
  | .wait => ⟨[], none, bytes⟩
  | .lost error => ⟨[], some error, bytes⟩
  | .whole payload rest => (scan limit rest).after [payload]
termination_by bytes.length
decreasing_by exact judge_whole_shorter _found

variable {limit : UInt32} {bytes more payload rest : List UInt8} {error : FrameError}

theorem scan_wait (found : judge limit bytes = .wait) : scan limit bytes = ⟨[], none, bytes⟩ := by
  rw [scan]
  split <;> simp_all

theorem scan_lost (found : judge limit bytes = .lost error) :
    scan limit bytes = ⟨[], some error, bytes⟩ := by
  rw [scan]
  split <;> simp_all

theorem scan_whole (found : judge limit bytes = .whole payload rest) :
    scan limit bytes = (scan limit rest).after [payload] := by
  rw [scan]
  split <;> simp_all

/-- A byte string is scanned by a front of it, then what that left with the rest, unless the front
breaks. -/
theorem scan_append (limit : UInt32) (bytes more : List UInt8) :
    scan limit (bytes ++ more) =
      match (scan limit bytes).failure with
      | some error =>
        ⟨(scan limit bytes).payloads, some error, (scan limit bytes).left ++ more⟩
      | none =>
        (scan limit ((scan limit bytes).left ++ more)).after (scan limit bytes).payloads := by
  induction bytes using scan.induct limit with
  | case1 bytes found =>
    simp only [scan_wait found]
    rfl
  | case2 bytes error found =>
    simp only [scan_lost found, scan_lost (judge_append_lost found more)]
  | case3 bytes payload rest found ih =>
    simp only [scan_whole found, scan_whole (judge_append_whole found more),
      ih, Scan.after]
    split <;> simp_all

theorem scan_left_waits (limit : UInt32) (bytes : List UInt8)
    (sound : (scan limit bytes).failure = none) : judge limit (scan limit bytes).left = .wait := by
  induction bytes using scan.induct limit with
  | case1 bytes found =>
    rw [scan_wait found]
    exact found
  | case2 bytes error found =>
    rw [scan_lost found] at sound
    cases sound
  | case3 bytes payload rest found ih =>
    rw [scan_whole found] at sound ⊢
    exact ih sound

theorem scan_frames {payloads frames : List (List UInt8)}
    (framed : List.Forall₂ (fun payload frame => encodeFrame payload limit = .ok frame)
      payloads frames) :
    scan limit frames.flatten = ⟨payloads, none, []⟩ := by
  induction framed with
  | nil =>
    apply scan_wait
    rfl
  | cons head _ ih =>
    rw [flatten_cons, scan_whole (judge_frame head), ih]
    rfl

/-! ### The parser refines the scan -/

namespace FrameDecoder

variable {decoder : FrameDecoder}

theorem nextFrame_cases (healthy : decoder.failed = none) :
    (judge decoder.maxFrameBytes decoder.pending = .wait ∧
      decoder.nextFrame = (.ok none, decoder)) ∨
    (∃ error, judge decoder.maxFrameBytes decoder.pending = .lost error ∧
      decoder.nextFrame = decoder.fail error) ∨
    (∃ payload next, judge decoder.maxFrameBytes decoder.pending = .whole payload next.pending ∧
      decoder.nextFrame = (.ok (some payload), next) ∧ next.failed = none ∧
      next.maxFrameBytes = decoder.maxFrameBytes) := by
  have fits : ¬ 2 ^ 64 ≤ ofLittleEndian (decoder.pending.take 4) + headerLen := by
    have bound := ofLittleEndian_lt (decoder.pending.take 4)
    have short : (decoder.pending.take 4).length ≤ 4 := length_take_le 4 _
    have power := Nat.pow_le_pow_right (by decide : 0 < 256) short
    simp only [headerLen]
    omega
  simp only [nextFrame, healthy, judge, if_neg fits]
  split
  · exact .inl ⟨rfl, rfl⟩
  split
  · exact .inr (.inl ⟨_, rfl, rfl⟩)
  split
  · exact .inr (.inl ⟨_, rfl, rfl⟩)
  split
  · exact .inl ⟨rfl, rfl⟩
  next long =>
  split
  · exact .inr (.inl ⟨_, rfl, rfl⟩)
  refine .inr (.inr ⟨_, decoder.advance _ (Nat.le_of_not_lt long), ?_, rfl, ?_, ?_⟩)
  · rw [advance_pending]
  · rw [advance_failed, healthy]
  · rw [advance_maxFrameBytes]

theorem nextFrame_failed (failed : decoder.failed = some error) :
    decoder.nextFrame = (.error error, decoder) := by
  simp only [nextFrame, failed]

structure Drained where
  payloads : List (List UInt8)
  failure : Option FrameError
  decoder : FrameDecoder

def drainFor : Nat → FrameDecoder → Drained
  | 0, decoder => ⟨[], none, decoder⟩
  | calls + 1, decoder =>
    match decoder.nextFrame with
    | (.ok none, next) => ⟨[], none, next⟩
    | (.error error, next) => ⟨[], some error, next⟩
    | (.ok (some payload), next) =>
      let later := drainFor calls next
      { later with payloads := payload :: later.payloads }

/-- Call `nextFrame` until it has nothing or fails; one call more than there are bytes is enough. -/
def drain (decoder : FrameDecoder) : Drained :=
  drainFor (decoder.buffered + 1) decoder

def deliver (decoder : FrameDecoder) : List (List UInt8) → Drained
  | [] => ⟨[], none, decoder⟩
  | bytes :: later =>
    let first := (decoder.feed bytes).drain
    let others := first.decoder.deliver later
    ⟨first.payloads ++ others.payloads, first.failure.or others.failure, others.decoder⟩

/-- `drained` is what a scan found, and the parser holds what is left. -/
structure Matches (scan : Scan) (limit : UInt32) (drained : Drained) : Prop where
  payloads : drained.payloads = scan.payloads
  failure : drained.failure = scan.failure
  pending : drained.decoder.pending = scan.left
  failed : drained.decoder.failed = scan.failure
  limit : drained.decoder.maxFrameBytes = limit

theorem drainFor_scan (calls : Nat) (decoder : FrameDecoder) (healthy : decoder.failed = none)
    (enough : decoder.pending.length < calls) :
    Matches (scan decoder.maxFrameBytes decoder.pending) decoder.maxFrameBytes
      (drainFor calls decoder) := by
  induction calls generalizing decoder with
  | zero => omega
  | succ calls ih =>
    obtain ⟨found, next⟩ | ⟨error, found, next⟩ | ⟨payload, rest, found, next, sound, same⟩ :=
      nextFrame_cases healthy
    · rw [scan_wait found]
      simp only [drainFor, next]
      exact ⟨rfl, rfl, rfl, healthy, rfl⟩
    · rw [scan_lost found]
      simp only [drainFor, next, fail]
      exact ⟨rfl, rfl, rfl, rfl, rfl⟩
    · rw [scan_whole found]
      have shorter := judge_whole_shorter found
      have later := ih rest sound (by omega)
      rw [same] at later
      simp only [drainFor, next]
      exact { later with payloads := congrArg (payload :: ·) later.payloads }

theorem drain_scan (decoder : FrameDecoder) (healthy : decoder.failed = none) :
    Matches (scan decoder.maxFrameBytes decoder.pending) decoder.maxFrameBytes decoder.drain := by
  apply drainFor_scan _ _ healthy
  rw [buffered_eq]
  omega

theorem deliver_failed (feeds : List (List UInt8)) (failed : decoder.failed = some error) :
    (decoder.deliver feeds).payloads = [] ∧
      (decoder.deliver feeds).failure = (if feeds = [] then none else some error) ∧
      (decoder.deliver feeds).decoder.failed = some error := by
  induction feeds generalizing decoder with
  | nil => exact ⟨rfl, rfl, failed⟩
  | cons bytes later ih =>
    have fed : (decoder.feed bytes).failed = some error := by rw [feed_failed, failed]
    have drained : (decoder.feed bytes).drain = ⟨[], some error, decoder.feed bytes⟩ := by
      simp only [drain, drainFor, nextFrame_failed fed]
    obtain ⟨nothing, -, still⟩ := ih fed
    simp only [deliver, drained, nothing]
    exact ⟨rfl, by simp, still⟩

/-- However a stream is cut, a drained parser gives what a scan of all of it gives. -/
theorem deliver_scan (feeds : List (List UInt8)) (healthy : decoder.failed = none)
    (waits : judge decoder.maxFrameBytes decoder.pending = .wait) :
    (decoder.deliver feeds).payloads =
        (scan decoder.maxFrameBytes (decoder.pending ++ feeds.flatten)).payloads ∧
      (decoder.deliver feeds).failure =
        (scan decoder.maxFrameBytes (decoder.pending ++ feeds.flatten)).failure ∧
      ((decoder.deliver feeds).failure = none →
        judge decoder.maxFrameBytes (decoder.deliver feeds).decoder.pending = .wait) := by
  induction feeds generalizing decoder with
  | nil =>
    rw [flatten_nil, append_nil, scan_wait waits]
    exact ⟨rfl, rfl, fun _ => waits⟩
  | cons bytes later ih =>
    have first := drain_scan (decoder.feed bytes) (by rw [feed_failed, healthy])
    rw [feed_maxFrameBytes, feed_pending] at first
    rw [flatten_cons, ← append_assoc, scan_append]
    cases broken : (scan decoder.maxFrameBytes (decoder.pending ++ bytes)).failure with
    | some error =>
      have failed : (decoder.feed bytes).drain.decoder.failed = some error := by
        rw [first.failed, broken]
      obtain ⟨nothing, -, -⟩ := deliver_failed later failed
      simp only [deliver, nothing, first.payloads, first.failure, broken]
      exact ⟨append_nil _, rfl, fun sound => nomatch sound⟩
    | none =>
      have rests : judge (decoder.feed bytes).drain.decoder.maxFrameBytes
          (decoder.feed bytes).drain.decoder.pending = .wait := by
        rw [first.limit, first.pending]
        exact scan_left_waits _ _ broken
      obtain ⟨payloads, failure, waiting⟩ :=
        ih (by rw [first.failed, broken]) rests
      rw [first.limit, first.pending] at payloads failure
      rw [first.limit] at waiting
      simp only [deliver, first.payloads, first.failure, broken, payloads, Option.none_or]
      exact ⟨rfl, failure, waiting⟩

theorem failed_of_nextFrame {next : FrameDecoder} (lost : decoder.nextFrame = (.error error, next)) :
    next.failed = some error := by
  cases healthy : decoder.failed with
  | some earlier =>
    rw [nextFrame_failed healthy] at lost
    cases lost
    exact healthy
  | none =>
    obtain ⟨-, same⟩ | ⟨_, -, same⟩ | ⟨_, _, -, same, -⟩ := nextFrame_cases healthy
    · rw [same] at lost
      cases lost
    · rw [same] at lost
      cases lost
      rfl
    · rw [same] at lost
      cases lost

/-- How a stream is cut changes neither the payloads nor the first error; frames give exactly their
payloads; after an error no frame is given; and a parser drained without an error holds less than a
header and the largest payload. -/
theorem cut_independent (limit : UInt32) :
    (∀ feeds : List (List UInt8),
      ((new limit).deliver feeds).payloads = ((new limit).deliver [feeds.flatten]).payloads ∧
      ((new limit).deliver feeds).failure = ((new limit).deliver [feeds.flatten]).failure) ∧
    (∀ payloads frames feeds : List (List UInt8),
      List.Forall₂ (fun payload frame => encodeFrame payload limit = .ok frame) payloads frames →
      feeds.flatten = frames.flatten →
      ((new limit).deliver feeds).payloads = payloads ∧
        ((new limit).deliver feeds).failure = none) ∧
    (∀ (decoder next : FrameDecoder) (error : FrameError),
      decoder.nextFrame = (.error error, next) →
      ∀ feeds : List (List UInt8), (next.deliver feeds).payloads = [] ∧
        (next.deliver feeds).decoder.nextFrame.1 = .error error) ∧
    (∀ feeds : List (List UInt8), ((new limit).deliver feeds).failure = none →
      ((new limit).deliver feeds).decoder.buffered < headerLen + limit.toNat) := by
  have fed := fun feeds => @deliver_scan _ (new limit) feeds rfl rfl
  refine ⟨fun feeds => ?_, fun payloads frames feeds framed same => ?_,
    fun decoder next error lost feeds => ?_, fun feeds sound => ?_⟩
  · obtain ⟨payloads, failure, -⟩ := fed feeds
    obtain ⟨wholePayloads, wholeFailure, -⟩ := fed [feeds.flatten]
    rw [flatten_singleton] at wholePayloads wholeFailure
    exact ⟨payloads.trans wholePayloads.symm, failure.trans wholeFailure.symm⟩
  · obtain ⟨given, failure, -⟩ := fed feeds
    have whole := scan_frames framed
    rw [← same] at whole
    exact ⟨given.trans (congrArg (·.payloads) whole), failure.trans (congrArg (·.failure) whole)⟩
  · obtain ⟨nothing, -, still⟩ := deliver_failed feeds (failed_of_nextFrame lost)
    exact ⟨nothing, by rw [nextFrame_failed still]⟩
  · obtain ⟨-, -, waits⟩ := fed feeds
    rw [buffered_eq]
    exact judge_wait_short (waits sound)

end FrameDecoder

end Hashed

/-- A hash for the cases below: every byte string has the same digest. -/
abbrev constantHash : Xxh3 := ⟨fun _ => 0⟩

/-- Two frames cut in three feeds, inside a checksum and inside a length. -/
theorem FrameDecoder.cut_independent_two :
    letI := constantHash
    ((FrameDecoder.new 3).deliver
        [[1, 0, 0, 0, 0, 0], [0, 0, 0, 0, 0, 0, 7, 2, 0], [0, 0] ++ replicate 8 0 ++ [8, 9]]
      ).payloads = [[7], [8, 9]] := by
  let _ := constantHash
  apply And.left
  apply (FrameDecoder.cut_independent 3).2.1 [[7], [8, 9]]
    [[1, 0, 0, 0] ++ replicate 8 0 ++ [7], [2, 0, 0, 0] ++ replicate 8 0 ++ [8, 9]]
  · exact .cons (by decide +kernel) (.cons (by decide +kernel) .nil)
  · rfl

/-- A parser whose stream broke keeps what it was fed, past its limit of one byte. -/
theorem FrameDecoder.broken_keeps_bytes :
    letI := constantHash
    ((FrameDecoder.new 1).deliver [replicate 13 0]).failure = some .empty ∧
      ¬ ((FrameDecoder.new 1).deliver [replicate 13 0]).decoder.buffered <
        headerLen + (1 : UInt32).toNat := by
  decide +kernel

end Moonpool.Rpc
