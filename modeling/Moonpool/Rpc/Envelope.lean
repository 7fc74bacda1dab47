import Mathlib.Data.List.Forall2
import Moonpool.Rpc.Wire

/-!
Owns the laws of the envelope: every message a runtime builds is read back, its length is
what the length functions say, the peek at a request's metadata is right, and what a
session's version allows.
-/

namespace Moonpool.Rpc

open Lib Reading List Option

/-! ### Round trips -/

def SocketAddr.Plain : SocketAddr → Prop
  | .v4 _ _ => True
  | .v6 _ _ flowInfo scope => flowInfo = 0 ∧ scope = 0

/-- A request a runtime builds: metadata that fits, known flags not both set, and a window only for
a stream. -/
structure Request.Buildable (request : Request) : Prop where
  metadata : request.metadata.length ≤ 65535
  known : request.flags &&& ~~~requestFlagsKnown = 0
  apart : request.flags &&& requestFlagsKnown ≠ requestFlagsKnown
  window : ¬ opensStream request.flags → request.streamWindow = 0

def WireMessage.Buildable : WireMessage → Prop
  | .hello greeting => ∀ address ∈ greeting.listen, address.Plain
  | .request asked => asked.Buildable
  | _ => True

section RoundTrip

variable {rest : List UInt8}

theorem decodeAny_kind (kind : UInt8) (rest : List UInt8) :
    decodeAny (u8.encode kind ++ rest) = decodeKind kind rest :=
  field_bind_encode u8 _ _ kind rest

theorem decodeListens_encode (address : SocketAddr) (plain : address.Plain) :
    decodeListens (address.encode ++ rest) = .ok (some address, rest) := by
  cases address with
  | v4 octets port =>
    simp only [decodeListens, SocketAddr.encode, append_assoc, field_bind_encode]
    apply bind_of_ok
    simp only [decodeListen, ↓reduceIte, field_bind_encode, pure_run]
  | v6 octets port flowInfo scope =>
    obtain ⟨rfl, rfl⟩ := plain
    simp only [decodeListens, SocketAddr.encode, append_assoc, field_bind_encode]
    apply bind_of_ok
    rw [decodeListen, if_neg (by decide)]
    simp only [↓reduceIte, field_bind_encode, pure_run]

theorem decodeListens_encodeListens (listen : Option SocketAddr)
    (plain : ∀ address ∈ listen, address.Plain) :
    decodeListens (encodeListens listen) = .ok (listen, []) := by
  cases listen with
  | none =>
    simp only [decodeListens, encodeListens, field_bind_encode_last, ↓reduceIte, pure_run]
  | some address =>
    have whole := @decodeListens_encode [] address (plain address rfl)
    rwa [append_nil] at whole

theorem decodeHello_encode (hello : Hello) (plain : ∀ address ∈ hello.listen, address.Plain) :
    decodeAny hello.encode = .ok (.hello hello, []) := by
  simp only [Hello.encode, append_assoc, decodeAny_kind]
  change decodeHello _ = _
  simp only [decodeHello, field_bind_encode]
  rw [bind_of_ok (decodeListens_encodeListens hello.listen plain), ended_bind_nil, pure_run]

theorem decodeFlags_encode {flags : UInt8} (known : flags &&& ~~~requestFlagsKnown = 0)
    (apart : flags &&& requestFlagsKnown ≠ requestFlagsKnown) :
    decodeFlags (u8.encode flags ++ rest) = .ok (flags, rest) := by
  simp only [decodeFlags, field_bind_encode]
  rw [if_neg (by rintro (strange | both); exacts [strange known, apart both])]
  rfl

theorem decodeWindow_encode {flags : UInt8} {window : UInt64}
    (closed : ¬ opensStream flags → window = 0) :
    decodeWindow flags ((if opensStream flags then u64.encode window else []) ++ rest) =
      .ok (window, rest) := by
  unfold decodeWindow
  split
  next opens => exact field_encode _ _ _ _
  next shut => rw [closed shut]; rfl

theorem Request.Buildable.whole {request : Request} (built : request.Buildable) :
    request.metadata.take (min request.metadata.length 65535) = request.metadata := by
  rw [Nat.min_eq_left built.metadata, take_length]

theorem Request.Buildable.size {request : Request} (built : request.Buildable) :
    (UInt16.ofNat request.metadata.length).toNat = request.metadata.length :=
  UInt16.toNat_ofNat_of_lt' (Nat.lt_succ_of_le built.metadata)

theorem decodeRequest_encode (request : Request) (built : request.Buildable) :
    decodeAny request.encode = .ok (.request request, []) := by
  simp only [Request.encode, append_assoc, decodeAny_kind, built.whole]
  change decodeRequest _ = _
  simp only [decodeRequest, field_bind_encode]
  rw [bind_of_ok (decodeFlags_encode built.known built.apart),
    bind_of_ok (decodeWindow_encode built.window)]
  rw [field_bind_encode, slice_bind_append _ _ _ built.size.symm]
  rfl

theorem decodeEnding_encode (error : Option WireError) :
    decodeEnding ((error.map WireError.statusAndDetail).getD (0, 0)).1
      ((error.map WireError.statusAndDetail).getD (0, 0)).2 = .ok error := by
  cases error with
  | none => rfl
  | some error =>
    simp only [decodeEnding, map_some, getD_some, if_neg error.status_ne_zero,
      error.fromStatus_statusAndDetail]
    rfl

/-- Every message a runtime builds is read back, and nothing is left over. -/
theorem decodeAny_encode (message : WireMessage) (built : message.Buildable) :
    decodeAny (encodeMessage message) = .ok (message, []) := by
  cases message with
  | hello hello => exact decodeHello_encode hello built
  | request request => exact decodeRequest_encode request built
  | reply callId outcome =>
    cases outcome with
    | ok codec body =>
      simp only [encodeMessage, append_assoc, decodeAny_kind]
      change decodeReply _ = _
      simp only [decodeReply, field_bind_encode, ↓reduceIte, rest_bind, pure_run]
    | err error =>
      simp only [encodeMessage, append_assoc, decodeAny_kind]
      change decodeReply _ = _
      simp only [decodeReply, field_bind_encode, if_neg error.status_ne_zero,
        field_bind_encode_last, ended_bind_nil, error.fromStatus_statusAndDetail,
        decoded_bind_ok, pure_run]
  | ping nonce | pong nonce =>
    rw [encodeMessage, decodeAny_kind]
    change (field u64 EnvelopeError.truncated >>= _) _ = _
    rw [field_bind_encode_last]
    rfl
  | streamItem callId sequence codec body =>
    simp only [encodeMessage, append_assoc, decodeAny_kind]
    change decodeStream kindStreamItem _ = _
    simp only [decodeStream, ↓reduceIte, field_bind_encode, rest_bind, pure_run]
  | streamEnd callId items error =>
    simp only [encodeMessage, append_assoc, decodeAny_kind]
    change decodeStream kindStreamEnd _ = _
    rw [decodeStream, if_neg (by decide)]
    simp only [↓reduceIte, field_bind_encode, field_bind_encode_last, decodeEnding_encode,
      decoded_bind_ok, ended_bind_nil, pure_run]
  | streamAck callId consumed =>
    simp only [encodeMessage, append_assoc, decodeAny_kind]
    change decodeStream kindStreamAck _ = _
    rw [decodeStream, if_neg (by decide), if_neg (by decide)]
    simp only [↓reduceIte, field_bind_encode, field_bind_encode_last, ended_bind_nil, pure_run]
  | streamCancel callId =>
    simp only [encodeMessage, decodeAny_kind]
    change decodeStream kindStreamCancel _ = _
    rw [decodeStream, if_neg (by decide), if_neg (by decide), if_neg (by decide)]
    simp only [↓reduceIte, field_bind_encode_last, ended_bind_nil, pure_run]

end RoundTrip

/-! ### What decodes -/

section Decoded

/-- A payload that decodes to `message`: the encoder's own bytes, or those up to the detail of a
rejection. -/
inductive Spelled (payload : List UInt8) (message : WireMessage) : Prop where
  | plain (same : encodeMessage message = payload) (accepts : message.rejection = none)
      (built : message.Buildable)
  | rejected (front : List UInt8) (detail : UInt64) {error : WireError}
      (carries : message.rejection = some error) (given : payload = front ++ u64.encode detail)
      (same : encodeMessage message = front ++ u64.encode error.statusAndDetail.2)
      (kept : error.bare = true ∧ error.statusAndDetail.2 = 0 ∨
        error.bare = false ∧ error.statusAndDetail.2 = detail)

variable {payload after : List UInt8} {message : WireMessage} {request : Request}

theorem decodeListens_ok {listen : Option SocketAddr}
    (found : decodeListens payload = .ok (listen, after)) :
    payload = encodeListens listen ++ after ∧ ∀ address ∈ listen, address.Plain := by
  obtain ⟨family, _, shape, found⟩ := ok_of_field found
  split at found
  next none =>
    cases found
    subst_vars
    exact ⟨rfl, nofun⟩
  obtain ⟨address, _, decoded, found⟩ := ok_of_bind found
  cases found
  unfold decodeListen at decoded
  split at decoded
  next four =>
    obtain ⟨octets, _, shape, decoded⟩ := ok_of_field decoded
    obtain ⟨port, _, shape, decoded⟩ := ok_of_field decoded
    cases decoded
    subst_vars
    simp [encodeListens, SocketAddr.encode, SocketAddr.Plain]
  split at decoded
  next six =>
    obtain ⟨octets, _, shape, decoded⟩ := ok_of_field decoded
    obtain ⟨port, _, shape, decoded⟩ := ok_of_field decoded
    cases decoded
    subst_vars
    simp [encodeListens, SocketAddr.encode, SocketAddr.Plain]
  · cases decoded

theorem decodeHello_ok (found : decodeHello payload = .ok (message, after)) :
    Spelled (u8.encode kindHello ++ payload) message := by
  obtain ⟨magic, _, shape, found⟩ := ok_of_field found
  obtain ⟨minVersion, _, shape, found⟩ := ok_of_field found
  obtain ⟨maxVersion, _, shape, found⟩ := ok_of_field found
  obtain ⟨incarnation, _, shape, found⟩ := ok_of_field found
  obtain ⟨features, _, shape, found⟩ := ok_of_field found
  obtain ⟨maxFrameBytes, _, shape, found⟩ := ok_of_field found
  obtain ⟨listen, _, listens, found⟩ := ok_of_bind found
  obtain ⟨shape, found⟩ := ok_of_ended found
  cases found
  obtain ⟨shape, plain⟩ := decodeListens_ok listens
  subst_vars
  refine .plain ?_ rfl plain
  simp only [encodeMessage, Hello.encode, append_assoc, append_nil]

theorem decodeFlags_ok {flags : UInt8} (found : decodeFlags payload = .ok (flags, after)) :
    payload = u8.encode flags ++ after ∧ flags &&& ~~~requestFlagsKnown = 0 ∧
      flags &&& requestFlagsKnown ≠ requestFlagsKnown := by
  replace found := ok_of_field found
  obtain ⟨read, rest, rfl, found⟩ := found
  split at found
  next refused => cases found
  next allowed =>
    cases found
    obtain ⟨known, apart⟩ := not_or.mp allowed
    exact ⟨rfl, Decidable.not_not.mp known, apart⟩

theorem decodeWindow_ok {flags : UInt8} {window : UInt64}
    (found : decodeWindow flags payload = .ok (window, after)) :
    payload = (if opensStream flags then u64.encode window else []) ++ after ∧
      (¬ opensStream flags → window = 0) := by
  unfold decodeWindow at found
  split at found
  next opens =>
    rw [if_pos opens]
    unfold field at found
    split at found
    next read =>
      cases found
      exact ⟨u64.encode_read read, fun shut => absurd opens shut⟩
    next missing => cases found
  next shut =>
    cases found
    rw [if_neg shut]
    exact ⟨rfl, fun _ => rfl⟩

theorem decodeRequest_ok (found : decodeRequest payload = .ok (message, after)) :
    Spelled (u8.encode kindRequest ++ payload) message := by
  obtain ⟨callId, _, shape, found⟩ := ok_of_field found
  obtain ⟨incarnation, _, shape, found⟩ := ok_of_field found
  obtain ⟨index, _, shape, found⟩ := ok_of_field found
  obtain ⟨generation, _, shape, found⟩ := ok_of_field found
  obtain ⟨interface, _, shape, found⟩ := ok_of_field found
  obtain ⟨interfaceVersion, _, shape, found⟩ := ok_of_field found
  obtain ⟨method, _, shape, found⟩ := ok_of_field found
  obtain ⟨schema, _, shape, found⟩ := ok_of_field found
  obtain ⟨codec, _, shape, found⟩ := ok_of_field found
  obtain ⟨flags, _, flagged, found⟩ := ok_of_bind found
  obtain ⟨shape, known, apart⟩ := decodeFlags_ok flagged
  obtain ⟨window, _, opened, found⟩ := ok_of_bind found
  obtain ⟨shape, closed⟩ := decodeWindow_ok opened
  obtain ⟨metadataLen, _, shape, found⟩ := ok_of_field found
  obtain ⟨metadata, body, long, shape, found⟩ := ok_of_slice found
  cases found
  subst_vars
  have built : Request.Buildable ⟨callId, incarnation, ⟨index, generation⟩, interface,
      interfaceVersion, method, schema, codec, flags, window, metadata, body⟩ :=
    ⟨by rw [long]; exact Nat.le_of_lt_succ metadataLen.toNat_lt, known, apart, closed⟩
  have whole : metadata.take (min metadata.length 65535) = metadata := built.whole
  have size : UInt16.ofNat metadata.length = metadataLen := by rw [long, UInt16.ofNat_toNat]
  refine .plain ?_ rfl built
  simp only [encodeMessage, Request.encode, whole, size, append_assoc]

theorem decodeReply_ok (found : decodeReply payload = .ok (message, after)) :
    Spelled (u8.encode kindReply ++ payload) message := by
  obtain ⟨callId, _, shape, found⟩ := ok_of_field found
  obtain ⟨status, _, shape, found⟩ := ok_of_field found
  split at found
  next fine =>
    obtain ⟨codec, body, shape, found⟩ := ok_of_field found
    cases found
    subst_vars
    exact .plain (by simp only [encodeMessage, append_assoc]) rfl trivial
  next rejects =>
    obtain ⟨detail, _, shape, found⟩ := ok_of_field found
    obtain ⟨shape, found⟩ := ok_of_ended found
    obtain ⟨error, named, found⟩ := ok_of_decoded found
    cases found
    obtain ⟨same, kept⟩ := WireError.fromStatus_ok named
    subst_vars
    refine .rejected (u8.encode kindReply ++ u64.encode callId ++
      u8.encode error.statusAndDetail.1) detail rfl ?_ rfl kept
    simp only [append_assoc, append_nil]

theorem decodeStreamEnd_ok {callId items : UInt64} {status : UInt8} {detail : UInt64}
    {error : Option WireError} (ended : decodeEnding status detail = .ok error) :
    Spelled (u8.encode kindStreamEnd ++ u64.encode callId ++ u64.encode items ++ u8.encode status ++
      u64.encode detail) (.streamEnd callId items error) := by
  unfold decodeEnding at ended
  split at ended
  next fine =>
    split at ended
    · cases ended
      subst_vars
      exact .plain rfl rfl trivial
    · cases ended
  next rejects =>
    obtain ⟨carried, named, rfl⟩ := ok_of_map ended
    obtain ⟨rfl, kept⟩ := WireError.fromStatus_ok named
    exact .rejected _ detail rfl rfl rfl kept

theorem decodeStream_ok {kind : UInt8} (found : decodeStream kind payload = .ok (message, after)) :
    Spelled (u8.encode kind ++ payload) message := by
  unfold decodeStream at found
  split at found
  · obtain ⟨callId, _, shape, found⟩ := ok_of_field found
    obtain ⟨sequence, _, shape, found⟩ := ok_of_field found
    obtain ⟨codec, body, shape, found⟩ := ok_of_field found
    cases found
    subst_vars
    exact .plain (by simp only [encodeMessage, append_assoc]) rfl trivial
  split at found
  · obtain ⟨callId, _, shape, found⟩ := ok_of_field found
    obtain ⟨items, _, shape, found⟩ := ok_of_field found
    obtain ⟨status, _, shape, found⟩ := ok_of_field found
    obtain ⟨detail, _, shape, found⟩ := ok_of_field found
    obtain ⟨error, named, found⟩ := ok_of_decoded found
    obtain ⟨shape, found⟩ := ok_of_ended found
    cases found
    subst_vars
    simpa only [append_assoc, append_nil] using decodeStreamEnd_ok named
  split at found
  · obtain ⟨callId, _, shape, found⟩ := ok_of_field found
    obtain ⟨consumed, _, shape, found⟩ := ok_of_field found
    obtain ⟨shape, found⟩ := ok_of_ended found
    cases found
    subst_vars
    exact .plain (by simp only [encodeMessage, append_assoc, append_nil]) rfl trivial
  split at found
  · obtain ⟨callId, _, shape, found⟩ := ok_of_field found
    obtain ⟨shape, found⟩ := ok_of_ended found
    cases found
    subst_vars
    exact .plain (by simp only [encodeMessage, append_nil]) rfl trivial
  · cases found

theorem decodeAny_ok (found : decodeAny payload = .ok (message, after)) :
    Spelled payload message := by
  obtain ⟨kind, rest, rfl, decoded⟩ := ok_of_field found
  unfold decodeKind at decoded
  split at decoded
  next greets => exact greets ▸ decodeHello_ok decoded
  split at decoded
  next asks => exact asks ▸ decodeRequest_ok decoded
  split at decoded
  next replies => exact replies ▸ decodeReply_ok decoded
  split at decoded
  next alive =>
    obtain ⟨nonce, _, shape, decoded⟩ := ok_of_field decoded
    obtain ⟨shape, decoded⟩ := ok_of_ended decoded
    cases decoded
    subst_vars
    split
    next pings => exact .plain (by simp only [encodeMessage, pings, append_nil]) rfl trivial
    next pongs =>
      exact .plain (by simp only [encodeMessage, alive.resolve_left pongs, append_nil]) rfl trivial
  split at decoded
  · exact decodeStream_ok decoded
  · cases decoded

theorem decodeAny_request (found : decodeAny payload = .ok (.request request, after)) :
    payload = request.encode ∧ request.Buildable := by
  cases decodeAny_ok found with
  | plain same _ built => exact ⟨same.symm, built⟩
  | rejected _ _ carries => cases carries

theorem requestMetadataLen_encode (built : request.Buildable) :
    requestMetadataLen request.encode = some request.metadata.length := by
  have front : (u64.encode request.callId ++ (u128.encode request.incarnation ++
      (u64.encode request.token.index ++ (u32.encode request.token.generation ++
      (u32.encode request.interface ++ (u16.encode request.interfaceVersion ++
      (u32.encode request.method ++ (u16.encode request.schema ++
        u16.encode request.codec)))))))).length = 8 + 16 + 8 + 4 + 4 + 2 + 4 + 2 + 2 := by
    simp
  have skip := fun rest => readSlice_append rest front
  simp only [append_assoc] at skip
  simp only [requestMetadataLen, Request.encode, append_assoc, u8.read_encode, skip,
    bind_eq_bind, bind_some, built.whole]
  rw [if_neg (fun differs => differs rfl)]
  split
  next opens =>
    simp only [u64.read_encode, map_some, bind_some, u16.read_encode, built.size]
    rfl
  next shut =>
    simp only [nil_append, u16.read_encode, bind_some, built.size]
    rfl

end Decoded

/-! ### Lengths -/

/-- The envelope is as long as the source's length functions say, or at most where they give a
bound. -/
def WireMessage.Sized (message : WireMessage) : Prop :=
  match message with
  | .hello greeting =>
    (encodeMessage message).length ≤ helloEnvelopeLen ∧
      ((∃ octets port flowInfo scope, greeting.listen = some (.v6 octets port flowInfo scope)) →
        (encodeMessage message).length = helloEnvelopeLen)
  | .request asked =>
    (encodeMessage message).length = asked.metadata.length +
      if opensStream asked.flags then streamRequestEnvelopeLen asked.body.length
      else requestEnvelopeLen asked.body.length
  | .reply _ (.ok _ body) => (encodeMessage message).length = replyEnvelopeLen body.length
  | .reply _ (.err _) => (encodeMessage message).length = rejectionEnvelopeLen
  | .ping _ | .pong _ => (encodeMessage message).length = livenessEnvelopeLen
  | .streamItem _ _ _ body =>
    (encodeMessage message).length = streamItemEnvelopeLen body.length
  | .streamEnd _ _ _ => (encodeMessage message).length = streamEndEnvelopeLen
  | .streamAck _ _ => (encodeMessage message).length = streamAckEnvelopeLen
  | .streamCancel _ => (encodeMessage message).length ≤ streamAckEnvelopeLen

variable {message : WireMessage}

theorem WireMessage.Buildable.sized (built : message.Buildable) : message.Sized := by
  cases message with
  | hello hello =>
    have listens : (encodeListens hello.listen).length ≤ 19 ∧
        ((∃ octets port flowInfo scope, hello.listen = some (.v6 octets port flowInfo scope)) →
          (encodeListens hello.listen).length = 19) := by
      cases hello.listen with
      | none => simp [encodeListens]
      | some address => cases address <;> simp [encodeListens, SocketAddr.encode]
    simp only [WireMessage.Sized, encodeMessage, Hello.encode, length_append, u8_length,
      u16_length, u32_length,
      u64_length, u128_length, helloEnvelopeLen]
    constructor
    · omega
    · intro six
      rw [listens.2 six]
  | request request =>
    simp only [WireMessage.Sized, encodeMessage, Request.encode, Request.Buildable.whole built,
      length_append, u8_length,
      u16_length, u32_length, u64_length, u128_length, streamRequestEnvelopeLen,
      requestEnvelopeLen]
    split
    · rw [u64_length]
      omega
    · rw [length_nil]
      omega
  | reply callId outcome =>
    cases outcome <;>
      simp only [WireMessage.Sized, encodeMessage, length_append, u8_length, u16_length,
        u64_length, replyEnvelopeLen]
  | streamItem callId sequence codec body =>
    simp only [WireMessage.Sized, encodeMessage, length_append, u8_length, u16_length,
      u64_length, streamItemEnvelopeLen]
  | _ => simp [WireMessage.Sized, encodeMessage]

theorem streamItemFrameLen_frame [Xxh3] {callId sequence : UInt64} {codec : CodecId}
    {body frame : List UInt8} {limit : UInt32}
    (framed : encodeFrame (encodeMessage (.streamItem callId sequence codec body)) limit =
      .ok frame) :
    frame.length = streamItemFrameLen body.length := by
  have sized : (encodeMessage (.streamItem callId sequence codec body)).length =
      streamItemEnvelopeLen body.length :=
    @WireMessage.Buildable.sized (.streamItem callId sequence codec body) trivial
  have fits := (encodeFrame_ok.mp framed).1
  have narrow := limit.toNat_lt
  rw [encodeFrame_length framed, sized, streamItemFrameLen, Nat.min_eq_left]
  · simp only [streamItemEnvelopeLen]
    omega
  · simp only [sized, streamItemEnvelopeLen, headerLen] at fits ⊢
    omega

/-! ### Versions -/

theorem decodeMessageAt_eq {payload after : List UInt8}
    (decoded : decodeAny payload = .ok (message, after)) (version : UInt16) :
    decodeMessageAt payload version =
      match message.rejection with
      | some error =>
        if error.since > version then .error (.unknownStatus error.statusAndDetail.1)
        else .ok message
      | none => .ok message := by
  simp only [decodeMessageAt, decoded]
  rfl

variable {version : UInt16}

theorem decodeMessageAt_ok {payload : List UInt8} :
    decodeMessageAt payload version = .ok message ↔
      (∃ after, decodeAny payload = .ok (message, after)) ∧
        ∀ error ∈ message.rejection, error.since ≤ version := by
  cases decoded : decodeAny payload with
  | error error =>
    simp only [decodeMessageAt, decoded]
    exact ⟨nofun, nofun⟩
  | ok found =>
    obtain ⟨other, after⟩ := found
    rw [decodeMessageAt_eq decoded]
    by_cases same : other = message
    · subst same
      cases carried : other.rejection <;> simp [UInt16.not_lt]
    · cases other.rejection with
      | none => simp [same]
      | some error =>
        dsimp only
        split <;> simp [same]

theorem WireError.since_le (error : WireError) : error.since ≤ protocolVersion := by
  unfold since
  split <;> decide

theorem WireError.since_forVersion (error : WireError) (spoken : minProtocolVersion ≤ version) :
    (error.forVersion version).since ≤ version := by
  unfold forVersion
  split
  next defined => exact defined
  next newer =>
    split <;> exact spoken

theorem decodeMessageAt_encode (built : message.Buildable)
    (defined : ∀ error ∈ message.rejection, error.since ≤ version) :
    decodeMessageAt (encodeMessage message) version = .ok message :=
  decodeMessageAt_ok.mpr ⟨⟨[], decodeAny_encode message built⟩, defined⟩

/-- Every message a runtime builds is read back and is as long as the length functions say; the peek
finds the length of a request's metadata; a rejection made for a version survives there; and no
newer status is accepted. -/
theorem envelopes_round_trip [Xxh3] :
    (∀ message : WireMessage, message.Buildable →
      decodeMessage (encodeMessage message) = .ok message ∧ message.Sized) ∧
    (∀ (callId sequence : UInt64) (codec : CodecId) (body frame : List UInt8) (limit : UInt32),
      encodeFrame (encodeMessage (.streamItem callId sequence codec body)) limit = .ok frame →
      frame.length = streamItemFrameLen body.length) ∧
    (∀ (payload : List UInt8) (version : UInt16) (request : Request),
      decodeMessageAt payload version = .ok (.request request) →
      requestMetadataLen payload = some request.metadata.length) ∧
    (∀ (error : WireError) (version : UInt16), minProtocolVersion ≤ version →
      ∀ callId items : UInt64,
        decodeMessageAt (encodeMessage (.reply callId (.err (error.forVersion version)))) version =
          .ok (.reply callId (.err (error.forVersion version))) ∧
        decodeMessageAt
            (encodeMessage (.streamEnd callId items (some (error.forVersion version)))) version =
          .ok (.streamEnd callId items (some (error.forVersion version)))) ∧
    (∀ (payload : List UInt8) (version : UInt16) (message : WireMessage) (error : WireError),
      message.rejection = some error → version < error.since →
      decodeMessageAt payload version ≠ .ok message) ∧
    (∀ (message : WireMessage) (version : UInt16) (error : WireError), message.Buildable →
      message.rejection = some error → version < error.since →
      decodeMessageAt (encodeMessage message) version =
        .error (.unknownStatus error.statusAndDetail.1)) := by
  refine ⟨fun message built => ⟨?_, built.sized⟩,
    fun callId sequence codec body frame limit framed => streamItemFrameLen_frame framed,
    fun payload version request accepted => ?_, fun error version spoken callId items => ⟨?_, ?_⟩,
    fun payload version message error carried newer accepted => ?_,
    fun message version error built carried newer => ?_⟩
  · apply decodeMessageAt_encode built
    intro error _
    exact error.since_le
  · obtain ⟨⟨after, decoded⟩, -⟩ := decodeMessageAt_ok.mp accepted
    obtain ⟨rfl, built⟩ := decodeAny_request decoded
    exact requestMetadataLen_encode built
  · apply decodeMessageAt_encode
    · trivial
    · rintro _ ⟨⟩
      exact error.since_forVersion spoken
  · apply decodeMessageAt_encode
    · trivial
    · rintro _ ⟨⟩
      exact error.since_forVersion spoken
  · have defined := (decodeMessageAt_ok.mp accepted).2 error carried
    exact UInt16.not_le.mpr newer defined
  · rw [decodeMessageAt_eq (decodeAny_encode message built), carried]
    exact if_pos newer

/-- A request that opens a stream, with metadata and a body. -/
theorem envelopes_round_trip_stream :
    letI := constantHash
    decodeMessage (encodeMessage (.request ⟨7, 9, ⟨1, 2⟩, 3, 4, 5, 6, 7, requestFlagStream, 64,
      [1, 0, 0], [42]⟩)) = .ok (.request ⟨7, 9, ⟨1, 2⟩, 3, 4, 5, 6, 7, requestFlagStream, 64,
      [1, 0, 0], [42]⟩) := by
  let _ := constantHash
  apply And.left
  apply envelopes_round_trip.1
  exact ⟨by decide, by decide, by decide, by decide⟩

/-- No rejection survives at version zero, which no runtime speaks. -/
theorem version_zero_refuses :
    decodeMessageAt (encodeMessage
      (.reply 1 (.err (WireError.forVersion .endpointNotFound 0)))) 0 =
        .error (.unknownStatus 1) := by
  decide +kernel

/-- The status byte of a reply or of a stream's end, behind the ids and the number of items. -/
def statusOf (payload : List UInt8) : Option UInt8 :=
  if payload[0]? = some kindReply then payload[9]?
  else if payload[0]? = some kindStreamEnd then payload[17]?
  else none

/-- The statuses for which `from_status` does not read the detail. -/
def bareStatus (status : UInt8) : Bool := status ∈ [1, 2, 6, 7, 8, 9, 10, 11, 14, 17, 18]

theorem bareStatus_status (error : WireError) :
    bareStatus error.statusAndDetail.1 = error.bare := by
  cases error <;> rfl

theorem u8_encode (value : UInt8) : u8.encode value = [value] := by
  change littleEndian 1 value.toNat = _
  simp [littleEndian]

theorem getElem?_header {front rest : List UInt8} {status : UInt8} {count : Nat}
    (length : front.length = count) : (front ++ u8.encode status ++ rest)[count]? = some status := by
  rw [append_assoc, getElem?_append_right (le_of_eq length), length, Nat.sub_self, u8_encode]
  rfl

theorem statusOf_reply (callId : UInt64) (status : UInt8) (rest : List UInt8) :
    statusOf (u8.encode kindReply ++ u64.encode callId ++ u8.encode status ++ rest) =
      some status :=
  (if_pos rfl).trans (getElem?_header (by simp))

theorem statusOf_streamEnd (callId items : UInt64) (status : UInt8) (rest : List UInt8) :
    statusOf (u8.encode kindStreamEnd ++ u64.encode callId ++ u64.encode items ++
      u8.encode status ++ rest) = some status :=
  (if_neg (by decide : ¬ some kindStreamEnd = some kindReply)).trans
    ((if_pos rfl).trans (getElem?_header (by simp)))

theorem statusOf_other {kind : UInt8} (rest : List UInt8)
    (other : kind ≠ kindReply ∧ kind ≠ kindStreamEnd) :
    statusOf (u8.encode kind ++ rest) = none := by
  simp [statusOf, u8_encode, other]

/-- A message that rejects nothing has status 0 where one is. -/
theorem statusOf_accepts {message : WireMessage} (accepts : message.rejection = none) :
    ∀ status ∈ statusOf (encodeMessage message), status = 0 := by
  cases message with
  | reply callId outcome =>
    cases outcome with
    | err error => cases accepts
    | ok codec body =>
      rw [encodeMessage, append_assoc, statusOf_reply]
      simp
  | streamEnd callId items error =>
    subst accepts
    rw [encodeMessage, statusOf_streamEnd]
    simp
  | hello | request =>
    simp only [encodeMessage, Hello.encode, Request.encode, append_assoc]
    rw [statusOf_other _ (by decide)]
    simp
  | _ =>
    simp only [encodeMessage, append_assoc]
    rw [statusOf_other _ (by decide)]
    simp

/-- A payload is the encoder's spelling of its message, but for the detail of a reply or stream end
whose status needs none. -/
theorem canonical_iff_detail {payload : List UInt8} {message : WireMessage}
    (accepted : decodeMessage payload = .ok message) :
    encodeMessage message = payload ↔
      ∀ status ∈ statusOf payload, bareStatus status = true →
        payload.drop (payload.length - 8) = u64.encode 0 := by
  obtain ⟨⟨after, decoded⟩, -⟩ := decodeMessageAt_ok.mp accepted
  cases decodeAny_ok decoded with
  | plain same accepts =>
    refine iff_of_true same fun status member bare => ?_
    rw [statusOf_accepts accepts status (same ▸ member)] at bare
    cases bare
  | @rejected front detail error carries given same kept =>
    have tail : payload.drop (payload.length - 8) = u64.encode detail := by
      rw [given, length_append, u64_length, Nat.add_sub_cancel, drop_left]
    have status : statusOf payload = some error.statusAndDetail.1 := by
      cases message with
      | reply callId outcome =>
        cases outcome with
        | ok codec body => cases carries
        | err rejection =>
          cases carries
          rw [given, ← append_cancel_right same, statusOf_reply]
      | streamEnd callId items ending =>
        cases carries
        rw [given, ← append_cancel_right same, statusOf_streamEnd]
        rfl
      | _ => cases carries
    rw [tail, same, given, append_cancel_left_eq]
    rw [given] at status
    rcases kept with ⟨bare, zero⟩ | ⟨full, kept⟩
    · rw [zero, eq_comm]
      simp [status, bareStatus_status, bare]
    · simp [status, bareStatus_status, full, kept]

theorem canonical_iff_detail_shuttingDown :
    encodeMessage (.reply 1 (.err .shuttingDown)) =
        [3, 1, 0, 0, 0, 0, 0, 0, 0, 18, 0, 0, 0, 0, 0, 0, 0, 0] :=
  (@canonical_iff_detail [3, 1, 0, 0, 0, 0, 0, 0, 0, 18, 0, 0, 0, 0, 0, 0, 0, 0]
    (.reply 1 (.err .shuttingDown)) (by decide)).mpr fun _ _ _ => by decide

theorem ignored_detail :
    decodeMessage [3, 1, 0, 0, 0, 0, 0, 0, 0, 1, 5, 0, 0, 0, 0, 0, 0, 0] =
        .ok (.reply 1 (.err .endpointNotFound)) ∧
      encodeMessage (.reply 1 (.err .endpointNotFound)) ≠
        [3, 1, 0, 0, 0, 0, 0, 0, 0, 1, 5, 0, 0, 0, 0, 0, 0, 0] := by
  decide

/-- However little of the bytes of some messages arrived, and however it was cut, the receiver reads
a front of the messages and no error, and all of them once all bytes arrived. -/
theorem prefix_delivers_messages [Xxh3] {limit : UInt32} {messages : List WireMessage}
    {frames feeds : List (List UInt8)} (built : ∀ message ∈ messages, message.Buildable)
    (framed : Forall₂ (fun message frame => encodeFrame (encodeMessage message) limit = .ok frame)
      messages frames) (arrived : feeds.flatten <+: frames.flatten) :
    ((FrameDecoder.new limit).deliver feeds).failure = none ∧
      ((FrameDecoder.new limit).deliver feeds).payloads.map decodeMessage <+: messages.map .ok ∧
      (feeds.flatten = frames.flatten →
        ((FrameDecoder.new limit).deliver feeds).payloads.map decodeMessage = messages.map .ok) := by
  have sent := scan_frames (forall₂_map_left_iff.mpr framed)
  have decoded : (messages.map encodeMessage).map decodeMessage = messages.map .ok := by
    rw [List.map_map]
    exact map_congr_left fun message member =>
      decodeMessageAt_encode (built message member) fun error _ => error.since_le
  have front : (scan limit feeds.flatten).failure = none ∧
      (scan limit feeds.flatten).payloads <+: messages.map encodeMessage := by
    obtain ⟨more, whole⟩ := arrived
    rw [← whole, scan_append] at sent
    split at sent
    · cases congrArg Scan.failure sent
    next sound => exact ⟨sound, _, congrArg Scan.payloads sent⟩
  obtain ⟨given, failure, -⟩ := @FrameDecoder.deliver_scan _ (.new limit) feeds rfl rfl
  rw [given, failure, ← decoded]
  exact ⟨front.1, front.2.map _, fun all => congrArg (map _ <| Scan.payloads ·)
    ((congrArg (scan limit) all).trans sent)⟩

/-- Of two messages all but the last byte arrived, in two parts. -/
theorem prefix_delivers_cancels :
    letI := constantHash
    ∃ frame, encodeFrame (encodeMessage (.streamCancel 1)) 64 = .ok frame ∧
      ((FrameDecoder.new 64).deliver [frame.take 3, frame.drop 3 ++ frame.dropLast]).failure =
        none := by
  let _ := constantHash
  obtain ⟨frame, framed⟩ : ∃ frame, encodeFrame (encodeMessage (.streamCancel 1)) 64 = .ok frame :=
    ⟨_, rfl⟩
  refine ⟨frame, framed, (@prefix_delivers_messages _ 64 [.streamCancel 1, .streamCancel 1]
    [frame, frame] _ ?_ (.cons framed (.cons framed .nil)) ?_).1⟩
  · simp [WireMessage.Buildable]
  · simp only [flatten_cons, flatten_nil, append_nil, ← append_assoc, take_append_drop]
    exact (prefix_append_right_inj _).mpr ( dropLast_prefix _)

end Moonpool.Rpc
