import Moonpool.Rpc.Frame

/-!
Owns the envelope inside a frame: the messages of the protocol, the statuses a rejection
carries, their byte layout, the length functions and the version rules
(`protocol/wire.rs`, `protocol/cursor.rs`).

All integers are little-endian and of fixed width.  A field is a `Codec`, so what is
written is read back and what is read was written; the envelope's own laws are assembled
from those of its fields.
-/

namespace Moonpool.Rpc

open Lib Reading

/-! ### Fields -/

def u8 : Codec UInt8 :=
  .unsigned 1 UInt8.toNat UInt8.ofNat UInt8.toNat_lt (fun _ => UInt8.ofNat_toNat)
    fun _ => UInt8.toNat_ofNat_of_lt'

def u16 : Codec UInt16 :=
  .unsigned 2 UInt16.toNat UInt16.ofNat UInt16.toNat_lt (fun _ => UInt16.ofNat_toNat)
    fun _ => UInt16.toNat_ofNat_of_lt'

def u32 : Codec UInt32 :=
  .unsigned 4 UInt32.toNat UInt32.ofNat UInt32.toNat_lt (fun _ => UInt32.ofNat_toNat)
    fun _ => UInt32.toNat_ofNat_of_lt'

def u64 : Codec UInt64 :=
  .unsigned 8 UInt64.toNat UInt64.ofNat UInt64.toNat_lt (fun _ => UInt64.ofNat_toNat)
    fun _ => UInt64.toNat_ofNat_of_lt'

def u128 : Codec (BitVec 128) :=
  .unsigned 16 BitVec.toNat (BitVec.ofNat 128) BitVec.isLt (fun value => BitVec.ofNat_toNat 128 value)
    fun number small => (BitVec.toNat_ofNat number 128).trans (Nat.mod_eq_of_lt small)

@[simp] theorem u8_length (value : UInt8) : (u8.encode value).length = 1 := littleEndian_length _ _

@[simp] theorem u16_length (value : UInt16) : (u16.encode value).length = 2 :=
  littleEndian_length _ _

@[simp] theorem u32_length (value : UInt32) : (u32.encode value).length = 4 :=
  littleEndian_length _ _

@[simp] theorem u64_length (value : UInt64) : (u64.encode value).length = 8 :=
  littleEndian_length _ _

@[simp] theorem u128_length (value : BitVec 128) : (u128.encode value).length = 16 :=
  littleEndian_length _ _

@[simp] theorem octets_length {count : Nat} (value : Vector UInt8 count) :
    ((Codec.octets count).encode value).length = count := Vector.length_toList

/-! ### Identities -/

abbrev Incarnation : Type := BitVec 128
abbrev InterfaceId : Type := UInt32
abbrev MethodId : Type := UInt32
abbrev SchemaVersion : Type := UInt16
abbrev CodecId : Type := UInt16

structure EndpointToken where
  index : UInt64
  generation : UInt32
deriving DecidableEq

/-- A socket address.  Flow label and scope of an IPv6 address are not on the wire. -/
inductive SocketAddr where
  | v4 (octets : Vector UInt8 4) (port : UInt16)
  | v6 (octets : Vector UInt8 16) (port : UInt16) (flowInfo scope : UInt32)
deriving DecidableEq

abbrev protocolMagic : UInt32 := 0x4d505243

abbrev protocolVersion : UInt16 := 2

abbrev minProtocolVersion : UInt16 := 1

/-- The first version whose sessions carry verified credentials. -/
abbrev credentialsVersion : UInt16 := 2

def negotiate (ours theirs : UInt16 × UInt16) : Option UInt16 :=
  let low := max ours.1 theirs.1
  let high := min ours.2 theirs.2
  if low ≤ high then some high else none

abbrev kindHello : UInt8 := 0x01
abbrev kindRequest : UInt8 := 0x02
abbrev kindReply : UInt8 := 0x03
abbrev kindPing : UInt8 := 0x04
abbrev kindPong : UInt8 := 0x05
abbrev kindStreamItem : UInt8 := 0x06
abbrev kindStreamEnd : UInt8 := 0x07
abbrev kindStreamAck : UInt8 := 0x08
abbrev kindStreamCancel : UInt8 := 0x09

/-- No reply or rejection is ever sent. -/
abbrev requestFlagOneWay : UInt8 := 0x01

/-- The request opens a reply stream and carries the caller's credit window. -/
abbrev requestFlagStream : UInt8 := 0x02

abbrev requestFlagsKnown : UInt8 := requestFlagOneWay ||| requestFlagStream

/-! ### Statuses -/

inductive CredentialError where
  | missing
  | malformed
  | tooLarge
  | unsupportedAlgorithm
  | unknownKey
  | badSignature
  | wrongIssuer
  | wrongAudience
  | expired
  | notYetValid
  | clockUnavailable
  | insecureTransport
  | rejected
deriving DecidableEq

namespace CredentialError

def all : List CredentialError :=
  [missing, malformed, tooLarge, unsupportedAlgorithm, unknownKey, badSignature, wrongIssuer,
    wrongAudience, expired, notYetValid, clockUnavailable, insecureTransport, rejected]

def code : CredentialError → UInt8
  | missing => 1
  | malformed => 2
  | tooLarge => 3
  | unsupportedAlgorithm => 4
  | unknownKey => 5
  | badSignature => 6
  | wrongIssuer => 7
  | wrongAudience => 8
  | expired => 9
  | notYetValid => 10
  | clockUnavailable => 11
  | insecureTransport => 12
  | rejected => 13

def fromCode (code : UInt8) : Option CredentialError :=
  all.find? fun error => error.code == code

end CredentialError

inductive WireError where
  | endpointNotFound
  | staleIncarnation
  | methodMismatch (registered : MethodId)
  | schemaMismatch (registered : SchemaVersion)
  | codecMismatch (registered : CodecId)
  | malformedRequest
  | overloaded
  | brokenPromise
  | replyTooLarge
  | replyEncodeFailed
  | methodNotFound
  | interfaceMismatch (registered : InterfaceId × SchemaVersion)
  | streamFailed (code : UInt64)
  | streamProtocol
  | streamingMismatch (endpointStreams : Bool)
  | unauthenticated (reason : CredentialError)
  | permissionDenied
  | shuttingDown
deriving DecidableEq

inductive EnvelopeError where
  | empty
  | unknownKind (kind : UInt8)
  | truncated
  | unknownStatus (status : UInt8)
  | trailingBytes
  | invalidField (field : String)
deriving DecidableEq

namespace WireError

def since : WireError → UInt16
  | unauthenticated _ | permissionDenied | shuttingDown => 2
  | _ => 1

/-- This rejection as `version` can carry it: unchanged, or the closest status that proves the
same. -/
def forVersion (error : WireError) (version : UInt16) : WireError :=
  if error.since ≤ version then error
  else
    match error with
    | shuttingDown => overloaded
    | _ => endpointNotFound

def statusAndDetail : WireError → UInt8 × UInt64
  | endpointNotFound => (1, 0)
  | staleIncarnation => (2, 0)
  | methodMismatch registered => (3, registered.toUInt64)
  | schemaMismatch registered => (4, registered.toUInt64)
  | codecMismatch registered => (5, registered.toUInt64)
  | malformedRequest => (6, 0)
  | overloaded => (7, 0)
  | brokenPromise => (8, 0)
  | replyTooLarge => (9, 0)
  | replyEncodeFailed => (10, 0)
  | methodNotFound => (11, 0)
  | interfaceMismatch (interface, version) =>
    (12, interface.toUInt64 <<< 16 ||| version.toUInt64)
  | streamFailed code => (13, code)
  | streamProtocol => (14, 0)
  | streamingMismatch endpointStreams => (15, if endpointStreams then 1 else 0)
  | unauthenticated reason => (16, reason.code.toUInt64)
  | permissionDenied => (17, 0)
  | shuttingDown => (18, 0)

def narrow32 (detail : UInt64) (field : String) : Except EnvelopeError UInt32 :=
  if detail.toNat < 2 ^ 32 then .ok detail.toUInt32 else .error (.invalidField field)

def narrow16 (detail : UInt64) (field : String) : Except EnvelopeError UInt16 :=
  if detail.toNat < 2 ^ 16 then .ok detail.toUInt16 else .error (.invalidField field)

def fromStatus (status : UInt8) (detail : UInt64) : Except EnvelopeError WireError :=
  match status.toNat with
  | 1 => .ok endpointNotFound
  | 2 => .ok staleIncarnation
  | 3 => methodMismatch <$> narrow32 detail "method"
  | 4 => schemaMismatch <$> narrow16 detail "schema"
  | 5 => codecMismatch <$> narrow16 detail "codec"
  | 6 => .ok malformedRequest
  | 7 => .ok overloaded
  | 8 => .ok brokenPromise
  | 9 => .ok replyTooLarge
  | 10 => .ok replyEncodeFailed
  | 11 => .ok methodNotFound
  | 12 => do
      let interface ← narrow32 (detail >>> 16) "interface"
      return interfaceMismatch (interface, (detail &&& 0xffff).toUInt16)
  | 13 => .ok (streamFailed detail)
  | 14 => .ok streamProtocol
  | 15 =>
    match detail.toNat with
    | 0 => .ok (streamingMismatch false)
    | 1 => .ok (streamingMismatch true)
    | _ => .error (.invalidField "streaming")
  | 16 =>
    match if detail.toNat < 2 ^ 8 then CredentialError.fromCode detail.toUInt8 else none with
    | some reason => .ok (unauthenticated reason)
    | none => .error (.invalidField "credential error")
  | 17 => .ok permissionDenied
  | 18 => .ok shuttingDown
  | _ => .error (.unknownStatus status)

theorem narrow32_toUInt64 (value : UInt32) (field : String) :
    narrow32 value.toUInt64 field = .ok value := by
  rw [narrow32, if_pos (by rw [UInt32.toNat_toUInt64]; exact value.toNat_lt),
    UInt32.toUInt32_toUInt64]

theorem narrow16_toUInt64 (value : UInt16) (field : String) :
    narrow16 value.toUInt64 field = .ok value := by
  rw [narrow16, if_pos (by rw [UInt16.toNat_toUInt64]; exact value.toNat_lt),
    UInt16.toUInt16_toUInt64]

section

variable (interface : UInt32) (version : UInt16)

include interface version

theorem packed_toNat :
    (interface.toUInt64 <<< 16 ||| version.toUInt64).toNat =
      interface.toNat * 2 ^ 16 + version.toNat := by
  have wide := interface.toNat_lt
  have low := version.toNat_lt
  rw [UInt64.toNat_or, UInt64.toNat_shiftLeft, UInt32.toNat_toUInt64, UInt16.toNat_toUInt64]
  have shift : (16 : UInt64).toNat % 64 = 16 := rfl
  rw [shift, Nat.shiftLeft_eq, Nat.mod_eq_of_lt (by omega), ← Nat.shiftLeft_eq,
    ← Nat.shiftLeft_add_eq_or_of_lt (by omega)]

theorem packed_interface :
    (interface.toUInt64 <<< 16 ||| version.toUInt64) >>> 16 = interface.toUInt64 := by
  have low := version.toNat_lt
  apply UInt64.toNat.inj
  have shift : (16 : UInt64).toNat % 64 = 16 := rfl
  rw [UInt64.toNat_shiftRight, packed_toNat, UInt32.toNat_toUInt64, shift, Nat.shiftRight_eq_div_pow]
  omega

theorem packed_version :
    ((interface.toUInt64 <<< 16 ||| version.toUInt64) &&& 0xffff).toUInt16 = version := by
  have low := version.toNat_lt
  apply UInt16.toNat.inj
  have mask : (0xffff : UInt64).toNat = 2 ^ 16 - 1 := rfl
  rw [UInt64.toNat_toUInt16, UInt64.toNat_and, packed_toNat, mask, Nat.and_two_pow_sub_one_eq_mod]
  omega

end

theorem fromStatus_statusAndDetail (error : WireError) :
    fromStatus error.statusAndDetail.1 error.statusAndDetail.2 = .ok error := by
  cases error with
  | methodMismatch registered =>
    change methodMismatch <$> narrow32 registered.toUInt64 "method" = _
    rw [narrow32_toUInt64]
    rfl
  | schemaMismatch registered =>
    change schemaMismatch <$> narrow16 registered.toUInt64 "schema" = _
    rw [narrow16_toUInt64]
    rfl
  | codecMismatch registered =>
    change codecMismatch <$> narrow16 registered.toUInt64 "codec" = _
    rw [narrow16_toUInt64]
    rfl
  | interfaceMismatch registered =>
    obtain ⟨interface, version⟩ := registered
    change (do
      let found ← narrow32 ((interface.toUInt64 <<< 16 ||| version.toUInt64) >>> 16) "interface"
      return interfaceMismatch (found,
        ((interface.toUInt64 <<< 16 ||| version.toUInt64) &&& 0xffff).toUInt16)) = _
    rw [packed_interface, packed_version, narrow32_toUInt64]
    rfl
  | streamingMismatch endpointStreams => cases endpointStreams <;> rfl
  | unauthenticated reason => cases reason <;> rfl
  | _ => rfl

/-- Whether the status says everything: the encoder writes detail 0 for it. -/
def bare : WireError → Bool
  | methodMismatch _ | schemaMismatch _ | codecMismatch _ | interfaceMismatch _ | streamFailed _
  | streamingMismatch _ | unauthenticated _ => false
  | _ => true

section

variable {detail : UInt64}

theorem narrow32_ok {field : String} {value : UInt32}
    (found : narrow32 detail field = .ok value) : value.toUInt64 = detail := by
  unfold narrow32 at found
  split at found
  next small =>
    cases found
    apply UInt64.toNat.inj
    rw [UInt32.toNat_toUInt64, UInt64.toNat_toUInt32, Nat.mod_eq_of_lt small]
  next large => cases found

theorem narrow16_ok {field : String} {value : UInt16}
    (found : narrow16 detail field = .ok value) : value.toUInt64 = detail := by
  unfold narrow16 at found
  split at found
  next small =>
    cases found
    apply UInt64.toNat.inj
    rw [UInt16.toNat_toUInt64, UInt64.toNat_toUInt16, Nat.mod_eq_of_lt small]
  next large => cases found

theorem packed_halves {interface : UInt32}
    (high : interface.toUInt64 = detail >>> 16) :
    interface.toUInt64 <<< 16 ||| (detail &&& 0xffff).toUInt16.toUInt64 = detail := by
  have shift : (16 : UInt64).toNat % 64 = 16 := rfl
  have mask : (0xffff : UInt64).toNat = 2 ^ 16 - 1 := rfl
  have upper := congrArg UInt64.toNat high
  rw [UInt32.toNat_toUInt64, UInt64.toNat_shiftRight, shift, Nat.shiftRight_eq_div_pow] at upper
  apply UInt64.toNat.inj
  rw [packed_toNat, upper, UInt64.toNat_toUInt16, UInt64.toNat_and, mask,
    Nat.and_two_pow_sub_one_eq_mod]
  omega

end

theorem fromStatus_ok {status : UInt8} {detail : UInt64} {error : WireError}
    (found : fromStatus status detail = .ok error) :
    error.statusAndDetail.1 = status ∧
      (error.bare = true ∧ error.statusAndDetail.2 = 0 ∨
        error.bare = false ∧ error.statusAndDetail.2 = detail) := by
  have known : ∀ {code : UInt8}, status.toNat = code.toNat → code = status :=
    fun same => (UInt8.toNat.inj same).symm
  unfold fromStatus at found
  split at found
  case h_3 same =>
    obtain ⟨value, narrowed, rfl⟩ := ok_of_map found
    exact ⟨known same, .inr ⟨rfl, narrow32_ok narrowed⟩⟩
  case h_4 same =>
    obtain ⟨value, narrowed, rfl⟩ := ok_of_map found
    exact ⟨known same, .inr ⟨rfl, narrow16_ok narrowed⟩⟩
  case h_5 same =>
    obtain ⟨value, narrowed, rfl⟩ := ok_of_map found
    exact ⟨known same, .inr ⟨rfl, narrow16_ok narrowed⟩⟩
  case h_12 same =>
    cases narrowed : narrow32 (detail >>> 16) "interface" with
    | error refused =>
      rw [narrowed] at found
      cases found
    | ok interface =>
      rw [narrowed] at found
      cases found
      exact ⟨known same, .inr ⟨rfl, packed_halves (narrow32_ok narrowed)⟩⟩
  case h_13 same =>
    cases found
    exact ⟨known same, .inr ⟨rfl, rfl⟩⟩
  case h_15 same =>
    split at found
    next zero =>
      cases found
      exact ⟨known same, .inr ⟨rfl, (UInt64.toNat.inj zero).symm⟩⟩
    next one =>
      cases found
      exact ⟨known same, .inr ⟨rfl, (UInt64.toNat.inj one).symm⟩⟩
    · cases found
  case h_16 same =>
    split at found
    next reason named =>
      cases found
      split at named
      next small =>
        have code : reason.code = detail.toUInt8 := by simpa using List.find?_some named
        refine ⟨known same, .inr ⟨rfl, UInt64.toNat.inj ?_⟩⟩
        rw [statusAndDetail, code, UInt8.toNat_toUInt64, UInt64.toNat_toUInt8,
          Nat.mod_eq_of_lt small]
      · cases named
    · cases found
  case h_19 => cases found
  -- The other statuses carry nothing.
  all_goals
    cases found
    exact ⟨known ‹_›, .inl ⟨rfl, rfl⟩⟩

theorem status_ne_zero (error : WireError) : error.statusAndDetail.1 ≠ 0 := by
  cases error <;> simp [statusAndDetail]

end WireError

/-! ### Messages -/

structure Hello where
  magic : UInt32
  minVersion : UInt16
  maxVersion : UInt16
  incarnation : Incarnation
  features : UInt64
  maxFrameBytes : UInt32
  listen : Option SocketAddr
deriving DecidableEq

structure Request where
  callId : UInt64
  incarnation : Incarnation
  token : EndpointToken
  interface : InterfaceId
  interfaceVersion : SchemaVersion
  method : MethodId
  schema : SchemaVersion
  codec : CodecId
  flags : UInt8
  /-- With the stream flag: the caller's credit window.  Not on the wire otherwise. -/
  streamWindow : UInt64
  metadata : List UInt8
  body : List UInt8
deriving DecidableEq

inductive WireOutcome where
  | ok (codec : CodecId) (body : List UInt8)
  | err (error : WireError)
deriving DecidableEq

inductive WireMessage where
  | hello (hello : Hello)
  | request (request : Request)
  | reply (callId : UInt64) (outcome : WireOutcome)
  | ping (nonce : UInt64)
  | pong (nonce : UInt64)
  | streamItem (callId sequence : UInt64) (codec : CodecId) (body : List UInt8)
  | streamEnd (callId items : UInt64) (error : Option WireError)
  | streamAck (callId consumed : UInt64)
  | streamCancel (callId : UInt64)
deriving DecidableEq

abbrev opensStream (flags : UInt8) : Prop := flags &&& requestFlagStream ≠ 0

def SocketAddr.encode : SocketAddr → List UInt8
  | v4 octets port => u8.encode 4 ++ (Codec.octets 4).encode octets ++ u16.encode port
  | v6 octets port _ _ => u8.encode 6 ++ (Codec.octets 16).encode octets ++ u16.encode port

def encodeListens : Option SocketAddr → List UInt8
  | some address => address.encode
  | none => u8.encode 0

def Hello.encode (hello : Hello) : List UInt8 :=
  u8.encode kindHello ++ u32.encode hello.magic ++ u16.encode hello.minVersion ++
    u16.encode hello.maxVersion ++ u128.encode hello.incarnation ++ u64.encode hello.features ++
    u32.encode hello.maxFrameBytes ++ encodeListens hello.listen

/-- The metadata section is bounded by its `u16` length; the encoder writes no more. -/
def Request.encode (request : Request) : List UInt8 :=
  let metadata := request.metadata.take (min request.metadata.length 65535)
  u8.encode kindRequest ++ u64.encode request.callId ++ u128.encode request.incarnation ++
    u64.encode request.token.index ++ u32.encode request.token.generation ++
    u32.encode request.interface ++ u16.encode request.interfaceVersion ++
    u32.encode request.method ++ u16.encode request.schema ++ u16.encode request.codec ++
    u8.encode request.flags ++
    (if opensStream request.flags then u64.encode request.streamWindow else []) ++
    u16.encode (UInt16.ofNat metadata.length) ++ metadata ++ request.body

def encodeMessage : WireMessage → List UInt8
  | .hello hello => hello.encode
  | .request request => request.encode
  | .reply callId (.ok codec body) =>
    u8.encode kindReply ++ u64.encode callId ++ u8.encode 0 ++ u16.encode codec ++ body
  | .reply callId (.err error) =>
    u8.encode kindReply ++ u64.encode callId ++ u8.encode error.statusAndDetail.1 ++
      u64.encode error.statusAndDetail.2
  | .ping nonce => u8.encode kindPing ++ u64.encode nonce
  | .pong nonce => u8.encode kindPong ++ u64.encode nonce
  | .streamItem callId sequence codec body =>
    u8.encode kindStreamItem ++ u64.encode callId ++ u64.encode sequence ++ u16.encode codec ++
      body
  | .streamEnd callId items error =>
    let ending := (error.map WireError.statusAndDetail).getD (0, 0)
    u8.encode kindStreamEnd ++ u64.encode callId ++ u64.encode items ++ u8.encode ending.1 ++
      u64.encode ending.2
  | .streamAck callId consumed =>
    u8.encode kindStreamAck ++ u64.encode callId ++ u64.encode consumed
  | .streamCancel callId => u8.encode kindStreamCancel ++ u64.encode callId

/-! ### Lengths -/

/-- Size of the largest `Hello` envelope (one announcing an IPv6 listen address). -/
abbrev helloEnvelopeLen : Nat := 1 + 4 + 2 + 2 + 16 + 8 + 4 + 1 + 16 + 2

abbrev livenessEnvelopeLen : Nat := 1 + 8

abbrev rejectionEnvelopeLen : Nat := 1 + 8 + 1 + 8

def requestEnvelopeLen (bodyLen : Nat) : Nat :=
  1 + 8 + 16 + 8 + 4 + 4 + 2 + 4 + 2 + 2 + 1 + 2 + bodyLen

def replyEnvelopeLen (bodyLen : Nat) : Nat :=
  1 + 8 + 1 + 2 + bodyLen

def streamRequestEnvelopeLen (bodyLen : Nat) : Nat :=
  requestEnvelopeLen bodyLen + 8

def streamItemEnvelopeLen (bodyLen : Nat) : Nat :=
  1 + 8 + 8 + 2 + bodyLen

def streamItemFrameLen (bodyLen : Nat) : Nat :=
  min (headerLen + streamItemEnvelopeLen 0 + bodyLen) (2 ^ 64 - 1)

abbrev streamEndEnvelopeLen : Nat := 1 + 8 + 8 + 1 + 8

abbrev streamAckEnvelopeLen : Nat := 1 + 8 + 8

/-- The length of a request's metadata section, read without decoding the rest. -/
def requestMetadataLen (payload : List UInt8) : Option Nat := do
  let (kind, input) ← u8.read payload
  if kind ≠ kindRequest then none
  let (_, input) ← readSlice (8 + 16 + 8 + 4 + 4 + 2 + 4 + 2 + 2) input
  let (flags, input) ← u8.read input
  let input ← if opensStream flags then (u64.read input).map Prod.snd else some input
  let (length, _) ← u16.read input
  return length.toNat

/-! ### Decoding -/

def decodeListen (family : UInt8) : Reading EnvelopeError SocketAddr :=
  if family = 4 then do
    let octets ← field (Codec.octets 4) .truncated
    let port ← field u16 .truncated
    return .v4 octets port
  else if family = 6 then do
    let octets ← field (Codec.octets 16) .truncated
    let port ← field u16 .truncated
    return .v6 octets port 0 0
  else throw (.invalidField "listen address family")

def decodeListens : Reading EnvelopeError (Option SocketAddr) := do
  let family ← field u8 .truncated
  if family = 0 then return none
  else
    let address ← decodeListen family
    return some address

def decodeHello : Reading EnvelopeError WireMessage := do
  let magic ← field u32 .truncated
  let minVersion ← field u16 .truncated
  let maxVersion ← field u16 .truncated
  let incarnation ← field u128 .truncated
  let features ← field u64 .truncated
  let maxFrameBytes ← field u32 .truncated
  let listen ← decodeListens
  ended .trailingBytes
  return .hello ⟨magic, minVersion, maxVersion, incarnation, features, maxFrameBytes, listen⟩

def decodeFlags : Reading EnvelopeError UInt8 := do
  let flags ← field u8 .truncated
  let both := requestFlagOneWay ||| requestFlagStream
  if flags &&& ~~~requestFlagsKnown ≠ 0 ∨ flags &&& both = both then throw (.invalidField "flags")
  else return flags

/-- The credit window, which only a request that opens a stream carries. -/
def decodeWindow (flags : UInt8) : Reading EnvelopeError UInt64 :=
  if opensStream flags then field u64 .truncated else pure 0

def decodeRequest : Reading EnvelopeError WireMessage := do
  let callId ← field u64 .truncated
  let incarnation ← field u128 .truncated
  let index ← field u64 .truncated
  let generation ← field u32 .truncated
  let interface ← field u32 .truncated
  let interfaceVersion ← field u16 .truncated
  let method ← field u32 .truncated
  let schema ← field u16 .truncated
  let codec ← field u16 .truncated
  let flags ← decodeFlags
  let streamWindow ← decodeWindow flags
  let metadataLen ← field u16 .truncated
  let metadata ← slice metadataLen.toNat .truncated
  let body ← rest
  return .request ⟨callId, incarnation, ⟨index, generation⟩, interface, interfaceVersion, method,
    schema, codec, flags, streamWindow, metadata, body⟩

def decodeReply : Reading EnvelopeError WireMessage := do
  let callId ← field u64 .truncated
  let status ← field u8 .truncated
  if status = 0 then
    let codec ← field u16 .truncated
    let body ← rest
    return .reply callId (.ok codec body)
  else
    let detail ← field u64 .truncated
    ended .trailingBytes
    let error ← decoded (WireError.fromStatus status detail)
    return .reply callId (.err error)

def decodeEnding (status : UInt8) (detail : UInt64) :
    Except EnvelopeError (Option WireError) :=
  if status = 0 then
    if detail = 0 then .ok none else .error (.invalidField "stream end detail")
  else some <$> WireError.fromStatus status detail

def decodeStream (kind : UInt8) : Reading EnvelopeError WireMessage :=
  if kind = kindStreamItem then do
    let callId ← field u64 .truncated
    let sequence ← field u64 .truncated
    let codec ← field u16 .truncated
    let body ← rest
    return .streamItem callId sequence codec body
  else if kind = kindStreamEnd then do
    let callId ← field u64 .truncated
    let items ← field u64 .truncated
    let status ← field u8 .truncated
    let detail ← field u64 .truncated
    let error ← decoded (decodeEnding status detail)
    ended .trailingBytes
    return .streamEnd callId items error
  else if kind = kindStreamAck then do
    let callId ← field u64 .truncated
    let consumed ← field u64 .truncated
    ended .trailingBytes
    return .streamAck callId consumed
  else if kind = kindStreamCancel then do
    let callId ← field u64 .truncated
    ended .trailingBytes
    return .streamCancel callId
  else throw (.unknownKind kind)

def decodeKind (kind : UInt8) : Reading EnvelopeError WireMessage :=
  if kind = kindHello then decodeHello
  else if kind = kindRequest then decodeRequest
  else if kind = kindReply then decodeReply
  else if kind = kindPing ∨ kind = kindPong then do
    let nonce ← field u64 .truncated
    ended .trailingBytes
    return if kind = kindPing then .ping nonce else .pong nonce
  else if kindStreamItem ≤ kind ∧ kind ≤ kindStreamCancel then decodeStream kind
  else throw (.unknownKind kind)

def decodeAny : Reading EnvelopeError WireMessage := do
  let kind ← field u8 .empty
  decodeKind kind

def WireMessage.rejection : WireMessage → Option WireError
  | .reply _ (.err error) => some error
  | .streamEnd _ _ error => error
  | _ => none

def decodeMessageAt (payload : List UInt8) (version : UInt16) :
    Except EnvelopeError WireMessage := do
  let (message, _) ← decodeAny payload
  match message.rejection with
  | some error =>
    if error.since > version then .error (.unknownStatus error.statusAndDetail.1)
    else .ok message
  | none => .ok message

def decodeMessage (payload : List UInt8) : Except EnvelopeError WireMessage :=
  decodeMessageAt payload protocolVersion

end Moonpool.Rpc
