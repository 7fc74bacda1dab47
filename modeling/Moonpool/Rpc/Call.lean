import Moonpool.Rpc.Envelope

/-!
Owns what a call is named by and how it can end: endpoints and call identities, the
reasons a call fails for and what each proves about execution (`endpoint/mod.rs`,
`error.rs`), and the credential section of a request (`protocol/metadata.rs`).
-/

namespace Moonpool.Rpc

open Lib

/-- Token indices with this bit set name well-known endpoints. -/
abbrev wellKnownBit : UInt64 := 0x8000000000000000

namespace EndpointToken

def isWellKnown (token : EndpointToken) : Bool := token.index &&& wellKnownBit != 0

end EndpointToken

structure Endpoint where
  address : SocketAddr
  incarnation : Incarnation
  token : EndpointToken
deriving DecidableEq

structure CallIdentity where
  interface : InterfaceId × SchemaVersion
  method : MethodId
  schema : SchemaVersion
  codec : CodecId
deriving DecidableEq

inductive Execution where
  | notAdmitted
  | maybeExecuted
  | executed
deriving DecidableEq

inductive ErrorReason where
  | endpointNotFound
  | staleIncarnation
  | methodMismatch (called registered : MethodId)
  | methodNotFound (called : MethodId)
  | interfaceMismatch (called registered : InterfaceId × SchemaVersion)
  | invalidReference (detail : String)
  | schemaMismatch (called registered : SchemaVersion)
  | codecMismatch (sent expected : CodecId)
  | malformedRequest
  | overloaded
  | frameTooLarge (size : Nat) (limit : UInt32)
  | encode (detail : String)
  | connectFailed (detail : String)
  | disconnected
  | timeout
  | brokenPromise
  | replyTooLarge
  | replyEncodeFailed
  | malformedReply (detail : String)
  | shutdown
  | notListening
  | alreadyRegistered
  | lookupFailed (detail : String)
  | peerFailed
  | streamingMismatch (endpointStreams : Bool)
  | streamFailed (code : UInt64)
  | streamProtocol (detail : String)
  | unauthenticated (reason : CredentialError)
  | permissionDenied
  | serverShuttingDown
  | credentialWithheld (why : String)
deriving DecidableEq

structure RpcError where
  reason : ErrorReason
  execution : Execution
deriving DecidableEq

namespace RpcError

def notAdmitted (reason : ErrorReason) : RpcError := ⟨reason, .notAdmitted⟩

def atLeast (error : RpcError) (floor : Execution) : RpcError :=
  if error.execution = .notAdmitted ∧ floor ≠ .notAdmitted then { error with execution := floor }
  else error

def fromWire (error : WireError) (called : CallIdentity) : RpcError :=
  match error with
  | .endpointNotFound => notAdmitted .endpointNotFound
  | .staleIncarnation => notAdmitted .staleIncarnation
  | .methodMismatch registered => notAdmitted (.methodMismatch called.method registered)
  | .schemaMismatch registered => notAdmitted (.schemaMismatch called.schema registered)
  | .codecMismatch registered => notAdmitted (.codecMismatch called.codec registered)
  | .interfaceMismatch registered => notAdmitted (.interfaceMismatch called.interface registered)
  | .methodNotFound => notAdmitted (.methodNotFound called.method)
  | .malformedRequest => notAdmitted .malformedRequest
  | .overloaded => notAdmitted .overloaded
  | .brokenPromise => ⟨.brokenPromise, .maybeExecuted⟩
  | .replyTooLarge => ⟨.replyTooLarge, .executed⟩
  | .replyEncodeFailed => ⟨.replyEncodeFailed, .executed⟩
  | .streamFailed code => ⟨.streamFailed code, .executed⟩
  | .streamProtocol =>
    ⟨.streamProtocol ("the producer ended the stream for a protocol violation " ++
      "(an acknowledgement it refused, or a counter overflow)"), .maybeExecuted⟩
  | .streamingMismatch endpointStreams => notAdmitted (.streamingMismatch endpointStreams)
  | .unauthenticated reason => notAdmitted (.unauthenticated reason)
  | .permissionDenied => notAdmitted .permissionDenied
  | .shuttingDown => notAdmitted .serverShuttingDown

theorem atLeast_maybeExecuted (error : RpcError) :
    (error.atLeast .maybeExecuted).execution ≠ .notAdmitted := by
  unfold atLeast
  split
  · simp
  next unweakened =>
    intro known
    exact unweakened ⟨known, by decide⟩

end RpcError

inductive PermanentFailure where
  | notFound
  | staleIncarnation
deriving DecidableEq

/-- The failure a server rejection proves about a dynamic reference, if any. -/
def permanentFailure : WireError → Option PermanentFailure
  | .endpointNotFound => some .notFound
  | .staleIncarnation => some .staleIncarnation
  | _ => none

def permanentReason : PermanentFailure → ErrorReason
  | .notFound => .endpointNotFound
  | .staleIncarnation => .staleIncarnation

abbrev entryBearer : UInt8 := 1

abbrev entryHeaderLen : Nat := 3

/-- The section carrying `credential` as its only entry, unless it is empty or too long. -/
def encodeBearer (credential : List UInt8) : Option (List UInt8) :=
  if credential.length = 0 ∨ 65535 < credential.length + entryHeaderLen then none
  else some (u8.encode entryBearer ++ u16.encode (UInt16.ofNat credential.length) ++ credential)

/-- The credential section of one attempt, given what its source answers now. -/
def credentialSection (credential : Option (List UInt8)) : Except RpcError (List UInt8) :=
  match credential with
  | none => .ok []
  | some credential =>
    match encodeBearer credential with
    | some section_ => .ok section_
    | none =>
      .error (.notAdmitted (.encode ("a " ++ toString credential.length ++
        "-byte credential does not fit the metadata section")))

theorem credentialSection_length {credential : Option (List UInt8)} {section_ : List UInt8}
    (made : credentialSection credential = .ok section_) : section_.length ≤ 65535 := by
  unfold credentialSection at made
  split at made
  · cases made
    exact Nat.zero_le _
  next credential =>
    unfold encodeBearer at made
    split at made
    next encoded =>
      split at encoded
      · cases encoded
      next fits =>
        cases encoded
        cases made
        simp only [List.length_append, u8_length, u16_length]
        simp only [entryHeaderLen] at fits
        omega
    · cases made

end Moonpool.Rpc
