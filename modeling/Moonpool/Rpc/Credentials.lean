import Moonpool.Rpc.Completion

/-!
Owns that a credential leaves on a suitable session only, over every interleaving of a
runtime's sections.
-/

namespace Moonpool.Rpc

open Option

/-- A session that may carry a credential: its protocol has them, its peer was dialed or
authenticated, and it is encrypted unless plaintext is configured. -/
structure Suitable (config : RpcConfig) (connection : Connection) : Prop where
  version : ∃ hello, connection.peerHello = some hello ∧ credentialsVersion ≤ hello.version
  peer : connection.direction = .outbound ∨
    ∃ context, connection.peerContext = some context ∧ context.identity.isSome = true
  protection : (∃ context, connection.peerContext = some context ∧ context.isEncrypted = true) ∨
    config.plaintextCredentials = true

namespace Runtime

variable {runtime : Runtime} {config : RpcConfig} {connection : Connection}

theorem suitable_of_credentialRefusal (greeted : connection.peerHello.isSome = true)
    (allowed : credentialRefusal config connection = none) : Suitable config connection := by
  obtain ⟨hello, known⟩ := isSome_iff_exists.mp greeted
  unfold credentialRefusal at allowed
  simp only at allowed
  split at allowed
  · cases allowed
  next version =>
    split at allowed
    · cases allowed
    next peer =>
      split at allowed
      · cases allowed
      next protection =>
        refine ⟨⟨hello, known, ?_⟩, ?_, ?_⟩
        · simpa [known] using version
        · cases direction : connection.direction with
          | outbound => exact .inl rfl
          | inbound =>
            have authenticated : (connection.peerContext.bind PeerContext.identity).isSome =
                true := by
              simpa [direction, isSome_iff_ne_none] using peer
            obtain ⟨identity, found⟩ := isSome_iff_exists.mp authenticated
            obtain ⟨context, located, named⟩ := bind_eq_some_iff.mp found
            exact .inr ⟨context, located, by rw [named]; rfl⟩
        · cases plaintext : config.plaintextCredentials with
          | true => exact .inr rfl
          | false =>
            have encrypted : connection.peerContext.any PeerContext.isEncrypted = true := by
              simpa [plaintext] using protection
            cases located : connection.peerContext with
            | none =>
              rw [located] at encrypted
              cases encrypted
            | some context =>
              rw [located] at encrypted
              exact .inl ⟨context, rfl, encrypted⟩

variable [Xxh3]

theorem credentialRefusal_of_refusal {request : Request} {limit : UInt32} {frame : List UInt8}
    (built : request.Buildable)
    (framed : encodeFrame (encodeMessage (.request request)) limit = .ok frame)
    (allowed : refusal config connection frame = none) (carries : request.metadata ≠ []) :
    credentialRefusal config connection = none := by
  have payload : frame.drop headerLen = request.encode := encodeFrame_drop framed
  unfold refusal at allowed
  simp only [payload] at allowed
  split at allowed
  · cases allowed
  · rw [requestMetadataLen_encode built, if_pos] at allowed
    · simpa using allowed
    · simpa using List.length_pos_iff.mpr carries

end Runtime

section Guarded

variable [Xxh3] {config : RpcConfig} {maxFailed : Nat} {runtime : Runtime} {history : List Event}

/-- Whatever happened before, a frame that a step hands to a writer and that has a credential
section is a request, on a session suitable for one. -/
theorem credentials_leave_suitably (runs : Runs config maxFailed runtime history)
    {action : Action} {next : Runtime} {events : List Event}
    (acted : runtime.act action = some (next, events)) {held : Option CallId}
    {id : ConnectionId} {frame : List UInt8} (written : .written held id frame ∈ events) :
    ∃ request limit session, request.Buildable ∧
      encodeFrame (encodeMessage (.request request)) limit = .ok frame ∧
      runtime.sessions id = some session ∧
      (request.metadata ≠ [] → Suitable runtime.config session.connection) := by
  obtain ⟨filed, -⟩ := runs.filed
  obtain ⟨_, _, _, writing, found, named, allowed⟩ :=
    (filed.toFounded.emits acted).sourced written
  obtain ⟨⟨hearing, located, -, established⟩, request, limit, built, framed⟩ :=
    filed.drivenAt writing
  obtain ⟨-, own, coherent⟩ := filed.known found
  cases located.symm.trans found
  refine ⟨request, limit, _, built, framed, by rw [← named, own]; exact found,
    fun carries => ?_⟩
  exact Runtime.suitable_of_credentialRefusal (coherent.greeted established)
    (Runtime.credentialRefusal_of_refusal built framed allowed carries)

end Guarded

/-- A call with a credential, up to where its frame is judged. -/
def entrusted : List Action :=
  [.start (question (some [9])) (.reply .atMostOnce) ⟨0, 0, 0⟩,
    .upgraded 0 ⟨"server", none, some "tls"⟩, .pop 0, .hello 0 greeting 1, .establish 1, .settle,
    .pop 0]

def Event.credentialLen : Event → Option Nat
  | .written _ _ frame => requestMetadataLen (frame.drop headerLen)
  | _ => none

theorem credentials_leave_suitably_encrypted :
    letI := constantHash
    ∃ runtime history next held id frame session, Runs callerConfig 0 runtime history ∧
      runtime.act .judge = some (next, [.written held id frame]) ∧
      runtime.sessions id = some session ∧ Suitable runtime.config session.connection := by
  let _ := constantHash
  have happened : (((Runtime.new callerConfig 0).steps entrusted).bind fun reached =>
      (reached.1.act .judge).map fun judged => judged.2.map Event.credentialLen) =
        some [some 4] := by
    decide +kernel
  obtain ⟨⟨runtime, history⟩, stepped, judged⟩ := bind_eq_some_iff.mp happened
  obtain ⟨⟨next, events⟩, acted, wrote⟩ := map_eq_some_iff.mp judged
  obtain ⟨event, rfl, length⟩ := List.map_eq_singleton_iff.mp wrote
  have runs : Runs callerConfig 0 runtime history := Runs.new.steps stepped
  cases event with
  | written held id frame =>
    obtain ⟨request, limit, session, built, framed, found, suitable⟩ :=
      credentials_leave_suitably runs acted (List.mem_singleton.mpr rfl)
    refine ⟨runtime, history, next, held, id, frame, session, runs, acted, found,
      suitable fun empty => ?_⟩
    have peeked : requestMetadataLen (frame.drop headerLen) = some request.metadata.length := by
      rw [encodeFrame_drop framed]
      exact requestMetadataLen_encode built
    rw [empty] at peeked
    cases peeked.symm.trans length
  | _ => cases length

/-- No request leaves before the handshake is over, nor one larger than the peer takes. -/
theorem requests_leave_established [Xxh3] {config : RpcConfig} {maxFailed : Nat}
    {runtime : Runtime} {history : List Event} (runs : Runs config maxFailed runtime history)
    {action : Action} {next : Runtime} {events : List Event}
    (acted : runtime.act action = some (next, events)) {held : Option CallId}
    {id : ConnectionId} {frame : List UInt8} (written : .written held id frame ∈ events) :
    ∃ session hello, runtime.sessions id = some session ∧ session.stage = .running ∧
      session.connection.established = true ∧ session.connection.peerHello = some hello ∧
      (frame.drop headerLen).length ≤ hello.maxFrameBytes.toNat := by
  obtain ⟨filed, -⟩ := runs.filed
  obtain ⟨_, _, session, writing, found, named, allowed⟩ :=
    (filed.toFounded.emits acted).sourced written
  obtain ⟨⟨_, located, running, established⟩, -⟩ := filed.drivenAt writing
  cases located.symm.trans found
  obtain ⟨-, own, coherent⟩ := filed.known found
  obtain ⟨hello, greeted⟩ := isSome_iff_exists.mp (coherent.greeted established)
  refine ⟨session, hello, by rw [← named, own]; exact found, running, established, greeted, ?_⟩
  by_contra larger
  rw [Runtime.refusal, greeted, map_some, getD_some, if_pos (Nat.lt_of_not_le larger)] at allowed
  cases allowed

theorem requests_leave_established_entrusted :
    letI := constantHash
    ∃ runtime history next events held id frame session hello,
      Runs callerConfig 0 runtime history ∧ runtime.act .judge = some (next, events) ∧
      .written held id frame ∈ events ∧ runtime.sessions id = some session ∧
      session.stage = .running ∧ session.connection.established = true ∧
      session.connection.peerHello = some hello ∧
      (frame.drop headerLen).length ≤ hello.maxFrameBytes.toNat := by
  let _ := constantHash
  have happened : (((Runtime.new callerConfig 0).steps entrusted).bind fun reached =>
      (reached.1.act .judge).map fun judged => judged.2.any (Event.writes 0)) = some true := by
    decide +kernel
  obtain ⟨⟨runtime, history⟩, stepped, judged⟩ := bind_eq_some_iff.mp happened
  obtain ⟨⟨next, events⟩, acted, wrote⟩ := map_eq_some_iff.mp judged
  obtain ⟨event, member, writes⟩ := List.any_eq_true.mp wrote
  have runs : Runs callerConfig 0 runtime history := Runs.new.steps stepped
  cases event with
  | written held id frame =>
    obtain ⟨session, hello, known⟩ := requests_leave_established runs acted member
    exact ⟨runtime, history, next, events, held, id, frame, session, hello, runs, acted, member,
      known⟩
  | _ => cases writes

end Moonpool.Rpc
