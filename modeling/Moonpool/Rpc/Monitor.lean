import Moonpool.Rpc.Call

/-!
Owns the endpoints known permanently failed (`failure/state.rs`): a bounded memory of
rejections that proved an endpoint, or a whole incarnation at an address, gone.
-/

namespace Moonpool.Rpc

inductive FailedKey where
  | endpoint (endpoint : Endpoint)
  | incarnation (address : SocketAddr) (incarnation : Incarnation)
deriving DecidableEq

structure Failures where
  failed : List (FailedKey × PermanentFailure)
  order : List FailedKey
  maxFailed : Nat
deriving DecidableEq

namespace Failures

def new (maxFailed : Nat) : Failures := ⟨[], [], max maxFailed 1⟩

def get (failures : Failures) (key : FailedKey) : Option PermanentFailure :=
  (failures.failed.find? fun entry => entry.1 = key).map Prod.snd

/-- Whether `endpoint` is known failed for good; never for a well-known endpoint. -/
def permanentFailure (failures : Failures) (endpoint : Endpoint) : Option PermanentFailure :=
  if endpoint.token.isWellKnown then none
  else
    (failures.get (.endpoint endpoint)).or
      (failures.get (.incarnation endpoint.address endpoint.incarnation))

def makeRoom (maxFailed : Nat) :
    List (FailedKey × PermanentFailure) → List FailedKey →
      List (FailedKey × PermanentFailure) × List FailedKey
  | failed, [] => (failed, [])
  | failed, oldest :: later =>
    if failed.length < maxFailed then (failed, oldest :: later)
    else makeRoom maxFailed (failed.filter fun entry => entry.1 ≠ oldest) later

/-- Remember that `endpoint` failed permanently for `reason`.  Says whether it was new. -/
def endpointFailed (failures : Failures) (endpoint : Endpoint) (reason : PermanentFailure) :
    Failures × Bool :=
  if endpoint.token.isWellKnown then (failures, false)
  else
    let key :=
      match reason with
      | .notFound => FailedKey.endpoint endpoint
      | .staleIncarnation => FailedKey.incarnation endpoint.address endpoint.incarnation
    if (failures.get key).isSome then (failures, false)
    else
      let (failed, order) := makeRoom failures.maxFailed failures.failed failures.order
      ({ failures with failed := failed ++ [(key, reason)], order := order ++ [key] }, true)

end Failures

end Moonpool.Rpc
