import Moonpool.Rpc.Runtime

/-!
Owns the interleavings of a runtime's steps: callers and responders on any number of
threads, and the driver, the single task that polls every connection.

A section under the runtime's lock is one step.  Between the popping of a request frame and
its judgement, between the two halves of a connection's teardown, and between the halves of
a handshake or of a stream's end, the driver holds no lock: `Phase` says where it is, and
any other thread may step there.  A loop over calls that withdraws their frames one by one
may have the writer take one frame in the middle of it: that is its `Race`.
-/

namespace Moonpool.Rpc

inductive Action where
  | start (start : Runtime.Start) (kind : Runtime.CallKind) (readings : Runtime.Readings)
  | sendOneWay (start : Runtime.Start) (readings : Runtime.Readings)
  | abandon (call : CallId)
  /-- A responder of this runtime answers, or its stream ends or is refused. -/
  | completeHere (call : CallId) (outcome : WireOutcome) (race : Runtime.Race)
  | endHere (call : CallId) (error : Option WireError) (violation : Option String)
  | refuseHere (call : CallId) (violation : String)
  | traffic (id : ConnectionId) (traffic : Connection.Traffic)
  | beginShutdown
  | terminate (race : Runtime.Race)
  | dropCommands
  | accept (peer : Option SocketAddr) (now : Duration)
  | dialed (address : SocketAddr) (now : Duration) (jitter : Duration → Duration)
  | upgraded (id : ConnectionId) (context : PeerContext)
  | pop (id : ConnectionId)
  | judge
  | hello (id : ConnectionId) (hello : Hello) (now : Duration)
  | establish (now : Duration)
  | settle
  | reply (id : ConnectionId) (call : CallId) (outcome : WireOutcome)
  | refuseItem (id : ConnectionId) (call : CallId)
  | takeRefused (violation : String)
  | streamEnd (id : ConnectionId) (call : CallId) (error : Option WireError)
  | takeEnded (violation : Option String)
  | closeIfIdle (id : ConnectionId) (now : Duration)
  | closeConnection (id : ConnectionId) (returned : CloseReason) (now : Duration) (watched : Bool)
  | retransmit (credential : CallId → Option (List UInt8)) (now : Duration)

namespace Runtime

def runs (runtime : Runtime) (id : ConnectionId) : Option Session :=
  match runtime.driver, runtime.sessions id with
  | .idle, some session => if session.stage = .running then some session else none
  | _, _ => none

/-- The session the idle driver may run, once its handshake is done. -/
def hears (runtime : Runtime) (id : ConnectionId) : Option Session :=
  (runtime.runs id).filter fun session => session.connection.established

def idleOut (runtime : Runtime) (id : ConnectionId) (session : Session) (now : Duration) :
    Runtime :=
  let connection := session.connection
  let selected := connection.peerAddress.isSome
  if selected ∧ runtime.carried id ≠ [] then runtime
  else
    let idle :=
      if selected then runtime.config.peer.idleTimeout else runtime.config.peer.inboundIdleTimeout
    runtime.setSession id { session with connection := (connection.closeIfIdle now idle selected).1 }

def act [Xxh3] (runtime : Runtime) : Action → Option (Runtime × List Event)
  | .start start kind readings =>
    let (runtime, _, events) := runtime.startCall start kind readings
    some (runtime, events)
  | .sendOneWay start readings =>
    let (runtime, _, events) := runtime.sendOneWay start readings
    some (runtime, events)
  | .abandon call => some (runtime.abandon call)
  | .completeHere call outcome race => some (runtime.complete .here call outcome race)
  | .endHere call error violation =>
    if runtime.consumes .here call then some (runtime.streamEnd .here call error violation)
    else none
  | .refuseHere call violation =>
    if runtime.consumes .here call then some (runtime.streamRefused call violation) else none
  | .traffic id traffic => some (runtime.onConnection id (·.carry traffic), [])
  | .beginShutdown =>
    if runtime.isClosing then none else some ({ runtime with lifecycle := .draining }, [])
  | .terminate race => some (runtime.terminate race)
  | .dropCommands => some ({ runtime with commandsOpen := false }, [])
  | .accept peer now =>
    if runtime.driver ≠ .idle ∨ runtime.isClosing ∨
        runtime.config.maxConnections ≤ runtime.connectionCount then none
    else some ((runtime.newConnection peer .inbound now).1, [])
  | .dialed address now jitter =>
    if runtime.driver ≠ .idle then none
    else
      some ({ runtime with
        peers := runtime.peers.update address fun peer => (peer.nextDial now jitter).1 }, [])
  | .upgraded id context =>
    match runtime.driver, runtime.sessions id with
    | .idle, some session =>
      if session.stage = .connecting then
        some (runtime.setSession id
          { session with
            connection := session.connection.setPeerContext context, stage := .running }, [])
      else none
    | _, _ => none
  | .pop id => (runtime.runs id).map fun _ => (runtime.pop id, [])
  | .judge =>
    match runtime.driver with
    | .writing id frame call =>
      (runtime.sessions id).map fun session =>
        { runtime with driver := .idle }.admitTransmit session.connection call frame
    | _ => none
  | .hello id hello now =>
    match runtime.runs id with
    | none => none
    | some session =>
      let connection := session.connection
      if connection.established then none
      else
        (acceptHello runtime.config hello).map fun accepted =>
          let runtime :=
            match connection.direction, hello.listen with
            | .inbound, some listen => runtime.selectInbound id connection listen now
            | _, _ => runtime
          ({ runtime with driver := .greeting id accepted }, [])
  | .establish now =>
    match runtime.driver with
    | .greeting id accepted =>
      (runtime.sessions id).map fun session =>
        let connection := session.connection.establish accepted now
        ({ runtime.setSession id { session with connection } with
          driver := (connection.peerAddress.map Phase.settling).getD .idle }, [])
    | _ => none
  | .settle =>
    match runtime.driver with
    | .settling address =>
      some ({ runtime with
        peers := runtime.peers.update address Peer.established, driver := .idle }, [])
    | _ => none
  | .reply id call outcome =>
    (runtime.hears id).map fun _ => runtime.complete (.connection id) call outcome none
  | .refuseItem id call =>
    match runtime.hears id with
    | none => none
    | some _ =>
      if runtime.consumes (.connection id) call then
        some ({ runtime with driver := .refusing id call }, [])
      else none
  | .takeRefused violation =>
    match runtime.driver with
    | .refusing id call =>
      let (runtime, events) := { runtime with driver := .idle }.streamRefused call violation
      some (runtime.onConnection id (·.signalCancel call), events)
    | _ => none
  | .streamEnd id call error =>
    match runtime.hears id with
    | none => none
    | some _ =>
      if runtime.consumes (.connection id) call then
        some ({ runtime with driver := .ending id call error }, [])
      else none
  | .takeEnded violation =>
    match runtime.driver with
    | .ending id call error =>
      some ({ runtime with driver := .idle }.streamEnd (.connection id) call error violation)
    | _ => none
  | .closeIfIdle id now =>
    (runtime.hears id).map fun session => (runtime.idleOut id session now, [])
  | .closeConnection id returned now watched =>
    match runtime.driver, runtime.sessions id with
    | .idle, some session =>
      -- A failed connect is reported only where no session ran, and a replacement only of
      -- a connection that was closed for it.
      if session.stage = .ended ∨ (session.stage = .running ∧ returned.isConnectFailed) ∨
          (returned = .replaced ∧ session.connection.isClosed = false) then none
      else some (runtime.closeConnection id returned now watched)
    | _, _ => none
  | .retransmit credential now =>
    match runtime.driver with
    | .resending id address copies =>
      let (runtime, events) := runtime.retransmit address id copies credential now
      some ({ runtime with driver := .idle }, events)
    | _ => none

def steps [Xxh3] (runtime : Runtime) : List Action → Option (Runtime × List Event)
  | [] => some (runtime, [])
  | action :: actions =>
    match runtime.act action with
    | none => none
    | some (next, events) =>
      (next.steps actions).map fun reached => (reached.1, events ++ reached.2)

end Runtime

inductive Runs [Xxh3] (config : RpcConfig) (maxFailed : Nat) : Runtime → List Event → Prop where
  | new : Runs config maxFailed (.new config maxFailed) []
  | step {runtime next : Runtime} {history events : List Event} (action : Action) :
      Runs config maxFailed runtime history → runtime.act action = some (next, events) →
      Runs config maxFailed next (history ++ events)

theorem Runs.steps [Xxh3] {config : RpcConfig} {maxFailed : Nat} {runtime next : Runtime}
    {history events : List Event} {actions : List Action}
    (runs : Runs config maxFailed runtime history)
    (stepped : runtime.steps actions = some (next, events)) :
    Runs config maxFailed next (history ++ events) := by
  induction actions generalizing runtime history events with
  | nil =>
    cases stepped
    rwa [List.append_nil]
  | cons action actions ih =>
    simp only [Runtime.steps] at stepped
    split at stepped
    · cases stepped
    next acted =>
      obtain ⟨⟨last, later⟩, further, same⟩ := Option.map_eq_some_iff.mp stepped
      cases same
      rw [← List.append_assoc]
      exact ih (runs.step action acted) further

end Moonpool.Rpc
