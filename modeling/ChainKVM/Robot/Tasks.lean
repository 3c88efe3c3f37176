import ChainKVM.Lib.Machine
import ChainKVM.Robot.Handler

/-!
# What the agent reacts to: `cmd/agent/handlers.go` and `main.go`

Each handler is a program over the operations of `Agent.lean`. A `Task` is one
invocation of a handler together with what the outside answers while it runs.
Two machines are built from the same programs:

* `Agent.step`: every task is handled completely before the next one;
* `Agent.poolStep`: tasks are handled concurrently, one operation at a time.
-/

namespace ChainKVM.Robot

/-- `onDataMessage`: pongs go to the round-trip collector, everything else to
the control handler, whose acknowledgement is sent back. -/
def onDataMessage (ext : External) (data : Bytes) : AgentProg Unit :=
  match ext.decode.base data with
  | some .pong =>
    match ext.decode.pong data with
    | some pong => perform (.recordPong pong)
    | none => pure ()
  | _ => do
    match ← Handler.wired.handleMessage ext.decode data with
    | .ok (some ack) => perform (.sendData (.ack ack))
    | _ => pure ()

/-- The state callback that `OnOffer` registers; `info` is what it captures. -/
def onStateChange (info : Info) (state : PeerConnectionState) : AgentProg Unit :=
  match state with
  | .connected => do
    match ← perform (.activate info) with
    | .error _ => pure ()
    | .ok () => perform .reset
  | .failed | .closed => perform .terminate
  | _ => pure ()

/-- `OnOffer`, by the outcomes of creating the connection and of the
negotiation. -/
def onOffer (sessionID token : String) (sdpData : Bytes) (create : Except String Unit)
    (negotiate : Bytes → Except String Bytes) : AgentProg Unit := do
  match ← perform (.validateToken sessionID token) with
  | .error _ => pure ()
  | .ok info => do
    match ← perform (.createPeerConnection create) with
    | .error _ => pure ()
    | .ok () => do
      perform (.setICECallback sessionID)
      perform .setDataHandler
      perform (.setStateCallback info)
      match ← perform (.handleOffer negotiate sdpData) with
      | .error _ => pure ()
      | .ok answer => perform (.signal (.answer sessionID answer))

/-- `OnBye`. The session id is only logged. -/
def onBye (_sessionID : String) : AgentProg Unit := perform .onRevoked

/-- `OnRevoked`. The session id goes to the measurement and the audit event
only. -/
def onRevoked (sessionID reason : String) : AgentProg Unit := do
  let ts ← perform (.startRevocation sessionID)
  perform (.stampRevocation ts .handlerStarted)
  perform .closeTransport
  perform (.stampRevocation ts .transportClosed)
  perform .terminate
  perform (.stampRevocation ts .sessionTerminated)
  perform (.stampRevocation ts .safeStopTriggered)
  perform .onRevoked
  perform (.publishRevoked sessionID reason)

/-- One tick of `runSafetyMonitor`. -/
def safetyTick : AgentProg Unit := do
  if ← perform .isActive then perform .checkControlLoss else pure ()

/-- `shutdown`. -/
def shutdown : AgentProg Unit := do
  perform .onRevoked
  perform .closeTransport

/-- What the agent reacts to. -/
inductive Task where
  /- from the signaling client -/
  | offer (sessionID token : String) (sdpData : Bytes) (create : Except String Unit)
      (negotiate : Bytes → Except String Bytes)
  | bye (sessionID : String)
  | revoked (sessionID reason : String)
  /- from the transport -/
  | connState (conn : Nat) (state : PeerConnectionState)
  | dataChannel (conn : Nat)
  | iceCandidate (candidate : Bytes)
  | message (ch : Nat) (data : Bytes)
  /- from the process itself -/
  | tick
  | tokenExpired
  | shutdown

/-- The program of a task. -/
def Task.code (ext : External) : Task → AgentProg Unit
  | .offer sid tok sdp create negotiate => onOffer sid tok sdp create negotiate
  | .bye sid => onBye sid
  | .revoked sid reason => onRevoked sid reason
  | .connState conn state => do
    match ← perform (.stateCallback conn) with
    | none => pure ()
    | some info => onStateChange info state
  | .dataChannel conn => perform (.openChannel conn)
  | .iceCandidate candidate => do
    match ← perform .iceCallback with
    | none => pure ()
    | some sid => perform (.signal (.ice sid candidate))
  | .message ch data => do
    if ← perform (.delivers ch) then onDataMessage ext data else pure ()
  | .tick => safetyTick
  | .tokenExpired => perform .onTokenExpired
  | .shutdown => Robot.shutdown

/-- An event of the agent: a task, or the passing of time. -/
inductive Event where
  | task (t : Task)
  | elapse (d : Nat)

namespace Agent

/-- The passing of time. -/
def elapse (d : Nat) (a : Agent) : Agent := { a with now := a.now + d }

/-- Handle one event completely. -/
def step (ext : External) (a : Agent) : Event → Agent
  | .task t => ((t.code ext).exec (sem ext) a).2
  | .elapse d => a.elapse d

/-- The agent with its handlers in progress. -/
abbrev Busy := Pool Task AgentOp AgentOp.Ans Unit Agent

/-- One move of the concurrent agent. -/
abbrev poolStep (ext : External) : Busy → Move Task Nat → Busy :=
  Pool.step (Task.code ext) (sem ext) elapse

/-- Handling a task completely is one way of handling it concurrently. -/
theorem exists_poolStep_eq_step (ext : External) (a : Agent) (t : Task) :
    ∃ n, (Machine.run (poolStep ext) ⟨a, []⟩ (.spawn t :: List.replicate n (.sched 0))).shared =
      a.step ext (.task t) := by
  obtain ⟨n, hn⟩ := Pool.run_alone (Task.code ext) (sem ext) elapse 0 t (t.code ext)
    ⟨a, [(t, t.code ext)]⟩ rfl
  refine ⟨n, ?_⟩
  rw [Machine.run_cons]
  exact congrArg Pool.shared hn

end Agent

end ChainKVM.Robot
