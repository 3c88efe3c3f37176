import ChainKVM.Lib.Prog
import ChainKVM.Robot.Metrics
import ChainKVM.Robot.Monitor
import ChainKVM.Robot.Transport

/-!
# The agent's components and their atomic operations: `cmd/agent`

`Agent` is what the process holds once `initComponents` has run; `AgentOp`
lists the operations its handlers are made of, each one a critical section of
a component (or a call out of the process), and `sem` says what each does.
The handlers themselves are programs over these operations (`Handler.lean`,
`Tasks.lean`).

What the agent cannot decide is in `External`: the answers of the hardware
(any function of the calls made so far, so any sequence of successes and
failures), JWT parsing and JSON decoding.

The safe-stop callback `onSafeStop` runs inside the monitor's critical
section, so a trigger and the stop it causes are one operation.
-/

namespace ChainKVM.Robot

/-- The calls of `RobotAPI`. -/
inductive RobotCall where
  | drive (v w : Rat)
  | sendKey (key action : String) (modifiers : List String)
  | sendMouse (dx dy buttons scroll : Int)
  | eStop
  deriving DecidableEq, Repr

/-- Everything but the stop moves the robot or its machine. -/
def RobotCall.isMotion : RobotCall → Bool
  | .eStop => false
  | _ => true

/-- `EventType` of the audit package. -/
inductive AuditEventType where
  | sessionRevoked
  | sessionEnded
  | invalidCommandThreshold
  deriving DecidableEq, Repr

/-- `audit.Event`, without the fields the agent leaves empty. -/
structure AuditEvent where
  eventType : AuditEventType
  sessionID : String
  timestamp : Time
  metadata : List (String × String)
  deriving DecidableEq, Repr

/-- What the agent sends to the gateway. -/
inductive Signal where
  | answer (sessionID : String) (sdp : Bytes)
  | ice (sessionID : String) (candidate : Bytes)
  deriving DecidableEq, Repr

/-- The outside: the hardware (given the calls so far, newest first), JWT
parsing and JSON decoding. -/
structure External where
  robot : List RobotCall → RobotCall → Except String Unit
  parse : JwtParse
  decode : Decoder

/-- The part of the agent its safety depends on: the clock, the session, the
monitor, the transport, and the calls that have reached the robot (newest
first). -/
structure Core where
  now : Time
  sessionMgr : Manager
  safety : Monitor
  transport : Transport
  calls : List RobotCall

/-- The agent: the core and what else it has measured and handed out (`sent`
on data channels, `signaled` to the gateway, `audit` events, `pongs` to the
round-trip collector; newest first). -/
structure Agent extends Core where
  revocation : RevocationLog
  sent : List (Nat × Outgoing)
  signaled : List Signal
  audit : List AuditEvent
  pongs : List PongMessage

namespace Agent

/-- The configuration `initComponents` reads. -/
structure Config where
  robotID : String
  controlLossTimeoutMS : Int
  invalidCmdThreshold : Int
  invalidCmdTimeWindowMS : Int

/-- `time.Duration(ms) * time.Millisecond`: an `int64` product. -/
def milliseconds (ms : Int) : Duration := (Int64.ofInt (ms * millisecond)).toInt

/-- A whole number of milliseconds is never the maximal duration. -/
theorem milliseconds_lt (ms : Int) : milliseconds ms < 9223372036854775807 := by
  have heven : (ms * 1000000).bmod 18446744073709551616 < 9223372036854775807 := by
    rw [Int.bmod_def]
    split <;> omega
  show (Int64.ofInt (ms * 1000000)).toInt < 9223372036854775807
  rw [Int64.toInt_ofInt]
  exact heven

/-- `initComponents`, by the result of `initTokenValidator`. -/
def init (now : Time) (cfg : Config) (tokenValidator : Option TokenValidator) : Agent where
  now := now
  sessionMgr := .new cfg.robotID tokenValidator
  safety := .new now (milliseconds cfg.controlLossTimeoutMS) cfg.invalidCmdThreshold
    (milliseconds cfg.invalidCmdTimeWindowMS)
  transport := .new
  revocation := .new
  calls := []
  sent := []
  signaled := []
  audit := []
  pongs := []

/-- `SendData`: handed to the data channel, if there is one. -/
def sendData (msg : Outgoing) (a : Agent) : Agent :=
  match a.transport.dc with
  | none => a
  | some dc => { a with sent := (dc, msg) :: a.sent }

/-- A call of the `RobotAPI`. -/
def callRobot (ext : External) (c : RobotCall) (a : Agent) : Except String Unit × Agent :=
  (ext.robot a.calls c, { a with calls := c :: a.calls })

/-- `audit.Publish`. -/
def publish (event : AuditEvent) (a : Agent) : Agent := { a with audit := event :: a.audit }

/-- `currentSessionID`. -/
def currentSessionID (a : Agent) : String :=
  match a.sessionMgr.info with
  | none => ""
  | some info => info.sessionID

/-- `publishAuditEvent`: only the invalid-command threshold is reported
here. -/
def publishAuditEvent (trigger : Trigger) (a : Agent) : Agent :=
  if trigger ≠ .invalidCmds then a
  else
    a.publish ⟨.invalidCommandThreshold, a.currentSessionID, a.now,
      [("trigger", "invalid_commands")]⟩

/-- `sendStateNotification`. -/
def sendStateNotification (haltErr : Option HaltError) (a : Agent) : Agent :=
  a.sendData (.state (if haltErr.isNone then .safeStop else .safeStopFailed) (a.now / millisecond))

/-- `executeHardwareStop`. -/
def executeHardwareStop (ext : External) (a : Agent) : Option HaltError × Agent :=
  match a.callRobot ext .eStop with
  | (.ok (), a) => (none, a)
  | (.error err, a) => (some (.robot err), a)

/-- `onSafeStop`. -/
def onSafeStop (ext : External) : SafeStopCallback Agent := fun trigger a =>
  let (haltErr, a) := a.executeHardwareStop ext
  let a := { a with revocation := a.revocation.recordTimestamp a.now .hardwareStopIssued }
  let a := (a.publishAuditEvent trigger).sendStateNotification haltErr
  let a := { a with revocation := a.revocation.complete a.now }
  (⟨trigger, a.now, haltErr⟩, a)

/-- A method of the monitor, whose callback acts on the rest of the agent. -/
def onMonitor (f : Monitor → Agent → Monitor × Agent) (a : Agent) : Agent :=
  { (f a.safety a).2 with safety := (f a.safety a).1 }

end Agent

/-! ## Operations -/

/-- The atomic operations of the agent's handlers. -/
inductive AgentOp where
  /- the session manager -/
  | validateToken (sessionID token : String)
  | activate (info : Info)
  | terminate
  | isActive
  | hasScope (scope : String)
  /- the safety monitor -/
  | onValidControl
  | onInvalidCommand
  | onEStop
  | onTokenExpired
  | onRevoked
  | checkControlLoss
  | reset
  /- the robot -/
  | robot (c : RobotCall)
  /- the transport and the signaling client -/
  | createPeerConnection (outcome : Except String Unit)
  | setICECallback (sessionID : String)
  | setDataHandler
  | setStateCallback (info : Info)
  | handleOffer (negotiate : Bytes → Except String Bytes) (sdpData : Bytes)
  | stateCallback (conn : Nat)
  | openChannel (conn : Nat)
  | delivers (ch : Nat)
  | iceCallback
  | sendData (msg : Outgoing)
  | closeTransport
  | signal (msg : Signal)
  /- measurements, audit and the clock -/
  | startRevocation (sessionID : String)
  | stampRevocation (ts : Nat) (stage : RevocationStage)
  | publishRevoked (sessionID reason : String)
  | recordPong (pong : PongMessage)
  | now

/-- The answer of an operation. -/
abbrev AgentOp.Ans : AgentOp → Type
  | .validateToken _ _ => Except SessionError Info
  | .activate _ => Except SessionError Unit
  | .isActive | .hasScope _ | .delivers _ => Bool
  | .robot _ => Except String Unit
  | .createPeerConnection _ => Except TransportError Unit
  | .handleOffer _ _ => Except TransportError Bytes
  | .stateCallback _ => Option Info
  | .iceCallback => Option String
  | .startRevocation _ => Nat
  | .now => Time
  | _ => Unit

/-- A handler: a program over the agent's operations. -/
abbrev AgentProg (α : Type) := Prog AgentOp AgentOp.Ans α

/-- Perform one operation of the agent. -/
abbrev perform (o : AgentOp) : AgentProg o.Ans := Prog.perform o

/-- What one operation does. -/
def sem (ext : External) : (o : AgentOp) → Agent → o.Ans × Agent
  | .validateToken sid tok, a =>
    ((a.sessionMgr.validateToken ext.parse a.now sid tok).1,
      { a with sessionMgr := (a.sessionMgr.validateToken ext.parse a.now sid tok).2 })
  | .activate info, a =>
    ((a.sessionMgr.activate info).1, { a with sessionMgr := (a.sessionMgr.activate info).2 })
  | .terminate, a => ((), { a with sessionMgr := a.sessionMgr.terminate })
  | .isActive, a => (a.sessionMgr.isActive, a)
  | .hasScope scope, a => (a.sessionMgr.hasScope scope, a)
  | .onValidControl, a => ((), { a with safety := a.safety.onValidControl a.now })
  | .onInvalidCommand, a =>
    ((), a.onMonitor (Monitor.onInvalidCommand (some (Agent.onSafeStop ext)) a.now))
  | .onEStop, a => ((), a.onMonitor (Monitor.onEStop (some (Agent.onSafeStop ext))))
  | .onTokenExpired, a => ((), a.onMonitor (Monitor.onTokenExpired (some (Agent.onSafeStop ext))))
  | .onRevoked, a => ((), a.onMonitor (Monitor.onRevoked (some (Agent.onSafeStop ext))))
  | .checkControlLoss, a =>
    ((), a.onMonitor (Monitor.checkControlLoss (some (Agent.onSafeStop ext)) a.now))
  | .reset, a => ((), { a with safety := a.safety.reset a.now })
  | .robot c, a => a.callRobot ext c
  | .createPeerConnection outcome, a =>
    ((a.transport.createPeerConnection outcome).1,
      { a with transport := (a.transport.createPeerConnection outcome).2 })
  | .setICECallback sid, a => ((), { a with transport := { a.transport with onICE := some sid } })
  | .setDataHandler, a => ((), { a with transport := { a.transport with onDataMessage := true } })
  | .setStateCallback info, a =>
    ((), { a with transport := { a.transport with onStateChange := some info } })
  | .handleOffer negotiate sdpData, a => (a.transport.handleOffer negotiate sdpData, a)
  | .stateCallback conn, a => (a.transport.stateCallback conn, a)
  | .openChannel conn, a => ((), { a with transport := a.transport.openChannel conn })
  | .delivers ch, a => (a.transport.delivers ch, a)
  | .iceCallback, a => (a.transport.onICE, a)
  | .sendData msg, a => ((), a.sendData msg)
  | .closeTransport, a => ((), { a with transport := a.transport.close })
  | .signal msg, a => ((), { a with signaled := msg :: a.signaled })
  | .startRevocation sid, a =>
    ((a.revocation.start sid a.now).1, { a with revocation := (a.revocation.start sid a.now).2 })
  | .stampRevocation ts stage, a =>
    ((), { a with revocation := a.revocation.stamp ts a.now stage })
  | .publishRevoked sid reason, a =>
    ((), a.publish ⟨.sessionRevoked, sid, a.now, [("reason", reason)]⟩)
  | .recordPong pong, a => ((), { a with pongs := pong :: a.pongs })
  | .now, a => (a.now, a)

end ChainKVM.Robot
