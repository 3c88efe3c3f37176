import ChainKVM.Robot.Agent
import ChainKVM.Robot.Validator

/-!
# The control handler: `internal/control/handler.go`

`HandleMessage` decodes a message, checks that the session is active and
hands it to one of the `Handle…` methods. The three motion commands share
their body (`handleMotion`): scope, validation, robot, valid control. They
never ask the monitor whether the robot is stopped.

Each check is an operation of its own, so a handler that is in progress can
be overtaken between its checks and its dispatch.
-/

namespace ChainKVM.Robot

/-- The errors of the handler. -/
inductive HandlerError where
  | invalidJSON
  | sessionRevoked
  | unknownType
  | scopeNotAllowed
  | validation (err : ValidationError)
  | robot (err : String)
  deriving DecidableEq, Repr

/-- `Handler`. The three interfaces may be nil; `true` says that one is
set. -/
structure Handler where
  safety : Bool
  scopes : Bool
  session : Bool
  validator : Validator
  deriving DecidableEq, Repr

namespace Handler

/-- The handler of `initComponents`: all interfaces set, commands stale after
200 ms. -/
def wired : Handler := ⟨true, true, true, ⟨200 * millisecond⟩⟩

/-- `notifyValid`. -/
def notifyValid (h : Handler) : AgentProg Unit :=
  if h.safety then perform .onValidControl else pure ()

/-- `notifyInvalid`. -/
def notifyInvalid (h : Handler) : AgentProg Unit :=
  if h.safety then perform .onInvalidCommand else pure ()

/-- `hasScope`. -/
def hasScope (h : Handler) (scope : String) : AgentProg Bool :=
  if h.scopes then perform (.hasScope scope) else pure true

/-- `isSessionActive`. -/
def isSessionActive (h : Handler) : AgentProg Bool :=
  if h.session then perform .isActive else pure true

/-- The body of the three motion handlers. -/
def handleMotion (h : Handler) (validate : Time → Option ValidationError) (call : RobotCall) :
    AgentProg (Except HandlerError Unit) := do
  if ← h.hasScope scopeControl then
    match validate (← perform .now) with
    | some err => do
      h.notifyInvalid
      pure (.error (.validation err))
    | none =>
      match ← perform (.robot call) with
      | .error err => pure (.error (.robot err))
      | .ok () => do
        h.notifyValid
        pure (.ok ())
  else pure (.error .scopeNotAllowed)

/-- `HandleDrive`. -/
def handleDrive (h : Handler) (msg : DriveMessage) : AgentProg (Except HandlerError Unit) :=
  h.handleMotion (fun now => h.validator.validateDrive now msg) (.drive msg.v msg.w)

/-- `HandleKVMKey`. -/
def handleKVMKey (h : Handler) (msg : KVMKeyMessage) : AgentProg (Except HandlerError Unit) :=
  h.handleMotion (fun now => h.validator.validateKVMKey now msg)
    (.sendKey msg.key msg.action msg.modifiers)

/-- `HandleKVMMouse`. -/
def handleKVMMouse (h : Handler) (msg : KVMMouseMessage) : AgentProg (Except HandlerError Unit) :=
  h.handleMotion (fun now => h.validator.validateKVMMouse now msg)
    (.sendMouse msg.dx msg.dy msg.buttons msg.scroll)

/-- `HandleEStop`: the safety subsystem first, then the robot. -/
def handleEStop (h : Handler) (msg : EStopMessage) : AgentProg (Except HandlerError Unit) :=
  match h.validator.validateEStop msg with
  | some err => pure (.error (.validation err))
  | none => do
    if h.safety then perform .onEStop else pure ()
    match ← perform (.robot .eStop) with
    | .error err => pure (.error (.robot err))
    | .ok () => pure (.ok ())

/-- One case of the switch in `HandleMessage`: unmarshal, handle,
acknowledge. -/
def dispatch {M : Type} (h : Handler) (type : MessageType) (msg : Option M) (t : M → Int)
    (handle : M → AgentProg (Except HandlerError Unit)) :
    AgentProg (Except HandlerError (Option AckMessage)) :=
  match msg with
  | none => do
    h.notifyInvalid
    pure (.error .invalidJSON)
  | some m => do
    match ← handle m with
    | .error err => pure (.error err)
    | .ok () => pure (.ok (some ⟨type, t m⟩))

/-- The switch of `HandleMessage`. A ping is a heartbeat and is not
acknowledged. -/
def switch (h : Handler) (decode : Decoder) (data : Bytes) (type : MessageType) :
    AgentProg (Except HandlerError (Option AckMessage)) :=
  match type with
  | .drive => h.dispatch type (decode.drive data) DriveMessage.t h.handleDrive
  | .kvmKey => h.dispatch type (decode.kvmKey data) KVMKeyMessage.t h.handleKVMKey
  | .kvmMouse => h.dispatch type (decode.kvmMouse data) KVMMouseMessage.t h.handleKVMMouse
  | .eStop => h.dispatch type (decode.eStop data) EStopMessage.t h.handleEStop
  | .ping => do
    h.notifyValid
    pure (.ok none)
  | _ => do
    h.notifyInvalid
    pure (.error .unknownType)

/-- `HandleMessage`. -/
def handleMessage (h : Handler) (decode : Decoder) (data : Bytes) :
    AgentProg (Except HandlerError (Option AckMessage)) :=
  match decode.base data with
  | none => do
    h.notifyInvalid
    pure (.error .invalidJSON)
  | some type => do
    if ← h.isSessionActive then h.switch decode data type
    else pure (.error .sessionRevoked)

/-- The call a decoded motion message stands for, if the validator accepts
it. -/
def motionFrom {M : Type} (msg : Option M) (validate : M → Option ValidationError)
    (call : M → RobotCall) : Option RobotCall :=
  match msg with
  | some m => if (validate m).isNone then some (call m) else none
  | none => none

/-- The motion command that a message carries for a validator: what it would
dispatch, were the session to allow it. -/
def motionCommand (h : Handler) (decode : Decoder) (now : Time) (data : Bytes) :
    Option RobotCall :=
  match decode.base data with
  | some .drive =>
    motionFrom (decode.drive data) (h.validator.validateDrive now) fun m => .drive m.v m.w
  | some .kvmKey =>
    motionFrom (decode.kvmKey data) (h.validator.validateKVMKey now) fun m =>
      .sendKey m.key m.action m.modifiers
  | some .kvmMouse =>
    motionFrom (decode.kvmMouse data) (h.validator.validateKVMMouse now) fun m =>
      .sendMouse m.dx m.dy m.buttons m.scroll
  | _ => none

/-- The motion command that handling a message in a state dispatches. -/
def motionOf (h : Handler) (decode : Decoder) (c : Core) (data : Bytes) : Option RobotCall :=
  if c.sessionMgr.isActive && c.sessionMgr.hasScope scopeControl then
    h.motionCommand decode c.now data
  else none

theorem motionFrom_isMotion {M : Type} {msg : Option M} {validate : M → Option ValidationError}
    {call : M → RobotCall} (hcall : ∀ m, (call m).isMotion = true) {c : RobotCall}
    (h : motionFrom msg validate call = some c) : c.isMotion = true := by
  unfold motionFrom at h
  split at h
  · split at h
    · cases h
      exact hcall _
    · cases h
  · cases h

/-- Only motions are dispatched this way: never an `EStop`. -/
theorem motionOf_isMotion {h : Handler} {decode : Decoder} {c : Core} {data : Bytes}
    {call : RobotCall} (hc : h.motionOf decode c data = some call) : call.isMotion = true := by
  unfold motionOf at hc
  split at hc
  · unfold motionCommand at hc
    split at hc
    · exact motionFrom_isMotion (fun _ => rfl) hc
    · exact motionFrom_isMotion (fun _ => rfl) hc
    · exact motionFrom_isMotion (fun _ => rfl) hc
    · cases hc
  · cases hc

/-- Only a session that is active with the control scope moves the robot. -/
theorem motionOf_authorised {h : Handler} {decode : Decoder} {c : Core} {data : Bytes}
    {call : RobotCall} (hc : h.motionOf decode c data = some call) :
    c.sessionMgr.state = .active ∧ c.sessionMgr.hasScope scopeControl = true := by
  unfold motionOf at hc
  split at hc
  next hs => simpa using hs
  · cases hc

end Handler

end ChainKVM.Robot
