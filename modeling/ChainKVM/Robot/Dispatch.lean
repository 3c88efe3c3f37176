import ChainKVM.Robot.Handler

/-!
# What a message makes of the handler

`HandleMessage` as a table: every way a message can go, with the operations it
performs, their answers, and what it returns (`Handled`). `handleMessage_handled`
reads the table off the program, once; `dispatched` says what follows from it
about the robot, the safety callbacks and the acknowledgement, whatever the
bytes, the decoder, the session, the clock and the hardware.
-/

namespace ChainKVM.Robot

/-! ## Messages -/

/-- A message as `HandleMessage` tells them apart. -/
inductive Message where
  | drive (msg : DriveMessage)
  | kvmKey (msg : KVMKeyMessage)
  | kvmMouse (msg : KVMMouseMessage)
  | eStop (msg : EStopMessage)
  | ping
  | unknown (type : MessageType)
  deriving DecidableEq, Repr

/-- The message that bytes decode to as a type. -/
def Decoder.messageAs (decode : Decoder) (data : Bytes) : MessageType → Option Message
  | .drive => (decode.drive data).map .drive
  | .kvmKey => (decode.kvmKey data).map .kvmKey
  | .kvmMouse => (decode.kvmMouse data).map .kvmMouse
  | .eStop => (decode.eStop data).map .eStop
  | .ping => some .ping
  | type => some (.unknown type)

/-- The message that bytes decode to as the type they name. -/
def Decoder.message (decode : Decoder) (data : Bytes) : Option Message :=
  (decode.base data).bind (decode.messageAs data)

namespace Message

/-- The call of the robot that a command stands for. -/
def call : Message → Option RobotCall
  | .drive msg => some (.drive msg.v msg.w)
  | .kvmKey msg => some (.sendKey msg.key msg.action msg.modifiers)
  | .kvmMouse msg => some (.sendMouse msg.dx msg.dy msg.buttons msg.scroll)
  | .eStop _ => some .eStop
  | _ => none

/-- The commands that need the control scope. -/
def isMotion : Message → Bool
  | .drive _ => true
  | .kvmKey _ => true
  | .kvmMouse _ => true
  | _ => false

/-- The validator's answer to a command. -/
def verdict (v : Validator) (now : Time) : Message → Option ValidationError
  | .drive msg => v.validateDrive now msg
  | .kvmKey msg => v.validateKVMKey now msg
  | .kvmMouse msg => v.validateKVMMouse now msg
  | .eStop msg => v.validateEStop msg
  | _ => none

/-- The acknowledgement of a command: its own type and timestamp. -/
def ack : Message → Option AckMessage
  | .drive msg => some ⟨.drive, msg.t⟩
  | .kvmKey msg => some ⟨.kvmKey, msg.t⟩
  | .kvmMouse msg => some ⟨.kvmMouse, msg.t⟩
  | .eStop msg => some ⟨.eStop, msg.t⟩
  | _ => none

end Message

/-! ## The table -/

/-- An operation with its answer. -/
abbrev Entry := (o : AgentOp) × o.Ans

/-- What `HandleMessage` returns. -/
abbrev Reply := Except HandlerError (Option AckMessage)

namespace Handler

/-- A handler with its interfaces set. -/
def full (v : Validator) : Handler := ⟨true, true, true, v⟩

/-- What the robot's answer to an e-stop is returned as. -/
def eStopReply (msg : EStopMessage) : Except String Unit → Reply
  | .ok () => .ok (some ⟨.eStop, msg.t⟩)
  | .error err => .error (.robot err)

/-- The ways a message goes: the operations and what is returned. -/
inductive Handled (ext : External) (v : Validator) (decode : Decoder) (data : Bytes) (a : Agent) :
    List Entry → Reply → Prop where
  | undecodable (hb : decode.base data = none) :
    Handled ext v decode data a [⟨.onInvalidCommand, ()⟩] (.error .invalidJSON)
  | inactive (hb : decode.base data ≠ none) (hactive : a.sessionMgr.isActive = false) :
    Handled ext v decode data a [⟨.isActive, false⟩] (.error .sessionRevoked)
  | misfit (hactive : a.sessionMgr.isActive = true) (hm : decode.message data = none) :
    Handled ext v decode data a [⟨.isActive, true⟩, ⟨.onInvalidCommand, ()⟩] (.error .invalidJSON)
  | unknown {type : MessageType} (hactive : a.sessionMgr.isActive = true)
    (hm : decode.message data = some (.unknown type)) :
    Handled ext v decode data a [⟨.isActive, true⟩, ⟨.onInvalidCommand, ()⟩] (.error .unknownType)
  | ping (hactive : a.sessionMgr.isActive = true) (hm : decode.message data = some .ping) :
    Handled ext v decode data a [⟨.isActive, true⟩, ⟨.onValidControl, ()⟩] (.ok none)
  | noScope {m : Message} (hactive : a.sessionMgr.isActive = true)
    (hm : decode.message data = some m) (hmotion : m.isMotion = true)
    (hscope : a.sessionMgr.hasScope scopeControl = false) :
    Handled ext v decode data a [⟨.isActive, true⟩, ⟨.hasScope scopeControl, false⟩]
      (.error .scopeNotAllowed)
  | rejected {m : Message} {err : ValidationError} (hactive : a.sessionMgr.isActive = true)
    (hm : decode.message data = some m) (hmotion : m.isMotion = true)
    (hscope : a.sessionMgr.hasScope scopeControl = true) (hv : m.verdict v a.now = some err) :
    Handled ext v decode data a
      [⟨.isActive, true⟩, ⟨.hasScope scopeControl, true⟩, ⟨.now, a.now⟩, ⟨.onInvalidCommand, ()⟩]
      (.error (.validation err))
  | refused {m : Message} {call : RobotCall} (err : String)
    (hactive : a.sessionMgr.isActive = true) (hm : decode.message data = some m)
    (hmotion : m.isMotion = true) (hscope : a.sessionMgr.hasScope scopeControl = true)
    (hv : m.verdict v a.now = none) (hcall : m.call = some call) :
    Handled ext v decode data a
      [⟨.isActive, true⟩, ⟨.hasScope scopeControl, true⟩, ⟨.now, a.now⟩,
        ⟨.robot call, .error err⟩] (.error (.robot err))
  | moved {m : Message} {call : RobotCall} (hactive : a.sessionMgr.isActive = true)
    (hm : decode.message data = some m) (hmotion : m.isMotion = true)
    (hscope : a.sessionMgr.hasScope scopeControl = true) (hv : m.verdict v a.now = none)
    (hcall : m.call = some call) :
    Handled ext v decode data a
      [⟨.isActive, true⟩, ⟨.hasScope scopeControl, true⟩, ⟨.now, a.now⟩, ⟨.robot call, .ok ()⟩,
        ⟨.onValidControl, ()⟩] (.ok m.ack)
  | stopped {msg : EStopMessage} (hactive : a.sessionMgr.isActive = true)
    (hm : decode.message data = some (.eStop msg)) (r : Except String Unit) :
    Handled ext v decode data a
      [⟨.isActive, true⟩, ⟨.onEStop, ()⟩, ⟨.robot .eStop, r⟩] (eStopReply msg r)

section

variable {ext : External} {v : Validator} {decode : Decoder} {data : Bytes} {a : Agent}

theorem Handled.of_eq {es es' : List Entry} {reply reply' : Reply}
    (h : Handled ext v decode data a es reply) (hes : es' = es) (hreply : reply' = reply) :
    Handled ext v decode data a es' reply' := by
  rw [hes, hreply]
  exact h

/-- One motion case of the switch. -/
theorem dispatch_handled {M : Type} (type : MessageType) (msg : Option M) (t : M → Int)
    (validate : Time → M → Option ValidationError) (call : M → RobotCall) (wrap : M → Message)
    (hactive : a.sessionMgr.isActive = true) (hm : decode.message data = msg.map wrap)
    (hmotion : ∀ m, (wrap m).isMotion = true)
    (hverdict : ∀ m, (wrap m).verdict v a.now = validate a.now m)
    (hcall : ∀ m, (wrap m).call = some (call m)) (hack : ∀ m, (wrap m).ack = some ⟨type, t m⟩) :
    let p := (full v).dispatch type msg t fun m =>
      (full v).handleMotion (fun now => validate now m) (call m)
    Handled ext v decode data a (⟨.isActive, true⟩ :: p.log (sem ext) a) (p.exec (sem ext) a).1 := by
  cases msg with
  | none => exact .misfit hactive hm
  | some m =>
    rw [Option.map_some] at hm
    dsimp only [dispatch, handleMotion, hasScope, notifyInvalid, notifyValid, full]
    cases hscope : a.sessionMgr.hasScope scopeControl with
    | false =>
      refine (Handled.noScope hactive hm (hmotion m) hscope).of_eq ?_ ?_ <;> simp [sem, hscope]
    | true =>
      cases hv : validate a.now m with
      | some err =>
        refine (Handled.rejected hactive hm (hmotion m) hscope
          ((hverdict m).trans hv)).of_eq ?_ ?_ <;> simp [sem, hscope, hv]
      | none =>
        have hverdict' := (hverdict m).trans hv
        cases hr : ext.robot a.calls (call m) with
        | error err =>
          refine (Handled.refused err hactive hm (hmotion m) hscope hverdict'
            (hcall m)).of_eq ?_ ?_ <;> simp [sem, hscope, hv, Agent.callRobot, hr]
        | ok _ =>
          refine (Handled.moved hactive hm (hmotion m) hscope hverdict' (hcall m)).of_eq ?_ ?_
          · simp [sem, hscope, hv, Agent.callRobot, hr]
          · simp [sem, hscope, hv, Agent.callRobot, hr, hack]

/-- Every message goes one of the ways. -/
theorem handleMessage_handled (ext : External) (v : Validator) (decode : Decoder) (data : Bytes)
    (a : Agent) :
    Handled ext v decode data a (((full v).handleMessage decode data).log (sem ext) a)
      (((full v).handleMessage decode data).exec (sem ext) a).1 := by
  cases hb : decode.base data with
  | none =>
    refine (Handled.undecodable hb).of_eq ?_ ?_ <;> simp [handleMessage, hb, notifyInvalid, full, sem]
  | some type =>
    cases hactive : a.sessionMgr.isActive with
    | false =>
      refine (Handled.inactive (by simp [hb]) hactive).of_eq ?_ ?_ <;>
        simp [handleMessage, hb, isSessionActive, full, sem, hactive]
    | true =>
      have hlog : ((full v).handleMessage decode data).log (sem ext) a =
          ⟨.isActive, true⟩ :: ((full v).switch decode data type).log (sem ext) a := by
        simp [handleMessage, hb, isSessionActive, full, sem, hactive]
      have hexec : ((full v).handleMessage decode data).exec (sem ext) a =
          ((full v).switch decode data type).exec (sem ext) a := by
        simp [handleMessage, hb, isSessionActive, full, sem, hactive]
      rw [hlog, hexec]
      have hmessage : decode.message data = decode.messageAs data type := by
        unfold Decoder.message
        rw [hb]
        rfl
      cases type with
      | drive =>
        exact dispatch_handled .drive (decode.drive data) DriveMessage.t
          (fun now m => v.validateDrive now m) _ .drive hactive hmessage (fun _ => rfl)
          (fun _ => rfl) (fun _ => rfl) (fun _ => rfl)
      | kvmKey =>
        exact dispatch_handled .kvmKey (decode.kvmKey data) KVMKeyMessage.t
          (fun now m => v.validateKVMKey now m) _ .kvmKey hactive hmessage (fun _ => rfl)
          (fun _ => rfl) (fun _ => rfl) (fun _ => rfl)
      | kvmMouse =>
        exact dispatch_handled .kvmMouse (decode.kvmMouse data) KVMMouseMessage.t
          (fun now m => v.validateKVMMouse now m) _ .kvmMouse hactive hmessage (fun _ => rfl)
          (fun _ => rfl) (fun _ => rfl) (fun _ => rfl)
      | eStop =>
        cases hd : decode.eStop data with
        | none =>
          have hnone : decode.message data = none := by simp [hmessage, Decoder.messageAs, hd]
          refine (Handled.misfit hactive hnone).of_eq ?_ ?_ <;>
            simp [switch, hd, dispatch, notifyInvalid, full, sem]
        | some msg =>
          have hsome : decode.message data = some (.eStop msg) := by
            simp [hmessage, Decoder.messageAs, hd]
          have hdispatch : (full v).switch decode data .eStop =
              (full v).dispatch .eStop (some msg) EStopMessage.t (full v).handleEStop := by
            rw [← hd]
            rfl
          rw [hdispatch]
          -- the stop inside the monitor comes before the handler's own
          cases hr : ext.robot (a.onMonitor (Monitor.onEStop (some (Agent.onSafeStop ext)))).calls
              .eStop with
          | error err =>
            refine (Handled.stopped hactive hsome (.error err)).of_eq ?_ ?_ <;>
              simp [dispatch, handleEStop, Validator.validateEStop, full, sem, Agent.callRobot, hr,
                eStopReply]
          | ok _ =>
            refine (Handled.stopped hactive hsome (.ok ())).of_eq ?_ ?_ <;>
              simp [dispatch, handleEStop, Validator.validateEStop, full, sem, Agent.callRobot, hr,
                eStopReply]
      | ping => exact .ping hactive hmessage
      | _ => exact .unknown hactive hmessage

end

end Handler

/-! ## What follows -/

/-- The calls of the robot among the operations, with their results. -/
def robotCalls (es : List Entry) : List (RobotCall × Except String Unit) :=
  es.filterMap fun e =>
    match e with
    | ⟨.robot call, r⟩ => some (call, r)
    | _ => none

/-- The methods of `SafetyCallback`. -/
inductive SafetyCall where
  | onValidControl
  | onInvalidCommand
  | onEStop
  deriving DecidableEq, Repr

/-- The safety callbacks among the operations. -/
def callbacks (es : List Entry) : List SafetyCall :=
  es.filterMap fun e =>
    match e.1 with
    | .onValidControl => some .onValidControl
    | .onInvalidCommand => some .onInvalidCommand
    | .onEStop => some .onEStop
    | _ => none

/-- What a validator lets a session send: a command of an active session, with
the control scope if it is a motion, that the validator accepts. -/
structure Admitted (v : Validator) (c : Core) (m : Message) : Prop where
  active : c.sessionMgr.isActive = true
  scope : m.isMotion = true → c.sessionMgr.hasScope scopeControl = true
  accepted : m.verdict v c.now = none

/-- A message of the session that counts as an invalid command: it does not
decode, is of an unknown type, or is refused by the validator after the scope
check. -/
def Invalid (v : Validator) (c : Core) (decoded : Option Message) : Prop :=
  decoded = none ∨ (∃ type, decoded = some (.unknown type)) ∨
    ∃ m, decoded = some m ∧ m.isMotion = true ∧ c.sessionMgr.hasScope scopeControl = true ∧
      m.verdict v c.now ≠ none

/-- A message that shows the operator in control: a ping, or a motion that the
robot carries out. -/
def Valid (decoded : Option Message) (es : List Entry) : Prop :=
  decoded = some .ping ∨ ∃ call, call.isMotion = true ∧ (call, .ok ()) ∈ robotCalls es

/-- The safety subsystem is told what happened, once, and nothing else. -/
structure Notified (v : Validator) (c : Core) (decoded : Option Message) (es : List Entry) :
    Prop where
  valid : Valid decoded es → callbacks es = [.onValidControl]
  invalid : Invalid v c decoded → callbacks es = [.onInvalidCommand]
  stop : (∃ msg, decoded = some (.eStop msg)) → callbacks es = [.onEStop]
  silent : ¬ Valid decoded es → ¬ Invalid v c decoded → (¬ ∃ msg, decoded = some (.eStop msg)) →
    callbacks es = []

/-- What `HandleMessage` does with a message: the operations and the reply, for
what the bytes decode to. -/
structure Dispatched (v : Validator) (c : Core) (decoded : Option Message) (es : List Entry)
    (reply : Reply) : Prop where
  once : (robotCalls es).length ≤ 1
  called : ∀ call, (∃ r, (call, r) ∈ robotCalls es) ↔
    ∃ m, decoded = some m ∧ m.call = some call ∧ Admitted v c m
  bounded : ∀ vel w r, (RobotCall.drive vel w, r) ∈ robotCalls es →
    (-1 ≤ vel ∧ vel ≤ 1) ∧ (-1 ≤ w ∧ w ≤ 1)
  notified : c.sessionMgr.isActive = true → Notified v c decoded es
  inactive : c.sessionMgr.isActive = false →
    SafetyCall.onValidControl ∉ callbacks es ∧ SafetyCall.onEStop ∉ callbacks es
  acked : ∀ ack, reply = .ok (some ack) ↔
    (∃ call, (call, .ok ()) ∈ robotCalls es) ∧ ∃ m, decoded = some m ∧ m.ack = some ack

section

variable {v : Validator} {c : Core} {decoded : Option Message} {es : List Entry} {m : Message}

theorem called_of_none (hes : robotCalls es = [])
    (hno : ∀ m call, decoded = some m → m.call = some call → ¬ Admitted v c m) (call : RobotCall) :
    (∃ r, (call, r) ∈ robotCalls es) ↔
      ∃ m, decoded = some m ∧ m.call = some call ∧ Admitted v c m := by
  rw [hes]
  constructor
  · rintro ⟨r, h⟩
    cases h
  · rintro ⟨m, hm, hcall, hadmitted⟩
    exact absurd hadmitted (hno m call hm hcall)

theorem called_of_one {call' : RobotCall} {r : Except String Unit}
    (hes : robotCalls es = [(call', r)]) (hm : decoded = some m) (hcall : m.call = some call')
    (hadmitted : Admitted v c m) (call : RobotCall) :
    (∃ r, (call, r) ∈ robotCalls es) ↔
      ∃ m, decoded = some m ∧ m.call = some call ∧ Admitted v c m := by
  rw [hes]
  constructor
  · rintro ⟨r', h⟩
    cases List.mem_singleton.mp h
    exact ⟨m, hm, hcall, hadmitted⟩
  · rintro ⟨m', hm', hcall', -⟩
    rw [hm] at hm'
    cases hm'
    rw [hcall] at hcall'
    cases hcall'
    exact ⟨r, List.mem_singleton_self _⟩

/-- A motion has a call, which moves the robot, and an acknowledgement. -/
theorem Message.motion_call (hmotion : m.isMotion = true) {call : RobotCall}
    (hcall : m.call = some call) : call.isMotion = true ∧ m.ack.isSome = true := by
  cases m <;> cases hcall <;> first | exact ⟨rfl, rfl⟩ | cases hmotion

/-- A drive that the validator accepts is in range. -/
theorem Message.drive_bounds {now : Time} {vel w : Rat} (hcall : m.call = some (.drive vel w))
    (hverdict : m.verdict v now = none) : (-1 ≤ vel ∧ vel ≤ 1) ∧ (-1 ≤ w ∧ w ≤ 1) := by
  cases m with
  | drive msg =>
    cases hcall
    change v.validateDrive now msg = none at hverdict
    unfold Validator.validateDrive at hverdict
    split at hverdict
    · cases hverdict
    · split at hverdict
      · cases hverdict
      next hv =>
        split at hverdict
        · cases hverdict
        next hw =>
          rw [not_or, Rat.not_lt, Rat.not_lt] at hv hw
          exact ⟨hv, hw⟩
  | _ => cases hcall

theorem Notified.of_valid (hes : callbacks es = [.onValidControl]) (hvalid : Valid decoded es)
    (hinvalid : ¬ Invalid v c decoded) (hstop : ∀ msg, decoded ≠ some (.eStop msg)) :
    Notified v c decoded es where
  valid _ := hes
  invalid h := absurd h hinvalid
  stop := fun ⟨msg, h⟩ => absurd h (hstop msg)
  silent h _ _ := absurd hvalid h

theorem Notified.of_invalid (hes : callbacks es = [.onInvalidCommand]) (hcalls : robotCalls es = [])
    (hinvalid : Invalid v c decoded) (hother : decoded ≠ some .ping ∧
      ∀ msg, decoded ≠ some (.eStop msg)) : Notified v c decoded es where
  valid := by
    rintro (h | ⟨call, -, h⟩)
    · exact absurd h hother.1
    · rw [hcalls] at h
      cases h
  invalid _ := hes
  stop := fun ⟨msg, h⟩ => absurd h (hother.2 msg)
  silent _ h _ := absurd hinvalid h

theorem Notified.of_silent (hes : callbacks es = []) (hvalid : ¬ Valid decoded es)
    (hinvalid : ¬ Invalid v c decoded) (hstop : ∀ msg, decoded ≠ some (.eStop msg)) :
    Notified v c decoded es where
  valid h := absurd h hvalid
  invalid h := absurd h hinvalid
  stop := fun ⟨msg, h⟩ => absurd h (hstop msg)
  silent _ _ _ := hes

theorem motion_ne (hm : decoded = some m) (hmotion : m.isMotion = true) :
    decoded ≠ some .ping ∧ ∀ msg, decoded ≠ some (.eStop msg) := by
  constructor
  · intro h
    rw [hm] at h
    cases h
    cases hmotion
  · intro msg h
    rw [hm] at h
    cases h
    cases hmotion

/-- A motion that the validator accepts, or that the scope keeps out, is not
invalid. -/
theorem not_invalid_of_motion (hm : decoded = some m) (hmotion : m.isMotion = true)
    (h : c.sessionMgr.hasScope scopeControl = true → m.verdict v c.now = none) :
    ¬ Invalid v c decoded := by
  rintro (hnone | ⟨type, hunknown⟩ | ⟨m', hm', -, hscope, hverdict⟩)
  · rw [hm] at hnone
    cases hnone
  · rw [hm] at hunknown
    cases hunknown
    cases hmotion
  · rw [hm] at hm'
    cases hm'
    exact hverdict (h hscope)

end

namespace Handler

variable {ext : External} {v : Validator} {decode : Decoder} {data : Bytes} {a : Agent}
  {es : List Entry} {reply : Reply}

theorem Handled.once (h : Handled ext v decode data a es reply) : (robotCalls es).length ≤ 1 := by
  cases h <;> exact Nat.le_of_ble_eq_true rfl

theorem Handled.called (h : Handled ext v decode data a es reply) (call : RobotCall) :
    (∃ r, (call, r) ∈ robotCalls es) ↔
      ∃ m, decode.message data = some m ∧ m.call = some call ∧ Admitted v a.toCore m := by
  cases h with
  | undecodable hb =>
    refine called_of_none rfl (fun m call hm _ _ => ?_) call
    simp [Decoder.message, hb] at hm
  | inactive hb hactive =>
    refine called_of_none rfl (fun m call _ _ hadmitted => ?_) call
    have hactive' := hadmitted.active
    rw [hactive] at hactive'
    cases hactive'
  | misfit hactive hnone =>
    refine called_of_none rfl (fun m call hm _ _ => ?_) call
    rw [hnone] at hm
    cases hm
  | unknown hactive hunknown =>
    refine called_of_none rfl (fun m call hm hcall _ => ?_) call
    rw [hunknown] at hm
    cases hm
    cases hcall
  | ping hactive hping =>
    refine called_of_none rfl (fun m call hm hcall _ => ?_) call
    rw [hping] at hm
    cases hm
    cases hcall
  | noScope hactive hm hmotion hscope =>
    refine called_of_none rfl (fun m call hm' _ hadmitted => ?_) call
    rw [hm] at hm'
    cases hm'
    have hscope' := hadmitted.scope hmotion
    rw [hscope] at hscope'
    cases hscope'
  | rejected hactive hm hmotion hscope hv =>
    refine called_of_none rfl (fun m call hm' _ hadmitted => ?_) call
    rw [hm] at hm'
    cases hm'
    have hv' := hadmitted.accepted
    rw [hv] at hv'
    cases hv'
  | refused err hactive hm hmotion hscope hv hcall =>
    exact called_of_one rfl hm hcall ⟨hactive, fun _ => hscope, hv⟩ call
  | moved hactive hm hmotion hscope hv hcall =>
    exact called_of_one rfl hm hcall ⟨hactive, fun _ => hscope, hv⟩ call
  | stopped hactive hm r =>
    exact called_of_one rfl hm rfl ⟨hactive, fun h => (by cases h), rfl⟩ call

theorem Handled.notified (h : Handled ext v decode data a es reply)
    (hactive : a.sessionMgr.isActive = true) :
    Notified v a.toCore (decode.message data) es := by
  cases h with
  | undecodable hb =>
    have hm : decode.message data = none := by simp [Decoder.message, hb]
    rw [hm]
    exact .of_invalid rfl rfl (.inl rfl) (by simp)
  | inactive hb hinactive =>
    rw [hinactive] at hactive
    cases hactive
  | misfit _ hm =>
    rw [hm]
    exact .of_invalid rfl rfl (.inl rfl) (by simp)
  | unknown _ hm =>
    rw [hm]
    exact .of_invalid rfl rfl (.inr (.inl ⟨_, rfl⟩)) (by simp)
  | ping _ hm =>
    rw [hm]
    exact .of_valid rfl (.inl rfl) (by simp [Invalid, Message.isMotion]) (by simp)
  | noScope _ hm hmotion hscope =>
    have hne := motion_ne hm hmotion
    refine .of_silent rfl ?_ (not_invalid_of_motion hm hmotion fun h => ?_) hne.2
    · rintro (h | ⟨call, -, h⟩)
      · exact hne.1 h
      · cases h
    · rw [show a.toCore.sessionMgr.hasScope scopeControl = false from hscope] at h
      cases h
  | rejected _ hm hmotion hscope hv =>
    exact .of_invalid rfl rfl (.inr (.inr ⟨_, hm, hmotion, hscope, by simp [hv]⟩))
      (motion_ne hm hmotion)
  | refused err _ hm hmotion hscope hv hcall =>
    have hne := motion_ne hm hmotion
    refine .of_silent rfl ?_ (not_invalid_of_motion hm hmotion fun _ => hv) hne.2
    -- the one call there is has failed
    rintro (h | ⟨call, -, h⟩)
    · exact hne.1 h
    · cases List.mem_singleton.mp h
  | moved _ hm hmotion hscope hv hcall =>
    exact .of_valid rfl
      (.inr ⟨_, (Message.motion_call hmotion hcall).1, List.mem_singleton_self _⟩)
      (not_invalid_of_motion hm hmotion fun _ => hv) (motion_ne hm hmotion).2
  | stopped _ hm r =>
    rw [hm]
    refine ⟨?_, ?_, fun _ => rfl, fun _ _ h => absurd ⟨_, rfl⟩ h⟩
    · rintro (h | ⟨call, hmotion, h⟩)
      · cases h
      · cases List.mem_singleton.mp h
        cases hmotion
    · rintro (h | ⟨type, h⟩ | ⟨m, h, hmotion, -⟩)
      · cases h
      · cases h
      · cases h
        cases hmotion

theorem Handled.acked (h : Handled ext v decode data a es reply) (ack : AckMessage) :
    reply = .ok (some ack) ↔
      (∃ call, (call, .ok ()) ∈ robotCalls es) ∧
        ∃ m, decode.message data = some m ∧ m.ack = some ack := by
  have hnone (hes : robotCalls es = []) (hreply : reply ≠ .ok (some ack)) :
      reply = .ok (some ack) ↔ (∃ call, (call, .ok ()) ∈ robotCalls es) ∧
        ∃ m, decode.message data = some m ∧ m.ack = some ack := by
    refine iff_of_false hreply ?_
    rintro ⟨⟨call, hcall⟩, -⟩
    rw [hes] at hcall
    cases hcall
  -- the call went through, so the acknowledgement is that of the message
  have hdone {m : Message} {call : RobotCall} (hm : decode.message data = some m)
      (hcall : (call, .ok ()) ∈ robotCalls es) :
      m.ack = some ack ↔ (∃ call, (call, .ok ()) ∈ robotCalls es) ∧
        ∃ m, decode.message data = some m ∧ m.ack = some ack := by
    constructor
    · exact fun h => ⟨⟨call, hcall⟩, m, hm, h⟩
    · rintro ⟨-, m', hm', hack⟩
      rw [hm] at hm'
      cases hm'
      exact hack
  cases h with
  | refused err _ hm hmotion hscope hv hcall =>
    refine iff_of_false (by simp) ?_
    rintro ⟨⟨call, h⟩, -⟩
    cases List.mem_singleton.mp h
  | moved _ hm hmotion hscope hv hcall =>
    rw [Except.ok.injEq]
    exact hdone hm (List.mem_singleton_self _)
  | stopped _ hm r =>
    cases r with
    | error err =>
      refine iff_of_false (by simp [eStopReply]) ?_
      rintro ⟨⟨call, h⟩, -⟩
      cases List.mem_singleton.mp h
    | ok _ =>
      show Except.ok _ = Except.ok _ ↔ _
      rw [Except.ok.injEq]
      exact hdone hm (List.mem_singleton_self _)
  | _ => exact hnone rfl (by simp)

/-- Without an active session nothing counts as control, and nothing stops the
monitor by an e-stop. -/
theorem Handled.inactive_callbacks (h : Handled ext v decode data a es reply)
    (hactive : a.sessionMgr.isActive = false) :
    SafetyCall.onValidControl ∉ callbacks es ∧ SafetyCall.onEStop ∉ callbacks es := by
  have hcontra (h : a.sessionMgr.isActive = true) : False := by
    rw [hactive] at h
    cases h
  cases h with
  | undecodable hb => exact ⟨by simp [callbacks], by simp [callbacks]⟩
  | inactive hb _ => exact ⟨by simp [callbacks], by simp [callbacks]⟩
  | misfit h _ => exact (hcontra h).elim
  | unknown h _ => exact (hcontra h).elim
  | ping h _ => exact (hcontra h).elim
  | noScope h _ _ _ => exact (hcontra h).elim
  | rejected h _ _ _ _ => exact (hcontra h).elim
  | refused _ h _ _ _ _ _ => exact (hcontra h).elim
  | moved h _ _ _ _ _ => exact (hcontra h).elim
  | stopped h _ _ => exact (hcontra h).elim

end Handler

/-- Whatever the bytes, the decoder, the validator, the session, the clock and
the hardware: this is what handling a message does. -/
theorem dispatched (ext : External) (v : Validator) (decode : Decoder) (data : Bytes) (a : Agent) :
    Dispatched v a.toCore (decode.message data)
      (((Handler.full v).handleMessage decode data).log (sem ext) a)
      (((Handler.full v).handleMessage decode data).exec (sem ext) a).1 := by
  have h := Handler.handleMessage_handled ext v decode data a
  refine ⟨h.once, h.called, fun vel w r hcall => ?_, h.notified, h.inactive_callbacks, h.acked⟩
  obtain ⟨m, -, hm, hadmitted⟩ := (h.called _).mp ⟨r, hcall⟩
  exact Message.drive_bounds hm hadmitted.accepted

end ChainKVM.Robot
