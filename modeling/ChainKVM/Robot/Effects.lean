import ChainKVM.Robot.Tasks

/-!
# What an event does to the core

The agent's safety depends on its core only, and so it is the core's machine
that the invariants are about. `CoreStep ext c e c'` says what event `e` can
do to core `c`: one constructor for each way a handler can go, with the
checks that lead there. `step_core` is the link to the programs: every step
of the agent is such a step of its core.

The monitor's operations come first, as relations of their own (`Latch`,
`Count`, `Check`), since the concurrent proofs use them directly; then the
six ways a message can go (`MessageEffect`).
-/

namespace ChainKVM.Robot

/-! ## The monitor's operations -/

namespace Core

/-- A trigger that ends the chance to recover (`OnEStop`, `OnTokenExpired`,
`OnRevoked`): swallowed if the monitor is stopped, else one `EStop`. -/
inductive Latch (c : Core) : Core → Prop where
  | swallowed (h : c.safety.stopped = true) :
    Latch c { c with safety := { c.safety with inControlLoss := false } }
  | stop (h : c.safety.stopped = false) (r : TransitionResult) :
    Latch c { c with
      safety := { c.safety with inControlLoss := false, stopped := true, lastTransition := some r }
      calls := .eStop :: c.calls }

/-- `OnInvalidCommand`: counts, and stops a running robot at the
threshold. -/
inductive Count (c : Core) : Core → Prop where
  | counted (h : c.safety.stopped = true ∨
      (c.safety.countInvalid c.now).invalidCmdCount < c.safety.invalidCmdThreshold) :
    Count c { c with safety := c.safety.countInvalid c.now }
  | stop (h : c.safety.stopped = false) (r : TransitionResult) :
    Count c { c with
      safety := { c.safety.countInvalid c.now with stopped := true, lastTransition := some r }
      calls := .eStop :: c.calls }

/-- `CheckControlLoss`: stops a running robot whose last valid control is too
long ago. -/
inductive Check (c : Core) : Core → Prop where
  | fine (h : c.safety.stopped = true ∨
      sub c.now c.safety.lastControlTime ≤ c.safety.controlLossTimeout) : Check c c
  | stop (h : c.safety.stopped = false) (r : TransitionResult) :
    Check c { c with
      safety := { c.safety with inControlLoss := true, stopped := true, lastTransition := some r }
      calls := .eStop :: c.calls }

end Core

namespace Agent

@[simp] theorem sendData_core (msg : Outgoing) (a : Agent) : (a.sendData msg).toCore = a.toCore := by
  unfold sendData
  split <;> rfl

@[simp] theorem publishAuditEvent_core (t : Trigger) (a : Agent) :
    (a.publishAuditEvent t).toCore = a.toCore := by
  unfold publishAuditEvent
  split <;> rfl

/-- The safe-stop callback calls `EStop` once and changes nothing else of the
core. -/
theorem onSafeStop_core (ext : External) (t : Trigger) (a : Agent) :
    (onSafeStop ext t a).2.toCore = { a.toCore with calls := .eStop :: a.calls } := by
  have hhalt : (a.executeHardwareStop ext).2.toCore =
      { a.toCore with calls := .eStop :: a.calls } := by
    unfold executeHardwareStop callRobot
    cases ext.robot a.calls .eStop <;> rfl
  simp only [onSafeStop, sendStateNotification, sendData_core, publishAuditEvent_core, hhalt]

/-- A method of the monitor that ends in a trigger, with the monitor about to
stop as `m`. -/
theorem onMonitor_trigger {ext : External} {t : Trigger} {m : Monitor} {a : Agent}
    {f : Monitor → Agent → Monitor × Agent}
    (hf : f a.safety a = m.triggerSafeStop (some (onSafeStop ext)) t a) :
    (m.stopped = true ∧ (a.onMonitor f).toCore = { a.toCore with safety := m }) ∨
    (m.stopped = false ∧ ∃ r, (a.onMonitor f).toCore =
      { a.toCore with
        safety := { m with stopped := true, lastTransition := some r }
        calls := .eStop :: a.calls }) := by
  rcases m.triggerSafeStop_cases (onSafeStop ext) t a with ⟨hst, h⟩ | ⟨hst, h⟩
  · refine Or.inl ⟨hst, ?_⟩
    simp only [onMonitor, hf, h]
  · refine Or.inr ⟨hst, (onSafeStop ext t a).1, ?_⟩
    simp only [onMonitor, hf, h, onSafeStop_core]

theorem nonRecoverable_latch (ext : External) (t : Trigger) (a : Agent) :
    a.toCore.Latch
      (a.onMonitor (Monitor.onNonRecoverable (some (onSafeStop ext)) t)).toCore := by
  have hf : Monitor.onNonRecoverable (some (onSafeStop ext)) t a.safety a =
      Monitor.triggerSafeStop (some (onSafeStop ext)) t
        { a.safety with inControlLoss := false } a := rfl
  rcases onMonitor_trigger hf with ⟨hst, h⟩ | ⟨hst, r, h⟩
  · rw [h]
    exact .swallowed hst
  · rw [h]
    exact .stop hst r

theorem invalidCommand_count (ext : External) (a : Agent) :
    a.toCore.Count
      (a.onMonitor (Monitor.onInvalidCommand (some (onSafeStop ext)) a.now)).toCore := by
  by_cases hle : (a.safety.countInvalid a.now).invalidCmdThreshold ≤
      (a.safety.countInvalid a.now).invalidCmdCount
  · have hf : Monitor.onInvalidCommand (some (onSafeStop ext)) a.now a.safety a =
        (a.safety.countInvalid a.now).triggerSafeStop (some (onSafeStop ext)) .invalidCmds a := by
      simp only [Monitor.onInvalidCommand, if_pos hle]
    rcases onMonitor_trigger hf with ⟨hst, h⟩ | ⟨hst, r, h⟩
    · rw [h]
      rw [Monitor.countInvalid_stopped] at hst
      exact .counted (Or.inl hst)
    · rw [h]
      rw [Monitor.countInvalid_stopped] at hst
      exact .stop hst r
  · have h : (a.onMonitor (Monitor.onInvalidCommand (some (onSafeStop ext)) a.now)).toCore =
        { a.toCore with safety := a.safety.countInvalid a.now } := by
      simp only [onMonitor, Monitor.onInvalidCommand, if_neg hle]
    rw [h]
    rw [Monitor.countInvalid_invalidCmdThreshold] at hle
    exact .counted (Or.inr (Int.not_le.mp hle))

theorem checkControlLoss_check (ext : External) (a : Agent) :
    a.toCore.Check
      (a.onMonitor (Monitor.checkControlLoss (some (onSafeStop ext)) a.now)).toCore := by
  by_cases hrun : a.safety.stopped = false ∧
      a.safety.controlLossTimeout < sub a.now a.safety.lastControlTime
  · obtain ⟨hst, hlt⟩ := hrun
    have hf : Monitor.checkControlLoss (some (onSafeStop ext)) a.now a.safety a =
        Monitor.triggerSafeStop (some (onSafeStop ext)) .controlLoss
          { a.safety with inControlLoss := true } a := by
      simp [Monitor.checkControlLoss, hst, hlt]
    rcases onMonitor_trigger hf with ⟨hst', -⟩ | ⟨-, r, h⟩
    · exact absurd (hst.symm.trans hst') (by simp)
    · rw [h]
      exact .stop hst r
  · have hfine : a.safety.stopped = true ∨
        sub a.now a.safety.lastControlTime ≤ a.safety.controlLossTimeout := by
      cases hst : a.safety.stopped with
      | true => exact Or.inl rfl
      | false => exact Or.inr (Int.not_lt.mp fun hlt => hrun ⟨hst, hlt⟩)
    have h : (a.onMonitor (Monitor.checkControlLoss (some (onSafeStop ext)) a.now)).toCore =
        a.toCore := by
      rcases hfine with hst | hle
      · simp [onMonitor, Monitor.checkControlLoss, hst]
      · simp [onMonitor, Monitor.checkControlLoss, Int.not_lt.mpr hle]
    rw [h]
    exact .fine hfine

end Agent

/-! ## Messages -/

/-- The six ways a message goes. The flag says whether the handler accepted
it as a command or a heartbeat; `motionOf` says which motion, if any, it puts
on the robot. -/
inductive MessageEffect (ext : External) (c : Core) (data : Bytes) : Bool → Core → Prop where
  /-- A pong, an inactive session or a missing scope. -/
  | ignored (hm : Handler.wired.motionOf ext.decode c data = none) :
    MessageEffect ext c data false c
  /-- Not decodable, of unknown type or refused by the validator. -/
  | invalid {c' : Core} (hm : Handler.wired.motionOf ext.decode c data = none) (h : c.Count c') :
    MessageEffect ext c data false c'
  /-- A motion the robot carries out. -/
  | moved {call : RobotCall} (hm : Handler.wired.motionOf ext.decode c data = some call)
    (hok : ext.robot c.calls call = .ok ()) :
    MessageEffect ext c data true
      { c with calls := call :: c.calls, safety := c.safety.onValidControl c.now }
  /-- A motion the robot answers with an error. -/
  | refused {call : RobotCall} {err : String}
    (hm : Handler.wired.motionOf ext.decode c data = some call)
    (herr : ext.robot c.calls call = .error err) :
    MessageEffect ext c data false { c with calls := call :: c.calls }
  /-- An e-stop: the monitor's stop, then the handler's own. -/
  | eStop {c' : Core} (hm : Handler.wired.motionOf ext.decode c data = none) (h : c.Latch c') :
    MessageEffect ext c data false { c' with calls := .eStop :: c'.calls }
  /-- A ping of an active session. -/
  | heartbeat (hm : Handler.wired.motionOf ext.decode c data = none)
    (hactive : c.sessionMgr.state = .active) :
    MessageEffect ext c data true { c with safety := c.safety.onValidControl c.now }

/-! Neither the monitor's operations nor messages touch the session or the
transport. -/

theorem Core.Latch.frame {c c' : Core} (h : c.Latch c') :
    c'.sessionMgr = c.sessionMgr ∧ c'.transport = c.transport := by
  cases h <;> exact ⟨rfl, rfl⟩

theorem Core.Count.frame {c c' : Core} (h : c.Count c') :
    c'.sessionMgr = c.sessionMgr ∧ c'.transport = c.transport := by
  cases h <;> exact ⟨rfl, rfl⟩

theorem Core.Check.frame {c c' : Core} (h : c.Check c') :
    c'.sessionMgr = c.sessionMgr ∧ c'.transport = c.transport := by
  cases h <;> exact ⟨rfl, rfl⟩

theorem MessageEffect.frame {ext : External} {c c' : Core} {data : Bytes} {acc : Bool}
    (h : MessageEffect ext c data acc c') :
    c'.sessionMgr = c.sessionMgr ∧ c'.transport = c.transport := by
  cases h with
  | invalid _ hc => exact hc.frame
  | eStop _ hl => exact hl.frame
  | _ => exact ⟨rfl, rfl⟩

/-- Was a message accepted as a command or a heartbeat: did the handler answer
without an error, to anything but an e-stop? -/
def accepts (ext : External) (a : Agent) (data : Bytes) : Bool :=
  ((Handler.wired.handleMessage ext.decode data).exec (sem ext) a).1.isOk &&
    decide (ext.decode.base data ≠ some .eStop)

namespace Handler

theorem motionOf_of_inactive {decode : Decoder} {c : Core} {data : Bytes}
    (h : c.sessionMgr.isActive = false) : wired.motionOf decode c data = none := by
  simp [motionOf, h]

theorem motionOf_of_command {decode : Decoder} {c : Core} {data : Bytes}
    (h : wired.motionCommand decode c.now data = none) : wired.motionOf decode c data = none := by
  unfold motionOf
  split
  · exact h
  · rfl

/-- A motion handler: nothing without the scope, a counted error if the
validator refuses, else the call, and a valid control if it succeeds. -/
theorem handleMotion_exec (ext : External) (validate : Time → Option ValidationError)
    (call : RobotCall) (a : Agent) :
    (wired.handleMotion validate call).exec (sem ext) a =
      if a.sessionMgr.hasScope scopeControl then
        match validate a.now with
        | some err => (.error (.validation err), (sem ext .onInvalidCommand a).2)
        | none =>
          match ext.robot a.calls call with
          | .error err => (.error (.robot err), { a with calls := call :: a.calls })
          | .ok () =>
            (.ok (), { a with calls := call :: a.calls, safety := a.safety.onValidControl a.now })
      else (.error .scopeNotAllowed, a) := by
  simp only [handleMotion, hasScope, notifyInvalid, notifyValid, wired, if_true,
    Prog.perform_bind, Prog.exec_op]
  by_cases hs : a.sessionMgr.hasScope scopeControl = true
  · simp only [sem, hs, if_true, Prog.exec_op]
    cases hv : validate a.now with
    | some err => simp [sem]
    | none =>
      simp only [Prog.exec_op, sem, Agent.callRobot]
      cases ext.robot a.calls call <;> simp [sem]
  · simp [sem, hs]

/-- One motion case of the switch. -/
private theorem dispatch_effect {M : Type} (ext : External) (data : Bytes) {a : Agent}
    (type : MessageType) (msg : Option M) (t : M → Int)
    (validate : Time → M → Option ValidationError) (call : M → RobotCall)
    (hactive : a.sessionMgr.isActive = true)
    (hcmd : wired.motionCommand ext.decode a.now data = motionFrom msg (validate a.now) call) :
    MessageEffect ext a.toCore data
      ((wired.dispatch type msg t fun m =>
        wired.handleMotion (fun now => validate now m) (call m)).exec (sem ext) a).1.isOk
      ((wired.dispatch type msg t fun m =>
        wired.handleMotion (fun now => validate now m) (call m)).exec (sem ext) a).2.toCore := by
  cases msg with
  | none =>
    have hm : wired.motionOf ext.decode a.toCore data = none := motionOf_of_command hcmd
    simp only [dispatch, notifyInvalid, wired, if_true, Prog.perform_bind, Prog.exec_op]
    exact .invalid hm (a.invalidCommand_count ext)
  | some m =>
    simp only [dispatch, Prog.exec_bind, handleMotion_exec]
    by_cases hs : a.sessionMgr.hasScope scopeControl = true
    · have hm : wired.motionOf ext.decode a.toCore data =
          if (validate a.now m).isNone then some (call m) else none := by
        rw [motionOf, hactive, hs]
        exact hcmd
      rw [if_pos hs]
      cases hv : validate a.now m with
      | some err =>
        rw [hv] at hm
        exact .invalid hm (a.invalidCommand_count ext)
      | none =>
        rw [hv] at hm
        cases hr : ext.robot a.calls (call m) with
        | error err => exact .refused hm hr
        | ok _ => exact .moved hm hr
    · have hm : wired.motionOf ext.decode a.toCore data = none := by
        rw [motionOf, hactive, Bool.eq_false_iff.mpr hs]
        rfl
      rw [if_neg hs]
      exact .ignored hm

/-- Running `HandleMessage` on a decodable message. -/
private theorem handleMessage_active {ext : External} {data : Bytes} {a : Agent}
    {type : MessageType} (hb : ext.decode.base data = some type)
    (hactive : a.sessionMgr.isActive = true) :
    (wired.handleMessage ext.decode data).exec (sem ext) a =
      (wired.switch ext.decode data type).exec (sem ext) a := by
  have hs : wired.isSessionActive = perform .isActive := rfl
  have hr : sem ext .isActive a = (true, a) := by rw [← hactive]; rfl
  simp only [handleMessage, hb, hs, Prog.perform_bind, Prog.exec_op, hr, if_true]

private theorem handleMessage_inactive {ext : External} {data : Bytes} {a : Agent}
    {type : MessageType} (hb : ext.decode.base data = some type)
    (hactive : a.sessionMgr.isActive = false) :
    (wired.handleMessage ext.decode data).exec (sem ext) a = (.error .sessionRevoked, a) := by
  have hs : wired.isSessionActive = perform .isActive := rfl
  have hr : sem ext .isActive a = (false, a) := by rw [← hactive]; rfl
  simp only [handleMessage, hb, hs, Prog.perform_bind, Prog.exec_op, hr]
  rfl

/-- An e-stop of an active session tells the monitor and then calls the
robot. -/
theorem handleMessage_eStop {ext : External} {data : Bytes} {a : Agent} {m : EStopMessage}
    (hb : ext.decode.base data = some .eStop) (hd : ext.decode.eStop data = some m)
    (hactive : a.sessionMgr.isActive = true) :
    ((wired.handleMessage ext.decode data).exec (sem ext) a).2.toCore =
      ((sem ext .onEStop a).2.callRobot ext .eStop).2.toCore := by
  rw [handleMessage_active hb hactive]
  simp only [switch, hd, dispatch, handleEStop, Validator.validateEStop, wired, if_true,
    Prog.exec_bind, Prog.perform_bind, Prog.exec_op, sem, Agent.callRobot]
  cases ext.robot _ RobotCall.eStop <;> rfl

/-- What one message does to the core. -/
theorem handleMessage_effect (ext : External) (data : Bytes) (a : Agent) :
    MessageEffect ext a.toCore data (accepts ext a data)
      ((wired.handleMessage ext.decode data).exec (sem ext) a).2.toCore := by
  unfold accepts
  cases hb : ext.decode.base data with
  | none =>
    have hm : wired.motionOf ext.decode a.toCore data = none :=
      motionOf_of_command (by simp [motionCommand, hb])
    simp only [handleMessage, hb]
    exact .invalid hm (a.invalidCommand_count ext)
  | some type =>
    cases hactive : a.sessionMgr.isActive with
    | false =>
      rw [handleMessage_inactive hb hactive]
      exact .ignored (motionOf_of_inactive hactive)
    | true =>
      rw [handleMessage_active hb hactive]
      cases type with
      | drive =>
        have h := dispatch_effect ext data .drive (ext.decode.drive data) DriveMessage.t
          wired.validator.validateDrive (fun m => .drive m.v m.w) hactive
          (by simp only [motionCommand, hb])
        rw [decide_eq_true (by simp), Bool.and_true]
        exact h
      | kvmKey =>
        have h := dispatch_effect ext data .kvmKey (ext.decode.kvmKey data) KVMKeyMessage.t
          wired.validator.validateKVMKey (fun m => .sendKey m.key m.action m.modifiers) hactive
          (by simp only [motionCommand, hb])
        rw [decide_eq_true (by simp), Bool.and_true]
        exact h
      | kvmMouse =>
        have h := dispatch_effect ext data .kvmMouse (ext.decode.kvmMouse data) KVMMouseMessage.t
          wired.validator.validateKVMMouse (fun m => .sendMouse m.dx m.dy m.buttons m.scroll)
          hactive (by simp only [motionCommand, hb])
        rw [decide_eq_true (by simp), Bool.and_true]
        exact h
      -- an emergency stop is no motion, and needs no scope
      | eStop =>
        have hm : wired.motionOf ext.decode a.toCore data = none :=
          motionOf_of_command (by simp [motionCommand, hb])
        rw [decide_eq_false (by simp), Bool.and_false]
        cases hd : ext.decode.eStop data with
        | none =>
          simp only [switch, hd]
          exact .invalid hm (a.invalidCommand_count ext)
        | some m =>
          have hcore := handleMessage_eStop hb hd hactive
          rw [handleMessage_active hb hactive] at hcore
          rw [hcore]
          exact .eStop hm (a.nonRecoverable_latch ext .eStop)
      -- a ping counts as a valid control message, but moves nothing
      | ping =>
        have hm : wired.motionOf ext.decode a.toCore data = none :=
          motionOf_of_command (by simp [motionCommand, hb])
        exact .heartbeat hm (a.sessionMgr.isActive_iff.mp hactive)
      | _ =>
        have hm : wired.motionOf ext.decode a.toCore data = none :=
          motionOf_of_command (by simp [motionCommand, hb])
        exact .invalid hm (a.invalidCommand_count ext)

end Handler

/-- Whatever is no pong is the handler's. -/
theorem onDataMessage_core (ext : External) {data : Bytes} (hb : ext.decode.base data ≠ some .pong)
    (a : Agent) :
    ((onDataMessage ext data).exec (sem ext) a).2.toCore =
      ((Handler.wired.handleMessage ext.decode data).exec (sem ext) a).2.toCore := by
  unfold onDataMessage
  split
  next hb' => exact absurd hb' hb
  · rw [Prog.exec_bind]
    cases hr : ((Handler.wired.handleMessage ext.decode data).exec (sem ext) a).1 with
    | error err => rfl
    | ok ack =>
      cases ack with
      | none => rfl
      | some ack => exact Agent.sendData_core _ _

/-- What a data-channel message does to the core. -/
theorem onDataMessage_effect (ext : External) (data : Bytes) (a : Agent) :
    MessageEffect ext a.toCore data (accepts ext a data)
      ((onDataMessage ext data).exec (sem ext) a).2.toCore := by
  have h := Handler.handleMessage_effect ext data a
  by_cases hb : ext.decode.base data = some .pong
  · -- a pong is not even shown to the handler, which would not know the type
    have hm : Handler.wired.motionOf ext.decode a.toCore data = none :=
      Handler.motionOf_of_command (by simp only [Handler.motionCommand, hb])
    have hacc : accepts ext a data = false := by
      unfold accepts
      cases hactive : a.sessionMgr.isActive with
      | true =>
        rw [Handler.handleMessage_active hb hactive]
        rfl
      | false =>
        rw [Handler.handleMessage_inactive hb hactive]
        rfl
    have hcore : ((onDataMessage ext data).exec (sem ext) a).2.toCore = a.toCore := by
      unfold onDataMessage
      rw [hb]
      cases ext.decode.pong data <;> rfl
    rw [hacc, hcore]
    exact .ignored hm
  · rw [onDataMessage_core ext hb]
    exact h

/-- The motion an event puts on the robot. -/
def Event.motion (ext : External) (c : Core) : Event → Option RobotCall
  | .task (.message ch data) =>
    if c.transport.delivers ch then Handler.wired.motionOf ext.decode c data else none
  | _ => none

/-! ## Every event -/

/-- What event `e` can do to core `c`. -/
inductive CoreStep (ext : External) (c : Core) : Event → Core → Prop where
  | elapse (d : Nat) : CoreStep ext c (.elapse d) { c with now := c.now + d }
  /-- The token is rejected. -/
  | offerRejected {sid tok sdp create negotiate err}
    (h : (c.sessionMgr.validateToken ext.parse c.now sid tok).1 = .error err) :
    CoreStep ext c (.task (.offer sid tok sdp create negotiate)) c
  /-- The token is accepted, but no connection is created. -/
  | offerFailed {sid tok sdp negotiate info err}
    (h : (c.sessionMgr.validateToken ext.parse c.now sid tok).1 = .ok info) :
    CoreStep ext c (.task (.offer sid tok sdp (.error err) negotiate))
      { c with sessionMgr := (c.sessionMgr.validateToken ext.parse c.now sid tok).2 }
  /-- A new connection, whose callbacks now serve all connections. -/
  | offered {sid tok sdp negotiate info}
    (h : (c.sessionMgr.validateToken ext.parse c.now sid tok).1 = .ok info) :
    CoreStep ext c (.task (.offer sid tok sdp (.ok ()) negotiate))
      { c with
        sessionMgr := (c.sessionMgr.validateToken ext.parse c.now sid tok).2
        transport := { c.transport with
          conns := c.transport.conns + 1
          pc := some c.transport.conns
          onICE := some sid
          onDataMessage := true
          onStateChange := some info } }
  | bye {sid c'} (h : c.Latch c') : CoreStep ext c (.task (.bye sid)) c'
  | revoked {sid reason c'}
    (h : Core.Latch { c with
      transport := c.transport.close, sessionMgr := c.sessionMgr.terminate } c') :
    CoreStep ext c (.task (.revoked sid reason)) c'
  /-- A state change that nothing follows from. -/
  | connIgnored {conn state}
    (h : c.transport.stateCallback conn = none ∨ (state ≠ .failed ∧ state ≠ .closed ∧
      (state = .connected → c.sessionMgr.state ≠ .pending))) :
    CoreStep ext c (.task (.connState conn state)) c
  /-- The session is activated and then the monitor reset. -/
  | activated {conn info} (h : c.transport.stateCallback conn = some info)
    (hp : c.sessionMgr.state = .pending) :
    CoreStep ext c (.task (.connState conn .connected))
      { c with
        sessionMgr := (c.sessionMgr.activate info).2
        safety := c.safety.reset c.now }
  /-- The session is terminated. The monitor is not told. -/
  | disconnected {conn info state} (h : c.transport.stateCallback conn = some info)
    (hs : state = .failed ∨ state = .closed) :
    CoreStep ext c (.task (.connState conn state))
      { c with sessionMgr := c.sessionMgr.terminate }
  | dataChannel (conn : Nat) :
    CoreStep ext c (.task (.dataChannel conn))
      { c with transport := c.transport.openChannel conn }
  | iceCandidate (candidate : Bytes) : CoreStep ext c (.task (.iceCandidate candidate)) c
  | undelivered {ch data} (h : c.transport.delivers ch = false) :
    CoreStep ext c (.task (.message ch data)) c
  | message {ch data accepted c'} (hd : c.transport.delivers ch = true)
    (h : MessageEffect ext c data accepted c') :
    CoreStep ext c (.task (.message ch data)) c'
  | tickIdle (h : c.sessionMgr.state ≠ .active) : CoreStep ext c (.task .tick) c
  | tick {c'} (h : c.sessionMgr.state = .active) (hc : c.Check c') :
    CoreStep ext c (.task .tick) c'
  | tokenExpired {c'} (h : c.Latch c') : CoreStep ext c (.task .tokenExpired) c'
  | shutdown {c'} (h : c.Latch c') :
    CoreStep ext c (.task .shutdown) { c' with transport := c'.transport.close }

private theorem offer_step (ext : External) (a : Agent) (sid tok : String) (sdp : Bytes)
    (create : Except String Unit) (negotiate : Bytes → Except String Bytes) :
    CoreStep ext a.toCore (.task (.offer sid tok sdp create negotiate))
      ((onOffer sid tok sdp create negotiate).exec (sem ext) a).2.toCore := by
  simp only [onOffer, Prog.perform_bind, Prog.exec_op]
  cases hv : (a.sessionMgr.validateToken ext.parse a.now sid tok).1 with
  | error err =>
    have hm := Manager.validateToken_error hv
    simp only [sem, hv, hm]
    exact .offerRejected hv
  | ok info =>
    cases create with
    | error err =>
      simp only [sem, hv, Transport.createPeerConnection, Prog.exec_op]
      exact .offerFailed hv
    | ok _ =>
      simp only [sem, hv, Transport.createPeerConnection, Prog.exec_op]
      cases Transport.handleOffer _ negotiate sdp with
      | error err => exact .offered hv
      | ok answer => exact .offered hv

private theorem connState_step (ext : External) (a : Agent) (conn : Nat)
    (state : PeerConnectionState) :
    CoreStep ext a.toCore (.task (.connState conn state))
      (a.step ext (.task (.connState conn state))).toCore := by
  simp only [Agent.step, Task.code, Prog.perform_bind, Prog.exec_op]
  cases hcb : a.transport.stateCallback conn with
  | none =>
    simp only [sem, hcb]
    exact .connIgnored (Or.inl hcb)
  | some info =>
    simp only [sem, hcb]
    cases state with
    | connected =>
      simp only [onStateChange, Prog.perform_bind, Prog.exec_op, sem]
      rcases a.sessionMgr.activate_cases info with ⟨hp, hok, -⟩ | ⟨hp, ⟨err, herr⟩, hsame⟩
      · simp only [hok]
        exact .activated hcb hp
      · simp only [herr, hsame]
        exact .connIgnored (Or.inr ⟨by simp, by simp, fun _ => hp⟩)
    | failed => exact .disconnected hcb (Or.inl rfl)
    | closed => exact .disconnected hcb (Or.inr rfl)
    | _ => exact .connIgnored (Or.inr ⟨by simp, by simp, by simp⟩)

/-- `OnRevoked` closes the transport, terminates the session and only then
tells the monitor. -/
private theorem revoked_latch (ext : External) (a : Agent) (sid reason : String) :
    Core.Latch { a.toCore with
      transport := a.transport.close, sessionMgr := a.sessionMgr.terminate }
      (a.step ext (.task (.revoked sid reason))).toCore := by
  have hcore : ∀ l : RevocationLog, Core.Latch { a.toCore with
      transport := a.transport.close, sessionMgr := a.sessionMgr.terminate }
      (sem ext .onRevoked { a with
        transport := a.transport.close
        sessionMgr := a.sessionMgr.terminate
        revocation := l }).2.toCore :=
    fun l => Agent.nonRecoverable_latch ext .revoked { a with
      transport := a.transport.close
      sessionMgr := a.sessionMgr.terminate
      revocation := l }
  exact hcore _

theorem step_message (ext : External) {a : Agent} {ch : Nat} (data : Bytes)
    (hd : a.transport.delivers ch = true) :
    a.step ext (.task (.message ch data)) = ((onDataMessage ext data).exec (sem ext) a).2 := by
  have hr : sem ext (.delivers ch) a = (true, a) := by rw [← hd]; rfl
  simp only [Agent.step, Task.code, Prog.perform_bind, Prog.exec_op, hr, if_true]

/-- A delivered message, with the flag that says whether it was accepted. -/
theorem message_effect (ext : External) {a : Agent} {ch : Nat} (data : Bytes)
    (hd : a.transport.delivers ch = true) :
    MessageEffect ext a.toCore data (accepts ext a data)
      (a.step ext (.task (.message ch data))).toCore := by
  rw [step_message ext data hd]
  exact onDataMessage_effect ext data a

/-- Every step of the agent is a step of its core. -/
theorem step_core (ext : External) (a : Agent) (e : Event) :
    CoreStep ext a.toCore e (a.step ext e).toCore := by
  cases e with
  | elapse d => exact .elapse d
  | task t =>
    cases t with
    | offer sid tok sdp create negotiate => exact offer_step ext a sid tok sdp create negotiate
    | bye sid => exact .bye (a.nonRecoverable_latch ext .revoked)
    | revoked sid reason => exact .revoked (revoked_latch ext a sid reason)
    | connState conn state => exact connState_step ext a conn state
    | dataChannel conn => exact .dataChannel conn
    | iceCandidate candidate =>
      simp only [Agent.step, Task.code, Prog.perform_bind, Prog.exec_op, sem]
      cases a.transport.onICE <;> exact .iceCandidate candidate
    | message ch data =>
      cases hd : a.transport.delivers ch with
      | true => exact .message hd (message_effect ext data hd)
      | false =>
        have hr : sem ext (.delivers ch) a = (false, a) := by rw [← hd]; rfl
        simp only [Agent.step, Task.code, Prog.perform_bind, Prog.exec_op, hr]
        exact .undelivered hd
    | tick =>
      cases hactive : a.sessionMgr.isActive with
      | true =>
        have hr : sem ext .isActive a = (true, a) := by rw [← hactive]; rfl
        simp only [Agent.step, Task.code, safetyTick, Prog.perform_bind, Prog.exec_op, hr, if_true]
        exact .tick (a.sessionMgr.isActive_iff.mp hactive) (a.checkControlLoss_check ext)
      | false =>
        have hr : sem ext .isActive a = (false, a) := by rw [← hactive]; rfl
        simp only [Agent.step, Task.code, safetyTick, Prog.perform_bind, Prog.exec_op, hr]
        exact .tickIdle fun h => by simp [a.sessionMgr.isActive_iff.mpr h] at hactive
    | tokenExpired => exact .tokenExpired (a.nonRecoverable_latch ext .tokenExpired)
    | shutdown => exact .shutdown (a.nonRecoverable_latch ext .revoked)

/-- What the methods of the manager keep, every step keeps. -/
theorem CoreStep.manager {P : Manager → Prop} {ext : External} {c c' : Core} {e : Event}
    (hvalidate : ∀ m sid tok, P m → P (m.validateToken ext.parse c.now sid tok).2)
    (hactivate : ∀ m info, P m → P (m.activate info).2) (hterminate : ∀ m, P m → P m.terminate)
    (h : CoreStep ext c e c') (hP : P c.sessionMgr) : P c'.sessionMgr := by
  cases h with
  | offerFailed _ => exact hvalidate _ _ _ hP
  | offered _ => exact hvalidate _ _ _ hP
  | bye h => exact h.frame.1 ▸ hP
  | revoked h => exact h.frame.1 ▸ hterminate _ hP
  | activated _ _ => exact hactivate _ _ hP
  | disconnected _ _ => exact hterminate _ hP
  | message _ h => exact h.frame.1 ▸ hP
  | tick _ h => exact h.frame.1 ▸ hP
  | tokenExpired h => exact h.frame.1 ▸ hP
  | shutdown h =>
    have hsame := h.frame.1
    exact hsame ▸ hP
  | _ => exact hP

theorem Core.Latch.now_eq {c c' : Core} (h : c.Latch c') : c'.now = c.now := by
  cases h <;> rfl

theorem Core.Count.now_eq {c c' : Core} (h : c.Count c') : c'.now = c.now := by
  cases h <;> rfl

theorem Core.Check.now_eq {c c' : Core} (h : c.Check c') : c'.now = c.now := by
  cases h <;> rfl

/-- The clock never goes back. -/
theorem CoreStep.now_le {ext : External} {c c' : Core} {e : Event} (h : CoreStep ext c e c') :
    c.now ≤ c'.now := by
  cases h with
  | elapse d => exact Int.le_add_of_nonneg_right (Int.natCast_nonneg d)
  | bye h | tokenExpired h => exact Int.le_of_eq h.now_eq.symm
  | revoked h => exact Int.le_of_eq h.now_eq.symm
  | shutdown h => exact Int.le_of_eq h.now_eq.symm
  | tick _ h => exact Int.le_of_eq h.now_eq.symm
  | message _ h =>
    cases h with
    | invalid _ h => exact Int.le_of_eq h.now_eq.symm
    | eStop _ h => exact Int.le_of_eq h.now_eq.symm
    | _ => exact Int.le_refl _
  | _ => exact Int.le_refl _

/-- Nor does it in a run. -/
theorem run_now_le (ext : External) (a : Agent) (es : List Event) :
    a.now ≤ (Machine.run (Agent.step ext) a es).now := by
  induction es generalizing a with
  | nil => exact Int.le_refl _
  | cons e es ih =>
    rw [Machine.run_cons]
    exact Int.le_trans (step_core ext a e).now_le (ih (a.step ext e))

end ChainKVM.Robot
