import ChainKVM.Robot.RateLimiter
import ChainKVM.Robot.SafeStop

/-!
# The rate at which the robot is called

`ratelimit.go` is on nobody's path: `NewHandler` takes no limiter, and
`initComponents` makes none. So the robot gets every motion command that the
session may give, at the rate at which they arrive, and whether this is within
the limits is up to the messages alone. It is within them iff the limiter, had
it been asked about each of these commands, would have refused none
(`within_limits_iff`).
-/

namespace ChainKVM.Robot

open Machine (run run_cons Steps collect)
open RateLimiter (asked)

/-- The type of the message that a call of the robot comes from. -/
def RobotCall.msgType : RobotCall → MessageType
  | .drive _ _ => .drive
  | .sendKey _ _ _ => .kvmKey
  | .sendMouse _ _ _ _ => .kvmMouse
  | .eStop => .eStop

/-- The calls that a step has made, newest first. -/
def issued (c c' : Core) : List RobotCall := c'.calls.take (c'.calls.length - c.calls.length)

/-- The calls of a run, each with its time. -/
def callLog (ext : External) : Agent → List Event → List (Time × MessageType)
  | _, [] => []
  | a, e :: es =>
    (issued a.toCore (a.step ext e).toCore).map (fun call => (a.now, call.msgType)) ++
      callLog ext (a.step ext e) es

/-- The motion commands of a run that the session may give, each with the time
at which it arrives. -/
def commandLog (ext : External) : Agent → List Event → List (Time × MessageType) :=
  collect (Agent.step ext) fun a e => (e.motion ext a.toCore).map fun call => (a.now, call.msgType)

/-- Of each type of motion, the robot gets no more in any interval than the
limits grant. -/
def WithinLimits (cfg : RateLimiterConfig) (log : List (Time × MessageType)) : Prop :=
  WithinRate (cfg.burstSize : Rat) cfg.driveHz (asked .drive log) ∧
    WithinRate (cfg.burstSize : Rat) cfg.kvmHz (asked .kvmKey log) ∧
    WithinRate (cfg.burstSize : Rat) cfg.kvmHz (asked .kvmMouse log)

/-- An e-stop message of an active session is a call of the robot's `EStop`,
whatever has come before. -/
def EStopPasses (ext : External) (a : Agent) (e : Event) : Prop :=
  ∀ ch data msg, e = .task (.message ch data) → a.transport.delivers ch = true →
    ext.decode.base data = some .eStop → ext.decode.eStop data = some msg →
      a.sessionMgr.state = .active →
        ∃ earlier, (a.step ext e).calls = .eStop :: earlier ∧ a.calls <:+ earlier

/-! ## What a step calls -/

theorem issued_append (c : Core) {c' : Core} {calls : List RobotCall}
    (h : c'.calls = calls ++ c.calls) : issued c c' = calls := by
  rw [issued, h, List.length_append, Nat.add_sub_cancel, List.take_left]

/-- New calls have been made, among them these motions. -/
def Core.Adds (c c' : Core) (motions : List RobotCall) : Prop :=
  ∃ calls, c'.calls = calls ++ c.calls ∧ calls.filter RobotCall.isMotion = motions

theorem Core.adds_nothing {c c' : Core} (h : c'.calls = c.calls) : c.Adds c' [] := ⟨[], h, rfl⟩

theorem Core.adds_stop {c c' : Core} (h : c'.calls = .eStop :: c.calls) : c.Adds c' [] :=
  ⟨[.eStop], h, rfl⟩

theorem Core.Latch.adds {c c' : Core} (h : c.Latch c') : c.Adds c' [] := by
  cases h with
  | swallowed _ => exact adds_nothing rfl
  | stop _ _ => exact adds_stop rfl

theorem Core.Count.adds {c c' : Core} (h : c.Count c') : c.Adds c' [] := by
  cases h with
  | counted _ => exact adds_nothing rfl
  | stop _ _ => exact adds_stop rfl

theorem Core.Check.adds {c c' : Core} (h : c.Check c') : c.Adds c' [] := by
  cases h with
  | fine _ => exact adds_nothing rfl
  | stop _ _ => exact adds_stop rfl

/-- A message calls the robot for the motion it carries, and else for
stops. -/
theorem MessageEffect.adds {ext : External} {c c' : Core} {data : Bytes} {acc : Bool}
    (h : MessageEffect ext c data acc c') :
    c.Adds c' (Handler.wired.motionOf ext.decode c data).toList := by
  have hmotion {call : RobotCall} (hm : Handler.wired.motionOf ext.decode c data = some call)
      {c' : Core} (hcalls : c'.calls = call :: c.calls) :
      c.Adds c' (Handler.wired.motionOf ext.decode c data).toList := by
    refine ⟨[call], hcalls, ?_⟩
    rw [hm, List.filter_cons, if_pos (Handler.motionOf_isMotion hm)]
    rfl
  cases h with
  | ignored hm => exact hm ▸ Core.adds_nothing rfl
  | heartbeat hm _ => exact hm ▸ Core.adds_nothing rfl
  | invalid hm h => exact hm ▸ h.adds
  | moved hm _ => exact hmotion hm rfl
  | refused hm _ => exact hmotion hm rfl
  | eStop hm h =>
    obtain ⟨calls, hcalls, hnone⟩ := h.adds
    refine ⟨.eStop :: calls, by rw [hcalls]; rfl, ?_⟩
    rw [hm]
    exact hnone

/-- The motions that a step calls the robot for are those of its event. -/
theorem CoreStep.adds {ext : External} {c c' : Core} {e : Event} (h : CoreStep ext c e c') :
    c.Adds c' (e.motion ext c).toList := by
  cases h with
  | bye h | tick _ h | tokenExpired h => exact h.adds
  | revoked h => exact h.adds
  | shutdown h => exact h.adds
  | message hd h =>
    simp only [Event.motion, hd, if_true]
    exact h.adds
  | undelivered hd =>
    simp only [Event.motion, hd, Bool.false_eq_true, if_false]
    exact Core.adds_nothing rfl
  | _ => exact Core.adds_nothing rfl

/-! ## What a run calls -/

theorem asked_append (msgType : MessageType) (log log' : List (Time × MessageType)) :
    asked msgType (log ++ log') = asked msgType log ++ asked msgType log' := by
  simp only [asked, List.filter_append, List.map_append]

/-- Of the calls of a step, those of a type of motion are motions. -/
theorem asked_map_calls {msgType : MessageType} (hmotion : msgType ≠ .eStop) (now : Time)
    (calls : List RobotCall) :
    asked msgType (calls.map fun call => (now, call.msgType)) =
      asked msgType ((calls.filter RobotCall.isMotion).map fun call => (now, call.msgType)) := by
  unfold asked
  rw [List.filter_map, List.filter_map, List.filter_filter]
  refine congrArg _ (congrArg _ (List.filter_congr fun call _ => ?_))
  cases call with
  | eStop => simp [RobotCall.msgType, RobotCall.isMotion, Ne.symm hmotion]
  | _ => exact (Bool.and_true _).symm

/-- The robot is called for the commands of the run. -/
theorem asked_callLog (ext : External) {msgType : MessageType} (hmotion : msgType ≠ .eStop) :
    ∀ (a : Agent) (es : List Event),
      asked msgType (callLog ext a es) = asked msgType (commandLog ext a es) := by
  intro a es
  induction es generalizing a with
  | nil => rfl
  | cons e es ih =>
    obtain ⟨calls, hcalls, hmotions⟩ := (step_core ext a e).adds
    rw [callLog, asked_append, ih, issued_append _ hcalls, asked_map_calls hmotion, hmotions]
    unfold commandLog
    rw [Machine.collect_cons, asked_append]
    cases e.motion ext a.toCore <;> rfl

/-- The commands of a run are in the order of time. -/
theorem commandLog_inOrder (ext : External) :
    ∀ (a : Agent) (es : List Event), RateLimiter.InOrder a.now (commandLog ext a es) := by
  intro a es
  induction es generalizing a with
  | nil => exact ⟨fun _ h => absurd h List.not_mem_nil, List.Pairwise.nil⟩
  | cons e es ih =>
    obtain ⟨hlater, hsorted⟩ := ih (a.step ext e)
    have hnow : a.now ≤ (a.step ext e).now := (step_core ext a e).now_le
    have hrest : ∀ ask ∈ commandLog ext (a.step ext e) es, a.now ≤ ask.1 :=
      fun ask hmem => Int.le_trans hnow (hlater ask hmem)
    unfold commandLog at hrest hsorted ⊢
    rw [Machine.collect_cons]
    cases e.motion ext a.toCore with
    | none => exact ⟨hrest, hsorted⟩
    | some call =>
      refine ⟨fun ask hmem => ?_, List.pairwise_cons.mpr ⟨hrest, hsorted⟩⟩
      rcases List.mem_cons.mp hmem with rfl | hmem
      · exact Int.le_refl _
      · exact hrest ask hmem

/-- An e-stop message is never refused for its rate: nobody asks about it. -/
theorem eStop_passes (ext : External) (a : Agent) (e : Event) : EStopPasses ext a e := by
  rintro ch data msg rfl hdelivers hbase hdecoded hactive
  have hisActive : a.sessionMgr.isActive = true := a.sessionMgr.isActive_iff.mpr hactive
  have hcore : (a.step ext (.task (.message ch data))).toCore =
      ((sem ext .onEStop a).2.callRobot ext .eStop).2.toCore := by
    rw [step_message ext data hdelivers, onDataMessage_core ext (by rw [hbase]; decide),
      Handler.handleMessage_eStop hbase hdecoded hisActive]
  obtain ⟨calls, hcalls, -⟩ := (a.nonRecoverable_latch ext .eStop).adds
  refine ⟨calls ++ a.calls, (congrArg Core.calls hcore).trans ?_, List.suffix_append _ _⟩
  exact congrArg (RobotCall.eStop :: ·) hcalls

/-- The calls of a run are within the limits iff the limiter that nobody asks
would have let the commands of the run through. -/
theorem within_limits_iff (ext : External) (now : Time) (cfg : Agent.Config)
    (tokenValidator : Option TokenValidator) {limits : RateLimiterConfig}
    (hburst : 1 ≤ limits.burstSize) (hdrive : 0 ≤ limits.driveHz) (hkvm : 0 ≤ limits.kvmHz)
    (es : List Event) :
    (WithinLimits limits (callLog ext (.init now cfg tokenValidator) es) ∧
        Steps (Agent.step ext) (EStopPasses ext) (.init now cfg tokenValidator) es) ↔
      (RateLimiter.newWithConfig now limits).Spares
        (commandLog ext (.init now cfg tokenValidator) es) := by
  have hpasses : Steps (Agent.step ext) (EStopPasses ext) (.init now cfg tokenValidator) es :=
    Machine.steps_of_forall (eStop_passes ext) _ _
  have horder : RateLimiter.InOrder now (commandLog ext (.init now cfg tokenValidator) es) :=
    commandLog_inOrder ext (.init now cfg tokenValidator) es
  rw [and_iff_left hpasses, RateLimiter.new_spares_iff hburst hdrive hkvm horder]
  unfold WithinLimits
  rw [asked_callLog ext (by decide), asked_callLog ext (by decide), asked_callLog ext (by decide)]

/-- Two drive commands at once. -/
def twoDrives : List Event :=
  Sample.signOn ++ [Sample.message 0 Sample.drive, Sample.message 0 Sample.drive]

/-- Twenty commands a second, with a burst of five. -/
theorem within_limits_iff_sample :
    (WithinLimits ⟨20, 20, 20, 5⟩ (callLog Sample.ext Sample.start twoDrives) ∧
        Steps (Agent.step Sample.ext) (EStopPasses Sample.ext) Sample.start twoDrives) ↔
      (RateLimiter.newWithConfig Sample.now ⟨20, 20, 20, 5⟩).Spares
        (commandLog Sample.ext Sample.start twoDrives) :=
  within_limits_iff Sample.ext Sample.now Sample.config Sample.validator (by decide) (by decide)
    (by decide) twoDrives

/-- The robot is called for both commands, where the limit is one at a
time. -/
theorem within_limits_fails :
    ¬ ∀ (ext : External) (now : Time) (cfg : Agent.Config)
      (tokenValidator : Option TokenValidator) (limits : RateLimiterConfig),
        1 ≤ limits.burstSize → 0 ≤ limits.driveHz → 0 ≤ limits.kvmHz → ∀ es : List Event,
          WithinLimits limits (callLog ext (.init now cfg tokenValidator) es) ∧
            Steps (Agent.step ext) (EStopPasses ext) (.init now cfg tokenValidator) es := by
  intro h
  have hwithin := (h Sample.ext Sample.now Sample.config Sample.validator ⟨1, 1, 1, 1⟩ (by decide)
    (by decide) (by decide) twoDrives).1.1
  have hlog : callLog Sample.ext (.init Sample.now Sample.config Sample.validator) twoDrives =
      [(Sample.now, .drive), (Sample.now, .drive)] := by
    decide +kernel
  have hboth := hwithin (seconds Sample.now) (seconds Sample.now) le_rfl
  rw [hlog] at hboth
  simp [asked, arrivals] at hboth

end ChainKVM.Robot
