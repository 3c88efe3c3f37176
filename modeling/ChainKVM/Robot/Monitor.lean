import ChainKVM.Robot.Protocol

/-!
# The safety monitor: `internal/safety/monitor.go` and `types.go`

A monitor is *stopped* from the first trigger until `reset` (or, when the
trigger was a loss of control, until the next valid control message). While
it is stopped every further trigger is swallowed, so the safe-stop callback
runs once per stop.

The callback acts on a world `ω` that the monitor knows nothing about, and
runs inside the monitor's critical section: each method below is one atomic
step that takes and returns both.
-/

namespace ChainKVM.Robot

/-- `Trigger`. -/
inductive Trigger where
  | eStop
  | controlLoss
  | invalidCmds
  | tokenExpired
  | revoked
  deriving DecidableEq, Repr

/-- `TriggerPriority`, the lower the more urgent. -/
abbrev TriggerPriority := Nat

namespace Trigger

/-- `Priority`. -/
def priority : Trigger → TriggerPriority
  | .eStop => 1
  | .revoked | .tokenExpired => 2
  | .controlLoss | .invalidCmds => 3

/-- `IsRecoverable`. -/
def isRecoverable (t : Trigger) : Bool := t = .controlLoss

end Trigger

/-- Why a safe-stop could not halt the robot. -/
inductive HaltError where
  | hardwareUnavailable
  | robot (err : String)
  deriving DecidableEq, Repr

/-- `TransitionResult`. -/
structure TransitionResult where
  trigger : Trigger
  timestamp : Time
  error : Option HaltError
  deriving DecidableEq, Repr

/-- `SafeStopCallback`, acting on a world `ω`. -/
abbrev SafeStopCallback (ω : Type) := Trigger → ω → TransitionResult × ω

/-- `Monitor`. `lastTransition` is `none` for the zero result. -/
structure Monitor where
  controlLossTimeout : Duration
  invalidCmdThreshold : Int
  invalidCmdTimeWindow : Duration
  lastControlTime : Time
  invalidCmdCount : Int
  firstInvalidCmdTime : Time
  stopped : Bool
  inControlLoss : Bool
  lastTransition : Option TransitionResult
  deriving DecidableEq, Repr

namespace Monitor

/-- `NewMonitor`. -/
def new (now : Time) (controlLossTimeout : Duration) (invalidCmdThreshold : Int)
    (invalidCmdTimeWindow : Duration) : Monitor where
  controlLossTimeout := controlLossTimeout
  invalidCmdThreshold := invalidCmdThreshold
  invalidCmdTimeWindow := invalidCmdTimeWindow
  lastControlTime := now
  invalidCmdCount := 0
  firstInvalidCmdTime := zeroTime
  stopped := false
  inControlLoss := false
  lastTransition := none

variable {ω : Type}

/-- `triggerSafeStop`. -/
def triggerSafeStop (safeStopFn : Option (SafeStopCallback ω)) (trigger : Trigger)
    (m : Monitor) (w : ω) : Monitor × ω :=
  if m.stopped then (m, w)
  else
    match safeStopFn with
    | none => ({ m with stopped := true }, w)
    | some fn =>
      ({ m with stopped := true, lastTransition := some (fn trigger w).1 }, (fn trigger w).2)

/-- `OnValidControl`: also the way out of a loss of control. -/
def onValidControl (now : Time) (m : Monitor) : Monitor :=
  let m := { m with lastControlTime := now, invalidCmdCount := 0, firstInvalidCmdTime := zeroTime }
  if m.inControlLoss then { m with inControlLoss := false, stopped := false } else m

/-- The counting half of `OnInvalidCommand`: a window that has run out starts
the count again. -/
def countInvalid (now : Time) (m : Monitor) : Monitor :=
  let windowExpired :=
    0 < m.invalidCmdTimeWindow && 0 < m.invalidCmdCount &&
      m.invalidCmdTimeWindow < sub now m.firstInvalidCmdTime
  let m := if windowExpired then { m with invalidCmdCount := 0 } else m
  let m := if m.invalidCmdCount = 0 then { m with firstInvalidCmdTime := now } else m
  { m with invalidCmdCount := m.invalidCmdCount + 1 }

/-- `OnInvalidCommand`. -/
def onInvalidCommand (safeStopFn : Option (SafeStopCallback ω)) (now : Time)
    (m : Monitor) (w : ω) : Monitor × ω :=
  let m := m.countInvalid now
  if m.invalidCmdThreshold ≤ m.invalidCmdCount then triggerSafeStop safeStopFn .invalidCmds m w
  else (m, w)

/-- The shared body of the three triggers that end the chance to recover. -/
def onNonRecoverable (safeStopFn : Option (SafeStopCallback ω)) (trigger : Trigger)
    (m : Monitor) (w : ω) : Monitor × ω :=
  triggerSafeStop safeStopFn trigger { m with inControlLoss := false } w

/-- `OnEStop`. -/
def onEStop (safeStopFn : Option (SafeStopCallback ω)) : Monitor → ω → Monitor × ω :=
  onNonRecoverable safeStopFn .eStop

/-- `OnTokenExpired`. -/
def onTokenExpired (safeStopFn : Option (SafeStopCallback ω)) : Monitor → ω → Monitor × ω :=
  onNonRecoverable safeStopFn .tokenExpired

/-- `OnRevoked`. -/
def onRevoked (safeStopFn : Option (SafeStopCallback ω)) : Monitor → ω → Monitor × ω :=
  onNonRecoverable safeStopFn .revoked

/-- `CheckControlLoss`. -/
def checkControlLoss (safeStopFn : Option (SafeStopCallback ω)) (now : Time)
    (m : Monitor) (w : ω) : Monitor × ω :=
  if m.stopped then (m, w)
  else if m.controlLossTimeout < sub now m.lastControlTime then
    triggerSafeStop safeStopFn .controlLoss { m with inControlLoss := true } w
  else (m, w)

/-- `Reset`. -/
def reset (now : Time) (m : Monitor) : Monitor :=
  { m with
    invalidCmdCount := 0
    firstInvalidCmdTime := zeroTime
    lastControlTime := now
    stopped := false
    inControlLoss := false }

/-- Stopped for good: by a trigger that only `reset` undoes. -/
def latched (m : Monitor) : Bool := m.stopped && !m.inControlLoss

@[simp] theorem latched_iff (m : Monitor) :
    m.latched = true ↔ m.stopped = true ∧ m.inControlLoss = false := by
  simp [latched]

@[simp] theorem latched_eq_false (m : Monitor) :
    m.latched = false ↔ (m.stopped = true → m.inControlLoss = true) := by
  simp [latched]

/-! ## What a trigger does -/

/-- A trigger is swallowed by a stopped monitor and otherwise runs the
callback once. -/
theorem triggerSafeStop_cases (fn : SafeStopCallback ω) (t : Trigger) (m : Monitor) (w : ω) :
    (m.stopped = true ∧ triggerSafeStop (some fn) t m w = (m, w)) ∨
    (m.stopped = false ∧ triggerSafeStop (some fn) t m w =
      ({ m with stopped := true, lastTransition := some (fn t w).1 }, (fn t w).2)) := by
  cases h : m.stopped with
  | true => exact Or.inl ⟨rfl, by simp [triggerSafeStop, h]⟩
  | false => exact Or.inr ⟨rfl, by simp [triggerSafeStop, h]⟩

/-- Counting an invalid command changes the counter and its window only. -/
theorem countInvalid_frame (now : Time) (m : Monitor) :
    (m.countInvalid now).stopped = m.stopped ∧
      (m.countInvalid now).inControlLoss = m.inControlLoss ∧
      (m.countInvalid now).lastControlTime = m.lastControlTime ∧
      (m.countInvalid now).controlLossTimeout = m.controlLossTimeout ∧
      (m.countInvalid now).invalidCmdThreshold = m.invalidCmdThreshold := by
  unfold countInvalid
  dsimp only
  split <;> split <;> exact ⟨rfl, rfl, rfl, rfl, rfl⟩

@[simp] theorem countInvalid_stopped (now : Time) (m : Monitor) :
    (m.countInvalid now).stopped = m.stopped := (countInvalid_frame now m).1

@[simp] theorem countInvalid_inControlLoss (now : Time) (m : Monitor) :
    (m.countInvalid now).inControlLoss = m.inControlLoss := (countInvalid_frame now m).2.1

@[simp] theorem countInvalid_lastControlTime (now : Time) (m : Monitor) :
    (m.countInvalid now).lastControlTime = m.lastControlTime := (countInvalid_frame now m).2.2.1

@[simp] theorem countInvalid_controlLossTimeout (now : Time) (m : Monitor) :
    (m.countInvalid now).controlLossTimeout = m.controlLossTimeout :=
  (countInvalid_frame now m).2.2.2.1

@[simp] theorem countInvalid_invalidCmdThreshold (now : Time) (m : Monitor) :
    (m.countInvalid now).invalidCmdThreshold = m.invalidCmdThreshold :=
  (countInvalid_frame now m).2.2.2.2

@[simp] theorem onValidControl_inControlLoss (now : Time) (m : Monitor) :
    (m.onValidControl now).inControlLoss = false := by
  unfold onValidControl
  dsimp only
  split
  · rfl
  next h => exact Bool.eq_false_iff.mpr h

@[simp] theorem onValidControl_stopped (now : Time) (m : Monitor) :
    (m.onValidControl now).stopped = m.latched := by
  unfold onValidControl latched
  dsimp only
  split
  next h => simp [h]
  next h => simp [Bool.eq_false_iff.mpr h]

@[simp] theorem onValidControl_lastControlTime (now : Time) (m : Monitor) :
    (m.onValidControl now).lastControlTime = now := by
  unfold onValidControl
  dsimp only
  split <;> rfl

@[simp] theorem onValidControl_controlLossTimeout (now : Time) (m : Monitor) :
    (m.onValidControl now).controlLossTimeout = m.controlLossTimeout := by
  unfold onValidControl
  dsimp only
  split <;> rfl

end Monitor

end ChainKVM.Robot
