import ChainKVM.Lib.Machine
import ChainKVM.Robot.Monitor

/-!
# Stopping and recovering

The safety monitor on its own, under any sequence of calls. What it is for: a
stop by a trigger that is not recoverable holds until `Reset`, a stop by a
loss of control holds until the next valid control message, and the callback
runs once per stop (`MonitorRun.Sound`, `MonitorRun.Honest`).

All of this holds but for one overlap. While the monitor is stopped by a loss
of control, a trigger is swallowed; `OnEStop`, `OnTokenExpired` and
`OnRevoked` end the loss of control first, so that the stop becomes permanent,
but `OnInvalidCommand` does not. The next valid control message then clears a
stop that the invalid commands had made permanent (`sound_iff`).
-/

namespace ChainKVM.Robot

open Machine (run Steps Always)

variable {ω : Type}

/-- The methods of the monitor, and the passing of time. -/
inductive MonitorOp where
  | onValidControl
  | onInvalidCommand
  | onEStop
  | onTokenExpired
  | onRevoked
  | checkControlLoss
  | reset
  | elapse (d : Nat)
  deriving DecidableEq, Repr

namespace MonitorOp

/-- The call, with a callback that acts on `ω`. -/
def apply (fn : SafeStopCallback ω) (now : Time) (m : Monitor) (w : ω) : MonitorOp → Monitor × ω
  | .onValidControl => (m.onValidControl now, w)
  | .onInvalidCommand => m.onInvalidCommand (some fn) now w
  | .onEStop => m.onEStop (some fn) w
  | .onTokenExpired => m.onTokenExpired (some fn) w
  | .onRevoked => m.onRevoked (some fn) w
  | .checkControlLoss => m.checkControlLoss (some fn) now w
  | .reset => (m.reset now, w)
  | .elapse _ => (m, w)

/-- The trigger that the call raises, also if it is swallowed. -/
def trigger (now : Time) (m : Monitor) : MonitorOp → Option Trigger
  | .onInvalidCommand =>
    if m.invalidCmdThreshold ≤ (m.countInvalid now).invalidCmdCount then some .invalidCmds else none
  | .onEStop => some .eStop
  | .onTokenExpired => some .tokenExpired
  | .onRevoked => some .revoked
  | .checkControlLoss =>
    if !m.stopped && m.controlLossTimeout < sub now m.lastControlTime then some .controlLoss
    else none
  | _ => none

/-- The time that passes with it. -/
def elapsed : MonitorOp → Nat
  | .elapse d => d
  | _ => 0

end MonitorOp

/-! ## Runs of a monitor -/

/-- A callback that is recorded when it is called. -/
def recorded (fn : SafeStopCallback ω) : SafeStopCallback (List Trigger × ω) := fun t w =>
  ((fn t w.2).1, (w.1 ++ [t], (fn t w.2).2))

/-- A monitor at work: the calls of its callback so far, and whether a trigger
that is not recoverable was raised since the last `Reset`. -/
structure MonitorRun (ω : Type) where
  now : Time
  monitor : Monitor
  world : List Trigger × ω
  raised : Bool

namespace MonitorRun

/-- The calls of the callback so far. -/
def calls (s : MonitorRun ω) : List Trigger := s.world.1

def start (now : Time) (controlLossTimeout : Duration) (invalidCmdThreshold : Int)
    (invalidCmdTimeWindow : Duration) (w : ω) : MonitorRun ω :=
  ⟨now, .new now controlLossTimeout invalidCmdThreshold invalidCmdTimeWindow, ([], w), false⟩

def step (fn : SafeStopCallback ω) (s : MonitorRun ω) (op : MonitorOp) : MonitorRun ω where
  now := s.now + op.elapsed
  monitor := (op.apply (recorded fn) s.now s.monitor s.world).1
  world := (op.apply (recorded fn) s.now s.monitor s.world).2
  raised := op ≠ .reset &&
    (s.raised || (op.trigger s.now s.monitor).any fun t => !t.isRecoverable)

/-- A loss of control is a stop, and so is a trigger that is not
recoverable. -/
structure Sound (s : MonitorRun ω) : Prop where
  loss : s.monitor.inControlLoss = true → s.monitor.stopped = true
  latch : s.raised = true → s.monitor.stopped = true

/-- A stop is cleared by `Reset`, or by a valid control message if it is
nothing but a loss of control; and the callback runs once when a stop begins
and at no other time. -/
structure Honest (fn : SafeStopCallback ω) (s : MonitorRun ω) (op : MonitorOp) : Prop where
  cleared : s.monitor.stopped = true → (step fn s op).monitor.stopped = false →
    op = .reset ∨ op = .onValidControl ∧ s.monitor.inControlLoss = true ∧ s.raised = false
  called : s.monitor.stopped = false → (step fn s op).monitor.stopped = true →
    ∃ t, op.trigger s.now s.monitor = some t ∧ (step fn s op).calls = s.calls ++ [t]
  silent : s.monitor.stopped = true ∨ (step fn s op).monitor.stopped = false →
    (step fn s op).calls = s.calls

/-- A valid control message during a loss of control in which a trigger that
is not recoverable was raised. -/
def clearsLatch (s : MonitorRun ω) (op : MonitorOp) : Bool :=
  op = .onValidControl && s.monitor.inControlLoss && s.raised

/-! ## One call -/

/-- What a call does to the flags and the callback. -/
inductive Stepped (s s' : MonitorRun ω) : MonitorOp → Prop
  | recover : s'.monitor.stopped = s.monitor.latched → s'.monitor.inControlLoss = false →
      s'.calls = s.calls → s'.raised = s.raised → Stepped s s' .onValidControl
  | reset : s'.monitor.stopped = false → s'.monitor.inControlLoss = false →
      s'.calls = s.calls → s'.raised = false → Stepped s s' .reset
  | raise (op : MonitorOp) (t : Trigger) : op.trigger s.now s.monitor = some t →
      s'.monitor.stopped = true →
      s'.calls = (if s.monitor.stopped then s.calls else s.calls ++ [t]) → Stepped s s' op
  | quiet (op : MonitorOp) : op ≠ .onValidControl → s'.monitor.stopped = s.monitor.stopped →
      s'.monitor.inControlLoss = s.monitor.inControlLoss → s'.calls = s.calls →
      s'.raised = s.raised → Stepped s s' op

theorem triggerSafeStop_recorded (fn : SafeStopCallback ω) (t : Trigger) (m : Monitor)
    (w : List Trigger × ω) :
    (Monitor.triggerSafeStop (some (recorded fn)) t m w).1.stopped = true ∧
      (Monitor.triggerSafeStop (some (recorded fn)) t m w).2.1 =
        if m.stopped then w.1 else w.1 ++ [t] := by
  rcases Monitor.triggerSafeStop_cases (recorded fn) t m w with ⟨hst, heq⟩ | ⟨hst, heq⟩
  · rw [heq, hst]
    exact ⟨rfl, rfl⟩
  · rw [heq, hst]
    exact ⟨rfl, rfl⟩

/-- A call that triggers nothing raises nothing. -/
theorem raised_of_none (fn : SafeStopCallback ω) (s : MonitorRun ω) {op : MonitorOp}
    (hop : op ≠ .reset) (hnone : op.trigger s.now s.monitor = none) :
    (step fn s op).raised = s.raised := by
  show (decide (op ≠ .reset) && (s.raised || (op.trigger s.now s.monitor).any _)) = _
  rw [hnone, decide_eq_true hop]
  simp

/-- The call that reaches the threshold stops the monitor, the others only
count. -/
theorem stepped_onInvalidCommand (fn : SafeStopCallback ω) (s : MonitorRun ω) :
    Stepped s (step fn s .onInvalidCommand) .onInvalidCommand := by
  by_cases hreached : s.monitor.invalidCmdThreshold ≤ (s.monitor.countInvalid s.now).invalidCmdCount
  · have hstep : (step fn s .onInvalidCommand).monitor =
          (Monitor.triggerSafeStop (some (recorded fn)) .invalidCmds
            (s.monitor.countInvalid s.now) s.world).1 ∧
        (step fn s .onInvalidCommand).world =
          (Monitor.triggerSafeStop (some (recorded fn)) .invalidCmds
            (s.monitor.countInvalid s.now) s.world).2 := by
      simp [step, MonitorOp.apply, Monitor.onInvalidCommand, hreached]
    have htrigger := triggerSafeStop_recorded fn .invalidCmds (s.monitor.countInvalid s.now) s.world
    rw [Monitor.countInvalid_stopped] at htrigger
    refine .raise _ .invalidCmds (if_pos hreached) ?_ ?_
    · rw [hstep.1]
      exact htrigger.1
    · rw [calls, hstep.2]
      exact htrigger.2
  · have hstep : (step fn s .onInvalidCommand).monitor = s.monitor.countInvalid s.now ∧
        (step fn s .onInvalidCommand).world = s.world := by
      simp [step, MonitorOp.apply, Monitor.onInvalidCommand, hreached]
    refine .quiet _ (by decide) ?_ ?_ ?_ (raised_of_none fn s (by decide) (if_neg hreached))
    · rw [hstep.1, Monitor.countInvalid_stopped]
    · rw [hstep.1, Monitor.countInvalid_inControlLoss]
    · rw [calls, hstep.2]
      rfl

/-- A stopped monitor does not look at the clock. -/
theorem stepped_checkControlLoss (fn : SafeStopCallback ω) (s : MonitorRun ω) :
    Stepped s (step fn s .checkControlLoss) .checkControlLoss := by
  by_cases hlost : s.monitor.stopped = false ∧
      s.monitor.controlLossTimeout < sub s.now s.monitor.lastControlTime
  · have htrigger := triggerSafeStop_recorded fn .controlLoss
      { s.monitor with inControlLoss := true } s.world
    have hstep : (step fn s .checkControlLoss).monitor =
          (Monitor.triggerSafeStop (some (recorded fn)) .controlLoss
            { s.monitor with inControlLoss := true } s.world).1 ∧
        (step fn s .checkControlLoss).world =
          (Monitor.triggerSafeStop (some (recorded fn)) .controlLoss
            { s.monitor with inControlLoss := true } s.world).2 := by
      simp [step, MonitorOp.apply, Monitor.checkControlLoss, hlost]
    refine .raise _ .controlLoss (if_pos (by simp [hlost])) ?_ ?_
    · rw [hstep.1]
      exact htrigger.1
    · rw [calls, hstep.2]
      exact htrigger.2
  · have hnone : MonitorOp.trigger s.now s.monitor .checkControlLoss = none := by
      simpa [MonitorOp.trigger] using hlost
    have hstep : (step fn s .checkControlLoss).monitor = s.monitor ∧
        (step fn s .checkControlLoss).world = s.world := by
      simp only [step, MonitorOp.apply, Monitor.checkControlLoss]
      by_cases hst : s.monitor.stopped = true
      · rw [if_pos hst]
        exact ⟨rfl, rfl⟩
      · rw [if_neg hst, if_neg fun hlt => hlost ⟨Bool.eq_false_iff.mpr hst, hlt⟩]
        exact ⟨rfl, rfl⟩
    refine .quiet _ (by decide) ?_ ?_ ?_ (raised_of_none fn s (by decide) hnone)
    · rw [hstep.1]
    · rw [hstep.1]
    · rw [calls, hstep.2]
      rfl

theorem stepped (fn : SafeStopCallback ω) (s : MonitorRun ω) (op : MonitorOp) :
    Stepped s (step fn s op) op := by
  have hpermanent (t : Trigger) := triggerSafeStop_recorded fn t
    { s.monitor with inControlLoss := false } s.world
  cases op with
  | onValidControl =>
    exact .recover (Monitor.onValidControl_stopped _ _) (Monitor.onValidControl_inControlLoss _ _)
      rfl (raised_of_none fn s (by decide) rfl)
  | reset => exact .reset rfl rfl rfl rfl
  | onEStop => exact .raise _ .eStop rfl (hpermanent .eStop).1 (hpermanent .eStop).2
  | onTokenExpired =>
    exact .raise _ .tokenExpired rfl (hpermanent .tokenExpired).1 (hpermanent .tokenExpired).2
  | onRevoked => exact .raise _ .revoked rfl (hpermanent .revoked).1 (hpermanent .revoked).2
  | elapse d => exact .quiet _ (by simp) rfl rfl rfl (raised_of_none fn s (by simp) rfl)
  | onInvalidCommand => exact stepped_onInvalidCommand fn s
  | checkControlLoss => exact stepped_checkControlLoss fn s

/-- When the stops that must hold do hold, a call keeps them iff it is no valid
control message in the overlap. -/
theorem latch_step_iff (fn : SafeStopCallback ω) {s : MonitorRun ω} (op : MonitorOp)
    (hlatch : s.raised = true → s.monitor.stopped = true) :
    ((step fn s op).raised = true → (step fn s op).monitor.stopped = true) ↔
      clearsLatch s op = false := by
  have hstepped := stepped fn s op
  generalize step fn s op = s' at hstepped ⊢
  have hother (hop : op ≠ .onValidControl) : clearsLatch s op = false := by
    rw [clearsLatch, decide_eq_false hop, Bool.false_and, Bool.false_and]
  cases hstepped with
  | recover hstopped _ _ hraised =>
    -- a valid message leaves the stop in force iff it was in force and no loss of
    -- control
    rw [hstopped, hraised, Monitor.latched_iff]
    simp only [clearsLatch, decide_true, Bool.true_and, Bool.and_eq_false_iff]
    constructor
    · intro h
      by_cases hr : s.raised = true
      · exact .inl (h hr).2
      · exact .inr (Bool.eq_false_iff.mpr hr)
    · intro h hr
      refine ⟨hlatch hr, h.resolve_right ?_⟩
      rw [hr]
      exact Bool.noConfusion
  | reset _ _ _ hraised =>
    refine iff_of_true ?_ (hother (by decide))
    rw [hraised]
    exact fun h => by cases h
  | raise _ t htrigger hstopped _ =>
    refine iff_of_true (fun _ => hstopped) (hother ?_)
    rintro rfl
    cases htrigger
  | quiet _ hop hstopped _ _ hraised =>
    refine iff_of_true ?_ (hother hop)
    rw [hstopped, hraised]
    exact hlatch

theorem loss_step (fn : SafeStopCallback ω) (s : MonitorRun ω) (op : MonitorOp)
    (hloss : s.monitor.inControlLoss = true → s.monitor.stopped = true) :
    (step fn s op).monitor.inControlLoss = true → (step fn s op).monitor.stopped = true := by
  have hstepped := stepped fn s op
  generalize step fn s op = s' at hstepped ⊢
  intro h
  cases hstepped with
  | recover _ hnone _ _ =>
    rw [hnone] at h
    cases h
  | reset _ hnone _ _ =>
    rw [hnone] at h
    cases h
  | raise _ t _ hstopped _ => exact hstopped
  | quiet _ _ hstopped hsame _ _ =>
    rw [hstopped]
    exact hloss (hsame.symm.trans h)

theorem honest_step (fn : SafeStopCallback ω) {s : MonitorRun ω} (hs : Sound s) {op : MonitorOp}
    (hop : clearsLatch s op = false) : Honest fn s op := by
  have hstepped := stepped fn s op
  have hkeeps := (latch_step_iff fn op hs.latch).mpr hop
  refine ⟨fun hst hst' => ?_, fun hst hst' => ?_, fun hquiet => ?_⟩
  · cases hstepped with
    | reset _ _ _ _ => exact .inl rfl
    | recover hstopped _ _ hraised =>
      right
      rw [hst', eq_comm, Monitor.latched_eq_false] at hstopped
      -- had a stop been raised that must hold, it would still hold
      refine ⟨rfl, hstopped hst, Bool.eq_false_iff.mpr fun hr => ?_⟩
      rw [hkeeps (hraised.trans hr)] at hst'
      cases hst'
    | raise _ t _ hstopped _ =>
      rw [hstopped] at hst'
      cases hst'
    | quiet _ _ hstopped _ _ _ =>
      rw [hstopped, hst] at hst'
      cases hst'
  · cases hstepped with
    | reset hstopped _ _ _ =>
      rw [hstopped] at hst'
      cases hst'
    | recover hstopped _ _ _ =>
      rw [hst', eq_comm, Monitor.latched_iff, hst] at hstopped
      cases hstopped.1
    | raise _ t htrigger _ hcalls =>
      rw [hst] at hcalls
      exact ⟨t, htrigger, hcalls⟩
    | quiet _ _ hstopped _ _ _ =>
      rw [hstopped, hst] at hst'
      cases hst'
  · cases hstepped with
    | reset _ _ hcalls _ => exact hcalls
    | recover _ _ hcalls _ => exact hcalls
    | quiet _ _ _ _ hcalls _ => exact hcalls
    | raise _ t _ hstopped hcalls =>
      rcases hquiet with hst | hst'
      · rw [hcalls, hst]
        rfl
      · rw [hstopped] at hst'
        cases hst'

/-! ## Runs -/

/-- In every run of a monitor, it is sound throughout and every call honest
iff no valid control message arrives during a loss of control in which a
trigger that is not recoverable was raised. -/
theorem sound_iff (fn : SafeStopCallback ω) (now : Time) (controlLossTimeout : Duration)
    (invalidCmdThreshold : Int) (invalidCmdTimeWindow : Duration) (w : ω) (ops : List MonitorOp) :
    Always (step fn) Sound
        (start now controlLossTimeout invalidCmdThreshold invalidCmdTimeWindow w) ops ∧
      Steps (step fn) (Honest fn)
        (start now controlLossTimeout invalidCmdThreshold invalidCmdTimeWindow w) ops ↔
    Steps (step fn) (fun s op => clearsLatch s op = false)
      (start now controlLossTimeout invalidCmdThreshold invalidCmdTimeWindow w) ops := by
  have hloss : (start now controlLossTimeout invalidCmdThreshold invalidCmdTimeWindow
      w).monitor.inControlLoss = true → (start now controlLossTimeout invalidCmdThreshold
        invalidCmdTimeWindow w).monitor.stopped = true := fun h => by cases h
  have hlatch : (start now controlLossTimeout invalidCmdThreshold invalidCmdTimeWindow
      w).raised = true → (start now controlLossTimeout invalidCmdThreshold
        invalidCmdTimeWindow w).monitor.stopped = true := fun h => by cases h
  have hiff : Always (step fn) (fun s => s.raised = true → s.monitor.stopped = true)
        (start now controlLossTimeout invalidCmdThreshold invalidCmdTimeWindow w) ops ↔
      Steps (step fn) (fun s op => clearsLatch s op = false)
        (start now controlLossTimeout invalidCmdThreshold invalidCmdTimeWindow w) ops :=
    Machine.always_iff_steps (loss_step fn) (fun s op _ hp => latch_step_iff fn op hp) hloss hlatch
  constructor
  · exact fun h => hiff.mp (Always.imp (fun s hs => hs.latch) h.1)
  · intro h
    have hstep (s : MonitorRun ω) (op : MonitorOp) (hs : Sound s) (hop : clearsLatch s op = false) :
        Sound (step fn s op) :=
      ⟨loss_step fn s op hs.loss, (latch_step_iff fn op hs.latch).mpr hop⟩
    exact ⟨Machine.always_of_steps hstep ⟨hloss, hlatch⟩ h,
      Machine.steps_of_steps hstep (fun s op hs hop => honest_step fn hs hop) ⟨hloss, hlatch⟩ h⟩

end MonitorRun

/-- The monitor loses control, one invalid command is one too many, and the
next valid one clears the stop. -/
theorem sound_fails :
    ¬ ∀ (fn : SafeStopCallback Unit) (now : Time) (controlLossTimeout : Duration)
      (invalidCmdThreshold : Int) (invalidCmdTimeWindow : Duration) (ops : List MonitorOp),
      Always (MonitorRun.step fn) MonitorRun.Sound
          (.start now controlLossTimeout invalidCmdThreshold invalidCmdTimeWindow ()) ops ∧
        Steps (MonitorRun.step fn) (MonitorRun.Honest fn)
          (.start now controlLossTimeout invalidCmdThreshold invalidCmdTimeWindow ()) ops := by
  intro h
  -- the time-out is 500 ms, and the first invalid command reaches the threshold
  have hsound := (h (fun t w => (⟨t, 0, none⟩, w)) 0 (500 * millisecond) 1 0
    [.elapse 501000000, .checkControlLoss, .onInvalidCommand, .onValidControl]).1
  exact absurd (hsound.last.latch rfl) (by decide)

end ChainKVM.Robot
