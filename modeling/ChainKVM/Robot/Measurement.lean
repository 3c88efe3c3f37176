import ChainKVM.Robot.Collectors
import ChainKVM.Robot.Interleave

/-!
# Revocation measurements over whole runs: `OnRevoked` and `onSafeStop`

`OnRevoked` leaves its record in `currentRevocation` for the safe-stop callback
to complete. The callback runs for every trigger, and it does not run for the
revocation's own trigger when the monitor is stopped already. The record of
such a call stays behind and is completed by the next stop, whatever that is
for, or is overwritten by the next revocation.

The invariant `Tracked` follows the record of the one call that is under way
through the stages of its handler. It lasts as long as every move is
`Undisturbed`, and every other move shows at once: the number of pending
measurements is no longer the number of calls under way
(`revocation_measured_iff`).
-/

namespace ChainKVM.Robot

open Machine Prog

/-! ## What is measured -/

/-- The stages of a revocation in the order in which they should be stamped. -/
structure RevocationTimestamps.InOrder (r : RevocationTimestamps) : Prop where
  started : r.messageReceived ≤ r.handlerStarted
  closed : r.handlerStarted ≤ r.transportClosed
  terminated : r.transportClosed ≤ r.sessionTerminated
  triggered : r.sessionTerminated ≤ r.safeStopTriggered
  hardware : r.safeStopTriggered ≤ r.hardwareStopIssued
  completed : r.hardwareStopIssued ≤ r.safeStopCompleted

/-- The records that are not pending. -/
def RevocationLog.finished (l : RevocationLog) : List RevocationTimestamps :=
  match l.currentRevocation with
  | none => l.records
  | some i => l.records.eraseIdx i

/-- The next operation of a handler. -/
def nextOp : AgentProg Unit → Option AgentOp
  | .ret _ => none
  | .op o _ => some o

/-- An `OnRevoked` call that has allocated its record. -/
def callStarted (th : Task × AgentProg Unit) : Bool :=
  th.1.isRevoked && match nextOp th.2 with
    | some (.startRevocation _) => false
    | _ => true

/-- An `OnRevoked` call that has allocated its record and has not triggered its
safe-stop yet. -/
def callUnderWay (th : Task × AgentProg Unit) : Bool :=
  th.1.isRevoked && match nextOp th.2 with
    | none | some (.startRevocation _) | some (.publishRevoked _ _) => false
    | _ => true

/-- Every `OnRevoked` call has one record; a record is pending exactly while
its call is under way, and the others are complete and have been collected
(the collector keeps the last 100). -/
structure Measured (b : Agent.Busy) : Prop where
  started : b.shared.revocation.records.length = b.threads.countP callStarted
  pending : (if b.shared.revocation.currentRevocation.isSome then 1 else 0) =
    b.threads.countP callUnderWay
  collected : b.shared.revocation.revocationMetrics.measurements =
    b.shared.revocation.finished.rtake 100
  ordered : ∀ r ∈ b.shared.revocation.finished, r.InOrder

/-- Would an operation run the safe-stop callback? -/
def runsCallback (a : Agent) : AgentOp → Bool
  | .onEStop | .onTokenExpired | .onRevoked => !a.safety.stopped
  | .onInvalidCommand => !a.safety.stopped &&
    decide (a.safety.invalidCmdThreshold ≤ (a.safety.countInvalid a.now).invalidCmdCount)
  | .checkControlLoss => !a.safety.stopped &&
    decide (a.safety.controlLossTimeout < sub a.now a.safety.lastControlTime)
  | _ => false

/-- A move that leaves the measurements alone: a revocation does not start while
another is pending, it triggers its stop on a monitor that is not stopped, and
nothing else stops the monitor while it is pending. -/
structure Undisturbed (b : Agent.Busy) (m : Move Task Nat) : Prop where
  start : ∀ t sid, b.next m = some (t, .startRevocation sid) →
    b.shared.revocation.currentRevocation = none
  own : ∀ t, b.next m = some (t, .onRevoked) → t.isRevoked = true →
    b.shared.safety.stopped = false
  other : ∀ t o, b.next m = some (t, o) → t.isRevoked = false → runsCallback b.shared o = true →
    b.shared.revocation.currentRevocation = none

/-! ## The log -/

/-- What the safe-stop callback does to the log. -/
def RevocationLog.finish (l : RevocationLog) (now : Time) : RevocationLog :=
  (l.recordTimestamp now .hardwareStopIssued).complete now

/-- What it does to the pending record. -/
def RevocationTimestamps.close (r : RevocationTimestamps) (now : Time) : RevocationTimestamps :=
  (r.stamp now .hardwareStopIssued).stamp now .safeStopCompleted

/-- The collector after the records `done`. -/
def collectedOf (done : List RevocationTimestamps) : RevocationCollector := ⟨done.rtake 100, 100⟩

/-- The log with nothing pending. -/
def idleLog (done : List RevocationTimestamps) : RevocationLog := ⟨done, none, collectedOf done⟩

/-- The log with `r` pending. -/
def pendingLog (done : List RevocationTimestamps) (r : RevocationTimestamps) : RevocationLog :=
  ⟨done ++ [r], some done.length, collectedOf done⟩

theorem finished_idleLog (done : List RevocationTimestamps) :
    (idleLog done).finished = done := rfl

theorem finished_pendingLog (done : List RevocationTimestamps) (r : RevocationTimestamps) :
    (pendingLog done r).finished = done := by
  show (done ++ [r]).eraseIdx done.length = done
  rw [List.eraseIdx_append_of_length_le (Nat.le_refl _), Nat.sub_self]
  exact List.append_nil done

theorem start_idleLog (done : List RevocationTimestamps) (sid : String) (now : Time) :
    (idleLog done).start sid now = (done.length, pendingLog done (.start sid now)) := rfl

theorem modify_last (done : List RevocationTimestamps) (r : RevocationTimestamps)
    (f : RevocationTimestamps → RevocationTimestamps) :
    (done ++ [r]).modify done.length f = done ++ [f r] := by
  rw [List.modify_eq_take_cons_drop (by simp)]
  simp

theorem stamp_pendingLog (done : List RevocationTimestamps) (r : RevocationTimestamps)
    (now : Time) (stage : RevocationStage) :
    (pendingLog done r).stamp done.length now stage = pendingLog done (r.stamp now stage) := by
  unfold pendingLog RevocationLog.stamp
  dsimp only
  rw [modify_last]

theorem finish_of_none {l : RevocationLog} (h : l.currentRevocation = none) (now : Time) :
    l.finish now = l := by
  unfold RevocationLog.finish RevocationLog.recordTimestamp
  rw [h]
  dsimp only
  unfold RevocationLog.complete
  rw [h]

theorem record_collectedOf (done : List RevocationTimestamps) (r : RevocationTimestamps) :
    (collectedOf done).record r = collectedOf (done ++ [r]) := by
  have hlast := Recent.push_rtake (show 0 < 100 by omega) done r
  rw [RevocationCollector.record_eq]
  exact congrArg (RevocationCollector.mk · 100) hlast

/-- The callback closes the pending record and collects it. -/
theorem finish_pendingLog (done : List RevocationTimestamps) (r : RevocationTimestamps)
    (now : Time) : (pendingLog done r).finish now = idleLog (done ++ [r.close now]) := by
  have hhardware : (pendingLog done r).recordTimestamp now .hardwareStopIssued
      = pendingLog done (r.stamp now .hardwareStopIssued) := stamp_pendingLog done r now _
  have hcompleted := stamp_pendingLog done (r.stamp now .hardwareStopIssued) now .safeStopCompleted
  have hget : (pendingLog done (r.close now)).records[done.length]? = some (r.close now) := by
    simp [pendingLog]
  unfold RevocationLog.finish RevocationLog.complete
  rw [hhardware]
  simp only [show ∀ r', (pendingLog done r').currentRevocation = some done.length from fun _ => rfl,
    hcompleted]
  rw [show (r.stamp now .hardwareStopIssued).stamp now .safeStopCompleted = r.close now from rfl]
  simp only [hget]
  show (⟨done ++ [r.close now], none, (collectedOf done).record (r.close now)⟩ : RevocationLog) = _
  rw [record_collectedOf]
  rfl

/-! ## What an operation does to the log -/

namespace Agent

@[simp] theorem publishAuditEvent_revocation (t : Trigger) (a : Agent) :
    (a.publishAuditEvent t).revocation = a.revocation := by
  unfold publishAuditEvent
  split <;> rfl

@[simp] theorem sendData_revocation (msg : Outgoing) (a : Agent) :
    (a.sendData msg).revocation = a.revocation := by
  unfold sendData
  split <;> rfl

theorem onSafeStop_revocation (ext : External) (t : Trigger) (a : Agent) :
    (onSafeStop ext t a).2.revocation = a.revocation.finish a.now := by
  have hhalt : (a.executeHardwareStop ext).2 = { a with calls := .eStop :: a.calls } := by
    unfold executeHardwareStop callRobot
    cases ext.robot a.calls .eStop <;> rfl
  have hsend : ∀ msg b, (sendData msg b).now = b.now := fun msg b =>
    congrArg Core.now (sendData_core msg b)
  have hpublish : ∀ b, (publishAuditEvent t b).now = b.now := fun b =>
    congrArg Core.now (publishAuditEvent_core t b)
  simp only [onSafeStop, sendStateNotification, sendData_revocation, hsend, hpublish,
    publishAuditEvent_revocation, hhalt]
  rfl

/-- A method of the monitor that ends in a trigger. -/
theorem onMonitor_trigger_revocation {ext : External} {t : Trigger} {m : Monitor} {a : Agent}
    {f : Monitor → Agent → Monitor × Agent}
    (hf : f a.safety a = m.triggerSafeStop (some (onSafeStop ext)) t a) :
    (a.onMonitor f).revocation =
      if m.stopped then a.revocation else a.revocation.finish a.now := by
  rcases m.triggerSafeStop_cases (onSafeStop ext) t a with ⟨hst, h⟩ | ⟨hst, h⟩
  · rw [hst]
    simp only [onMonitor, hf, h, if_true]
  · rw [hst]
    simp only [onMonitor, hf, h, onSafeStop_revocation]
    rfl

end Agent

/-- The operations that write the log themselves. -/
def writesLog : AgentOp → Prop
  | .startRevocation _ | .stampRevocation _ _ => True
  | _ => False

/-- Any other operation touches the log only through the callback. -/
theorem sem_revocation (ext : External) {o : AgentOp} (ho : ¬ writesLog o) (a : Agent) :
    (sem ext o a).2.revocation =
      if runsCallback a o then a.revocation.finish a.now else a.revocation := by
  have htrigger : ∀ t, (a.onMonitor (Monitor.onNonRecoverable (some (Agent.onSafeStop ext)) t)).revocation
      = if !a.safety.stopped then a.revocation.finish a.now else a.revocation := by
    intro t
    have hf : Monitor.onNonRecoverable (some (Agent.onSafeStop ext)) t a.safety a =
        Monitor.triggerSafeStop (some (Agent.onSafeStop ext)) t
          { a.safety with inControlLoss := false } a := rfl
    rw [Agent.onMonitor_trigger_revocation hf]
    cases a.safety.stopped <;> rfl
  cases o with
  | startRevocation sid => exact absurd trivial ho
  | stampRevocation ts stage => exact absurd trivial ho
  | onEStop => exact htrigger .eStop
  | onTokenExpired => exact htrigger .tokenExpired
  | onRevoked => exact htrigger .revoked
  | onInvalidCommand =>
    show (a.onMonitor (Monitor.onInvalidCommand (some (Agent.onSafeStop ext)) a.now)).revocation
      = if (!a.safety.stopped && decide (a.safety.invalidCmdThreshold ≤
          (a.safety.countInvalid a.now).invalidCmdCount)) = true then _ else _
    by_cases hle : a.safety.invalidCmdThreshold ≤ (a.safety.countInvalid a.now).invalidCmdCount
    · have hf : Monitor.onInvalidCommand (some (Agent.onSafeStop ext)) a.now a.safety a =
          (a.safety.countInvalid a.now).triggerSafeStop (some (Agent.onSafeStop ext)) .invalidCmds a := by
        simp only [Monitor.onInvalidCommand, Monitor.countInvalid_invalidCmdThreshold, if_pos hle]
      rw [Agent.onMonitor_trigger_revocation hf, Monitor.countInvalid_stopped, decide_eq_true hle]
      cases a.safety.stopped <;> rfl
    · rw [decide_eq_false hle, Bool.and_false]
      simp only [Agent.onMonitor, Monitor.onInvalidCommand,
        Monitor.countInvalid_invalidCmdThreshold, if_neg hle]
      rfl
  | checkControlLoss =>
    show (a.onMonitor (Monitor.checkControlLoss (some (Agent.onSafeStop ext)) a.now)).revocation
      = if (!a.safety.stopped && decide (a.safety.controlLossTimeout <
          sub a.now a.safety.lastControlTime)) = true then _ else _
    cases hst : a.safety.stopped with
    | true => simp [Agent.onMonitor, Monitor.checkControlLoss, hst]
    | false =>
      by_cases hlt : a.safety.controlLossTimeout < sub a.now a.safety.lastControlTime
      · have hf : Monitor.checkControlLoss (some (Agent.onSafeStop ext)) a.now a.safety a =
            Monitor.triggerSafeStop (some (Agent.onSafeStop ext)) .controlLoss
              { a.safety with inControlLoss := true } a := by
          simp [Monitor.checkControlLoss, hst, hlt]
        rw [Agent.onMonitor_trigger_revocation hf, decide_eq_true hlt, hst]
        rfl
      · simp [Agent.onMonitor, Monitor.checkControlLoss, hst, hlt]
  | sendData msg => exact a.sendData_revocation msg
  | _ => rfl

/-- No operation takes time. -/
theorem sem_now (ext : External) (o : AgentOp) (a : Agent) : (sem ext o a).2.now = a.now := by
  cases o with
  | onEStop => exact (a.nonRecoverable_latch ext .eStop).now_eq
  | onTokenExpired => exact (a.nonRecoverable_latch ext .tokenExpired).now_eq
  | onRevoked => exact (a.nonRecoverable_latch ext .revoked).now_eq
  | onInvalidCommand => exact (a.invalidCommand_count ext).now_eq
  | checkControlLoss => exact (a.checkControlLoss_check ext).now_eq
  | sendData msg => exact congrArg Core.now (a.sendData_core msg)
  | _ => rfl

/-! ## The handlers -/

/-- What is left of `OnRevoked`, by the number of operations before the audit
event. -/
def callTail (ts : Nat) (sid reason : String) (k : Nat) : AgentProg Unit :=
  let publish := perform (.publishRevoked sid reason)
  let stop := .op .onRevoked fun _ => publish
  let triggered := .op (.stampRevocation ts .safeStopTriggered) fun _ => stop
  let terminated := .op (.stampRevocation ts .sessionTerminated) fun _ => triggered
  let terminate := .op .terminate fun _ => terminated
  let closed := .op (.stampRevocation ts .transportClosed) fun _ => terminate
  let close := .op .closeTransport fun _ => closed
  match k with
  | 0 => publish
  | 1 => stop
  | 2 => triggered
  | 3 => terminated
  | 4 => terminate
  | 5 => closed
  | 6 => close
  | _ => .op (.stampRevocation ts .handlerStarted) fun _ => close

theorem onRevoked_eq (sid reason : String) :
    onRevoked sid reason = .op (.startRevocation sid) fun ts => callTail ts sid reason 7 := rfl

/-- A handler that never writes the log itself. -/
abbrev Unlogged (p : AgentProg Unit) : Prop :=
  Until (fun _ _ => False) writesLog True p

theorem code_unlogged (ext : External) {t : Task} (ht : t.isRevoked = false) :
    Unlogged (t.code ext) := by
  have hbad : ∀ o : AgentOp, (∀ sid, o ≠ .startRevocation sid) →
      (∀ ts stage, o ≠ .stampRevocation ts stage) → ¬ writesLog o := by
    intro o hstart hstamp hw
    cases o with
    | startRevocation sid => exact hstart sid rfl
    | stampRevocation ts stage => exact hstamp ts stage rfl
    | _ => exact hw
  refine code_until (fun o _ _ hstart hstamp => hbad o hstart hstamp) (by simp [writesLog])
    (fun validate call => ?_) (fun info => ?_) ext t fun sid reason heq => ?_
  · simp only [Handler.handleMotion, Handler.hasScope, Handler.notifyInvalid, Handler.notifyValid,
      Handler.wired, if_true, perform_bind, until_op]
    refine ⟨by simp [writesLog], fun r _ => ?_⟩
    cases r with
    | false => simp
    | true =>
      refine ⟨by simp [writesLog], fun now _ => ?_⟩
      cases hv : validate now with
      | some err => simp [hv, writesLog]
      | none =>
        simp only [hv, until_op]
        refine ⟨by simp [writesLog], fun r _ => ?_⟩
        cases r <;> simp [writesLog]
  · simp only [onStateChange, perform_bind, until_op]
    refine ⟨by simp [writesLog], fun r _ => ?_⟩
    cases r <;> simp [writesLog]
  · rw [heq] at ht
    cases ht

/-- A handler that is not a call under way. -/
inductive Quiet : Task × AgentProg Unit → Prop where
  | other {t : Task} {p : AgentProg Unit} (ht : t.isRevoked = false) (hp : Unlogged p) :
    Quiet (t, p)
  | waiting (sid reason : String) : Quiet (.revoked sid reason, onRevoked sid reason)
  | stopped (ts : Nat) (sid reason : String) :
    Quiet (.revoked sid reason, callTail ts sid reason 0)
  | returned (sid reason : String) : Quiet (.revoked sid reason, .ret ())

theorem quiet_code (ext : External) (t : Task) : Quiet (t, t.code ext) := by
  by_cases ht : t.isRevoked = false
  · exact .other ht (code_unlogged ext ht)
  · cases t with
    | revoked sid reason => exact .waiting sid reason
    | _ => exact absurd rfl ht

theorem Quiet.not_underWay {th : Task × AgentProg Unit} (h : Quiet th) :
    callUnderWay th = false := by
  cases h with
  | other ht _ =>
    unfold callUnderWay
    rw [ht]
    rfl
  | _ => rfl

theorem underWay_callTail (ts : Nat) (sid reason : String) {k : Nat} (hk : 1 ≤ k) (hk' : k ≤ 7) :
    callUnderWay (.revoked sid reason, callTail ts sid reason k) = true ∧
      callStarted (.revoked sid reason, callTail ts sid reason k) = true := by
  have hcases : k = 1 ∨ k = 2 ∨ k = 3 ∨ k = 4 ∨ k = 5 ∨ k = 6 ∨ k = 7 := by omega
  rcases hcases with rfl | rfl | rfl | rfl | rfl | rfl | rfl <;> exact ⟨rfl, rfl⟩

/-- The stamps of a record whose call has `k` operations left. -/
structure Progress (r : RevocationTimestamps) (k : Nat) (now : Time) : Prop where
  received : r.messageReceived ≤ now
  started : k ≤ 6 → r.messageReceived ≤ r.handlerStarted ∧ r.handlerStarted ≤ now
  closed : k ≤ 4 → r.handlerStarted ≤ r.transportClosed ∧ r.transportClosed ≤ now
  terminated : k ≤ 2 → r.transportClosed ≤ r.sessionTerminated ∧ r.sessionTerminated ≤ now
  triggered : k ≤ 1 → r.sessionTerminated ≤ r.safeStopTriggered ∧ r.safeStopTriggered ≤ now

theorem Progress.mono {r : RevocationTimestamps} {k : Nat} {now now' : Time}
    (h : Progress r k now) (hle : now ≤ now') : Progress r k now' where
  received := le_trans h.received hle
  started hk := ⟨(h.started hk).1, le_trans (h.started hk).2 hle⟩
  closed hk := ⟨(h.closed hk).1, le_trans (h.closed hk).2 hle⟩
  terminated hk := ⟨(h.terminated hk).1, le_trans (h.terminated hk).2 hle⟩
  triggered hk := ⟨(h.triggered hk).1, le_trans (h.triggered hk).2 hle⟩

theorem Progress.close {r : RevocationTimestamps} {now : Time} (h : Progress r 1 now) :
    (r.close now).InOrder where
  started := (h.started (by omega)).1
  closed := (h.closed (by omega)).1
  terminated := (h.terminated (by omega)).1
  triggered := (h.triggered (by omega)).1
  hardware := (h.triggered (by omega)).2
  completed := le_refl _

/-- What an operation of the call itself does, short of the stop. -/
theorem Progress.step (ext : External) {done : List RevocationTimestamps}
    {r : RevocationTimestamps} {k : Nat} {a : Agent} (h : Progress r (k + 1) a.now)
    (hk : 1 ≤ k) (hk' : k ≤ 6) (hlog : a.revocation = pendingLog done r) (sid reason : String) :
    ∃ o next r', callTail done.length sid reason (k + 1) = .op o next ∧
      (sem ext o a).2.revocation = pendingLog done r' ∧ Progress r' k a.now ∧
      next (sem ext o a).1 = callTail done.length sid reason k := by
  have hstamp : ∀ stage, (sem ext (.stampRevocation done.length stage) a).2.revocation
      = pendingLog done (r.stamp a.now stage) := by
    intro stage
    show a.revocation.stamp done.length a.now stage = _
    rw [hlog, stamp_pendingLog]
  have hcases : k = 1 ∨ k = 2 ∨ k = 3 ∨ k = 4 ∨ k = 5 ∨ k = 6 := by omega
  rcases hcases with rfl | rfl | rfl | rfl | rfl | rfl
  · refine ⟨_, _, _, rfl, hstamp .safeStopTriggered, ?_, rfl⟩
    exact ⟨h.received, fun _ => h.started (by omega), fun _ => h.closed (by omega),
      fun _ => h.terminated (by omega), fun _ => ⟨(h.terminated (by omega)).2, le_refl _⟩⟩
  · refine ⟨_, _, _, rfl, hstamp .sessionTerminated, ?_, rfl⟩
    exact ⟨h.received, fun _ => h.started (by omega), fun _ => h.closed (by omega),
      fun _ => ⟨(h.closed (by omega)).2, le_refl _⟩, fun hle => by omega⟩
  · refine ⟨_, _, _, rfl, hlog, ?_, rfl⟩
    exact ⟨h.received, fun _ => h.started (by omega), fun _ => h.closed (by omega),
      fun hle => by omega, fun hle => by omega⟩
  · refine ⟨_, _, _, rfl, hstamp .transportClosed, ?_, rfl⟩
    exact ⟨h.received, fun _ => h.started (by omega),
      fun _ => ⟨(h.started (by omega)).2, le_refl _⟩, fun hle => by omega, fun hle => by omega⟩
  · refine ⟨_, _, _, rfl, hlog, ?_, rfl⟩
    exact ⟨h.received, fun _ => h.started (by omega), fun hle => by omega,
      fun hle => by omega, fun hle => by omega⟩
  · refine ⟨_, _, _, rfl, hstamp .handlerStarted, ?_, rfl⟩
    exact ⟨h.received, fun _ => ⟨h.received, le_refl _⟩, fun hle => by omega,
      fun hle => by omega, fun hle => by omega⟩

/-! ## The invariant -/

/-- The measurements, with the record of the call under way followed through
the stages of its handler. -/
inductive Tracked (b : Agent.Busy) : Prop where
  | idle (done : List RevocationTimestamps)
    (hlog : b.shared.revocation = idleLog done) (hdone : ∀ r ∈ done, r.InOrder)
    (hcalls : done.length = b.threads.countP callStarted)
    (hquiet : ∀ (i : Nat) th, b.threads[i]? = some th → Quiet th)
  | underWay (done : List RevocationTimestamps) (r : RevocationTimestamps) (i : Nat)
    (sid reason : String) (k : Nat)
    (hlog : b.shared.revocation = pendingLog done r) (hdone : ∀ r ∈ done, r.InOrder)
    (hcalls : done.length + 1 = b.threads.countP callStarted)
    (hr : Progress r k b.shared.now) (hk : 1 ≤ k ∧ k ≤ 7)
    (hcall : b.threads[i]? = some (.revoked sid reason, callTail done.length sid reason k))
    (hothers : ∀ (j : Nat) th, b.threads[j]? = some th → j ≠ i → Quiet th)

theorem countP_underWay_eq_zero {threads : List (Task × AgentProg Unit)}
    (hquiet : ∀ (i : Nat) th, threads[i]? = some th → Quiet th) : threads.countP callUnderWay = 0 := by
  refine List.countP_eq_zero.mpr fun th hth => ?_
  obtain ⟨i, hi⟩ := List.getElem?_of_mem hth
  simp [(hquiet i th hi).not_underWay]

theorem Tracked.measured {b : Agent.Busy} (h : Tracked b) : Measured b := by
  cases h with
  | idle done hlog hdone hcalls hquiet =>
    constructor
    · rw [hlog]
      exact hcalls
    · rw [hlog, countP_underWay_eq_zero hquiet]
      rfl
    · rw [hlog, finished_idleLog]
      rfl
    · rw [hlog, finished_idleLog]
      exact hdone
  | underWay done r i sid reason k hlog hdone hcalls hr hk hcall hothers =>
    have hone : b.threads.countP callUnderWay = 1 :=
      Pool.countP_eq_one hcall (underWay_callTail _ sid reason hk.1 hk.2).1
        fun j th hj hne => (hothers j th hj hne).not_underWay
    constructor
    · rw [hlog, ← hcalls]
      exact List.length_append
    · rw [hlog, hone]
      rfl
    · rw [hlog, finished_pendingLog]
      rfl
    · rw [hlog, finished_pendingLog]
      exact hdone

/-- An operation of a quiet handler leaves it quiet, or starts a call. -/
theorem Quiet.step (ext : External) {t : Task} {o : AgentOp} {next : o.Ans → AgentProg Unit}
    (h : Quiet (t, .op o next)) (a : Agent) :
    (¬ writesLog o ∧ (t.isRevoked = true → runsCallback a o = false) ∧
      Quiet (t, next (sem ext o a).1) ∧
      callStarted (t, next (sem ext o a).1) = callStarted (t, .op o next)) ∨
    ∃ sid reason, t = .revoked sid reason ∧
      Prog.op o next = .op (.startRevocation sid) fun ts => callTail ts sid reason 7 := by
  generalize hth : (t, Prog.op o next) = th at h
  cases h with
  | other ht hp =>
    obtain ⟨rfl, rfl⟩ := Prod.mk.inj hth
    refine Or.inl ⟨hp.1, fun ht' => ?_, .other ht (hp.2 _ id), ?_⟩
    · rw [ht] at ht'
      cases ht'
    · unfold callStarted
      rw [ht]
      rfl
  | waiting sid reason =>
    obtain ⟨rfl, heq⟩ := Prod.mk.inj hth
    exact Or.inr ⟨sid, reason, rfl, heq.trans (onRevoked_eq sid reason)⟩
  | stopped ts sid reason =>
    obtain ⟨rfl, heq⟩ := Prod.mk.inj hth
    cases heq
    exact Or.inl ⟨id, fun _ => rfl, .returned sid reason, rfl⟩
  | returned sid reason =>
    obtain ⟨-, heq⟩ := Prod.mk.inj hth
    cases heq

theorem Quiet.ne_call {th : Task × AgentProg Unit} (h : Quiet th) {ts : Nat} {sid reason : String}
    {k : Nat} (hk : 1 ≤ k ∧ k ≤ 7) : th ≠ (.revoked sid reason, callTail ts sid reason k) := by
  intro heq
  have hnot := h.not_underWay
  rw [heq, (underWay_callTail ts sid reason hk.1 hk.2).1] at hnot
  cases hnot

/-- Replacing a quiet handler by a quiet one that has made the same calls. -/
theorem Tracked.set_quiet {b : Agent.Busy} (h : Tracked b) {a : Agent}
    (hlog : a.revocation = b.shared.revocation) (hnow : a.now = b.shared.now) {i : Nat}
    {th th' : Task × AgentProg Unit} (hi : b.threads[i]? = some th) (hth : Quiet th)
    (hth' : Quiet th') (hstarted : callStarted th' = callStarted th) :
    Tracked ⟨a, b.threads.set i th'⟩ := by
  have hcount := Pool.countP_set_of_eq hi hstarted
  cases h with
  | idle done hidle hdone hcalls hquiet =>
    refine .idle done (hlog.trans hidle) hdone (hcalls.trans hcount.symm) fun j x hj => ?_
    rcases Pool.getElem?_set_cases hj with ⟨-, rfl⟩ | ⟨-, hold⟩
    · exact hth'
    · exact hquiet j x hold
  | underWay done r c sid reason k hpending hdone hcalls hr hk hcall hothers =>
    have hne : c ≠ i := by
      intro heq
      subst heq
      exact hth.ne_call hk (Option.some.inj (hi.symm.trans hcall))
    refine .underWay done r c sid reason k (hlog.trans hpending) hdone (hcalls.trans hcount.symm)
      (hnow ▸ hr) hk ?_ fun j x hj hjc => ?_
    · show (b.threads.set i th')[c]? = _
      rw [List.getElem?_set_ne fun he => hne he.symm]
      exact hcall
    · rcases Pool.getElem?_set_cases hj with ⟨-, rfl⟩ | ⟨-, hold⟩
      · exact hth'
      · exact hothers j x hold hjc

theorem Tracked.spawn {b : Agent.Busy} (h : Tracked b) (ext : External) (t : Task) :
    Tracked { b with threads := b.threads ++ [(t, t.code ext)] } := by
  have hstarted : callStarted (t, t.code ext) = false := by
    cases t <;> rfl
  have hcount : (b.threads ++ [(t, t.code ext)]).countP callStarted
      = b.threads.countP callStarted := by
    rw [List.countP_append, List.countP_singleton, hstarted]
    rfl
  have hget : ∀ (j : Nat) x, (b.threads ++ [(t, t.code ext)])[j]? = some x →
      b.threads[j]? = some x ∨ x = (t, t.code ext) := by
    intro j x hj
    rcases Nat.lt_or_ge j b.threads.length with hlt | hge
    · rw [List.getElem?_append_left hlt] at hj
      exact Or.inl hj
    · rw [List.getElem?_append_right hge] at hj
      exact Or.inr (List.mem_singleton.mp (List.mem_of_getElem? hj))
  cases h with
  | idle done hlog hdone hcalls hquiet =>
    refine .idle done hlog hdone (hcalls.trans hcount.symm) fun j x hj => ?_
    rcases hget j x hj with hold | rfl
    · exact hquiet j x hold
    · exact quiet_code ext t
  | underWay done r c sid reason k hlog hdone hcalls hr hk hcall hothers =>
    obtain ⟨hlt, -⟩ := List.getElem?_eq_some_iff.mp hcall
    refine .underWay done r c sid reason k hlog hdone (hcalls.trans hcount.symm) hr hk ?_
      fun j x hj hjc => ?_
    · show (b.threads ++ [(t, t.code ext)])[c]? = _
      rw [List.getElem?_append_left hlt]
      exact hcall
    · rcases hget j x hj with hold | rfl
      · exact hothers j x hold hjc
      · exact quiet_code ext t

theorem Tracked.elapse {b : Agent.Busy} (h : Tracked b) (d : Nat) :
    Tracked { b with shared := b.shared.elapse d } := by
  cases h with
  | idle done hlog hdone hcalls hquiet => exact .idle done hlog hdone hcalls hquiet
  | underWay done r c sid reason k hlog hdone hcalls hr hk hcall hothers =>
    have hle : b.shared.now ≤ b.shared.now + d := Int.le_add_of_nonneg_right (Int.natCast_nonneg d)
    exact .underWay done r c sid reason k hlog hdone hcalls (hr.mono hle) hk hcall hothers

/-! ## Steps -/

/-- The first operation of a call, with nothing pending. -/
theorem Tracked.start {b : Agent.Busy} (h : Tracked b)
    (hnone : b.shared.revocation.currentRevocation = none) (ext : External) {i : Nat}
    {sid reason : String} {p : AgentProg Unit} (hi : b.threads[i]? = some (.revoked sid reason, p))
    (hp : p = .op (.startRevocation sid) fun ts => callTail ts sid reason 7) :
    Tracked ⟨(sem ext (.startRevocation sid) b.shared).2,
      b.threads.set i (.revoked sid reason,
        callTail (sem ext (.startRevocation sid) b.shared).1 sid reason 7)⟩ := by
  subst hp
  obtain ⟨hlt, -⟩ := List.getElem?_eq_some_iff.mp hi
  cases h with
  | underWay done r c sid' reason' k hlog =>
    rw [hlog] at hnone
    cases hnone
  | idle done hlog hdone hcalls hquiet =>
    have hts : (sem ext (.startRevocation sid) b.shared).1 = done.length := by
      show (b.shared.revocation.start sid b.shared.now).1 = _
      rw [hlog, start_idleLog]
    have hnew : (sem ext (.startRevocation sid) b.shared).2.revocation
        = pendingLog done (.start sid b.shared.now) := by
      show (b.shared.revocation.start sid b.shared.now).2 = _
      rw [hlog, start_idleLog]
    rw [hts]
    refine .underWay done (.start sid b.shared.now) i sid reason 7 hnew hdone ?_ ?_ (by omega) ?_ ?_
    · have hcount := Pool.countP_set_add callStarted hi
        (.revoked sid reason, callTail done.length sid reason 7)
      rw [(underWay_callTail done.length sid reason (by omega) (by omega)).2, ← hcalls] at hcount
      exact hcount.symm
    · exact ⟨le_refl _, fun hle => by omega, fun hle => by omega, fun hle => by omega,
        fun hle => by omega⟩
    · exact List.getElem?_set_self hlt
    · intro j th hj hne
      rcases Pool.getElem?_set_cases hj with ⟨hji, -⟩ | ⟨-, hold⟩
      · exact absurd hji hne
      · exact hquiet j th hold

/-- An operation of a quiet handler. -/
theorem Tracked.quiet_op {b : Agent.Busy} (h : Tracked b) (ext : External) {i : Nat} {t : Task}
    {o : AgentOp} {next : o.Ans → AgentProg Unit} (hi : b.threads[i]? = some (t, .op o next))
    (hq : Quiet (t, .op o next))
    (hstart : ∀ sid, o = .startRevocation sid → b.shared.revocation.currentRevocation = none)
    (hother : t.isRevoked = false → runsCallback b.shared o = true →
      b.shared.revocation.currentRevocation = none) :
    Tracked ⟨(sem ext o b.shared).2, b.threads.set i (t, next (sem ext o b.shared).1)⟩ := by
  rcases hq.step ext b.shared with ⟨hw, hrevoked, hq', hstarted⟩ | ⟨sid, reason, rfl, heq⟩
  · have hsame : (sem ext o b.shared).2.revocation = b.shared.revocation := by
      rw [sem_revocation ext hw]
      split
      next hruns =>
        -- the callback finds nothing pending
        refine finish_of_none (hother ?_ hruns) _
        cases ht : t.isRevoked with
        | false => rfl
        | true => exact absurd (hrevoked ht) (by simp [hruns])
      next => rfl
    exact h.set_quiet hsame (sem_now ext o b.shared) hi hq hq' hstarted
  · cases heq
    exact h.start (hstart sid rfl) ext hi rfl

/-- The stop of the call under way closes its record. -/
theorem Tracked.stop_op {b : Agent.Busy} (ext : External) {done : List RevocationTimestamps}
    {r : RevocationTimestamps} {i : Nat} {sid reason : String}
    (hlog : b.shared.revocation = pendingLog done r) (hdone : ∀ r ∈ done, r.InOrder)
    (hcalls : done.length + 1 = b.threads.countP callStarted) (hr : Progress r 1 b.shared.now)
    (hi : b.threads[i]? = some (.revoked sid reason, callTail done.length sid reason 1))
    (hothers : ∀ (j : Nat) th, b.threads[j]? = some th → j ≠ i → Quiet th)
    (hown : b.shared.safety.stopped = false) :
    Tracked ⟨(sem ext .onRevoked b.shared).2,
      b.threads.set i (.revoked sid reason, callTail done.length sid reason 0)⟩ := by
  have hruns : runsCallback b.shared .onRevoked = true := by
    show (!b.shared.safety.stopped) = true
    rw [hown]
    rfl
  have hnew : (sem ext .onRevoked b.shared).2.revocation
      = idleLog (done ++ [r.close b.shared.now]) := by
    rw [sem_revocation ext id, if_pos hruns, hlog, finish_pendingLog]
  refine .idle (done ++ [r.close b.shared.now]) hnew ?_ ?_ fun j th hj => ?_
  · intro x hx
    rcases List.mem_append.mp hx with hx | hx
    · exact hdone x hx
    · rw [List.mem_singleton.mp hx]
      exact hr.close
  · have hstarted : callStarted (.revoked sid reason, callTail done.length sid reason 0) =
        callStarted (.revoked sid reason, callTail done.length sid reason 1) := rfl
    rw [List.length_append]
    exact hcalls.trans (Pool.countP_set_of_eq hi hstarted).symm
  · rcases Pool.getElem?_set_cases hj with ⟨-, rfl⟩ | ⟨hne, hold⟩
    · exact .stopped done.length sid reason
    · exact hothers j th hold hne

/-- An operation of the call under way. -/
theorem Tracked.call_op {b : Agent.Busy} (ext : External) {done : List RevocationTimestamps}
    {r : RevocationTimestamps} {i : Nat} {sid reason : String} {k : Nat}
    (hlog : b.shared.revocation = pendingLog done r) (hdone : ∀ r ∈ done, r.InOrder)
    (hcalls : done.length + 1 = b.threads.countP callStarted)
    (hr : Progress r k b.shared.now) (hk : 1 ≤ k ∧ k ≤ 7) {o : AgentOp}
    {next : o.Ans → AgentProg Unit} (hi : b.threads[i]? = some (.revoked sid reason, .op o next))
    (hcall : .op o next = callTail done.length sid reason k)
    (hothers : ∀ (j : Nat) th, b.threads[j]? = some th → j ≠ i → Quiet th)
    (hown : o = .onRevoked → b.shared.safety.stopped = false) :
    Tracked ⟨(sem ext o b.shared).2,
      b.threads.set i (.revoked sid reason, next (sem ext o b.shared).1)⟩ := by
  obtain ⟨hlt, -⟩ := List.getElem?_eq_some_iff.mp hi
  obtain ⟨k, rfl⟩ := Nat.exists_eq_add_of_le' hk.1
  by_cases hstop : k = 0
  · subst hstop
    cases hcall
    exact stop_op ext hlog hdone hcalls hr hi hothers (hown rfl)
  · obtain ⟨o', next', r', hop, hlog', hr', hnext⟩ :=
      hr.step ext (by omega) (by omega) hlog sid reason
    cases hcall.trans hop
    have hrange : 1 ≤ k ∧ k ≤ 7 := by omega
    have hbefore := (underWay_callTail done.length sid reason hk.1 hk.2).2
    have hafter := (underWay_callTail done.length sid reason hrange.1 hrange.2).2
    rw [← hcall] at hbefore
    rw [hnext]
    refine .underWay done r' i sid reason k hlog' hdone ?_ (sem_now ext o b.shared ▸ hr') hrange
      (List.getElem?_set_self hlt) fun j th hj hne => ?_
    · exact hcalls.trans (Pool.countP_set_of_eq hi (hafter.trans hbefore.symm)).symm
    · rcases Pool.getElem?_set_cases hj with ⟨hji, -⟩ | ⟨-, hold⟩
      · exact absurd hji hne
      · exact hothers j th hold hne

theorem Tracked.step {ext : External} {b : Agent.Busy} {m : Move Task Nat} (h : Tracked b)
    (hc : Undisturbed b m) : Tracked (Agent.poolStep ext b m) := by
  show Tracked (Pool.step (Task.code ext) (sem ext) Agent.elapse b m)
  rcases Pool.step_cases (Task.code ext) (sem ext) Agent.elapse b m with
    ⟨t, -, -, hs⟩ | ⟨i, t, o, next, -, hi, hn, hs⟩ | ⟨-, hs⟩ | ⟨d, -, -, hs⟩
  · rw [hs]
    exact h.spawn ext t
  · rw [hs]
    have hquiet := fun hq => h.quiet_op ext hi hq (fun sid ho => hc.start t sid (ho ▸ hn))
      (hc.other t o hn)
    cases h with
    | idle done hlog hdone hcalls hall => exact hquiet (hall i _ hi)
    | underWay done r c sid reason k hlog hdone hcalls hr hk hcall hothers =>
      by_cases hci : i = c
      · subst hci
        obtain ⟨rfl, heq⟩ := Prod.mk.inj (Option.some.inj (hi.symm.trans hcall))
        exact Tracked.call_op ext hlog hdone hcalls hr hk hi heq hothers fun ho =>
          hc.own _ (ho ▸ hn) rfl
      · exact hquiet (hothers i _ hi hci)
  · rw [hs]
    exact h
  · rw [hs]
    exact h.elapse d

/-! ## Every other move shows -/

/-- A thread that performs an operation, by its index. -/
theorem sched_of_next (ext : External) {b : Agent.Busy} {m : Move Task Nat} {t : Task}
    {o : AgentOp} (hn : b.next m = some (t, o)) :
    ∃ (i : Nat) (next : o.Ans → AgentProg Unit), b.threads[i]? = some (t, .op o next) ∧
      Agent.poolStep ext b m =
        ⟨(sem ext o b.shared).2, b.threads.set i (t, next (sem ext o b.shared).1)⟩ := by
  rcases Pool.step_cases (Task.code ext) (sem ext) Agent.elapse b m with
    ⟨-, -, hnone, -⟩ | ⟨i, t', o', next, -, hi, hsome, hs⟩ | ⟨hnone, -⟩ | ⟨-, -, hnone, -⟩
  · rw [hnone] at hn
    cases hn
  · obtain ⟨rfl, rfl⟩ := Prod.mk.inj (Option.some.inj (hsome.symm.trans hn))
    exact ⟨i, next, hi, hs⟩
  · rw [hnone] at hn
    cases hn
  · rw [hnone] at hn
    cases hn

theorem Quiet.not_stop {t : Task} {next : AgentOp.onRevoked.Ans → AgentProg Unit}
    (h : Quiet (t, .op .onRevoked next)) : t.isRevoked = false := by
  generalize hth : (t, Prog.op AgentOp.onRevoked next) = th at h
  cases h with
  | other ht _ =>
    obtain ⟨rfl, -⟩ := Prod.mk.inj hth
    exact ht
  | _ =>
    obtain ⟨-, heq⟩ := Prod.mk.inj hth
    cases heq

/-- Only with one operation left does a call trigger its stop. -/
theorem eq_one_of_stop {ts : Nat} {sid reason : String} {k : Nat} (hk : 1 ≤ k ∧ k ≤ 7)
    {next : AgentOp.onRevoked.Ans → AgentProg Unit}
    (h : .op .onRevoked next = callTail ts sid reason k) :
    k = 1 ∧ next () = callTail ts sid reason 0 := by
  have hcases : k = 1 ∨ k = 2 ∨ k = 3 ∨ k = 4 ∨ k = 5 ∨ k = 6 ∨ k = 7 := by omega
  rcases hcases with rfl | rfl | rfl | rfl | rfl | rfl | rfl
  · cases h
    exact ⟨rfl, rfl⟩
  all_goals cases h

theorem callTail_ne_start {ts : Nat} {sid reason sid' : String} {k : Nat} (hk : 1 ≤ k ∧ k ≤ 7)
    {next : (AgentOp.startRevocation sid').Ans → AgentProg Unit} :
    .op (.startRevocation sid') next ≠ callTail ts sid reason k := by
  intro h
  have hcases : k = 1 ∨ k = 2 ∨ k = 3 ∨ k = 4 ∨ k = 5 ∨ k = 6 ∨ k = 7 := by omega
  rcases hcases with rfl | rfl | rfl | rfl | rfl | rfl | rfl <;> cases h

/-- With one call under way, an operation after which the measurements are in
order changes what is pending as it changes what is under way. -/
theorem Measured.pending_after {ext : External} {b : Agent.Busy} {i : Nat} {t : Task} {o : AgentOp}
    {next : o.Ans → AgentProg Unit}
    (hm : Measured ⟨(sem ext o b.shared).2, b.threads.set i (t, next (sem ext o b.shared).1)⟩)
    (hi : b.threads[i]? = some (t, .op o next)) (hone : b.threads.countP callUnderWay = 1) :
    (if (sem ext o b.shared).2.revocation.currentRevocation.isSome then 1 else 0) +
        (if callUnderWay (t, .op o next) then 1 else 0) =
      1 + if callUnderWay (t, next (sem ext o b.shared).1) then 1 else 0 := by
  have hcount := Pool.countP_set_add callUnderWay hi (t, next (sem ext o b.shared).1)
  rw [← hm.pending, hone] at hcount
  exact hcount

/-- A second call makes two of them. -/
theorem Quiet.not_started {ext : External} {b : Agent.Busy} {i : Nat} {t : Task} {sid : String}
    {next : (AgentOp.startRevocation sid).Ans → AgentProg Unit}
    (h : Quiet (t, .op (.startRevocation sid) next))
    (hi : b.threads[i]? = some (t, .op (.startRevocation sid) next))
    (hone : b.threads.countP callUnderWay = 1) :
    ¬Measured ⟨(sem ext (.startRevocation sid) b.shared).2,
      b.threads.set i (t, next (sem ext (.startRevocation sid) b.shared).1)⟩ := by
  intro hm
  have hafter := hm.pending_after hi hone
  rcases h.step ext b.shared with ⟨hw, -⟩ | ⟨sid', reason, rfl, heq⟩
  · exact absurd trivial hw
  · cases heq
    have hcall := (underWay_callTail (sem ext (.startRevocation sid) b.shared).1 sid reason
      (by omega : 1 ≤ 7) (by omega)).1
    rw [h.not_underWay, if_neg Bool.false_ne_true, if_pos hcall] at hafter
    split at hafter <;> omega

/-- A stop that is swallowed leaves the record of its call behind. -/
theorem not_swallowed {ext : External} {b : Agent.Busy} {i ts : Nat} {sid reason : String}
    (hpending : b.shared.revocation.currentRevocation.isSome = true)
    (hi : b.threads[i]? = some (.revoked sid reason, callTail ts sid reason 1))
    (hone : b.threads.countP callUnderWay = 1)
    (hm : Measured ⟨(sem ext .onRevoked b.shared).2,
      b.threads.set i (.revoked sid reason, callTail ts sid reason 0)⟩) :
    b.shared.safety.stopped = false := by
  cases hstopped : b.shared.safety.stopped with
  | false => rfl
  | true =>
    have hruns : runsCallback b.shared .onRevoked = false := by
      show (!b.shared.safety.stopped) = false
      rw [hstopped]
      rfl
    have hsame : (sem ext .onRevoked b.shared).2.revocation = b.shared.revocation := by
      rw [sem_revocation ext id, hruns]
      rfl
    let next : AgentOp.onRevoked.Ans → AgentProg Unit := fun _ => callTail ts sid reason 0
    have hm' : Measured ⟨(sem ext .onRevoked b.shared).2, b.threads.set i
        (.revoked sid reason, next (sem ext .onRevoked b.shared).1)⟩ := hm
    have hafter := hm'.pending_after hi hone
    rw [hsame, if_pos hpending,
      show callUnderWay (.revoked sid reason, .op .onRevoked next) = true from rfl,
      show callUnderWay (.revoked sid reason, next (sem ext .onRevoked b.shared).1) = false from rfl]
      at hafter
    cases hafter

/-- Another stop takes the record away from its call. -/
theorem not_taken {ext : External} {b : Agent.Busy} {i : Nat} {t : Task} {o : AgentOp}
    {next : o.Ans → AgentProg Unit} {done : List RevocationTimestamps} {r : RevocationTimestamps}
    (hlog : b.shared.revocation = pendingLog done r) (ht : t.isRevoked = false)
    (hi : b.threads[i]? = some (t, .op o next)) (hone : b.threads.countP callUnderWay = 1)
    (hm : Measured ⟨(sem ext o b.shared).2, b.threads.set i (t, next (sem ext o b.shared).1)⟩) :
    runsCallback b.shared o = false := by
  refine Bool.eq_false_iff.mpr fun hruns => ?_
  have hw : ¬writesLog o := by
    intro hw
    cases o with
    | startRevocation sid => cases hruns
    | stampRevocation ts stage => cases hruns
    | _ => exact hw
  have hnew : (sem ext o b.shared).2.revocation = idleLog (done ++ [r.close b.shared.now]) := by
    rw [sem_revocation ext hw, if_pos hruns, hlog, finish_pendingLog]
  have hother (p : AgentProg Unit) : callUnderWay (t, p) = false := by
    unfold callUnderWay
    rw [ht]
    rfl
  have hafter := hm.pending_after hi hone
  rw [hnew, hother, hother] at hafter
  cases hafter

/-- A move after which the measurements still are in order has left them alone. -/
theorem Tracked.undisturbed {ext : External} {b : Agent.Busy} {m : Move Task Nat}
    (h : Tracked b) (hm : Measured (Agent.poolStep ext b m)) : Undisturbed b m := by
  cases h with
  | idle done hlog hdone hcalls hquiet =>
    have hnone : b.shared.revocation.currentRevocation = none := by rw [hlog]; rfl
    refine ⟨fun _ _ _ => hnone, fun t hn ht => ?_, fun _ _ _ _ _ => hnone⟩
    obtain ⟨i, next, hi, -⟩ := sched_of_next ext hn
    rw [(hquiet i _ hi).not_stop] at ht
    cases ht
  | underWay done r c sid reason k hlog hdone hcalls hr hk hcall hothers =>
    have hone : b.threads.countP callUnderWay = 1 :=
      Pool.countP_eq_one hcall (underWay_callTail _ sid reason hk.1 hk.2).1
        fun j th hj hne => (hothers j th hj hne).not_underWay
    refine ⟨fun t sid' hn => ?_, fun t hn ht => ?_, fun t o hn ht hruns => ?_⟩
    · obtain ⟨i, next, hi, hs⟩ := sched_of_next ext hn
      have hic : i ≠ c := by
        intro heq
        subst heq
        exact callTail_ne_start hk (Prod.mk.inj (Option.some.inj (hi.symm.trans hcall))).2
      exact absurd (hs ▸ hm) ((hothers i _ hi hic).not_started hi hone)
    · obtain ⟨i, next, hi, hs⟩ := sched_of_next ext hn
      have hic : i = c := by
        by_contra hne
        rw [(hothers i _ hi hne).not_stop] at ht
        cases ht
      subst hic
      obtain ⟨rfl, heq⟩ := Prod.mk.inj (Option.some.inj (hi.symm.trans hcall))
      obtain ⟨rfl, hnext⟩ := eq_one_of_stop hk heq
      have hafter := hs ▸ hm
      rw [show next (sem ext .onRevoked b.shared).1 = callTail done.length sid reason 0 from hnext]
        at hafter
      exact not_swallowed (by rw [hlog]; rfl) hcall hone hafter
    · obtain ⟨i, next, hi, hs⟩ := sched_of_next ext hn
      rw [not_taken hlog ht hi hone (hs ▸ hm)] at hruns
      cases hruns

/-- Over any interleaving of the handlers, from the start of the agent: the
measurements are always in order exactly when every move leaves them alone. -/
theorem revocation_measured_iff (ext : External) (now : Time) (cfg : Agent.Config)
    (tokenValidator : Option TokenValidator) (ms : List (Move Task Nat)) :
    Always (Agent.poolStep ext) Measured ⟨Agent.init now cfg tokenValidator, []⟩ ms ↔
      Steps (Agent.poolStep ext) Undisturbed ⟨Agent.init now cfg tokenValidator, []⟩ ms := by
  have hinit : Tracked ⟨Agent.init now cfg tokenValidator, []⟩ :=
    .idle [] rfl (fun _ hr => absurd hr List.not_mem_nil) rfl (fun i th h => by cases h)
  exact always_iff_steps_of_break (fun _ h => h.measured) (fun _ _ h hc => h.step hc)
    (fun _ _ h hm => h.undisturbed hm) hinit

/-- Start a handler as thread `i` and let it run to its end. -/
def handled (i : Nat) (t : Task) : List (Move Task Nat) :=
  .spawn t :: List.replicate 9 (.sched i)

/-- The token of `s1` has expired when the session is revoked. -/
def revokedWhenStopped : List (Move Task Nat) :=
  handled 0 .tokenExpired ++ handled 1 (.revoked "s1" "expelled")

/-- The token expires and the session is revoked while the session connects;
an hour after the connection has reset the monitor, a bye stops it. -/
def stoppedAnHourLater : List (Move Task Nat) :=
  handled 0 (.offer "s1" Sample.token1 [] (.ok ()) fun sdp => .ok sdp) ++ handled 1 .tokenExpired ++
    .spawn (.connState 0 .connected) :: List.replicate 2 (.sched 2) ++
    handled 3 (.revoked "s1" "expelled") ++ [.sched 2, .env 3600000000000] ++ handled 4 (.bye "s1")

/-- A revocation that finds the monitor stopped is not collected when it has
been handled, and the bye an hour later completes it. -/
theorem revocation_left_behind :
    (run (Agent.poolStep Sample.ext) ⟨Sample.start, []⟩ revokedWhenStopped).threads.all
        (fun th => (nextOp th.2).isNone) = true ∧
      (run (Agent.poolStep Sample.ext) ⟨Sample.start, []⟩
        revokedWhenStopped).shared.revocation.revocationMetrics.measurements = [] ∧
      (run (Agent.poolStep Sample.ext) ⟨Sample.start, []⟩
        stoppedAnHourLater).shared.revocation.revocationMetrics.measurements.map
          (fun r => (r.sessionID, r.calculate.safeStopExecution)) = [("s1", 3600 * second)] := by
  refine ⟨by decide +kernel, by decide +kernel, by decide +kernel⟩

end ChainKVM.Robot
