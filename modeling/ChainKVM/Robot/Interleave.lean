import ChainKVM.Robot.SafeStop

/-!
# Handlers that overtake each other

Here handlers are in progress at the same time, each operation of a component
being one atomic step (`Agent.poolStep`). Two races are decided.

* `OnRevoked` against a data-channel message. The message is checked
  (`IsActive`, `HasScope`) and dispatched in different critical sections, so a
  motion whose checks were passed before the session was terminated reaches
  the robot after the safe-stop. Once a revocation has triggered the stop with
  no handler past its scope check, all is `Calm` and stays so.
* The Connected callback against a trigger. The callback activates the
  session first and resets the monitor afterwards, so a trigger in between is
  wiped out by the reset.

Both results say that this is the only way to go wrong: while nobody stands
in the window (`Prog.Until`) when the stop is raised, the stop holds.
-/

namespace ChainKVM.Robot

open Machine Prog

/-! ## What one operation does -/

theorem sem_terminated (ext : External) (o : AgentOp) {a : Agent}
    (h : a.sessionMgr.state = .terminated) :
    (sem ext o a).2.sessionMgr.state = .terminated := by
  have hframe : ∀ {c : Core}, c.sessionMgr = a.sessionMgr → c.sessionMgr.state = .terminated :=
    fun hs => by rw [hs]; exact h
  cases o with
  | validateToken sid tok =>
    exact (a.sessionMgr.validateToken_frame ext.parse a.now sid tok).1.trans h
  | activate info =>
    rcases a.sessionMgr.activate_cases info with ⟨hp, -⟩ | ⟨-, -, hsame⟩
    · rw [h] at hp
      cases hp
    · exact (congrArg Manager.state hsame).trans h
  | terminate => exact a.sessionMgr.terminate_state
  | onInvalidCommand => exact hframe (a.invalidCommand_count ext).frame.1
  | onEStop => exact hframe (a.nonRecoverable_latch ext .eStop).frame.1
  | onTokenExpired => exact hframe (a.nonRecoverable_latch ext .tokenExpired).frame.1
  | onRevoked => exact hframe (a.nonRecoverable_latch ext .revoked).frame.1
  | checkControlLoss => exact hframe (a.checkControlLoss_check ext).frame.1
  | sendData msg => exact hframe (congrArg Core.sessionMgr (a.sendData_core msg))
  | _ => exact h

/-- The operations that move the robot. -/
def movesRobot : AgentOp → Prop
  | .robot call => call.isMotion = true
  | _ => False

/-- Only a motion undoes a halt. -/
theorem sem_halted (ext : External) {o : AgentOp} {a : Agent} (ho : ¬ movesRobot o)
    (h : a.toCore.Halted) : (sem ext o a).2.toCore.Halted := by
  cases o with
  | onInvalidCommand => exact (a.invalidCommand_count ext).halted h
  | onEStop => exact (a.nonRecoverable_latch ext .eStop).halted fun _ => h
  | onTokenExpired => exact (a.nonRecoverable_latch ext .tokenExpired).halted fun _ => h
  | onRevoked => exact (a.nonRecoverable_latch ext .revoked).halted fun _ => h
  | checkControlLoss => exact (a.checkControlLoss_check ext).halted h
  | robot call =>
    cases call with
    | eStop => exact rfl
    | _ => exact absurd rfl ho
  | sendData msg =>
    show (a.sendData msg).toCore.Halted
    rw [Agent.sendData_core]
    exact h
  | _ => exact h

/-- Only a reset undoes a stop that is for good. -/
theorem sem_latched (ext : External) {o : AgentOp} {a : Agent} (ho : o ≠ .reset)
    (h : a.safety.latched = true) : (sem ext o a).2.safety.latched = true := by
  cases o with
  | onValidControl =>
    show (a.safety.onValidControl a.now).latched = true
    simpa using h
  | onInvalidCommand => exact (a.invalidCommand_count ext).latched h
  | onEStop => exact (a.nonRecoverable_latch ext .eStop).latched
  | onTokenExpired => exact (a.nonRecoverable_latch ext .tokenExpired).latched
  | onRevoked => exact (a.nonRecoverable_latch ext .revoked).latched
  | checkControlLoss => exact (a.checkControlLoss_check ext).latched h
  | reset => exact absurd rfl ho
  | sendData msg =>
    show (a.sendData msg).toCore.safety.latched = true
    rw [Agent.sendData_core]
    exact h
  | _ => exact h

/-! ## Every path of every handler -/

section Paths

variable {pass : (o : AgentOp) → o.Ans → Prop} {bad : AgentOp → Prop}
  (hbad : ∀ o, o ≠ .reset → (∀ call, o ≠ .robot call) → (∀ sid, o ≠ .startRevocation sid) →
    (∀ ts stage, o ≠ .stampRevocation ts stage) → ¬ bad o)
  (hstop : ¬ bad (.robot .eStop))
  (hmotion : ∀ validate call, Until pass bad True (Handler.wired.handleMotion validate call))

include hbad hstop hmotion

/-- What holds along the motion handlers holds along `HandleMessage`, when
everything else it does is harmless. -/
theorem handleMessage_until (decode : Decoder) (data : Bytes) :
    Until pass bad True (Handler.wired.handleMessage decode data) := by
  have hdispatch : ∀ {M : Type} (type : MessageType) (msg : Option M) (t : M → Int)
      (handle : M → AgentProg (Except HandlerError Unit)),
      (∀ m, Until pass bad True (handle m)) →
      Until pass bad True (Handler.wired.dispatch type msg t handle) := by
    intro M type msg t handle h
    cases msg with
    | none =>
      simp [Handler.dispatch, Handler.notifyInvalid, Handler.wired, hbad]
    | some m =>
      refine (h m).bind fun r => ?_
      cases r <;> simp
  unfold Handler.handleMessage
  cases decode.base data with
  | none => simp [Handler.notifyInvalid, Handler.wired, hbad]
  | some type =>
    have hs : Handler.wired.isSessionActive = Robot.perform .isActive := rfl
    simp only [hs, perform_bind, until_op]
    refine ⟨by simp [hbad], fun r _ => ?_⟩
    cases r with
    | false => simp
    | true =>
      cases type with
      | drive => exact hdispatch _ _ _ _ fun m => hmotion _ _
      | kvmKey => exact hdispatch _ _ _ _ fun m => hmotion _ _
      | kvmMouse => exact hdispatch _ _ _ _ fun m => hmotion _ _
      | eStop =>
        refine hdispatch _ _ _ _ fun m => ?_
        simp only [Handler.handleEStop, Validator.validateEStop, Handler.wired, if_true,
          perform_bind, until_op]
        refine ⟨by simp [hbad], fun _ _ => ⟨hstop, fun r _ => ?_⟩⟩
        cases r <;> simp
      | ping => simp [Handler.switch, Handler.notifyValid, Handler.wired, hbad]
      | _ => simp [Handler.switch, Handler.notifyInvalid, Handler.wired, hbad]

theorem onDataMessage_until (ext : External) (data : Bytes) :
    Until pass bad True (onDataMessage ext data) := by
  unfold onDataMessage
  split
  · cases ext.decode.pong data <;> simp [hbad]
  · refine (handleMessage_until hbad hstop hmotion ext.decode data).bind fun r => ?_
    split <;> simp [hbad]

/-- What holds along the motion handlers and the Connected callback holds
along every handler. -/
theorem code_until
    (hconnected : ∀ info, Until pass bad True (onStateChange info .connected))
    (ext : External) (t : Task)
    (hrevoked : ∀ sid reason, t = .revoked sid reason → Until pass bad True (onRevoked sid reason)) :
    Until pass bad True (t.code ext) := by
  cases t with
  | revoked sid reason => exact hrevoked sid reason rfl
  | offer sid tok sdp create negotiate =>
    simp only [Task.code, onOffer, perform_bind, until_op]
    refine ⟨by simp [hbad], fun r _ => ?_⟩
    cases r with
    | error err => simp
    | ok info =>
      refine ⟨by simp [hbad], fun r _ => ?_⟩
      cases r with
      | error err => simp
      | ok _ =>
        refine ⟨by simp [hbad], fun _ _ => ⟨by simp [hbad], fun _ _ => ⟨by simp [hbad], fun _ _ =>
          ⟨by simp [hbad], fun r _ => ?_⟩⟩⟩⟩
        cases r <;> simp [hbad]
  | connState conn state =>
    simp only [Task.code, perform_bind, until_op]
    refine ⟨by simp [hbad], fun r _ => ?_⟩
    cases r with
    | none => simp
    | some info =>
      cases state with
      | connected => exact hconnected info
      | _ => simp [onStateChange, hbad]
  | iceCandidate candidate =>
    simp only [Task.code, perform_bind, until_op]
    refine ⟨by simp [hbad], fun r _ => ?_⟩
    cases r <;> simp [hbad]
  | message ch data =>
    simp only [Task.code, perform_bind, until_op]
    refine ⟨by simp [hbad], fun r _ => ?_⟩
    cases r with
    | false => simp
    | true => exact onDataMessage_until hbad hstop hmotion ext data
  | tick =>
    simp only [Task.code, safetyTick, perform_bind, until_op]
    refine ⟨by simp [hbad], fun r _ => ?_⟩
    cases r <;> simp [hbad]
  | _ => simp [Task.code, onBye, Robot.shutdown, hbad]

end Paths

/-! ## A revocation and a message -/

/-- A scope check that was granted. -/
def granted : (o : AgentOp) → o.Ans → Prop
  | .hasScope _, r => r = true
  | _, _ => False

/-- A handler that is not past its scope check: no motion on any of its paths
before a granted check. -/
abbrev Unchecked (p : AgentProg Unit) : Prop := Until granted movesRobot True p

theorem code_unchecked (ext : External) (t : Task) : Unchecked (t.code ext) := by
  have hbad : ∀ o : AgentOp, o ≠ .reset → (∀ call, o ≠ .robot call) → ¬ movesRobot o := by
    intro o _ hcall hm
    cases o with
    | robot call => exact hcall call rfl
    | _ => exact hm
  refine code_until (fun o ho hcall _ _ => hbad o ho hcall)
    (by simp [movesRobot, RobotCall.isMotion]) (fun validate call => ?_) (fun info => ?_) ext t
    (fun sid reason _ => by simp [onRevoked, movesRobot])
  · simp [Handler.handleMotion, Handler.hasScope, Handler.wired, granted, movesRobot]
  · simp only [onStateChange, perform_bind, until_op]
    refine ⟨hbad _ (by simp) (by simp), fun r _ => ?_⟩
    cases r <;> simp [movesRobot]

/-- `OnRevoked`, as a task. -/
def Task.isRevoked : Task → Bool
  | .revoked _ _ => true
  | _ => false

/-- Has a handler returned? -/
def finished (p : AgentProg Unit) : Bool :=
  match p with
  | .ret _ => true
  | .op _ _ => false

/-- Some revocation has been handled completely. -/
def Returned (c : Agent.Busy) : Prop :=
  c.threads.any (fun th => th.1.isRevoked && finished th.2) = true

instance (c : Agent.Busy) : Decidable (Returned c) := inferInstanceAs (Decidable (_ = _))

/-- The session is over, the robot halted, and no handler past its scope
check. -/
structure Calm (c : Agent.Busy) : Prop where
  terminated : c.shared.sessionMgr.state = .terminated
  halted : c.shared.toCore.Halted
  unchecked : ∀ th ∈ c.threads, Unchecked th.2

/-- A handler that has still to terminate the session, before any stop. -/
abbrev Terminating (p : AgentProg Unit) : Prop :=
  Until (fun (o : AgentOp) (_ : o.Ans) => o = .terminate) (fun o => o = .onRevoked) False p

theorem revoked_terminating (ext : External) (sid reason : String) :
    Terminating ((Task.revoked sid reason).code ext) := by
  simp [Task.code, onRevoked]

/-- Such a handler stays so until it has terminated the session. -/
theorem Terminating.step (ext : External) {c : Agent.Busy} {i : Nat} {t : Task}
    {p : AgentProg Unit} (hp : Terminating p) (hthread : c.threads[i]? = some (t, p))
    (m : Move Task Nat) :
    (Agent.poolStep ext c m).shared.sessionMgr.state = .terminated ∨
      ∃ p', (Agent.poolStep ext c m).threads[i]? = some (t, p') ∧ Terminating p' := by
  rcases Pool.step_thread (Task.code ext) (sem ext) Agent.elapse hthread m with
    hsame | ⟨o, k, rfl, hn, hnext⟩
  · exact .inr ⟨p, hsame, hp⟩
  · by_cases ho : o = .terminate
    · subst ho
      obtain ⟨-, -, hshared⟩ := Pool.step_of_next (Task.code ext) (sem ext) Agent.elapse hn
      left
      rw [hshared]
      exact c.shared.sessionMgr.terminate_state
    · exact .inr ⟨_, hnext, Until.next hp ho⟩

/-- A handler that has still to trigger the stop. -/
abbrev Stopping (p : AgentProg Unit) : Prop :=
  Until (fun (o : AgentOp) (_ : o.Ans) => o = .onRevoked) (fun _ => False) False p

/-- What a revocation does on the way to its end: it terminates the session
before it triggers the stop, and triggers the stop before it returns. -/
structure Revoking (c : Agent.Busy) : Prop where
  terminates : ∀ th ∈ c.threads, th.1.isRevoked = true →
    Terminating th.2 ∨ c.shared.sessionMgr.state = .terminated
  stops : ∀ th ∈ c.threads, th.1.isRevoked = true → Stopping th.2 ∨ Calm c

/-- Does a move let a revocation trigger its safe-stop? -/
def triggersStop (c : Agent.Busy) (m : Move Task Nat) : Bool :=
  match c.next m with
  | some (t, .onRevoked) => t.isRevoked
  | _ => false

theorem triggersStop_iff {c : Agent.Busy} {m : Move Task Nat} :
    triggersStop c m = true ↔ ∃ t : Task, t.isRevoked = true ∧ c.next m = some (t, .onRevoked) := by
  constructor
  · intro h
    unfold triggersStop at h
    split at h
    next t hn => exact ⟨t, h, hn⟩
    · cases h
  · rintro ⟨t, ht, hn⟩
    simp only [triggersStop, hn, ht]

/-- When a revocation triggers the safe-stop, no handler is past its scope
check, and a monitor that is stopped already has a halted robot. -/
structure StopsUnchecked (c : Agent.Busy) (m : Move Task Nat) : Prop where
  unchecked : triggersStop c m = true → ∀ th ∈ c.threads, Unchecked th.2
  halted : triggersStop c m = true → c.shared.safety.stopped = true → c.shared.toCore.Halted

/-- An operation of an unchecked handler on a terminated session leaves it
unchecked: no check is granted any more. -/
theorem Unchecked.next {ext : External} {o : AgentOp} {k : o.Ans → AgentProg Unit} {a : Agent}
    (h : Unchecked (.op o k)) (ha : a.sessionMgr.state = .terminated) :
    Unchecked (k (sem ext o a).1) := by
  refine Until.next h ?_
  cases o with
  | hasScope scope =>
    intro hr
    have hactive := Manager.state_of_hasScope (m := a.sessionMgr) hr
    rw [ha] at hactive
    cases hactive
  | _ => exact id

theorem Calm.step {ext : External} {c : Agent.Busy} (h : Calm c) (m : Move Task Nat) :
    Calm (Agent.poolStep ext c m) where
  terminated := Pool.step_shared _ _ _ (P := fun a : Agent => a.sessionMgr.state = .terminated)
    (fun _ o _ _ _ => sem_terminated ext o h.terminated) (fun _ => h.terminated) h.terminated
  halted := Pool.step_shared _ _ _ (P := fun a : Agent => a.toCore.Halted)
    (fun _ _ _ hmem _ => sem_halted ext (h.unchecked _ hmem).1 h.halted) (fun _ => h.halted)
    h.halted
  unchecked := Pool.step_threads _ _ _ (T := fun _ p => Unchecked p) (code_unchecked ext)
    (fun _ _ _ _ _ hu => Unchecked.next hu h.terminated) h.unchecked

/-- The stop of a revocation calms the agent if nobody is past its scope
check. -/
theorem Revoking.calm {ext : External} {c : Agent.Busy} {m : Move Task Nat} (h : Revoking c)
    (hs : StopsUnchecked c m) (htrig : triggersStop c m = true) :
    Calm (Agent.poolStep ext c m) := by
  obtain ⟨t, ht, hn⟩ := triggersStop_iff.mp htrig
  obtain ⟨k, hmem, hshared⟩ := Pool.step_of_next (Task.code ext) (sem ext)
    Agent.elapse hn
  have hterm : c.shared.sessionMgr.state = .terminated := by
    rcases h.terminates _ hmem ht with huntil | hterm
    · -- a revocation does not trigger the stop before it has terminated the session
      exact absurd rfl huntil.1
    · exact hterm
  refine ⟨?_, ?_, ?_⟩
  · rw [hshared]
    exact sem_terminated ext .onRevoked hterm
  · rw [hshared]
    exact (c.shared.nonRecoverable_latch ext .revoked).halted (hs.halted htrig)
  · exact Pool.step_threads _ _ _ (T := fun _ p => Unchecked p) (code_unchecked ext)
      (fun _ _ _ _ _ hu => Unchecked.next hu hterm) (hs.unchecked htrig)

theorem Revoking.step {ext : External} {c : Agent.Busy} {m : Move Task Nat} (h : Revoking c)
    (hs : StopsUnchecked c m) : Revoking (Agent.poolStep ext c m) := by
  constructor
  · by_cases hterm : (Agent.poolStep ext c m).shared.sessionMgr.state = .terminated
    · exact fun _ _ _ => Or.inr hterm
    · have hbefore : c.shared.sessionMgr.state ≠ .terminated := fun hb =>
        hterm (Pool.step_shared _ _ _ (P := fun a : Agent => a.sessionMgr.state = .terminated)
          (fun _ o _ _ _ => sem_terminated ext o hb) (fun _ => hb) hb)
      have hthreads := Pool.step_threads (Task.code ext) (sem ext) Agent.elapse (m := m)
        (T := fun t p => t.isRevoked = true → Terminating p)
        (fun t ht => by
          cases t with
          | revoked sid reason => simp [Task.code, onRevoked]
          | _ => cases ht)
        (fun t o k _ hn hu ht => Until.next (hu ht) fun ho => by
          -- performing the termination would have terminated the session
          subst ho
          obtain ⟨-, -, hshared⟩ := Pool.step_of_next (Task.code ext) (sem ext)
            Agent.elapse hn
          exact hterm (by rw [hshared]; exact c.shared.sessionMgr.terminate_state))
        (fun th hth ht => (h.terminates th hth ht).resolve_right hbefore)
      exact fun th hth ht => Or.inl (hthreads th hth ht)
  · by_cases hcalm : Calm c
    · exact fun _ _ _ => Or.inr (hcalm.step m)
    · by_cases hstop : triggersStop c m = true
      · exact fun _ _ _ => Or.inr (h.calm hs hstop)
      · have hthreads := Pool.step_threads (Task.code ext) (sem ext) Agent.elapse (m := m)
          (T := fun t p => t.isRevoked = true → Stopping p)
          (fun t ht => by
            cases t with
            | revoked sid reason => simp [Task.code, onRevoked]
            | _ => cases ht)
          (fun t o k _ hn hu ht => Until.next (hu ht) fun ho =>
            hstop (triggersStop_iff.mpr ⟨t, ht, by rw [hn, ho]⟩))
          (fun th hth ht => (h.stops th hth ht).resolve_right hcalm)
        exact fun th hth ht => Or.inl (hthreads th hth ht)

/-- A revocation that has returned has calmed the agent. -/
theorem Revoking.calm_of_returned {c : Agent.Busy} (h : Revoking c) (hr : Returned c) :
    Calm c := by
  obtain ⟨⟨t, p⟩, hmem, hth⟩ := List.any_eq_true.mp hr
  obtain ⟨ht, hp⟩ := Bool.and_eq_true _ _ ▸ hth
  rcases h.stops _ hmem ht with huntil | hcalm
  · cases p with
    | ret _ => exact huntil.elim
    | op _ _ => cases hp
  · exact hcalm

/-- What should hold once a revocation has returned: the robot is halted, and
no motion is next. -/
structure RevocationHolds (ext : External) (a : Agent) (ms : List (Move Task Nat)) : Prop where
  halted : Always (Agent.poolStep ext) (fun c => Returned c → c.shared.toCore.Halted) ⟨a, []⟩ ms
  still : Steps (Agent.poolStep ext) (fun c m => Returned c →
    ∀ t o, c.next m = some (t, o) → ¬ movesRobot o) ⟨a, []⟩ ms

/-- In every interleaving in which no revocation triggers its stop while a
handler is past its scope check, the stop holds once a revocation has
returned. -/
theorem revocation_holds (ext : External) (a : Agent) (ms : List (Move Task Nat))
    (hs : Steps (Agent.poolStep ext) StopsUnchecked ⟨a, []⟩ ms) : RevocationHolds ext a ms := by
  have hinit : Revoking ⟨a, []⟩ :=
    ⟨fun _ h => absurd h List.not_mem_nil, fun _ h => absurd h List.not_mem_nil⟩
  have hstep : ∀ c m, Revoking c → StopsUnchecked c m → Revoking (Agent.poolStep ext c m) :=
    fun _ _ h hs => h.step hs
  constructor
  · exact (always_of_steps hstep hinit hs).imp fun _ h hr => (h.calm_of_returned hr).halted
  · refine steps_of_steps hstep (fun c m h _ hr t o hn => ?_) hinit hs
    obtain ⟨k, hmem, -⟩ := Pool.step_of_next (Task.code ext) (sem ext) Agent.elapse hn
    exact ((h.calm_of_returned hr).unchecked _ hmem).1

/-- A drive command that is received before a revocation and checked after
it. -/
theorem revocation_holds_sample :
    RevocationHolds Sample.ext Sample.active
      (.spawn (.message 0 Sample.drive) :: .spawn (.revoked "s1" "expelled") ::
        List.replicate 9 (.sched 1) ++ List.replicate 2 (.sched 0)) := by
  have hidle : ∀ {c : Agent.Busy} {m : Move Task Nat}, triggersStop c m = false →
      StopsUnchecked c m := fun h =>
    ⟨fun ht => absurd (h.symm.trans ht) (by decide), fun ht => absurd (h.symm.trans ht) (by decide)⟩
  refine revocation_holds Sample.ext Sample.active _ ⟨hidle rfl, hidle rfl, hidle rfl, hidle rfl,
    hidle rfl, hidle rfl, hidle rfl, hidle rfl, hidle rfl,
    ⟨fun _ th hth => ?_, fun _ => by decide +kernel⟩, hidle rfl, hidle (by decide +kernel),
    hidle (by decide +kernel), trivial⟩
  rcases List.mem_cons.mp hth with rfl | hth
  · exact code_unchecked Sample.ext (.message 0 Sample.drive)
  · rw [List.mem_singleton.mp hth]
    exact ⟨id, fun _ _ => ⟨id, fun _ _ => trivial⟩⟩

/-- A drive command that passed its checks before the revocation reaches the
robot after it. -/
theorem revocation_fails :
    ¬ ∀ (ext : External) (a : Agent) (ms : List (Move Task Nat)), RevocationHolds ext a ms := by
  intro h
  -- the message stops just before its call, and the revocation runs to its end
  have hhalted := (h Sample.ext Sample.active
    (.spawn (.message 0 Sample.drive) :: List.replicate 4 (.sched 0) ++
      .spawn (.revoked "s1" "expelled") :: List.replicate 9 (.sched 1) ++ [.sched 0])).halted.last
  exact absurd (hhalted (by decide +kernel)) (by decide +kernel)

/-! ## An activation and a trigger -/

/-- An activation that succeeded. -/
def activated : (o : AgentOp) → o.Ans → Prop
  | .activate _, r => r.isOk = true
  | _, _ => False

/-- A handler that is not between its activation and its reset: no reset on
any of its paths before a successful activation. -/
abbrev Inactive (p : AgentProg Unit) : Prop := Until activated (fun o => o = .reset) True p

theorem code_inactive (ext : External) (t : Task) : Inactive (t.code ext) := by
  refine code_until (fun o ho _ _ _ => ho) (by simp) (fun validate call => ?_) (fun info => ?_) ext t
    (fun sid reason _ => by simp [onRevoked])
  · simp only [Handler.handleMotion, Handler.hasScope, Handler.notifyInvalid, Handler.notifyValid,
      Handler.wired, if_true, perform_bind, until_op]
    refine ⟨by simp, fun r _ => ?_⟩
    cases r with
    | false => simp
    | true =>
      refine ⟨by simp, fun now _ => ?_⟩
      cases hv : validate now with
      | some err => simp [hv]
      | none =>
        simp only [hv, until_op]
        refine ⟨by simp, fun r _ => ?_⟩
        cases r <;> simp
  · simp only [onStateChange, perform_bind, until_op]
    refine ⟨by simp, fun r hr => ?_⟩
    cases r with
    | error err => simp
    | ok _ => exact absurd rfl hr

/-- Does an operation raise a safe-stop that cannot be recovered from? An
invalid command does at the threshold, unless control is lost already. -/
def raises (a : Agent) : AgentOp → Bool
  | .onEStop | .onTokenExpired | .onRevoked => true
  | .onInvalidCommand =>
    decide (a.safety.invalidCmdThreshold ≤ (a.safety.countInvalid a.now).invalidCmdCount) &&
      !a.safety.inControlLoss
  | _ => false

/-- Does an operation activate a session? -/
def activates (a : Agent) : AgentOp → Bool
  | .activate info => (a.sessionMgr.activate info).1.isOk
  | _ => false

/-- A raised stop is for good. -/
theorem latched_of_raises (ext : External) {o : AgentOp} {a : Agent} (h : raises a o = true) :
    (sem ext o a).2.safety.latched = true := by
  cases o with
  | onEStop => exact (a.nonRecoverable_latch ext .eStop).latched
  | onTokenExpired => exact (a.nonRecoverable_latch ext .tokenExpired).latched
  | onRevoked => exact (a.nonRecoverable_latch ext .revoked).latched
  | onInvalidCommand =>
    obtain ⟨hle, hloss⟩ := Bool.and_eq_true _ _ ▸ h
    have hle := of_decide_eq_true hle
    have hloss : a.safety.inControlLoss = false := by simpa using hloss
    have hcount := a.invalidCommand_count ext
    exact hcount.latched_of_threshold hle hloss
  | _ => cases h

/-- The concurrent agent, with a note of a stop raised since the last
activation. -/
structure Alarmed where
  pool : Agent.Busy
  raised : Bool

/-- One move, with what it adds to the note. -/
def Alarmed.step (ext : External) (s : Alarmed) (m : Move Task Nat) : Alarmed where
  pool := Agent.poolStep ext s.pool m
  raised :=
    match s.pool.next m with
    | some (_, o) =>
      if raises s.pool.shared o then true
      else if activates s.pool.shared o then false
      else s.raised
    | none => s.raised

/-- Does a move raise a stop? -/
def Alarmed.raising (s : Alarmed) (m : Move Task Nat) : Bool :=
  match s.pool.next m with
  | some (_, o) => raises s.pool.shared o
  | none => false

/-- A stop is raised only while no callback stands between its activation and
its reset. -/
def RaisedInactive (s : Alarmed) (m : Move Task Nat) : Prop :=
  s.raising m = true → ∀ th ∈ s.pool.threads, Inactive th.2

/-- A raised stop holds, and nobody is about to undo it. -/
structure Alarmed.Kept (s : Alarmed) : Prop where
  latched : s.raised = true → s.pool.shared.safety.latched = true
  inactive : s.raised = true → ∀ th ∈ s.pool.threads, Inactive th.2

theorem Inactive.next {ext : External} {o : AgentOp} {k : o.Ans → AgentProg Unit} {a : Agent}
    (h : Inactive (.op o k)) (ho : activates a o = false) : Inactive (k (sem ext o a).1) := by
  refine Until.next h ?_
  cases o with
  | activate info => exact fun hr => absurd (ho.symm.trans hr) (by decide)
  | _ => exact id

theorem activates_of_raises {a : Agent} {o : AgentOp} (h : raises a o = true) :
    activates a o = false := by
  cases o with
  | activate info => cases h
  | _ => rfl

theorem Alarmed.Kept.step {ext : External} {s : Alarmed} {m : Move Task Nat} (h : s.Kept)
    (hs : RaisedInactive s m) : (s.step ext m).Kept := by
  -- with nobody past an activation, and none performed, nobody gets there
  have hthreads : (∀ th ∈ s.pool.threads, Inactive th.2) →
      (∀ t o, s.pool.next m = some (t, o) → activates s.pool.shared o = false) →
      ∀ th ∈ (Agent.poolStep ext s.pool m).threads, Inactive th.2 := fun hall hno =>
    Pool.step_threads _ _ _ (T := fun _ p => Inactive p) (code_inactive ext)
      (fun t o _ _ hn hu => hu.next (hno t o hn)) hall
  cases hn : s.pool.next m with
  | none =>
    have hsame : (s.step ext m).raised = s.raised := by simp only [Alarmed.step, hn]
    constructor
    · intro hr
      rw [hsame] at hr
      exact Pool.step_shared _ _ _ (P := fun a : Agent => a.safety.latched = true)
        (fun t o _ _ hn' => by rw [hn] at hn'; cases hn') (fun _ => h.latched hr) (h.latched hr)
    · intro hr
      rw [hsame] at hr
      exact hthreads (h.inactive hr) fun t o hn' => by rw [hn] at hn'; cases hn'
  | some performed =>
    obtain ⟨t, o⟩ := performed
    have hone : ∀ t' o', s.pool.next m = some (t', o') → o' = o := fun t' o' hn' => by
      rw [hn] at hn'
      cases hn'
      rfl
    obtain ⟨k, hmem, hshared⟩ := Pool.step_of_next (Task.code ext) (sem ext) Agent.elapse hn
    by_cases hraise : raises s.pool.shared o = true
    · have hall := hs (by simp only [Alarmed.raising, hn, hraise])
      constructor
      · intro _
        show (Agent.poolStep ext s.pool m).shared.safety.latched = true
        rw [hshared]
        exact latched_of_raises ext hraise
      · intro _
        exact hthreads hall fun t' o' hn' => by
          rw [hone t' o' hn']
          exact activates_of_raises hraise
    · by_cases hact : activates s.pool.shared o = true
      · have hclear : (s.step ext m).raised = false := by
          simp only [Alarmed.step, hn, hraise, hact, if_true]
          rfl
        constructor
        · intro hr
          rw [hclear] at hr
          cases hr
        · intro hr
          rw [hclear] at hr
          cases hr
      · have hsame : (s.step ext m).raised = s.raised := by
          simp only [Alarmed.step, hn, hraise, hact]
          rfl
        constructor
        · intro hr
          rw [hsame] at hr
          show (Agent.poolStep ext s.pool m).shared.safety.latched = true
          rw [hshared]
          exact sem_latched ext (h.inactive hr _ hmem).1 (h.latched hr)
        · intro hr
          rw [hsame] at hr
          exact hthreads (h.inactive hr) fun t' o' hn' => by
            rw [hone t' o' hn']
            exact Bool.eq_false_iff.mpr hact

end ChainKVM.Robot
