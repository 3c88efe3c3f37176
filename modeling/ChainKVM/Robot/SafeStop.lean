import ChainKVM.Robot.Effects
import ChainKVM.Robot.Sample

/-!
# The latch of the safe-stop

Once a trigger that cannot be recovered from has stopped the monitor, nothing
should move the robot until the monitor is reset: the last call that reached
it is the `EStop` of the stop (`Core.Held`).

The handler does not enforce this. It asks whether the session is active and
has the scope, never whether the monitor is stopped, and an e-stop leaves the
session active; so a motion command that arrives on a stopped robot is
carried out. There is a second gap: a motion that fails during a loss of
control is the last call when a revocation then makes the stop permanent
without stopping again.

`held_step` shows that these are the only two: a step keeps `Held` exactly if
it is `StopSafe`. The result for whole runs is then
`Machine.always_iff_steps`.
-/

namespace ChainKVM.Robot

open Machine

/-- The last call that reached the robot is an `EStop`. -/
def Core.Halted (c : Core) : Prop := c.calls.head? = some .eStop

instance (c : Core) : Decidable c.Halted := inferInstanceAs (Decidable (_ = _))

/-- A monitor that is stopped for good has a halted robot. -/
def Core.Held (c : Core) : Prop := c.safety.latched = true → c.Halted

/-- A loss of control is a stop. -/
def Core.LossStops (c : Core) : Prop :=
  c.safety.inControlLoss = true → c.safety.stopped = true

namespace Event

/-- The events that end the chance to recover, e-stop messages apart. -/
def isRevocation : Event → Bool
  | .task (.bye _) | .task (.revoked _ _) | .task .tokenExpired | .task .shutdown => true
  | _ => false

end Event

/-- No motion arrives on a robot that is stopped for good, and no revocation
during a loss of control whose `EStop` is no longer the last call. -/
structure StopSafe (ext : External) (c : Core) (e : Event) : Prop where
  motion : c.safety.latched = true → e.motion ext c = none
  revocation : e.isRevocation = true → c.safety.inControlLoss = true → c.Halted

/-! ## One step -/

theorem Core.Latch.held_iff {c c' : Core} (h : c.Latch c') (hloss : c.LossStops) (hp : c.Held) :
    c'.Held ↔ (c.safety.inControlLoss = true → c.Halted) := by
  cases h with
  | swallowed hst =>
    constructor
    · intro h' _
      exact h' (by simp [hst])
    · intro h' _
      by_cases hrec : c.safety.inControlLoss = true
      · exact h' hrec
      · exact hp (by simp [hst, hrec])
  | stop hst r =>
    have hrun : c.safety.inControlLoss ≠ true := fun hrec => by simp [hloss hrec] at hst
    exact ⟨fun _ hrec => absurd hrec hrun, fun _ _ => rfl⟩

/-- A trigger that ends the chance to recover halts the robot, whether it is
swallowed or not, if a stopped robot is halted. -/
theorem Core.Latch.halted {c c' : Core} (h : c.Latch c')
    (hst : c.safety.stopped = true → c.Halted) : c'.Halted := by
  cases h with
  | swallowed hs => exact hst hs
  | stop _ _ => rfl

theorem Core.Count.halted {c c' : Core} (h : c.Count c') (hh : c.Halted) : c'.Halted := by
  cases h with
  | counted _ => exact hh
  | stop _ _ => rfl

theorem Core.Check.halted {c c' : Core} (h : c.Check c') (hh : c.Halted) : c'.Halted := by
  cases h with
  | fine _ => exact hh
  | stop _ _ => rfl

theorem Core.Check.latched {c c' : Core} (h : c.Check c') (hl : c.safety.latched = true) :
    c'.safety.latched = true := by
  cases h with
  | fine _ => exact hl
  | stop hst _ => simp [hst] at hl

/-- After any trigger that ends the chance to recover the loss of control is
over. -/
theorem Core.Latch.lossStops {c c' : Core} (h : c.Latch c') : c'.LossStops := by
  cases h <;> exact fun hrec => by simp at hrec

theorem Core.Count.held {c c' : Core} (h : c.Count c') (hp : c.Held) : c'.Held := by
  cases h with
  | counted _ => exact fun hl => hp (by simpa using hl)
  | stop hst r => exact fun _ => rfl

theorem Core.Count.lossStops {c c' : Core} (h : c.Count c') (hloss : c.LossStops) :
    c'.LossStops := by
  cases h with
  | counted _ => exact fun hrec => by simpa using hloss (by simpa using hrec)
  | stop hst r => exact fun _ => rfl

/-- A message keeps the latch held iff it moves no robot that is stopped for
good. -/
theorem MessageEffect.held_iff {ext : External} {c c' : Core} {data : Bytes} {acc : Bool}
    (h : MessageEffect ext c data acc c') (hp : c.Held) :
    c'.Held ↔
      (c.safety.latched = true → Handler.wired.motionOf ext.decode c data = none) := by
  cases h with
  | ignored hm => exact ⟨fun _ _ => hm, fun _ => hp⟩
  | invalid hm hc => exact ⟨fun _ _ => hm, fun _ => hc.held hp⟩
  | @moved call hm hok =>
    have hne : call ≠ .eStop := by
      rintro rfl
      exact absurd (Handler.motionOf_isMotion hm) (by decide)
    constructor
    · intro h' hl
      -- a valid control does not undo the latch, and the motion is now the last call
      have hlast : some call = some .eStop := h' (by simp [hl])
      exact absurd (Option.some.inj hlast) hne
    · intro h' hl
      have hlatched : c.safety.latched = true := by simpa using hl
      rw [h' hlatched] at hm
      cases hm
  | @refused call err hm herr =>
    have hne : call ≠ .eStop := by
      rintro rfl
      exact absurd (Handler.motionOf_isMotion hm) (by decide)
    constructor
    · intro h' hl
      have hlast : some call = some .eStop := h' hl
      exact absurd (Option.some.inj hlast) hne
    · intro h' hl
      rw [h' hl] at hm
      cases hm
  | eStop hm hl => exact ⟨fun _ _ => hm, fun _ _ => rfl⟩
  | heartbeat hm _ =>
    exact ⟨fun _ _ => hm, fun _ hl => hp (by simpa using hl)⟩

theorem MessageEffect.lossStops {ext : External} {c c' : Core} {data : Bytes} {acc : Bool}
    (h : MessageEffect ext c data acc c') (hloss : c.LossStops) : c'.LossStops := by
  cases h with
  | ignored _ => exact hloss
  | invalid _ hc => exact hc.lossStops hloss
  | moved _ _ => exact fun hrec => by simp at hrec
  | refused _ _ => exact hloss
  | eStop _ hl => exact hl.lossStops
  | heartbeat _ _ => exact fun hrec => by simp at hrec

/-- No step breaks the rule that a loss of control is a stop. -/
theorem CoreStep.lossStops {ext : External} {c c' : Core} {e : Event}
    (h : CoreStep ext c e c') (hloss : c.LossStops) : c'.LossStops := by
  cases h with
  | bye hl => exact hl.lossStops
  | revoked hl => exact hl.lossStops
  | activated _ _ => exact fun hrec => by simp [Monitor.reset] at hrec
  | message _ hm => exact hm.lossStops hloss
  | tick _ hc =>
    cases hc with
    | fine _ => exact hloss
    | stop _ _ => exact fun _ => rfl
  | tokenExpired hl => exact hl.lossStops
  | shutdown hl => exact hl.lossStops
  | _ => exact hloss

/-- A step keeps the latch held iff it is stop-safe. -/
theorem CoreStep.held_iff {ext : External} {c c' : Core} {e : Event}
    (h : CoreStep ext c e c') (hloss : c.LossStops) (hp : c.Held) :
    c'.Held ↔ StopSafe ext c e := by
  -- steps that neither move the robot nor revoke are stop-safe for free
  have hquiet : e.motion ext c = none → e.isRevocation = false → c'.Held →
      (c'.Held ↔ StopSafe ext c e) := fun hm hr h' =>
    ⟨fun _ => ⟨fun _ => hm, fun hr' => by simp [hr] at hr'⟩, fun _ => h'⟩
  have hrevoke : e.motion ext c = none → e.isRevocation = true →
      (c'.Held ↔ (c.safety.inControlLoss = true → c.Halted)) →
      (c'.Held ↔ StopSafe ext c e) := fun hm hr h' =>
    ⟨fun hh => ⟨fun _ => hm, fun _ => h'.mp hh⟩, fun hs => h'.mpr (hs.revocation hr)⟩
  cases h with
  | bye hl => exact hrevoke rfl rfl (hl.held_iff hloss hp)
  | revoked hl => exact hrevoke rfl rfl (hl.held_iff hloss hp)
  | tokenExpired hl => exact hrevoke rfl rfl (hl.held_iff hloss hp)
  | shutdown hl => exact hrevoke rfl rfl (hl.held_iff hloss hp)
  | activated _ _ => exact hquiet rfl rfl fun hl => by simp [Monitor.reset] at hl
  | undelivered hd => exact hquiet (by simp [Event.motion, hd]) rfl hp
  | message hd hm =>
    rw [hm.held_iff hp]
    constructor
    · exact fun h' => ⟨fun hl => by simp [Event.motion, hd, h' hl], fun hr => by cases hr⟩
    · intro hs hl
      simpa [Event.motion, hd] using hs.motion hl
  | tick _ hc =>
    refine hquiet rfl rfl ?_
    cases hc with
    | fine _ => exact hp
    | stop _ _ => exact fun _ => rfl
  | _ => exact hquiet rfl rfl hp

/-! ## What a step does to a robot that is stopped for good -/

/-- The step from `c` to `c'` puts no motion on the robot. -/
def Core.NoMotion (c c' : Core) : Prop :=
  ∃ new, c'.calls = new ++ c.calls ∧ ∀ call ∈ new, call.isMotion = false

theorem Core.NoMotion.same {c c' : Core} (h : c'.calls = c.calls) : c.NoMotion c' :=
  ⟨[], h, fun _ h => by cases h⟩

theorem Core.NoMotion.eStop {c c' : Core} (h : c'.calls = .eStop :: c.calls) : c.NoMotion c' :=
  ⟨[.eStop], h, fun call hc => by rw [List.mem_singleton.mp hc]; rfl⟩

theorem Core.Latch.noMotion {c c' : Core} (h : c.Latch c') : c.NoMotion c' := by
  cases h with
  | swallowed _ => exact .same rfl
  | stop _ _ => exact .eStop rfl

theorem Core.Latch.latched {c c' : Core} (h : c.Latch c') : c'.safety.latched = true := by
  cases h with
  | swallowed hst => simp [hst]
  | stop _ _ => simp

theorem Core.Count.noMotion {c c' : Core} (h : c.Count c') : c.NoMotion c' := by
  cases h with
  | counted _ => exact .same rfl
  | stop _ _ => exact .eStop rfl

theorem Core.Count.latched {c c' : Core} (h : c.Count c') (hl : c.safety.latched = true) :
    c'.safety.latched = true := by
  cases h with
  | counted _ => simpa using hl
  | stop hst _ => simp [hst] at hl

/-- At the threshold the stop is for good, unless control is lost. -/
theorem Core.Count.latched_of_threshold {c c' : Core} (h : c.Count c')
    (hle : c.safety.invalidCmdThreshold ≤ (c.safety.countInvalid c.now).invalidCmdCount)
    (hloss : c.safety.inControlLoss = false) : c'.safety.latched = true := by
  cases h with
  | counted hc =>
    rcases hc with hst | hlt
    · simp [hst, hloss]
    · exact absurd hle (Int.not_le.mpr hlt)
  | stop _ _ => simp [hloss]

/-- An event without a motion of its own moves nothing. -/
theorem CoreStep.noMotion {ext : External} {c c' : Core} {e : Event}
    (h : CoreStep ext c e c') (hm : e.motion ext c = none) : c.NoMotion c' := by
  cases h with
  | bye hl => exact hl.noMotion
  | revoked hl => exact hl.noMotion
  | tokenExpired hl => exact hl.noMotion
  | shutdown hl => exact hl.noMotion
  | @message ch data acc _ hd h =>
    have hnone : Handler.wired.motionOf ext.decode c data = none := by
      simpa [Event.motion, hd] using hm
    cases h with
    | ignored _ => exact .same rfl
    | invalid _ hc => exact hc.noMotion
    | moved hsome _ => rw [hnone] at hsome; cases hsome
    | refused hsome _ => rw [hnone] at hsome; cases hsome
    | eStop _ hl =>
      obtain ⟨new, hnew, hmot⟩ := hl.noMotion
      refine ⟨.eStop :: new, by rw [hnew]; rfl, fun call hc => ?_⟩
      rcases List.mem_cons.mp hc with rfl | hc
      · rfl
      · exact hmot call hc
    | heartbeat _ _ => exact .same rfl
  | tick _ hc =>
    cases hc with
    | fine _ => exact .same rfl
    | stop _ _ => exact .eStop rfl
  | _ => exact .same rfl

/-- Only the reset of an activation ends a stop that is for good. -/
theorem CoreStep.latched {ext : External} {c c' : Core} {e : Event}
    (h : CoreStep ext c e c') (hl : c.safety.latched = true) :
    c'.safety.latched = true ∨
      ∃ conn, e = .task (.connState conn .connected) ∧ c.sessionMgr.state = .pending := by
  cases h with
  | bye h => exact Or.inl h.latched
  | revoked h => exact Or.inl h.latched
  | activated _ hp => exact Or.inr ⟨_, rfl, hp⟩
  | message _ h =>
    left
    cases h with
    | ignored _ => exact hl
    | invalid _ hc => exact hc.latched hl
    | moved _ _ => simpa using hl
    | refused _ _ => exact hl
    | eStop _ h => exact h.latched
    | heartbeat _ _ => simpa using hl
  | tick _ hc => exact Or.inl (hc.latched hl)
  | tokenExpired h => exact Or.inl h.latched
  | shutdown h => exact Or.inl h.latched
  | _ => exact Or.inl hl

/-! ## Whole runs -/

/-- A session has just been activated and the monitor reset. -/
structure Agent.Fresh (a : Agent) : Prop where
  active : a.sessionMgr.state = .active
  running : a.safety.stopped = false
  inControl : a.safety.inControlLoss = false

/-- What should hold of a run: a robot that is stopped for good is halted in
every state, and every step leaves it without motion, and stopped unless the
monitor is reset. -/
structure SafeStopHolds (ext : External) (a : Agent) (es : List Event) : Prop where
  halted : Always (Agent.step ext) (fun a => a.toCore.Held) a es
  still : Steps (Agent.step ext) (fun a e => a.safety.latched = true →
    a.toCore.NoMotion (a.step ext e).toCore ∧ ((a.step ext e).safety.latched = true ∨
      ∃ conn, e = .task (.connState conn .connected) ∧ a.sessionMgr.state = .pending)) a es

theorem Sample.active_fresh : Sample.active.Fresh := by
  have hfresh : Sample.active.sessionMgr.state = .active ∧ Sample.active.safety.stopped = false ∧
      Sample.active.safety.inControlLoss = false := by decide +kernel
  exact ⟨hfresh.1, hfresh.2.1, hfresh.2.2⟩

end ChainKVM.Robot
