import ChainKVM.Robot.SafeStop

/-!
# The dead man's switch

A robot that has been driven must be halted whenever its operator has been
silent for longer than the control-loss timeout, and whenever its session has
ended. The guarantee is spread over the monitor's timer, the session check of
the monitoring tick and every path that ends a session.

`Guarded` is the invariant that ties them together: a stopped monitor has a
halted robot, so has a session that is not active, and in an active session
the monitor's timer runs from the last accepted message. Two steps break it.
A motion on a robot that is stopped for good (see `SafeStop.lean`) is one.
The other is a connection that fails or closes: its callback ends the session
without a stop, and from then on the tick, which only looks at active
sessions, never checks the timer again.
-/

namespace ChainKVM.Robot

open Machine

/-- The agent and the time of the last message it accepted. -/
structure Watched where
  agent : Agent
  lastAccepted : Option Time

/-- One event, with a note of an accepted message. -/
def Watched.step (ext : External) (w : Watched) (e : Event) : Watched where
  agent := w.agent.step ext e
  lastAccepted :=
    match e with
    | .task (.message ch data) =>
      if w.agent.transport.delivers ch && accepts ext w.agent data then some w.agent.now
      else w.lastAccepted
    | _ => w.lastAccepted

/-- The agent as the process starts. -/
def Watched.init (now : Time) (cfg : Agent.Config) (tokenValidator : Option TokenValidator) :
    Watched := ⟨.init now cfg tokenValidator, none⟩

/-- Some call has driven the robot. -/
def Core.Driven (c : Core) : Prop := ∃ v w, RobotCall.drive v w ∈ c.calls

/-- A connection state change that ends an active session. -/
def Event.disconnects (c : Core) : Event → Bool
  | .task (.connState conn state) =>
    c.sessionMgr.isActive && (state = .failed || state = .closed) &&
      (c.transport.stateCallback conn).isSome
  | _ => false

/-- No motion arrives on a robot that is stopped for good, and no connection
fails or closes under an active session that has driven the robot since its
last `EStop`. -/
structure SwitchSafe (ext : External) (c : Core) (e : Event) : Prop where
  motion : c.safety.latched = true → e.motion ext c = none
  disconnect : e.disconnects c = true → c.Driven → c.Halted

/-! ## The invariant -/

/-- What holds between events, `timeout` being the control-loss timeout and
`last` the time of the last accepted message. -/
structure Guarded (timeout : Duration) (last : Option Time) (c : Core) : Prop where
  timeout : c.safety.controlLossTimeout = timeout
  stopped : c.safety.stopped = true → c.Halted
  ended : c.sessionMgr.state ≠ .active → c.Driven → c.Halted
  timer : ∀ t, last = some t → c.safety.lastControlTime = t
  unused : c.sessionMgr.state = .pending → last = none ∧ ¬ c.Driven

theorem driven_eStop {c c' : Core} (hc : c'.calls = .eStop :: c.calls) (h : c'.Driven) :
    c.Driven := by
  obtain ⟨v, w, hmem⟩ := h
  rw [hc] at hmem
  rcases List.mem_cons.mp hmem with heq | hmem
  · cases heq
  · exact ⟨v, w, hmem⟩

/-- A trigger restores the invariant even where a terminated session is not
halted yet. -/
theorem Core.Latch.guarded {timeout : Duration} {last : Option Time} {c c' : Core}
    (h : c.Latch c') (ht : c.safety.controlLossTimeout = timeout)
    (hst : c.safety.stopped = true → c.Halted)
    (htimer : ∀ t, last = some t → c.safety.lastControlTime = t)
    (hunused : c.sessionMgr.state = .pending → last = none ∧ ¬ c.Driven) :
    Guarded timeout last c' := by
  have hhalt := h.halted hst
  refine ⟨?_, fun _ => hhalt, fun _ _ => hhalt, fun t hl => ?_, fun hp => ?_⟩
  · cases h <;> exact ht
  · have htime := htimer t hl
    cases h <;> exact htime
  · cases h with
    | swallowed _ => exact hunused hp
    | stop _ _ =>
      obtain ⟨hlast, hnot⟩ := hunused hp
      exact ⟨hlast, fun hd => hnot (driven_eStop rfl hd)⟩

theorem Core.Count.guarded {timeout : Duration} {last : Option Time} {c c' : Core}
    (h : c.Count c') (hg : Guarded timeout last c) : Guarded timeout last c' := by
  cases h with
  | counted _ =>
    refine ⟨by simpa using hg.timeout, fun hs => ?_, hg.ended, fun t ht => ?_, hg.unused⟩
    · exact hg.stopped (by simpa using hs)
    · simpa using hg.timer t ht
  | stop hst r =>
    refine ⟨by simpa using hg.timeout, fun _ => rfl, fun _ _ => rfl, fun t ht => ?_, fun hp => ?_⟩
    · simpa using hg.timer t ht
    · obtain ⟨hlast, hnot⟩ := hg.unused hp
      exact ⟨hlast, fun hd => hnot (driven_eStop rfl hd)⟩

theorem Core.Check.guarded {timeout : Duration} {last : Option Time} {c c' : Core}
    (h : c.Check c') (hg : Guarded timeout last c) : Guarded timeout last c' := by
  cases h with
  | fine _ => exact hg
  | stop hst r =>
    refine ⟨hg.timeout, fun _ => rfl, fun _ _ => rfl, hg.timer, fun hp => ?_⟩
    obtain ⟨hlast, hnot⟩ := hg.unused hp
    exact ⟨hlast, fun hd => hnot (driven_eStop rfl hd)⟩

/-- A message: the timer and the note of the last accepted message move
together. -/
theorem MessageEffect.guarded {ext : External} (hok : ∀ calls call, ext.robot calls call = .ok ())
    {timeout : Duration} {last : Option Time} {c c' : Core} {data : Bytes} {acc : Bool}
    (h : MessageEffect ext c data acc c') (hg : Guarded timeout last c)
    (hm : c.safety.latched = true → Handler.wired.motionOf ext.decode c data = none) :
    Guarded timeout (if acc then some c.now else last) c' := by
  cases h with
  | ignored _ => exact hg
  | invalid _ hc => exact hc.guarded hg
  | @moved call hsome _ =>
    have hrun : c.safety.latched ≠ true := fun hl => by
      rw [hm hl] at hsome
      cases hsome
    have ha := (Handler.motionOf_authorised hsome).1
    refine ⟨by simpa using hg.timeout, fun hs => ?_, fun hna => absurd ha hna, fun t ht => ?_,
      fun hp => ?_⟩
    · exact absurd (by simpa using hs) hrun
    · simpa using ht
    · exact absurd (ha.symm.trans hp) (by decide)
  | @refused call err _ herr =>
    rw [hok] at herr
    cases herr
  | @eStop c' _ hl =>
    have hg' := hl.guarded hg.timeout hg.stopped hg.timer hg.unused
    refine ⟨hg'.timeout, fun _ => rfl, fun _ _ => rfl, hg'.timer, fun hp => ?_⟩
    obtain ⟨hlast, hnot⟩ := hg'.unused hp
    exact ⟨hlast, fun hd => hnot (driven_eStop rfl hd)⟩
  | heartbeat _ ha =>
    refine ⟨by simpa using hg.timeout, fun hs => ?_, fun hna => absurd ha hna, fun t ht => ?_,
      fun hp => ?_⟩
    · have hl : c.safety.latched = true := by simpa using hs
      exact hg.stopped (c.safety.latched_iff.mp hl).1
    · simpa using ht
    · exact absurd (ha.symm.trans hp) (by decide)

/-- Every other step. -/
theorem CoreStep.guarded {ext : External} {timeout : Duration} {last : Option Time}
    {c c' : Core} {e : Event} (h : CoreStep ext c e c')
    (hmsg : ∀ ch data, c.transport.delivers ch = true → e ≠ .task (.message ch data))
    (hg : Guarded timeout last c) (hs : SwitchSafe ext c e) : Guarded timeout last c' := by
  -- a step that changes neither the monitor, the calls nor the session's state
  have hframe : ∀ c'' : Core, c''.safety = c.safety → c''.calls = c.calls →
      c''.sessionMgr.state = c.sessionMgr.state → Guarded timeout last c'' := by
    intro c'' hsafe hcalls hstate
    have hh : c''.Halted ↔ c.Halted := by unfold Core.Halted; rw [hcalls]
    have hd : c''.Driven ↔ c.Driven := by unfold Core.Driven; rw [hcalls]
    refine ⟨by rw [hsafe]; exact hg.timeout, fun h => ?_, fun hne hdr => ?_, fun t ht => ?_,
      fun hp => ?_⟩
    · exact hh.mpr (hg.stopped (by rw [← hsafe]; exact h))
    · exact hh.mpr (hg.ended (by rw [← hstate]; exact hne) (hd.mp hdr))
    · rw [hsafe]; exact hg.timer t ht
    · obtain ⟨hlast, hnot⟩ := hg.unused (by rw [← hstate]; exact hp)
      exact ⟨hlast, fun h => hnot (hd.mp h)⟩
  cases h with
  | elapse d => exact hframe _ rfl rfl rfl
  | offerRejected _ => exact hg
  | offerFailed hv =>
    exact hframe _ rfl rfl (Manager.validateToken_frame c.sessionMgr _ _ _ _).1
  | offered hv => exact hframe _ rfl rfl (Manager.validateToken_frame c.sessionMgr _ _ _ _).1
  | bye hl => exact hl.guarded hg.timeout hg.stopped hg.timer hg.unused
  | revoked hl => exact hl.guarded hg.timeout hg.stopped hg.timer fun hp => by simp at hp
  | connIgnored _ => exact hg
  | @activated conn info _ hp =>
    obtain ⟨hlast, hnot⟩ := hg.unused hp
    refine ⟨hg.timeout, fun hs => ?_, fun _ hd => absurd hd hnot, fun t ht => ?_, fun hp' => ?_⟩
    · simp [Monitor.reset] at hs
    · rw [hlast] at ht
      cases ht
    · exact ⟨hlast, hnot⟩
  | @disconnected conn info state hcb hst =>
    refine ⟨hg.timeout, hg.stopped, fun _ hd => ?_, hg.timer, fun hp => by simp at hp⟩
    by_cases ha : c.sessionMgr.state = .active
    · have hdis : Event.disconnects c (.task (.connState conn state)) = true := by
        rcases hst with rfl | rfl <;> simp [Event.disconnects, ha, hcb]
      exact hs.disconnect hdis hd
    · exact hg.ended ha hd
  | dataChannel conn => exact hframe _ rfl rfl rfl
  | iceCandidate _ => exact hg
  | undelivered _ => exact hg
  | message hd _ => exact absurd rfl (hmsg _ _ hd)
  | tickIdle _ => exact hg
  | tick _ hc => exact hc.guarded hg
  | tokenExpired hl => exact hl.guarded hg.timeout hg.stopped hg.timer hg.unused
  | shutdown hl =>
    have hg' := hl.guarded hg.timeout hg.stopped hg.timer hg.unused
    exact ⟨hg'.timeout, hg'.stopped, hg'.ended, hg'.timer, hg'.unused⟩

/-! ## Runs -/

theorem Watched.guarded_step {ext : External} (hok : ∀ calls call, ext.robot calls call = .ok ())
    {timeout : Duration} {w : Watched} {e : Event}
    (hg : Guarded timeout w.lastAccepted w.agent.toCore)
    (hs : SwitchSafe ext w.agent.toCore e) :
    Guarded timeout (w.step ext e).lastAccepted (w.step ext e).agent.toCore := by
  by_cases hmsg : ∃ ch data, w.agent.transport.delivers ch = true ∧ e = .task (.message ch data)
  · obtain ⟨ch, data, hd, rfl⟩ := hmsg
    have hm := (message_effect ext data hd).guarded hok hg fun hl => by
      simpa [Event.motion, hd] using hs.motion hl
    simp only [Watched.step, hd, Bool.true_and]
    exact hm
  · have hsame : (w.step ext e).lastAccepted = w.lastAccepted := by
      unfold Watched.step
      split
      next ch data =>
        rw [if_neg fun h => hmsg ⟨ch, data, (Bool.and_eq_true _ _ ▸ h).1, rfl⟩]
      · rfl
    rw [hsame]
    exact (step_core ext w.agent e).guarded (fun ch data hd he => hmsg ⟨ch, data, hd, he⟩) hg hs

theorem Watched.init_guarded (now : Time) (cfg : Agent.Config) (v : Option TokenValidator) :
    Guarded (Agent.milliseconds cfg.controlLossTimeoutMS) (init now cfg v).lastAccepted
      (init now cfg v).agent.toCore := by
  refine ⟨rfl, fun h => ?_, fun _ h => ?_, fun t h => ?_, fun _ => ⟨rfl, ?_⟩⟩
  · cases h
  · obtain ⟨_, _, hmem⟩ := h
    cases hmem
  · cases h
  · rintro ⟨_, _, hmem⟩
    cases hmem

/-- What should hold of a step: after a tick that comes more than the
control-loss timeout after the last accepted message, and after an event that
ends the active session, a robot that was driven is halted. -/
structure SwitchHolds (ext : External) (w : Watched) (e : Event) : Prop where
  tick : e = .task .tick →
    ∀ t, w.lastAccepted = some t → w.agent.safety.controlLossTimeout < w.agent.now - t →
      (w.step ext e).agent.toCore.Driven → (w.step ext e).agent.toCore.Halted
  ended : w.agent.sessionMgr.state = .active →
    e.isRevocation = true ∨ (w.step ext e).agent.sessionMgr.state ≠ .active →
      (w.step ext e).agent.toCore.Driven → (w.step ext e).agent.toCore.Halted

theorem CoreStep.halted_of_revocation {ext : External} {c c' : Core} {e : Event}
    (h : CoreStep ext c e c') (hr : e.isRevocation = true)
    (hst : c.safety.stopped = true → c.Halted) : c'.Halted := by
  cases h with
  | bye hl => exact hl.halted hst
  | revoked hl => exact hl.halted hst
  | tokenExpired hl => exact hl.halted hst
  | shutdown hl => exact hl.halted hst
  | _ => cases hr

/-- A late tick halts a guarded robot. -/
theorem CoreStep.halted_of_tick {ext : External} {timeout : Duration} {c c' : Core} {t : Time}
    (h : CoreStep ext c (.task .tick) c') (ht : timeout < 9223372036854775807)
    (hg : Guarded timeout (some t) c) (hlate : c.safety.controlLossTimeout < c.now - t)
    (hd : c'.Driven) : c'.Halted := by
  cases h with
  | tickIdle hidle => exact hg.ended hidle hd
  | tick _ hc =>
    cases hc with
    | stop _ _ => rfl
    | fine hfine =>
      rcases hfine with hst | hle
      · exact hg.stopped hst
      · -- the timer started at the last accepted message, so it has run out
        have hlt : c.safety.controlLossTimeout < sub c.now c.safety.lastControlTime := by
          rw [hg.timer t rfl]
          exact lt_sub (by rw [hg.timeout]; exact ht) hlate
        exact absurd hle (Int.not_le.mpr hlt)

theorem Watched.holds_of_safe {ext : External}
    (hok : ∀ calls call, ext.robot calls call = .ok ()) {timeout : Duration} {w : Watched}
    {e : Event} (ht : timeout < 9223372036854775807)
    (hg : Guarded timeout w.lastAccepted w.agent.toCore)
    (hs : SwitchSafe ext w.agent.toCore e) : SwitchHolds ext w e := by
  have hg' := guarded_step hok hg hs
  constructor
  · rintro rfl t hlast hlate hd
    rw [hlast] at hg
    exact (step_core ext w.agent _).halted_of_tick ht hg hlate hd
  · intro _ hend hd
    rcases hend with hr | hna
    · exact (step_core ext w.agent e).halted_of_revocation hr hg.stopped
    · exact hg'.ended hna hd

/-- From the start of the process, with hardware that answers without errors,
the dead man's switch works at every step of a run whose steps are all
switch-safe. -/
theorem deadMan_holds (ext : External) (hok : ∀ calls call, ext.robot calls call = .ok ())
    (now : Time) (cfg : Agent.Config) (v : Option TokenValidator) (es : List Event)
    (hs : Steps (Watched.step ext) (fun w e => SwitchSafe ext w.agent.toCore e)
      (.init now cfg v) es) :
    Steps (Watched.step ext) (SwitchHolds ext) (.init now cfg v) es :=
  steps_of_steps
    (I := fun w => Guarded (Agent.milliseconds cfg.controlLossTimeoutMS) w.lastAccepted
      w.agent.toCore)
    (fun _ _ hg hs => Watched.guarded_step hok hg hs)
    (fun _ _ hg hs => Watched.holds_of_safe hok (Agent.milliseconds_lt _) hg hs)
    (Watched.init_guarded now cfg v) hs

theorem Sample.robot_ok (calls : List RobotCall) (call : RobotCall) :
    Sample.ext.robot calls call = .ok () := rfl

/-- The switch at work: the operator drives and falls silent, and a tick stops
the robot. -/
theorem deadMan_holds_sample :
    Steps (Watched.step Sample.ext) (SwitchHolds Sample.ext)
      (.init Sample.now Sample.config Sample.validator)
      (Sample.signOn ++ [Sample.message 0 Sample.drive, .elapse 600000000, .task .tick]) :=
  deadMan_holds Sample.ext Sample.robot_ok _ _ _ _
    ⟨⟨by decide +kernel, fun h => absurd h (by decide +kernel)⟩,
      ⟨by decide +kernel, fun h => absurd h (by decide +kernel)⟩,
      ⟨by decide +kernel, fun h => absurd h (by decide +kernel)⟩,
      ⟨by decide +kernel, fun h => absurd h (by decide +kernel)⟩,
      ⟨by decide +kernel, fun h => absurd h (by decide +kernel)⟩,
      ⟨by decide +kernel, fun h => absurd h (by decide +kernel)⟩, trivial⟩

/-- A connection that fails after a drive command leaves the robot driving. -/
theorem deadMan_fails :
    ¬ ∀ (ext : External), (∀ calls call, ext.robot calls call = .ok ()) →
      ∀ (now : Time) (cfg : Agent.Config) (v : Option TokenValidator) (es : List Event),
        Steps (Watched.step ext) (SwitchHolds ext) (.init now cfg v) es := by
  intro h
  have hsteps := h Sample.ext Sample.robot_ok Sample.now Sample.config Sample.validator
    (Sample.signOn ++ [Sample.message 0 Sample.drive, Sample.connState 0 .failed])
  obtain ⟨-, -, -, -, hfail, -⟩ := hsteps
  have hhalted := hfail.ended (by decide +kernel) (Or.inr (by decide +kernel))
    ⟨1, 0, by decide +kernel⟩
  exact absurd hhalted (by decide +kernel)

end ChainKVM.Robot
