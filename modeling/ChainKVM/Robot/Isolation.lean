import ChainKVM.Robot.Provenance

/-!
# What other sessions' events do to the active one

Signaling messages name a session and callbacks belong to a connection, but
the handlers act on the one manager, the one monitor and the one transport of
the process. `Foreign` are the events that concern another session than the
active one: its revocation, its bye, an offer for it that is rejected, and
the end of a connection the active session was not activated on. `Untouched`
is the frame they should keep.

The rejected offer keeps it. The others do not: any revocation and any ended
connection terminates whatever session is active, and a bye stops the monitor
unless it is stopped for good already.
-/

namespace ChainKVM.Robot

open Machine

/-- Once there is a connection, there is a state callback. -/
def Core.Called (c : Core) : Prop :=
  c.transport.conns = 0 ∨ c.transport.onStateChange.isSome = true

theorem CoreStep.called {ext : External} {c c' : Core} {e : Event} (h : CoreStep ext c e c')
    (hc : c.Called) : c'.Called := by
  have hsame : ∀ {c₁ c₂ : Core}, c₁.Called → c₂.transport.conns = c₁.transport.conns →
      c₂.transport.onStateChange = c₁.transport.onStateChange → c₂.Called := by
    intro c₁ c₂ h₁ hn hs
    unfold Core.Called
    rw [hn, hs]
    exact h₁
  cases h with
  | offered hv => exact Or.inr rfl
  | bye h => exact hsame hc (by rw [h.frame.2]) (by rw [h.frame.2])
  | revoked h => exact hsame hc (by rw [h.frame.2]; simp) (by rw [h.frame.2]; simp)
  | dataChannel conn => exact hsame hc (by simp) (by simp)
  | message _ h => exact hsame hc (by rw [h.frame.2]) (by rw [h.frame.2])
  | tick _ h => exact hsame hc (by rw [h.frame.2]) (by rw [h.frame.2])
  | tokenExpired h => exact hsame hc (by rw [h.frame.2]) (by rw [h.frame.2])
  | shutdown h =>
    exact hsame hc ((Transport.close_conns _).trans (congrArg Transport.conns h.frame.2))
      ((Transport.close_onStateChange _).trans (congrArg Transport.onStateChange h.frame.2))
  | _ => exact hc

/-! ## The four kinds of foreign events -/

theorem CoreStep.of_rejected {ext : External} {c c' : Core} {sid tok : String} {sdp : Bytes}
    {create : Except String Unit} {negotiate : Bytes → Except String Bytes}
    (h : CoreStep ext c (.task (.offer sid tok sdp create negotiate)) c')
    (hv : (c.sessionMgr.validateToken ext.parse c.now sid tok).1.isOk = false) : c' = c := by
  cases h with
  | offerRejected _ => rfl
  | offerFailed hok => rw [hok] at hv; cases hv
  | offered hok => rw [hok] at hv; cases hv

theorem CoreStep.of_bye {ext : External} {c c' : Core} {sid : String}
    (h : CoreStep ext c (.task (.bye sid)) c') : c.Latch c' := by
  cases h with
  | bye h => exact h

theorem CoreStep.of_revoked {ext : External} {c c' : Core} {sid reason : String}
    (h : CoreStep ext c (.task (.revoked sid reason)) c') :
    c'.sessionMgr.state = .terminated := by
  cases h with
  | revoked h =>
    rw [h.frame.1]
    exact c.sessionMgr.terminate_state

/-- Any connection that ends takes the session with it. -/
theorem CoreStep.of_ended {ext : External} {c c' : Core} {conn : Nat}
    {state : PeerConnectionState} (h : CoreStep ext c (.task (.connState conn state)) c')
    (hc : c.Called) (hconn : conn < c.transport.conns) (hs : state = .failed ∨ state = .closed) :
    c'.sessionMgr.state = .terminated := by
  have hcb : c.transport.stateCallback conn ≠ none := by
    rcases hc with hzero | hsome
    · omega
    · rw [Transport.stateCallback, if_pos hconn]
      exact Option.isSome_iff_ne_none.mp hsome
  cases h with
  | connIgnored h =>
    rcases h with hnone | ⟨hf, hcl, -⟩
    · exact absurd hnone hcb
    · rcases hs with rfl | rfl
      · exact absurd rfl hf
      · exact absurd rfl hcl
  | activated _ _ => rcases hs with hs | hs <;> cases hs
  | disconnected _ _ => exact c.sessionMgr.terminate_state

namespace Trail

/-- Events of another session than `sid`. -/
def Foreign (ext : External) (w : Trail) (sid : String) : Event → Prop
  | .task (.revoked sid' _) => sid' ≠ sid
  | .task (.bye sid') => sid' ≠ sid
  | .task (.offer sid' tok _ _ _) =>
    sid' ≠ sid ∧
      (w.agent.sessionMgr.validateToken ext.parse w.agent.now sid' tok).1.isOk = false
  | .task (.connState conn state) =>
    conn < w.agent.transport.conns ∧ (state = .failed ∨ state = .closed) ∧
      w.activatedOn ≠ some conn
  | _ => False

/-- The active session's state and info, the monitor, and its connection (if
still open) are as they were. -/
structure Untouched (w w' : Trail) : Prop where
  state : w'.agent.sessionMgr.state = w.agent.sessionMgr.state
  info : w'.agent.sessionMgr.info = w.agent.sessionMgr.info
  safety : w'.agent.safety = w.agent.safety
  transport : ∀ conn, w.activatedOn = some conn → conn ∉ w.agent.transport.closed →
    conn ∉ w'.agent.transport.closed

/-- A rejected offer, or a bye for a robot that is stopped for good. -/
def Harmless (w : Trail) : Event → Prop
  | .task (.offer _ _ _ _ _) => True
  | .task (.bye _) => w.agent.safety.latched = true
  | _ => False

/-- A trigger leaves the monitor as it was iff it is stopped for good. -/
theorem latch_safety_iff {c c' : Core} (h : c.Latch c') :
    c'.safety = c.safety ↔ c.safety.latched = true := by
  cases h with
  | swallowed hst =>
    constructor
    · intro heq
      have hloss := congrArg Monitor.inControlLoss heq
      simp [hst, ← hloss]
    · intro hl
      have hloss := (c.safety.latched_iff.mp hl).2
      rw [← hloss]
  | stop hst r =>
    constructor
    · intro heq
      have hs := congrArg Monitor.stopped heq
      simp [hst] at hs
    · intro hl
      simp [hst] at hl

theorem reachable_called {ext : External} {now : Time} {cfg : Agent.Config}
    {v : Option TokenValidator} {w : Trail} (hr : Reachable (step ext) (init now cfg v) w) :
    w.agent.toCore.Called :=
  hr.invariant (I := fun w => w.agent.toCore.Called) (Or.inl rfl)
    fun w e h => (step_core ext w.agent e).called h

/-- In every reachable state with an active session, an event of another
session leaves it untouched iff it is a rejected offer, or a bye while the
robot is stopped for good. -/
theorem foreign_untouched_iff {ext : External} {now : Time} {cfg : Agent.Config}
    {v : Option TokenValidator} {w : Trail} {info : Info} {e : Event}
    (hr : Reachable (step ext) (init now cfg v) w)
    (hinfo : w.agent.sessionMgr.info = some info) (hf : Foreign ext w info.sessionID e) :
    Untouched w (w.step ext e) ↔ Harmless w e := by
  have hactive : w.agent.sessionMgr.state = .active :=
    w.agent.sessionMgr.live.mp (by rw [hinfo]; rfl)
  -- a step that leaves the manager terminated is not a frame
  have hend : (w.step ext e).agent.sessionMgr.state = .terminated →
      ¬ Untouched w (w.step ext e) := by
    intro hterm hu
    have hst := hu.state
    rw [hterm, hactive] at hst
    cases hst
  have hcore : CoreStep ext w.agent.toCore e (w.step ext e).agent.toCore :=
    step_core ext w.agent e
  cases e with
  | elapse d => exact hf.elim
  | task t =>
    cases t with
    | offer sid tok sdp create negotiate =>
      have hsame := hcore.of_rejected hf.2
      refine ⟨fun _ => trivial, fun _ => ⟨?_, ?_, congrArg Core.safety hsame, fun conn _ ho => ?_⟩⟩
      · exact congrArg (fun c => c.sessionMgr.state) hsame
      · exact congrArg (fun c => c.sessionMgr.info) hsame
      · rw [congrArg Core.transport hsame]
        exact ho
    | bye sid =>
      have hlatch := hcore.of_bye
      constructor
      · exact fun hu => (latch_safety_iff hlatch).mp hu.safety
      · intro hl
        refine ⟨congrArg Manager.state hlatch.frame.1, congrArg Manager.info hlatch.frame.1,
          (latch_safety_iff hlatch).mpr hl, fun conn _ ho => ?_⟩
        rw [hlatch.frame.2]
        exact ho
    | revoked sid reason => exact ⟨fun hu => (hend hcore.of_revoked hu).elim, False.elim⟩
    | connState conn state =>
      obtain ⟨hconn, hs, -⟩ := hf
      exact ⟨fun hu => (hend (hcore.of_ended (reachable_called hr) hconn hs) hu).elim, False.elim⟩
    | _ => exact hf.elim

/-- The sample robot with its session active. -/
def sample : Trail :=
  run (step Sample.ext) (init Sample.now Sample.config Sample.validator) Sample.signOn

theorem sample_reachable :
    Reachable (step Sample.ext) (init Sample.now Sample.config Sample.validator) sample :=
  ⟨Sample.signOn, rfl⟩

theorem sample_info : sample.agent.sessionMgr.info = some Sample.info := by decide +kernel

/-- It is untouched by an offer without a token. -/
theorem foreign_untouched_iff_sample :
    Untouched sample (sample.step Sample.ext (Sample.offer "s2" "")) := by
  have hf : Foreign Sample.ext sample Sample.info.sessionID (Sample.offer "s2" "") :=
    ⟨by decide, by decide +kernel⟩
  exact (foreign_untouched_iff sample_reachable sample_info hf).mpr trivial

/-- The revocation of another session ends the active one. -/
theorem foreign_untouched_fails :
    ¬ ∀ (ext : External) (now : Time) (cfg : Agent.Config) (v : Option TokenValidator) (w : Trail)
      (info : Info) (e : Event), Reachable (step ext) (init now cfg v) w →
        w.agent.sessionMgr.info = some info → Foreign ext w info.sessionID e →
        Untouched w (w.step ext e) := by
  intro h
  have hf : Foreign Sample.ext sample Sample.info.sessionID (.task (.revoked "s2" "expelled")) :=
    show "s2" ≠ "s1" by decide
  have hu := h Sample.ext Sample.now Sample.config Sample.validator sample Sample.info _
    sample_reachable sample_info hf
  exact absurd hu.state (by decide +kernel)

end Trail

end ChainKVM.Robot
