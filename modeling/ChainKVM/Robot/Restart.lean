import ChainKVM.Robot.Caching
import ChainKVM.Robot.Effects

/-!
# One session after another

What an offer with a good token leads to, whatever has happened to the agent
before. Activating a session resets the monitor and takes over the connection
of the offer, so neither of them can be in a state that stops the next session.
The manager can: `OnRevoked` and the end of a connection terminate it, and it
stays terminated, as nothing in the agent calls `Manager.reset`. So the next
offer works iff no session has been terminated yet (`next_session_iff`).
-/

namespace ChainKVM.Robot

open Machine (run run_cons run_nil Reachable)

/-! ## The manager of the agent -/

/-- The manager of an agent that was given this robot id and this validator. -/
structure Manager.Serves (m : Manager) (parse : JwtParse) (robotID : String)
    (v : TokenValidator) : Prop where
  robot : m.robotID = robotID
  validator : m.validator = some v
  honest : m.CacheHonest parse

/-- The info of a token with these claims. -/
def tokenInfo (robotID : String) (claims : TokenClaims) : Info where
  sessionID := claims.sessionID
  operatorDID := claims.subject
  robotID := robotID
  scope := claims.scope
  expiresAt := claims.expiresAt

namespace Manager

variable {m : Manager} {parse : JwtParse} {robotID : String} {v : TokenValidator}

theorem Serves.validateToken (hm : m.Serves parse robotID v) (now : Time) (sid tok : String) :
    (m.validateToken parse now sid tok).2.Serves parse robotID v := by
  obtain ⟨hvalidator, hrobot⟩ := validateToken_same m parse now sid tok
  exact ⟨hrobot.trans hm.robot, hvalidator.trans hm.validator,
    validateToken_cacheHonest hm.honest now sid tok⟩

theorem Serves.activate (hm : m.Serves parse robotID v) (info : Info) :
    (m.activate info).2.Serves parse robotID v := by
  obtain ⟨hvalidator, hrobot⟩ := activate_same m info
  exact ⟨hrobot.trans hm.robot, hvalidator.trans hm.validator, activate_cacheHonest hm.honest info⟩

theorem Serves.terminate (hm : m.Serves parse robotID v) : m.terminate.Serves parse robotID v := by
  obtain ⟨hvalidator, hrobot⟩ := terminate_same m
  exact ⟨hrobot.trans hm.robot, hvalidator.trans hm.validator, terminate_cacheHonest hm.honest⟩

/-- What the validator accepts, the manager accepts with the same claims, also
when it has them from its cache. -/
theorem Serves.accepts {verify : JwtVerify} (hm : m.Serves verify.parse robotID v)
    (hstate : m.state ≠ .terminated) {now : Time} {sid tok : String} {claims : TokenClaims}
    (hvalid : v.validate verify.parse now tok sid = .ok claims) :
    (m.validateToken verify.parse now sid tok).1 = .ok (tokenInfo robotID claims) := by
  obtain ⟨info, hinfo⟩ := validateToken_of_validate hstate hm.validator hvalid
  obtain ⟨v', t, claims', hv', hvalid', rfl⟩ := exists_of_validateToken hm.honest hinfo
  obtain rfl : v = v' := Option.some.inj (hm.validator.symm.trans hv')
  rw [hinfo, TokenValidator.validate_unique hvalid' hvalid]
  have hrobot := hm.robot
  subst hrobot
  rfl

end Manager

theorem CoreStep.serves {ext : External} {c c' : Core} {e : Event} {robotID : String}
    {v : TokenValidator} (h : CoreStep ext c e c') (hc : c.sessionMgr.Serves ext.parse robotID v) :
    c'.sessionMgr.Serves ext.parse robotID v := by
  refine h.manager (P := fun m => m.Serves ext.parse robotID v) ?_ ?_ ?_ hc
  · exact fun m sid tok hm => hm.validateToken _ sid tok
  · exact fun m info hm => hm.activate info
  · exact fun m hm => hm.terminate

theorem reachable_serves {ext : External} {now : Time} {cfg : Agent.Config} {v : TokenValidator}
    {a : Agent} (h : Reachable (Agent.step ext) (.init now cfg (some v)) a) :
    a.sessionMgr.Serves ext.parse cfg.robotID v := by
  refine Machine.Reachable.invariant (I := fun a => a.sessionMgr.Serves ext.parse cfg.robotID v)
    ⟨rfl, rfl, ?_⟩ (fun a e ha => (step_core ext a e).serves ha) h
  exact Manager.new_cacheHonest _ _ _

/-! ## The next session -/

/-- An offer whose connection is created, and, after a while, the connected
state of this connection. -/
def nextSession (a : Agent) (sid tok : String) (sdp : Bytes)
    (negotiate : Bytes → Except String Bytes) (d : Nat) : List Event :=
  [.task (.offer sid tok sdp (.ok ()) negotiate), .elapse d,
    .task (.connState a.transport.conns .connected)]

/-- The agent serves a session with this info. -/
structure Agent.InSession (a : Agent) (info : Info) : Prop where
  active : a.sessionMgr.state = .active
  holds : a.sessionMgr.info = some info
  running : a.safety.stopped = false

/-- Nothing that the agent does takes a terminated manager out of this
state. -/
theorem CoreStep.terminated {ext : External} {c c' : Core} {e : Event} (h : CoreStep ext c e c')
    (hc : c.sessionMgr.state = .terminated) : c'.sessionMgr.state = .terminated := by
  refine h.manager (P := fun m => m.state = .terminated) ?_ ?_ ?_ hc
  · intro m sid tok hm
    rw [(m.validateToken_frame ext.parse c.now sid tok).1, hm]
  · intro m info hm
    rcases m.activate_cases info with ⟨hpending, -⟩ | ⟨-, -, hsame⟩
    · rw [hm] at hpending
      cases hpending
    · rw [hsame, hm]
  · exact fun m _ => m.terminate_state

theorem run_terminated {ext : External} {a : Agent} (h : a.sessionMgr.state = .terminated)
    (es : List Event) : (run (Agent.step ext) a es).sessionMgr.state = .terminated := by
  refine (Machine.always_of_step (I := fun a : Agent => a.sessionMgr.state = .terminated)
    (fun a e ha => ?_) h).last
  exact (step_core ext a e).terminated ha

/-- An accepted offer makes a connection whose callbacks have its info. -/
theorem CoreStep.of_accepted {ext : External} {c c' : Core} {sid tok : String} {sdp : Bytes}
    {negotiate : Bytes → Except String Bytes} {info : Info}
    (h : CoreStep ext c (.task (.offer sid tok sdp (.ok ()) negotiate)) c')
    (haccepted : (c.sessionMgr.validateToken ext.parse c.now sid tok).1 = .ok info) :
    c'.sessionMgr.state = c.sessionMgr.state ∧
      c'.transport.stateCallback c.transport.conns = some info := by
  cases h with
  | offerRejected h =>
    rw [haccepted] at h
    cases h
  | offered h =>
    rw [haccepted] at h
    cases h
    have hnew : c.transport.conns < c.transport.conns + 1 := Nat.lt_succ_self _
    exact ⟨(c.sessionMgr.validateToken_frame ext.parse c.now sid tok).1, if_pos hnew⟩

/-- The connected state activates a pending manager and resets the monitor. -/
theorem CoreStep.of_connected {ext : External} {c c' : Core} {conn : Nat} {info : Info}
    (h : CoreStep ext c (.task (.connState conn .connected)) c')
    (hcallback : c.transport.stateCallback conn = some info)
    (hpending : c.sessionMgr.state = .pending) :
    c'.sessionMgr = (c.sessionMgr.activate info).2 ∧ c'.safety = c.safety.reset c.now := by
  cases h with
  | connIgnored h =>
    rcases h with hnone | ⟨-, -, hnot⟩
    · rw [hcallback] at hnone
      cases hnone
    · exact absurd hpending (hnot rfl)
  | activated h _ =>
    rw [hcallback] at h
    cases h
    exact ⟨rfl, rfl⟩
  | disconnected _ hs => rcases hs with hs | hs <;> cases hs

theorem nextSession_of_pending {ext : External} {a : Agent} (hstate : a.sessionMgr.state = .pending)
    {sid tok : String} {info : Info}
    (haccepted : (a.sessionMgr.validateToken ext.parse a.now sid tok).1 = .ok info) (sdp : Bytes)
    (negotiate : Bytes → Except String Bytes) (d : Nat) :
    (run (Agent.step ext) a (nextSession a sid tok sdp negotiate d)).InSession info := by
  obtain ⟨hsame, hcallback⟩ :=
    (step_core ext a (.task (.offer sid tok sdp (.ok ()) negotiate))).of_accepted haccepted
  -- the agent once the offer is answered, and while the connection is made
  have hconnected := step_core ext
    ((a.step ext (.task (.offer sid tok sdp (.ok ()) negotiate))).elapse d)
    (.task (.connState a.transport.conns .connected))
  have hpending : ((a.step ext (.task (.offer sid tok sdp (.ok ()) negotiate))).elapse
      d).sessionMgr.state = .pending := hsame.trans hstate
  obtain ⟨hmanager, hsafety⟩ := hconnected.of_connected hcallback hpending
  rcases Manager.activate_cases _ info with ⟨-, -, hactive, hinfo⟩ | ⟨hnot, -⟩
  · rw [← hmanager] at hactive hinfo
    exact ⟨hactive, hinfo, congrArg Monitor.stopped hsafety⟩
  · exact absurd hpending hnot

/-- Whatever has happened to an agent without an active session, the next
offer with a good token leads to its session iff the manager has not been
terminated. -/
theorem next_session_iff {ext : External} {verify : JwtVerify} (hparse : ext.parse = verify.parse)
    {now : Time} {cfg : Agent.Config} {v : TokenValidator} {a : Agent}
    (h : Reachable (Agent.step ext) (.init now cfg (some v)) a)
    (hidle : a.sessionMgr.state ≠ .active) {sid tok : String} {claims : TokenClaims}
    (hvalid : v.validate ext.parse a.now tok sid = .ok claims) (sdp : Bytes)
    (negotiate : Bytes → Except String Bytes) (d : Nat) :
    (run (Agent.step ext) a (nextSession a sid tok sdp negotiate d)).InSession
        (tokenInfo cfg.robotID claims) ↔
      a.sessionMgr.state ≠ .terminated := by
  constructor
  · intro hin hover
    have hactive := hin.active
    rw [run_terminated hover] at hactive
    cases hactive
  · intro hopen
    have hpending : a.sessionMgr.state = .pending := by
      cases hs : a.sessionMgr.state with
      | pending => rfl
      | active => exact absurd hs hidle
      | terminated => exact absurd hs hopen
    have hserves := reachable_serves h
    rw [hparse] at hserves hvalid
    have haccepted := hserves.accepts hopen hvalid
    rw [← hparse] at haccepted
    exact nextSession_of_pending hpending haccepted sdp negotiate d

/-! ## A second session -/

/-- The sample's agent, with the library's `Parse`. -/
def sampleExt : External := { Sample.ext with parse := ManagerRun.sampleVerify.parse }

/-- What the token of `s2` says. -/
def claims2 : TokenClaims := ⟨"", "s2", "did:key:op", ["teleop:view"], "", 4102444800 * second⟩

theorem validate_token2 : TokenValidator.validate ⟨Sample.publicKey, "robot-1", 30 * second⟩
    sampleExt.parse Sample.now Sample.token2 "s2" = .ok claims2 := by
  have hverified : ManagerRun.sampleVerify Sample.token2
      (TokenValidator.keyFunc ⟨Sample.publicKey, "robot-1", 30 * second⟩) =
        .ok (.ed25519, Sample.claims "s2" "teleop:view") := by
    have hother : Sample.token2 ≠ Sample.token1 := by decide +kernel
    simp only [ManagerRun.sampleVerify, Sample.parse, TokenValidator.keyFunc]
    rw [if_neg (by simp), if_neg hother, if_pos trivial]
    rfl
  exact TokenValidator.validate_ok_iff.mpr ⟨Sample.claims "s2" "teleop:view", by decide +kernel,
    ⟨_, hverified⟩, by decide +kernel, by decide +kernel, by decide +kernel, rfl⟩

/-- The first session of the sample's agent. -/
theorem next_session_iff_sample :
    (run (Agent.step sampleExt) Sample.start
        (nextSession Sample.start "s2" Sample.token2 [] Except.ok 0)).InSession
          (tokenInfo "robot-1" claims2) ↔
      Sample.start.sessionMgr.state ≠ .terminated :=
  next_session_iff rfl ⟨[], rfl⟩ (by decide) validate_token2 [] Except.ok 0

/-- The sample's agent when `s1` has been revoked. -/
def revokedAgent : Agent :=
  run (Agent.step sampleExt) Sample.start (Sample.signOn ++ [.task (.revoked "s1" "stolen")])

/-- After a session that was revoked there is no other. -/
theorem next_session_fails :
    ¬ ∀ (ext : External) (verify : JwtVerify), ext.parse = verify.parse →
      ∀ (now : Time) (cfg : Agent.Config) (v : TokenValidator) (a : Agent),
        Reachable (Agent.step ext) (.init now cfg (some v)) a → a.sessionMgr.state ≠ .active →
          ∀ (sid tok : String) (claims : TokenClaims),
            v.validate ext.parse a.now tok sid = .ok claims →
              ∀ (sdp : Bytes) (negotiate : Bytes → Except String Bytes) (d : Nat),
                (run (Agent.step ext) a (nextSession a sid tok sdp negotiate d)).InSession
                  (tokenInfo cfg.robotID claims) := by
  intro h
  have hover : revokedAgent.sessionMgr.state = .terminated := by decide +kernel
  have hnow : revokedAgent.now = Sample.now := by decide +kernel
  have hidle : revokedAgent.sessionMgr.state ≠ .active := by
    rw [hover]
    decide
  have hin := h sampleExt ManagerRun.sampleVerify rfl Sample.now Sample.config
    ⟨Sample.publicKey, "robot-1", 30 * second⟩ revokedAgent ⟨_, rfl⟩ hidle "s2" Sample.token2
    claims2 (hnow ▸ validate_token2) [] Except.ok 0
  have hactive := hin.active
  rw [run_terminated hover] at hactive
  cases hactive

end ChainKVM.Robot
