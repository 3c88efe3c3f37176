import ChainKVM.Robot.Effects
import ChainKVM.Robot.Sample

/-!
# Whose authority a data channel acts under

A peer connection is created for an offer, and the offer presents a token; a
data channel belongs to a connection. The agent keeps none of this: there is
one session manager for the process, the last accepted offer's callback
serves all connections, and a message is handled under whatever session is
active when it arrives.

`Trail` records what the agent forgets: for every connection the offer that
created it and the verdict on its token, and the connection on which the
active session was activated. `Bound` is what always holds of that record.
With it, a message acts under the authority of its own channel exactly when
the active session is that of the channel's offer (`OwnSession`).
-/

namespace ChainKVM.Robot

open Machine

/-- The offer a connection was created for, and the verdict on its token. -/
structure Presented where
  sessionID : String
  token : String
  verdict : Except SessionError Info

/-- The agent and its history. -/
structure Trail where
  agent : Agent
  presented : List Presented
  activatedOn : Option Nat

namespace Trail

/-- The agent as the process starts. -/
def init (now : Time) (cfg : Agent.Config) (tokenValidator : Option TokenValidator) : Trail :=
  ⟨.init now cfg tokenValidator, [], none⟩

/-- One event, with what it adds to the history. -/
def step (ext : External) (w : Trail) (e : Event) : Trail where
  agent := w.agent.step ext e
  presented :=
    match e with
    | .task (.offer sid tok _ _ _) =>
      if w.agent.transport.conns < (w.agent.step ext e).transport.conns then
        w.presented ++
          [⟨sid, tok, (w.agent.sessionMgr.validateToken ext.parse w.agent.now sid tok).1⟩]
      else w.presented
    | _ => w.presented
  activatedOn :=
    match e with
    | .task (.connState conn .connected) =>
      if w.agent.sessionMgr.isActive = false ∧ (w.agent.step ext e).sessionMgr.isActive = true then
        some conn
      else w.activatedOn
    | _ => w.activatedOn

/-- The offer behind a data channel. -/
def offerOf (w : Trail) (ch : Nat) : Option Presented :=
  match w.agent.transport.channels[ch]? with
  | none => none
  | some k => w.presented[k.conn]?

/-- What the record always says: one entry for each connection, each with a
token that was accepted for the session it was presented for. -/
structure Bound (w : Trail) : Prop where
  length : w.presented.length = w.agent.transport.conns
  accepted : ∀ o ∈ w.presented, ∃ info, o.verdict = .ok info ∧ info.sessionID = o.sessionID
  cache : w.agent.sessionMgr.CacheBound

end Trail

theorem CoreStep.cacheBound {ext : External} {c c' : Core} {e : Event}
    (h : CoreStep ext c e c') (hb : c.sessionMgr.CacheBound) : c'.sessionMgr.CacheBound :=
  h.manager (fun _ sid tok hm => Manager.validateToken_cacheBound hm _ _ sid tok)
    (fun _ info hm => Manager.activate_cacheBound hm info)
    (fun _ hm => Manager.terminate_cacheBound hm) hb

/-- Only an accepted offer creates a connection. -/
theorem CoreStep.conns {ext : External} {c c' : Core} {e : Event} (h : CoreStep ext c e c') :
    c'.transport.conns = c.transport.conns ∨
      ∃ sid tok sdp create negotiate info, e = .task (.offer sid tok sdp create negotiate) ∧
        (c.sessionMgr.validateToken ext.parse c.now sid tok).1 = .ok info ∧
        c'.transport.conns = c.transport.conns + 1 := by
  cases h with
  | offered hv => exact Or.inr ⟨_, _, _, _, _, _, rfl, hv, rfl⟩
  | bye h => exact Or.inl (congrArg Transport.conns h.frame.2)
  | revoked h => exact Or.inl ((congrArg Transport.conns h.frame.2).trans c.transport.close_conns)
  | dataChannel conn => exact Or.inl (c.transport.openChannel_conns conn)
  | message _ h => exact Or.inl (congrArg Transport.conns h.frame.2)
  | tick _ h => exact Or.inl (congrArg Transport.conns h.frame.2)
  | tokenExpired h => exact Or.inl (congrArg Transport.conns h.frame.2)
  | @shutdown c' h =>
    exact Or.inl (c'.transport.close_conns.trans (congrArg Transport.conns h.frame.2))
  | _ => exact Or.inl rfl

theorem Event.motion_authorised {ext : External} {c : Core} {e : Event} {call : RobotCall}
    (h : e.motion ext c = some call) :
    c.sessionMgr.state = .active ∧ c.sessionMgr.hasScope scopeControl = true := by
  unfold Event.motion at h
  split at h
  · split at h
    · exact Handler.motionOf_authorised h
    · cases h
  · cases h

namespace Trail

theorem mem_of_offerOf {w : Trail} {ch : Nat} {o : Presented} (h : w.offerOf ch = some o) :
    o ∈ w.presented := by
  unfold offerOf at h
  split at h
  · cases h
  · exact List.mem_of_getElem? h

theorem init_bound (now : Time) (cfg : Agent.Config) (v : Option TokenValidator) :
    (init now cfg v).Bound :=
  ⟨rfl, fun _ h => absurd h List.not_mem_nil, Manager.new_cacheBound cfg.robotID v⟩

theorem Bound.step {w : Trail} (hb : w.Bound) (ext : External) (e : Event) :
    (w.step ext e).Bound := by
  have hcore := step_core ext w.agent e
  have hcache := hcore.cacheBound hb.cache
  rcases hcore.conns with hsame | ⟨sid, tok, sdp, create, negotiate, info, rfl, hv, hnew⟩
  · have hpres : (w.step ext e).presented = w.presented := by
      unfold Trail.step
      dsimp only
      split
      · rw [if_neg (by omega)]
      · rfl
    exact ⟨by rw [hpres, hb.length]; exact hsame.symm, by rw [hpres]; exact hb.accepted, hcache⟩
  · have hpres : (w.step ext (.task (.offer sid tok sdp create negotiate))).presented =
        w.presented ++ [⟨sid, tok, .ok info⟩] := by
      simp only [Trail.step]
      rw [if_pos (by omega), hv]
    refine ⟨?_, ?_, hcache⟩
    · rw [hpres, List.length_append, hb.length]
      exact hnew.symm
    · intro o ho
      rw [hpres] at ho
      rcases List.mem_append.mp ho with hold | hnew
      · exact hb.accepted o hold
      · rw [List.mem_singleton.mp hnew]
        exact ⟨info, rfl, Manager.validateToken_sessionID hb.cache hv⟩

/-- A motion that a message causes is authorised by the token presented for
its channel: it was accepted for its session, it has the control scope, and
its session is the one that is active. -/
def Authorised (ext : External) (w : Trail) (e : Event) : Prop :=
  ∀ ch data call, e = .task (.message ch data) → e.motion ext w.agent.toCore = some call →
    ∃ o info, w.offerOf ch = some o ∧ o.verdict = .ok info ∧ info.sessionID = o.sessionID ∧
      info.scope.contains scopeControl = true ∧ w.agent.sessionMgr.info = some info

/-- A message that moves the robot arrives on a channel whose offer's token
gave the active session. -/
def OwnSession (ext : External) (w : Trail) (e : Event) : Prop :=
  ∀ ch data, e = .task (.message ch data) → e.motion ext w.agent.toCore ≠ none →
    ∃ o info, w.offerOf ch = some o ∧ o.verdict = .ok info ∧
      w.agent.sessionMgr.info = some info

theorem Bound.authorised_iff {w : Trail} (hb : w.Bound) (ext : External) (e : Event) :
    Authorised ext w e ↔ OwnSession ext w e := by
  constructor
  · intro h ch data he hm
    obtain ⟨call, hcall⟩ := Option.ne_none_iff_exists'.mp hm
    obtain ⟨o, info, ho, hv, -, -, hinfo⟩ := h ch data call he hcall
    exact ⟨o, info, ho, hv, hinfo⟩
  · intro h ch data call he hm
    obtain ⟨o, info, ho, hv, hinfo⟩ := h ch data he (by rw [hm]; simp)
    have hscope : info.scope.contains scopeControl = true := by
      have hauth := (Event.motion_authorised hm).2
      simpa [Manager.hasScope, hinfo] using hauth
    obtain ⟨info', hv', hsid⟩ := hb.accepted o (mem_of_offerOf ho)
    rw [hv] at hv'
    cases hv'
    exact ⟨o, info, ho, hv, hsid, hscope, hinfo⟩

/-- Messages act under the authority of their own channels throughout a run
iff every message that moves the robot arrives on a channel of the active
session's offer. -/
theorem channel_authority_iff (ext : External) (now : Time) (cfg : Agent.Config)
    (v : Option TokenValidator) (es : List Event) :
    Steps (step ext) (Authorised ext) (init now cfg v) es ↔
      Steps (step ext) (OwnSession ext) (init now cfg v) es :=
  steps_iff_steps (fun _ e hb => Bound.step hb ext e) (fun _ e hb => hb.authorised_iff ext e)
    (init_bound now cfg v)

/-- A second offer's channel drives the robot under the first offer's
session, though its own token may only view. -/
theorem channel_authority_fails :
    ¬ ∀ (ext : External) (now : Time) (cfg : Agent.Config) (v : Option TokenValidator)
      (es : List Event), Steps (step ext) (Authorised ext) (init now cfg v) es := by
  intro h
  have hsteps := h Sample.ext Sample.now Sample.config Sample.validator
    [Sample.offer "s1" Sample.token1, Sample.connState 0 .connected,
      Sample.offer "s2" Sample.token2, .task (.dataChannel 1), Sample.message 0 Sample.drive]
  obtain ⟨-, -, -, -, hlast, -⟩ := hsteps
  obtain ⟨o, info, ho, -, hsid, -, hinfo⟩ := hlast 0 Sample.drive (.drive 1 0) rfl
    (by decide +kernel)
  -- the channel's offer is for s2, the active session is s1
  have hoffer : o.sessionID = "s2" := by
    have hs2 := congrArg (Option.map Presented.sessionID) ho
    exact (Option.some.inj (hs2.symm.trans (by decide +kernel)))
  have hactive : info.sessionID = "s1" := by
    have hs1 := congrArg (Option.map Info.sessionID) hinfo
    exact (Option.some.inj (hs1.symm.trans (by decide +kernel)))
  rw [hactive, hoffer] at hsid
  exact absurd hsid (by decide)

end Trail

end ChainKVM.Robot
