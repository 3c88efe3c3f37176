import ChainKVM.Gateway.Revoke

/-!
# What becomes of a closed session

Three handlers write the state of a session, none of them with a look at what
it was: a `DELETE` makes any session terminated, a revocation makes any session
revoked, and a create makes the session of the id it drew pending. So the two
closed states replace each other (`absorbing_fails`), and nothing but a create
that drew the same id again takes a session out of them (`closed_until`).
-/

namespace ChainKVM.Gateway

open Js (Val)
open Machine (run run_cons Steps Always)

/-- The state of a session. -/
def State.phase (s : State) (sid : String) : Option SessionPhase :=
  (s.sessions.get sid).map SessionState.state

/-- The operator has a registered token of the session, expired or not. -/
def State.holdsToken (s : State) (did : Val) (sid : String) : Bool :=
  s.registry.tokens.values.any fun entry => entry.operatorDid.strictEq did && entry.sessionId = sid

/-! ## Who writes the state -/

/-- The event deletes the session. -/
def deletes (sid : String) : Event → Bool
  | .delete sid' => sid' = sid
  | _ => false

/-- The event revokes the session, which it names itself or through its
operator. -/
def revokes (d : Deployment) (s : State) (sid : String) : Event → Bool
  | .revoke adminKey body revocationId =>
    (requireAdminAuth d.config adminKey).isNone &&
      (namedSession (.revoke adminKey body revocationId) = some sid ||
        (body.member "operator_did").truthy && d.modules.revocationTokenRegistry &&
          s.holdsToken (body.member "operator_did") sid)
  | _ => false

/-- The event completes a create that drew the session's id. -/
def recreates (s : State) (sid : String) : Event → Bool
  | .settle i true =>
    match s.pending[i]? with
    | some (.create call) => call.sessionId = sid
    | _ => false
  | _ => false

/-- The state that a session is in after an event. -/
def phaseAfter (d : Deployment) (s : State) (sid : String) (e : Event) (phase : SessionPhase) :
    SessionPhase :=
  if deletes sid e then .terminated
  else if revokes d s sid e then .revoked
  else if recreates s sid e then .pending
  else phase

theorem holdsToken_iff {s : State} {did : Val} {sid : String} :
    s.holdsToken did sid = true ↔ ∃ jti entry, s.registry.get jti = some entry ∧
      entry.operatorDid.strictEq did = true ∧ entry.sessionId = sid := by
  rw [State.holdsToken, List.any_eq_true]
  simp only [OrdMap.mem_values_iff, Bool.and_eq_true, decide_eq_true_eq]
  constructor
  · rintro ⟨entry, ⟨jti, hget⟩, hop, hsession⟩
    exact ⟨jti, entry, hget, hop, hsession⟩
  · rintro ⟨jti, entry, hget, hop, hsession⟩
    exact ⟨entry, ⟨jti, hget⟩, hop, hsession⟩

theorem sessions_deleteSession (d : Deployment) (s : State) (sid : String) :
    (deleteSession d s sid).2.sessions = (updateSessionState s.sessions sid .terminated).2 := by
  unfold deleteSession updateSessionState
  cases s.sessions.get sid <;> rfl

/-- Where a handler has called `updateSessionState`, the session it names has
the new state and the others have theirs. -/
theorem phase_of_update {s t : State} {sid : String} {phase : SessionPhase}
    (hphase : s.phase sid = some phase) {sid' : String} {state : SessionPhase}
    (hsessions : t.sessions = (updateSessionState s.sessions sid' state).2) :
    t.phase sid = some (if sid = sid' then state else phase) := by
  obtain ⟨x, hx, rfl⟩ := Option.map_eq_some_iff.mp hphase
  rw [State.phase, hsessions, get_updateSessionState, hx]
  by_cases h : sid = sid'
  · rw [if_pos h, if_pos h]
    rfl
  · rw [if_neg h, if_neg h]
    rfl

/-- The half of the handler that names a session revokes it alone. -/
theorem phase_revokeNamed {d : Deployment} {s : State} {sid : String} {phase : SessionPhase}
    (hphase : s.phase sid = some phase) (sessionId reason : Val) :
    (revokeNamed d s sessionId reason).2.phase sid =
      some (if sessionId.asString.filter (fun sid => sid ≠ "") = some sid then .revoked
        else phase) := by
  unfold revokeNamed
  split
  next sid' =>
    by_cases hempty : sid' = ""
    · rw [if_pos hempty, if_neg (by simp [Val.asString, hempty])]
      exact hphase
    · have hnamed : (Val.str sid').asString.filter (fun sid => sid ≠ "") = some sid' := by
        simp [Val.asString, hempty]
      rw [if_neg hempty, hnamed]
      simp only [Option.some.injEq, eq_comm (b := sid)]
      exact phase_of_update hphase (sessions_revokeSession d s sid' reason)
  next hstr =>
    have hnone : sessionId.asString = none := by
      cases sessionId with
      | str sid' => exact absurd rfl (hstr sid')
      | _ => rfl
    rw [hnone, if_neg (by simp)]
    exact hphase

/-- The loop over an operator's sessions revokes each of them and leaves the
others. -/
theorem phase_revokeSessions (reason : Val) {sid : String} :
    ∀ (sids : List String) {s : State} {phase : SessionPhase}, s.phase sid = some phase →
      (revokeSessions reason sids s).phase sid = some (if sid ∈ sids then .revoked else phase) := by
  intro sids
  induction sids with
  | nil =>
    intro s phase hphase
    rw [if_neg (by simp)]
    exact hphase
  | cons head sids ih =>
    intro s phase hphase
    have hhead : (notifyRevocation
        { s with sessions := (updateSessionState s.sessions head .revoked).2 } head reason).phase
          sid = some (if sid = head then .revoked else phase) :=
      phase_of_update hphase rfl
    rw [revokeSessions, ih hhead]
    by_cases h : sid = head
    · simp [h]
    · simp [h]

/-- The half of the handler that names an operator revokes the sessions of the
operator's registered tokens. -/
theorem phase_revokeOperator {d : Deployment} {s : State} {sid : String} {phase : SessionPhase}
    (hphase : s.phase sid = some phase) (did reason : Val) :
    (revokeOperator d s did reason).2.phase sid =
      some (if (did.truthy && d.modules.revocationTokenRegistry && s.holdsToken did sid) = true
        then .revoked else phase) := by
  unfold revokeOperator revokeOperatorSessions
  by_cases htruthy : did.truthy = true
  · by_cases hreg : d.modules.revocationTokenRegistry = true
    · rw [if_pos htruthy, if_pos hreg]
      have hholds : sid ∈ (s.registry.revokeByOperator s.now did none).1 ↔
          s.holdsToken did sid = true := by
        rw [TokenRegistry.mem_revokeByOperator, holdsToken_iff]
      have hall := phase_revokeSessions reason (s.registry.revokeByOperator s.now did none).1
        (s := { s with registry := (s.registry.revokeByOperator s.now did none).2 }) hphase
      simpa only [htruthy, hreg, Bool.true_and, hholds] using hall
    · rw [if_pos htruthy, if_neg hreg, if_neg (by simp [hreg])]
      exact hphase
  · rw [if_neg htruthy, if_neg (by simp [htruthy])]
    exact hphase

/-- Revoking one session takes no token of another. -/
theorem holdsToken_revokeNamed (d : Deployment) (s : State) {sessionId : Val} (reason did : Val)
    {sid : String} (hother : sessionId.asString.filter (fun sid => sid ≠ "") ≠ some sid) :
    (revokeNamed d s sessionId reason).2.holdsToken did sid = s.holdsToken did sid := by
  rw [Bool.eq_iff_iff, holdsToken_iff, holdsToken_iff]
  constructor
  · rintro ⟨jti, entry, hget, h⟩
    refine ⟨jti, entry, ?_, h⟩
    unfold revokeNamed at hget
    split at hget
    next sid' =>
      by_cases hempty : sid' = ""
      · rwa [if_pos hempty] at hget
      · rw [if_neg hempty] at hget
        have hget' : (revokeSession d s sid' reason).2.registry.get jti = some entry := hget
        rw [registry_revokeSession] at hget'
        split at hget'
        · exact (get_of_revokeBySession hget').1
        · exact hget'
    · exact hget
  · rintro ⟨jti, entry, hget, hop, rfl⟩
    exact ⟨jti, entry, get_revokeNamed d reason hget hother, hop, rfl⟩

/-- Both halves of the handler, of which the second sees what the first has
left. -/
theorem phase_revokeBoth {d : Deployment} {s : State} {sid : String} {phase : SessionPhase}
    (hphase : s.phase sid = some phase) (sessionId did reason : Val) :
    (revokeOperator d (revokeNamed d s sessionId reason).2 did reason).2.phase sid =
      some (if sessionId.asString.filter (fun sid => sid ≠ "") = some sid ∨
          (did.truthy && d.modules.revocationTokenRegistry && s.holdsToken did sid) = true
        then .revoked else phase) := by
  rw [phase_revokeOperator (phase_revokeNamed hphase sessionId reason)]
  by_cases hself : sessionId.asString.filter (fun sid => sid ≠ "") = some sid
  · rw [if_pos hself, ite_self, if_pos (Or.inl hself)]
  · rw [holdsToken_revokeNamed d s reason did hself, if_neg hself]
    simp only [hself, false_or]

theorem revokeNamed_of_falsy (d : Deployment) (s : State) {sessionId : Val} (reason : Val)
    (h : sessionId.truthy = false) : revokeNamed d s sessionId reason = ([], s) := by
  cases sessionId with
  | str sid =>
    have hempty : sid = "" := by simpa [Val.truthy] using h
    exact if_pos hempty
  | _ => rfl

theorem phase_revoke {d : Deployment} {s : State} {sid : String} {phase : SessionPhase}
    (hphase : s.phase sid = some phase) (adminKey : Option String) (body : Val)
    (revocationId : String) :
    (step d s (.revoke adminKey body revocationId)).phase sid =
      some (if revokes d s sid (.revoke adminKey body revocationId) = true then .revoked
        else phase) := by
  rw [step_revoke]
  rcases hauth : requireAdminAuth d.config adminKey with _ | reply
  · have hboth := phase_revokeBoth (d := d) hphase (body.member "session_id") (body.member "operator_did")
      (body.member "reason")
    have hrevokes : revokes d s sid (.revoke adminKey body revocationId) = true ↔
        (body.member "session_id").asString.filter (fun sid => sid ≠ "") = some sid ∨
          ((body.member "operator_did").truthy && d.modules.revocationTokenRegistry &&
            s.holdsToken (body.member "operator_did") sid) = true := by
      simp only [revokes, namedSession, hauth, Option.isNone_none, Bool.true_and, Bool.or_eq_true]
      exact or_congr decide_eq_true_iff Iff.rfl
    simp only [hrevokes]
    rw [← hboth]
    unfold createRevocation
    rw [hauth]
    dsimp only
    split
    · rfl
    · rfl
    · split
      next hneither =>
        -- a request that names neither changes nothing
        rw [revokeNamed_of_falsy d s _ (by simpa using hneither.1),
          revokeOperator, if_neg (by simpa using hneither.2)]
      · rfl
  · simpa only [createRevocation, revokes, hauth, Option.isNone_some, Bool.false_and,
      Bool.false_eq_true, if_false] using hphase

/-- What a resumed handler does to a session. -/
theorem phase_settle {d : Deployment} {s : State} {sid : String} {phase : SessionPhase}
    (hphase : s.phase sid = some phase) (i : Nat) (ok : Bool) :
    (step d s (.settle i ok)).phase sid =
      some (if recreates s sid (.settle i ok) = true then .pending else phase) := by
  cases hi : s.pending[i]? with
  | none =>
    have hrecreates : recreates s sid (.settle i ok) = false := by
      cases ok <;> simp only [recreates, hi]
    simp only [step, handle, hi, hrecreates]
    exact hphase
  | some p =>
    cases ok with
    | false =>
      simp only [step, handle, hi]
      exact hphase
    | true =>
      simp only [step, handle, hi]
      cases p with
      | create call =>
        simp only [recreates, hi, decide_eq_true_eq]
        show ((createSession s.now s.sessions call).get sid).map SessionState.state = _
        unfold createSession
        rw [OrdMap.get_set]
        by_cases h : call.sessionId = sid
        · rw [if_pos h.symm, if_pos h]
          rfl
        · rw [if_neg (Ne.symm h), if_neg h]
          exact hphase
      | refresh call =>
        simp only [recreates, hi, Bool.false_eq_true, if_false]
        show ((s.sessions.update call.sessionId _).get sid).map SessionState.state = _
        rw [OrdMap.get_update]
        -- the refresh assigns `expires_at` and nothing else
        split
        · rw [Option.map_map]
          exact hphase
        · exact hphase

/-- An event leaves a session in the state that it writes, or as it was. -/
theorem phase_step {d : Deployment} {s : State} {sid : String} {phase : SessionPhase}
    (hphase : s.phase sid = some phase) (e : Event) :
    (step d s e).phase sid = some (phaseAfter d s sid e phase) := by
  cases e with
  | create hostname body sessionId uuids =>
    rw [step_create]
    split
    · exact hphase
    · exact hphase
  | refresh sessionId authorization uuids =>
    rw [step_refresh]
    unfold suspendRefresh
    split
    · exact hphase
    · exact hphase
  | settle i ok => exact phase_settle hphase i ok
  | delete sessionId =>
    have hdeleted : (step d s (.delete sessionId)).phase sid = _ :=
      phase_of_update hphase (sessions_deleteSession d s sessionId)
    simpa only [phaseAfter, deletes, revokes, recreates, decide_eq_true_eq, Bool.false_eq_true,
      if_false, eq_comm (b := sid)] using hdeleted
  | revoke adminKey body revocationId =>
    simpa [phaseAfter, deletes, recreates] using phase_revoke hphase adminKey body revocationId
  | cleanup | elapse ms => exact hphase

/-! ## Closed for good -/

theorem closed_iff_phase {s : State} {sid : String} :
    s.Closed sid ↔ ∃ phase, s.phase sid = some phase ∧ phase.closes := by
  constructor
  · rintro ⟨session, hget, hcloses⟩
    exact ⟨session.state, by rw [State.phase, hget]; rfl, hcloses⟩
  · rintro ⟨phase, hphase, hcloses⟩
    obtain ⟨session, hget, rfl⟩ := Option.map_eq_some_iff.mp hphase
    exact ⟨session, hget, hcloses⟩

/-- An event writes the state of a session once at most. -/
theorem phaseAfter_cases (d : Deployment) (s : State) (sid : String) (e : Event)
    (phase : SessionPhase) :
    (deletes sid e = true ∧ revokes d s sid e = false ∧ recreates s sid e = false ∧
      phaseAfter d s sid e phase = .terminated) ∨
    (deletes sid e = false ∧ revokes d s sid e = true ∧ recreates s sid e = false ∧
      phaseAfter d s sid e phase = .revoked) ∨
    (deletes sid e = false ∧ revokes d s sid e = false ∧ recreates s sid e = true ∧
      phaseAfter d s sid e phase = .pending) ∨
    (deletes sid e = false ∧ revokes d s sid e = false ∧ recreates s sid e = false ∧
      phaseAfter d s sid e phase = phase) := by
  unfold phaseAfter
  cases e with
  | delete sid' => cases h : deletes sid (.delete sid') <;> simp [revokes, recreates]
  | revoke adminKey body revocationId =>
    cases h : revokes d s sid (.revoke adminKey body revocationId) <;> simp [deletes, recreates]
  | settle i ok => cases h : recreates s sid (.settle i ok) <;> simp [deletes, revokes]
  | _ => simp [deletes, revokes, recreates]

/-- A session that is revoked or terminated stays as it is. -/
def Absorbing (d : Deployment) (s : State) (es : List Event) : Prop :=
  ∀ before after, es = before ++ after → ∀ sid phase,
    (run (step d) s before).phase sid = some phase → phase.closes →
      Always (step d) (fun t => t.phase sid = some phase) (run (step d) s before) after

/-- A session keeps its phase throughout a run iff no step of it leads to
another. -/
theorem always_phase_iff {d : Deployment} {sid : String} {phase : SessionPhase}
    {C : State → Event → Prop} (hC : ∀ s e, phaseAfter d s sid e phase = phase ↔ C s e)
    {s : State} {es : List Event} (h : s.phase sid = some phase) :
    Always (step d) (fun t => t.phase sid = some phase) s es ↔ Steps (step d) C s es := by
  refine Machine.always_iff_steps (J := fun _ => True) (fun _ _ _ => trivial)
    (fun t e _ ht => ?_) trivial h
  rw [phase_step ht, Option.some.injEq]
  exact hC t e

/-- A closed session is closed until a create draws its id again; a revoked one
is revoked until it is deleted, and a terminated one terminated until it is
revoked. -/
theorem closed_until (d : Deployment) (s : State) (es : List Event) (sid : String) :
    (s.Closed sid → (Always (step d) (fun t => t.Closed sid) s es ↔
      Steps (step d) (fun s e => recreates s sid e = false) s es)) ∧
    (s.phase sid = some .revoked →
      (Always (step d) (fun t => t.phase sid = some .revoked) s es ↔
        Steps (step d) (fun s e => recreates s sid e = false ∧ deletes sid e = false) s es)) ∧
    (s.phase sid = some .terminated →
      (Always (step d) (fun t => t.phase sid = some .terminated) s es ↔
        Steps (step d) (fun s e => recreates s sid e = false ∧ revokes d s sid e = false)
          s es)) := by
  refine ⟨fun hclosed => ?_, fun hrevoked => ?_, fun hterminated => ?_⟩
  · refine Machine.always_iff_steps (J := fun _ => True) (fun _ _ _ => trivial)
      (fun t e _ ht => ?_) trivial hclosed
    obtain ⟨phase, hphase, hcloses⟩ := closed_iff_phase.mp ht
    -- closed is one of two phases: a step that does not recreate the session
    -- may lead from one to the other
    have hafter : (step d t e).Closed sid ↔ (phaseAfter d t sid e phase).closes := by
      simp only [closed_iff_phase, phase_step hphase, Option.some.injEq, exists_eq_left']
    rw [hafter]
    rcases phaseAfter_cases d t sid e phase with ⟨-, -, hr, hp⟩ | ⟨-, -, hr, hp⟩ | ⟨-, -, hr, hp⟩ |
      ⟨-, -, hr, hp⟩
    · simp [hp, hr, SessionPhase.closes]
    · simp [hp, hr, SessionPhase.closes]
    · simp [hp, hr, SessionPhase.closes]
    · simp only [hp, hr, hcloses]
  · refine always_phase_iff (fun t e => ?_) hrevoked
    rcases phaseAfter_cases d t sid e .revoked with ⟨hd, -, hr, hp⟩ | ⟨hd, -, hr, hp⟩ |
      ⟨hd, -, hr, hp⟩ | ⟨hd, -, hr, hp⟩
    all_goals simp [hp, hr, hd]
  · refine always_phase_iff (fun t e => ?_) hterminated
    rcases phaseAfter_cases d t sid e .terminated with ⟨-, hv, hr, hp⟩ | ⟨-, hv, hr, hp⟩ |
      ⟨-, hv, hr, hp⟩ | ⟨-, hv, hr, hp⟩
    all_goals simp [hp, hr, hv]

/-- A revoked session is deleted. -/
theorem absorbing_fails :
    ¬ ∀ (d : Deployment), d.Wired → ∀ (now : Int) (cache : Option RevocationCache)
      (es : List Event), Absorbing d (.start now cache) es := by
  intro h
  have habsorbing : Absorbing Sample.gateway Sample.start
      ([Sample.create, .settle 0 true, Sample.revoke] ++ [.delete Sample.sid]) :=
    h Sample.gateway Sample.wired Sample.now (some (.new 100000)) _
  have hrevoked := habsorbing _ _ rfl Sample.sid .revoked
  rw [run_cons, run_cons, run_cons, Sample.step_create, Sample.step_issue, Machine.run_nil]
    at hrevoked
  have hlast := (hrevoked (by decide +kernel) (.inr rfl)).last
  exact absurd hlast (by decide +kernel)

end ChainKVM.Gateway
