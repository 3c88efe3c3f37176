import ChainKVM.Gateway.Exchange
import ChainKVM.Gateway.Finality
import ChainKVM.Gateway.Grant

/-!
# Every token goes back to a request that the policy let pass

A token is handed out when a suspended handler is settled: by a create, for
what its request asked for, or by a refresh, for what the session map says of
the session. Only a create puts anything about operator, robot and scope into
that map, and it does so after the policy check. `State.Approves` is what
follows from this for the whole state, and every event keeps it.
-/

namespace ChainKVM.Gateway

open Js (Val)

/-! ## Tokens that are handed out -/

/-- The claims that a suspended handler waits for the signature of. -/
def Pending.claims : Pending → CapabilityTokenClaims
  | .create call => call.claims
  | .refresh call => call.claims

/-- The token in a reply. -/
def Reply.token : Reply → Option String
  | .created response => some response.capability_token
  | .refreshed response => some response.capability_token
  | _ => none

/-- The claims of the token that an event hands out, if it does. -/
def issues (s : State) : Event → Option CapabilityTokenClaims
  | .settle i true => s.pending[i]?.map Pending.claims
  | _ => none

/-- The tokens in the replies are those that are handed out. -/
theorem token_handle (d : Deployment) (s : State) (e : Event) :
    (handle d s e).1.bind Reply.token = (issues s e).map d.sign := by
  cases e with
  | create hostname body sid uuids =>
    unfold handle
    dsimp only
    cases hstart : startCreate d s hostname body sid uuids with
    | inr call => rfl
    | inl reply =>
      unfold startCreate at hstart
      split at hstart
      · cases hstart
        rfl
      · cases hstart
        rfl
      · dsimp only at hstart
        split at hstart
        · cases hstart
          rfl
        · split at hstart <;> cases hstart <;> rfl
  | refresh sid authorization uuids =>
    unfold handle startRefresh
    dsimp only
    split
    · rfl
    · unfold letThrough
      split
      · rfl
      · split
        · rfl
        · split
          · rfl
          · split <;> rfl
  | settle i ok =>
    cases ok with
    | false =>
      unfold handle
      dsimp only
      cases s.pending[i]? <;> rfl
    | true =>
      unfold handle issues
      dsimp only
      cases s.pending[i]? with
      | none => rfl
      | some p => cases p <;> rfl
  | delete sid =>
    show (deleteSession d s sid).1.token = none
    unfold deleteSession
    cases s.sessions.get sid <;> rfl
  | revoke adminKey body revocationId =>
    show (createRevocation d s adminKey body revocationId).1.token = none
    unfold createRevocation
    split
    · rfl
    · split
      · rfl
      · rfl
      · dsimp only
        split <;> rfl
  | cleanup => rfl
  | elapse ms => rfl

/-! ## Approval -/

/-- A request of this operator for this robot and this scope has passed the
policy, at the latest at `now`. -/
def Approved (d : Deployment) (now : Int) (operatorDid robotId scope : Val) : Prop :=
  ∃ body t info, t ≤ now ∧ body.member "operator_did" = operatorDid ∧
    body.member "robot_id" = robotId ∧ requestedScope body = scope ∧
    evaluateSessionPolicy d.jose t (body.member "vc_or_vp") robotId scope
      d.modules.policyEvaluator d.modules.policyStore = .success info

theorem Approved.mono {d : Deployment} {now now' : Int} {operatorDid robotId scope : Val}
    (h : Approved d now operatorDid robotId scope) (hnow : now ≤ now') :
    Approved d now' operatorDid robotId scope := by
  obtain ⟨body, t, info, ht, hrest⟩ := h
  exact ⟨body, t, info, ht.trans hnow, hrest⟩

/-- What a token says has been approved. -/
def CapabilityTokenClaims.Approved (d : Deployment) (now : Int) (claims : CapabilityTokenClaims) :
    Prop :=
  Gateway.Approved d now claims.sub claims.aud claims.scope

/-- What the session map says has been approved. -/
def SessionsApproved (d : Deployment) (now : Int) (sessions : OrdMap String SessionState) : Prop :=
  ∀ sid session, sessions.get sid = some session →
    Approved d now session.operator_did session.robot_id session.effective_scope

/-- A create that waits has passed the policy, and asks for the token of what
it will store; what any handler waits for has been approved. -/
structure State.Approves (d : Deployment) (s : State) : Prop where
  sessions : SessionsApproved d s.now s.sessions
  pending : ∀ p ∈ s.pending, p.claims.Approved d s.now
  creates : ∀ call, .create call ∈ s.pending → call.claims.sub = call.operatorDid ∧
    call.claims.aud = call.robotId ∧ call.claims.scope = call.effectiveScope

/-! ## The session map -/

/-- Assigning another state or another time of expiry approves nothing new. -/
theorem SessionsApproved.update {d : Deployment} {now : Int}
    {sessions : OrdMap String SessionState} (h : SessionsApproved d now sessions) (sid : String)
    {f : SessionState → SessionState} (hoperator : ∀ x, (f x).operator_did = x.operator_did)
    (hrobot : ∀ x, (f x).robot_id = x.robot_id)
    (hscope : ∀ x, (f x).effective_scope = x.effective_scope) :
    SessionsApproved d now (sessions.update sid f) := by
  intro sid' session hget
  rw [OrdMap.get_update] at hget
  by_cases hsid : sid' = sid
  · rw [if_pos hsid] at hget
    obtain ⟨x, hx, rfl⟩ := Option.map_eq_some_iff.mp hget
    rw [hoperator, hrobot, hscope]
    exact h sid' x hx
  · rw [if_neg hsid] at hget
    exact h sid' session hget

theorem SessionsApproved.updateSessionState {d : Deployment} {now : Int}
    {sessions : OrdMap String SessionState} (h : SessionsApproved d now sessions) (sid : String)
    (state : SessionPhase) :
    SessionsApproved d now (updateSessionState sessions sid state).2 := by
  unfold Gateway.updateSessionState
  cases sessions.get sid with
  | none => exact h
  | some session => exact h.update sid (fun _ => rfl) (fun _ => rfl) fun _ => rfl

theorem SessionsApproved.revokeSessions {d : Deployment} {now : Int} (reason : Val) :
    ∀ (sids : List String) {s : State}, SessionsApproved d now s.sessions →
      SessionsApproved d now (revokeSessions reason sids s).sessions := by
  intro sids
  induction sids with
  | nil => exact fun h => h
  | cons sid sids ih =>
    intro s h
    exact ih (s := notifyRevocation
      { s with sessions := (Gateway.updateSessionState s.sessions sid .revoked).2 } sid reason)
      (h.updateSessionState sid .revoked)

theorem SessionsApproved.createRevocation {d : Deployment} {now : Int} {s : State}
    (h : SessionsApproved d now s.sessions) (adminKey : Option String) (body : Val)
    (revocationId : String) :
    SessionsApproved d now (createRevocation d s adminKey body revocationId).2.sessions := by
  have hnamed (sessionId reason : Val) :
      SessionsApproved d now (revokeNamed d s sessionId reason).2.sessions := by
    unfold revokeNamed
    split
    next sid =>
      split
      · exact h
      · show SessionsApproved d now (revokeSession d s sid reason).2.sessions
        rw [sessions_revokeSession]
        exact h.updateSessionState sid .revoked
    · exact h
  have hoperator (t : State) (ht : SessionsApproved d now t.sessions) (operatorDid reason : Val) :
      SessionsApproved d now (revokeOperator d t operatorDid reason).2.sessions := by
    unfold revokeOperator revokeOperatorSessions
    split
    · split
      · exact SessionsApproved.revokeSessions reason _ ht
      · exact ht
    · exact ht
  unfold Gateway.createRevocation
  split
  · exact h
  · split
    · exact h
    · exact h
    · dsimp only
      split
      · exact h
      · exact hoperator _ (hnamed _ _) _ _

/-! ## One event -/

theorem now_revokeSessions (reason : Val) :
    ∀ (sids : List String) (s : State), (revokeSessions reason sids s).now = s.now := by
  intro sids
  induction sids with
  | nil => exact fun _ => rfl
  | cons sid sids ih => exact fun s => ih _

theorem now_createRevocation (d : Deployment) (s : State) (adminKey : Option String) (body : Val)
    (revocationId : String) : (createRevocation d s adminKey body revocationId).2.now = s.now := by
  have hnamed (sessionId reason : Val) : (revokeNamed d s sessionId reason).2.now = s.now := by
    unfold revokeNamed
    split
    next sid =>
      split
      · rfl
      · show (revokeSession d s sid reason).2.now = s.now
        obtain ⟨t, rfl, h | h⟩ := revokeSession_cases d s sid reason
        · rw [h]
        · rw [h]
          rfl
    · rfl
  have hoperator (t : State) (operatorDid reason : Val) :
      (revokeOperator d t operatorDid reason).2.now = t.now := by
    unfold revokeOperator revokeOperatorSessions
    split
    · split
      · exact now_revokeSessions reason _ _
      · rfl
    · rfl
  unfold Gateway.createRevocation
  split
  · rfl
  · split
    · rfl
    · rfl
    · dsimp only
      split
      · rfl
      · exact (hoperator _ _ _).trans (hnamed _ _)

/-- A create that has passed the policy asks for the token of what it will
store. -/
theorem CreateStarted.approves {d : Deployment} {s : State} {body : Val} {sid : String}
    {uuids : Uuids} {call : CreateCall} (h : CreateStarted d s body sid uuids call) :
    call.claims.Approved d s.now ∧ call.claims.sub = call.operatorDid ∧
      call.claims.aud = call.robotId ∧ call.claims.scope = call.effectiveScope := by
  have hclaims : call.claims.sub = call.operatorDid ∧ call.claims.aud = call.robotId ∧
      call.claims.scope = call.effectiveScope := by
    rw [h.claims]
    exact ⟨rfl, rfl, rfl⟩
  refine ⟨?_, hclaims⟩
  obtain ⟨hsub, haud, hscope⟩ := hclaims
  unfold CapabilityTokenClaims.Approved
  rw [hsub, haud, hscope]
  exact ⟨body, s.now, call.policyResult, le_refl _, h.same_operator.symm, h.same_robot.symm,
    h.same_scope.symm, h.passed⟩

/-- A refresh asks for a token that says what the session map says. -/
theorem claims_of_startRefresh {d : Deployment} {s : State} {sid : String}
    {authorization : Option String} {uuids : Uuids} {call : RefreshCall} {registry : TokenRegistry}
    (h : startRefresh d s sid authorization uuids = (.inr call, registry)) :
    ∃ session, s.sessions.get sid = some session ∧ call.claims.sub = session.operator_did ∧
      call.claims.aud = session.robot_id ∧ call.claims.scope = session.effective_scope := by
  unfold startRefresh at h
  split at h
  · cases h
  · unfold letThrough at h
    split at h
    · cases h
    next session hsession =>
      split at h
      · cases h
      · split at h
        · cases h
        · split at h
          · cases h
          · cases h
            exact ⟨session, hsession, rfl, rfl, rfl⟩

theorem State.Approves.start (d : Deployment) (now : Int) (cache : Option RevocationCache) :
    (State.start now cache).Approves d :=
  ⟨fun _ _ h => (nomatch h), fun _ h => (nomatch h), fun _ h => (nomatch h)⟩

/-- A handler that is settled without a token leaves the others. -/
theorem State.Approves.resumed {d : Deployment} {s : State} (h : s.Approves d) (i : Nat) :
    { s with pending := s.pending.eraseIdx i : State }.Approves d where
  sessions := h.sessions
  pending p hp := h.pending p (List.mem_of_mem_eraseIdx hp)
  creates call hcall := h.creates call (List.mem_of_mem_eraseIdx hcall)

/-- Every event keeps it. -/
theorem State.Approves.step {d : Deployment} {s : State} (h : s.Approves d) (e : Event) :
    (Gateway.step d s e).Approves d := by
  cases e with
  | create hostname body sid uuids =>
    rw [step_create]
    cases hstart : startCreate d s hostname body sid uuids with
    | inl reply => exact h
    | inr call =>
      obtain ⟨happroved, hclaims⟩ := (startCreate_inr hstart).approves
      refine ⟨h.sessions, fun p hp => ?_, fun call' hcall => ?_⟩
      · rcases List.mem_append.mp hp with hold | hnew
        · exact h.pending p hold
        · rw [List.mem_singleton.mp hnew]
          exact happroved
      · rcases List.mem_append.mp hcall with hold | hnew
        · exact h.creates call' hold
        · cases List.mem_singleton.mp hnew
          exact hclaims
  | refresh sid authorization uuids =>
    rw [Gateway.step_refresh]
    cases hstart : startRefresh d s sid authorization uuids with
    | mk started registry =>
      cases started with
      | inl reply => exact ⟨h.sessions, h.pending, h.creates⟩
      | inr call =>
        obtain ⟨session, hsession, hsub, haud, hscope⟩ := claims_of_startRefresh hstart
        have happroved := h.sessions sid session hsession
        rw [← hsub, ← haud, ← hscope] at happroved
        refine ⟨h.sessions, fun p hp => ?_, fun call' hcall => ?_⟩
        · rcases List.mem_append.mp hp with hold | hnew
          · exact h.pending p hold
          · rw [List.mem_singleton.mp hnew]
            exact happroved
        · rcases List.mem_append.mp hcall with hold | hnew
          · exact h.creates call' hold
          · cases List.mem_singleton.mp hnew
  | settle i ok =>
    have hresumed := h.resumed i
    unfold Gateway.step handle
    dsimp only
    cases hi : s.pending[i]? with
    | none => exact h
    | some p =>
      have hp := List.mem_of_getElem? hi
      cases ok with
      | false => exact hresumed
      | true =>
        cases p with
        | create call =>
          -- the session that is stored is the one the token is for
          have happroved := h.pending _ hp
          obtain ⟨hsub, haud, hscope⟩ := h.creates call hp
          refine ⟨fun sid session hget => ?_, hresumed.pending, hresumed.creates⟩
          rcases OrdMap.get_set_eq_some_iff.mp hget with ⟨-, rfl⟩ | ⟨-, hold⟩
          · unfold CapabilityTokenClaims.Approved Pending.claims at happroved
            rw [hsub, haud, hscope] at happroved
            exact happroved
          · exact h.sessions sid session hold
        | refresh call =>
          exact ⟨h.sessions.update _ (fun _ => rfl) (fun _ => rfl) fun _ => rfl,
            hresumed.pending, hresumed.creates⟩
  | delete sid =>
    have hpending := (shrinks_delete d s sid).pending
    have hnow : (deleteSession d s sid).2.now = s.now := by
      unfold deleteSession
      cases s.sessions.get sid <;> rfl
    show (deleteSession d s sid).2.Approves d
    refine ⟨?_, ?_, ?_⟩
    · rw [hnow, sessions_deleteSession]
      exact h.sessions.updateSessionState sid .terminated
    · rw [hnow, hpending]
      exact h.pending
    · rw [hpending]
      exact h.creates
  | revoke adminKey body revocationId =>
    have hpending := (shrinks_revoke d s adminKey body revocationId).pending
    rw [step_revoke]
    refine ⟨?_, ?_, ?_⟩
    · rw [now_createRevocation]
      exact h.sessions.createRevocation adminKey body revocationId
    · rw [now_createRevocation, hpending]
      exact h.pending
    · rw [hpending]
      exact h.creates
  | cleanup => exact ⟨h.sessions, h.pending, h.creates⟩
  | elapse ms =>
    have hlater : s.now ≤ s.now + ms := by omega
    exact ⟨fun sid session hget => (h.sessions sid session hget).mono hlater,
      fun p hp => (h.pending p hp).mono hlater, h.creates⟩

/-- What is handed out has been approved. -/
theorem State.Approves.issues {d : Deployment} {s : State} (h : s.Approves d) {e : Event}
    {claims : CapabilityTokenClaims} (hissues : Gateway.issues s e = some claims) :
    claims.Approved d s.now := by
  unfold Gateway.issues at hissues
  split at hissues
  next i =>
    obtain ⟨p, hp, rfl⟩ := Option.map_eq_some_iff.mp hissues
    exact h.pending p (List.mem_of_getElem? hp)
  · cases hissues

end ChainKVM.Gateway
