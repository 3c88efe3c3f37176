import ChainKVM.Gateway.Sample
import ChainKVM.Gateway.Authority

/-!
# What a revocation is worth

Two properties of every run of the gateway. A session that is terminated or
revoked has no valid token, then or later (`StaysDead`); and once an operator
has been revoked, all sessions the operator had are closed and stay without a
valid token (`RevokedForGood`).

The gateway's store of grants is consistent and sound after every orderly run
(`good_of_steps`), and closed sessions stay closed, so the first property holds
of every orderly run. A refresh that resumes after its session was deleted is
not orderly, and breaks it (`closed_stays_dead_fails`).

For the second property the revocation itself must reach every session of the
operator. It reaches those that have a registered token; a session whose token
was taken out by a refresh that is suspended, or by the cleanup, has none
(`revoked_for_good_fails`).
-/

namespace ChainKVM.Gateway

open Js (Val)
open Machine (run run_cons Steps steps_cons Always)

/-! ## Dead sessions -/

/-- The session is terminated or revoked. -/
def State.Closed (s : State) (sid : String) : Prop :=
  ∃ session, s.sessions.get sid = some session ∧ session.state.closes

/-- No token of the session is valid. -/
def State.NoValidToken (s : State) (sid : String) : Prop :=
  ∀ jti entry, s.registry.get jti = some entry → entry.sessionId = sid →
    (s.registry.isValid s.now jti).1 = false

instance (s : State) (sid : String) : Decidable (s.Closed sid) :=
  decidable_of_iff (∃ session ∈ s.sessions.get sid, session.isOpen = false) (by
    refine exists_congr fun session => and_congr Iff.rfl ?_
    unfold SessionState.isOpen SessionPhase.closes
    cases session.state <;> simp)

instance (s : State) (sid : String) : Decidable (s.NoValidToken sid) :=
  decidable_of_iff (∀ e ∈ s.registry.tokens.entries, e.2.sessionId = sid →
      (s.registry.isValid s.now e.1).1 = false) (by
    constructor
    · exact fun h jti entry hget => h (jti, entry) (OrdMap.get_eq_some_iff.mp hget)
    · exact fun h e hmem => h e.1 e.2 (OrdMap.get_eq_some_iff.mpr hmem))

/-- From each point of the run on, a session that is closed there stays closed
and has no valid token. -/
def StaysDead (d : Deployment) (s : State) (es : List Event) : Prop :=
  ∀ before after, es = before ++ after → ∀ sid, (run (step d) s before).Closed sid →
    Always (step d) (fun t => t.Closed sid ∧ t.NoValidToken sid) (run (step d) s before) after

theorem isOpen_eq_false {session : SessionState} :
    session.isOpen = false ↔ session.state.closes := by
  unfold SessionState.isOpen SessionPhase.closes
  cases session.state <;> simp

theorem closed_iff {s : State} {sid : String} : s.Closed sid ↔ s.grants.Closed sid := by
  constructor
  · rintro ⟨session, hget, hclosed⟩
    exact ⟨session.operator_did,
      grants_holder_some.mpr ⟨session, hget, rfl, isOpen_eq_false.mpr hclosed⟩⟩
  · rintro ⟨op, hholder⟩
    obtain ⟨session, hget, -, hopen⟩ := grants_holder_some.mp hholder
    exact ⟨session, hget, isOpen_eq_false.mp hopen⟩

/-- In a sound store, a closed session has no valid token. -/
theorem noValidToken_of_closed {s : State} {sid : String} (hs : s.grants.Good)
    (hclosed : s.Closed sid) : s.NoValidToken sid := by
  rintro jti entry hget rfl
  by_cases hvalid : (s.registry.isValid s.now jti).1 = true
  · obtain ⟨entry', hget', hlive⟩ := TokenRegistry.exists_of_isValid hvalid
    obtain rfl : entry = entry' := Option.some.inj (hget.symm.trans hget')
    have hgrant : s.grants.grant jti = some entry.grant :=
      grants_grant_some.mpr ⟨entry, hget, rfl⟩
    exact absurd ⟨jti, entry.grant, hgrant, rfl, hlive⟩ (hs.sound _ (closed_iff.mp hclosed))
  · exact Bool.eq_false_iff.mpr hvalid

theorem start_good (now : Int) (cache : Option RevocationCache) :
    (State.start now cache).grants.Good := by
  refine ⟨⟨?_, ?_⟩, ?_⟩
  · rintro jti x ⟨⟩
  · rintro sid op ⟨call, hmem, -⟩
    cases hmem
  · rintro sid ⟨op, ⟨⟩⟩

section Runs

variable {d : Deployment} (hwired : d.Wired)

include hwired

theorem good_of_steps {s : State} (hs : s.grants.Good) {es : List Event}
    (h : Steps (step d) (fun s e => orderly s e = true) s es) :
    (run (step d) s es).grants.Good :=
  (Machine.always_of_steps (I := fun s => s.grants.Good)
    (fun _ _ hI he => Grants.Moves.good (orderly_moves hwired hI he) hI) hs h).last

/-- In an orderly run, a closed session stays closed and without a valid
token. -/
theorem always_dead {s : State} (hs : s.grants.Good) {es : List Event}
    (h : Steps (step d) (fun s e => orderly s e = true) s es) {sid : String}
    (hclosed : s.Closed sid) :
    Always (step d) (fun t => t.Closed sid ∧ t.NoValidToken sid) s es := by
  have hrun : Always (step d) (fun t => t.grants.Good ∧ t.grants.Closed sid) s es := by
    refine Machine.always_of_steps (fun t e hI he => ?_) ⟨hs, closed_iff.mp hclosed⟩ h
    have hmoves := orderly_moves hwired hI.1 he
    exact ⟨Grants.Moves.good hmoves hI.1, Grants.Moves.closed hmoves hI.2⟩
  refine Always.imp (fun t ht => ?_) hrun
  have htclosed := closed_iff.mpr ht.2
  exact ⟨htclosed, noValidToken_of_closed ht.1 htclosed⟩

/-- In every orderly run from the start, sessions that were terminated or
revoked stay without a valid token. -/
theorem closed_stays_dead (now : Int) (cache : Option RevocationCache) (es : List Event)
    (h : Steps (step d) (fun s e => orderly s e = true) (.start now cache) es) :
    StaysDead d (.start now cache) es := by
  rintro before after rfl sid hclosed
  obtain ⟨hbefore, hafter⟩ := Machine.steps_append.mp h
  exact always_dead hwired (good_of_steps hwired (start_good now cache) hbefore) hafter hclosed

end Runs

theorem Sample.wired : Sample.gateway.Wired := ⟨rfl, rfl⟩

/-- The session is deleted after its refresh. -/
theorem closed_stays_dead_sample :
    StaysDead Sample.gateway Sample.start
      [Sample.create, .settle 0 true, Sample.refresh, .settle 0 true, .delete Sample.sid] := by
  refine closed_stays_dead Sample.wired Sample.now _ _ ?_
  change Steps _ _ Sample.start _
  rw [steps_cons, steps_cons, steps_cons, Sample.step_create, Sample.step_issue, Sample.step_wait]
  exact ⟨rfl, by decide +kernel, rfl, by decide +kernel, rfl, trivial⟩

/-- A session that is deleted while its refresh is suspended gets a valid
token when the refresh resumes. -/
theorem closed_stays_dead_fails :
    ¬ ∀ (d : Deployment), d.Wired → ∀ (now : Int) (cache : Option RevocationCache)
      (es : List Event), StaysDead d (.start now cache) es := by
  intro h
  have hstays : StaysDead Sample.gateway Sample.start
      ([Sample.create, .settle 0 true, Sample.refresh, .delete Sample.sid] ++ [.settle 0 true]) :=
    h Sample.gateway Sample.wired Sample.now (some (.new 100000)) _
  have hdead := hstays _ _ rfl Sample.sid
  rw [Sample.run_waiting] at hdead
  exact absurd (hdead (by decide +kernel)).last.2 (by decide +kernel)

/-! ## Revoked operators -/

/-- The operator that a revocation names, if it passes the admin check. -/
def revokedOperator (d : Deployment) : Event → Option Val
  | .revoke adminKey body _ =>
    if (requireAdminAuth d.config adminKey).isNone ∧ (body.member "operator_did").truthy then
      some (body.member "operator_did")
    else none
  | _ => none

/-- The session that a revocation names. -/
def namedSession : Event → Option String
  | .revoke _ body _ => (body.member "session_id").asString.filter fun sid => sid ≠ ""
  | _ => none

/-- Every open session of the operator, other than the one that is named, has
a registered token, expired or not. -/
def covered (s : State) (did : Val) (named : Option String) : Bool :=
  s.sessions.entries.all fun (sid, session) =>
    !(session.operator_did.strictEq did && session.isOpen) || named = some sid ||
      s.registry.tokens.values.any fun entry => entry.sessionId = sid

/-- A step that is orderly and, when it revokes an operator, reaches all the
operator's sessions. -/
def thorough (d : Deployment) (s : State) (e : Event) : Bool :=
  orderly s e && (revokedOperator d e).all fun did => covered s did (namedSession e)

/-- Once the revocation of an operator has been processed, the sessions the
operator had are closed and stay closed, without a valid token. -/
def RevokedForGood (d : Deployment) (s : State) (es : List Event) : Prop :=
  ∀ before e after did, es = before ++ e :: after → revokedOperator d e = some did →
    ∀ sid session, (run (step d) s before).sessions.get sid = some session →
      session.operator_did.strictEq did = true →
        Always (step d) (fun t => t.Closed sid ∧ t.NoValidToken sid)
          (step d (run (step d) s before) e) after

theorem get_updateSessionState (sessions : OrdMap String SessionState) (sid sid' : String)
    (state : SessionPhase) :
    (updateSessionState sessions sid state).2.get sid' =
      if sid' = sid then (sessions.get sid').map fun session => { session with state := state }
      else sessions.get sid' := by
  unfold updateSessionState
  cases hget : sessions.get sid with
  | none =>
    by_cases h : sid' = sid
    · rw [if_pos h, h, hget]
      rfl
    · rw [if_neg h]
  | some session => exact OrdMap.get_update _ _ _ _

/-- The loop over an operator's sessions revokes each of them. -/
theorem closed_revokeSessions (reason : Val) {sid : String} :
    ∀ (sids : List String) (s : State), (s.sessions.get sid).isSome = true →
      s.Closed sid ∨ sid ∈ sids → (revokeSessions reason sids s).Closed sid := by
  intro sids
  induction sids with
  | nil => exact fun s _ h => h.resolve_right (by simp)
  | cons head sids ih =>
    intro s hsome h
    have hget := get_updateSessionState s.sessions head sid .revoked
    obtain ⟨session, hsession⟩ := Option.isSome_iff_exists.mp hsome
    by_cases hhead : sid = head
    · rw [if_pos hhead, hsession] at hget
      refine ih _ ?_ (.inl ⟨_, hget, .inr rfl⟩)
      exact Option.isSome_iff_exists.mpr ⟨_, hget⟩
    · rw [if_neg hhead, hsession] at hget
      refine ih _ (Option.isSome_iff_exists.mpr ⟨_, hget⟩) ?_
      rcases h with ⟨session', hget', hclosed⟩ | hmem
      · obtain rfl : session = session' := Option.some.inj (hsession.symm.trans hget')
        exact .inl ⟨session, hget, hclosed⟩
      · exact .inr (List.mem_of_ne_of_mem hhead hmem)

/-- A step that revokes an operator: both halves of the handler run. -/
structure RevokesOperator (d : Deployment) (s : State) (e : Event) (did sessionId reason : Val) :
    Prop where
  truthy : did.truthy = true
  named : namedSession e = sessionId.asString.filter fun sid => sid ≠ ""
  sessions : (step d s e).sessions =
    (revokeOperator d (revokeNamed d s sessionId reason).2 did reason).2.sessions

theorem step_revoke_operator {d : Deployment} {s : State} {e : Event} {did : Val}
    (h : revokedOperator d e = some did) :
    ∃ sessionId reason, RevokesOperator d s e did sessionId reason := by
  cases e with
  | revoke adminKey body revocationId =>
    simp only [revokedOperator] at h
    by_cases hguard : (requireAdminAuth d.config adminKey).isNone = true ∧
        (body.member "operator_did").truthy = true
    · rw [if_pos hguard] at h
      obtain rfl := Option.some.inj h
      obtain ⟨hauth, htruthy⟩ := hguard
      refine ⟨body.member "session_id", body.member "reason", htruthy, rfl, ?_⟩
      rw [step_revoke]
      unfold createRevocation
      rw [Option.isNone_iff_eq_none.mp hauth]
      dsimp only
      -- there is no request without a body that names an operator
      split
      · cases htruthy
      · cases htruthy
      · rw [if_neg (by simp [htruthy])]
        rfl
    · rw [if_neg hguard] at h
      cases h
  | _ => cases h

/-- The half of the handler that revokes a named session leaves the tokens of
the other sessions. -/
theorem get_revokeNamed (d : Deployment) (reason : Val) {s : State} {sessionId : Val} {jti : String}
    {entry : TokenEntry} (hget : s.registry.get jti = some entry)
    (hother : sessionId.asString.filter (fun sid => sid ≠ "") ≠ some entry.sessionId) :
    (revokeNamed d s sessionId reason).2.registry.get jti = some entry := by
  unfold revokeNamed
  split
  next sid =>
    by_cases hempty : sid = ""
    · rw [if_pos hempty]
      exact hget
    · rw [if_neg hempty]
      have hne : entry.sessionId ≠ sid := by
        rintro rfl
        exact hother (by simp [Val.asString, hempty])
      have hkept : (s.registry.revokeBySession s.now sid none).2.get jti = some entry := by
        rw [TokenRegistry.get_revokeBySession, hget, Option.filter_some, if_pos (by simp [hne])]
      have hregistry : (revokeSession d s sid reason).2.registry.get jti = some entry := by
        rw [registry_revokeSession]
        by_cases hreg : d.modules.revocationTokenRegistry = true
        · rw [if_pos hreg]
          exact hkept
        · rw [if_neg hreg]
          exact hget
      exact hregistry
  · exact hget

/-- The half of the handler that revokes a named session closes it. -/
theorem closed_revokeNamed (d : Deployment) (reason : Val) {s : State} {sessionId : Val} {sid : String}
    (hnamed : sessionId.asString.filter (fun sid => sid ≠ "") = some sid)
    {session : SessionState} (hget : s.sessions.get sid = some session) :
    (revokeNamed d s sessionId reason).2.Closed sid := by
  rw [Option.filter_eq_some_iff] at hnamed
  cases sessionId <;> cases hnamed.1
  have hempty : sid ≠ "" := by simpa using hnamed.2
  have hupdated := get_updateSessionState s.sessions sid sid .revoked
  rw [if_pos rfl, hget] at hupdated
  show (if sid = "" then ([], s) else _ : List String × State).2.Closed sid
  rw [if_neg hempty]
  have hclosed : (revokeSession d s sid reason).2.Closed sid := by
    rw [← sessions_revokeSession d s sid reason] at hupdated
    exact ⟨_, hupdated, .inr rfl⟩
  exact hclosed

section Runs

variable {d : Deployment} (hwired : d.Wired)

include hwired

/-- A revocation that reaches all of an operator's sessions closes them. -/
theorem closed_of_revocation {s : State} (hs : s.grants.Good) {e : Event} {did : Val}
    (he : revokedOperator d e = some did) (hcovered : covered s did (namedSession e) = true)
    {sid : String} {session : SessionState} (hget : s.sessions.get sid = some session)
    (hop : session.operator_did.strictEq did = true) : (step d s e).Closed sid := by
  obtain ⟨sessionId, reason, htruthy, hnamed, hsessions⟩ := step_revoke_operator (s := s) he
  have hmoves := moves_revokeNamed hwired s sessionId reason
  have hgood := Grants.Moves.good hmoves hs
  have hafter := moves_revokeOperator hwired hgood.consistent did reason
  -- it is enough that the session is closed after both halves
  suffices hclosed :
      (revokeOperator d (revokeNamed d s sessionId reason).2 did reason).2.Closed sid by
    obtain ⟨x, hx, hxclosed⟩ := hclosed
    exact ⟨x, by rw [hsessions]; exact hx, hxclosed⟩
  by_cases hopen : session.isOpen = true
  · have hentry := List.all_eq_true.mp hcovered (sid, session) (OrdMap.get_eq_some_iff.mp hget)
    simp only [hop, hopen, Bool.and_self, Bool.not_true, Bool.false_or,
      Bool.or_eq_true, decide_eq_true_eq, List.any_eq_true] at hentry
    by_cases hself : namedSession e = some sid
    · have hclosed := closed_revokeNamed d reason (hnamed.symm.trans hself) hget
      exact closed_iff.mpr (Grants.Moves.closed hafter (closed_iff.mp hclosed))
    · obtain ⟨entry, hmem, rfl⟩ := hentry.resolve_left hself
      obtain ⟨jti, hjti⟩ := OrdMap.mem_values_iff.mp hmem
      have hkept := get_revokeNamed d reason hjti (hnamed ▸ hself)
      -- the token names the operator, so its session is among those revoked
      obtain ⟨b, hb⟩ := hs.consistent.grant jti entry.grant (grants_grant_some.mpr ⟨entry, hjti, rfl⟩)
      obtain ⟨session', hget', hop', -⟩ := grants_holder_some.mp hb
      obtain rfl : session = session' := Option.some.inj (hget.symm.trans hget')
      change session.operator_did = entry.operatorDid at hop'
      have hoperator : entry.operatorDid.strictEq did = true := by
        rw [← hop']
        exact hop
      have hrevoked : entry.sessionId ∈
          ((revokeNamed d s sessionId reason).2.registry.revokeByOperator
            (revokeNamed d s sessionId reason).2.now did none).1 :=
        TokenRegistry.mem_revokeByOperator.mpr ⟨jti, entry, hkept, hoperator, rfl⟩
      obtain ⟨b', hb'⟩ := Grants.Moves.principal hmoves
        (grants_holder_some.mpr ⟨session, hget, rfl, rfl⟩)
      obtain ⟨session'', hget'', -⟩ := grants_holder_some.mp hb'
      unfold revokeOperator revokeOperatorSessions
      rw [if_pos htruthy, hwired.revocations, if_pos rfl]
      exact closed_revokeSessions reason _ _ (Option.isSome_iff_exists.mpr ⟨_, hget''⟩)
        (.inr hrevoked)
  · -- closed before, closed after
    have hclosed : s.Closed sid :=
      ⟨session, hget, isOpen_eq_false.mp (Bool.eq_false_iff.mpr hopen)⟩
    have hboth := Grants.Moves.closed hafter (Grants.Moves.closed hmoves (closed_iff.mp hclosed))
    exact closed_iff.mpr hboth

/-- In every thorough run from the start, a revoked operator's sessions are
closed for good. -/
theorem revoked_for_good (now : Int) (cache : Option RevocationCache) (es : List Event)
    (h : Steps (step d) (fun s e => thorough d s e = true) (.start now cache) es) :
    RevokedForGood d (.start now cache) es := by
  rintro before e after did rfl he sid session hget hop
  obtain ⟨hbefore, hthorough, hafter⟩ := Machine.steps_append.mp h
  have horderly (s : State) (e : Event) (ht : thorough d s e = true) : orderly s e = true :=
    (Bool.and_eq_true_iff.mp ht).1
  have hgood := good_of_steps hwired (start_good now cache) (hbefore.imp horderly)
  have hcovered := (Bool.and_eq_true_iff.mp hthorough).2
  rw [he, Option.all_some] at hcovered
  have hclosed := closed_of_revocation hwired hgood he hcovered hget hop
  exact always_dead hwired (Grants.Moves.good (orderly_moves hwired hgood (horderly _ _ hthorough))
    hgood) (hafter.imp horderly) hclosed

end Runs

/-- The operator is revoked after its refresh. -/
theorem revoked_for_good_sample :
    RevokedForGood Sample.gateway Sample.start
      [Sample.create, .settle 0 true, Sample.refresh, .settle 0 true, Sample.revoke] := by
  refine revoked_for_good Sample.wired Sample.now _ _ ?_
  change Steps _ _ Sample.start _
  rw [steps_cons, steps_cons, steps_cons, Sample.step_create, Sample.step_issue, Sample.step_wait]
  exact ⟨rfl, by decide +kernel, by decide +kernel, by decide +kernel, by decide +kernel, trivial⟩

/-- An operator that is revoked while its refresh is suspended keeps the
session. -/
theorem revoked_for_good_fails :
    ¬ ∀ (d : Deployment), d.Wired → ∀ (now : Int) (cache : Option RevocationCache)
      (es : List Event), RevokedForGood d (.start now cache) es := by
  intro h
  have hrevoked : RevokedForGood Sample.gateway Sample.start
      ([Sample.create, .settle 0 true, Sample.refresh] ++ [Sample.revoke]) :=
    h Sample.gateway Sample.wired Sample.now (some (.new 100000)) _
  have hnamed : revokedOperator Sample.gateway Sample.revoke = some (.str Sample.operator) := by
    unfold Sample.revoke
    simp only [revokedOperator]
    rw [if_pos (by decide +kernel)]
    rfl
  have hclosed := hrevoked _ _ _ _ rfl hnamed Sample.sid
  rw [Sample.run_waiting, Machine.run_nil] at hclosed
  have hsession : (Sample.waiting.sessions.get Sample.sid).map
      (fun session => session.operator_did.strictEq (.str Sample.operator)) = some true := by
    decide +kernel
  obtain ⟨session, hget, hop⟩ := Option.map_eq_some_iff.mp hsession
  have hdead := (hclosed session hget hop).head.1
  have hopen : ¬ (step Sample.gateway Sample.waiting Sample.revoke).Closed Sample.sid := by
    decide +kernel
  exact hopen hdead

end ChainKVM.Gateway
