import ChainKVM.Gateway.Revocations
import ChainKVM.Lib.Grants
import ChainKVM.Lib.Machine

/-!
# The gateway as a store of grants

Seen from its authority, the gateway is a store of grants (`State.grants`): the
sessions are the holders, their operators the principals, the registered
tokens the grants, and a suspended refresh is a renewal under way. A session
that is terminated or revoked is closed.

Every event is a sequence of moves of that store, with one exception: a
handler that resumes after its `await`. It registers a token without looking
at the session, so it makes a move only when what it assumes still holds
(`orderly`): a created session's id is new, and a refreshed session is still
open (or its token has already run out). `orderly_moves` is the refinement.
-/

namespace ChainKVM.Gateway

open Js (Val)
open Machine (run Steps)

/-- The session is pending or active. -/
def SessionState.isOpen (session : SessionState) : Bool :=
  session.state = .pending ∨ session.state = .active

/-- A registered token as a grant. -/
def TokenEntry.grant (entry : TokenEntry) : Grant String Val :=
  ⟨entry.sessionId, entry.operatorDid, entry.expiresAt⟩

/-- The gateway's store of grants. -/
def State.grants (s : State) : Grants String Val String where
  now := s.now
  holder sid := (s.sessions.get sid).map fun session => (session.operator_did, session.isOpen)
  grant jti := (s.registry.get jti).map TokenEntry.grant
  renewing sid operatorDid :=
    ∃ call, Pending.refresh call ∈ s.pending ∧ call.sessionId = sid ∧
      call.operatorDid = operatorDid

/-- Both route modules have been given the token registry. -/
structure Deployment.Wired (d : Deployment) : Prop where
  sessions : d.modules.tokenRegistry = true
  revocations : d.modules.revocationTokenRegistry = true

/-- What a resumed handler assumes of the state it resumes in: a create that
its session id is not taken, a refresh that its session is still open or its
token no longer good for anything. -/
def orderly (s : State) : Event → Bool
  | .settle i true =>
    match s.pending[i]? with
    | some (.create call) => (s.sessions.get call.sessionId).isNone
    | some (.refresh call) =>
      (s.sessions.get call.sessionId).any SessionState.isOpen || call.claims.expiresAt ≤ s.now
    | none => true
  | _ => true

/-! ## Reading the store -/

theorem grants_holder_some {s : State} {sid : String} {op : Val} {b : Bool} :
    s.grants.holder sid = some (op, b) ↔
      ∃ session, s.sessions.get sid = some session ∧ session.operator_did = op ∧
        session.isOpen = b := by
  show (s.sessions.get sid).map _ = _ ↔ _
  rw [Option.map_eq_some_iff]
  simp only [Prod.mk.injEq]

theorem grants_grant_some {s : State} {jti : String} {x : Grant String Val} :
    s.grants.grant jti = some x ↔ ∃ entry, s.registry.get jti = some entry ∧ entry.grant = x :=
  Option.map_eq_some_iff

/-! ## The parts of the handlers as moves -/

theorem moves_withdraw {s : State} {registry : TokenRegistry}
    (h : ∀ jti entry, registry.get jti = some entry → s.registry.get jti = some entry) :
    Grants.Moves s.grants { s with registry := registry }.grants := by
  refine .single (.withdraw _ fun jti x hx => ?_)
  obtain ⟨entry, hget, rfl⟩ := Option.map_eq_some_iff.mp hx
  exact grants_grant_some.mpr ⟨entry, h jti entry hget, rfl⟩

theorem moves_suspend {s : State} {pending : List Pending}
    (h : ∀ call, Pending.refresh call ∈ pending → .refresh call ∈ s.pending ∨
      ∃ session, s.sessions.get call.sessionId = some session ∧
        session.operator_did = call.operatorDid) :
    Grants.Moves s.grants { s with pending := pending }.grants := by
  refine .single (.renew _ ?_)
  rintro sid op ⟨call, hmem, rfl, rfl⟩
  rcases h call hmem with hold | ⟨session, hget, hop⟩
  · exact .inl ⟨call, hold, rfl, rfl⟩
  · exact .inr ⟨session.isOpen, grants_holder_some.mpr ⟨session, hget, hop, rfl⟩⟩

theorem moves_register {s : State} {entry : TokenEntry} {session : SessionState}
    (hget : s.sessions.get entry.sessionId = some session)
    (hop : session.operator_did = entry.operatorDid)
    (hguard : session.isOpen = true ∨ entry.expiresAt ≤ s.now) :
    Grants.Moves s.grants { s with registry := s.registry.register entry }.grants := by
  have hgrant : Grants.grant { s with registry := s.registry.register entry }.grants =
      Function.update s.grants.grant entry.jti (some entry.grant) := by
    funext jti
    show ((s.registry.register entry).get jti).map TokenEntry.grant = _
    rw [TokenRegistry.get_register]
    by_cases hj : jti = entry.jti
    · rw [if_pos hj, hj, Function.update_self]
      rfl
    · rw [if_neg hj, Function.update_of_ne hj]
      rfl
  have hmove : Grants.Move s.grants
      { s.grants with grant := Function.update s.grants.grant entry.jti (some entry.grant) } :=
    .issue entry.jti entry.grant session.isOpen
      (grants_holder_some.mpr ⟨session, hget, hop, rfl⟩) hguard
  rw [← hgrant] at hmove
  exact .single hmove

theorem moves_createSession {s : State} {call : CreateCall}
    (hnone : s.sessions.get call.sessionId = none) :
    Grants.Moves s.grants { s with sessions := createSession s.now s.sessions call }.grants := by
  have hholder :
      Grants.holder { s with sessions := createSession s.now s.sessions call }.grants =
      Function.update s.grants.holder call.sessionId (some (call.operatorDid, true)) := by
    funext sid
    show ((createSession s.now s.sessions call).get sid).map _ = _
    unfold createSession
    rw [OrdMap.get_set]
    by_cases hs : sid = call.sessionId
    · rw [if_pos hs, hs, Function.update_self]
      rfl
    · rw [if_neg hs, Function.update_of_ne hs]
      rfl
  have hmove : Grants.Move s.grants { s.grants with
      holder := Function.update s.grants.holder call.sessionId (some (call.operatorDid, true)) } :=
    .opens call.sessionId call.operatorDid (by
      show (s.sessions.get call.sessionId).map _ = none
      rw [hnone]
      rfl)
  rw [← hholder] at hmove
  exact .single hmove

/-- The states that close a session. -/
def SessionPhase.closes (state : SessionPhase) : Prop := state = .terminated ∨ state = .revoked

/-- `updateSessionState` to a closed state, for a session without tokens. -/
theorem moves_close {s : State} {sid : String} {state : SessionPhase} (hstate : state.closes)
    (hnone : ∀ jti entry, s.registry.get jti = some entry → entry.sessionId ≠ sid) :
    Grants.Moves s.grants
      { s with sessions := (updateSessionState s.sessions sid state).2 }.grants := by
  unfold updateSessionState
  cases hget : s.sessions.get sid with
  | none => exact .refl
  | some session =>
    have hclosed (x : SessionState) : SessionState.isOpen { x with state := state } = false := by
      rcases hstate with rfl | rfl <;> rfl
    have hholder : Grants.holder { s with sessions := s.sessions.update sid fun x =>
        { x with state := state } }.grants =
        Function.update s.grants.holder sid (some (session.operator_did, false)) := by
      funext sid'
      show ((s.sessions.update sid fun x => { x with state := state }).get sid').map _ = _
      rw [OrdMap.get_update]
      by_cases hs : sid' = sid
      · rw [if_pos hs, hs, Function.update_self, hget, Option.map_some, Option.map_some, hclosed]
      · rw [if_neg hs, Function.update_of_ne hs]
        rfl
    have hmove : Grants.Move s.grants { s.grants with
        holder := Function.update s.grants.holder sid (some (session.operator_did, false)) } :=
      .close sid session.operator_did session.isOpen
        (grants_holder_some.mpr ⟨session, hget, rfl, rfl⟩) (by
          intro jti x hx
          obtain ⟨entry, hentry, rfl⟩ := grants_grant_some.mp hx
          exact hnone jti entry hentry)
    rw [← hholder] at hmove
    exact .single hmove

/-- Assigning `expires_at` moves nothing. -/
theorem grants_expires_at (s : State) (sid expiresAt : String) :
    { s with sessions := s.sessions.update sid fun x => { x with expires_at := expiresAt } }.grants =
      s.grants := by
  refine Grants.ext rfl ?_ rfl rfl
  funext sid'
  show ((s.sessions.update sid fun x => { x with expires_at := expiresAt }).get sid').map _ = _
  rw [OrdMap.get_update]
  by_cases hs : sid' = sid
  · rw [if_pos hs, Option.map_map]
    rfl
  · rw [if_neg hs]
    rfl

/-! ## The handlers as moves -/

theorem get_of_revokeBySession {r : TokenRegistry} {now : Int} {sid jti : String}
    {reason : Option String} {entry : TokenEntry}
    (h : (r.revokeBySession now sid reason).2.get jti = some entry) :
    r.get jti = some entry ∧ entry.sessionId ≠ sid := by
  rw [TokenRegistry.get_revokeBySession, Option.filter_eq_some_iff] at h
  exact ⟨h.1, by simpa using h.2⟩

/-- Terminating or revoking a session: its tokens go, then it closes. -/
theorem moves_closeSession (s : State) (sid : String) {state : SessionPhase}
    (hstate : state.closes) :
    Grants.Moves s.grants
      { s with
        sessions := (updateSessionState s.sessions sid state).2
        registry := (s.registry.revokeBySession s.now sid none).2 }.grants := by
  have hfirst : Grants.Moves s.grants
      { s with registry := (s.registry.revokeBySession s.now sid none).2 }.grants :=
    moves_withdraw fun jti entry h => (get_of_revokeBySession h).1
  exact hfirst.trans (moves_close hstate fun jti entry h => (get_of_revokeBySession h).2)

/-- The loop of `revokeOperatorSessions`, once none of its sessions has a
token. -/
theorem moves_revokeSessions (reason : Val) :
    ∀ (sids : List String) (s : State),
      (∀ sid ∈ sids, ∀ jti entry, s.registry.get jti = some entry → entry.sessionId ≠ sid) →
      Grants.Moves s.grants (revokeSessions reason sids s).grants := by
  intro sids
  induction sids with
  | nil => exact fun s _ => .refl
  | cons sid sids ih =>
    intro s h
    have hhead := moves_close (s := s) (.inr rfl) (h sid List.mem_cons_self)
    have htail := ih
      (notifyRevocation { s with sessions := (updateSessionState s.sessions sid .revoked).2 } sid
        reason)
      fun sid' hmem => h sid' (List.mem_cons_of_mem _ hmem)
    exact hhead.trans htail

section Wired

variable {d : Deployment} (hwired : d.Wired)

include hwired

theorem revokeTokens_eq (now : Int) (registry : TokenRegistry) (sid : String) :
    revokeTokens d now registry sid = (registry.revokeBySession now sid none).2 := by
  unfold revokeTokens
  rw [hwired.sessions]
  rfl

theorem registerToken_eq (registry : TokenRegistry) (entry : TokenEntry) :
    registerToken d registry entry = registry.register entry := by
  unfold registerToken
  rw [hwired.sessions]
  rfl

theorem moves_deleteSession (s : State) (sid : String) :
    Grants.Moves s.grants (deleteSession d s sid).2.grants := by
  unfold deleteSession
  cases hget : s.sessions.get sid with
  | none => exact .refl
  | some session =>
    have hclose := moves_closeSession s sid (.inl rfl)
    unfold updateSessionState at hclose
    rw [hget] at hclose
    dsimp only
    rw [revokeTokens_eq hwired]
    exact hclose

theorem moves_revokeNamed (s : State) (sessionId reason : Val) :
    Grants.Moves s.grants (revokeNamed d s sessionId reason).2.grants := by
  unfold revokeNamed
  split
  next sid =>
    by_cases hempty : sid = ""
    · rw [if_pos hempty]
    · rw [if_neg hempty]
      have hclose := moves_closeSession s sid (.inr rfl)
      show Grants.Moves s.grants (revokeSession d s sid reason).2.grants
      obtain ⟨t, rfl, h | h⟩ := revokeSession_cases d s sid reason
      · rw [h, if_pos hwired.revocations]
        exact hclose
      · rw [h, if_pos hwired.revocations]
        exact hclose
  · exact .refl

/-- A revoked operator's registered tokens go, then the sessions they belonged
to close. Consistency says that these have no other tokens. -/
theorem moves_revokeOperator {s : State} (hs : s.grants.Consistent) (operatorDid reason : Val) :
    Grants.Moves s.grants (revokeOperator d s operatorDid reason).2.grants := by
  unfold revokeOperator revokeOperatorSessions
  by_cases htruthy : operatorDid.truthy = true
  · rw [if_pos htruthy, hwired.revocations, if_pos rfl]
    have hkept {jti : String} {entry : TokenEntry}
        (h : (s.registry.revokeByOperator s.now operatorDid none).2.get jti = some entry) :
        s.registry.get jti = some entry ∧ entry.operatorDid.strictEq operatorDid = false := by
      rw [TokenRegistry.get_revokeByOperator, Option.filter_eq_some_iff] at h
      exact ⟨h.1, by simpa using h.2⟩
    have hfirst : Grants.Moves s.grants
        { s with registry := (s.registry.revokeByOperator s.now operatorDid none).2 }.grants :=
      moves_withdraw fun jti entry h => (hkept h).1
    refine hfirst.trans (moves_revokeSessions reason _ _ ?_)
    intro sid hmem jti entry hentry
    rintro rfl
    obtain ⟨hget, hother⟩ := hkept hentry
    obtain ⟨jti', entry', hget', hop, hsame⟩ := TokenRegistry.mem_revokeByOperator.mp hmem
    obtain ⟨b, hb⟩ := hs.grant jti entry.grant (grants_grant_some.mpr ⟨entry, hget, rfl⟩)
    obtain ⟨b', hb'⟩ := hs.grant jti' entry'.grant (grants_grant_some.mpr ⟨entry', hget', rfl⟩)
    -- a session has one operator, so another token of it is that operator's too
    have hoperators : entry.operatorDid = entry'.operatorDid := by
      change s.grants.holder entry'.sessionId = _ at hb'
      rw [hsame] at hb'
      exact congrArg Prod.fst (Option.some.inj (hb.symm.trans hb'))
    rw [hoperators, hop] at hother
    cases hother
  · rw [if_neg htruthy]

theorem moves_createRevocation {s : State} (hs : s.grants.Good) (adminKey : Option String)
    (body : Val) (revocationId : String) :
    Grants.Moves s.grants (createRevocation d s adminKey body revocationId).2.grants := by
  have hboth (sessionId operatorDid reason : Val) : Grants.Moves s.grants
      (revokeOperator d (revokeNamed d s sessionId reason).2 operatorDid reason).2.grants := by
    have hnamed := moves_revokeNamed hwired s sessionId reason
    exact hnamed.trans
      (moves_revokeOperator hwired (Grants.Moves.good hnamed hs).consistent operatorDid reason)
  unfold createRevocation
  split
  · exact .refl
  · split
    · exact .refl
    · exact .refl
    · dsimp only
      split
      · exact .refl
      · exact hboth _ _ _

theorem moves_startRefresh (s : State) (sid : String) (authorization : Option String)
    (uuids : Uuids) : Grants.Moves s.grants (step d s (.refresh sid authorization uuids)).grants := by
  unfold step handle
  rcases startRefresh_cases d s sid authorization uuids with
    ⟨reply, registry, heq, hsame⟩ | ⟨call, registry, session, heq, hstarted⟩
  · dsimp only
    rw [heq]
    refine moves_withdraw fun jti entry h => ?_
    rw [← h, TokenRegistry.get, TokenRegistry.get, hsame]
  · dsimp only
    rw [heq]
    obtain ⟨asked, hasked, rfl⟩ := hstarted.withdrawn
    rw [revokeTokens_eq hwired]
    have hfirst : Grants.Moves s.grants
        { s with registry := (asked.revokeBySession s.now sid none).2 }.grants :=
      moves_withdraw fun jti entry h => by
        rw [← (get_of_revokeBySession h).1, TokenRegistry.get, TokenRegistry.get, hasked]
    refine hfirst.trans (moves_suspend fun call' hmem => ?_)
    rcases List.mem_append.mp hmem with hold | hnew
    · exact .inl hold
    · obtain rfl : call' = call := by simpa using hnew
      exact .inr ⟨session, by rw [hstarted.same_id]; exact hstarted.stored,
        hstarted.same_operator.symm⟩

theorem moves_finishCreate {s : State} {call : CreateCall}
    (hfresh : s.sessions.get call.sessionId = none) :
    Grants.Moves s.grants (finishCreate d s call).2.grants := by
  unfold finishCreate
  rw [registerToken_eq hwired]
  have hcreated := moves_createSession hfresh
  have hcreatedSession : (createSession s.now s.sessions call).get call.sessionId = some _ :=
    OrdMap.get_set_self _ _ _
  exact hcreated.trans (moves_register hcreatedSession rfl (.inl rfl))

theorem moves_finishRefresh {s : State} {call : RefreshCall} {session : SessionState}
    (hget : s.sessions.get call.sessionId = some session)
    (hop : session.operator_did = call.operatorDid)
    (hguard : session.isOpen = true ∨ call.claims.expiresAt ≤ s.now) :
    Grants.Moves s.grants (finishRefresh d s call).2.grants := by
  unfold finishRefresh
  dsimp only
  rw [registerToken_eq hwired]
  have hregistered : Grants.Moves s.grants
      { s with registry := s.registry.register call.entry }.grants :=
    moves_register hget hop hguard
  rw [← grants_expires_at { s with registry := s.registry.register call.entry } call.sessionId
    (Js.isoString call.claims.expiresAt)] at hregistered
  exact hregistered

/-- Every orderly event is a sequence of moves of the store. -/
theorem orderly_moves {s : State} (hs : s.grants.Good) {e : Event} (he : orderly s e = true) :
    Grants.Moves s.grants (step d s e).grants := by
  cases e with
  | create hostname body sessionId uuids =>
    unfold step handle
    dsimp only
    split
    · exact .refl
    · refine moves_suspend fun call hmem => .inl ?_
      rcases List.mem_append.mp hmem with hold | hnew
      · exact hold
      · simp at hnew
  | refresh sid authorization uuids => exact moves_startRefresh hwired s sid authorization uuids
  | settle i ok =>
    unfold step handle
    dsimp only
    cases hp : s.pending[i]? with
    | none => exact .refl
    | some p =>
      -- the handler is taken off the list first, then it goes on
      have hfirst : Grants.Moves s.grants { s with pending := s.pending.eraseIdx i }.grants :=
        moves_suspend fun call hmem => .inl (List.mem_of_mem_eraseIdx hmem)
      cases ok with
      | false => exact hfirst
      | true =>
        simp only [orderly, hp] at he
        cases p with
        | create call =>
          have hfresh : s.sessions.get call.sessionId = none := Option.isNone_iff_eq_none.mp he
          exact hfirst.trans (moves_finishCreate hwired hfresh)
        | refresh call =>
          have hmem : Pending.refresh call ∈ s.pending := List.mem_of_getElem? hp
          obtain ⟨b, hb⟩ := hs.consistent.renewing call.sessionId call.operatorDid
            ⟨call, hmem, rfl, rfl⟩
          obtain ⟨session, hget, hop, rfl⟩ := grants_holder_some.mp hb
          have hguard : session.isOpen = true ∨ call.claims.expiresAt ≤ s.now := by
            simpa [hget] using he
          exact hfirst.trans (moves_finishRefresh hwired hget hop hguard)
  | delete sid => exact moves_deleteSession hwired s sid
  | revoke adminKey body revocationId =>
    exact moves_createRevocation hwired hs adminKey body revocationId
  | cleanup =>
    refine moves_withdraw fun jti entry h => ?_
    rw [TokenRegistry.get_cleanup, Option.filter_eq_some_iff] at h
    exact h.1
  | elapse ms => exact .single (.elapse _ (Int.le_add_of_nonneg_right (Int.natCast_nonneg ms)))

end Wired

end ChainKVM.Gateway
