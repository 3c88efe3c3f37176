import ChainKVM.Gateway.Sessions

/-!
# Revocations and the running gateway: `routes/revocations.ts`

`POST /v1/revocations` revokes one session (`revokeSession`) or all sessions of
an operator (`revokeOperatorSessions`). The sessions of an operator are those
the token registry names: `revokeByOperator` revokes the operator's registered
tokens and returns the sessions they belong to. The session map is not
searched.

The second half puts the routes together: an `Event` is a request, the
settling of a suspended handler, the registry's cleanup timer or the passing of
time, and `handle` is what the gateway does with it.
-/

namespace ChainKVM.Gateway

open Js (Val)

/-! ## `admin-auth.ts` -/

/-- `requireAdminAuth`: the error that was sent, unless the key is the
configured one. -/
def requireAdminAuth (config : Config) (key : Option String) : Option ErrorReply :=
  match key with
  | none => some (.simple 401 "missing_admin_key" "X-Admin-API-Key header is required")
  | some key =>
    if key = "" then some (.simple 401 "missing_admin_key" "X-Admin-API-Key header is required")
    else if key = config.adminApiKey then none
    else some (.simple 403 "invalid_admin_key" "Invalid admin API key")

/-! ## `revocations.ts` -/

/-- `notifyRevocation`. -/
def notifyRevocation (s : State) (sessionId : String) (reason : Val) : State :=
  { s with notified := s.notified ++ [(sessionId, reason)] }

/-- `revokeSession`: whether a session or a token was affected. -/
def revokeSession (d : Deployment) (s : State) (sessionId : String) (reason : Val) :
    Bool × State :=
  let updated := updateSessionState s.sessions sessionId .revoked
  let revoked :=
    if d.modules.revocationTokenRegistry then s.registry.revokeBySession s.now sessionId none
    else (0, s.registry)
  let s := { s with sessions := updated.2, registry := revoked.2 }
  if updated.1 ∨ 0 < revoked.1 then (true, notifyRevocation s sessionId reason) else (false, s)

/-- The loop of `revokeOperatorSessions`. -/
def revokeSessions (reason : Val) : List String → State → State
  | [], s => s
  | sid :: sids, s =>
    revokeSessions reason sids
      (notifyRevocation { s with sessions := (updateSessionState s.sessions sid .revoked).2 } sid
        reason)

/-- `revokeOperatorSessions`: the affected sessions. -/
def revokeOperatorSessions (d : Deployment) (s : State) (operatorDid reason : Val) :
    List String × State :=
  if d.modules.revocationTokenRegistry then
    let revoked := s.registry.revokeByOperator s.now operatorDid none
    (revoked.1, revokeSessions reason revoked.1 { s with registry := revoked.2 })
  else ([], s)

/-- `storeRevocation`. -/
def storeRevocation (s : State) (revocationId : String) (affectedSessions : List String)
    (reason : Val) : CreateRevocationResponse × State :=
  let timestamp := Js.isoString s.now
  (⟨revocationId, affectedSessions, timestamp⟩,
    { s with revocations := s.revocations.set revocationId ⟨affectedSessions, reason, timestamp⟩ })

/-- The part of the request that names one session. An id that is no string
names none. -/
def revokeNamed (d : Deployment) (s : State) (sessionId reason : Val) : List String × State :=
  match sessionId with
  | .str sid =>
    if sid = "" then ([], s)
    else
      let revoked := revokeSession d s sid reason
      (if revoked.1 then [sid] else [], revoked.2)
  | _ => ([], s)

/-- The part of the request that names an operator. -/
def revokeOperator (d : Deployment) (s : State) (operatorDid reason : Val) :
    List String × State :=
  if operatorDid.truthy then revokeOperatorSessions d s operatorDid reason else ([], s)

/-- `POST /v1/revocations`; `revocationId` is the id that
`generateRevocationId` draws. -/
def createRevocation (d : Deployment) (s : State) (adminKey : Option String) (body : Val)
    (revocationId : String) : Reply × State :=
  match requireAdminAuth d.config adminKey with
  | some reply => (.error reply, s)
  | none =>
    match body with
    | .undefined => (.thrown, s)
    | .null => (.thrown, s)
    | _ =>
      let sessionId := body.member "session_id"
      let operatorDid := body.member "operator_did"
      let reason := body.member "reason"
      if !sessionId.truthy ∧ !operatorDid.truthy then
        (.error (.simple 400 "invalid_request" "Must provide session_id or operator_did"), s)
      else
        let named := revokeNamed d s sessionId reason
        let ofOperator := revokeOperator d named.2 operatorDid reason
        let stored :=
          storeRevocation ofOperator.2 revocationId (named.1 ++ ofOperator.1) reason
        (.revoked stored.1, stored.2)

/-! ## What a revocation leaves -/

/-- Revoking a session closes it and its tokens, and then the room may be
told. -/
theorem revokeSession_cases (d : Deployment) (s : State) (sid : String) (reason : Val) :
    ∃ t : State, t = { s with
        sessions := (updateSessionState s.sessions sid .revoked).2
        registry := if d.modules.revocationTokenRegistry then
          (s.registry.revokeBySession s.now sid none).2 else s.registry } ∧
      ((revokeSession d s sid reason).2 = t ∨
        (revokeSession d s sid reason).2 = notifyRevocation t sid reason) := by
  refine ⟨_, rfl, ?_⟩
  have hregistry : (if d.modules.revocationTokenRegistry = true then
      (s.registry.revokeBySession s.now sid none).2 else s.registry) =
        (if d.modules.revocationTokenRegistry = true then
          s.registry.revokeBySession s.now sid none else (0, s.registry)).2 := by
    split <;> rfl
  rw [hregistry]
  unfold revokeSession
  dsimp only
  generalize (if d.modules.revocationTokenRegistry = true then
    s.registry.revokeBySession s.now sid none else (0, s.registry)) = revoked
  split
  · exact .inr rfl
  · exact .inl rfl

theorem sessions_revokeSession (d : Deployment) (s : State) (sid : String) (reason : Val) :
    (revokeSession d s sid reason).2.sessions = (updateSessionState s.sessions sid .revoked).2 := by
  obtain ⟨t, rfl, h | h⟩ := revokeSession_cases d s sid reason
  · rw [h]
  · rw [h]
    rfl

theorem pending_revokeSession (d : Deployment) (s : State) (sid : String) (reason : Val) :
    (revokeSession d s sid reason).2.pending = s.pending := by
  obtain ⟨t, rfl, h | h⟩ := revokeSession_cases d s sid reason
  · rw [h]
  · rw [h]
    rfl

theorem registry_revokeSession (d : Deployment) (s : State) (sid : String) (reason : Val) :
    (revokeSession d s sid reason).2.registry =
      if d.modules.revocationTokenRegistry then (s.registry.revokeBySession s.now sid none).2
      else s.registry := by
  obtain ⟨t, rfl, h | h⟩ := revokeSession_cases d s sid reason
  · rw [h]
  · rw [h]
    rfl

/-! ## The gateway -/

/-- What can happen to the gateway. -/
inductive Event where
  /-- `POST /v1/sessions`, with the id and UUIDs that are drawn for it. -/
  | create (hostname : String) (body : Val) (sessionId : String) (uuids : Uuids)
  /-- `POST /v1/sessions/:session_id/refresh`. -/
  | refresh (sessionId : String) (authorization : Option String) (uuids : Uuids)
  /-- The token of the `i`-th suspended handler is there, or its generation
  has failed. -/
  | settle (i : Nat) (ok : Bool)
  /-- `DELETE /v1/sessions/:session_id`. -/
  | delete (sessionId : String)
  /-- `POST /v1/revocations`. -/
  | revoke (adminKey : Option String) (body : Val) (revocationId : String)
  /-- The registry's cleanup timer. -/
  | cleanup
  | elapse (ms : Nat)

/-- Answering a refresh, or suspending it. -/
def suspendRefresh (s : State) : (Reply ⊕ RefreshCall) × TokenRegistry → Option Reply × State
  | (.inl reply, registry) => (some reply, { s with registry := registry })
  | (.inr call, registry) =>
    (none, { s with registry := registry, pending := s.pending ++ [.refresh call] })

/-- What the gateway does with an event: the reply, if one is sent, and the
state after it. -/
def handle (d : Deployment) (s : State) : Event → Option Reply × State
  | .create hostname body sessionId uuids =>
    match startCreate d s hostname body sessionId uuids with
    | .inl reply => (some reply, s)
    | .inr call => (none, { s with pending := s.pending ++ [.create call] })
  | .refresh sessionId authorization uuids =>
    suspendRefresh s (startRefresh d s sessionId authorization uuids)
  | .settle i ok =>
    match s.pending[i]? with
    | none => (none, s)
    | some p =>
      let resumed := { s with pending := s.pending.eraseIdx i }
      if ok then
        match p with
        | .create call => (finishCreate d resumed call).map some id
        | .refresh call => (finishRefresh d resumed call).map some id
      else (some .thrown, resumed)
  | .delete sessionId => (deleteSession d s sessionId).map some id
  | .revoke adminKey body revocationId =>
    (createRevocation d s adminKey body revocationId).map some id
  | .cleanup => (none, { s with registry := (s.registry.cleanup s.now).2 })
  | .elapse ms => (none, { s with now := s.now + ms })

/-- The state after an event. -/
def step (d : Deployment) (s : State) (e : Event) : State := (handle d s e).2

theorem step_create (d : Deployment) (s : State) (hostname : String) (body : Val)
    (sessionId : String) (uuids : Uuids) :
    step d s (.create hostname body sessionId uuids) =
      match startCreate d s hostname body sessionId uuids with
      | .inl _ => s
      | .inr call => { s with pending := s.pending ++ [.create call] } := by
  unfold step handle
  dsimp only
  split <;> rfl

theorem step_refresh (d : Deployment) (s : State) (sessionId : String)
    (authorization : Option String) (uuids : Uuids) :
    step d s (.refresh sessionId authorization uuids) =
      (suspendRefresh s (startRefresh d s sessionId authorization uuids)).2 := rfl

theorem step_revoke (d : Deployment) (s : State) (adminKey : Option String) (body : Val)
    (revocationId : String) :
    step d s (.revoke adminKey body revocationId) =
      (createRevocation d s adminKey body revocationId).2 := rfl

end ChainKVM.Gateway
