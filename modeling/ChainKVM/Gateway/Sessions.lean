import ChainKVM.Gateway.SessionPolicy

/-!
# Sessions: `routes/sessions.ts`

The state of the gateway and the handlers of the session routes. `create` and
`refresh` each have an `await` on the token generator; such a handler is two
functions, up to the `await` and from it on, and in between it is one of the
`pending` handlers of the state, holding what its closure holds.

In `refresh` the state of the session is checked before the `await` and never
after it (`finishRefresh`).
-/

namespace ChainKVM.Gateway

open Js (Val)

/-! ## Configuration -/

/-- What the routes use of `Config`. -/
structure Config where
  stunUrl : String
  turnUrl : String
  sessionTtlSeconds : Int
  maxControlRateHz : Int
  maxVideoBitrateKbps : Int
  adminApiKey : String
  deriving DecidableEq, Repr

/-- The variables of the route modules that are set at startup. `true` says
that one is set; `tokenRegistry` is the one of `sessions.ts`,
`revocationTokenRegistry` that of `revocations.ts`. -/
structure Modules where
  tokenGenerator : Bool
  tokenRegistry : Bool
  revocationTokenRegistry : Bool
  policyEvaluator : Bool
  policyStore : Option PolicyStore

/-- A gateway: its configuration and modules, and the libraries it calls.
`decodePart` decodes one part of a JWT (base64url, then JSON), `sign` is the
token that the generator's key makes of claims. -/
structure Deployment where
  config : Config
  modules : Modules
  jose : Jose
  decodePart : String → Option Val
  sign : CapabilityTokenClaims → String

/-! ## State -/

/-- The states of a session. -/
inductive SessionPhase where
  | pending
  | active
  | terminated
  | revoked
  deriving DecidableEq, Repr

/-- `SessionState`. -/
structure SessionState where
  session_id : String
  robot_id : Val
  operator_did : Val
  state : SessionPhase
  created_at : String
  expires_at : String
  effective_scope : Val

/-- A revocation record. -/
structure Revocation where
  session_ids : List String
  reason : Val
  timestamp : String

/-- A `create` that waits for its token. -/
structure CreateCall where
  sessionId : String
  robotId : Val
  operatorDid : Val
  effectiveScope : Val
  policyResult : PolicyInfo
  hostname : String
  claims : CapabilityTokenClaims

/-- A `refresh` that waits for its token. -/
structure RefreshCall where
  sessionId : String
  robotId : Val
  operatorDid : Val
  claims : CapabilityTokenClaims

/-- A handler at its `await tokenGenerator.generate(…)`. -/
inductive Pending where
  | create (call : CreateCall)
  | refresh (call : RefreshCall)

/-- The state of the gateway: the clock in ms, the session and revocation
maps, the token registry, the suspended handlers and the calls of
`notifyRevocation` so far. -/
structure State where
  now : Int
  sessions : OrdMap String SessionState
  registry : TokenRegistry
  revocations : OrdMap String Revocation
  pending : List Pending
  notified : List (String × Val)

/-- A gateway that has just started, with the revocation cache it loaded. -/
def State.start (now : Int) (revocationCache : Option RevocationCache) : State where
  now := now
  sessions := OrdMap.empty
  registry := .new revocationCache
  revocations := OrdMap.empty
  pending := []
  notified := []

/-! ## Replies -/

/-- `IceServer`. -/
structure IceServer where
  urls : String
  username : Option String
  credential : Option String
  deriving DecidableEq, Repr

/-- `CreateSessionResponse`; `limits` is spelled out. -/
structure CreateSessionResponse where
  session_id : String
  capability_token : String
  signaling_url : String
  ice_servers : List IceServer
  expires_at : String
  effective_scope : Val
  max_control_rate_hz : Int
  max_video_bitrate_kbps : Int
  policy : PolicyInfo

/-- `RefreshTokenResponse`. -/
structure RefreshTokenResponse where
  session_id : String
  capability_token : String
  expires_at : String
  deriving DecidableEq, Repr

/-- `CreateRevocationResponse`. -/
structure CreateRevocationResponse where
  revocation_id : String
  affected_sessions : List String
  timestamp : String
  deriving DecidableEq, Repr

/-- What a handler answers. `thrown` is the framework's 500. -/
inductive Reply where
  | error (reply : ErrorReply)
  | created (response : CreateSessionResponse)
  | refreshed (response : RefreshTokenResponse)
  | terminated (session_id : String)
  | revoked (response : CreateRevocationResponse)
  | thrown

/-! ## Parts of the handlers -/

/-- `registerToken`. -/
def registerToken (d : Deployment) (registry : TokenRegistry) (entry : TokenEntry) :
    TokenRegistry :=
  if d.modules.tokenRegistry then registry.register entry else registry

/-- `tokenRegistry?.revokeBySession(session_id)`. -/
def revokeTokens (d : Deployment) (now : Int) (registry : TokenRegistry) (sessionId : String) :
    TokenRegistry :=
  if d.modules.tokenRegistry then (registry.revokeBySession now sessionId none).2 else registry

/-- `createSession`. -/
def createSession (now : Int) (sessions : OrdMap String SessionState) (call : CreateCall) :
    OrdMap String SessionState :=
  sessions.set call.sessionId {
    session_id := call.sessionId
    robot_id := call.robotId
    operator_did := call.operatorDid
    state := .pending
    created_at := Js.isoString now
    expires_at := Js.isoString call.claims.expiresAt
    effective_scope := call.effectiveScope }

/-- `buildSessionResponse`. -/
def buildSessionResponse (d : Deployment) (call : CreateCall) : CreateSessionResponse where
  session_id := call.sessionId
  capability_token := d.sign call.claims
  signaling_url := "ws://" ++ call.hostname ++ "/v1/signal"
  ice_servers := [⟨d.config.stunUrl, none, none⟩,
    ⟨d.config.turnUrl, some "stub-user", some "stub-credential"⟩]
  expires_at := Js.isoString call.claims.expiresAt
  effective_scope := call.effectiveScope
  max_control_rate_hz := d.config.maxControlRateHz
  max_video_bitrate_kbps := d.config.maxVideoBitrateKbps
  policy := call.policyResult

/-- `extractBearerToken`; an empty token is as good as none. -/
def extractBearerToken (authHeader : Option String) : Option String :=
  match authHeader with
  | none => none
  | some header =>
    if "Bearer ".toList.isPrefixOf header.toList then
      match header.toList.drop 7 with
      | [] => none
      | token => some (String.ofList token)
    else none

/-- The scope a request without `requested_scope` asks for. -/
def defaultScope : Val := .arr [.str "teleop:view", .str "teleop:control"]

def sessionNotFound : ErrorReply := .simple 404 "session_not_found" "Session not found"

def tokenGeneratorNotConfigured : ErrorReply :=
  .simple 500 "token_generator_not_configured" "Token generator not initialized"

/-! ## `POST /v1/sessions` -/

/-- The handler up to its `await`: the reply, or the call that is suspended.
`sessionId` is the id that `generateId` draws. -/
def startCreate (d : Deployment) (s : State) (hostname : String) (body : Val)
    (sessionId : String) (uuids : Uuids) : Reply ⊕ CreateCall :=
  match body with
  | .undefined => .inl .thrown
  | .null => .inl .thrown
  | _ =>
    let robotId := body.member "robot_id"
    let operatorDid := body.member "operator_did"
    if !d.modules.tokenGenerator then .inl (.error tokenGeneratorNotConfigured)
    else
      let effectiveScope := (body.member "requested_scope").nullish defaultScope
      match evaluateSessionPolicy d.jose s.now (body.member "vc_or_vp") robotId effectiveScope
          d.modules.policyEvaluator d.modules.policyStore with
      | .thrown => .inl .thrown
      | .failure reply => .inl (.error reply)
      | .success policyResult =>
        .inr {
          sessionId := sessionId
          robotId := robotId
          operatorDid := operatorDid
          effectiveScope := effectiveScope
          policyResult := policyResult
          hostname := hostname
          claims := generate s.now uuids
            ⟨operatorDid, robotId, sessionId, effectiveScope, d.config.sessionTtlSeconds⟩ }

/-- The entry that is registered for a created session. -/
def CreateCall.entry (call : CreateCall) : TokenEntry :=
  ⟨call.claims.jti, call.sessionId, call.operatorDid, call.robotId, call.claims.expiresAt⟩

/-- The handler once the token is there. -/
def finishCreate (d : Deployment) (s : State) (call : CreateCall) : Reply × State :=
  (.created (buildSessionResponse d call),
    { s with
      registry := registerToken d s.registry call.entry
      sessions := createSession s.now s.sessions call })

/-! ## `DELETE /v1/sessions/:session_id` -/

/-- The handler. -/
def deleteSession (d : Deployment) (s : State) (sessionId : String) : Reply × State :=
  match s.sessions.get sessionId with
  | none => (.error sessionNotFound, s)
  | some _ =>
    (.terminated sessionId,
      { s with
        sessions := s.sessions.update sessionId fun session => { session with state := .terminated }
        registry := revokeTokens d s.now s.registry sessionId })

/-! ## `POST /v1/sessions/:session_id/refresh` -/

/-- The handler from the session lookup to its `await`, given what
`isTokenValidForSession` answers. -/
def letThrough (d : Deployment) (s : State) (sessionId : String) (asked : Bool × TokenRegistry)
    (uuids : Uuids) : (Reply ⊕ RefreshCall) × TokenRegistry :=
  match s.sessions.get sessionId with
  | none => (.inl (.error sessionNotFound), s.registry)
  | some session =>
    if session.state ≠ .pending ∧ session.state ≠ .active then
      (.inl (.error (.simple 403 "session_not_active" "Session is not active")), s.registry)
    else if !asked.1 then
      (.inl (.error (.simple 403 "invalid_token" "Token is not valid for this session")), asked.2)
    else if !d.modules.tokenGenerator then (.inl (.error tokenGeneratorNotConfigured), asked.2)
    else
      (.inr {
        sessionId := sessionId
        robotId := session.robot_id
        operatorDid := session.operator_did
        claims := generate s.now uuids ⟨session.operator_did, session.robot_id, sessionId,
          session.effective_scope, d.config.sessionTtlSeconds⟩ },
        revokeTokens d s.now asked.2 sessionId)

/-- The handler up to its `await`: the reply or the suspended call, and the
registry it leaves. -/
def startRefresh (d : Deployment) (s : State) (sessionId : String) (authorization : Option String)
    (uuids : Uuids) : (Reply ⊕ RefreshCall) × TokenRegistry :=
  match extractBearerToken authorization with
  | none =>
    (.inl (.error (.simple 401 "missing_authorization" "Authorization header required")),
      s.registry)
  | some bearerToken =>
    letThrough d s sessionId
      (isTokenValidForSession d.decodePart s.now bearerToken sessionId d.modules.tokenRegistry
        s.registry) uuids

/-- The entry that is registered for a refreshed session. -/
def RefreshCall.entry (call : RefreshCall) : TokenEntry :=
  ⟨call.claims.jti, call.sessionId, call.operatorDid, call.robotId, call.claims.expiresAt⟩

/-- The handler once the token is there. Nothing is checked again. -/
def finishRefresh (d : Deployment) (s : State) (call : RefreshCall) : Reply × State :=
  let expiresAt := Js.isoString call.claims.expiresAt
  (.refreshed ⟨call.sessionId, d.sign call.claims, expiresAt⟩,
    { s with
      registry := registerToken d s.registry call.entry
      sessions := s.sessions.update call.sessionId fun session =>
        { session with expires_at := expiresAt } })

/-- `updateSessionState`: whether there is such a session, and the sessions
after it. -/
def updateSessionState (sessions : OrdMap String SessionState) (sessionId : String)
    (state : SessionPhase) : Bool × OrdMap String SessionState :=
  match sessions.get sessionId with
  | none => (false, sessions)
  | some _ => (true, sessions.update sessionId fun session => { session with state := state })

/-! ## What a create does before its `await` -/

/-- A create that has passed the policy. What its token says is fixed. -/
structure CreateStarted (d : Deployment) (s : State) (body : Val) (sessionId : String)
    (uuids : Uuids) (call : CreateCall) : Prop where
  same_operator : call.operatorDid = body.member "operator_did"
  same_robot : call.robotId = body.member "robot_id"
  same_scope : call.effectiveScope = (body.member "requested_scope").nullish defaultScope
  claims : call.claims = generate s.now uuids
    ⟨call.operatorDid, call.robotId, sessionId, call.effectiveScope, d.config.sessionTtlSeconds⟩
  passed : evaluateSessionPolicy d.jose s.now (body.member "vc_or_vp") call.robotId
    call.effectiveScope d.modules.policyEvaluator d.modules.policyStore =
      .success call.policyResult

theorem startCreate_inr {d : Deployment} {s : State} {hostname : String} {body : Val}
    {sessionId : String} {uuids : Uuids} {call : CreateCall}
    (h : startCreate d s hostname body sessionId uuids = .inr call) :
    CreateStarted d s body sessionId uuids call := by
  unfold startCreate at h
  split at h
  · cases h
  · cases h
  · dsimp only at h
    split at h
    · cases h
    · split at h
      · cases h
      · cases h
      next policyResult hpassed =>
        cases h
        exact ⟨rfl, rfl, rfl, rfl, hpassed⟩

/-- A request with a body that passes the policy is let through. -/
theorem startCreate_of_success {d : Deployment} {s : State} {hostname : String} {body : Val}
    {sessionId : String} {uuids : Uuids} {info : PolicyInfo} (hbody : body.isObject = true)
    (hgenerator : d.modules.tokenGenerator = true)
    (hpassed : evaluateSessionPolicy d.jose s.now (body.member "vc_or_vp")
      (body.member "robot_id") ((body.member "requested_scope").nullish defaultScope)
      d.modules.policyEvaluator d.modules.policyStore = .success info) :
    startCreate d s hostname body sessionId uuids = .inr {
      sessionId := sessionId
      robotId := body.member "robot_id"
      operatorDid := body.member "operator_did"
      effectiveScope := (body.member "requested_scope").nullish defaultScope
      policyResult := info
      hostname := hostname
      claims := generate s.now uuids
        ⟨body.member "operator_did", body.member "robot_id", sessionId,
          (body.member "requested_scope").nullish defaultScope, d.config.sessionTtlSeconds⟩ } := by
  unfold startCreate
  split
  · cases hbody
  · cases hbody
  · dsimp only
    rw [if_neg (by simp [hgenerator]), hpassed]

/-! ## What a refresh does before its `await` -/

/-- Whatever follows `Bearer ` is the token. -/
theorem extractBearerToken_bearer {token : String} (h : token ≠ "") :
    extractBearerToken (some ("Bearer " ++ token)) = some token := by
  have hprefix : "Bearer ".toList.isPrefixOf ("Bearer " ++ token).toList = true := by
    rw [String.toList_append, List.isPrefixOf_iff_prefix]
    exact List.prefix_append _ _
  have hrest : ("Bearer " ++ token).toList.drop 7 = token.toList := by
    rw [String.toList_append]
    rfl
  unfold extractBearerToken
  dsimp only
  rw [if_pos hprefix, hrest]
  split
  next hnil => exact absurd (String.toList_eq_nil_iff.mp hnil) h
  · rw [String.ofList_toList]

/-- A refresh that presents a token goes by the token's `jti`. -/
theorem startRefresh_bearer {d : Deployment} (hregistry : d.modules.tokenRegistry = true)
    {token : String} (htoken : token ≠ "") {jti : Val}
    (hjti : extractJtiFromToken d.decodePart token = jti) (s : State) (sessionId : String)
    (uuids : Uuids) :
    startRefresh d s sessionId (some ("Bearer " ++ token)) uuids =
      letThrough d s sessionId (isJtiValidForSession s.now jti sessionId s.registry) uuids := by
  unfold startRefresh isTokenValidForSession
  rw [extractBearerToken_bearer htoken, hregistry]
  dsimp only
  rw [hjti, if_neg (by simp)]

/-- The token a refresh presents, as the registry has it. -/
def presented (d : Deployment) (s : State) (authorization : Option String) : Option TokenEntry :=
  (extractBearerToken authorization).bind fun bearerToken =>
    (extractJtiFromToken d.decodePart bearerToken).asString.bind s.registry.get

/-- A refresh that has been let through to its `await`: it saw an open session
and, with a registry, one of the session's tokens, and took the session's
tokens out of the registry. -/
structure RefreshStarted (d : Deployment) (s : State) (sessionId : String)
    (authorization : Option String) (call : RefreshCall) (registry : TokenRegistry)
    (session : SessionState) : Prop where
  stored : s.sessions.get sessionId = some session
  isOpen : session.state = .pending ∨ session.state = .active
  same_id : call.sessionId = sessionId
  same_operator : call.operatorDid = session.operator_did
  token : d.modules.tokenRegistry = true →
    ∃ entry, presented d s authorization = some entry ∧ entry.sessionId = sessionId
  withdrawn : ∃ asked : TokenRegistry, asked.tokens = s.registry.tokens ∧
    registry = revokeTokens d s.now asked sessionId

/-- A refresh either answers at once, having asked about a token at most, or
is let through. -/
theorem startRefresh_cases (d : Deployment) (s : State) (sessionId : String)
    (authorization : Option String) (uuids : Uuids) :
    (∃ reply registry, startRefresh d s sessionId authorization uuids = (.inl reply, registry) ∧
      registry.tokens = s.registry.tokens) ∨
    ∃ call registry session,
      startRefresh d s sessionId authorization uuids = (.inr call, registry) ∧
        RefreshStarted d s sessionId authorization call registry session := by
  unfold startRefresh
  split
  · exact .inl ⟨_, _, rfl, rfl⟩
  next bearerToken hbearer =>
    have hasked : (isTokenValidForSession d.decodePart s.now bearerToken sessionId
        d.modules.tokenRegistry s.registry).2.tokens = s.registry.tokens := by
      unfold isTokenValidForSession
      split
      · rfl
      · exact tokens_isJtiValidForSession _ _ _ _
    have htoken (hregistry : d.modules.tokenRegistry = true)
        (hvalid : (isTokenValidForSession d.decodePart s.now bearerToken sessionId
          d.modules.tokenRegistry s.registry).1 = true) :
        ∃ entry, (extractJtiFromToken d.decodePart bearerToken).asString.bind s.registry.get =
          some entry ∧ entry.sessionId = sessionId := by
      unfold isTokenValidForSession at hvalid
      rw [hregistry] at hvalid
      obtain ⟨id, entry, hjti, hget, hsession⟩ := exists_of_isJtiValidForSession hvalid
      rw [hjti]
      exact ⟨entry, hget, hsession⟩
    -- from here on only what the look-up says and leaves behind matters
    generalize isTokenValidForSession d.decodePart s.now bearerToken sessionId
      d.modules.tokenRegistry s.registry = asked at hasked htoken
    unfold letThrough
    split
    · exact .inl ⟨_, _, rfl, rfl⟩
    next session hsession =>
      split
      · exact .inl ⟨_, _, rfl, rfl⟩
      next hopen =>
        split
        · exact .inl ⟨_, _, rfl, hasked⟩
        next hvalid =>
          split
          · exact .inl ⟨_, _, rfl, hasked⟩
          · refine .inr ⟨_, _, session, rfl, hsession, ?_, rfl, rfl, ?_, _, hasked, rfl⟩
            · by_cases hpending : session.state = .pending
              · exact .inl hpending
              · exact .inr (Classical.not_not.mp fun hactive => hopen ⟨hpending, hactive⟩)
            · intro hregistry
              rw [presented, hbearer]
              exact htoken hregistry (by simpa using hvalid)

end ChainKVM.Gateway
