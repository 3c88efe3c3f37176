import ChainKVM.Gateway.Credential
import ChainKVM.Gateway.Policy
import ChainKVM.Gateway.Tokens

/-!
# Policy and token checks for sessions: `routes/session-policy.ts`

`evaluateSessionPolicy` is what `POST /v1/sessions` asks before it grants
anything: it extracts the credential, looks up the default policy and lets the
evaluator decide. Of the evaluator's answer only the decision is used, and of
the credential only issuer, subject and role. `isTokenValidForSession` is what
a refresh asks of the presented token.
-/

namespace ChainKVM.Gateway

open Js (Val)

/-- A JSON reply that reports an error; the members after `error` are
optional. -/
structure ErrorReply where
  status : Nat
  error : String
  message : Option String
  reason : Option String
  matched_rule : Option String
  deriving DecidableEq, Repr

def ErrorReply.simple (status : Nat) (error message : String) : ErrorReply :=
  ⟨status, error, some message, none, none⟩

/-- `DEFAULT_POLICY_ID`. -/
def defaultPolicyId : String := "default-policy"

/-- `extractJtiFromToken`, where `decodePart` decodes base64url and parses
JSON. -/
def extractJtiFromToken (decodePart : String → Option Val) (token : String) : Val :=
  match token.toList.splitOn '.' with
  | [_, payload, _] =>
    match decodePart (String.ofList payload) with
    | some payload => (payload.member "jti").nullish .null
    | none => .null
  | _ => .null

/-- The last lines of `isTokenValidForSession`: a `jti` that is no string is no
key of the registry, and an empty one is falsy. -/
def isJtiValidForSession (now : Int) (jti : Val) (sessionId : String) (registry : TokenRegistry) :
    Bool × TokenRegistry :=
  match jti with
  | .str jti =>
    if jti = "" then (false, registry)
    else
      match registry.get jti with
      | none => (false, registry)
      | some entry =>
        if entry.sessionId = sessionId then registry.isValid now jti else (false, registry)
  | _ => (false, registry)

/-- `isTokenValidForSession`; `configured` says whether there is a
registry. -/
def isTokenValidForSession (decodePart : String → Option Val) (now : Int) (token sessionId : String)
    (configured : Bool) (registry : TokenRegistry) : Bool × TokenRegistry :=
  if !configured then (true, registry)
  else isJtiValidForSession now (extractJtiFromToken decodePart token) sessionId registry

/-- The `policyResult` of a `PolicyEvaluationSuccess`. -/
structure PolicyInfo where
  policy_id : String
  version : String
  hash : String
  deriving DecidableEq, Repr

/-- `PolicyEvaluationResult`, or an exception. -/
inductive PolicyCheck where
  | success (policyResult : PolicyInfo)
  | failure (reply : ErrorReply)
  | thrown

/-- `requestedScope[0]`. -/
def firstAction : Val → Val
  | .arr items => items.headD .undefined
  | .str s => (s.toList.head?.map fun c => Val.str (String.singleton c)).getD .undefined
  | v => v.member "0"

/-- `buildEvaluationContext`. -/
def buildEvaluationContext (credential : EvaluationCredential) (now : Int)
    (robotId requestedScope : Val) : Val :=
  .obj [
    ("credential", .obj [
      ("issuer", credential.get "issuer"),
      ("subject", credential.get "subject"),
      ("role", credential.get "role")]),
    ("context", .obj [
      ("time", .date now),
      ("resource", robotId),
      ("action", firstAction requestedScope)])]

/-- `createDevModeResult`. -/
def devModeResult : PolicyInfo := ⟨"default-policy", "1.0.0", "no-policy-configured"⟩

/-- `createPolicySuccess`. -/
def policySuccess (policy : Policy) : PolicyInfo :=
  ⟨policy.id, toString policy.version, policy.hash⟩

/-- `createPolicyDeniedError`. -/
def policyDeniedError (reason matchedRule : Option String) : ErrorReply :=
  ⟨403, "policy_denied", none, some (reason.getD "Access denied by policy"), matchedRule⟩

/-- `evaluateSessionPolicy`, given whether there is an evaluator and which
store there is. -/
def evaluateSessionPolicy (jose : Jose) (now : Int) (vcOrVp robotId requestedScope : Val)
    (policyEvaluator : Bool) (policyStore : Option PolicyStore) : PolicyCheck :=
  match policyEvaluator, policyStore with
  | true, some store =>
    match extractCredentialForPolicy jose vcOrVp with
    | .error message => .failure (.simple 400 "invalid_credential" message)
    | .ok credential =>
      match store.get defaultPolicyId with
      | none => .failure (.simple 500 "policy_not_configured" "Default policy not found")
      | some policy =>
        match evaluate policy (buildEvaluationContext credential now robotId requestedScope)
            requestedScope with
        | none => .thrown
        | some evalResult =>
          match evalResult.decision with
          | .deny => .failure (policyDeniedError evalResult.reason evalResult.matchedRule)
          | .allow => .success (policySuccess policy)
  | _, _ => .success devModeResult

/-- A request that passed the policy: its credential was extracted and the
evaluator allowed it under the default policy. -/
structure Passed (jose : Jose) (store : PolicyStore) (now : Int)
    (vcOrVp robotId requestedScope : Val) (credential : EvaluationCredential) (policy : Policy)
    (result : EvaluationResult) : Prop where
  extracted : extractCredentialForPolicy jose vcOrVp = .ok credential
  stored : store.get defaultPolicyId = some policy
  evaluated : evaluate policy (buildEvaluationContext credential now robotId requestedScope)
    requestedScope = some result
  allowed : result.decision = .allow

/-- The policy check succeeds for the requests that passed. -/
theorem evaluateSessionPolicy_success_iff {jose : Jose} {now : Int}
    {vcOrVp robotId requestedScope : Val} {store : PolicyStore} {info : PolicyInfo} :
    evaluateSessionPolicy jose now vcOrVp robotId requestedScope true (some store) =
        .success info ↔
      ∃ credential policy result,
        Passed jose store now vcOrVp robotId requestedScope credential policy result ∧
          policySuccess policy = info := by
  unfold evaluateSessionPolicy
  dsimp only
  constructor
  · intro h
    split at h
    · cases h
    next credential hcredential =>
      split at h
      · cases h
      next policy hpolicy =>
        split at h
        · cases h
        next result hresult =>
          split at h
          · cases h
          next hallow =>
            cases h
            exact ⟨credential, policy, result, ⟨hcredential, hpolicy, hresult, hallow⟩, rfl⟩
  · intro h
    obtain ⟨credential, policy, result, hpassed, rfl⟩ := h
    rw [hpassed.extracted]
    dsimp only
    rw [hpassed.stored]
    dsimp only
    rw [hpassed.evaluated]
    dsimp only
    rw [hpassed.allowed]

/-- Asking about a token changes no registration. -/
theorem tokens_isJtiValidForSession (now : Int) (jti : Val) (sessionId : String)
    (registry : TokenRegistry) :
    (isJtiValidForSession now jti sessionId registry).2.tokens = registry.tokens := by
  unfold isJtiValidForSession
  split
  · split
    · rfl
    · split
      · rfl
      · split
        · exact TokenRegistry.tokens_isValid _ _ _
        · rfl
  · rfl

/-- A token that is valid for a session is registered for it. -/
theorem exists_of_isJtiValidForSession {now : Int} {jti : Val} {sessionId : String}
    {registry : TokenRegistry} (h : (isJtiValidForSession now jti sessionId registry).1 = true) :
    ∃ id entry, jti = .str id ∧ registry.get id = some entry ∧ entry.sessionId = sessionId := by
  unfold isJtiValidForSession at h
  split at h
  next id =>
    split at h
    · cases h
    · split at h
      · cases h
      next entry hget =>
        split at h
        next hsession => exact ⟨id, entry, rfl, hget, hsession⟩
        · cases h
  · cases h

/-- Of a token in three parts, the middle one is decoded. -/
theorem extractJtiFromToken_parts (decodePart : String → Option Val) {header payload sig : String}
    (hheader : '.' ∉ header.toList) (hpayload : '.' ∉ payload.toList) (hsig : '.' ∉ sig.toList) :
    extractJtiFromToken decodePart (header ++ "." ++ payload ++ "." ++ sig) =
      match decodePart payload with
      | some claims => (claims.member "jti").nullish .null
      | none => .null := by
  have htoken : (header ++ "." ++ payload ++ "." ++ sig).toList.splitOn '.' =
      [header.toList, payload.toList, sig.toList] := by
    have hjoin : (header ++ "." ++ payload ++ "." ++ sig).toList =
        ['.'].intercalate [header.toList, payload.toList, sig.toList] := by
      simp [List.intercalate]
    rw [hjoin, List.splitOn_intercalate '.' (by simp [hheader, hpayload, hsig]) (by simp)]
  unfold extractJtiFromToken
  rw [htoken]
  simp only [String.ofList_toList]

end ChainKVM.Gateway
