import ChainKVM.Gateway.Revocations
import ChainKVM.Lib.Machine

/-!
# A concrete gateway

One deployment of the gateway, as `main` wires it, for the runs on which a
property is seen to fail: an operator with a credential of the one trusted
issuer (`credential`), the same credential signed by somebody else (`forged`),
and the two tokens that the gateway issues to its session. The libraries are
given by their values at these texts.
-/

namespace ChainKVM.Gateway.Sample

open Js (Val)
open Machine (run run_cons)

def now : Int := 1767225600000

/-! ## The credential -/

def issuerKey : String := "z6MkukYtiUsYk67JUPCHNrFe65jkXipRbCHk2krYn2fgf9Hq"

def issuer : String := "did:key:" ++ issuerKey

def operator : String := "did:key:z6MkswdzRuwBpKoGUL2YPre4WfbTA8fGDVmNPqXWzoZqXf8J"

/-- Header and payload, signed by the issuer and by the operator. -/
def signed : String :=
  "eyJhbGciOiJFZERTQSIsInR5cCI6IkpXVCJ9." ++
  "eyJpc3MiOiJkaWQ6a2V5Ono2TWt1a1l0aVVzWWs2N0pVUENITnJGZTY1amtYaXBSYkNIazJrclluMmZnZjlIcSIs" ++
  "InN1YiI6ImRpZDprZXk6ejZNa3N3ZHpSdXdCcEtvR1VMMllQcmU0V2ZiVEE4ZkdEVm1OUHFYV3pvWnFYZjhKIiwi" ++
  "dmMiOnsiY3JlZGVudGlhbFN1YmplY3QiOnsicm9sZSI6Im9wZXJhdG9yIn19LCJleHAiOjQxMDI0NDQ4MDB9."

def credential : String :=
  signed ++ "D9KXHSLaVjqi-gqSWT4-6fU4_VY-hlFHh9F050CnonkaTdnfhsLGIwM4tvOR2Eu0nPi53TTe5etNXgRy1e4oCA"

def forged : String :=
  signed ++ "4gvovPFUh322a5E2smVLdrJRVDKKC0sVL-dPSNgn1ONgW7IcUwnE81w_gAsfichIwpNdOYYrf2UJ_PNjgi0PBA"

def payload : Claims :=
  [("iss", .str issuer), ("sub", .str operator),
    ("vc", .obj [("credentialSubject", .obj [("role", .str "operator")])]),
    ("exp", .num (.fin 4102444800))]

def header : Claims := [("alg", .str "EdDSA"), ("typ", .str "JWT")]

/-- The issuer's key with its multicodec prefix. -/
def keyBytes : List UInt8 :=
  [237, 1, 227, 77, 58, 1, 182, 17, 46, 20, 41, 234, 214, 22, 104, 64, 95, 78, 244, 190, 79,
    136, 83, 171, 238, 80, 121, 210, 138, 198, 193, 63, 253, 208]

/-- A key is its `x` coordinate. -/
def jose : Jose where
  Key := String
  decodeJwt text := if text = credential ∨ text = forged then some payload else none
  decodeProtectedHeader text := if text = credential ∨ text = forged then some header else none
  base64url bytes :=
    if bytes = keyBytes.drop 2 then "4006AbYRLhQp6tYWaEBfTvS-T4hTq-5QedKKxsE__dA" else ""
  importJWK jwk _ := if jwk.x = "" then none else some jwk.x
  jwtVerify now text key _ tolerance :=
    if text = credential ∧ key = "4006AbYRLhQp6tYWaEBfTvS-T4hTq-5QedKKxsE__dA" then
      if now / 1000 < 4102444800 + tolerance then .ok payload else .expired
    else .failed
  base58btc text := if text = issuerKey then some keyBytes else none

/-- A verifier that trusts the issuer. -/
def verifier : JwtVcVerifierOptions where
  trustedIssuers := [issuer]
  clockSkewMs := defaultClockSkewMs
  didResolver did :=
    if did = issuer then ⟨some [⟨issuerKey⟩], none⟩ else ⟨none, some "invalidDid"⟩

/-! ## The gateway -/

def sid : String := "ses_mjuohs00_k3x9qa"

def uuids1 : Uuids :=
  ⟨"0b8e4f4e-6c0f-4d53-9a41-2f4f0c1d7a11", "7f6b1a52-3d8e-4c7a-8a55-0d9e6b2c4f10"⟩

def uuids2 : Uuids :=
  ⟨"5d2c9e7a-1f3b-4e86-b0c4-8a7d6e5f4c32", "c1a4d2e6-9b07-4f3d-8e21-6a5b4c3d2e1f"⟩

def tokenHeader : String := "eyJhbGciOiJFZERTQSIsInR5cCI6IkpXVCIsImtpZCI6ImtleV8xIn0"

def tokenPayload1 : String :=
  "eyJzdWIiOiJkaWQ6a2V5Ono2TWtzd2R6UnV3QnBLb0dVTDJZUHJlNFdmYlRBOGZHRFZtTlBxWFd6b1pxWGY4SiIs" ++
  "ImF1ZCI6InJvYm90LTEiLCJzaWQiOiJzZXNfbWp1b2hzMDBfazN4OXFhIiwic2NvcGUiOlsidGVsZW9wOnZpZXci" ++
  "LCJ0ZWxlb3A6Y29udHJvbCJdLCJub25jZSI6IjdmNmIxYTUyLTNkOGUtNGM3YS04YTU1LTBkOWU2YjJjNGYxMCIs" ++
  "ImlhdCI6MTc2NzIyNTYwMCwiZXhwIjoxNzY3MjI5MjAwLCJqdGkiOiJ0b2tfMGI4ZTRmNGUtNmMwZi00ZDUzLTlh" ++
  "NDEtMmY0ZjBjMWQ3YTExIn0"

def tokenPayload2 : String :=
  "eyJzdWIiOiJkaWQ6a2V5Ono2TWtzd2R6UnV3QnBLb0dVTDJZUHJlNFdmYlRBOGZHRFZtTlBxWFd6b1pxWGY4SiIs" ++
  "ImF1ZCI6InJvYm90LTEiLCJzaWQiOiJzZXNfbWp1b2hzMDBfazN4OXFhIiwic2NvcGUiOlsidGVsZW9wOnZpZXci" ++
  "LCJ0ZWxlb3A6Y29udHJvbCJdLCJub25jZSI6ImMxYTRkMmU2LTliMDctNGYzZC04ZTIxLTZhNWI0YzNkMmUxZiIs" ++
  "ImlhdCI6MTc2NzIyNTYwMCwiZXhwIjoxNzY3MjI5MjAwLCJqdGkiOiJ0b2tfNWQyYzllN2EtMWYzYi00ZTg2LWIw" ++
  "YzQtOGE3ZDZlNWY0YzMyIn0"

def tokenSignature1 : String :=
  "SLCwH95c8PHSDTJ8KURcsia4TeODh1MnNcEHmWf3mYCPBKJpsKb0zemH6IUZ0BeVMHRnB5m6pFkBKrdcDEeLBA"

def token1 : String := tokenHeader ++ "." ++ tokenPayload1 ++ "." ++ tokenSignature1

def token2 : String :=
  tokenHeader ++ "." ++ tokenPayload2 ++ "." ++
  "i_DuO7M4UZqH5ug2SQxvvDp9KH6wB2nJL28nKwfC_OfWktH-Xo4Fr6YDbVUGhmYPBRe4xB18vM1vFURT34JLBg"

/-- The rules of the default policy. -/
def defaultPolicyRules : List PolicyRule :=
  [⟨"allow-operators", .allow,
    [⟨"credential.role", .inList, .arr [.str "operator", .str "admin"]⟩],
    ["teleop:view", "teleop:control", "teleop:estop"], 100⟩]

def policy : Policy :=
  ⟨"default-policy", 1, defaultPolicyRules,
    "a46bf15aa032e8ce83439fe369f6f3b977cc51ae545b3393b3d06362663e6bd4"⟩

def store : PolicyStore := ⟨OrdMap.empty.set "default-policy" policy⟩

/-- The payloads of the two tokens as `JSON.parse` returns them, as far as
they are read. -/
def decodePart (part : String) : Option Val :=
  if part = tokenPayload1 then some (.obj [("jti", .str ("tok_" ++ uuids1.jti))])
  else if part = tokenPayload2 then some (.obj [("jti", .str ("tok_" ++ uuids2.jti))])
  else none

def gateway : Deployment where
  config := ⟨"stun:stun.l.google.com:19302", "turn:localhost:3478", 3600, 20, 4000,
    "chainkvm-admin-dev-key-change-in-prod"⟩
  modules := ⟨true, true, true, true, some store⟩
  jose := jose
  decodePart := decodePart
  sign claims := if claims.jti = "tok_" ++ uuids1.jti then token1 else token2

def start : State := .start now (some (.new 100000))

/-- The body of a request for a session. -/
def body (vcOrVp : String) (scope : List String) : Val :=
  .obj [("robot_id", .str "robot-1"), ("operator_did", .str operator), ("vc_or_vp", .str vcOrVp),
    ("requested_scope", .arr (scope.map Val.str))]

/-- The scope of a session that is not only for viewing. -/
def teleop : List String := ["teleop:view", "teleop:control"]

/-- The operator asks for a session. -/
def create : Event :=
  .create "localhost" (body credential teleop) sid uuids1

/-- The operator asks for a new token. -/
def refresh : Event := .refresh sid (some ("Bearer " ++ token1)) uuids2

/-- The administrator revokes the operator. -/
def revoke : Event :=
  .revoke (some "chainkvm-admin-dev-key-change-in-prod")
    (.obj [("operator_did", .str operator), ("reason", .str "expelled")]) "rev_mjuohs00_p2m4zc"

/-! ## Reading the first token -/

theorem noDot_ofList {cs : List Char} (h : cs.contains '.' = false) :
    '.' ∉ (String.ofList cs).toList := by
  rw [String.toList_ofList]
  simpa using h

/-- None of the three parts of the first token has a dot. -/
theorem token1_noDot :
    '.' ∉ tokenHeader.toList ∧ '.' ∉ tokenPayload1.toList ∧ '.' ∉ tokenSignature1.toList := by
  refine ⟨noDot_ofList (by decide +kernel), ?_, noDot_ofList (by decide +kernel)⟩
  unfold tokenPayload1
  simp only [String.toList_append, List.mem_append, not_or]
  exact ⟨⟨⟨⟨noDot_ofList (by decide +kernel), noDot_ofList (by decide +kernel)⟩,
    noDot_ofList (by decide +kernel)⟩, noDot_ofList (by decide +kernel)⟩,
    noDot_ofList (by decide +kernel)⟩

/-- The refresh goes by the `jti` of the first token. -/
theorem startRefresh_eq (s : State) :
    startRefresh gateway s sid (some ("Bearer " ++ token1)) uuids2 =
      letThrough gateway s sid
        (isJtiValidForSession s.now (.str ("tok_" ++ uuids1.jti)) sid s.registry) uuids2 := by
  have hjti : extractJtiFromToken gateway.decodePart token1 = .str ("tok_" ++ uuids1.jti) := by
    have hdecoded : decodePart tokenPayload1 = some (.obj [("jti", .str ("tok_" ++ uuids1.jti))]) :=
      if_pos rfl
    obtain ⟨hheader, hpayload, hsignature⟩ := token1_noDot
    have hparts := extractJtiFromToken_parts decodePart hheader hpayload hsignature
    rw [hdecoded] at hparts
    exact hparts
  exact startRefresh_bearer rfl (by simp [token1]) hjti s sid uuids2

theorem step_refresh (s : State) :
    step gateway s refresh = (suspendRefresh s (letThrough gateway s sid
      (isJtiValidForSession s.now (.str ("tok_" ++ uuids1.jti)) sid s.registry) uuids2)).2 := by
  rw [refresh, Gateway.step_refresh, startRefresh_eq]

/-! ## The session -/

/-- What the credential says of the operator. -/
def operatorCredential : EvaluationCredential :=
  buildEvaluationCredential (.str issuer) (.str operator) (.obj [("role", .str "operator")])

/-- The evaluator's answer to the operator's request. -/
def evaluation (scope : List String) : Option EvaluationResult :=
  evaluate policy
    (buildEvaluationContext operatorCredential now (.str "robot-1") (.arr (scope.map Val.str)))
    (.arr (scope.map Val.str))

/-- The operator's request at its `await`. -/
def call (scope : List String) : CreateCall where
  sessionId := sid
  robotId := .str "robot-1"
  operatorDid := .str operator
  effectiveScope := .arr (scope.map Val.str)
  policyResult := policySuccess policy
  hostname := "localhost"
  claims := generate now uuids1
    ⟨.str operator, .str "robot-1", sid, .arr (scope.map Val.str), 3600⟩

theorem evaluation_teleop :
    (evaluation teleop).any (fun result => result.decision = .allow) = true := by
  decide +kernel

/-- Whoever signed the credential, what it says is extracted. -/
theorem extracted {vcOrVp : String} (htext : vcOrVp = credential ∨ vcOrVp = forged) :
    extractCredentialForPolicy jose (.str vcOrVp) = .ok operatorCredential := by
  have hempty : vcOrVp ≠ "" := by
    rcases htext with rfl | rfl
    · simp [credential]
    · simp [forged]
  have hdecode : jose.decodeJwt vcOrVp = some payload := if_pos htext
  refine extract_ok_iff.mpr ⟨vcOrVp, payload, rfl, hempty, hdecode, ?_, ?_, ?_, rfl⟩
  · rfl
  · rfl
  · rfl

/-- The request is let through for a scope that the evaluator allows, however
tokens are signed and read. -/
theorem startCreate_with (decodePart : String → Option Val)
    (sign : CapabilityTokenClaims → String) (vcOrVp : String) (scope : List String)
    (htext : vcOrVp = credential ∨ vcOrVp = forged)
    (hallowed : (evaluation scope).any (fun result => result.decision = .allow) = true) :
    startCreate { gateway with decodePart := decodePart, sign := sign } start "localhost"
      (body vcOrVp scope) sid uuids1 = .inr (call scope) := by
  obtain ⟨result, hresult, hallow⟩ := (Option.any_eq_true _ _).mp hallowed
  have hpassed : evaluateSessionPolicy jose now (.str vcOrVp) (.str "robot-1")
      (.arr (scope.map Val.str)) true (some store) = .success (policySuccess policy) :=
    evaluateSessionPolicy_success_iff.mpr ⟨operatorCredential, policy, result,
      ⟨extracted htext, rfl, hresult, by simpa using hallow⟩, rfl⟩
  exact startCreate_of_success rfl rfl hpassed

theorem startCreate_body (vcOrVp : String) (scope : List String)
    (htext : vcOrVp = credential ∨ vcOrVp = forged)
    (hallowed : (evaluation scope).any (fun result => result.decision = .allow) = true) :
    startCreate gateway start "localhost" (body vcOrVp scope) sid uuids1 = .inr (call scope) :=
  startCreate_with decodePart gateway.sign vcOrVp scope htext hallowed

/-! ## The first steps -/

/-- The gateway once the operator has a session. -/
def issued : State :=
  (finishCreate gateway start (call teleop)).2

/-- The gateway once the operator's refresh is suspended. -/
def waiting : State :=
  (suspendRefresh issued (letThrough gateway issued sid
    (isJtiValidForSession issued.now (.str ("tok_" ++ uuids1.jti)) sid issued.registry) uuids2)).2

/-- The operator's request waits for its token. -/
def requested : State :=
  { start with pending := [.create (call teleop)] }

theorem startCreate_eq :
    startCreate gateway start "localhost" (body credential teleop) sid uuids1 =
      .inr (call teleop) :=
  startCreate_body _ _ (.inl rfl) evaluation_teleop

theorem step_create : step gateway start create = requested := by
  rw [create, Gateway.step_create, startCreate_eq]
  rfl

theorem step_issue : step gateway requested (.settle 0 true) = issued := rfl

theorem step_wait : step gateway issued refresh = waiting := step_refresh issued

theorem run_waiting (es : List Event) :
    run (step gateway) start (create :: .settle 0 true :: refresh :: es) =
      run (step gateway) waiting es := by
  rw [run_cons, run_cons, run_cons, step_create, step_issue, step_wait]

end ChainKVM.Gateway.Sample
