import ChainKVM.Gateway.Jwks
import ChainKVM.Gateway.Sample
import ChainKVM.Robot.Jwks
import ChainKVM.Robot.Manager

/-!
# A token from the gateway to the robot

The gateway signs a token for a robot, publishes its key, and the robot
validates the token offline with the key it has fetched. Signing, parsing and
base64 are the libraries' (`TokenLibraries`), assumed correct for the token in
question (`TokenLibraries.Correct`).

The robot asks for the key `gateway-signing-key`. The token round-trips iff
that is the id the key manager publishes (`roundTrip_iff`); the development
key manager, the only one there is, publishes `dev-key-1`.
-/

namespace ChainKVM.System

open Gateway (CapabilityTokenClaims JWK KeyManager SignedToken Uuids)
open Robot (JwkKey JwksResponse JwtParse JwtToken Manager SessionError Time TokenClaims
  TokenValidator second)

/-! ## The libraries -/

/-- Key pairs, `exportJWK` and `sign` of jose, the base64 decoder of Go and
`Parse` of golang-jwt. -/
structure TokenLibraries where
  SigningKey : Type
  publicKey : SigningKey → List UInt8
  x : SigningKey → String
  sign : SigningKey → SignedToken → String
  decodeString : String → Option (List UInt8)
  parse : JwtParse

/-- The token that the gateway issues for some claims. -/
def TokenLibraries.token (lib : TokenLibraries) (m : KeyManager lib.SigningKey)
    (claims : CapabilityTokenClaims) : String :=
  lib.sign m.signingKey (Gateway.signedToken m.keyId claims)

/-- The libraries are correct for this token: the public key has 32 bytes and
survives its encoding, and under that key the token parses to what was signed,
until it has expired. -/
structure TokenLibraries.Correct (lib : TokenLibraries) (m : KeyManager lib.SigningKey)
    (claims : CapabilityTokenClaims) : Prop where
  size : (lib.publicKey m.signingKey).length = 32
  decodes : lib.decodeString (lib.x m.signingKey) = some (lib.publicKey m.signingKey)
  nonempty : lib.token m claims ≠ ""
  parses : 0 < claims.exp → ∀ keyFunc leeway now,
    keyFunc .ed25519 = .ok (lib.publicKey m.signingKey) →
      lib.parse (lib.token m claims) keyFunc leeway now =
        if now < claims.exp * second + leeway then .ok ⟨.ed25519, claims.payload, true⟩
        else .error ⟨true, false, false, false⟩

/-! ## The robot's end -/

/-- A published key as the robot decodes it. -/
def jwkKey (key : JWK) : JwkKey := ⟨key.kty, key.crv, key.kid, key.x, key.use⟩

/-- The response to a fetch of the gateway's key set. -/
def published (lib : TokenLibraries) (m : KeyManager lib.SigningKey) : JwksResponse :=
  .ok ((Gateway.buildJWKS (some m) lib.x).map jwkKey)

/-- The session manager of a robot that has fetched the key set. -/
def robotManager (lib : TokenLibraries) (m : KeyManager lib.SigningKey) (robotID : String) :
    Manager :=
  .new robotID (Robot.initTokenValidator lib.decodeString robotID (published lib m)
    (published lib m))

/-- A call of `ValidateToken`. -/
structure Validation where
  now : Time
  sessionID : String
  token : String

/-- The manager after some validations. -/
def validated (parse : JwtParse) (m : Manager) (calls : List Validation) : Manager :=
  calls.foldl (fun m call => (m.validateToken parse call.now call.sessionID call.token).2) m

/-- The token of an operator for a session with a robot is accepted until it
expires and says there what it said here; for any other session and at any
other robot it is rejected. Whatever has been validated before. -/
structure RoundTrip (lib : TokenLibraries) (m : KeyManager lib.SigningKey)
    (operatorDID robotID sessionID : String) (actions : List String)
    (claims : CapabilityTokenClaims) : Prop where
  accepted : ∀ calls t, t ≤ claims.exp * second →
    ((validated lib.parse (robotManager lib m robotID) calls).validateToken lib.parse t sessionID
      (lib.token m claims)).1 =
        .ok ⟨sessionID, operatorDID, robotID, actions, claims.exp * second⟩
  otherSession : ∀ calls t sessionID', sessionID' ≠ sessionID → ∃ err,
    ((validated lib.parse (robotManager lib m robotID) calls).validateToken lib.parse t sessionID'
      (lib.token m claims)).1 = .error err
  otherRobot : ∀ robotID', robotID' ≠ robotID → ∀ calls t sessionID', ∃ err,
    ((validated lib.parse (robotManager lib m robotID') calls).validateToken lib.parse t sessionID'
      (lib.token m claims)).1 = .error err

/-! ## The key -/

/-- The robot builds a validator with the gateway's key iff it finds it under
the id it asks for. -/
theorem validator_robotManager {lib : TokenLibraries} {m : KeyManager lib.SigningKey}
    (hsize : (lib.publicKey m.signingKey).length = 32)
    (hdecodes : lib.decodeString (lib.x m.signingKey) = some (lib.publicKey m.signingKey))
    (robotID : String) :
    (robotManager lib m robotID).validator =
      if m.keyId = "gateway-signing-key" then
        some ⟨lib.publicKey m.signingKey, robotID, 30 * second⟩
      else none := by
  have hkeys : Robot.JWKSFetcher.updateCache lib.decodeString
      ((Gateway.buildJWKS (some m) lib.x).map jwkKey) =
        ⟨OrdMap.empty.set m.keyId (lib.publicKey m.signingKey)⟩ := by
    show (⟨Robot.JWKSFetcher.addKey lib.decodeString OrdMap.empty
      ⟨"OKP", "Ed25519", m.keyId, lib.x m.signingKey, "sig"⟩⟩ : Robot.JWKSFetcher) = _
    unfold Robot.JWKSFetcher.addKey
    rw [if_neg (by simp)]
    dsimp only
    rw [hdecodes]
    dsimp only
    rw [if_neg (by simp [hsize])]
  -- the first look-up misses the empty cache, so the keys are fetched
  show Robot.initTokenValidator lib.decodeString robotID (published lib m) (published lib m) = _
  unfold Robot.initTokenValidator Robot.JWKSFetcher.getPublicKey Robot.JWKSFetcher.refresh published
  dsimp only
  rw [hkeys]
  dsimp only
  rw [OrdMap.get_set]
  by_cases hkid : m.keyId = "gateway-signing-key"
  · rw [if_pos hkid, if_pos hkid.symm]
  · rw [if_neg hkid, if_neg (Ne.symm hkid)]
    rfl

/-! ## The claims -/

theorem truncate_intCast (e : Int) : TokenValidator.truncate (e : Rat) = e := by
  unfold TokenValidator.truncate
  split
  · exact Rat.floor_intCast e
  · exact Rat.ceil_intCast e

/-- What the robot extracts is what the gateway was asked to sign, for a robot
and a session of these names. -/
theorem extractClaims_generate (v : TokenValidator) (now : Int) (uuids : Uuids)
    (operatorDID robotID sessionID : String) (actions : List String) (ttlSeconds : Int)
    (expectedSessionID : String) :
    v.extractClaims (Gateway.generate now uuids ⟨.str operatorDID, .str robotID, sessionID,
        .arr (actions.map .str), ttlSeconds⟩).payload expectedSessionID =
      if robotID ≠ v.robotID then .error .invalidAudience
      else if sessionID ≠ expectedSessionID then .error .sessionMismatch
      else .ok ⟨"tok_" ++ uuids.jti, expectedSessionID, operatorDID, actions, uuids.nonce,
        (now / 1000 + ttlSeconds) * second⟩ := by
  have hpayload : (Gateway.generate now uuids ⟨.str operatorDID, .str robotID, sessionID,
      .arr (actions.map .str), ttlSeconds⟩).payload =
        [("sub", .str operatorDID), ("aud", .str robotID), ("sid", .str sessionID),
          ("scope", .arr (actions.map .str)), ("nonce", .str uuids.nonce),
          ("iat", .num ((now / 1000 : Int) : Rat)),
          ("exp", .num ((now / 1000 + ttlSeconds : Int) : Rat)),
          ("jti", .str ("tok_" ++ uuids.jti))] := by
    rw [← Js.itemsToJson_map_str]
    rfl
  have hscope : (actions.map Json.str).filterMap Json.asString = actions := by
    rw [List.filterMap_map]
    exact List.filterMap_some
  rw [hpayload]
  unfold TokenValidator.extractClaims
  show (if some robotID ≠ some v.robotID then _ else
    if some sessionID ≠ some expectedSessionID then _ else _) = _
  by_cases haud : robotID = v.robotID
  · have haud' : ¬ some robotID ≠ some v.robotID := fun h => h (congrArg some haud)
    have hrobot : ¬ robotID ≠ v.robotID := fun h => h haud
    rw [if_neg haud', if_neg hrobot]
    by_cases hsid : sessionID = expectedSessionID
    · have hsid' : ¬ some sessionID ≠ some expectedSessionID := fun h => h (congrArg some hsid)
      have hsession : ¬ sessionID ≠ expectedSessionID := fun h => h hsid
      rw [if_neg hsid', if_neg hsession]
      show Except.ok (⟨"tok_" ++ uuids.jti, expectedSessionID, operatorDID,
        (actions.map Json.str).filterMap Json.asString, uuids.nonce,
        TokenValidator.truncate ((now / 1000 + ttlSeconds : Int) : Rat) * second⟩ :
          TokenClaims) = _
      rw [hscope, truncate_intCast]
    · have hsid' : some sessionID ≠ some expectedSessionID := fun h => hsid (Option.some.inj h)
      rw [if_pos hsid', if_pos hsid]
  · have haud' : some robotID ≠ some v.robotID := fun h => haud (Option.some.inj h)
    rw [if_pos haud', if_pos haud]

/-! ## The round trip -/

/-- Validating leaves a robot that has just started with what it needs. -/
theorem validated_manager (parse : JwtParse) :
    ∀ (calls : List Validation) (m : Manager), m.state ≠ .terminated → m.CacheHonest parse →
      (validated parse m calls).state ≠ .terminated ∧
        (validated parse m calls).CacheHonest parse ∧
        (validated parse m calls).validator = m.validator ∧
        (validated parse m calls).robotID = m.robotID := by
  intro calls
  induction calls with
  | nil => exact fun m hstate hhonest => ⟨hstate, hhonest, rfl, rfl⟩
  | cons call calls ih =>
    intro m hstate hhonest
    have hframe := m.validateToken_frame parse call.now call.sessionID call.token
    obtain ⟨hvalidator, hrobot⟩ := m.validateToken_same parse call.now call.sessionID call.token
    obtain ⟨hstate', hhonest', hvalidator', hrobot'⟩ :=
      ih (m.validateToken parse call.now call.sessionID call.token).2
        (by rw [hframe.1]; exact hstate)
        (Manager.validateToken_cacheHonest hhonest call.now call.sessionID call.token)
    exact ⟨hstate', hhonest', hvalidator'.trans hvalidator, hrobot'.trans hrobot⟩

section

variable {lib : TokenLibraries} {m : KeyManager lib.SigningKey} {now : Int} {uuids : Uuids}
  {operatorDID robotID sessionID : String} {actions : List String} {ttlSeconds : Int}

/-- The claims of the token of an operator for a session with a robot. -/
def tokenClaims (now : Int) (uuids : Uuids) (operatorDID robotID sessionID : String)
    (actions : List String) (ttlSeconds : Int) : CapabilityTokenClaims :=
  Gateway.generate now uuids
    ⟨.str operatorDID, .str robotID, sessionID, .arr (actions.map .str), ttlSeconds⟩

/-- What a validator with the gateway's key says of the token. -/
theorem validate_token
    (hlib : lib.Correct m (tokenClaims now uuids operatorDID robotID sessionID actions ttlSeconds))
    (hnow : 0 ≤ now) (httl : 0 < ttlSeconds) (robotID' : String) (t : Time)
    (sessionID' : String) :
    (⟨lib.publicKey m.signingKey, robotID', 30 * second⟩ : TokenValidator).validate lib.parse t
        (lib.token m (tokenClaims now uuids operatorDID robotID sessionID actions ttlSeconds))
        sessionID' =
      if t < (now / 1000 + ttlSeconds) * second + 30 * second then
        if robotID ≠ robotID' then .error .invalidAudience
        else if sessionID ≠ sessionID' then .error .sessionMismatch
        else .ok ⟨"tok_" ++ uuids.jti, sessionID', operatorDID, actions, uuids.nonce,
          (now / 1000 + ttlSeconds) * second⟩
      else .error .tokenExpired := by
  have hexp : 0 < (tokenClaims now uuids operatorDID robotID sessionID actions ttlSeconds).exp := by
    show 0 < now / 1000 + ttlSeconds
    omega
  have hparse := hlib.parses hexp
    (⟨lib.publicKey m.signingKey, robotID', 30 * second⟩ : TokenValidator).keyFunc
    (30 * second) t rfl
  unfold TokenValidator.validate
  rw [if_neg hlib.nonempty]
  dsimp only
  rw [hparse]
  have hexpires : (tokenClaims now uuids operatorDID robotID sessionID actions ttlSeconds).exp =
      now / 1000 + ttlSeconds := rfl
  rw [hexpires]
  by_cases ht : t < (now / 1000 + ttlSeconds) * second + 30 * second
  · rw [if_pos ht, if_pos ht]
    exact extractClaims_generate _ now uuids operatorDID robotID sessionID actions ttlSeconds
      sessionID'
  · rw [if_neg ht, if_neg ht]
    rfl

/-- What it accepts it accepts for the robot and the session of the token, and
as it was signed. -/
theorem accepted_token
    (hlib : lib.Correct m (tokenClaims now uuids operatorDID robotID sessionID actions ttlSeconds))
    (hnow : 0 ≤ now) (httl : 0 < ttlSeconds) {robotID' sessionID' : String} {t : Time}
    {claims : TokenClaims}
    (h : (⟨lib.publicKey m.signingKey, robotID', 30 * second⟩ : TokenValidator).validate lib.parse t
        (lib.token m (tokenClaims now uuids operatorDID robotID sessionID actions ttlSeconds))
        sessionID' = .ok claims) :
    robotID' = robotID ∧ sessionID' = sessionID ∧
      claims = ⟨"tok_" ++ uuids.jti, sessionID', operatorDID, actions, uuids.nonce,
        (now / 1000 + ttlSeconds) * second⟩ := by
  rw [validate_token hlib hnow httl] at h
  split at h
  · split at h
    · cases h
    next hrobot =>
      split at h
      · cases h
      next hsession =>
        exact ⟨(Classical.not_not.mp hrobot).symm, (Classical.not_not.mp hsession).symm,
          (Except.ok.inj h).symm⟩
  · cases h

/-- A robot that accepts the token has the gateway's key, is the robot that the
token names, and reads there what was signed; whatever it has validated
before. -/
theorem accepted_manager
    (hlib : lib.Correct m (tokenClaims now uuids operatorDID robotID sessionID actions ttlSeconds))
    (hnow : 0 ≤ now) (httl : 0 < ttlSeconds) {robotID' sessionID' : String}
    {calls : List Validation} {t : Time} {info : Robot.Info}
    (h : ((validated lib.parse (robotManager lib m robotID') calls).validateToken lib.parse t
      sessionID' (lib.token m (tokenClaims now uuids operatorDID robotID sessionID actions
        ttlSeconds))).1 = .ok info) :
    m.keyId = "gateway-signing-key" ∧ robotID' = robotID ∧ sessionID' = sessionID ∧
      info = ⟨sessionID, operatorDID, robotID, actions, (now / 1000 + ttlSeconds) * second⟩ := by
  obtain ⟨-, hhonest, hvalidator, hrobot⟩ :=
    validated_manager lib.parse calls (robotManager lib m robotID') nofun
      (Manager.new_cacheHonest _ _ _)
  -- the claims may be those of an earlier validation
  obtain ⟨v, t', claims, hv, hvalid, hinfo⟩ := Manager.exists_of_validateToken hhonest h
  rw [hvalidator, validator_robotManager hlib.size hlib.decodes] at hv
  split at hv
  next hkid =>
    obtain rfl := Option.some.inj hv
    obtain ⟨rfl, rfl, rfl⟩ := accepted_token hlib hnow httl hvalid
    refine ⟨hkid, rfl, rfl, ?_⟩
    rw [hinfo]
    unfold Manager.claimsToInfo
    rw [hrobot]
    rfl
  next => cases hv

/-- The token round-trips iff the gateway publishes its key under the id the
robot asks for. -/
theorem roundTrip_iff
    (hlib : lib.Correct m (tokenClaims now uuids operatorDID robotID sessionID actions ttlSeconds))
    (hnow : 0 ≤ now) (httl : 0 < ttlSeconds) :
    RoundTrip lib m operatorDID robotID sessionID actions
        (tokenClaims now uuids operatorDID robotID sessionID actions ttlSeconds) ↔
      m.keyId = "gateway-signing-key" := by
  constructor
  · intro hround
    exact (accepted_manager hlib hnow httl (hround.accepted [] _ (le_refl _))).1
  · intro hkid
    have hrejected (robotID' : String) (calls : List Validation) (t : Time) (sessionID' : String)
        (hother : robotID' ≠ robotID ∨ sessionID' ≠ sessionID) :
        ∃ err, ((validated lib.parse (robotManager lib m robotID') calls).validateToken lib.parse t
          sessionID' (lib.token m (tokenClaims now uuids operatorDID robotID sessionID actions
            ttlSeconds))).1 = .error err := by
      cases hresult : ((validated lib.parse (robotManager lib m robotID') calls).validateToken
        lib.parse t sessionID' (lib.token m (tokenClaims now uuids operatorDID robotID sessionID
          actions ttlSeconds))).1 with
      | error err => exact ⟨err, rfl⟩
      | ok info =>
        obtain ⟨-, hrobot, hsession, -⟩ := accepted_manager hlib hnow httl hresult
        rcases hother with h | h
        · exact absurd hrobot h
        · exact absurd hsession h
    refine ⟨fun calls t ht => ?_, fun calls t sessionID' hother =>
      hrejected robotID calls t sessionID' (.inr hother), fun robotID' hother calls t sessionID' =>
      hrejected robotID' calls t sessionID' (.inl hother)⟩
    obtain ⟨hstate, -, hvalidator, -⟩ :=
      validated_manager lib.parse calls (robotManager lib m robotID) nofun
        (Manager.new_cacheHonest _ _ _)
    rw [validator_robotManager hlib.size hlib.decodes, if_pos hkid] at hvalidator
    have hleeway : t < (now / 1000 + ttlSeconds) * second + 30 * second := by
      have hexp : t ≤ (now / 1000 + ttlSeconds) * second := ht
      have hsecond : (0 : Int) < 30 * second := by decide
      omega
    have hvalid := validate_token hlib hnow httl robotID t sessionID
    rw [if_pos hleeway, if_neg (fun h => h rfl), if_neg (fun h => h rfl)] at hvalid
    obtain ⟨info, hinfo⟩ := Manager.validateToken_of_validate hstate hvalidator hvalid
    obtain ⟨-, -, -, rfl⟩ := accepted_manager hlib hnow httl hinfo
    exact hinfo

end

/-! ## An operator's token -/

namespace Sample

open Gateway.Sample (now operator sid teleop tokenPayload1 uuids1)

/-- The gateway's public key, and its `x`. -/
def publicKey : List UInt8 :=
  [143, 152, 187, 85, 6, 230, 123, 88, 151, 39, 233, 105, 222, 25, 223, 232, 167, 135, 162, 34,
    16, 185, 77, 185, 178, 59, 156, 249, 167, 47, 196, 57]

def x : String := "j5i7VQbme1iXJ-lp3hnf6KeHoiIQuU25sjuc-acvxDk"

def header : String :=
  "eyJhbGciOiJFZERTQSIsInR5cCI6IkpXVCIsImtpZCI6ImdhdGV3YXktc2lnbmluZy1rZXkifQ"

def signature : String :=
  "8krFizDVN0BCH3uK1FSbCZ0Bc1oojn_z4stFOSxcXxTFb0gEJxBp5ghX74FFDofk7VTkPsfRCzE-IbAOOB-aAg"

/-- The token with the id that the robot asks for. -/
def token : String := header ++ "." ++ tokenPayload1 ++ "." ++ signature

def devHeader : String := "eyJhbGciOiJFZERTQSIsInR5cCI6IkpXVCIsImtpZCI6ImRldi1rZXktMSJ9"

def devSignature : String :=
  "TjFkbuDypnsnd88DWENN9WYM3axKTUbXrdUHvSkwWbcPaPU0VI2WLymCYY5jusfV956bX55lckUGxloh-O8RAA"

/-- The token with the id of the development key. -/
def devToken : String := devHeader ++ "." ++ tokenPayload1 ++ "." ++ devSignature

/-- The claims of both. -/
def claims : CapabilityTokenClaims :=
  tokenClaims now uuids1 operator "robot-1" sid teleop 3600

/-- The libraries at these tokens: either one parses under the gateway's
key. -/
def lib : TokenLibraries where
  SigningKey := Unit
  publicKey _ := publicKey
  x _ := x
  sign _ signed := if signed.kid = "dev-key-1" then devToken else token
  decodeString text := if text = x then some publicKey else none
  parse text keyFunc leeway now :=
    match keyFunc .ed25519 with
    | .error _ => .error ⟨false, true, false, false⟩
    | .ok key =>
      if key ≠ publicKey then .error ⟨false, true, false, false⟩
      else if text = token ∨ text = devToken then
        if now < claims.exp * second + leeway then .ok ⟨.ed25519, claims.payload, true⟩
        else .error ⟨true, false, false, false⟩
      else .error ⟨false, false, true, false⟩

def key : lib.SigningKey := ()

theorem lib_correct (keyId : String) : lib.Correct ⟨key, keyId⟩ claims := by
  have htext : lib.token ⟨key, keyId⟩ claims = token ∨
      lib.token ⟨key, keyId⟩ claims = devToken := by
    show (if keyId = "dev-key-1" then devToken else token) = token ∨
      (if keyId = "dev-key-1" then devToken else token) = devToken
    split
    · exact .inr rfl
    · exact .inl rfl
  refine ⟨rfl, ?_, ?_, fun _ keyFunc leeway now hkey => ?_⟩
  · show (if x = x then some publicKey else none) = some publicKey
    rw [if_pos rfl]
  · rcases htext with h | h
    · rw [h]
      simp [token]
    · rw [h]
      simp [devToken]
  · generalize lib.token ⟨key, keyId⟩ claims = text at htext
    unfold lib
    dsimp only
    rw [hkey]
    show (if publicKey ≠ publicKey then _ else if text = token ∨ text = devToken then _ else _) = _
    rw [if_neg (fun h => h rfl), if_pos htext]

end Sample

theorem roundTrip_iff_sample :
    RoundTrip Sample.lib ⟨Sample.key, "gateway-signing-key"⟩ Gateway.Sample.operator "robot-1"
        Gateway.Sample.sid Gateway.Sample.teleop Sample.claims ↔
      (⟨Sample.key, "gateway-signing-key"⟩ : KeyManager Sample.lib.SigningKey).keyId =
        "gateway-signing-key" :=
  roundTrip_iff (Sample.lib_correct _) (by decide) (by decide)

/-- The development key manager's tokens do not round-trip. -/
theorem roundTrip_fails :
    ¬ ∀ (lib : TokenLibraries) (key : lib.SigningKey) (now : Int) (uuids : Uuids)
      (operatorDID robotID sessionID : String) (actions : List String) (ttlSeconds : Int),
      lib.Correct (Gateway.createDevKeyManager key)
          (tokenClaims now uuids operatorDID robotID sessionID actions ttlSeconds) →
        0 ≤ now → 0 < ttlSeconds →
          RoundTrip lib (Gateway.createDevKeyManager key) operatorDID robotID sessionID actions
            (tokenClaims now uuids operatorDID robotID sessionID actions ttlSeconds) := by
  intro h
  have hcorrect : Sample.lib.Correct (Gateway.createDevKeyManager Sample.key) Sample.claims :=
    Sample.lib_correct "dev-key-1"
  have hround := h Sample.lib Sample.key Gateway.Sample.now Gateway.Sample.uuids1
    Gateway.Sample.operator "robot-1" Gateway.Sample.sid Gateway.Sample.teleop 3600 hcorrect (by decide) (by decide)
  have haccepted := hround.accepted [] (Gateway.Sample.now * Robot.millisecond) (by decide)
  -- the robot has no validator
  have hnone : (robotManager Sample.lib (Gateway.createDevKeyManager Sample.key)
      "robot-1").validator = none := by
    rw [validator_robotManager hcorrect.size hcorrect.decodes]
    rfl
  obtain ⟨v, t, claims, hv, -, -⟩ := Manager.exists_of_validateToken
    (Manager.new_cacheHonest _ _ _) haccepted
  have hv' := hnone.symm.trans hv
  cases hv'

end ChainKVM.System
