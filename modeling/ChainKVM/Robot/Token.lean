import ChainKVM.Lib.Json
import ChainKVM.Robot.Protocol

/-!
# Capability tokens: `token.go` and `token_cache.go`

`TokenValidator.validate` is `Validate` over golang-jwt's `Parse`, which is a
parameter: a function of the token string, the key function, the leeway and
the clock. `TokenCache` is the cache of validated claims, keyed by the token
string (the Go map is a list of entries with distinct keys: `set` drops the
old entry of its key).
-/

namespace ChainKVM.Robot

/-- The error values of the session package. -/
inductive SessionError where
  | noActiveSession
  | sessionExists
  | invalidToken
  | sessionTerminated
  | tokenExpired
  | invalidSignature
  | invalidAudience
  | sessionMismatch
  | malformedToken
  | tokenNotYetValid
  deriving DecidableEq, Repr

/-- `TokenClaims`. -/
structure TokenClaims where
  jti : String
  sessionID : String
  subject : String
  scope : List String
  nonce : String
  expiresAt : Time
  deriving DecidableEq, Repr

/-- The signing method a token's header names. -/
inductive JwtMethod where
  | ed25519
  | other (alg : String)
  deriving DecidableEq, Repr

/-- A parsed token: its method, its claims and the library's verdict. -/
structure JwtToken where
  method : JwtMethod
  claims : Json.Members
  valid : Bool

/-- A parse error, by the answers of `errors.Is` the code asks for. -/
structure JwtFailure where
  tokenExpired : Bool
  tokenSignatureInvalid : Bool
  tokenMalformed : Bool
  tokenNotValidYet : Bool
  deriving DecidableEq, Repr

/-- `jwt.Parse(token, keyFunc, WithLeeway(leeway))` at a time. -/
abbrev JwtParse :=
  String → (JwtMethod → Except SessionError (List UInt8)) → Duration → Time →
    Except JwtFailure JwtToken

/-- `TokenValidator`. -/
structure TokenValidator where
  publicKey : List UInt8
  robotID : String
  clockSkew : Duration
  deriving DecidableEq, Repr

namespace TokenValidator

/-- `keyFunc`: only Ed25519 tokens get the key. -/
def keyFunc (v : TokenValidator) (method : JwtMethod) : Except SessionError (List UInt8) :=
  match method with
  | .ed25519 => .ok v.publicKey
  | .other _ => .error .invalidSignature

/-- `mapError`: the first matching case wins. -/
def mapError (err : JwtFailure) : SessionError :=
  if err.tokenExpired then .tokenExpired
  else if err.tokenSignatureInvalid then .invalidSignature
  else if err.tokenMalformed then .malformedToken
  else if err.tokenNotValidYet then .tokenNotYetValid
  else .invalidToken

/-- `extractScope`: the strings of the `scope` array; anything else is
skipped. -/
def extractScope (claims : Json.Members) : List String :=
  match (claims.lookup "scope").bind Json.asArray with
  | none => []
  | some items => items.filterMap Json.asString

/-- `claims[name].(string)` with the zero value for a failed assertion. -/
def stringClaim (claims : Json.Members) (name : String) : String :=
  ((claims.lookup name).bind Json.asString).getD ""

/-- `int64(f)`: truncation towards zero. -/
def truncate (q : Rat) : Int := if 0 ≤ q then q.floor else q.ceil

/-- `extractClaims`. -/
def extractClaims (v : TokenValidator) (claims : Json.Members) (expectedSessionID : String) :
    Except SessionError TokenClaims :=
  if (claims.lookup "aud").bind Json.asString ≠ some v.robotID then .error .invalidAudience
  else if (claims.lookup "sid").bind Json.asString ≠ some expectedSessionID then
    .error .sessionMismatch
  else
    .ok {
      jti := stringClaim claims "jti"
      sessionID := expectedSessionID
      subject := stringClaim claims "sub"
      scope := extractScope claims
      nonce := stringClaim claims "nonce"
      expiresAt :=
        match (claims.lookup "exp").bind Json.asNumber with
        | some exp => truncate exp * second
        | none => zeroTime }

/-- `Validate`. -/
def validate (v : TokenValidator) (parse : JwtParse) (now : Time)
    (tokenString expectedSessionID : String) : Except SessionError TokenClaims :=
  if tokenString = "" then .error .invalidToken
  else
    match parse tokenString v.keyFunc v.clockSkew now with
    | .error err => .error (mapError err)
    | .ok token =>
      if !token.valid then .error .invalidSignature
      else v.extractClaims token.claims expectedSessionID

/-- Accepted claims are bound to the expected session. -/
theorem validate_sessionID {v : TokenValidator} {parse : JwtParse} {now : Time}
    {tok sid : String} {claims : TokenClaims}
    (h : v.validate parse now tok sid = .ok claims) : claims.sessionID = sid := by
  unfold validate at h
  split at h
  · cases h
  · split at h
    · cases h
    · split at h
      · cases h
      · unfold extractClaims at h
        split at h
        · cases h
        · split at h
          · cases h
          · cases h
            rfl

end TokenValidator

/-- `cachedToken`, with the map key it is stored under. -/
structure CachedToken where
  key : String
  claims : TokenClaims
  validFor : String
  cachedAt : Time
  deriving DecidableEq, Repr

/-- `TokenCache`. -/
structure TokenCache where
  cache : List CachedToken
  ttl : Duration
  deriving DecidableEq, Repr

namespace TokenCache

/-- `DefaultCacheTTL`. -/
def defaultTTL : Duration := 30 * second

/-- `NewTokenCache`. -/
def new (ttl : Duration) : TokenCache :=
  { cache := [], ttl := if ttl ≤ 0 then defaultTTL else ttl }

/-- `Set`. -/
def set (c : TokenCache) (now : Time) (jti sessionID : String) (claims : TokenClaims) :
    TokenCache :=
  { c with
    cache := ⟨jti, claims, sessionID, now⟩ :: c.cache.filter fun e => e.key ≠ jti }

/-- `Get`. -/
def get (c : TokenCache) (now : Time) (jti sessionID : String) : Option TokenClaims :=
  match c.cache.find? fun e => e.key = jti with
  | none => none
  | some entry =>
    if entry.validFor ≠ sessionID then none
    else if sub now entry.cachedAt > c.ttl then none
    else if now > entry.claims.expiresAt then none
    else some entry.claims

/-- `InvalidateSession`. -/
def invalidateSession (c : TokenCache) (sessionID : String) : TokenCache :=
  { c with cache := c.cache.filter fun e => e.validFor ≠ sessionID }

/-- A hit is an entry of the cache for the token and the session asked for. -/
theorem mem_of_get {c : TokenCache} {now : Time} {jti sid : String} {claims : TokenClaims}
    (h : c.get now jti sid = some claims) :
    ∃ e ∈ c.cache, e.key = jti ∧ e.validFor = sid ∧ e.claims = claims := by
  unfold get at h
  split at h
  · cases h
  next entry hfind =>
    split at h
    · cases h
    next hvalid =>
      split at h
      · cases h
      · split at h
        · cases h
        · cases h
          have hkey : entry.key = jti := by simpa using List.find?_some hfind
          exact ⟨entry, List.mem_of_find?_eq_some hfind, hkey, Decidable.not_not.mp hvalid, rfl⟩

end TokenCache

end ChainKVM.Robot
