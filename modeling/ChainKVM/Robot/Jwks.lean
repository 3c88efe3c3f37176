import ChainKVM.Lib.OrdMap
import ChainKVM.Robot.Token

/-!
# The gateway's keys: `internal/session/jwks.go`

The fetcher keeps the Ed25519 keys of the last key set by their ids. What a
fetch returns is an argument, and so is the base64 decoder. Nobody asks when
the last fetch was, so that is left out.
-/

namespace ChainKVM.Robot

/-- `jwkKey`. -/
structure JwkKey where
  kty : String
  crv : String
  kid : String
  x : String
  use : String
  deriving DecidableEq, Repr

/-- The errors of a fetch. -/
inductive JwksError where
  | keyNotFound
  | fetchFailed
  | invalidJWKS
  deriving DecidableEq, Repr

/-- What `Refresh` gets from the server: the keys of the response, if it is
one. -/
abbrev JwksResponse := Except JwksError (List JwkKey)

/-- `JWKSFetcher`. -/
structure JWKSFetcher where
  cache : OrdMap String (List UInt8)

namespace JWKSFetcher

/-- `NewJWKSFetcher`. -/
def new : JWKSFetcher := ⟨OrdMap.empty⟩

variable (decodeString : String → Option (List UInt8))

/-- The loop of `updateCache`: a key that is no Ed25519 key of 32 bytes is
skipped. -/
def addKey (cache : OrdMap String (List UInt8)) (key : JwkKey) : OrdMap String (List UInt8) :=
  if key.kty ≠ "OKP" ∨ key.crv ≠ "Ed25519" then cache
  else
    match decodeString key.x with
    | none => cache
    | some pub => if pub.length ≠ 32 then cache else cache.set key.kid pub

/-- `updateCache`. -/
def updateCache (keys : List JwkKey) : JWKSFetcher :=
  ⟨keys.foldl (addKey decodeString) OrdMap.empty⟩

/-- `Refresh`. -/
def refresh (f : JWKSFetcher) (response : JwksResponse) : Except JwksError Unit × JWKSFetcher :=
  match response with
  | .error err => (.error err, f)
  | .ok keys => (.ok (), updateCache decodeString keys)

/-- `GetPublicKey`: a key that is not there is looked for in a new key set. -/
def getPublicKey (f : JWKSFetcher) (kid : String) (response : JwksResponse) :
    Except JwksError (List UInt8) × JWKSFetcher :=
  match f.cache.get kid with
  | some key => (.ok key, f)
  | none =>
    match f.refresh decodeString response with
    | (.error err, f) => (.error err, f)
    | (.ok (), f) =>
      match f.cache.get kid with
      | some key => (.ok key, f)
      | none => (.error .keyNotFound, f)

end JWKSFetcher

/-- `initTokenValidator`, by the responses to its two fetches. -/
def initTokenValidator (decodeString : String → Option (List UInt8)) (robotID : String)
    (first second : JwksResponse) : Option TokenValidator :=
  let fetched := (JWKSFetcher.new.refresh decodeString first).2
  match (fetched.getPublicKey decodeString "gateway-signing-key" second).1 with
  | .error _ => none
  | .ok pub => some ⟨pub, robotID, 30 * Robot.second⟩

end ChainKVM.Robot
