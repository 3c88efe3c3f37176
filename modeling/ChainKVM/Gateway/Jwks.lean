import ChainKVM.Gateway.Tokens
import ChainKVM.Lib.Json

/-!
# Keys and signed tokens: `key-manager.ts`, `jwks.ts` and `token-generator.ts`

The key manager holds the key that signs the tokens and publishes its public
half under its id. A token is what the `jose` library makes of the claims and
a header with the same id.
-/

namespace ChainKVM.Gateway

open Js (Val)

/-! ## Keys -/

/-- The members of a published key. -/
structure JWK where
  kty : String
  crv : String
  x : String
  kid : String
  use : String
  alg : String
  deriving DecidableEq, Repr

/-- A `KeyManager` over the key pairs of a library. -/
structure KeyManager (SigningKey : Type) where
  signingKey : SigningKey
  keyId : String

/-- `createDevKeyManager`, given the key pair it generates. -/
def createDevKeyManager {SigningKey : Type} (signingKey : SigningKey) : KeyManager SigningKey :=
  ⟨signingKey, "dev-key-1"⟩

/-- `getPublicJwk`; `x` is what `exportJWK` says of the key. -/
def KeyManager.getPublicJwk {SigningKey : Type} (m : KeyManager SigningKey)
    (x : SigningKey → String) : JWK :=
  ⟨"OKP", "Ed25519", x m.signingKey, m.keyId, "sig", "EdDSA"⟩

/-- `FALLBACK_KEY`. -/
def fallbackKey : JWK :=
  ⟨"OKP", "Ed25519", "o5Uq1iJNqJ6pVvKwrI5TQHtT5rF_0mKE6t6J9dQj_qQ", "dev-key-1", "sig", "EdDSA"⟩

/-- `buildJWKS`: the keys of the response. -/
def buildJWKS {SigningKey : Type} (activeKeyManager : Option (KeyManager SigningKey))
    (x : SigningKey → String) : List JWK :=
  match activeKeyManager with
  | some m => [m.getPublicJwk x]
  | none => [fallbackKey]

/-! ## Tokens -/

/-- The header and the payload that `generate` hands to `sign`. -/
structure SignedToken where
  kid : String
  payload : Json.Members

/-- The payload that `SignJWT` is given: a member that is `undefined` is left
out. -/
def CapabilityTokenClaims.payload (claims : CapabilityTokenClaims) : Json.Members :=
  Js.membersToJson [("sub", claims.sub), ("aud", claims.aud), ("sid", .str claims.sid),
    ("scope", claims.scope), ("nonce", .str claims.nonce), ("iat", .num (.fin claims.iat)),
    ("exp", .num (.fin claims.exp)), ("jti", .str claims.jti)]

/-- `createTokenGenerator` and `generate`: what is signed. -/
def signedToken (keyId : String) (claims : CapabilityTokenClaims) : SignedToken :=
  ⟨keyId, claims.payload⟩

end ChainKVM.Gateway
