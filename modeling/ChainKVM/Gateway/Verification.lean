import ChainKVM.Gateway.KeyBytes

/-!
# What a verification throws

`verify` documents one error, `VCVerificationError`. Of its steps only the first
and the last catch what a library throws: `extractIssuer` wraps the failure to
decode the JWT and `verifyJwtSignature` those of `jwtVerify`. In between, the
protected header is decoded and the key imported without a `try`; and an error
is itself made with a template or a date, which throw for some values.

`Unhandled` lists the JWTs for which something else escapes, over the `did:key`
resolver, one constructor for each place. `verify_escapes_iff` goes through the
steps in their order. The key of a canonical DID is imported for one of the two
supported algorithms only (`import_fails_iff`), so that a header with the other
is enough.
-/

namespace ChainKVM.Gateway

open Js (Val)
open DidKey (multiformats resolver parseDIDKey)

/-! ## Steps that let an error escape -/

theorem bind_eq_error_iff {ε α β : Type} {x : Except ε α} {f : α → Except ε β} {e : ε} :
    (x >>= f) = .error e ↔ x = .error e ∨ ∃ a, x = .ok a ∧ f a = .error e := by
  cases x with
  | error e' =>
    constructor
    · intro h
      cases h
      exact .inl rfl
    · intro h
      rcases h with h | ⟨a, ha, -⟩
      · cases h
        rfl
      · cases ha
  | ok a =>
    constructor
    · intro h
      exact .inr ⟨a, rfl, h⟩
    · intro h
      rcases h with h | ⟨b, hb, h⟩
      · cases h
      · cases hb
        exact h

theorem quoting_escapes_iff {v : Val} {err : Val → VCVerificationError} :
    quoting v err = .escaped ↔ v.converts = false := by
  unfold quoting
  cases v.converts <;> simp

theorem extractIssuer_ne_escaped (jose : Jose) (jwtVc : String) :
    extractIssuer jose jwtVc ≠ .error .escaped := by
  unfold extractIssuer
  cases jose.decodeJwt jwtVc <;> simp

theorem validateIssuerTrust_escapes_iff {trustedIssuers : List String} {issuer : Val} :
    validateIssuerTrust trustedIssuers issuer = .error .escaped ↔ issuer.converts = false := by
  cases issuer with
  | str did =>
    -- a string always has a text
    have hconverts : (Val.str did).converts = true := rfl
    simp only [validateIssuerTrust, ite_eq_iff, reduceCtorEq, and_false, false_or,
      Except.error.injEq, quoting_escapes_iff, hconverts]
  | _ => simp only [validateIssuerTrust, Except.error.injEq, quoting_escapes_iff]

theorem resolveVerificationMethod_ne_escaped (didResolver : String → DIDResolutionResult)
    (issuer : String) : resolveVerificationMethod didResolver issuer ≠ .error .escaped := by
  unfold resolveVerificationMethod
  split <;> simp

theorem protectedHeader_escapes_iff {jose : Jose} {jwtVc : String} :
    protectedHeader jose jwtVc = .error .escaped ↔ jose.decodeProtectedHeader jwtVc = none := by
  unfold protectedHeader
  cases jose.decodeProtectedHeader jwtVc <;> simp

theorem validateAlgorithm_escapes_iff {header : Claims} :
    validateAlgorithm header = .error .escaped ↔ (header.get "alg").converts = false := by
  unfold validateAlgorithm
  split
  next alg halg =>
    have hconverts : (Val.str alg).converts = true := rfl
    simp only [halg, ite_eq_iff, reduceCtorEq, and_false, false_or, Except.error.injEq,
      quoting_escapes_iff, hconverts]
  next alg hnot => rw [Except.error.injEq, quoting_escapes_iff]

/-- The decoding of the key and its import are not in a `try`. -/
theorem multibaseToKey_escapes_iff {jose : Jose} {publicKeyMultibase algorithm : String} :
    multibaseToKey jose publicKeyMultibase algorithm = .error .escaped ↔
      jose.base58btc publicKeyMultibase = none ∨
        ∃ decoded jwk, jose.base58btc publicKeyMultibase = some decoded ∧
          jwkOf jose decoded algorithm = some jwk ∧ jose.importJWK jwk algorithm = none := by
  unfold multibaseToKey
  cases hdecode : jose.base58btc publicKeyMultibase with
  | none => simp
  | some decoded =>
    cases hjwk : jwkOf jose decoded algorithm with
    | none => simp [hjwk]
    | some jwk => cases himport : jose.importJWK jwk algorithm <;> simp [hjwk, himport]

/-- The time that the error for a failed claim is made of is no valid date. -/
def UnreadableTime (jose : Jose) (now : Int) (jwtVc : String) (key : jose.Key)
    (clockSkewMs : Int) : Prop :=
  let outcome := jose.jwtVerify now jwtVc key supportedAlgorithms (clockTolerance clockSkewMs)
  outcome = .expired ∧ Js.dateOfSeconds (decodedClaim jose jwtVc "exp") = none ∨
    outcome = .claimValidationFailed ∧ (decodedClaim jose jwtVc "nbf").truthy = true ∧
      Js.dateOfSeconds (decodedClaim jose jwtVc "nbf") = none

theorem verifyJwtSignature_escapes_iff {jose : Jose} {now : Int} {jwtVc : String} {key : jose.Key}
    {clockSkewMs : Int} :
    verifyJwtSignature jose now jwtVc key clockSkewMs = .error .escaped ↔
      UnreadableTime jose now jwtVc key clockSkewMs := by
  unfold verifyJwtSignature UnreadableTime
  cases jose.jwtVerify now jwtVc key supportedAlgorithms (clockTolerance clockSkewMs) with
  | ok payload => simp
  | expired => cases Js.dateOfSeconds (decodedClaim jose jwtVc "exp") <;> simp
  | claimValidationFailed =>
    cases (decodedClaim jose jwtVc "nbf").truthy with
    | false => simp
    | true => cases Js.dateOfSeconds (decodedClaim jose jwtVc "nbf") <;> simp
  | failed => simp

/-! ## The JWTs that are not handled -/

section

variable (jose : Jose) (varint : List UInt8 → Option (Js.Num × Nat)) (trustedIssuers : List String)

/-- The issuer is trusted, and its DID parses. -/
def FromTrusted (jwtVc : String) (parsed : DidKey.ParsedDIDKey) : Prop :=
  ∃ payload did, jose.decodeJwt jwtVc = some payload ∧ payload.get "iss" = .str did ∧
    did ∈ trustedIssuers ∧ parseDIDKey (multiformats jose varint) did = .ok parsed

/-- The key that the verifier imports. -/
def Selects (jwtVc : String) (jwk : Jwk) (algorithm : String) : Prop :=
  ∃ parsed header decoded, FromTrusted jose varint trustedIssuers jwtVc parsed ∧
    jose.decodeProtectedHeader jwtVc = some header ∧ header.get "alg" = .str algorithm ∧
    algorithm ∈ supportedAlgorithms ∧ jose.base58btc parsed.identifier = some decoded ∧
    jwkOf jose decoded algorithm = some jwk

/-- The JWTs for which an error of a library escapes. -/
inductive Unhandled (clockSkewMs now : Int) (jwtVc : String) : Prop where
  | issuer {payload : Claims} (hdecode : jose.decodeJwt jwtVc = some payload)
    (htext : (payload.get "iss").converts = false)
  | header {parsed : DidKey.ParsedDIDKey}
    (hissuer : FromTrusted jose varint trustedIssuers jwtVc parsed)
    (hheader : jose.decodeProtectedHeader jwtVc = none)
  | algorithm {parsed : DidKey.ParsedDIDKey} {header : Claims}
    (hissuer : FromTrusted jose varint trustedIssuers jwtVc parsed)
    (hheader : jose.decodeProtectedHeader jwtVc = some header)
    (htext : (header.get "alg").converts = false)
  | key {jwk : Jwk} {algorithm : String}
    (hselects : Selects jose varint trustedIssuers jwtVc jwk algorithm)
    (himport : jose.importJWK jwk algorithm = none)
  | time {jwk : Jwk} {algorithm : String} {key : jose.Key}
    (hselects : Selects jose varint trustedIssuers jwtVc jwk algorithm)
    (himport : jose.importJWK jwk algorithm = some key)
    (htime : UnreadableTime jose now jwtVc key clockSkewMs)

/-- The verifier over the `did:key` resolver. -/
def didKeyOptions (clockSkewMs : Int) (duration : Rat) : JwtVcVerifierOptions :=
  ⟨trustedIssuers, clockSkewMs, resolver jose varint duration⟩

end

section

variable {jose : Jose} {varint : List UInt8 → Option (Js.Num × Nat)}
  {trustedIssuers : List String} {clockSkewMs now : Int} {duration : Rat} {jwtVc : String}

theorem resolver_method_iff {did : String} {method : VerificationMethod} :
    resolveVerificationMethod (resolver jose varint duration) did = .ok method ↔
      ∃ parsed, parseDIDKey (multiformats jose varint) did = .ok parsed ∧
        method = ⟨parsed.identifier⟩ := by
  cases hparse : parseDIDKey (multiformats jose varint) did with
  | ok parsed =>
    rw [DidKey.resolveVerificationMethod_of_parse hparse duration, Except.ok.injEq]
    constructor
    · intro h
      exact ⟨parsed, rfl, h.symm⟩
    · intro ⟨parsed', hparsed, hmethod⟩
      cases hparsed
      exact hmethod.symm
  | error err =>
    have hnone : (resolver jose varint duration did).didDocument = none := by
      unfold resolver DidKey.resolveDIDKey
      rw [hparse]
      rfl
    rw [resolveVerificationMethod_ok, hnone]
    simp

/-- An identifier that was parsed decodes. -/
theorem decodes_of_parse {did : String} {parsed : DidKey.ParsedDIDKey}
    (h : parseDIDKey (multiformats jose varint) did = .ok parsed) :
    ∃ decoded, jose.base58btc parsed.identifier = some decoded := by
  obtain ⟨identifier, decoded, _, _, _, hdecode, _, _, _, hparsed⟩ := DidKey.parse_ok_iff.mp h
  rw [hparsed]
  exact ⟨decoded, hdecode⟩

/-- An error of a library escapes from the verification for the unhandled JWTs,
and for no others. -/
theorem verify_escapes_iff :
    verify jose (didKeyOptions jose varint trustedIssuers clockSkewMs duration) now jwtVc =
        .error .escaped ↔
      Unhandled jose varint trustedIssuers clockSkewMs now jwtVc := by
  have hvc (payload : Claims) :
      (if !(payload.get "vc").truthy then Except.error (VerifyError.vc .missingVcClaim)
        else Except.ok (buildResult payload)) ≠ .error .escaped := by
    cases (payload.get "vc").truthy <;> simp
  unfold verify didKeyOptions
  simp only [bind_eq_error_iff, extractIssuer_ne_escaped, validateIssuerTrust_escapes_iff,
    resolveVerificationMethod_ne_escaped, protectedHeader_escapes_iff,
    validateAlgorithm_escapes_iff, multibaseToKey_escapes_iff, verifyJwtSignature_escapes_iff, hvc,
    extractIssuer_ok, validateIssuerTrust_ok, resolver_method_iff, protectedHeader_ok,
    validateAlgorithm_ok, multibaseToKey_ok, false_or, and_false, exists_false, or_false]
  constructor
  · intro ⟨_, ⟨payload, hdecode, rfl⟩, h⟩
    rcases h with htext | ⟨did, ⟨hiss, htrust⟩, _, ⟨parsed, hparse, rfl⟩, h⟩
    · exact .issuer hdecode htext
    have hissuer : FromTrusted jose varint trustedIssuers jwtVc parsed :=
      ⟨payload, did, hdecode, hiss, htrust, hparse⟩
    rcases h with hheader | ⟨header, hheader, htext | ⟨algorithm, ⟨halg, hsup⟩, h⟩⟩
    · exact .header hissuer hheader
    · exact .algorithm hissuer hheader htext
    rcases h with (hnone | ⟨decoded, jwk, hbytes, hjwk, himport⟩) |
      ⟨key, ⟨decoded, jwk, hbytes, hjwk, himport⟩, htime⟩
    · -- the identifier was decoded once before
      obtain ⟨decoded, hbytes⟩ := decodes_of_parse hparse
      rw [hbytes] at hnone
      cases hnone
    · exact .key ⟨parsed, header, decoded, hissuer, hheader, halg, hsup, hbytes, hjwk⟩ himport
    · exact .time ⟨parsed, header, decoded, hissuer, hheader, halg, hsup, hbytes, hjwk⟩ himport htime
  · intro h
    cases h with
    | issuer hdecode htext => exact ⟨_, ⟨_, hdecode, rfl⟩, .inl htext⟩
    | header hissuer hheader =>
      obtain ⟨payload, did, hdecode, hiss, htrust, hparse⟩ := hissuer
      exact ⟨_, ⟨payload, hdecode, rfl⟩, .inr ⟨did, ⟨hiss, htrust⟩, _, ⟨_, hparse, rfl⟩,
        .inl hheader⟩⟩
    | algorithm hissuer hheader htext =>
      obtain ⟨payload, did, hdecode, hiss, htrust, hparse⟩ := hissuer
      exact ⟨_, ⟨payload, hdecode, rfl⟩, .inr ⟨did, ⟨hiss, htrust⟩, _, ⟨_, hparse, rfl⟩,
        .inr ⟨_, hheader, .inl htext⟩⟩⟩
    | key hselects himport =>
      obtain ⟨parsed, header, decoded, ⟨payload, did, hdecode, hiss, htrust, hparse⟩, hheader, halg,
        hsup, hbytes, hjwk⟩ := hselects
      exact ⟨_, ⟨payload, hdecode, rfl⟩, .inr ⟨did, ⟨hiss, htrust⟩, _, ⟨_, hparse, rfl⟩,
        .inr ⟨_, hheader, .inr ⟨_, ⟨halg, hsup⟩, .inl (.inr ⟨_, _, hbytes, hjwk, himport⟩)⟩⟩⟩⟩
    | time hselects himport htime =>
      obtain ⟨parsed, header, decoded, ⟨payload, did, hdecode, hiss, htrust, hparse⟩, hheader, halg,
        hsup, hbytes, hjwk⟩ := hselects
      exact ⟨_, ⟨payload, hdecode, rfl⟩, .inr ⟨did, ⟨hiss, htrust⟩, _, ⟨_, hparse, rfl⟩,
        .inr ⟨_, hheader, .inr ⟨_, ⟨halg, hsup⟩, .inr ⟨_, ⟨_, _, hbytes, hjwk, himport⟩, htime⟩⟩⟩⟩⟩

/-- The verification resolves, or rejects with an error of its own, iff the JWT
is none of these. -/
theorem verify_handles_iff :
    ((∃ result, verify jose (didKeyOptions jose varint trustedIssuers clockSkewMs duration) now
          jwtVc = .ok result) ∨
        ∃ err, verify jose (didKeyOptions jose varint trustedIssuers clockSkewMs duration) now
          jwtVc = .error (.vc err)) ↔
      ¬Unhandled jose varint trustedIssuers clockSkewMs now jwtVc := by
  rw [← verify_escapes_iff]
  cases verify jose (didKeyOptions jose varint trustedIssuers clockSkewMs duration) now jwtVc with
  | ok result => simp
  | error err => cases err <;> simp

end

/-! ## Keys of canonical DIDs -/

/-- What is documented of `importJWK`: an Ed25519 key is 32 bytes, and so is
each coordinate of a P-256 key. -/
structure ImportsKeys (jose : Jose) : Prop where
  ed25519 : ∀ x, (jose.importJWK ⟨"OKP", "Ed25519", jose.base64url x, none⟩ "EdDSA").isSome = true ↔
    x.length = 32
  p256 : ∀ x y, y.length ≠ 32 →
    jose.importJWK ⟨"EC", "P-256", jose.base64url x, some (jose.base64url y)⟩ "ES256" = none

/-- Of a trusted issuer with an Ed25519 key, whose DID is not padded, the key is
not imported exactly for the other supported algorithm. -/
theorem import_fails_iff {jose : Jose} {varint : List UInt8 → Option (Js.Num × Nat)}
    {longest : Nat} (hlib : DidKey.Published (multiformats jose varint) longest)
    (himports : ImportsKeys jose) {trustedIssuers : List String}
    (hcanonical : ∀ did ∈ trustedIssuers, ¬DidKey.Padded longest did) {jwtVc : String} {jwk : Jwk}
    {algorithm : String} (hselects : Selects jose varint trustedIssuers jwtVc jwk algorithm) :
    jose.importJWK jwk algorithm = none ↔ algorithm = "ES256" := by
  obtain ⟨parsed, header, decoded, ⟨payload, did, -, -, htrust, hparse⟩, -, -, hsup, hbytes,
    hjwk⟩ := hselects
  obtain ⟨hlength, -, hidentifier⟩ :=
    DidKey.parse_eq_of_not_padded hlib (hcanonical did htrust) hparse
  have hdecoded : decoded.drop 2 = parsed.publicKey := by
    have hraw := DidKey.rawKeyOf_encode hlib (237 :: 1 :: parsed.publicKey)
    unfold DidKey.rawKeyOf at hraw
    rw [← hidentifier, hbytes, Option.map_some] at hraw
    exact Option.some.inj hraw
  unfold jwkOf at hjwk
  rw [hdecoded] at hjwk
  rcases List.mem_pair.mp hsup with halg | halg
  · rw [halg] at hjwk ⊢
    cases hjwk
    have hsome := (himports.ed25519 parsed.publicKey).mpr hlength
    constructor
    · intro hnone
      rw [hnone] at hsome
      cases hsome
    · intro h
      exact absurd h (by decide)
  · rw [halg] at hjwk ⊢
    cases hjwk
    refine iff_of_true (himports.p256 _ _ ?_) rfl
    -- nothing is left for the second coordinate
    have hle : parsed.publicKey.length ≤ 32 := Nat.le_of_eq hlength
    have hempty : (parsed.publicKey.drop 32).take 32 = [] := by
      rw [List.drop_of_length_le hle, List.take_nil]
    rw [hempty]
    decide

/-! ## A header with the other algorithm -/

namespace Sample

/-- The payload of the credential after the header `{"alg":"ES256"}`. -/
def es256 : String :=
  "eyJhbGciOiJFUzI1NiJ9." ++
  "eyJpc3MiOiJkaWQ6a2V5Ono2TWt1a1l0aVVzWWs2N0pVUENITnJGZTY1amtYaXBSYkNIazJrclluMmZnZjlIcSIs" ++
  "InN1YiI6ImRpZDprZXk6ejZNa3N3ZHpSdXdCcEtvR1VMMllQcmU0V2ZiVEE4ZkdEVm1OUHFYV3pvWnFYZjhKIiwi" ++
  "dmMiOnsiY3JlZGVudGlhbFN1YmplY3QiOnsicm9sZSI6Im9wZXJhdG9yIn19LCJleHAiOjQxMDI0NDQ4MDB9.AA"

/-- The one text of this deployment. A P-256 key without its second coordinate
is not imported. -/
def es256Jose : Jose :=
  { decoding with
    decodeJwt := fun _ => some payload
    decodeProtectedHeader := fun _ => some [("alg", .str "ES256")]
    importJWK := fun jwk algorithm =>
      if jwk.kty = "EC" ∧ jwk.y = some "" then none else jose.importJWK jwk algorithm }

theorem parse_issuer : parseDIDKey (multiformats es256Jose readVarint) issuer =
    .ok ⟨issuer, "key", issuerKey, DidKey.ed25519Codec, rawKey⟩ := by
  refine DidKey.parse_ok_iff.mpr ⟨issuerKey, keyBytes, 2, rfl, rfl, base58_issuerKey, by decide,
    by decide +kernel, rfl, rfl⟩

/-- The key of the issuer as one on P-256. -/
def es256Jwk : Jwk := ⟨"EC", "P-256", "4006AbYRLhQp6tYWaEBfTvS-T4hTq-5QedKKxsE__dA", some ""⟩

theorem es256_selects : Selects es256Jose readVarint [issuer] es256 es256Jwk "ES256" := by
  have hissuer : FromTrusted es256Jose readVarint [issuer] es256
      ⟨issuer, "key", issuerKey, DidKey.ed25519Codec, rawKey⟩ :=
    ⟨payload, issuer, rfl, rfl, List.mem_singleton_self issuer, parse_issuer⟩
  have hjwk : jwkOf es256Jose keyBytes "ES256" = some es256Jwk := by decide +kernel
  exact ⟨_, _, keyBytes, hissuer, rfl, rfl, by decide, base58_issuerKey, hjwk⟩

theorem es256_import : es256Jose.importJWK es256Jwk "ES256" = none := rfl

end Sample

open Sample in
/-- Anybody can write the trusted issuer's name under a header of their own. -/
theorem verify_handles_fails :
    ¬((∃ result, verify es256Jose (didKeyOptions es256Jose readVarint [issuer] 60000 1) now es256 =
          .ok result) ∨
        ∃ err, verify es256Jose (didKeyOptions es256Jose readVarint [issuer] 60000 1) now es256 =
          .error (.vc err)) := by
  intro h
  exact verify_handles_iff.mp h (.key es256_selects es256_import)

end ChainKVM.Gateway
