import ChainKVM.Lib.Js
import ChainKVM.Lib.OrdMap

/-!
# Credentials: `credentials/`

Two ways of reading a JWT-encoded credential. `extractCredentialForPolicy`
decodes it and takes what the payload says; `verify` (the verifier that
`createJwtVcVerifier` makes) also asks whether the issuer is trusted, resolves
its DID to a key and checks signature and times. They are separate code: the
verifier does not use the extractor, and the extractor calls no verifier.

The libraries `jose` and `multiformats` are parameters (`Jose`), as is the DID
resolver, which the verifier gets from its caller. `verify_isOk_iff` says when
the verifier accepts.
-/

namespace ChainKVM.Gateway

open Js (Val)

/-! ## The libraries -/

/-- The claims of a JWT payload or header, as `JSON.parse` returns them. -/
abbrev Claims := List (String × Val)

/-- `payload[name]`, where no prototype has the name. -/
def Claims.get (payload : Claims) (name : String) : Val := (payload.lookup name).getD .undefined

/-- A public key in the form `importJWK` takes. -/
structure Jwk where
  kty : String
  crv : String
  x : String
  y : Option String
  deriving DecidableEq, Repr

/-- How `jwtVerify` ends: with the payload, or with one of the errors its
callers tell apart. -/
inductive JwtVerify where
  | ok (payload : Claims)
  | expired
  | claimValidationFailed
  | failed

/-- What the code uses of `jose` and `multiformats`. `none` is an exception. -/
structure Jose where
  /-- An imported public key. -/
  Key : Type
  decodeJwt : String → Option Claims
  decodeProtectedHeader : String → Option Claims
  base64url : List UInt8 → String
  importJWK : Jwk → String → Option Key
  /-- At a time in ms: the text, the key, the algorithms and the clock
  tolerance in s. -/
  jwtVerify : Int → String → Key → List String → Int → JwtVerify
  base58btc : String → Option (List UInt8)

/-! ## Extraction -/

/-- `EvaluationCredential`: its own properties and its prototype, which is
`Object.prototype` unless the credential brought a `__proto__`. -/
structure EvaluationCredential where
  own : OrdMap String Val
  prototype : Val

namespace EvaluationCredential

/-- `credential[name]`, for a name other than `__proto__`. -/
def get (c : EvaluationCredential) (name : String) : Val :=
  ((c.own.get name).or (c.prototype.find name)).getD .undefined

/-- `credential[key] = value`. Assigning to `__proto__` changes the prototype
if the value can be one. -/
def assign (c : EvaluationCredential) (key : String) (value : Val) : EvaluationCredential :=
  if key = "__proto__" then
    match value with
    | .obj _ => { c with prototype := value }
    | .arr _ => { c with prototype := value }
    | .null => { c with prototype := value }
    | _ => c
  else { c with own := c.own.set key value }

/-- What an object gives to one that has it as its prototype. Without a
prototype the names of `Object.prototype` read as nothing. (What `join` makes
of an object below an array is left out.) -/
def lent : Val → List (String × Val)
  | .obj members => members ++ [("__proto__", .obj members)]
  | .arr items =>
    items.mapIdx (fun n v => (toString n, v)) ++
      ("length", .num (.fin (items.length : Rat))) :: ("__proto__", .arr items) ::
        (Js.Proto.functions .array).filterMap fun f =>
          if f.1 = "toString" then none else some (f.1, .func f.2)
  | .null =>
    ("__proto__", .undefined) :: (Js.Proto.functions .object).map fun f => (f.1, .undefined)
  | _ => []

/-- The credential as a value: with what it inherits as its own. -/
def toVal (c : EvaluationCredential) : Val := .obj (c.own.entries ++ lent c.prototype)

/-- No prototype object has the name. -/
def Plain (name : String) : Prop := name ≠ "__proto__" ∧ (∀ n : Nat, toString n ≠ name) ∧
  ∀ p : Js.Proto, p.own name = none

theorem Plain.functions {name : String} (h : Plain name) (p : Js.Proto) :
    ∀ f ∈ p.functions, name ≠ f.1 := by
  have hown := h.2.2 p
  unfold Js.Proto.own at hown
  split at hown
  · cases hown
  · simpa using List.lookup_eq_none_iff.mp (Option.map_eq_none_iff.mp hown)

theorem Plain.ne_length {name : String} (h : Plain name) : name ≠ "length" := by
  rintro rfl
  exact absurd (h.2.2 .array) (by simp [Js.Proto.own])

theorem Plain.inherited {name : String} (h : Plain name) (p : Js.Proto) :
    p.inherited name = none := by
  unfold Js.Proto.inherited
  rw [h.2.2, h.2.2]
  rfl

theorem Plain.find_arr {name : String} (h : Plain name) (items : List Val) :
    (Val.arr items).find name = none := by
  have hitem : Js.item items name = none := by
    unfold Js.item
    split
    · exact if_neg (h.2.1 _)
    · rfl
  show (if name = "length" then _ else (Js.item items name).or _) = _
  rw [if_neg h.ne_length, hitem, h.inherited]
  rfl

/-- A name that is none of the keys is not found. -/
theorem lookup_eq_none_of_ne {name : String} {es : List (String × Val)}
    (h : ∀ e ∈ es, name ≠ e.1) : es.lookup name = none := by
  rw [List.lookup_eq_none_iff]
  intro e he
  rw [bne_iff_ne]
  exact h e he

/-- What is lent under a plain name is what the prototype has there. -/
theorem lookup_lent {name : String} (h : Plain name) (prototype : Val) :
    (lent prototype).lookup name = prototype.find name := by
  have hproto := h.1
  cases prototype with
  | obj members =>
    show (members ++ _).lookup name = (members.lookup name).or (Js.Proto.own .object name)
    rw [List.lookup_append, h.2.2]
    congr 1
    simpa using hproto
  | arr items =>
    rw [h.find_arr]
    refine lookup_eq_none_of_ne fun e he => ?_
    unfold lent at he
    rw [List.mem_append, List.mem_cons, List.mem_cons, List.mem_filterMap] at he
    rcases he with he | rfl | rfl | ⟨f, hf, he⟩
    · -- the name is no index
      obtain ⟨n, hn, rfl⟩ := List.mem_mapIdx.mp he
      exact (h.2.1 n).symm
    · exact h.ne_length
    · exact hproto
    · have hne := h.functions .array f hf
      split at he
      · cases he
      · cases he
        exact hne
  | null =>
    refine lookup_eq_none_of_ne fun e he => ?_
    unfold lent at he
    rw [List.mem_cons, List.mem_map] at he
    rcases he with rfl | ⟨f, hf, rfl⟩
    · exact hproto
    · exact h.functions .object f hf
  | date t => exact (h.inherited .date).symm
  | proto p => exact (h.inherited p).symm
  | _ => rfl

/-- Reading a plain name off the value reads it off the credential. -/
theorem toVal_get {name : String} (h : Plain name) (c : EvaluationCredential) :
    c.toVal.get name = c.get name := by
  have hfind : c.toVal.find name = (c.own.get name).or (c.prototype.find name) := by
    show (List.lookup name (c.own.entries ++ lent c.prototype)).or _ = _
    rw [List.lookup_append, OrdMap.lookup_entries, lookup_lent h, h.2.2, Option.or_none]
  unfold Val.get get
  rw [hfind]
  cases (c.own.get name).or (c.prototype.find name) with
  | none => exact if_neg h.1
  | some v => rfl

end EvaluationCredential

/-- `buildEvaluationCredential`. -/
def buildEvaluationCredential (issuer subject credentialSubject : Val) : EvaluationCredential :=
  let base : EvaluationCredential :=
    ⟨(OrdMap.empty.set "issuer" issuer).set "subject" subject, .proto .object⟩
  let withRole :=
    match credentialSubject.member "role" with
    | .str role => base.assign "role" (.str role)
    | _ => base
  credentialSubject.entries.foldl (fun c e =>
    if e.1 ≠ "id" ∧ e.1 ≠ "role" then c.assign e.1 e.2 else c) withRole

/-- `payload.vc.credentialSubject || {}`. -/
def credentialSubjectOf (payload : Claims) : Val :=
  ((payload.get "vc").member "credentialSubject").or (.obj [])

/-- `payload.sub || credentialSubject.id`: whom the credential is about. -/
def subjectOf (payload : Claims) : Val :=
  (payload.get "sub").or ((credentialSubjectOf payload).member "id")

/-- `extractCredentialForPolicy`: the credential, or the message of the
`CredentialExtractionError`. -/
def extractCredentialForPolicy (jose : Jose) (jwtVc : Val) : Except String EvaluationCredential :=
  if !jwtVc.truthy then .error "missing credential"
  else
    match jwtVc.asString.bind jose.decodeJwt with
    | none => .error "failed to decode JWT"
    | some payload =>
      if !(payload.get "iss").truthy then .error "missing issuer (iss) claim"
      else if !(payload.get "vc").truthy then .error "missing vc claim"
      else if !(subjectOf payload).truthy then
        .error "missing subject (sub or credentialSubject.id)"
      else
        .ok (buildEvaluationCredential (payload.get "iss") (subjectOf payload)
          (credentialSubjectOf payload))

/-- Extraction succeeds on a text that decodes to a payload with issuer, `vc`
claim and subject. -/
theorem extract_ok_iff {jose : Jose} {jwtVc : Val} {credential : EvaluationCredential} :
    extractCredentialForPolicy jose jwtVc = .ok credential ↔
      ∃ text payload, jwtVc = .str text ∧ text ≠ "" ∧ jose.decodeJwt text = some payload ∧
        (payload.get "iss").truthy = true ∧ (payload.get "vc").truthy = true ∧
        (subjectOf payload).truthy = true ∧
        credential = buildEvaluationCredential (payload.get "iss") (subjectOf payload)
          (credentialSubjectOf payload) := by
  unfold extractCredentialForPolicy
  constructor
  · intro h
    by_cases ht : jwtVc.truthy = true
    · rw [if_neg (by simp [ht])] at h
      cases hs : jwtVc.asString with
      | none =>
        rw [hs] at h
        cases h
      | some text =>
        have htext : jwtVc = .str text := by
          cases jwtVc <;> cases hs
          rfl
        have hempty : text ≠ "" := by simpa [htext, Val.truthy] using ht
        rw [hs, Option.bind_some] at h
        cases hd : jose.decodeJwt text with
        | none =>
          rw [hd] at h
          cases h
        | some payload =>
          rw [hd] at h
          simp only [Bool.not_eq_true', ite_eq_iff, reduceCtorEq, and_false, false_or,
            Bool.not_eq_false, Except.ok.injEq] at h
          exact ⟨text, payload, htext, hempty, hd, h.1, h.2.1, h.2.2.1, h.2.2.2.symm⟩
    · rw [if_pos (by simpa using ht)] at h
      cases h
  · intro h
    obtain ⟨text, payload, rfl, hempty, hd, hiss, hvc, hsub, rfl⟩ := h
    have ht : (Val.str text).truthy = true := by simpa [Val.truthy] using hempty
    rw [if_neg (by simp [ht])]
    show (match jose.decodeJwt text with | none => _ | some payload => _) = _
    rw [hd]
    dsimp only
    rw [if_neg (by simp [hiss]), if_neg (by simp [hvc]), if_neg (by simp [hsub])]

/-! ## Verification -/

/-- `VCVerificationError`, one constructor for each of its factories. -/
inductive VCVerificationError where
  | invalidJwt (message : String)
  | invalidSignature
  | untrustedIssuer (issuer : Val)
  | credentialExpired (expiry : Int)
  | credentialNotYetValid (notBefore : Int)
  | issuerResolutionFailed (issuer cause : String)
  | unsupportedAlgorithm (algorithm : Val)
  | missingVcClaim

/-- A failed verification: the verifier's own error, or one that escapes from
a library. -/
inductive VerifyError where
  | vc (err : VCVerificationError)
  | escaped

/-- `VerificationMethod`, of which only the key is used. -/
structure VerificationMethod where
  publicKeyMultibase : String
  deriving DecidableEq, Repr

/-- `DIDResolutionResult`: the methods of the document, or the error. -/
structure DIDResolutionResult where
  didDocument : Option (List VerificationMethod)
  error : Option String

/-- `CreateJwtVcVerifierOptions`. -/
structure JwtVcVerifierOptions where
  trustedIssuers : List String
  clockSkewMs : Int
  didResolver : String → DIDResolutionResult

/-- `DEFAULT_CLOCK_SKEW_MS`. -/
def defaultClockSkewMs : Int := 60000

/-- `SUPPORTED_ALGORITHMS`. -/
def supportedAlgorithms : List String := ["EdDSA", "ES256"]

/-- `VCVerificationResult`; the dates in ms. -/
structure VCVerificationResult where
  valid : Bool
  credential : Val
  issuer : Val
  subject : Val
  expiresAt : Option Int
  issuedAt : Option Int

/-- An error whose message quotes a value: the template throws, and no error of
the verifier is made, where the value has no text. -/
def quoting (v : Val) (err : Val → VCVerificationError) : VerifyError :=
  if v.converts then .vc (err v) else .escaped

/-- `extractIssuer`. -/
def extractIssuer (jose : Jose) (jwtVc : String) : Except VerifyError Val :=
  match jose.decodeJwt jwtVc with
  | some payload => .ok (payload.get "iss")
  | none => .error (.vc (.invalidJwt "Failed to decode JWT"))

/-- `validateIssuerTrust`; an issuer in the list is a string. -/
def validateIssuerTrust (trustedIssuers : List String) (issuer : Val) :
    Except VerifyError String :=
  match issuer with
  | .str did => if did ∈ trustedIssuers then .ok did else .error (quoting issuer .untrustedIssuer)
  | _ => .error (quoting issuer .untrustedIssuer)

/-- `resolveVerificationMethod`. -/
def resolveVerificationMethod (didResolver : String → DIDResolutionResult) (issuer : String) :
    Except VerifyError VerificationMethod :=
  match (didResolver issuer).didDocument with
  | none =>
    .error (.vc (.issuerResolutionFailed issuer
      ((didResolver issuer).error.getD "Unknown resolution error")))
  | some [] => .error (.vc (.issuerResolutionFailed issuer "No verification method in DID document"))
  | some (verificationMethod :: _) => .ok verificationMethod

/-- `jose.decodeProtectedHeader(jwtVc)`, whose error escapes. -/
def protectedHeader (jose : Jose) (jwtVc : String) : Except VerifyError Claims :=
  match jose.decodeProtectedHeader jwtVc with
  | some header => .ok header
  | none => .error .escaped

/-- `validateAlgorithm`; a supported algorithm is a string. -/
def validateAlgorithm (header : Claims) : Except VerifyError String :=
  match header.get "alg" with
  | .str alg =>
    if alg ∈ supportedAlgorithms then .ok alg
    else .error (quoting (.str alg) .unsupportedAlgorithm)
  | alg => .error (quoting alg .unsupportedAlgorithm)

/-- The key `multibaseToKey` imports for decoded bytes: their first two are the
multicodec prefix. -/
def jwkOf (jose : Jose) (decoded : List UInt8) (algorithm : String) : Option Jwk :=
  let rawKey := decoded.drop 2
  if algorithm = "EdDSA" then some ⟨"OKP", "Ed25519", jose.base64url rawKey, none⟩
  else if algorithm = "ES256" then
    some ⟨"EC", "P-256", jose.base64url (rawKey.take 32),
      some (jose.base64url ((rawKey.drop 32).take 32))⟩
  else none

/-- `multibaseToKey`. -/
def multibaseToKey (jose : Jose) (publicKeyMultibase algorithm : String) :
    Except VerifyError jose.Key :=
  match jose.base58btc publicKeyMultibase with
  | none => .error .escaped
  | some decoded =>
    match jwkOf jose decoded algorithm with
    | none => .error (.vc (.unsupportedAlgorithm (.str algorithm)))
    | some jwk =>
      match jose.importJWK jwk algorithm with
      | some key => .ok key
      | none => .error .escaped

/-- `Math.ceil(clockSkewMs / 1000)`. -/
def clockTolerance (clockSkewMs : Int) : Int := (clockSkewMs + 999) / 1000

/-- A claim of the JWT, decoded once more for an error. -/
def decodedClaim (jose : Jose) (jwtVc name : String) : Val :=
  ((jose.decodeJwt jwtVc).map fun payload => payload.get name).getD .undefined

/-- `verifyJwtSignature`. -/
def verifyJwtSignature (jose : Jose) (now : Int) (jwtVc : String) (publicKey : jose.Key)
    (clockSkewMs : Int) : Except VerifyError Claims :=
  match jose.jwtVerify now jwtVc publicKey supportedAlgorithms (clockTolerance clockSkewMs) with
  | .ok payload => .ok payload
  | .expired =>
    match Js.dateOfSeconds (decodedClaim jose jwtVc "exp") with
    | some expiry => .error (.vc (.credentialExpired expiry))
    -- `toISOString` throws on an invalid date
    | none => .error .escaped
  | .claimValidationFailed =>
    if (decodedClaim jose jwtVc "nbf").truthy then
      match Js.dateOfSeconds (decodedClaim jose jwtVc "nbf") with
      | some notBefore => .error (.vc (.credentialNotYetValid notBefore))
      | none => .error .escaped
    else .error (.vc .invalidSignature)
  | .failed => .error (.vc .invalidSignature)

/-- `buildResult`. In a payload that verified `exp` and `iat` are numbers, if
they are there. -/
def buildResult (payload : Claims) : VCVerificationResult where
  valid := true
  credential := payload.get "vc"
  issuer := payload.get "iss"
  subject := payload.get "sub"
  expiresAt := if (payload.get "exp").truthy then Js.dateOfSeconds (payload.get "exp") else none
  issuedAt := if (payload.get "iat").truthy then Js.dateOfSeconds (payload.get "iat") else none

/-- `JwtVcVerifier.verify`, at a time in ms. -/
def verify (jose : Jose) (options : JwtVcVerifierOptions) (now : Int) (jwtVc : String) :
    Except VerifyError VCVerificationResult := do
  let issuer ← extractIssuer jose jwtVc
  let issuer ← validateIssuerTrust options.trustedIssuers issuer
  let verificationMethod ← resolveVerificationMethod options.didResolver issuer
  let header ← protectedHeader jose jwtVc
  let algorithm ← validateAlgorithm header
  let publicKey ← multibaseToKey jose verificationMethod.publicKeyMultibase algorithm
  let payload ← verifyJwtSignature jose now jwtVc publicKey options.clockSkewMs
  if !(payload.get "vc").truthy then .error (.vc .missingVcClaim)
  else .ok (buildResult payload)

/-! ## When the verifier accepts -/

theorem isOk_bind {ε α β : Type} {x : Except ε α} {f : α → Except ε β} :
    (x >>= f).isOk = true ↔ ∃ a, x = .ok a ∧ (f a).isOk = true := by
  cases x with
  | error e => exact ⟨fun h => (by cases h), fun ⟨_, h, _⟩ => (by cases h)⟩
  | ok a =>
    constructor
    · exact fun h => ⟨a, rfl, h⟩
    · rintro ⟨b, hb, h⟩
      cases hb
      exact h

theorem ite_ok_iff {ε α : Type} {p : Prop} [Decidable p] {a b : α} {e : ε} :
    (if p then Except.ok a else .error e) = .ok b ↔ a = b ∧ p := by
  by_cases hp : p <;> simp [hp]

theorem extractIssuer_ok {jose : Jose} {jwtVc : String} {issuer : Val} :
    extractIssuer jose jwtVc = .ok issuer ↔
      ∃ payload, jose.decodeJwt jwtVc = some payload ∧ payload.get "iss" = issuer := by
  unfold extractIssuer
  cases jose.decodeJwt jwtVc <;> simp

theorem validateIssuerTrust_ok {trustedIssuers : List String} {issuer : Val} {did : String} :
    validateIssuerTrust trustedIssuers issuer = .ok did ↔
      issuer = .str did ∧ did ∈ trustedIssuers := by
  cases issuer with
  | str s =>
    show (if s ∈ trustedIssuers then Except.ok s else _) = .ok did ↔ _
    rw [ite_ok_iff, Val.str.injEq]
    constructor
    · rintro ⟨rfl, hs⟩
      exact ⟨rfl, hs⟩
    · rintro ⟨rfl, hs⟩
      exact ⟨rfl, hs⟩
  | _ => simp [validateIssuerTrust]

theorem resolveVerificationMethod_ok {didResolver : String → DIDResolutionResult}
    {issuer : String} {method : VerificationMethod} :
    resolveVerificationMethod didResolver issuer = .ok method ↔
      ∃ others, (didResolver issuer).didDocument = some (method :: others) := by
  unfold resolveVerificationMethod
  split
  next h => simp [h]
  next h => simp [h]
  next first others h => simp [h]

theorem protectedHeader_ok {jose : Jose} {jwtVc : String} {header : Claims} :
    protectedHeader jose jwtVc = .ok header ↔ jose.decodeProtectedHeader jwtVc = some header := by
  unfold protectedHeader
  cases jose.decodeProtectedHeader jwtVc <;> simp

theorem validateAlgorithm_ok {header : Claims} {alg : String} :
    validateAlgorithm header = .ok alg ↔
      header.get "alg" = .str alg ∧ alg ∈ supportedAlgorithms := by
  unfold validateAlgorithm
  split
  next a ha =>
    rw [ha, ite_ok_iff, Val.str.injEq]
    constructor
    · rintro ⟨rfl, hs⟩
      exact ⟨rfl, hs⟩
    · rintro ⟨rfl, hs⟩
      exact ⟨rfl, hs⟩
  next a ha =>
    constructor
    · rintro ⟨⟩
    · rintro ⟨h, -⟩
      exact absurd h (ha alg)

theorem multibaseToKey_ok {jose : Jose} {publicKeyMultibase algorithm : String} {key : jose.Key} :
    multibaseToKey jose publicKeyMultibase algorithm = .ok key ↔
      ∃ decoded jwk, jose.base58btc publicKeyMultibase = some decoded ∧
        jwkOf jose decoded algorithm = some jwk ∧ jose.importJWK jwk algorithm = some key := by
  unfold multibaseToKey
  cases jose.base58btc publicKeyMultibase with
  | none => simp
  | some decoded =>
    cases hj : jwkOf jose decoded algorithm with
    | none => simp [hj]
    | some jwk => cases hi : jose.importJWK jwk algorithm <;> simp [hj, hi]

theorem verifyJwtSignature_ok {jose : Jose} {now : Int} {jwtVc : String} {key : jose.Key}
    {clockSkewMs : Int} {payload : Claims} :
    verifyJwtSignature jose now jwtVc key clockSkewMs = .ok payload ↔
      jose.jwtVerify now jwtVc key supportedAlgorithms (clockTolerance clockSkewMs) =
        .ok payload := by
  unfold verifyJwtSignature
  cases jose.jwtVerify now jwtVc key supportedAlgorithms (clockTolerance clockSkewMs) with
  | ok p => simp
  | expired => cases Js.dateOfSeconds (decodedClaim jose jwtVc "exp") <;> simp
  | claimValidationFailed =>
    cases (decodedClaim jose jwtVc "nbf").truthy with
    | false => simp
    | true => cases Js.dateOfSeconds (decodedClaim jose jwtVc "nbf") <;> simp
  | failed => simp

/-- A key that the JWT names and the verifier trusts: the first of the trusted
issuer's DID document, for the supported algorithm of the header. -/
def TrustedKey (jose : Jose) (options : JwtVcVerifierOptions) (jwtVc : String)
    (key : jose.Key) : Prop :=
  ∃ payload issuer method others header algorithm decoded jwk,
    jose.decodeJwt jwtVc = some payload ∧ payload.get "iss" = .str issuer ∧
    issuer ∈ options.trustedIssuers ∧
    (options.didResolver issuer).didDocument = some (method :: others) ∧
    jose.decodeProtectedHeader jwtVc = some header ∧ header.get "alg" = .str algorithm ∧
    algorithm ∈ supportedAlgorithms ∧
    jose.base58btc method.publicKeyMultibase = some decoded ∧
    jwkOf jose decoded algorithm = some jwk ∧ jose.importJWK jwk algorithm = some key

/-- The verifier accepts a JWT iff it verifies, at that time, under the trusted
key it names, with a `vc` claim. -/
theorem verify_isOk_iff {jose : Jose} {options : JwtVcVerifierOptions} {now : Int}
    {jwtVc : String} :
    (verify jose options now jwtVc).isOk = true ↔
      ∃ key payload, TrustedKey jose options jwtVc key ∧
        jose.jwtVerify now jwtVc key supportedAlgorithms
          (clockTolerance options.clockSkewMs) = .ok payload ∧
        (payload.get "vc").truthy = true := by
  have hvc (payload : Claims) :
      (if !(payload.get "vc").truthy then Except.error (VerifyError.vc .missingVcClaim)
        else Except.ok (buildResult payload)).isOk = true ↔ (payload.get "vc").truthy = true := by
    cases (payload.get "vc").truthy <;> simp [Except.isOk, Except.toBool]
  unfold verify TrustedKey
  simp only [isOk_bind, extractIssuer_ok, validateIssuerTrust_ok, resolveVerificationMethod_ok,
    protectedHeader_ok, validateAlgorithm_ok, multibaseToKey_ok, verifyJwtSignature_ok, hvc]
  constructor
  · rintro ⟨_, ⟨claims, hdecode, hiss⟩, issuer, ⟨rfl, htrust⟩, method, ⟨others, hmethod⟩, header,
      hhead, algorithm, ⟨halg, hsup⟩, key, ⟨decoded, jwk, hbytes, hjwk, himport⟩, payload, hverify,
      hclaim⟩
    exact ⟨key, payload, ⟨claims, issuer, method, others, header, algorithm, decoded, jwk,
      hdecode, hiss, htrust, hmethod, hhead, halg, hsup, hbytes, hjwk, himport⟩, hverify, hclaim⟩
  · rintro ⟨key, payload, ⟨claims, issuer, method, others, header, algorithm, decoded, jwk,
      hdecode, hiss, htrust, hmethod, hhead, halg, hsup, hbytes, hjwk, himport⟩, hverify, hclaim⟩
    exact ⟨_, ⟨claims, hdecode, hiss⟩, issuer, ⟨rfl, htrust⟩, method, ⟨others, hmethod⟩, header,
      hhead, algorithm, ⟨halg, hsup⟩, key, ⟨decoded, jwk, hbytes, hjwk, himport⟩, payload, hverify,
      hclaim⟩

end ChainKVM.Gateway
