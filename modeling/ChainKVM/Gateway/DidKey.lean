import ChainKVM.Gateway.Credential
import ChainKVM.Lib.Base58
import ChainKVM.Lib.Varint

/-!
# `did:key` resolution: `identity/`

`parseDIDKey` takes a DID apart: its structure, the base 58 text of its
identifier, the varint in front of the decoded bytes, and the 32 bytes of an
Ed25519 key after it. `resolveDIDKey` answers with the DID document of what was
parsed, or with the code of the error.

The decoders of `multiformats` are parameters (`Multiformats`), and `Published`
is what is documented of them. `parse_ok_iff` says which strings parse whatever
the decoders do; `parse_ok_iff_of_published` says it for the published ones.
-/

namespace ChainKVM.Gateway.DidKey

/-- What the code uses of `multiformats`. `none` is an exception; `varint` gives
the number and how many bytes it took. -/
structure Multiformats where
  base58btc : String → Option (List UInt8)
  varint : List UInt8 → Option (Js.Num × Nat)

/-! ## Constants -/

/-- `ED25519_CODEC`. -/
def ed25519Codec : Js.Num := .fin 237

/-- `ED25519_KEY_LENGTH`. -/
def ed25519KeyLength : Nat := 32

/-- `ED25519_VERIFICATION_TYPE`. -/
def ed25519VerificationType : String := "Ed25519VerificationKey2020"

/-- `DID_CONTEXTS`. -/
def didContexts : List String :=
  ["https://www.w3.org/ns/did/v1", "https://w3id.org/security/suites/ed25519-2020/v1"]

/-! ## Errors -/

inductive DIDResolutionErrorCode where
  | invalidDid
  | unsupportedMethod
  | invalidPublicKey
  | unsupportedKeyType
  | invalidMultibase
  deriving DecidableEq, Repr

/-- The code as the metadata of a resolution has it. -/
def DIDResolutionErrorCode.text : DIDResolutionErrorCode → String
  | .invalidDid => "invalidDid"
  | .unsupportedMethod => "methodNotSupported"
  | .invalidPublicKey => "invalidPublicKey"
  | .unsupportedKeyType => "unsupportedPublicKeyType"
  | .invalidMultibase => "invalidMultibase"

structure DIDResolutionError where
  code : DIDResolutionErrorCode
  message : String
  did : String
  deriving DecidableEq, Repr

namespace DIDResolutionError

def invalidDid (did reason : String) : DIDResolutionError :=
  ⟨.invalidDid, "Invalid DID format: " ++ reason, did⟩

def unsupportedMethod (did method : String) : DIDResolutionError :=
  ⟨.unsupportedMethod, "Unsupported DID method: " ++ method ++ ". Only 'key' is supported.", did⟩

/-- `codecPrefix.toString(16)`, of a number that is not negative. -/
def hexText : Js.Num → String
  | .fin q => String.ofList (Nat.toDigits 16 q.floor.toNat)
  | n => Js.numberText n

def unsupportedKeyType (did : String) (codecPrefix : Js.Num) : DIDResolutionError :=
  ⟨.unsupportedKeyType, "Unsupported key type with codec prefix 0x" ++ hexText codecPrefix ++
    ". Only Ed25519 (0xed) is supported.", did⟩

def invalidPublicKey (did : String) (expected actual : Nat) : DIDResolutionError :=
  ⟨.invalidPublicKey, "Invalid public key length: expected " ++ toString expected ++
    " bytes, got " ++ toString actual, did⟩

def invalidMultibase (did reason : String) : DIDResolutionError :=
  ⟨.invalidMultibase, "Invalid multibase encoding: " ++ reason, did⟩

end DIDResolutionError

/-- What `parseDIDKey` throws: its own error, or one that escapes from a
decoder. -/
inductive ParseError where
  | resolution (err : DIDResolutionError)
  | escaped
  deriving DecidableEq

/-! ## Parsing -/

structure DIDParts where
  scheme : String
  method : String
  identifier : String

/-- `validateDIDStructure`; what comes after the second colon is put together
again. -/
def validateDIDStructure (did : String) : Except DIDResolutionError DIDParts :=
  if did = "" then .error (.invalidDid did "DID must be a non-empty string")
  else
    match did.toList.splitOn ':' with
    | scheme :: method :: first :: rest =>
      let scheme := String.ofList scheme
      let method := String.ofList method
      let identifier := String.ofList ([':'].intercalate (first :: rest))
      if scheme ≠ "did" then .error (.invalidDid did "Must start with 'did:'")
      else if method = "" then .error (.invalidDid did "Missing method")
      else if method ≠ "key" then .error (.unsupportedMethod did method)
      else if identifier = "" then .error (.invalidDid did "Missing identifier")
      else .ok ⟨scheme, method, identifier⟩
    | _ => .error (.invalidDid did "DID must have format did:method:identifier")

/-- `decodeMultibaseKey`: the codec prefix and the key. Only the first of the
two decoders is called in a `try`. -/
def decodeMultibaseKey (lib : Multiformats) (did identifier : String) :
    Except ParseError (Js.Num × List UInt8) :=
  if identifier.toList.head? ≠ some 'z' then
    .error (.resolution (.invalidMultibase did "Must start with 'z'"))
  else
    match lib.base58btc identifier with
    | none => .error (.resolution (.invalidMultibase did "Invalid base58btc encoding"))
    | some decoded =>
      if decoded.length < 2 then
        .error (.resolution (.invalidDid did "Decoded key data too short"))
      else
        match lib.varint decoded with
        | none => .error .escaped
        | some (codecPrefix, bytesRead) =>
          let publicKey := decoded.drop bytesRead
          if codecPrefix ≠ ed25519Codec then
            .error (.resolution (.unsupportedKeyType did codecPrefix))
          else if publicKey.length ≠ ed25519KeyLength then
            .error (.resolution (.invalidPublicKey did ed25519KeyLength publicKey.length))
          else .ok (codecPrefix, publicKey)

structure ParsedDIDKey where
  did : String
  method : String
  identifier : String
  codecPrefix : Js.Num
  publicKey : List UInt8
  deriving DecidableEq

/-- `parseDIDKey`. -/
def parseDIDKey (lib : Multiformats) (did : String) : Except ParseError ParsedDIDKey :=
  match validateDIDStructure did with
  | .error err => .error (.resolution err)
  | .ok parts =>
    match decodeMultibaseKey lib did parts.identifier with
    | .error err => .error err
    | .ok (codecPrefix, publicKey) => .ok ⟨did, "key", parts.identifier, codecPrefix, publicKey⟩

/-! ## DID documents -/

structure VerificationMethod where
  id : String
  type : String
  controller : String
  publicKeyMultibase : String
  deriving DecidableEq, Repr

/-- `DIDDocument`, with the relationships that are filled in. -/
structure DIDDocument where
  context : List String
  id : String
  verificationMethod : List VerificationMethod
  authentication : List String
  assertionMethod : List String
  deriving DecidableEq, Repr

/-- `buildVerificationMethod`. -/
def buildVerificationMethod (parsed : ParsedDIDKey) : VerificationMethod :=
  ⟨parsed.did ++ "#" ++ parsed.identifier, ed25519VerificationType, parsed.did, parsed.identifier⟩

/-- `buildDIDDocument`. -/
def buildDIDDocument (parsed : ParsedDIDKey) : DIDDocument :=
  let method := buildVerificationMethod parsed
  ⟨didContexts, parsed.did, [method], [method.id], [method.id]⟩

/-! ## Resolution -/

/-- `DIDResolutionMetadata`; the duration in ms. -/
structure DIDResolutionMetadata where
  contentType : Option String
  duration : Rat
  error : Option String
  cached : Option Bool
  deriving DecidableEq

/-- `DIDDocumentMetadata`. -/
structure DIDDocumentMetadata where
  created : Option String
  updated : Option String
  deactivated : Option Bool
  deriving DecidableEq

structure DIDResolutionResult where
  didResolutionMetadata : DIDResolutionMetadata
  didDocument : Option DIDDocument
  didDocumentMetadata : DIDDocumentMetadata
  deriving DecidableEq

/-- `buildErrorResult`. -/
def buildErrorResult (err : ParseError) (duration : Rat) : DIDResolutionResult :=
  let errorCode :=
    match err with
    | .resolution err => err.code.text
    | .escaped => "internalError"
  ⟨⟨none, duration, some errorCode, none⟩, none, ⟨none, none, none⟩⟩

/-- `resolveDIDKey`, which takes some time. -/
def resolveDIDKey (lib : Multiformats) (did : String) (duration : Rat) : DIDResolutionResult :=
  match parseDIDKey lib did with
  | .ok parsed =>
    ⟨⟨some "application/did+ld+json", duration, none, none⟩, some (buildDIDDocument parsed),
      ⟨none, none, none⟩⟩
  | .error err => buildErrorResult err duration

/-- The result as the verifier reads it. -/
def DIDResolutionResult.forVerifier (result : DIDResolutionResult) :
    Gateway.DIDResolutionResult where
  didDocument := result.didDocument.map fun document =>
    document.verificationMethod.map fun method => ⟨method.publicKeyMultibase⟩
  error := result.didResolutionMetadata.error

/-! ## Which strings parse -/

theorem splitOn_didKey (identifier : String) :
    ("did:key:" ++ identifier).toList.splitOn ':' =
      "did".toList :: "key".toList :: identifier.toList.splitOn ':' := by
  have hdid : ("did:key:" ++ identifier).toList =
      "did".toList ++ ':' :: ("key".toList ++ ':' :: identifier.toList) := by
    rw [String.toList_append]
    rfl
  rw [hdid, List.splitOn_append_cons_self_of_not_mem (by decide),
    List.splitOn_append_cons_self_of_not_mem (by decide)]

/-- What was split at the colons is put together again. -/
theorem toList_of_splitOn {did : String} {scheme method first : List Char}
    {rest : List (List Char)}
    (h : did.toList.splitOn ':' = scheme :: method :: first :: rest) :
    did.toList = scheme ++ ':' :: (method ++ ':' :: [':'].intercalate (first :: rest)) := by
  have hparts : [':'].intercalate (did.toList.splitOn ':') = did.toList :=
    List.intercalate_splitOn ':'
  rw [← hparts, h, List.intercalate_cons_cons, List.intercalate_cons_cons, List.append_assoc,
    List.append_assoc]
  rfl

/-- The structure is that of a `did:key` with an identifier, whatever that is. -/
theorem validateDIDStructure_ok {did : String} {parts : DIDParts} :
    validateDIDStructure did = .ok parts ↔
      parts.identifier ≠ "" ∧ did = "did:key:" ++ parts.identifier ∧
        parts = ⟨"did", "key", parts.identifier⟩ := by
  constructor
  · intro h
    unfold validateDIDStructure at h
    split at h
    next => cases h
    next =>
      split at h
      next scheme method first rest hsplit =>
        simp only [ne_eq, ite_not, ite_eq_iff, reduceCtorEq, and_false, or_false, false_or,
          Except.ok.injEq] at h
        obtain ⟨hscheme, -, hmethod, hidentifier, hparts⟩ := h
        have hs : scheme = "did".toList := by rw [← hscheme, String.toList_ofList]
        have hm : method = "key".toList := by rw [← hmethod, String.toList_ofList]
        rw [← hparts]
        refine ⟨hidentifier, ?_, by rw [hscheme, hmethod]⟩
        have hlist : (String.ofList ([':'].intercalate (first :: rest))).toList =
            [':'].intercalate (first :: rest) := String.toList_ofList
        apply String.toList_injective
        rw [toList_of_splitOn hsplit, hs, hm, String.toList_append, hlist]
        rfl
      next => cases h
  · intro ⟨hidentifier, hdid, hparts⟩
    have hne : did ≠ "" := by
      intro hempty
      rw [hempty] at hdid
      exact absurd (congrArg String.toList hdid) (by simp)
    unfold validateDIDStructure
    rw [if_neg hne]
    split
    next scheme method first rest hsplit =>
      rw [hdid, splitOn_didKey] at hsplit
      obtain ⟨hscheme, hsplit⟩ := List.cons.inj hsplit
      obtain ⟨hmethod, hsplit⟩ := List.cons.inj hsplit
      have hjoin : String.ofList ([':'].intercalate (first :: rest)) = parts.identifier := by
        rw [← hsplit, List.intercalate_splitOn, String.ofList_toList]
      rw [← hscheme, ← hmethod, hjoin, String.ofList_toList, String.ofList_toList]
      dsimp only
      rw [if_neg (by decide), if_neg (by decide), if_neg (by decide), if_neg hidentifier, ← hparts]
    next hfew =>
      -- after the method there is always a part
      cases hsplit : parts.identifier.toList.splitOn ':' with
      | nil => exact absurd hsplit (List.splitOn_ne_nil ':' _)
      | cons first rest =>
        rw [hdid, splitOn_didKey, hsplit] at hfew
        exact absurd rfl (hfew _ _ _ _)

/-- The identifier decodes to a key that is long enough after its prefix. -/
theorem decodeMultibaseKey_ok {lib : Multiformats} {did identifier : String}
    {decodedKey : Js.Num × List UInt8} :
    decodeMultibaseKey lib did identifier = .ok decodedKey ↔
      identifier.toList.head? = some 'z' ∧
        ∃ decoded bytesRead, lib.base58btc identifier = some decoded ∧ 2 ≤ decoded.length ∧
          lib.varint decoded = some (ed25519Codec, bytesRead) ∧
          (decoded.drop bytesRead).length = ed25519KeyLength ∧
          decodedKey = (ed25519Codec, decoded.drop bytesRead) := by
  unfold decodeMultibaseKey
  constructor
  · intro h
    by_cases hhead : identifier.toList.head? = some 'z'
    · rw [if_neg (not_not.mpr hhead)] at h
      cases hdecode : lib.base58btc identifier with
      | none =>
        rw [hdecode] at h
        cases h
      | some decoded =>
        simp only [hdecode] at h
        by_cases hlength : decoded.length < 2
        · rw [if_pos hlength] at h
          cases h
        · rw [if_neg hlength] at h
          cases hvarint : lib.varint decoded with
          | none =>
            rw [hvarint] at h
            cases h
          | some r =>
            obtain ⟨codecPrefix, bytesRead⟩ := r
            simp only [hvarint, ne_eq, ite_not, ite_eq_iff, reduceCtorEq, and_false, or_false,
              Except.ok.injEq] at h
            obtain ⟨hcodec, hkey, hresult⟩ := h
            rw [hcodec] at hresult hvarint
            exact ⟨hhead, decoded, bytesRead, rfl, Nat.le_of_not_lt hlength, hvarint, hkey,
              hresult.symm⟩
    · rw [if_pos hhead] at h
      cases h
  · intro ⟨hhead, decoded, bytesRead, hdecode, hlength, hvarint, hkey, hresult⟩
    rw [if_neg (not_not.mpr hhead), hdecode]
    dsimp only
    rw [if_neg (Nat.not_lt.mpr hlength), hvarint]
    dsimp only
    rw [if_neg (not_not.mpr rfl), if_neg (not_not.mpr hkey), hresult]

theorem parse_ok_iff {lib : Multiformats} {did : String} {parsed : ParsedDIDKey} :
    parseDIDKey lib did = .ok parsed ↔
      ∃ identifier decoded bytesRead, did = "did:key:" ++ identifier ∧
        identifier.toList.head? = some 'z' ∧ lib.base58btc identifier = some decoded ∧
        2 ≤ decoded.length ∧ lib.varint decoded = some (ed25519Codec, bytesRead) ∧
        (decoded.drop bytesRead).length = ed25519KeyLength ∧
        parsed = ⟨did, "key", identifier, ed25519Codec, decoded.drop bytesRead⟩ := by
  unfold parseDIDKey
  constructor
  · intro h
    cases hparts : validateDIDStructure did with
    | error err =>
      rw [hparts] at h
      cases h
    | ok parts =>
      simp only [hparts] at h
      obtain ⟨-, hdid, -⟩ := validateDIDStructure_ok.mp hparts
      cases hkey : decodeMultibaseKey lib did parts.identifier with
      | error err =>
        rw [hkey] at h
        cases h
      | ok decodedKey =>
        rw [hkey] at h
        obtain ⟨hhead, decoded, bytesRead, hdecode, hlength, hvarint, hkeyLength, hresult⟩ :=
          decodeMultibaseKey_ok.mp hkey
        rw [hresult] at h
        cases h
        exact ⟨parts.identifier, decoded, bytesRead, hdid, hhead, hdecode, hlength, hvarint,
          hkeyLength, rfl⟩
  · intro ⟨identifier, decoded, bytesRead, hdid, hhead, hdecode, hlength, hvarint, hkeyLength,
      hparsed⟩
    have hne : identifier ≠ "" := by
      intro hempty
      rw [hempty] at hhead
      cases hhead
    have hparts : validateDIDStructure did = .ok ⟨"did", "key", identifier⟩ :=
      validateDIDStructure_ok.mpr ⟨hne, hdid, rfl⟩
    simp only [hparts]
    rw [decodeMultibaseKey_ok.mpr
      ⟨hhead, decoded, bytesRead, hdecode, hlength, hvarint, hkeyLength, rfl⟩, hparsed]

/-! ## The published decoders -/

/-- What is documented of the decoders. A text decodes if it is an encoding of
bytes; a varint does not have to be the shortest, but is read exactly up to some
length; bytes that never end their number throw. -/
structure Published (lib : Multiformats) (longest : Nat) : Prop where
  base58btc : ∀ s bytes, lib.base58btc s = some bytes ↔ s = Base58.encode bytes
  varint : ∀ bytes (v : Nat) n, v < 2 ^ 53 →
    (lib.varint bytes = some (.fin v, n) ↔ Varint.Reads bytes v n ∧ n ≤ longest)
  truncated : ∀ bytes, (∀ b ∈ bytes, 128 ≤ b.toNat) → lib.varint bytes = none
  two : 2 ≤ longest

/-- Bytes with a varint of the codec in front, before a key. -/
structure Prefixed (longest : Nat) (head key : List UInt8) : Prop where
  isVarint : Varint.IsVarint head
  codec : Varint.value head = 237
  length : head.length ≤ longest
  key : key.length = ed25519KeyLength

/-- The strings that parse with the published decoders. -/
theorem parse_ok_iff_of_published {lib : Multiformats} {longest : Nat}
    (hlib : Published lib longest) {did : String} {parsed : ParsedDIDKey} :
    parseDIDKey lib did = .ok parsed ↔
      ∃ head key, Prefixed longest head key ∧
        did = "did:key:" ++ Base58.encode (head ++ key) ∧
        parsed = ⟨did, "key", Base58.encode (head ++ key), ed25519Codec, key⟩ := by
  have hcodec : (237 : Nat) < 2 ^ 53 := by decide
  rw [parse_ok_iff]
  constructor
  · intro ⟨identifier, decoded, bytesRead, hdid, _, hdecode, _, hvarint, hkeyLength, hparsed⟩
    have hidentifier := (hlib.base58btc identifier decoded).mp hdecode
    obtain ⟨⟨head, key, hbytes, hhead, hvalue, hread⟩, hlongest⟩ :=
      (hlib.varint decoded 237 bytesRead hcodec).mp hvarint
    have hdrop : decoded.drop bytesRead = key := by rw [hbytes, ← hread, List.drop_left]
    rw [hdrop] at hkeyLength hparsed
    rw [hbytes] at hidentifier
    rw [hidentifier] at hdid hparsed
    exact ⟨head, key, ⟨hhead, hvalue, hread ▸ hlongest, hkeyLength⟩, hdid, hparsed⟩
  · intro ⟨head, key, hprefixed, hdid, hparsed⟩
    have hdrop : (head ++ key).drop head.length = key := List.drop_left
    refine ⟨Base58.encode (head ++ key), head ++ key, head.length, hdid, ?_,
      (hlib.base58btc _ _).mpr rfl, ?_, ?_, ?_, ?_⟩
    · unfold Base58.encode
      rw [String.toList_ofList]
      rfl
    · rw [List.length_append, hprefixed.key]
      unfold ed25519KeyLength
      omega
    · exact (hlib.varint (head ++ key) 237 head.length hcodec).mpr
        ⟨⟨head, key, rfl, hprefixed.isVarint, hprefixed.codec, rfl⟩, hprefixed.length⟩
    · rw [hdrop, hprefixed.key]
    · rw [hdrop, hparsed]

end ChainKVM.Gateway.DidKey
