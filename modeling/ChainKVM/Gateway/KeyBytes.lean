import ChainKVM.Gateway.DidKey
import ChainKVM.Gateway.Sample

/-!
# One key, two readings

`parseDIDKey` takes the varint off the decoded bytes and keeps the rest as the
key; `multibaseToKey` of the verifier decodes the same text and skips two bytes.
The two agree as long as the varint takes two bytes. It need not: a varint of
the codec may be padded (`Varint.isVarint_iff`), and nothing in `parseDIDKey`
asks for the shortest. Such a DID parses to the same key as the canonical one,
while the verifier reads other bytes (`keys_agree_fails`).

`agrees_iff` says that these are the only exceptions, and `keys_agree_iff` adds
what follows for two DIDs. The last part is about the errors of `parseDIDKey`:
the varint is decoded outside the `try`, so that what it throws is not the
error that `parseDIDKey` documents.
-/

namespace ChainKVM.Gateway.DidKey

/-! ## DIDs of a key -/

/-- The DID of an Ed25519 key. -/
def didOf (key : List UInt8) : String := "did:key:" ++ Base58.encode (237 :: 1 :: key)

/-- A DID of the same key whose codec has `k` more empty bytes than it could
have. -/
def paddedDid (k : Nat) (key : List UInt8) : String :=
  "did:key:" ++ Base58.encode (Varint.padded k 237 ++ key)

/-- A padded DID that the decoder still reads. -/
def Padded (longest : Nat) (did : String) : Prop :=
  ∃ k key, k + 3 ≤ longest ∧ key.length = ed25519KeyLength ∧ did = paddedDid k key

theorem encode_codec : Varint.encode 237 = [237, 1] := by
  rw [Varint.encode_eq, if_neg (by decide), Varint.encode_eq, if_pos (by decide)]
  rfl

theorem padded_codec (k : Nat) :
    Varint.padded k 237 = 237 :: 129 :: (List.replicate k 128 ++ [0]) := by
  rw [Varint.padded_eq, if_neg (by decide), Varint.padded_eq, if_pos (by decide)]
  rfl

theorem length_padded_codec (k : Nat) : (Varint.padded k 237).length = k + 3 := by
  rw [padded_codec]
  simp

/-- The codec in front of a key is the two bytes of the specification, or it is
padded. -/
theorem Prefixed.forms {longest : Nat} {head key : List UInt8} (h : Prefixed longest head key) :
    head = [237, 1] ∨ ∃ k, k + 3 ≤ longest ∧ head = Varint.padded k 237 := by
  rcases (Varint.isVarint_iff head 237).mp ⟨h.isVarint, h.codec⟩ with hshort | ⟨k, hpadded⟩
  · left
    rw [hshort, encode_codec]
  · right
    refine ⟨k, ?_, hpadded⟩
    rw [← length_padded_codec k, ← hpadded]
    exact h.length

theorem prefixed_short {longest : Nat} (hlongest : 2 ≤ longest) {key : List UInt8}
    (hkey : key.length = ed25519KeyLength) : Prefixed longest [237, 1] key := by
  obtain ⟨hvarint, hvalue⟩ := Varint.isVarint_encode 237
  rw [encode_codec] at hvarint hvalue
  exact ⟨hvarint, hvalue, hlongest, hkey⟩

theorem prefixed_padded {longest k : Nat} (hk : k + 3 ≤ longest) {key : List UInt8}
    (hkey : key.length = ed25519KeyLength) : Prefixed longest (Varint.padded k 237) key := by
  obtain ⟨hvarint, hvalue⟩ := Varint.isVarint_padded k 237
  exact ⟨hvarint, hvalue, length_padded_codec k ▸ hk, hkey⟩

theorem encode_of_did {bytes bytes' : List UInt8}
    (h : "did:key:" ++ Base58.encode bytes = "did:key:" ++ Base58.encode bytes') :
    bytes = bytes' := by
  have hlist := congrArg String.toList h
  rw [String.toList_append, String.toList_append, List.append_cancel_left_eq] at hlist
  exact Base58.encode_inj (String.toList_injective hlist)

/-- No DID is both. -/
theorem didOf_ne_paddedDid (k : Nat) (key key' : List UInt8) : didOf key ≠ paddedDid k key' := by
  intro h
  have hbytes := encode_of_did h
  rw [padded_codec] at hbytes
  have hsecond := (List.cons.inj (List.cons.inj hbytes).2).1
  exact absurd hsecond (by decide)

/-! ## What parses, and what the verifier reads -/

/-- The decoders of a deployment; the verifier uses the first of them. -/
def multiformats (jose : Jose) (varint : List UInt8 → Option (Js.Num × Nat)) : Multiformats :=
  ⟨jose.base58btc, varint⟩

/-- The bytes that `multibaseToKey` takes for the key. -/
def rawKeyOf (jose : Jose) (publicKeyMultibase : String) : Option (List UInt8) :=
  (jose.base58btc publicKeyMultibase).map fun decoded => decoded.drop 2

/-- The key that the verifier gets is the one with these bytes. -/
theorem multibaseToKey_eq_ok_iff {jose : Jose} {publicKeyMultibase : String} {rawKey : List UInt8}
    (h : rawKeyOf jose publicKeyMultibase = some rawKey) (key : jose.Key) :
    multibaseToKey jose publicKeyMultibase "EdDSA" = .ok key ↔
      jose.importJWK ⟨"OKP", "Ed25519", jose.base64url rawKey, none⟩ "EdDSA" = some key := by
  obtain ⟨decoded, hdecode, hraw⟩ := Option.map_eq_some_iff.mp h
  have hjwk : jwkOf jose decoded "EdDSA" =
      some ⟨"OKP", "Ed25519", jose.base64url rawKey, none⟩ := by
    rw [← hraw]
    rfl
  rw [multibaseToKey_ok]
  constructor
  · intro ⟨decoded', jwk, hdecode', hjwk', himport⟩
    rw [hdecode] at hdecode'
    cases hdecode'
    rw [hjwk] at hjwk'
    cases hjwk'
    exact himport
  · intro himport
    exact ⟨decoded, _, hdecode, hjwk, himport⟩

section

variable (jose : Jose) (varint : List UInt8 → Option (Js.Num × Nat)) (did : String)

/-- The verifier's resolver over `resolveDIDKey`. -/
def resolver (duration : Rat) (did : String) : Gateway.DIDResolutionResult :=
  (resolveDIDKey (multiformats jose varint) did duration).forVerifier

/-- What a string should parse to: it parses iff it is the DID of a key, and the
verifier derives from its document the bytes that were parsed. -/
structure Agrees : Prop where
  canonical : (∃ parsed, parseDIDKey (multiformats jose varint) did = .ok parsed) ↔
    ∃ key, key.length = ed25519KeyLength ∧ did = didOf key
  rawKey : ∀ parsed duration, parseDIDKey (multiformats jose varint) did = .ok parsed →
    ∃ method, resolveVerificationMethod (resolver jose varint duration) did = .ok method ∧
      rawKeyOf jose method.publicKeyMultibase = some parsed.publicKey

end

/-- The one method of the document of what was parsed. -/
theorem resolveVerificationMethod_of_parse {jose : Jose}
    {varint : List UInt8 → Option (Js.Num × Nat)} {did : String} {parsed : ParsedDIDKey}
    (h : parseDIDKey (multiformats jose varint) did = .ok parsed) (duration : Rat) :
    resolveVerificationMethod (resolver jose varint duration) did = .ok ⟨parsed.identifier⟩ := by
  apply resolveVerificationMethod_ok.mpr
  refine ⟨[], ?_⟩
  unfold resolver resolveDIDKey
  rw [h]
  rfl

section

variable {jose : Jose} {varint : List UInt8 → Option (Js.Num × Nat)} {longest : Nat}
  (hlib : Published (multiformats jose varint) longest)

include hlib

theorem rawKeyOf_encode (bytes : List UInt8) :
    rawKeyOf jose (Base58.encode bytes) = some (bytes.drop 2) := by
  have hdecode : jose.base58btc (Base58.encode bytes) = some bytes :=
    (hlib.base58btc _ bytes).mpr rfl
  unfold rawKeyOf
  rw [hdecode]
  rfl

/-- A DID that is not padded parses to the key it is the DID of. -/
theorem parse_eq_of_not_padded {did : String} {parsed : ParsedDIDKey} (hnot : ¬Padded longest did)
    (h : parseDIDKey (multiformats jose varint) did = .ok parsed) :
    parsed.publicKey.length = ed25519KeyLength ∧ did = didOf parsed.publicKey ∧
      parsed.identifier = Base58.encode (237 :: 1 :: parsed.publicKey) := by
  obtain ⟨head, key, hprefixed, hdid, hparsed⟩ := (parse_ok_iff_of_published hlib).mp h
  rcases hprefixed.forms with hshort | ⟨k, hk, hpadded⟩
  · rw [hshort] at hdid hparsed
    rw [hparsed]
    exact ⟨hprefixed.key, hdid, rfl⟩
  · rw [hpadded] at hdid
    exact absurd ⟨k, key, hk, hprefixed.key, hdid⟩ hnot

/-- The reading of a string is right unless it is a padded DID. -/
theorem agrees_iff (did : String) : Agrees jose varint did ↔ ¬Padded longest did := by
  constructor
  · intro h ⟨k, key, hk, hkey, hdid⟩
    -- a padded DID parses, but is the DID of no key
    have hparse := (parse_ok_iff_of_published hlib).mpr
      ⟨Varint.padded k 237, key, prefixed_padded hk hkey, hdid, rfl⟩
    obtain ⟨key', -, hdid'⟩ := h.canonical.mp ⟨_, hparse⟩
    exact didOf_ne_paddedDid k key' key (hdid'.symm.trans hdid)
  · intro hnot
    refine ⟨⟨?_, ?_⟩, ?_⟩
    · intro ⟨parsed, hparse⟩
      obtain ⟨hkey, hdid, -⟩ := parse_eq_of_not_padded hlib hnot hparse
      exact ⟨parsed.publicKey, hkey, hdid⟩
    · intro ⟨key, hkey, hdid⟩
      exact ⟨_, (parse_ok_iff_of_published hlib).mpr
        ⟨[237, 1], key, prefixed_short hlib.two hkey, hdid, rfl⟩⟩
    · intro parsed duration hparse
      obtain ⟨-, -, hidentifier⟩ := parse_eq_of_not_padded hlib hnot hparse
      refine ⟨⟨parsed.identifier⟩, resolveVerificationMethod_of_parse hparse duration, ?_⟩
      rw [hidentifier, rawKeyOf_encode hlib]
      rfl

/-- Both of two strings are read right, and they do not share a key, iff neither
is a padded DID. -/
theorem keys_agree_iff (did did' : String) :
    (Agrees jose varint did ∧ Agrees jose varint did' ∧
        ∀ parsed parsed', parseDIDKey (multiformats jose varint) did = .ok parsed →
          parseDIDKey (multiformats jose varint) did' = .ok parsed' → did ≠ did' →
          parsed.publicKey ≠ parsed'.publicKey) ↔
      ¬Padded longest did ∧ ¬Padded longest did' := by
  rw [agrees_iff hlib, agrees_iff hlib, ← and_assoc]
  apply and_iff_left_of_imp
  intro ⟨hnot, hnot'⟩ parsed parsed' hparse hparse' hne heq
  obtain ⟨-, hdid, -⟩ := parse_eq_of_not_padded hlib hnot hparse
  obtain ⟨-, hdid', -⟩ := parse_eq_of_not_padded hlib hnot' hparse'
  rw [heq] at hdid
  exact hne (hdid.trans hdid'.symm)

end

/-! ## Errors that escape -/

/-- A `did:key` whose identifier decodes to bytes that the varint decoder throws
on. -/
def Unread (lib : Multiformats) (did : String) : Prop :=
  ∃ identifier decoded, did = "did:key:" ++ identifier ∧
    identifier.toList.head? = some 'z' ∧ lib.base58btc identifier = some decoded ∧
    2 ≤ decoded.length ∧ lib.varint decoded = none

theorem decodeMultibaseKey_escapes_iff {lib : Multiformats} {did identifier : String} :
    decodeMultibaseKey lib did identifier = .error .escaped ↔
      identifier.toList.head? = some 'z' ∧ ∃ decoded, lib.base58btc identifier = some decoded ∧
        2 ≤ decoded.length ∧ lib.varint decoded = none := by
  unfold decodeMultibaseKey
  constructor
  · intro h
    by_cases hhead : identifier.toList.head? = some 'z'
    · rw [if_neg (not_not.mpr hhead)] at h
      cases hdecode : lib.base58btc identifier with
      | none =>
        rw [hdecode] at h
        cases h
      | some decoded =>
        simp only [hdecode] at h
        by_cases hlength : decoded.length < 2
        · rw [if_pos hlength] at h
          cases h
        · rw [if_neg hlength] at h
          cases hvarint : lib.varint decoded with
          | none => exact ⟨hhead, decoded, rfl, Nat.le_of_not_lt hlength, hvarint⟩
          | some r =>
            -- after the varint every error is one of the parser's own
            simp only [hvarint, ite_eq_iff, reduceCtorEq, and_false, or_false, Except.error.injEq]
              at h
    · rw [if_pos hhead] at h
      cases h
  · intro ⟨hhead, decoded, hdecode, hlength, hvarint⟩
    rw [if_neg (not_not.mpr hhead), hdecode]
    dsimp only
    rw [if_neg (Nat.not_lt.mpr hlength), hvarint]

theorem parse_escapes_iff {lib : Multiformats} {did : String} :
    parseDIDKey lib did = .error .escaped ↔ Unread lib did := by
  unfold parseDIDKey
  constructor
  · intro h
    cases hparts : validateDIDStructure did with
    | error err =>
      rw [hparts] at h
      cases h
    | ok parts =>
      simp only [hparts] at h
      obtain ⟨-, hdid, -⟩ := validateDIDStructure_ok.mp hparts
      cases hkey : decodeMultibaseKey lib did parts.identifier with
      | ok decodedKey =>
        rw [hkey] at h
        cases h
      | error err =>
        rw [hkey] at h
        cases h
        obtain ⟨hhead, decoded, hdecode⟩ := decodeMultibaseKey_escapes_iff.mp hkey
        exact ⟨parts.identifier, decoded, hdid, hhead, hdecode⟩
  · intro ⟨identifier, decoded, hdid, hhead, hdecode⟩
    have hne : identifier ≠ "" := by
      intro hempty
      rw [hempty] at hhead
      cases hhead
    have hparts : validateDIDStructure did = .ok ⟨"did", "key", identifier⟩ :=
      validateDIDStructure_ok.mpr ⟨hne, hdid, rfl⟩
    simp only [hparts]
    rw [decodeMultibaseKey_escapes_iff.mpr ⟨hhead, decoded, hdecode⟩]

/-- None of the parser's own codes is the one for other errors. -/
theorem text_ne_internalError (code : DIDResolutionErrorCode) : code.text ≠ "internalError" := by
  cases code <;> decide

theorem internalError_iff {lib : Multiformats} {did : String} (duration : Rat) :
    (resolveDIDKey lib did duration).didResolutionMetadata.error = some "internalError" ↔
      Unread lib did := by
  rw [← parse_escapes_iff]
  unfold resolveDIDKey
  cases parseDIDKey lib did with
  | ok parsed =>
    constructor
    · intro h
      cases h
    · intro h
      cases h
  | error err =>
    cases err with
    | escaped => exact ⟨fun _ => rfl, fun _ => rfl⟩
    | resolution err =>
      constructor
      · intro h
        exact absurd (Option.some.inj h) (text_ne_internalError err.code)
      · intro h
        cases h

/-- The error of a string that does not parse is the parser's own, and its
resolution reports no internal error, iff the varint decoder is not called on
bytes it throws on. -/
theorem only_resolution_errors_iff (lib : Multiformats) (did : String) :
    (parseDIDKey lib did ≠ .error .escaped ∧
        ∀ duration, (resolveDIDKey lib did duration).didResolutionMetadata.error ≠
          some "internalError") ↔ ¬Unread lib did := by
  constructor
  · intro h hunread
    exact h.1 (parse_escapes_iff.mpr hunread)
  · intro hread
    exact ⟨fun h => hread (parse_escapes_iff.mp h),
      fun duration h => hread ((internalError_iff duration).mp h)⟩

/-- Two bytes or more that all promise another make such a DID. -/
theorem unread_of_truncated {lib : Multiformats} {longest : Nat} (hlib : Published lib longest)
    {bytes : List UInt8} (hlength : 2 ≤ bytes.length) (hmore : ∀ b ∈ bytes, 128 ≤ b.toNat) :
    Unread lib ("did:key:" ++ Base58.encode bytes) := by
  refine ⟨Base58.encode bytes, bytes, rfl, ?_, (hlib.base58btc _ bytes).mpr rfl, hlength,
    hlib.truncated bytes hmore⟩
  unfold Base58.encode
  rw [String.toList_ofList]
  rfl

end ChainKVM.Gateway.DidKey

/-! ## Decoders -/

namespace ChainKVM.Gateway.Sample

open DidKey

/-- The varint decoder of `multiformats`: from the 148th byte on its powers of 2
are infinite, and an empty byte makes the sum a NaN. -/
def readVarint (bytes : List UInt8) : Option (Js.Num × Nat) :=
  (Varint.read bytes).map fun r => (if r.2 ≤ 147 then .fin (r.1 : Rat) else .nan, r.2)

theorem readVarint_eq_some_iff {bytes : List UInt8} {v n : Nat} :
    readVarint bytes = some (.fin v, n) ↔ Varint.Reads bytes v n ∧ n ≤ 147 := by
  unfold readVarint
  rw [Option.map_eq_some_iff, ← Varint.read_eq_some_iff]
  constructor
  · intro ⟨r, hr, heq⟩
    obtain ⟨hv, hn⟩ := Prod.mk.inj heq
    rw [ite_eq_iff] at hv
    rcases hv with ⟨hle, hv⟩ | ⟨-, hv⟩
    · have hvalue : r.1 = v := by exact_mod_cast Js.Num.fin.inj hv
      rw [hr, ← hvalue, ← hn]
      exact ⟨rfl, hle⟩
    · cases hv
  · intro ⟨hr, hn⟩
    refine ⟨(v, n), hr, ?_⟩
    rw [if_pos hn]

/-- A deployment with the base 58 of the library. -/
def decoding : Jose := { jose with base58btc := Base58.decode }

theorem published : Published (multiformats decoding readVarint) 147 where
  base58btc s bytes := Base58.decode_eq_some_iff
  varint bytes v n _ := readVarint_eq_some_iff
  truncated bytes hmore := by
    show (Varint.read bytes).map _ = none
    rw [Varint.read_eq_none_iff.mpr hmore]
    rfl
  two := by decide

/-- The key of the trusted issuer. -/
def rawKey : List UInt8 := keyBytes.drop 2

theorem base58_issuerKey : Base58.decode issuerKey = some keyBytes := by decide +kernel

/-- The same key after a codec of three bytes. -/
def paddedKey : String := "zQhVUhhTyyGnJk4yEVSkf2iu7GEV7DbpvgygmmcNskejxnWB1"

theorem base58_paddedKey : Base58.decode paddedKey = some (Varint.padded 0 237 ++ rawKey) := by
  rw [padded_codec]
  decide +kernel

theorem base58_truncated : Base58.decode "zAnB" = some [128, 128] := by decide +kernel

end ChainKVM.Gateway.Sample

namespace ChainKVM.Gateway.DidKey

open Gateway.Sample (published decoding readVarint)

/-- The issuer's DID and one of another key. -/
theorem keys_agree_sample :
    (Agrees decoding readVarint (didOf Sample.rawKey) ∧
        Agrees decoding readVarint (didOf (List.replicate 32 7)) ∧
        ∀ parsed parsed',
          parseDIDKey (multiformats decoding readVarint) (didOf Sample.rawKey) = .ok parsed →
          parseDIDKey (multiformats decoding readVarint) (didOf (List.replicate 32 7)) =
            .ok parsed' →
          didOf Sample.rawKey ≠ didOf (List.replicate 32 7) →
          parsed.publicKey ≠ parsed'.publicKey) ↔
      ¬Padded 147 (didOf Sample.rawKey) ∧ ¬Padded 147 (didOf (List.replicate 32 7)) :=
  keys_agree_iff published _ _

open Gateway.Sample in
/-- Two DIDs parse to the issuer's key. From the second the verifier derives
another key. -/
theorem keys_agree_fails :
    parseDIDKey (multiformats decoding readVarint) issuer =
      .ok ⟨issuer, "key", issuerKey, ed25519Codec, rawKey⟩ ∧
    parseDIDKey (multiformats decoding readVarint) ("did:key:" ++ paddedKey) =
      .ok ⟨"did:key:" ++ paddedKey, "key", paddedKey, ed25519Codec, rawKey⟩ ∧
    issuer ≠ "did:key:" ++ paddedKey ∧
    rawKeyOf decoding paddedKey = some (0 :: rawKey) ∧
    ¬Agrees decoding readVarint ("did:key:" ++ paddedKey) := by
  have hshort : issuerKey = Base58.encode ([237, 1] ++ rawKey) :=
    Base58.decode_eq_some_iff.mp base58_issuerKey
  have hpadded := Base58.decode_eq_some_iff.mp base58_paddedKey
  refine ⟨?_, ?_, by decide, ?_, ?_⟩
  · refine (parse_ok_iff_of_published published).mpr
      ⟨[237, 1], rawKey, prefixed_short (by decide) rfl, ?_, ?_⟩
    · rw [← hshort]
      rfl
    · rw [← hshort]
  · refine (parse_ok_iff_of_published published).mpr
      ⟨Varint.padded 0 237, rawKey, prefixed_padded (by decide) rfl, ?_, ?_⟩
    · rw [← hpadded]
    · rw [← hpadded]
  · rw [hpadded, rawKeyOf_encode published, padded_codec]
    rfl
  · intro h
    refine (agrees_iff published _).mp h ⟨0, rawKey, by decide, rfl, ?_⟩
    rw [hpadded]
    rfl

open Gateway.Sample in
/-- The varint of two bytes that promise more throws. -/
theorem only_resolution_errors_fails :
    parseDIDKey (multiformats decoding readVarint) "did:key:zAnB" = .error .escaped ∧
    (resolveDIDKey (multiformats decoding readVarint) "did:key:zAnB" 1).didResolutionMetadata.error =
      some "internalError" := by
  have hunread : Unread (multiformats decoding readVarint) "did:key:zAnB" :=
    ⟨"zAnB", [128, 128], rfl, rfl, base58_truncated, by decide, by decide⟩
  exact ⟨parse_escapes_iff.mpr hunread, (internalError_iff 1).mpr hunread⟩

end ChainKVM.Gateway.DidKey
