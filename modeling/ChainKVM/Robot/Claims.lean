import Mathlib.Algebra.Order.Field.Basic
import Mathlib.Tactic.NormNum
import ChainKVM.Robot.Caching

/-!
# What an accepted token says

The document of the robot agent lists the claims of a token, and `sub`,
`scope`, `exp` and `nonce` are among those that are required. `Validate` is to
let a token pass only if it is signed by the configured key, is for this robot
and this session, has not expired, and has these claims, and it is to return
them as they are (`Warranted`).

The signature, `aud` and `sid` are checked. The rest is read with assertions
whose failure nobody looks at, and the library requires no `exp`; so a token
gets through without these claims, and the date of one that does say when it
expires is rounded (`validate_warranted_iff`).

golang-jwt is known here by what its `Parse` documents: the claims are those of
the text, and the key function gives a key under which the text is signed.
-/

namespace ChainKVM.Robot

namespace JwtVerify

/-- What `Parse` promises when it succeeds. `payload` are the claims of a text,
and `signed` says that its signature is good for a method and a key. -/
def Documented (verify : JwtVerify) (payload : String → Option Json.Members)
    (signed : String → JwtMethod → List UInt8 → Prop) : Prop :=
  ∀ tok keyFunc method said, verify tok keyFunc = .ok (method, said) →
    payload tok = some said ∧ ∃ key, keyFunc method = .ok key ∧ signed tok method key

end JwtVerify

namespace TokenValidator

/-- What a token that says `said` should say for `claims` to be returned. -/
structure Warranted (v : TokenValidator) (signed : String → JwtMethod → List UInt8 → Prop)
    (now : Time) (tok sid : String) (said : Json.Members) (claims : TokenClaims) : Prop where
  signature : signed tok .ed25519 v.publicKey
  audience : said.lookup "aud" = some (.str v.robotID)
  session : said.lookup "sid" = some (.str sid) ∧ claims.sessionID = sid
  subject : said.lookup "sub" = some (.str claims.subject)
  nonce : said.lookup "nonce" = some (.str claims.nonce)
  scope : said.lookup "scope" = some (.arr (claims.scope.map .str))
  expiry : ∃ exp, said.lookup "exp" = some (.num exp) ∧
    (claims.expiresAt : Rat) = exp * (second : Int) ∧
      (now : Rat) < exp * (second : Int) + (v.clockSkew : Int)

/-- The token has the claims that are required, with an expiry in whole
seconds. (An expiry of 0 counts as none; it is fine for as long as it is not
reached.) -/
structure Complete (v : TokenValidator) (now : Time) (said : Json.Members) : Prop where
  subject : ∃ s, said.lookup "sub" = some (.str s)
  nonce : ∃ s, said.lookup "nonce" = some (.str s)
  scope : ∃ scope : List String, said.lookup "scope" = some (.arr (scope.map .str))
  expiry : ∃ exp : Int, said.lookup "exp" = some (.num exp) ∧ (exp ≠ 0 ∨ now < v.clockSkew)

/-! ## Reading the claims -/

theorem asString_eq_some {j : Json} {s : String} : j.asString = some s ↔ j = .str s := by
  cases j with
  | str t =>
    constructor
    · intro h
      rw [Option.some.inj h]
    · intro h
      rw [Json.str.inj h]
      rfl
  | _ =>
    constructor
    · intro h
      cases h
    · intro h
      cases h

theorem bind_asString_eq_some {j : Option Json} {s : String} :
    j.bind Json.asString = some s ↔ j = some (.str s) := by
  cases j with
  | none => exact ⟨fun h => absurd h nofun, fun h => absurd h nofun⟩
  | some j =>
    rw [Option.bind_some, asString_eq_some]
    exact ⟨fun h => congrArg some h, fun h => Option.some.inj h⟩

/-- A string claim that is there is returned. -/
theorem stringClaim_of_lookup {said : Json.Members} {name s : String}
    (h : said.lookup name = some (.str s)) : stringClaim said name = s := by
  rw [stringClaim, h]
  rfl

theorem filterMap_asString_map (scope : List String) :
    (scope.map Json.str).filterMap Json.asString = scope := by
  induction scope with
  | nil => rfl
  | cons s scope ih =>
    have hread : (Json.str s).asString = some s := rfl
    rw [List.map_cons, List.filterMap_cons_some hread, ih]

theorem extractScope_of_lookup {said : Json.Members} {scope : List String}
    (h : said.lookup "scope" = some (.arr (scope.map .str))) : extractScope said = scope := by
  rw [extractScope, h]
  exact filterMap_asString_map scope

theorem truncate_intCast (n : Int) : truncate n = n := by
  unfold truncate
  split
  · exact Rat.floor_intCast n
  · exact Rat.ceil_intCast n

/-- The claims of a token that `extractClaims` accepts. -/
theorem extractClaims_ok {v : TokenValidator} {said : Json.Members} {sid : String}
    {claims : TokenClaims} (h : v.extractClaims said sid = .ok claims) :
    said.lookup "aud" = some (.str v.robotID) ∧ said.lookup "sid" = some (.str sid) ∧
      claims.sessionID = sid ∧ claims.subject = stringClaim said "sub" ∧
      claims.nonce = stringClaim said "nonce" ∧ claims.scope = extractScope said ∧
      ∀ exp, said.lookup "exp" = some (.num exp) → claims.expiresAt = truncate exp * second := by
  unfold extractClaims at h
  split at h
  · cases h
  next haud =>
    split at h
    · cases h
    next hsid =>
      cases h
      refine ⟨bind_asString_eq_some.mp (Decidable.not_not.mp haud),
        bind_asString_eq_some.mp (Decidable.not_not.mp hsid), rfl, rfl, rfl, rfl, ?_⟩
      intro exp hexp
      rw [hexp]
      rfl

/-- A token that has an expiry has not expired. -/
theorem Accepts.before_expiry {v : TokenValidator} {verify : JwtVerify} {now : Time}
    {tok sid : String} {said : Json.Members} {claims : TokenClaims}
    (h : v.Accepts verify now tok sid said claims) {exp : Int}
    (hexp : said.lookup "exp" = some (.num exp)) (hne : exp ≠ 0) :
    now < exp * second + v.clockSkew := by
  have hdate : JwtVerify.numericDate said "exp" = .ok (some (exp * second)) := by
    rw [JwtVerify.numericDate, hexp]
    simp [hne, truncate_intCast]
  have hunexpired := h.unexpired
  rw [JwtVerify.expired, hdate] at hunexpired
  simpa using hunexpired

/-! ## Accepted tokens -/

variable {v : TokenValidator} {verify : JwtVerify} {payload : String → Option Json.Members}
  {signed : String → JwtMethod → List UInt8 → Prop} {now : Time} {tok sid : String}
  {said : Json.Members} {claims : TokenClaims}

theorem Accepts.signature (hverify : verify.Documented payload signed)
    (h : v.Accepts verify now tok sid said claims) :
    payload tok = some said ∧ signed tok .ed25519 v.publicKey := by
  obtain ⟨method, hverified⟩ := h.verified
  obtain ⟨hpayload, key, hkey, hsigned⟩ := hverify tok v.keyFunc method said hverified
  refine ⟨hpayload, ?_⟩
  cases method with
  | ed25519 =>
    cases hkey
    exact hsigned
  | other alg => cases hkey

theorem Accepts.warranted (hverify : verify.Documented payload signed)
    (h : v.Accepts verify now tok sid said claims) (hcomplete : v.Complete now said) :
    v.Warranted signed now tok sid said claims := by
  obtain ⟨haud, hsid, hsession, hsubject, hnonce, hscope, hexpires⟩ :=
    extractClaims_ok h.extracted
  obtain ⟨sub, hsub⟩ := hcomplete.subject
  obtain ⟨nonce, hnonce'⟩ := hcomplete.nonce
  obtain ⟨scope, hscope'⟩ := hcomplete.scope
  obtain ⟨exp, hexp, hdate⟩ := hcomplete.expiry
  have hexpiresAt : claims.expiresAt = exp * second := by
    rw [hexpires exp hexp, truncate_intCast]
  have hbefore : now < exp * second + v.clockSkew := by
    -- the library takes an `exp` of 0 for none, so its check says nothing there
    by_cases hzero : exp = 0
    · rw [hzero, Int.zero_mul, Int.zero_add]
      exact hdate.resolve_left fun hne => hne hzero
    · exact h.before_expiry hexp hzero
  refine ⟨(h.signature hverify).2, haud, ⟨hsid, hsession⟩, ?_, ?_, ?_, exp, hexp, ?_, ?_⟩
  · rw [hsubject, stringClaim_of_lookup hsub, hsub]
  · rw [hnonce, stringClaim_of_lookup hnonce', hnonce']
  · rw [hscope, extractScope_of_lookup hscope', hscope']
  · rw [hexpiresAt]
    push_cast
    rfl
  · exact_mod_cast hbefore

theorem Accepts.complete (h : v.Accepts verify now tok sid said claims)
    (hwarranted : v.Warranted signed now tok sid said claims) : v.Complete now said := by
  obtain ⟨exp, hexp, hexact, hbefore⟩ := hwarranted.expiry
  refine ⟨⟨_, hwarranted.subject⟩, ⟨_, hwarranted.nonce⟩, ⟨_, hwarranted.scope⟩, ?_⟩
  -- the date that is returned is a whole number of seconds
  have hexpires := (extractClaims_ok h.extracted).2.2.2.2.2.2 exp hexp
  have hwhole : exp = truncate exp := by
    rw [hexpires] at hexact
    have hsecond : ((second : Int) : Rat) ≠ 0 := by norm_num [second]
    push_cast at hexact
    exact (mul_right_cancel₀ hsecond hexact).symm
  refine ⟨truncate exp, hwhole ▸ hexp, ?_⟩
  by_cases hzero : truncate exp = 0
  · right
    rw [hwhole, hzero] at hbefore
    simp only [Int.cast_zero, zero_mul, zero_add] at hbefore
    exact_mod_cast hbefore
  · exact .inl hzero

/-- Of a token that `Validate` accepts, everything holds that should iff it has
the claims that are required, with an expiry in whole seconds. -/
theorem validate_warranted_iff (v : TokenValidator) (verify : JwtVerify)
    (payload : String → Option Json.Members) (signed : String → JwtMethod → List UInt8 → Prop)
    (hverify : verify.Documented payload signed) (now : Time) (tok sid : String)
    (claims : TokenClaims) (haccepted : v.validate verify.parse now tok sid = .ok claims) :
    ∃ said, payload tok = some said ∧
      (v.Warranted signed now tok sid said claims ↔ v.Complete now said) := by
  obtain ⟨said, h⟩ := validate_ok_iff.mp haccepted
  exact ⟨said, (h.signature hverify).1, h.complete, h.warranted hverify⟩

/-! ## A token that says nothing but its robot and its session -/

def bareKey : List UInt8 :=
  [59, 106, 39, 188, 206, 182, 164, 45, 98, 163, 168, 208, 42, 111, 13, 115, 101, 50, 21, 119, 29,
    226, 67, 166, 58, 192, 72, 161, 139, 89, 218, 41]

def bareToken : String :=
  "eyJhbGciOiJFZERTQSJ9.eyJhdWQiOiJyb2JvdC0xIiwic2lkIjoiczEifQ." ++
  "yFtI5v7nkD4Q2icUURUsDfPjdwkdfIdoQ4BRq9oI_Aywe4AwfK7zvXYPb_9qpZnGSC-L14SKRo02Fj66JicbDA"

def bareSaid : Json.Members := [("aud", .str "robot-1"), ("sid", .str "s1")]

def barePayload (tok : String) : Option Json.Members :=
  if tok = bareToken then some bareSaid else none

def bareSigned (tok : String) (method : JwtMethod) (key : List UInt8) : Prop :=
  tok = bareToken ∧ method = .ed25519 ∧ key = bareKey

def bareVerify : JwtVerify := fun tok keyFunc =>
  if tok = bareToken then
    match keyFunc .ed25519 with
    | .error _ => .error ⟨false, true, false, false⟩
    | .ok key =>
      if key = bareKey then .ok (.ed25519, bareSaid) else .error ⟨false, true, false, false⟩
  else .error ⟨false, false, true, false⟩

theorem bareVerify_documented : bareVerify.Documented barePayload bareSigned := by
  intro tok keyFunc method said h
  unfold bareVerify at h
  split at h
  next htok =>
    split at h
    · cases h
    next key hkey =>
      split at h
      next hsame =>
        cases h
        exact ⟨if_pos htok, key, hkey, htok, rfl, hsame⟩
      · cases h
  · cases h

def bareValidator : TokenValidator := ⟨bareKey, "robot-1", 30 * second⟩

def bareClaims : TokenClaims := ⟨"", "s1", "", [], "", zeroTime⟩

theorem bareToken_accepted :
    bareValidator.validate bareVerify.parse Sample.now bareToken "s1" = .ok bareClaims := by
  refine validate_ok_iff.mpr ⟨bareSaid, by decide, ⟨.ed25519, ?_⟩, rfl, rfl, rfl, ?_⟩
  · simp [bareVerify, bareValidator, keyFunc]
  · rfl

theorem validate_warranted_iff_bare :
    ∃ said, barePayload bareToken = some said ∧
      (bareValidator.Warranted bareSigned Sample.now bareToken "s1" said bareClaims ↔
        bareValidator.Complete Sample.now said) :=
  validate_warranted_iff bareValidator bareVerify barePayload bareSigned bareVerify_documented
    Sample.now bareToken "s1" bareClaims bareToken_accepted

/-- The token is accepted, without an expiry. -/
theorem validate_warranted_fails :
    ¬ ∀ (v : TokenValidator) (verify : JwtVerify) (payload : String → Option Json.Members)
      (signed : String → JwtMethod → List UInt8 → Prop), verify.Documented payload signed →
      ∀ (now : Time) (tok sid : String) (claims : TokenClaims),
        v.validate verify.parse now tok sid = .ok claims →
          ∃ said, payload tok = some said ∧ v.Warranted signed now tok sid said claims := by
  intro h
  obtain ⟨said, hsaid, hwarranted⟩ := h bareValidator bareVerify barePayload bareSigned
    bareVerify_documented Sample.now bareToken "s1" bareClaims bareToken_accepted
  rw [barePayload, if_pos rfl] at hsaid
  obtain ⟨exp, hexp, -⟩ := hwarranted.expiry
  rw [← Option.some.inj hsaid] at hexp
  cases hexp

end TokenValidator

end ChainKVM.Robot
