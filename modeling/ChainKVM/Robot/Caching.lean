import ChainKVM.Lib.Machine
import ChainKVM.Robot.Sample

/-!
# The token cache is not seen: `manager.go` with and without `token_cache.go`

A hit of the cache replaces the validation of a token, with its signature, its
audience, its session and its dates. It may: what is cached has been validated
for the same text and session, so only the dates can say something else by now.
`nbf` has passed once and for all, and `exp` is what the cache looks at itself,
without the leeway that the validation grants.

For this the library has to be known a little: `JwtVerify.parse` is
golang-jwt's `Parse` over a check of the text and its signature that does not
look at the clock.
-/

namespace ChainKVM.Robot

open Machine (run Always collect)

/-! ## golang-jwt's `Parse` -/

/-- What `Parse` does before it looks at the clock: the parts of the text, the
method, its key and the signature. -/
abbrev JwtVerify :=
  String → (JwtMethod → Except SessionError (List UInt8)) →
    Except JwtFailure (JwtMethod × Json.Members)

namespace JwtVerify

/-- A date claim, in whole seconds: `none` if there is none (0 counts as none),
an error if it is no number. -/
def numericDate (claims : Json.Members) (name : String) : Except Unit (Option Time) :=
  match claims.lookup name with
  | none => .ok none
  | some (.num q) => .ok (if q = 0 then none else some (TokenValidator.truncate q * second))
  | some _ => .error ()

def expired (claims : Json.Members) (leeway : Duration) (now : Time) : Bool :=
  match numericDate claims "exp" with
  | .ok (some exp) => ¬ now < exp + leeway
  | _ => false

def notValidYet (claims : Json.Members) (leeway : Duration) (now : Time) : Bool :=
  match numericDate claims "nbf" with
  | .ok (some nbf) => now < nbf - leeway
  | _ => false

/-- Both dates are numbers, if they are there. -/
def typed (claims : Json.Members) : Bool :=
  (numericDate claims "exp").isOk && (numericDate claims "nbf").isOk

/-- `Parse`: the dates are checked last. -/
def parse (verify : JwtVerify) : JwtParse := fun token keyFunc leeway now =>
  match verify token keyFunc with
  | .error err => .error err
  | .ok (method, claims) =>
    if typed claims && !expired claims leeway now && !notValidYet claims leeway now then
      .ok ⟨method, claims, true⟩
    else .error ⟨expired claims leeway now, false, false, notValidYet claims leeway now⟩

/-- What a token says does not depend on when it is asked. -/
theorem parse_ok_iff {verify : JwtVerify} {token : String}
    {keyFunc : JwtMethod → Except SessionError (List UInt8)} {leeway : Duration} {now : Time}
    {t : JwtToken} :
    verify.parse token keyFunc leeway now = .ok t ↔
      verify token keyFunc = .ok (t.method, t.claims) ∧ t.valid = true ∧ typed t.claims = true ∧
        expired t.claims leeway now = false ∧ notValidYet t.claims leeway now = false := by
  unfold parse
  obtain ⟨method, claims, valid⟩ := t
  cases hverify : verify token keyFunc with
  | error err => simp
  | ok said =>
    obtain ⟨method', claims'⟩ := said
    simp only [Except.ok.injEq, Prod.mk.injEq]
    constructor
    · intro h
      split at h
      next hdates =>
        cases h
        simpa [and_assoc] using hdates
      · cases h
    · rintro ⟨⟨rfl, rfl⟩, rfl, htyped, hexp, hnbf⟩
      rw [if_pos (by simp [htyped, hexp, hnbf])]

end JwtVerify

namespace TokenValidator

open JwtVerify (numericDate typed expired notValidYet)

/-- What a token says that the validator accepts at this time. -/
structure Accepts (v : TokenValidator) (verify : JwtVerify) (now : Time) (tok sid : String)
    (said : Json.Members) (claims : TokenClaims) : Prop where
  nonempty : tok ≠ ""
  verified : ∃ method, verify tok v.keyFunc = .ok (method, said)
  typed : typed said = true
  unexpired : expired said v.clockSkew now = false
  mature : notValidYet said v.clockSkew now = false
  extracted : v.extractClaims said sid = .ok claims

theorem validate_ok_iff {v : TokenValidator} {verify : JwtVerify} {now : Time} {tok sid : String}
    {claims : TokenClaims} :
    v.validate verify.parse now tok sid = .ok claims ↔
      ∃ said, v.Accepts verify now tok sid said claims := by
  unfold validate
  constructor
  · intro h
    split at h
    · cases h
    next hempty =>
      split at h
      · cases h
      next token hparse =>
        obtain ⟨hverify, hvalid, htyped, hexp, hnbf⟩ := JwtVerify.parse_ok_iff.mp hparse
        rw [hvalid, if_neg (by simp)] at h
        exact ⟨token.claims, hempty, ⟨token.method, hverify⟩, htyped, hexp, hnbf, h⟩
  · rintro ⟨said, hempty, ⟨method, hverify⟩, htyped, hexp, hnbf, hextracted⟩
    have hparse : verify.parse tok v.keyFunc v.clockSkew now = .ok ⟨method, said, true⟩ :=
      JwtVerify.parse_ok_iff.mpr ⟨hverify, rfl, htyped, hexp, hnbf⟩
    rw [if_neg hempty, hparse]
    exact hextracted

/-- The validator says the same of a token whenever it accepts it. -/
theorem validate_unique {v : TokenValidator} {verify : JwtVerify} {t t' : Time} {tok sid : String}
    {claims claims' : TokenClaims} (h : v.validate verify.parse t tok sid = .ok claims)
    (h' : v.validate verify.parse t' tok sid = .ok claims') : claims = claims' := by
  obtain ⟨said, ha⟩ := validate_ok_iff.mp h
  obtain ⟨said', ha'⟩ := validate_ok_iff.mp h'
  obtain ⟨method, hverify⟩ := ha.verified
  obtain ⟨method', hverify'⟩ := ha'.verified
  cases hverify.symm.trans hverify'
  exact Except.ok.inj (ha.extracted.symm.trans ha'.extracted)

/-- Whatever else it says, an accepted token has not expired before the date
that its claims carry. -/
theorem unexpired_of_expiresAt {v : TokenValidator} {said : Json.Members} {sid : String}
    {claims : TokenClaims} (hextracted : v.extractClaims said sid = .ok claims) {now : Time}
    (hexp : now ≤ claims.expiresAt) {leeway : Duration} (hleeway : 0 < leeway) :
    expired said leeway now = false := by
  unfold extractClaims at hextracted
  split at hextracted
  · cases hextracted
  · split at hextracted
    · cases hextracted
    · cases hextracted
      unfold expired numericDate
      cases hlookup : said.lookup "exp" with
      | none => rfl
      | some date =>
        cases date with
        | num q =>
          simp only [hlookup, Option.bind_some, Json.asNumber] at hexp
          by_cases hq : q = 0
          · simp [hq]
          · have hbefore : now < truncate q * second + leeway :=
              Int.lt_of_le_of_lt hexp (Int.lt_add_of_pos_right _ hleeway)
            simp [hq, hbefore]
        | _ => rfl

/-- What has been accepted is accepted until it expires. -/
theorem validate_later {v : TokenValidator} (hskew : 0 < v.clockSkew) {verify : JwtVerify}
    {t now : Time} {tok sid : String} {claims : TokenClaims}
    (h : v.validate verify.parse t tok sid = .ok claims) (hlater : t ≤ now)
    (hexp : now ≤ claims.expiresAt) : v.validate verify.parse now tok sid = .ok claims := by
  obtain ⟨said, ha⟩ := validate_ok_iff.mp h
  refine validate_ok_iff.mpr ⟨said, ha.nonempty, ha.verified, ha.typed,
    unexpired_of_expiresAt ha.extracted hexp hskew, ?_, ha.extracted⟩
  -- `nbf` has passed, and time has gone on
  have hmature := ha.mature
  unfold notValidYet at hmature ⊢
  split
  next nbf hnbf =>
    rw [hnbf] at hmature
    simp only [decide_eq_false_iff_not] at hmature ⊢
    exact fun hnow => hmature (Int.lt_of_le_of_lt hlater hnow)
  · rfl

end TokenValidator

/-! ## Histories of one manager -/

/-- A method of the manager that is called, or the passing of time. -/
inductive ManagerOp where
  | validateToken (sessionID token : String)
  | activate (info : Info)
  | terminate
  | reset
  | elapse (d : Nat)

/-- What a method returns. -/
inductive ManagerAnswer where
  | validated (result : Except SessionError Info)
  | activated (result : Except SessionError Unit)

/-- A manager and the clock. -/
structure ManagerRun where
  now : Time
  manager : Manager

namespace ManagerRun

def step (parse : JwtParse) (s : ManagerRun) : ManagerOp → ManagerRun
  | .validateToken sid tok => { s with manager := (s.manager.validateToken parse s.now sid tok).2 }
  | .activate info => { s with manager := (s.manager.activate info).2 }
  | .terminate => { s with manager := s.manager.terminate }
  | .reset => { s with manager := s.manager.reset }
  | .elapse d => { s with now := s.now + d }

def answer (parse : JwtParse) (s : ManagerRun) : ManagerOp → Option ManagerAnswer
  | .validateToken sid tok => some (.validated (s.manager.validateToken parse s.now sid tok).1)
  | .activate info => some (.activated (s.manager.activate info).1)
  | _ => none

end ManagerRun

theorem TokenCache.unexpired_of_get {c : TokenCache} {now : Time} {jti sid : String}
    {claims : TokenClaims} (h : c.get now jti sid = some claims) : now ≤ claims.expiresAt := by
  unfold get at h
  split at h
  · cases h
  · split at h
    · cases h
    · split at h
      · cases h
      · split at h
        · cases h
        next hexp =>
          cases h
          exact Int.not_lt.mp hexp

namespace Manager

/-- The manager without its cache. -/
def uncached (m : Manager) : Manager := { m with tokenCache := none }

/-- What the cache answers. -/
def cached (m : Manager) (now : Time) (sid tok : String) : Option TokenClaims :=
  m.tokenCache.bind fun c => c.get now tok sid

/-- What the cache holds has been accepted when it was cached. -/
def CacheFresh (m : Manager) (verify : JwtVerify) (v : TokenValidator) (now : Time) : Prop :=
  m.validator = some v ∧ m.CacheAll fun e =>
    e.cachedAt ≤ now ∧ v.validate verify.parse e.cachedAt e.key e.validFor = .ok e.claims

variable {m : Manager} {verify : JwtVerify} {v : TokenValidator} {now : Time}

/-- A hit says what the validation would say. -/
theorem CacheFresh.validate (hm : m.CacheFresh verify v now) (hskew : 0 < v.clockSkew)
    {sid tok : String} {claims : TokenClaims} (hcached : m.cached now sid tok = some claims) :
    v.validate verify.parse now tok sid = .ok claims := by
  obtain ⟨c, hc, hget⟩ := Option.bind_eq_some_iff.mp hcached
  obtain ⟨e, he, rfl, rfl, rfl⟩ := TokenCache.mem_of_get hget
  obtain ⟨hpast, hvalid⟩ := hm.2 c hc e he
  exact TokenValidator.validate_later hskew hvalid hpast (TokenCache.unexpired_of_get hget)

section Lookup

variable {parse : JwtParse} (hstate : m.state ≠ .terminated) (hv : m.validator = some v)
  {sid tok : String}

include hstate hv

theorem validateToken_hit {claims : TokenClaims} (hhit : m.cached now sid tok = some claims) :
    m.validateToken parse now sid tok = (.ok (m.claimsToInfo claims), m) := by
  unfold cached at hhit
  simp only [validateToken, if_neg hstate, hv, hhit]

theorem validateToken_rejected (hmiss : m.cached now sid tok = none) {err : SessionError}
    (hvalid : v.validate parse now tok sid = .error err) :
    m.validateToken parse now sid tok = (.error err, m) := by
  unfold cached at hmiss
  simp only [validateToken, if_neg hstate, hv, hmiss, hvalid]

theorem validateToken_accepted (hmiss : m.cached now sid tok = none) {claims : TokenClaims}
    (hvalid : v.validate parse now tok sid = .ok claims) :
    m.validateToken parse now sid tok = (.ok (m.claimsToInfo claims),
      { m with tokenCache := m.tokenCache.map fun c => c.set now tok sid claims }) := by
  unfold cached at hmiss
  simp only [validateToken, if_neg hstate, hv, hmiss, hvalid]

end Lookup

/-- The cache is not seen in what `validateToken` returns and leaves. -/
theorem CacheFresh.validateToken_uncached (hm : m.CacheFresh verify v now)
    (hskew : 0 < v.clockSkew) (sid tok : String) :
    (m.uncached.validateToken verify.parse now sid tok).1 =
        (m.validateToken verify.parse now sid tok).1 ∧
      (m.uncached.validateToken verify.parse now sid tok).2 =
        (m.validateToken verify.parse now sid tok).2.uncached := by
  by_cases hstate : m.state = .terminated
  · have hover : m.uncached.state = .terminated := hstate
    unfold Manager.validateToken
    rw [if_pos hstate, if_pos hover]
    exact ⟨rfl, rfl⟩
  · have hopen : m.uncached.state ≠ .terminated := hstate
    cases hhit : m.cached now sid tok with
    | some claims =>
      -- the manager without a cache validates what the other one remembers
      rw [validateToken_hit hstate hm.1 hhit,
        validateToken_accepted hopen hm.1 rfl (hm.validate hskew hhit)]
      exact ⟨rfl, rfl⟩
    | none =>
      cases hvalid : v.validate verify.parse now tok sid with
      | error err =>
        rw [validateToken_rejected hstate hm.1 hhit hvalid,
          validateToken_rejected hopen hm.1 rfl hvalid]
        exact ⟨rfl, rfl⟩
      | ok claims =>
        rw [validateToken_accepted hstate hm.1 hhit hvalid,
          validateToken_accepted hopen hm.1 rfl hvalid]
        exact ⟨rfl, rfl⟩

theorem CacheFresh.validateToken (hm : m.CacheFresh verify v now) (sid tok : String) :
    (m.validateToken verify.parse now sid tok).2.CacheFresh verify v now := by
  refine ⟨(validateToken_same m verify.parse now sid tok).1.trans hm.1, hm.2.validateToken ?_⟩
  intro v' claims hv' hvalid
  obtain rfl : v = v' := Option.some.inj (hm.1.symm.trans hv')
  exact ⟨Int.le_refl _, hvalid⟩

theorem CacheFresh.activate (hm : m.CacheFresh verify v now) (info : Info) :
    (m.activate info).2.CacheFresh verify v now :=
  ⟨(activate_same m info).1.trans hm.1, hm.2.activate info⟩

theorem CacheFresh.terminate (hm : m.CacheFresh verify v now) :
    m.terminate.CacheFresh verify v now :=
  ⟨(terminate_same m).1.trans hm.1, hm.2.terminate⟩

theorem activate_uncached (m : Manager) (info : Info) :
    (m.uncached.activate info).1 = (m.activate info).1 ∧
      (m.uncached.activate info).2 = (m.activate info).2.uncached := by
  unfold Manager.activate
  by_cases hactive : m.state = .active
  · rw [if_pos hactive, if_pos (show m.uncached.state = .active from hactive)]
    exact ⟨rfl, rfl⟩
  · rw [if_neg hactive, if_neg (show m.uncached.state ≠ .active from hactive)]
    by_cases hover : m.state = .terminated
    · rw [if_pos hover, if_pos (show m.uncached.state = .terminated from hover)]
      exact ⟨rfl, rfl⟩
    · rw [if_neg hover, if_neg (show m.uncached.state ≠ .terminated from hover)]
      exact ⟨rfl, rfl⟩

theorem terminate_uncached (m : Manager) : m.uncached.terminate = m.terminate.uncached := by
  unfold Manager.terminate
  by_cases hover : m.state = .terminated
  · rw [if_pos hover, if_pos (show m.uncached.state = .terminated from hover)]
  · rw [if_neg hover, if_neg (show m.uncached.state ≠ .terminated from hover)]
    cases hi : m.info <;> simp [uncached, hi]

end Manager

/-! ## With and without -/

namespace ManagerRun

/-- The same moment with a manager that has no cache. -/
def uncached (s : ManagerRun) : ManagerRun := { s with manager := s.manager.uncached }

/-- In every state of the history, a hit of the cache for a token and a session
says what the validator says of them at that time. -/
def HitsValid (verify : JwtVerify) (v : TokenValidator) : ManagerRun → List ManagerOp → Prop :=
  Always (step verify.parse) fun s => ∀ sid tok claims, s.manager.cached s.now sid tok = some claims →
    v.validate verify.parse s.now tok sid = .ok claims

variable {verify : JwtVerify} {v : TokenValidator}

theorem cacheFresh_step {s : ManagerRun} (hs : s.manager.CacheFresh verify v s.now)
    (op : ManagerOp) :
    (s.step verify.parse op).manager.CacheFresh verify v (s.step verify.parse op).now := by
  cases op with
  | validateToken sid tok => exact hs.validateToken sid tok
  | activate info => exact hs.activate info
  | terminate => exact hs.terminate
  | reset => exact hs
  | elapse d =>
    refine ⟨hs.1, fun c hc e he => ?_⟩
    obtain ⟨hpast, hvalid⟩ := hs.2 c hc e he
    exact ⟨Int.le_trans hpast (Int.le_add_of_nonneg_right (Int.natCast_nonneg d)), hvalid⟩

/-- A step of the uncached manager is the same step, with the same answer. -/
theorem uncached_step (hskew : 0 < v.clockSkew) {s : ManagerRun}
    (hs : s.manager.CacheFresh verify v s.now) (op : ManagerOp) :
    s.uncached.step verify.parse op = (s.step verify.parse op).uncached ∧
      s.uncached.answer verify.parse op = s.answer verify.parse op := by
  obtain ⟨now, m⟩ := s
  cases op with
  | validateToken sid tok =>
    obtain ⟨hanswer, hstep⟩ := hs.validateToken_uncached hskew sid tok
    simp only [uncached, step, answer]
    rw [hanswer, hstep]
    exact ⟨rfl, rfl⟩
  | activate info =>
    obtain ⟨hanswer, hstep⟩ := m.activate_uncached info
    simp only [uncached, step, answer]
    rw [hanswer, hstep]
    exact ⟨rfl, rfl⟩
  | terminate => exact ⟨congrArg (ManagerRun.mk now) m.terminate_uncached, rfl⟩
  | reset | elapse d => exact ⟨rfl, rfl⟩

/-- In every history a manager answers as it would without its cache, and its
cache says nothing that the validator would not. -/
theorem cache_unseen (verify : JwtVerify) (v : TokenValidator) (hskew : 0 < v.clockSkew)
    (robotID : String) (now : Time) (ops : List ManagerOp) :
    collect (step verify.parse) (answer verify.parse) ⟨now, .new robotID (some v)⟩ ops =
        collect (step verify.parse) (answer verify.parse)
          (uncached ⟨now, .new robotID (some v)⟩) ops ∧
      HitsValid verify v ⟨now, .new robotID (some v)⟩ ops := by
  have hstart : (Manager.new robotID (some v)).CacheFresh verify v now :=
    ⟨rfl, Manager.new_cacheAll robotID (some v) _⟩
  constructor
  · refine Machine.collect_eq_of_simulation
      (R := fun s s' => s' = s.uncached ∧ s.manager.CacheFresh verify v s.now) ?_ ?_ ops ⟨rfl, hstart⟩
    · rintro s _ op ⟨rfl, hs⟩
      exact ⟨(uncached_step hskew hs op).1, cacheFresh_step hs op⟩
    · rintro s _ op ⟨rfl, hs⟩
      exact (uncached_step hskew hs op).2.symm
  · have hfresh : Always (step verify.parse)
        (fun s => s.manager.CacheFresh verify v s.now) ⟨now, .new robotID (some v)⟩ ops :=
      Machine.always_of_step (fun _ _ hs => cacheFresh_step hs _) hstart
    refine Machine.Always.imp (fun s hs => ?_) hfresh
    intro sid tok claims hhit
    exact hs.validate hskew hhit

/-- What the sample's parser does before it looks at the clock. -/
def sampleVerify : JwtVerify := fun token keyFunc =>
  (Sample.parse token keyFunc 0 0).map fun t => (t.method, t.claims)

def sampleStart : ManagerRun := ⟨Sample.now, .new "robot-1" Sample.validator⟩

/-- The second look at the token of `s1` is a hit, and the third is too late
for one. -/
def sampleHistory : List ManagerOp :=
  [.validateToken "s1" Sample.token1, .elapse 1000000000, .validateToken "s1" Sample.token1,
    .activate Sample.info, .elapse 60000000000, .validateToken "s1" Sample.token1]

theorem cache_unseen_sample :
    collect (step sampleVerify.parse) (answer sampleVerify.parse) sampleStart sampleHistory =
      collect (step sampleVerify.parse) (answer sampleVerify.parse) sampleStart.uncached
        sampleHistory :=
  (cache_unseen sampleVerify ⟨Sample.publicKey, "robot-1", 30 * second⟩ (by decide) "robot-1"
    Sample.now sampleHistory).1

end ManagerRun

end ChainKVM.Robot
