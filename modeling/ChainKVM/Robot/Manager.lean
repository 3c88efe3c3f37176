import ChainKVM.Robot.Token

/-!
# The session manager: `internal/session/manager.go`

One `Manager` serves the whole process: it is pending until the first
`activate`, active until `terminate`, and terminated from then on (the agent
never calls `reset`). Each definition is one method, that is, one critical
section of the Go mutex. The state-change callback only writes a log line and
is left out.

That a session has an `Info` exactly while it is active is a field of the
structure, so no method can break it.
-/

namespace ChainKVM.Robot

/-- `State` of the session package. -/
inductive SessionState where
  | pending
  | active
  | terminated
  deriving DecidableEq, Repr

/-- `Info`. -/
structure Info where
  sessionID : String
  operatorDID : String
  robotID : String
  scope : List String
  expiresAt : Time
  deriving DecidableEq, Repr

/-- `Manager`. -/
structure Manager where
  robotID : String
  validator : Option TokenValidator
  tokenCache : Option TokenCache
  state : SessionState
  info : Option Info
  live : info.isSome = true ↔ state = .active

namespace Manager

/-- `DefaultTokenCacheTTL`. -/
def defaultTokenCacheTTL : Duration := 30 * second

/-- `NewManager`. -/
def new (robotID : String) (validator : Option TokenValidator) : Manager where
  robotID := robotID
  validator := validator
  tokenCache := some (.new defaultTokenCacheTTL)
  state := .pending
  info := none
  live := by simp

/-- `IsActive`. -/
def isActive (m : Manager) : Bool := m.state = .active

/-- `claimsToInfo`. -/
def claimsToInfo (m : Manager) (claims : TokenClaims) : Info where
  sessionID := claims.sessionID
  operatorDID := claims.subject
  robotID := m.robotID
  scope := claims.scope
  expiresAt := claims.expiresAt

/-- `ValidateToken`: the cached claims of the token string if they are still
good for the session, else a full validation, whose claims are cached. -/
def validateToken (m : Manager) (parse : JwtParse) (now : Time) (sessionID token : String) :
    Except SessionError Info × Manager :=
  if m.state = .terminated then (.error .sessionTerminated, m)
  else
    match m.validator with
    | none => (.error .invalidToken, m)
    | some v =>
      match m.tokenCache.bind fun c => c.get now token sessionID with
      | some cached => (.ok (m.claimsToInfo cached), m)
      | none =>
        match v.validate parse now token sessionID with
        | .error err => (.error err, m)
        | .ok claims =>
          (.ok (m.claimsToInfo claims),
            { m with tokenCache := m.tokenCache.map fun c => c.set now token sessionID claims })

/-- `Activate`. -/
def activate (m : Manager) (info : Info) : Except SessionError Unit × Manager :=
  if m.state = .active then (.error .sessionExists, m)
  else if m.state = .terminated then (.error .sessionTerminated, m)
  else (.ok (), { m with state := .active, info := some info, live := by simp })

/-- `Terminate`: also drops the cached tokens of the session it ends. -/
def terminate (m : Manager) : Manager :=
  if m.state = .terminated then m
  else
    { m with
      tokenCache :=
        match m.info with
        | none => m.tokenCache
        | some info => m.tokenCache.map fun c => c.invalidateSession info.sessionID
      state := .terminated
      info := none
      live := by simp }

/-- `Reset`. -/
def reset (m : Manager) : Manager :=
  { m with state := .pending, info := none, live := by simp }

/-- `HasScope`. -/
def hasScope (m : Manager) (scope : String) : Bool :=
  match m.info with
  | none => false
  | some info => info.scope.contains scope

/-! ## What each method does -/

@[simp] theorem isActive_iff (m : Manager) : m.isActive = true ↔ m.state = .active := by
  simp [isActive]

/-- Only an active session has a scope. -/
theorem state_of_hasScope {m : Manager} {scope : String} (h : m.hasScope scope = true) :
    m.state = .active := by
  cases hi : m.info with
  | none => simp [hasScope, hi] at h
  | some info => exact m.live.mp (by rw [hi]; rfl)

/-- Validation touches nothing but the token cache. -/
theorem validateToken_frame (m : Manager) (parse : JwtParse) (now : Time) (sid tok : String) :
    (m.validateToken parse now sid tok).2.state = m.state ∧
      (m.validateToken parse now sid tok).2.info = m.info := by
  unfold validateToken
  split
  · exact ⟨rfl, rfl⟩
  · split
    · exact ⟨rfl, rfl⟩
    · split
      · exact ⟨rfl, rfl⟩
      · split <;> exact ⟨rfl, rfl⟩

/-- A rejected token leaves the manager as it was. -/
theorem validateToken_error {m : Manager} {parse : JwtParse} {now : Time} {sid tok : String}
    {err : SessionError} (h : (m.validateToken parse now sid tok).1 = .error err) :
    (m.validateToken parse now sid tok).2 = m := by
  unfold validateToken at h ⊢
  split
  · rfl
  next hst =>
    rw [if_neg hst] at h
    split
    · rfl
    next v hv =>
      rw [hv] at h
      split
      · rfl
      next hc =>
        simp only [hc] at h
        split
        · rfl
        next claims hcl =>
          rw [hcl] at h
          cases h

/-- `activate` works from pending only, and otherwise changes nothing. -/
theorem activate_cases (m : Manager) (info : Info) :
    (m.state = .pending ∧ (m.activate info).1 = .ok () ∧
      (m.activate info).2.state = .active ∧ (m.activate info).2.info = some info) ∨
    (m.state ≠ .pending ∧ (∃ err, (m.activate info).1 = .error err) ∧
      (m.activate info).2 = m) := by
  cases hs : m.state with
  | pending => exact Or.inl (by simp [activate, hs])
  | active => exact Or.inr (by simp [activate, hs])
  | terminated => exact Or.inr (by simp [activate, hs])

@[simp] theorem terminate_state (m : Manager) : m.terminate.state = .terminated := by
  unfold terminate
  split
  next h => exact h
  · rfl

/-! ## The entries of the cache -/

/-- All entries of the cache, if there is one. -/
def CacheAll (m : Manager) (P : CachedToken → Prop) : Prop :=
  ∀ c, m.tokenCache = some c → ∀ e ∈ c.cache, P e

theorem new_cacheAll (robotID : String) (v : Option TokenValidator) (P : CachedToken → Prop) :
    (new robotID v).CacheAll P := by
  rintro c hc e he
  cases hc
  cases he

/-- Only a full validation adds an entry. -/
theorem CacheAll.validateToken {m : Manager} {P : CachedToken → Prop} (hm : m.CacheAll P)
    {parse : JwtParse} {now : Time} {sid tok : String}
    (hnew : ∀ v claims, m.validator = some v → v.validate parse now tok sid = .ok claims →
      P ⟨tok, claims, sid, now⟩) :
    (m.validateToken parse now sid tok).2.CacheAll P := by
  unfold Manager.validateToken
  split
  · exact hm
  · split
    · exact hm
    next v hv =>
      split
      · exact hm
      · split
        · exact hm
        next claims hvalid =>
          intro c hc e he
          obtain ⟨c₀, hc₀, rfl⟩ := Option.map_eq_some_iff.mp hc
          rcases List.mem_cons.mp he with rfl | hold
          · exact hnew v claims hv hvalid
          · exact hm c₀ hc₀ e ((List.mem_filter.mp hold).1)

theorem CacheAll.activate {m : Manager} {P : CachedToken → Prop} (hm : m.CacheAll P)
    (info : Info) : (m.activate info).2.CacheAll P := by
  unfold Manager.activate
  split
  · exact hm
  · split <;> exact hm

/-- Terminating only drops entries. -/
theorem CacheAll.terminate {m : Manager} {P : CachedToken → Prop} (hm : m.CacheAll P) :
    m.terminate.CacheAll P := by
  unfold Manager.terminate
  split
  · exact hm
  · intro c hc e he
    cases hi : m.info with
    | none => exact hm c (by simpa [hi] using hc) e he
    | some info =>
      simp only [hi] at hc
      obtain ⟨c₀, hc₀, rfl⟩ := Option.map_eq_some_iff.mp hc
      exact hm c₀ hc₀ e ((List.mem_filter.mp he).1)

/-! ## Tokens are bound to sessions -/

/-- Every cached entry holds claims for the session it is valid for. -/
def CacheBound (m : Manager) : Prop :=
  ∀ c, m.tokenCache = some c → ∀ e ∈ c.cache, e.claims.sessionID = e.validFor

theorem new_cacheBound (robotID : String) (v : Option TokenValidator) :
    (new robotID v).CacheBound := new_cacheAll robotID v _

/-- The info of an accepted token is for the session it was presented for,
also when the claims come from the cache. -/
theorem validateToken_sessionID {m : Manager} {parse : JwtParse} {now : Time} {sid tok : String}
    {info : Info} (hb : m.CacheBound)
    (h : (m.validateToken parse now sid tok).1 = .ok info) : info.sessionID = sid := by
  unfold validateToken at h
  split at h
  · cases h
  · split at h
    · cases h
    · split at h
      next cached hc =>
        cases h
        obtain ⟨c, hcache, hget⟩ := Option.bind_eq_some_iff.mp hc
        obtain ⟨e, he, -, hvalid, hclaims⟩ := TokenCache.mem_of_get hget
        show cached.sessionID = sid
        rw [← hclaims, ← hvalid]
        exact hb c hcache e he
      · split at h
        · cases h
        next claims hv =>
          cases h
          exact TokenValidator.validate_sessionID hv

theorem validateToken_cacheBound {m : Manager} (hb : m.CacheBound) (parse : JwtParse) (now : Time)
    (sid tok : String) : (m.validateToken parse now sid tok).2.CacheBound :=
  CacheAll.validateToken hb fun _ _ _ hvalid => TokenValidator.validate_sessionID hvalid

theorem terminate_cacheBound {m : Manager} (hb : m.CacheBound) : m.terminate.CacheBound :=
  CacheAll.terminate hb

theorem activate_cacheBound {m : Manager} (hb : m.CacheBound) (info : Info) :
    (m.activate info).2.CacheBound :=
  CacheAll.activate hb info

/-! ## What the cache holds has been validated -/

/-- What the cache holds for a token and a session, the validator has said of
them at some time. -/
def CacheHonest (m : Manager) (parse : JwtParse) : Prop :=
  ∀ c, m.tokenCache = some c → ∀ e ∈ c.cache, ∃ v now,
    m.validator = some v ∧ v.validate parse now e.key e.validFor = .ok e.claims

theorem new_cacheHonest (robotID : String) (v : Option TokenValidator) (parse : JwtParse) :
    (new robotID v).CacheHonest parse := new_cacheAll robotID v _

/-- Validation leaves the validator and the robot as they are. -/
theorem validateToken_same (m : Manager) (parse : JwtParse) (now : Time) (sid tok : String) :
    (m.validateToken parse now sid tok).2.validator = m.validator ∧
      (m.validateToken parse now sid tok).2.robotID = m.robotID := by
  unfold validateToken
  split
  · exact ⟨rfl, rfl⟩
  · split
    · exact ⟨rfl, rfl⟩
    · split
      · exact ⟨rfl, rfl⟩
      · split <;> exact ⟨rfl, rfl⟩

theorem activate_same (m : Manager) (info : Info) :
    (m.activate info).2.validator = m.validator ∧ (m.activate info).2.robotID = m.robotID := by
  unfold activate
  split
  · exact ⟨rfl, rfl⟩
  · split <;> exact ⟨rfl, rfl⟩

theorem terminate_same (m : Manager) :
    m.terminate.validator = m.validator ∧ m.terminate.robotID = m.robotID := by
  unfold terminate
  split <;> exact ⟨rfl, rfl⟩

theorem validateToken_cacheHonest {m : Manager} {parse : JwtParse} (hm : m.CacheHonest parse)
    (now : Time) (sid tok : String) :
    (m.validateToken parse now sid tok).2.CacheHonest parse := by
  have hall : (m.validateToken parse now sid tok).2.CacheAll _ :=
    CacheAll.validateToken hm fun v claims hv hvalid => ⟨v, now, hv, hvalid⟩
  intro c hc e he
  rw [(validateToken_same m parse now sid tok).1]
  exact hall c hc e he

theorem activate_cacheHonest {m : Manager} {parse : JwtParse} (hm : m.CacheHonest parse)
    (info : Info) : (m.activate info).2.CacheHonest parse := by
  intro c hc e he
  rw [(activate_same m info).1]
  exact CacheAll.activate hm info c hc e he

theorem terminate_cacheHonest {m : Manager} {parse : JwtParse} (hm : m.CacheHonest parse) :
    m.terminate.CacheHonest parse := by
  intro c hc e he
  rw [(terminate_same m).1]
  exact CacheAll.terminate hm c hc e he

/-- An accepted token has been accepted by the validator, now or before. -/
theorem exists_of_validateToken {m : Manager} {parse : JwtParse} (hm : m.CacheHonest parse)
    {now : Time} {sid tok : String} {info : Info}
    (h : (m.validateToken parse now sid tok).1 = .ok info) :
    ∃ v t claims, m.validator = some v ∧ v.validate parse t tok sid = .ok claims ∧
      info = m.claimsToInfo claims := by
  unfold validateToken at h
  split at h
  · cases h
  · split at h
    · cases h
    next v hv =>
      split at h
      next cached hcached =>
        cases h
        obtain ⟨c, hc, hget⟩ := Option.bind_eq_some_iff.mp hcached
        obtain ⟨e, he, rfl, rfl, rfl⟩ := TokenCache.mem_of_get hget
        obtain ⟨v', t, hv', hvalid⟩ := hm c hc e he
        exact ⟨v', t, e.claims, hv', hvalid, rfl⟩
      · split at h
        · cases h
        next claims hclaims =>
          cases h
          exact ⟨v, now, claims, hv, hclaims, rfl⟩

/-- What the validator accepts is accepted. -/
theorem validateToken_of_validate {m : Manager} {parse : JwtParse} {v : TokenValidator}
    (hstate : m.state ≠ .terminated) (hv : m.validator = some v) {now : Time} {sid tok : String}
    {claims : TokenClaims} (hvalid : v.validate parse now tok sid = .ok claims) :
    ∃ info, (m.validateToken parse now sid tok).1 = .ok info := by
  unfold validateToken
  rw [if_neg hstate, hv]
  dsimp only
  split
  next cached _ => exact ⟨_, rfl⟩
  · rw [hvalid]
    exact ⟨_, rfl⟩

end Manager

end ChainKVM.Robot
