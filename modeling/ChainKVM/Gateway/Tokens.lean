import Mathlib.Data.List.Sort
import ChainKVM.Lib.Js
import ChainKVM.Lib.OrdMap

/-!
# Capability tokens: `tokens/`

What the generator puts into a token, the registry of issued tokens and the
cache of revoked ones. The registry is the authority: a token is valid when it
is registered, unexpired and not in the revocation cache (`isValid`), and every
revocation takes the token out of the registry.

Times are in ms. The registry's entries are stored under their own `jti`,
which `TokenRegistry` carries as a field.
-/

namespace ChainKVM.Gateway

open Js (Val)

/-! ## The generator -/

/-- `CapabilityTokenClaims`. Subject, audience and scope are whatever the
request held. -/
structure CapabilityTokenClaims where
  sub : Val
  aud : Val
  sid : String
  scope : Val
  exp : Int
  iat : Int
  jti : String
  nonce : String

/-- `TokenGenerationInput`. -/
structure TokenGenerationInput where
  operatorDid : Val
  robotId : Val
  sessionId : String
  allowedActions : Val
  ttlSeconds : Int

/-- The two UUIDs that a call of `generate` draws. -/
structure Uuids where
  jti : String
  nonce : String
  deriving DecidableEq, Repr

/-- `TokenGenerator.generate` up to its `await`: the claims are fixed, the
signature is not there yet. -/
def generate (now : Int) (uuids : Uuids) (input : TokenGenerationInput) :
    CapabilityTokenClaims where
  sub := input.operatorDid
  aud := input.robotId
  sid := input.sessionId
  scope := input.allowedActions
  exp := now / 1000 + input.ttlSeconds
  iat := now / 1000
  jti := "tok_" ++ uuids.jti
  nonce := uuids.nonce

/-- `new Date(exp * 1000)`. -/
def CapabilityTokenClaims.expiresAt (claims : CapabilityTokenClaims) : Int := claims.exp * 1000

/-! ## The revocation cache -/

/-- The counters of `createCacheMetrics`. -/
structure CacheMetrics where
  hits : Nat
  misses : Nat
  size : Nat
  evictions : Nat
  deriving DecidableEq, Repr

/-- `RevokedEntry`. -/
structure RevokedEntry where
  jti : String
  revokedAt : Int
  expiresAt : Int
  reason : Option String
  deriving DecidableEq, Repr

/-- `createRevocationCache`. -/
structure RevocationCache where
  maxSize : Int
  cache : OrdMap String RevokedEntry
  metrics : CacheMetrics

namespace RevocationCache

def new (maxSize : Int) : RevocationCache := ⟨maxSize, OrdMap.empty, ⟨0, 0, 0, 0⟩⟩

/-- `evictIfNeeded`: at capacity, a tenth of the entries goes, the oldest
first. -/
def evictIfNeeded (c : RevocationCache) : RevocationCache :=
  if (c.cache.size : Int) < c.maxSize then c
  else
    let entries := c.cache.values.insertionSort fun a b => a.revokedAt ≤ b.revokedAt
    let toEvict := if c.cache.size / 10 = 0 then 1 else c.cache.size / 10
    { c with
      cache := (entries.take toEvict).foldl (fun m e => m.delete e.jti) c.cache
      metrics := { c.metrics with evictions := c.metrics.evictions + toEvict } }

/-- `setSize(cache.size)`. -/
def withSize (c : RevocationCache) : RevocationCache :=
  { c with metrics := { c.metrics with size := c.cache.size } }

/-- `add`. -/
def add (c : RevocationCache) (now : Int) (jti : String) (expiresAt : Int)
    (reason : Option String) : RevocationCache :=
  let c := c.evictIfNeeded
  { c with cache := c.cache.set jti ⟨jti, now, expiresAt, reason⟩ }.withSize

def recordMiss (c : RevocationCache) : RevocationCache :=
  { c with metrics := { c.metrics with misses := c.metrics.misses + 1 } }

def recordHit (c : RevocationCache) : RevocationCache :=
  { c with metrics := { c.metrics with hits := c.metrics.hits + 1 } }

/-- `isRevoked`. An entry that has expired is dropped and no longer counts. -/
def isRevoked (c : RevocationCache) (now : Int) (jti : String) : Bool × RevocationCache :=
  match c.cache.get jti with
  | none => (false, c.recordMiss)
  | some entry =>
    if entry.expiresAt ≤ now then
      (false, { c with cache := c.cache.delete jti }.withSize.recordMiss)
    else (true, c.recordHit)

/-- `remove`: whether there was such an entry. -/
def remove (c : RevocationCache) (jti : String) : Bool × RevocationCache :=
  match c.cache.get jti with
  | none => (false, c)
  | some _ => (true, { c with cache := c.cache.delete jti }.withSize)

/-- `cleanup`: how many entries had expired. -/
def cleanup (c : RevocationCache) (now : Int) : Nat × RevocationCache :=
  let kept := c.cache.filter fun _ e => ¬ e.expiresAt ≤ now
  let removed := c.cache.size - kept.size
  if removed = 0 then (removed, { c with cache := kept })
  else
    (removed,
      { c with
        cache := kept
        metrics :=
          { c.metrics with size := kept.size, evictions := c.metrics.evictions + removed } })

/-- The body of the loop of `loadFromStore`: an entry that has expired is left
out. -/
def loadEntry (now : Int) (cache : OrdMap String RevokedEntry) (entry : RevokedEntry) :
    OrdMap String RevokedEntry :=
  if now < entry.expiresAt then cache.set entry.jti entry else cache

/-- `loadFromStore`. There is no eviction. -/
def loadFromStore (c : RevocationCache) (now : Int) (entries : List RevokedEntry) :
    RevocationCache :=
  { c with cache := entries.foldl (loadEntry now) c.cache }.withSize

end RevocationCache

/-! ## The registry -/

/-- `TokenEntry`. -/
structure TokenEntry where
  jti : String
  sessionId : String
  operatorDid : Val
  robotId : Val
  expiresAt : Int

/-- `createTokenRegistry`, with the revocation cache if one was set. -/
structure TokenRegistry where
  tokens : OrdMap String TokenEntry
  revocationCache : Option RevocationCache
  keyed : ∀ jti entry, tokens.get jti = some entry → entry.jti = jti

namespace TokenRegistry

def new (revocationCache : Option RevocationCache) : TokenRegistry where
  tokens := OrdMap.empty
  revocationCache := revocationCache
  keyed := fun _ _ h => by cases h

/-- `isExpired`. -/
def isExpired (now : Int) (entry : TokenEntry) : Bool := entry.expiresAt ≤ now

/-- `register`. -/
def register (r : TokenRegistry) (entry : TokenEntry) : TokenRegistry where
  tokens := r.tokens.set entry.jti entry
  revocationCache := r.revocationCache
  keyed := by
    intro jti e h
    rw [OrdMap.get_set] at h
    by_cases hj : jti = entry.jti
    · rw [if_pos hj] at h
      cases h
      exact hj.symm
    · rw [if_neg hj] at h
      exact r.keyed jti e h

/-- `get`. -/
def get (r : TokenRegistry) (jti : String) : Option TokenEntry := r.tokens.get jti

/-- Keeping some of the tokens. -/
def keep (r : TokenRegistry) (p : TokenEntry → Bool) (cache : Option RevocationCache) :
    TokenRegistry where
  tokens := r.tokens.filter fun _ e => p e
  revocationCache := cache
  keyed := by
    intro jti e h
    rw [OrdMap.get_filter, Option.filter_eq_some_iff] at h
    exact r.keyed jti e h.1

/-- `isValid`. Asking moves the cache's counters and may drop an expired
entry from it. -/
def isValid (r : TokenRegistry) (now : Int) (jti : String) : Bool × TokenRegistry :=
  let registered := (r.get jti).any fun entry => !isExpired now entry
  match r.revocationCache with
  | none => (registered, r)
  | some cache =>
    let (revoked, cache) := cache.isRevoked now jti
    (!revoked && registered, { r with revocationCache := some cache })

/-- `cleanup`: how many tokens had expired. -/
def cleanup (r : TokenRegistry) (now : Int) : Nat × TokenRegistry :=
  let kept := r.keep (fun e => !isExpired now e) (r.revocationCache.map fun c => (c.cleanup now).2)
  (r.tokens.size - kept.tokens.size, kept)

/-- `getExpiringSoon`. -/
def getExpiringSoon (r : TokenRegistry) (now thresholdMs : Int) : List TokenEntry :=
  r.tokens.values.filter fun e => now < e.expiresAt ∧ e.expiresAt ≤ now + thresholdMs

/-- `getBySession`. -/
def getBySession (r : TokenRegistry) (sessionId : String) : List TokenEntry :=
  r.tokens.values.filter fun e => e.sessionId = sessionId

/-- `getByOperator`. -/
def getByOperator (r : TokenRegistry) (operatorDid : Val) : List TokenEntry :=
  r.tokens.values.filter fun e => e.operatorDid.strictEq operatorDid

/-- The body of the revocation loops: into the cache, out of the registry. -/
def revokeEntry (now : Int) (reason : Option String) (r : TokenRegistry) (entry : TokenEntry) :
    TokenRegistry where
  tokens := r.tokens.delete entry.jti
  revocationCache := r.revocationCache.map fun c => c.add now entry.jti entry.expiresAt reason
  keyed := by
    intro jti e h
    rw [OrdMap.get_delete] at h
    by_cases hj : jti = entry.jti
    · rw [if_pos hj] at h
      cases h
    · rw [if_neg hj] at h
      exact r.keyed jti e h

/-- `revoke`: whether there was such a token. -/
def revoke (r : TokenRegistry) (now : Int) (jti : String) (reason : Option String) :
    Bool × TokenRegistry :=
  match r.get jti with
  | none => (false, r)
  | some entry => (true, revokeEntry now reason r entry)

/-- `revokeBySession`: how many tokens were revoked. -/
def revokeBySession (r : TokenRegistry) (now : Int) (sessionId : String)
    (reason : Option String) : Nat × TokenRegistry :=
  let sessionTokens := r.getBySession sessionId
  (sessionTokens.length, sessionTokens.foldl (revokeEntry now reason) r)

/-- `revokeByOperator`: the sessions of the revoked tokens, each once. -/
def revokeByOperator (r : TokenRegistry) (now : Int) (operatorDid : Val)
    (reason : Option String) : List String × TokenRegistry :=
  let operatorTokens := r.getByOperator operatorDid
  ((operatorTokens.map TokenEntry.sessionId).eraseDups,
    operatorTokens.foldl (revokeEntry now reason) r)

/-! ## What the operations do to a lookup -/

theorem get_register (r : TokenRegistry) (entry : TokenEntry) (jti : String) :
    (r.register entry).get jti = if jti = entry.jti then some entry else r.get jti :=
  OrdMap.get_set _ _ _ _

theorem get_cleanup (r : TokenRegistry) (now : Int) (jti : String) :
    (r.cleanup now).2.get jti = (r.get jti).filter fun e => !isExpired now e :=
  OrdMap.get_filter _ _ _

theorem mem_getExpiringSoon {r : TokenRegistry} {now thresholdMs : Int} {entry : TokenEntry} :
    entry ∈ r.getExpiringSoon now thresholdMs ↔
      r.get entry.jti = some entry ∧ now < entry.expiresAt ∧
        entry.expiresAt ≤ now + thresholdMs := by
  unfold getExpiringSoon
  rw [List.mem_filter, decide_eq_true_eq, OrdMap.mem_values_iff]
  refine and_congr_left fun _ => ⟨fun h => ?_, fun h => ⟨entry.jti, h⟩⟩
  obtain ⟨jti, hget⟩ := h
  rw [r.keyed jti entry hget]
  exact hget

/-- The entries are listed under their `jti`s, each once. -/
theorem nodup_values_jti (r : TokenRegistry) : (r.tokens.values.map TokenEntry.jti).Nodup := by
  have hkeys : r.tokens.values.map TokenEntry.jti = r.tokens.entries.map Prod.fst := by
    show (r.tokens.entries.map Prod.snd).map TokenEntry.jti = _
    rw [List.map_map]
    refine List.map_congr_left fun e he => ?_
    exact r.keyed e.1 e.2 (OrdMap.get_eq_some_iff.mpr he)
  rw [hkeys]
  exact r.tokens.nodup

@[simp] theorem tokens_isValid (r : TokenRegistry) (now : Int) (jti : String) :
    (r.isValid now jti).2.tokens = r.tokens := by
  unfold isValid
  cases r.revocationCache <;> rfl

/-- A valid token is registered and unexpired. -/
theorem exists_of_isValid {r : TokenRegistry} {now : Int} {jti : String}
    (h : (r.isValid now jti).1 = true) :
    ∃ entry, r.get jti = some entry ∧ now < entry.expiresAt := by
  have hreg : (r.get jti).any (fun entry => !isExpired now entry) = true := by
    unfold isValid at h
    cases hc : r.revocationCache with
    | none =>
      rw [hc] at h
      exact h
    | some cache =>
      rw [hc] at h
      exact (Bool.and_eq_true_iff.mp h).2
  cases hget : r.get jti with
  | none =>
    rw [hget] at hreg
    cases hreg
  | some entry =>
    rw [hget, Option.any_some, isExpired, Bool.not_eq_true', decide_eq_false_iff_not] at hreg
    exact ⟨entry, rfl, Int.not_le.mp hreg⟩

theorem get_foldl_revokeEntry (now : Int) (reason : Option String) (jti : String) :
    ∀ (entries : List TokenEntry) (r : TokenRegistry),
      (entries.foldl (revokeEntry now reason) r).get jti =
        if ∃ e ∈ entries, e.jti = jti then none else r.get jti := by
  intro entries
  induction entries with
  | nil => simp
  | cons e es ih =>
    intro r
    have hhead : (revokeEntry now reason r e).get jti = if jti = e.jti then none else r.get jti :=
      OrdMap.get_delete _ _ _
    rw [List.foldl_cons, ih, hhead]
    by_cases hes : ∃ e ∈ es, e.jti = jti
    · obtain ⟨e', hmem, hj⟩ := hes
      rw [if_pos ⟨e', hmem, hj⟩, if_pos ⟨e', List.mem_cons_of_mem _ hmem, hj⟩]
    · rw [if_neg hes]
      by_cases he : jti = e.jti
      · rw [if_pos he, if_pos ⟨e, List.mem_cons_self, he.symm⟩]
      · have hnone : ¬ ∃ e' ∈ e :: es, e'.jti = jti := by
          rintro ⟨e', hmem, hj⟩
          rcases List.mem_cons.mp hmem with rfl | hmem
          · exact he hj.symm
          · exact hes ⟨e', hmem, hj⟩
        rw [if_neg he, if_neg hnone]

/-- Revoking the tokens that satisfy `p` takes exactly these out. -/
theorem get_revoke_filter (r : TokenRegistry) (now : Int) (reason : Option String)
    (p : TokenEntry → Bool) (jti : String) :
    ((r.tokens.values.filter p).foldl (revokeEntry now reason) r).get jti =
      (r.get jti).filter fun e => !p e := by
  rw [get_foldl_revokeEntry]
  cases hget : r.get jti with
  | none =>
    rw [if_neg]
    · rfl
    · rintro ⟨e, hmem, rfl⟩
      obtain ⟨jti, hj⟩ := OrdMap.mem_values_iff.mp (List.mem_filter.mp hmem).1
      rw [← r.keyed jti e hj] at hj
      exact absurd (hget.symm.trans hj) (by simp)
  | some entry =>
    have hkey := r.keyed jti entry hget
    by_cases hp : p entry = true
    · have hmem : entry ∈ r.tokens.values.filter p :=
        List.mem_filter.mpr ⟨OrdMap.mem_values_iff.mpr ⟨jti, hget⟩, hp⟩
      rw [if_pos ⟨entry, hmem, hkey⟩, Option.filter_some, hp]
      rfl
    · rw [if_neg]
      · rw [Option.filter_some, if_pos (by simpa using hp)]
      · rintro ⟨e, hmem, rfl⟩
        obtain ⟨hval, hpe⟩ := List.mem_filter.mp hmem
        obtain ⟨jti, hj⟩ := OrdMap.mem_values_iff.mp hval
        rw [← r.keyed jti e hj] at hj
        obtain rfl : entry = e := Option.some.inj (hget.symm.trans hj)
        exact hp hpe

theorem get_revoke (r : TokenRegistry) (now : Int) (jti jti' : String) (reason : Option String) :
    (r.revoke now jti reason).2.get jti' = (r.get jti').filter fun e => !decide (e.jti = jti) := by
  have hdelete : (r.revoke now jti reason).2.get jti' =
      if jti' = jti then none else r.get jti' := by
    unfold revoke
    cases hget : r.get jti with
    | none =>
      by_cases hj : jti' = jti
      · rw [if_pos hj, hj]
        exact hget
      · rw [if_neg hj]
    | some entry =>
      show (r.tokens.delete entry.jti).get jti' = _
      rw [OrdMap.get_delete, r.keyed jti entry hget]
      rfl
  rw [hdelete]
  cases hget' : r.get jti' with
  | none => rw [ite_self, Option.filter_none]
  | some e =>
    rw [Option.filter_some, r.keyed jti' e hget']
    by_cases hj : jti' = jti
    · rw [if_pos hj, if_neg (by simp [hj])]
    · rw [if_neg hj, if_pos (by simp [hj])]

theorem get_revokeBySession (r : TokenRegistry) (now : Int) (sessionId : String)
    (reason : Option String) (jti : String) :
    (r.revokeBySession now sessionId reason).2.get jti =
      (r.get jti).filter fun e => !decide (e.sessionId = sessionId) :=
  get_revoke_filter r now reason _ jti

theorem get_revokeByOperator (r : TokenRegistry) (now : Int) (operatorDid : Val)
    (reason : Option String) (jti : String) :
    (r.revokeByOperator now operatorDid reason).2.get jti =
      (r.get jti).filter fun e => !e.operatorDid.strictEq operatorDid :=
  get_revoke_filter r now reason _ jti

/-- Revoking tokens only takes entries out. -/
theorem values_foldl_revokeEntry (now : Int) (reason : Option String) :
    ∀ (entries : List TokenEntry) (r : TokenRegistry),
      (entries.foldl (revokeEntry now reason) r).tokens.values.Sublist r.tokens.values := by
  intro entries
  induction entries with
  | nil => exact fun r => List.Sublist.refl _
  | cons e es ih => exact fun r => (ih _).trans (OrdMap.values_filter_sublist _ _)

/-- After `revokeBySession`, what is left are tokens of other sessions. -/
theorem values_revokeBySession (r : TokenRegistry) (now : Int) (sessionId : String)
    (reason : Option String) :
    (r.revokeBySession now sessionId reason).2.tokens.values.Sublist
      (r.tokens.values.filter fun e => !decide (e.sessionId = sessionId)) := by
  have hsub := values_foldl_revokeEntry now reason (r.getBySession sessionId) r
  have hother : ∀ e ∈ (r.revokeBySession now sessionId reason).2.tokens.values,
      (!decide (e.sessionId = sessionId)) = true := by
    intro e hmem
    obtain ⟨jti, hget⟩ := OrdMap.mem_values_iff.mp hmem
    have hleft := get_revokeBySession r now sessionId reason jti
    rw [get, hget] at hleft
    exact (Option.filter_eq_some_iff.mp hleft.symm).2
  rw [← List.filter_eq_self.mpr hother]
  exact hsub.filter _

/-- The sessions that `revokeByOperator` returns are those of the operator's
registered tokens, expired or not. -/
theorem mem_revokeByOperator {r : TokenRegistry} {now : Int} {operatorDid : Val}
    {reason : Option String} {sessionId : String} :
    sessionId ∈ (r.revokeByOperator now operatorDid reason).1 ↔
      ∃ jti entry, r.get jti = some entry ∧ entry.operatorDid.strictEq operatorDid = true ∧
        entry.sessionId = sessionId := by
  show sessionId ∈ ((r.getByOperator operatorDid).map TokenEntry.sessionId).eraseDups ↔ _
  rw [List.mem_eraseDups, List.mem_map]
  constructor
  · rintro ⟨entry, hmem, rfl⟩
    obtain ⟨hval, hop⟩ := List.mem_filter.mp hmem
    obtain ⟨jti, hj⟩ := OrdMap.mem_values_iff.mp hval
    exact ⟨jti, entry, hj, hop, rfl⟩
  · rintro ⟨jti, entry, hget, hop, rfl⟩
    exact ⟨entry, List.mem_filter.mpr ⟨OrdMap.mem_values_iff.mpr ⟨jti, hget⟩, hop⟩, rfl⟩

end TokenRegistry

end ChainKVM.Gateway
