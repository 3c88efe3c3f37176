import ChainKVM.Lib.Machine
import ChainKVM.Robot.Jwks

/-!
# Keys that are gone

The fetcher of `jwks.go` with all its fields, under any sequence of lookups and
refreshes, against a server whose key set changes as it likes and that may
fail. What `cacheTTL` is for: no key is returned that was fetched longer ago
than that, so that a key that the gateway has withdrawn is refused soon.

But `cacheTTL` and `lastFetch` are written and never read. A key is returned
for as long as it is in the cache, and it stays there until some other key is
asked for or somebody refreshes. So the property holds of a run iff no lookup
finds its key in a cache that is too old (`rotation_kept_iff`).
-/

namespace ChainKVM.Robot

open Machine (Always Steps)

/-- `JWKSFetcher`, with the fields that nobody reads. -/
structure TimedFetcher extends JWKSFetcher where
  cacheTTL : Duration
  lastFetch : Time

namespace TimedFetcher

/-- `NewJWKSFetcher`. -/
def new (cacheTTL : Duration) : TimedFetcher := ⟨.new, cacheTTL, zeroTime⟩

variable (decodeString : String → Option (List UInt8))

/-- `Refresh`, which ends with `updateCache`. -/
def refresh (f : TimedFetcher) (now : Time) (response : JwksResponse) :
    Except JwksError Unit × TimedFetcher :=
  match response with
  | .error err => (.error err, f)
  | .ok keys => (.ok (), { f with
      toJWKSFetcher := .updateCache decodeString keys
      lastFetch := now })

/-- `GetPublicKey`. -/
def getPublicKey (f : TimedFetcher) (now : Time) (kid : String) (response : JwksResponse) :
    Except JwksError (List UInt8) × TimedFetcher :=
  match f.cache.get kid with
  | some key => (.ok key, f)
  | none =>
    match f.refresh decodeString now response with
    | (.error err, f) => (.error err, f)
    | (.ok (), f) =>
      match f.cache.get kid with
      | some key => (.ok key, f)
      | none => (.error .keyNotFound, f)

/-- Without those fields it is the fetcher of `Jwks.lean`. -/
theorem getPublicKey_toJWKSFetcher (f : TimedFetcher) (now : Time) (kid : String)
    (response : JwksResponse) :
    (f.getPublicKey decodeString now kid response).1 =
        (f.toJWKSFetcher.getPublicKey decodeString kid response).1 ∧
      (f.getPublicKey decodeString now kid response).2.toJWKSFetcher =
        (f.toJWKSFetcher.getPublicKey decodeString kid response).2 := by
  unfold getPublicKey JWKSFetcher.getPublicKey
  cases f.cache.get kid with
  | some key => exact ⟨rfl, rfl⟩
  | none =>
    cases response with
    | error err => exact ⟨rfl, rfl⟩
    | ok keys =>
      dsimp only [refresh, JWKSFetcher.refresh]
      cases (JWKSFetcher.updateCache decodeString keys).cache.get kid <;> exact ⟨rfl, rfl⟩

end TimedFetcher

/-! ## What a key set offers -/

namespace JWKSFetcher

variable {decodeString : String → Option (List UInt8)}

/-- A well-formed Ed25519 key of the set, under this id. -/
def Offers (decodeString : String → Option (List UInt8)) (keys : List JwkKey) (kid : String)
    (pub : List UInt8) : Prop :=
  ∃ key ∈ keys, key.kid = kid ∧ key.kty = "OKP" ∧ key.crv = "Ed25519" ∧
    decodeString key.x = some pub ∧ pub.length = 32

/-- One key of the set. -/
theorem get_addKey {cache : OrdMap String (List UInt8)} {key : JwkKey} {kid : String}
    {pub : List UInt8} (h : (addKey decodeString cache key).get kid = some pub) :
    cache.get kid = some pub ∨ Offers decodeString [key] kid pub := by
  unfold addKey at h
  split at h
  · exact .inl h
  next hkind =>
    obtain ⟨hkty, hcrv⟩ := not_or.mp hkind
    cases hdecode : decodeString key.x with
    | none =>
      rw [hdecode] at h
      exact .inl h
    | some bytes =>
      rw [hdecode] at h
      dsimp only at h
      split at h
      · exact .inl h
      next hlength =>
        by_cases hkid : kid = key.kid
        · subst hkid
          rw [OrdMap.get_set_self] at h
          refine .inr ⟨key, List.mem_singleton_self key, rfl, Decidable.not_not.mp hkty,
            Decidable.not_not.mp hcrv, hdecode.trans h, ?_⟩
          rw [← Option.some.inj h]
          exact Decidable.not_not.mp hlength
        · rw [OrdMap.get_set_of_ne _ _ hkid] at h
          exact .inl h

theorem Offers.mono {keys keys' : List JwkKey} {kid : String} {pub : List UInt8}
    (h : Offers decodeString keys kid pub) (hsub : ∀ key ∈ keys, key ∈ keys') :
    Offers decodeString keys' kid pub := by
  obtain ⟨key, hmem, hkey⟩ := h
  exact ⟨key, hsub key hmem, hkey⟩

theorem get_foldl_addKey {keys : List JwkKey} {kid : String} {pub : List UInt8} :
    ∀ {cache : OrdMap String (List UInt8)},
      (keys.foldl (addKey decodeString) cache).get kid = some pub →
        cache.get kid = some pub ∨ Offers decodeString keys kid pub := by
  induction keys with
  | nil => exact fun h => .inl h
  | cons key keys ih =>
    intro cache h
    rcases ih h with hadded | hoffers
    · refine (get_addKey hadded).imp_right fun hself => hself.mono fun key' hmem => ?_
      rw [List.mem_singleton.mp hmem]
      exact List.mem_cons_self ..
    · exact .inr (hoffers.mono fun key' hmem => List.mem_cons_of_mem _ hmem)

/-- What is in the cache is a key of the set that it was made from. -/
theorem offers_of_get {keys : List JwkKey} {kid : String} {pub : List UInt8}
    (h : (updateCache decodeString keys).cache.get kid = some pub) :
    Offers decodeString keys kid pub :=
  (get_foldl_addKey h).resolve_left nofun

end JWKSFetcher

/-! ## Runs -/

/-- A method of the fetcher that is called, with the answer that the server has
for a fetch at that time, or the passing of time. -/
inductive FetchOp where
  | getPublicKey (kid : String) (response : JwksResponse)
  | refresh (response : JwksResponse)
  | elapse (d : Nat)

/-- A fetcher and the clock, with the last set that was fetched and when. -/
structure FetchRun where
  now : Time
  fetcher : TimedFetcher
  fetched : Option (Time × List JwkKey)

namespace FetchRun

def start (now : Time) (cacheTTL : Duration) : FetchRun := ⟨now, .new cacheTTL, none⟩

/-- A fetch that succeeds is the last one. -/
def note (s : FetchRun) (response : JwksResponse) : Option (Time × List JwkKey) :=
  match response with
  | .error _ => s.fetched
  | .ok keys => some (s.now, keys)

variable (decodeString : String → Option (List UInt8))

def step (s : FetchRun) : FetchOp → FetchRun
  | .getPublicKey kid response =>
    { s with
      fetcher := (s.fetcher.getPublicKey decodeString s.now kid response).2
      fetched := if (s.fetcher.cache.get kid).isSome then s.fetched else s.note response }
  | .refresh response =>
    { s with
      fetcher := (s.fetcher.refresh decodeString s.now response).2
      fetched := s.note response }
  | .elapse d => { s with now := s.now + d }

/-- A key that is returned is one of the last set that was fetched, which is
not older than `cacheTTL`; and a refresh that fails changes nothing. -/
structure Kept (s : FetchRun) (op : FetchOp) : Prop where
  fresh : ∀ kid response pub, op = .getPublicKey kid response →
    (s.fetcher.getPublicKey decodeString s.now kid response).1 = .ok pub →
      ∃ t keys, (s.step decodeString op).fetched = some (t, keys) ∧
        s.now - t ≤ s.fetcher.cacheTTL ∧ JWKSFetcher.Offers decodeString keys kid pub
  failed : ∀ err, op = .refresh (.error err) → (s.step decodeString op).fetcher = s.fetcher

/-- A lookup that finds its key in the cache comes at most `cacheTTL` after the
last fetch. -/
def Soon (s : FetchRun) (op : FetchOp) : Prop :=
  ∀ kid response, op = .getPublicKey kid response → (s.fetcher.cache.get kid).isSome = true →
    s.now - s.fetcher.lastFetch ≤ s.fetcher.cacheTTL

/-- The cache is made from the last set that was fetched. -/
structure Tracks (cacheTTL : Duration) (s : FetchRun) : Prop where
  cacheTTL : s.fetcher.cacheTTL = cacheTTL
  cache : ∀ kid pub, s.fetcher.cache.get kid = some pub → ∃ keys,
    s.fetched = some (s.fetcher.lastFetch, keys) ∧ JWKSFetcher.Offers decodeString keys kid pub

variable {decodeString}
variable {cacheTTL : Duration} {s : FetchRun}

theorem tracks_start (now : Time) (cacheTTL : Duration) :
    Tracks decodeString cacheTTL (start now cacheTTL) := ⟨rfl, nofun⟩

/-- A fetch, for whatever reason. -/
theorem Tracks.refresh (h : Tracks decodeString cacheTTL s) (response : JwksResponse) :
    Tracks decodeString cacheTTL (s.step decodeString (.refresh response)) := by
  cases response with
  | error err => exact h
  | ok keys => exact ⟨h.cacheTTL, fun kid pub hget => ⟨keys, rfl, JWKSFetcher.offers_of_get hget⟩⟩

/-- A lookup that misses leaves what a refresh leaves, and answers from it. -/
theorem getPublicKey_of_miss {kid : String} (hmiss : s.fetcher.cache.get kid = none)
    (response : JwksResponse) :
    s.step decodeString (.getPublicKey kid response) = s.step decodeString (.refresh response) ∧
      ∀ pub, (s.fetcher.getPublicKey decodeString s.now kid response).1 = .ok pub →
        ∃ keys, response = .ok keys ∧
          (s.step decodeString (.refresh response)).fetcher.cache.get kid = some pub := by
  have hfetcher : (s.fetcher.getPublicKey decodeString s.now kid response).2 =
      (s.fetcher.refresh decodeString s.now response).2 := by
    unfold TimedFetcher.getPublicKey
    rw [hmiss]
    cases response with
    | error err => rfl
    | ok keys =>
      dsimp only [TimedFetcher.refresh]
      split <;> rfl
  constructor
  · show FetchRun.mk _ _ _ = FetchRun.mk _ _ _
    rw [hfetcher, hmiss]
    rfl
  · intro pub hanswer
    unfold TimedFetcher.getPublicKey at hanswer
    rw [hmiss] at hanswer
    cases response with
    | error err => cases hanswer
    | ok keys =>
      -- the answer is what the second look into the cache finds
      refine ⟨keys, rfl, ?_⟩
      dsimp only [TimedFetcher.refresh] at hanswer
      show (JWKSFetcher.updateCache decodeString keys).cache.get kid = some pub
      cases hget : (JWKSFetcher.updateCache decodeString keys).cache.get kid with
      | none =>
        rw [hget] at hanswer
        cases hanswer
      | some key =>
        rw [hget] at hanswer
        cases hanswer
        rfl

theorem getPublicKey_of_hit {kid : String} {pub : List UInt8}
    (hhit : s.fetcher.cache.get kid = some pub) (response : JwksResponse) :
    s.step decodeString (.getPublicKey kid response) = s ∧
      (s.fetcher.getPublicKey decodeString s.now kid response).1 = .ok pub := by
  have hanswer : s.fetcher.getPublicKey decodeString s.now kid response = (.ok pub, s.fetcher) := by
    unfold TimedFetcher.getPublicKey
    rw [hhit]
  constructor
  · show FetchRun.mk _ _ _ = _
    rw [hanswer, hhit]
    rfl
  · rw [hanswer]

theorem Tracks.step (h : Tracks decodeString cacheTTL s) (op : FetchOp) :
    Tracks decodeString cacheTTL (s.step decodeString op) := by
  cases op with
  | refresh response => exact h.refresh response
  | elapse d => exact ⟨h.cacheTTL, h.cache⟩
  | getPublicKey kid response =>
    cases hget : s.fetcher.cache.get kid with
    | none =>
      rw [(getPublicKey_of_miss hget response).1]
      exact h.refresh response
    | some pub =>
      rw [(getPublicKey_of_hit hget response).1]
      exact h

/-- One step: what it returns is fresh iff it is not found in a cache that is
too old. -/
theorem kept_iff_soon (httl : 0 ≤ cacheTTL) (h : Tracks decodeString cacheTTL s) (op : FetchOp) :
    Kept decodeString s op ↔ Soon s op := by
  constructor
  · intro hkept kid response hop hhit
    obtain ⟨pub, hget⟩ := Option.isSome_iff_exists.mp hhit
    obtain ⟨hstep, hanswer⟩ := getPublicKey_of_hit hget response
    obtain ⟨t, keys, hfetched, hage, -⟩ := hkept.fresh kid response pub hop hanswer
    obtain ⟨keys', hlast, -⟩ := h.cache kid pub hget
    rw [hop, hstep, hlast] at hfetched
    cases hfetched
    exact hage
  · intro hsoon
    refine ⟨fun kid response pub hop hanswer => ?_, fun err hop => ?_⟩
    · subst hop
      cases hget : s.fetcher.cache.get kid with
      | some pub' =>
        -- the lookup hits
        obtain ⟨hstep, hhit⟩ := getPublicKey_of_hit hget response
        rw [hhit] at hanswer
        cases hanswer
        obtain ⟨keys, hlast, hoffers⟩ := h.cache kid _ hget
        have hage := hsoon kid response rfl (by rw [hget]; rfl)
        rw [hstep]
        exact ⟨_, keys, hlast, hage, hoffers⟩
      | none =>
        obtain ⟨hstep, hfound⟩ := getPublicKey_of_miss hget response
        obtain ⟨keys, rfl, hin⟩ := hfound pub hanswer
        rw [hstep]
        refine ⟨s.now, keys, rfl, ?_, JWKSFetcher.offers_of_get hin⟩
        rw [h.cacheTTL]
        exact Int.le_trans (Int.le_of_eq (Int.sub_self s.now)) httl
    · subst hop
      rfl

/-- In every run, what is returned is fresh throughout iff no lookup finds its
key in a cache that is too old. -/
theorem rotation_kept_iff (decodeString : String → Option (List UInt8)) (now : Time)
    (cacheTTL : Duration) (httl : 0 ≤ cacheTTL) (ops : List FetchOp) :
    Steps (step decodeString) (Kept decodeString) (start now cacheTTL) ops ↔
      Steps (step decodeString) Soon (start now cacheTTL) ops :=
  Machine.steps_iff_steps (fun _ op h => Tracks.step h op) (fun _ op h => kept_iff_soon httl h op)
    (tracks_start now cacheTTL)

/-- A signing key of the sample's gateway: all zeros. -/
def zeroKey : JwkKey :=
  ⟨"OKP", "Ed25519", "gateway-signing-key", "AAAAAAAAAAAAAAAAAAAAAAAAAAAAAAAAAAAAAAAAAAA", "sig"⟩

def zeros : List UInt8 := List.replicate 32 0

def decodeZeros (x : String) : Option (List UInt8) := if x = zeroKey.x then some zeros else none

/-- The key is fetched and then withdrawn; five minutes and a nanosecond later
it is asked for again. -/
def withdrawn : List FetchOp :=
  [.getPublicKey "gateway-signing-key" (.ok [zeroKey]), .elapse 300000000001,
    .getPublicKey "gateway-signing-key" (.ok [])]

theorem kept_iff_withdrawn :
    Steps (step decodeZeros) (Kept decodeZeros) (start 0 (300 * second)) withdrawn ↔
      Steps (step decodeZeros) Soon (start 0 (300 * second)) withdrawn :=
  rotation_kept_iff decodeZeros 0 (300 * second) (by decide) withdrawn

/-- The withdrawn key is returned, out of a cache that is older than its five
minutes. -/
theorem kept_fails :
    ¬ ∀ (decodeString : String → Option (List UInt8)) (now : Time) (cacheTTL : Duration),
      0 ≤ cacheTTL → ∀ ops : List FetchOp,
        Steps (step decodeString) (Kept decodeString) (start now cacheTTL) ops := by
  intro h
  obtain ⟨-, -, hlast, -⟩ := h decodeZeros 0 (300 * second) (by decide) withdrawn
  obtain ⟨t, keys, hfetched, hage, -⟩ := hlast.fresh "gateway-signing-key" (.ok []) zeros rfl rfl
  have hfirst : some (t, keys) = some ((0 : Time), [zeroKey]) := hfetched.symm.trans rfl
  cases hfirst
  exact absurd hage (by decide)

/-! ## Keys that are withdrawn -/

/-- The server does not offer the key from `T` on. -/
def Withdrawn (decodeString : String → Option (List UInt8)) (T : Time) (kid : String)
    (pub : List UInt8) (s : FetchRun) (op : FetchOp) : Prop :=
  ∀ keys, op = .refresh (.ok keys) ∨ (∃ kid', op = .getPublicKey kid' (.ok keys)) →
    T ≤ s.now → ¬JWKSFetcher.Offers decodeString keys kid pub

/-- The key is not returned any more. -/
def Refused (decodeString : String → Option (List UInt8)) (T : Time) (kid : String)
    (pub : List UInt8) (s : FetchRun) (op : FetchOp) : Prop :=
  ∀ response, op = .getPublicKey kid response → T < s.now →
    (s.fetcher.getPublicKey decodeString s.now kid response).1 ≠ .ok pub

theorem note_withdrawn {T : Time} {kid : String} {pub : List UInt8} {response : JwksResponse}
    (hlast : ∀ t keys, s.fetched = some (t, keys) → T ≤ t →
      ¬JWKSFetcher.Offers decodeString keys kid pub)
    (hnow : ∀ keys, response = .ok keys → T ≤ s.now →
      ¬JWKSFetcher.Offers decodeString keys kid pub) :
    ∀ t keys, s.note response = some (t, keys) → T ≤ t →
      ¬JWKSFetcher.Offers decodeString keys kid pub := by
  intro t keys hnote
  cases response with
  | error err => exact hlast t keys hnote
  | ok keys' =>
    cases hnote
    exact hnow _ rfl

theorem fetched_withdrawn {T : Time} {kid : String} {pub : List UInt8} {op : FetchOp}
    (hlast : ∀ t keys, s.fetched = some (t, keys) → T ≤ t →
      ¬JWKSFetcher.Offers decodeString keys kid pub)
    (hwithdrawn : Withdrawn decodeString T kid pub s op) :
    ∀ t keys, (s.step decodeString op).fetched = some (t, keys) → T ≤ t →
      ¬JWKSFetcher.Offers decodeString keys kid pub := by
  cases op with
  | elapse d => exact hlast
  | refresh response =>
    exact note_withdrawn hlast fun keys hok => hwithdrawn keys (.inl (congrArg _ hok))
  | getPublicKey kid' response =>
    intro t keys hfetched
    dsimp only [step] at hfetched
    split at hfetched
    · exact hlast t keys hfetched
    · exact note_withdrawn hlast
        (fun keys' hok => hwithdrawn keys' (.inr ⟨kid', congrArg _ hok⟩)) t keys hfetched

/-- In a run in which no lookup finds its key in a cache that is too old, a key
that the server has withdrawn is refused `cacheTTL` later. -/
theorem refused_of_withdrawn (httl : 0 ≤ cacheTTL) (T : Time) (kid : String) (pub : List UInt8)
    (now : Time) (ops : List FetchOp)
    (hsoon : Steps (step decodeString) Soon (start now cacheTTL) ops)
    (hwithdrawn : Steps (step decodeString) (Withdrawn decodeString T kid pub)
      (start now cacheTTL) ops) :
    Steps (step decodeString) (Refused decodeString (T + cacheTTL) kid pub)
      (start now cacheTTL) ops := by
  refine Machine.steps_of_steps (I := fun s => Tracks decodeString cacheTTL s ∧
    ∀ t keys, s.fetched = some (t, keys) → T ≤ t → ¬JWKSFetcher.Offers decodeString keys kid pub)
    (fun s op h hC => ⟨h.1.step op, fetched_withdrawn h.2 hC.2⟩) ?_
    ⟨tracks_start now cacheTTL, fun _ _ hnone => nomatch hnone⟩
    (Machine.steps_and hsoon hwithdrawn)
  rintro s op ⟨htracks, hlast⟩ ⟨hs, hw⟩ response hop hlate hanswer
  obtain ⟨t, keys, hfetched, hage, hoffers⟩ :=
    ((kept_iff_soon httl htracks op).mpr hs).fresh kid response pub hop hanswer
  rw [htracks.cacheTTL] at hage
  -- the set was fetched after the key had been withdrawn
  have hafter : T ≤ t := by
    have hsum : T + cacheTTL < t + cacheTTL :=
      Int.lt_of_lt_of_le hlate (Int.le_add_of_sub_left_le hage)
    exact Int.le_of_lt (Int.lt_of_add_lt_add_right hsum)
  exact fetched_withdrawn hlast hw t keys hfetched hafter hoffers

end FetchRun

end ChainKVM.Robot
