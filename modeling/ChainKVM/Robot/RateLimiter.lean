import ChainKVM.Lib.TokenBucket
import ChainKVM.Robot.Protocol

/-!
# The rate limiter: `internal/control/ratelimit.go`

A token bucket for each type of command. `time.Now()` is an argument, a
`float64` is the rational it stands for (the sums are exact), and the log of
denials is left out, with the table of limits that only it reads.

Each bucket is a `Bucket` of the library, within the 292 years after which
`Sub` saturates (`LimitBucket.bucket_allow`). So the limiter lets a stream of
commands through iff the part of each type is within its rate
(`RateLimiter.new_allowsAll_iff`).
-/

namespace ChainKVM.Robot

/-- `Duration.Seconds()`. -/
def seconds (d : Duration) : Rat := d / 1000000000

/-- `RateLimiterConfig`, without `LogDenials`. -/
structure RateLimiterConfig where
  driveHz : Int
  kvmHz : Int
  eStopHz : Int
  burstSize : Int
  deriving DecidableEq, Repr

/-- `tokenBucket`. -/
structure LimitBucket where
  tokens : Rat
  maxTokens : Rat
  refillRate : Rat
  lastRefill : Time

theorem seconds_le {t u : Time} (h : t ≤ u) : seconds t ≤ seconds u := by
  unfold seconds
  exact div_le_div_of_nonneg_right (by exact_mod_cast h) (by norm_num)

theorem seconds_sub (t u : Time) : seconds (t - u) = seconds t - seconds u := by
  unfold seconds
  push_cast
  ring

namespace LimitBucket

/-- `newTokenBucket`. -/
def new (now : Time) (hz burstSize : Int) : LimitBucket :=
  let maxTokens := if (burstSize : Rat) < 1 then 1 else (burstSize : Rat)
  ⟨maxTokens, maxTokens, hz, now⟩

/-- `allow`. -/
def allow (b : LimitBucket) (now : Time) : Bool × LimitBucket :=
  let elapsed := seconds (sub now b.lastRefill)
  let tokens := b.tokens + elapsed * b.refillRate
  let tokens := if b.maxTokens < tokens then b.maxTokens else tokens
  if 1 ≤ tokens then (true, { b with tokens := tokens - 1, lastRefill := now })
  else (false, { b with tokens := tokens, lastRefill := now })

/-- The bucket of the library. -/
def bucket (b : LimitBucket) : Bucket Rat := ⟨b.tokens, seconds b.lastRefill⟩

/-- The code's bucket and the library's grant the same. -/
theorem bucket_allow (b : LimitBucket) {now : Time} (hsub : sub now b.lastRefill = now - b.lastRefill) :
    (b.allow now).1 = (b.bucket.take b.maxTokens b.refillRate (seconds now)).1 ∧
      (b.allow now).2.bucket = (b.bucket.take b.maxTokens b.refillRate (seconds now)).2 ∧
      (b.allow now).2.maxTokens = b.maxTokens ∧ (b.allow now).2.refillRate = b.refillRate ∧
      (b.allow now).2.lastRefill = now := by
  have hrefill : (if b.maxTokens < b.tokens + seconds (sub now b.lastRefill) * b.refillRate then
      b.maxTokens else b.tokens + seconds (sub now b.lastRefill) * b.refillRate) =
        b.bucket.refill b.maxTokens b.refillRate (seconds now) := by
    rw [hsub, seconds_sub, mul_comm, ← min_def_lt]
    rfl
  unfold allow Bucket.take
  dsimp only
  rw [hrefill]
  split <;> exact ⟨rfl, rfl, rfl, rfl, rfl⟩

end LimitBucket

/-- `RateLimiter`. -/
structure RateLimiter where
  buckets : MessageType → Option LimitBucket

namespace RateLimiter

/-- `NewRateLimiterWithConfig`. -/
def newWithConfig (now : Time) (cfg : RateLimiterConfig) : RateLimiter where
  buckets msgType :=
    let burstSize := if cfg.burstSize < 1 then 1 else cfg.burstSize
    match msgType with
    | .drive => some (.new now cfg.driveHz burstSize)
    | .kvmKey => some (.new now cfg.kvmHz burstSize)
    | .kvmMouse => some (.new now cfg.kvmHz burstSize)
    | .eStop => some (.new now cfg.eStopHz burstSize)
    | _ => none

/-- `Allow`. An e-stop is never refused, nor is a type without a bucket. -/
def allow (rl : RateLimiter) (now : Time) (msgType : MessageType) : Bool × RateLimiter :=
  if msgType = .eStop then (true, rl)
  else
    match rl.buckets msgType with
    | none => (true, rl)
    | some b => ((b.allow now).1, ⟨Function.update rl.buckets msgType (some (b.allow now).2)⟩)

/-- `Reset`. -/
def reset (rl : RateLimiter) (now : Time) : RateLimiter where
  buckets msgType :=
    (rl.buckets msgType).map fun b => { b with tokens := b.maxTokens, lastRefill := now }

/-- Asking about one command after another. -/
def allowsAll : RateLimiter → List (Time × MessageType) → Bool
  | _, [] => true
  | rl, ask :: asks => (rl.allow ask.1 ask.2).1 && allowsAll (rl.allow ask.1 ask.2).2 asks

/-- The times at which a type has been asked about. -/
def asked (msgType : MessageType) (asks : List (Time × MessageType)) : List Rat :=
  (asks.filter fun ask => ask.2 = msgType).map fun ask => seconds ask.1

/-- The time has gone on, but not by the 292 years of a duration. -/
def Soon (t u : Time) : Prop := t ≤ u ∧ u - t ≤ 9223372036854775807

theorem Soon.sub_eq {t u : Time} (h : Soon t u) : sub u t = u - t := by
  obtain ⟨hle, hbound⟩ := h
  have hpos : (0 : Int) ≤ u - t := Int.sub_nonneg_of_le hle
  unfold sub
  rw [min_eq_right hbound, max_eq_right (le_trans (by decide) hpos)]

theorem asked_cons_self (now : Time) (msgType : MessageType) (asks : List (Time × MessageType)) :
    asked msgType ((now, msgType) :: asks) = seconds now :: asked msgType asks := by
  simp [asked]

theorem asked_cons_of_ne {ask : Time × MessageType} {msgType : MessageType} (h : msgType ≠ ask.2)
    (asks : List (Time × MessageType)) : asked msgType (ask :: asks) = asked msgType asks := by
  simp [asked, Ne.symm h]

/-- None of the buckets would refuse its part of the stream. -/
def Spares (rl : RateLimiter) (asks : List (Time × MessageType)) : Prop :=
  ∀ msgType b, msgType ≠ .eStop → rl.buckets msgType = some b →
    Bucket.NeverRefused b.maxTokens b.refillRate b.bucket (asked msgType asks)

/-- A command that has no bucket is none of a bucket's part. -/
theorem spares_cons_of_free {rl : RateLimiter} {ask : Time × MessageType}
    (hfree : ask.2 = .eStop ∨ rl.buckets ask.2 = none) (asks : List (Time × MessageType)) :
    rl.Spares (ask :: asks) ↔ rl.Spares asks := by
  refine forall_congr' fun msgType => forall_congr' fun b => forall_congr' fun hstop =>
    forall_congr' fun hb => ?_
  have hne : msgType ≠ ask.2 := by
    rintro rfl
    rcases hfree with hself | hnone
    · exact hstop hself
    · rw [hnone] at hb
      cases hb
  rw [asked_cons_of_ne hne]

/-- A command takes its token from its own bucket. -/
theorem spares_cons {rl : RateLimiter} {now : Time} {msgType : MessageType} {b : LimitBucket}
    (hstop : msgType ≠ .eStop) (hb : rl.buckets msgType = some b) (hsoon : Soon b.lastRefill now)
    (asks : List (Time × MessageType)) :
    rl.Spares ((now, msgType) :: asks) ↔ (b.allow now).1 = true ∧
      Spares ⟨Function.update rl.buckets msgType (some (b.allow now).2)⟩ asks := by
  obtain ⟨hgranted, hbucket, hmax, hrate, -⟩ := b.bucket_allow hsoon.sub_eq
  have hself : Bucket.NeverRefused b.maxTokens b.refillRate b.bucket
      (asked msgType ((now, msgType) :: asks)) ↔ (b.allow now).1 = true ∧
        Bucket.NeverRefused (b.allow now).2.maxTokens (b.allow now).2.refillRate
          (b.allow now).2.bucket (asked msgType asks) := by
    rw [asked_cons_self, hmax, hrate, hbucket, hgranted]
    exact Iff.rfl
  constructor
  · intro h
    obtain ⟨hfirst, hrest⟩ := hself.mp (h msgType b hstop hb)
    refine ⟨hfirst, fun msgType' b' hstop' hb' => ?_⟩
    dsimp only at hb'
    by_cases hsame : msgType' = msgType
    · subst hsame
      rw [Function.update_self] at hb'
      rw [← Option.some.inj hb']
      exact hrest
    · rw [Function.update_of_ne hsame] at hb'
      have hother := h msgType' b' hstop' hb'
      rwa [asked_cons_of_ne hsame] at hother
  · rintro ⟨hfirst, h⟩ msgType' b' hstop' hb'
    by_cases hsame : msgType' = msgType
    · subst hsame
      obtain rfl : b = b' := Option.some.inj (hb.symm.trans hb')
      exact hself.mpr ⟨hfirst, h msgType' _ hstop' (Function.update_self _ _ _)⟩
    · rw [asked_cons_of_ne hsame]
      exact h msgType' b' hstop' ((Function.update_of_ne hsame _ _).trans hb')

/-- The limiter asks each bucket about the commands of its own type. -/
theorem allowsAll_iff :
    ∀ (asks : List (Time × MessageType)) (rl : RateLimiter),
      asks.Pairwise (fun ask ask' => Soon ask.1 ask'.1) →
      (∀ msgType b, rl.buckets msgType = some b → ∀ ask ∈ asks, Soon b.lastRefill ask.1) →
        (rl.allowsAll asks = true ↔ rl.Spares asks) := by
  intro asks
  induction asks with
  | nil => exact fun rl _ _ => ⟨fun _ _ _ _ _ => trivial, fun _ => rfl⟩
  -- an ask that takes no token leaves the buckets as they are
  | cons ask asks ih =>
    intro rl hsoon hlast
    obtain ⟨hhead, htail⟩ := List.pairwise_cons.mp hsoon
    have hlast' (msgType : MessageType) (b : LimitBucket) (hb : rl.buckets msgType = some b) :
        ∀ ask' ∈ asks, Soon b.lastRefill ask'.1 :=
      fun ask' hmem => hlast msgType b hb ask' (List.mem_cons_of_mem _ hmem)
    rw [allowsAll, Bool.and_eq_true]
    by_cases hstop : ask.2 = .eStop
    · rw [allow, if_pos hstop, spares_cons_of_free (.inl hstop)]
      exact (and_iff_right rfl).trans (ih rl htail hlast')
    · rw [allow, if_neg hstop]
      cases hb : rl.buckets ask.2 with
      | none =>
        rw [spares_cons_of_free (.inr hb)]
        exact (and_iff_right rfl).trans (ih rl htail hlast')
      | some b =>
        have hfirst := hlast ask.2 b hb ask (List.mem_cons_self ..)
        rw [spares_cons hstop hb hfirst]
        refine and_congr_right fun _ => ih _ htail fun msgType b' hb' ask' hmem => ?_
        dsimp only at hb'
        by_cases hsame : msgType = ask.2
        · rw [hsame, Function.update_self] at hb'
          rw [← Option.some.inj hb', (b.bucket_allow hfirst.sub_eq).2.2.2.2]
          exact hhead ask' hmem
        · rw [Function.update_of_ne hsame] at hb'
          exact hlast' msgType b' hb' ask' hmem

/-- The commands are asked about in the order of time, from `start` on. -/
structure InOrder (start : Time) (asks : List (Time × MessageType)) : Prop where
  after : ∀ ask ∈ asks, start ≤ ask.1
  sorted : asks.Pairwise fun ask ask' => ask.1 ≤ ask'.1

/-- A new bucket refuses none of its commands iff they are within its rate. -/
theorem new_neverRefused_iff {start : Time} {hz burstSize : Int} (hburst : 1 ≤ burstSize)
    (hhz : 0 ≤ hz) {asks : List (Time × MessageType)} (horder : InOrder start asks)
    (msgType : MessageType) :
    Bucket.NeverRefused (LimitBucket.new start hz burstSize).maxTokens
        (LimitBucket.new start hz burstSize).refillRate
        (LimitBucket.new start hz burstSize).bucket (asked msgType asks) ↔
      WithinRate (burstSize : Rat) hz (asked msgType asks) := by
  have hfull : ¬ (burstSize : Rat) < 1 := by exact_mod_cast not_lt.mpr hburst
  have hnew : LimitBucket.new start hz burstSize = ⟨burstSize, burstSize, hz, start⟩ := by
    simp only [LimitBucket.new, if_neg hfull]
  have hcap : (0 : Rat) ≤ burstSize := by exact_mod_cast le_trans (by decide) hburst
  have hrate : (0 : Rat) ≤ hz := by exact_mod_cast hhz
  have hafter : ∀ t ∈ asked msgType asks, seconds start ≤ t := by
    intro t ht
    obtain ⟨ask, hmem, rfl⟩ := List.mem_map.mp ht
    exact seconds_le (horder.after ask (List.mem_filter.mp hmem).1)
  have hsorted : (asked msgType asks).Pairwise (· ≤ ·) :=
    (horder.sorted.filter _).map _ fun ask ask' h => seconds_le h
  rw [hnew]
  exact Bucket.full_neverRefused_iff hcap hrate hafter hsorted

/-- The buckets of a limiter that has just been made would refuse none of a
stream of commands iff those of each type are within the type's rate. -/
theorem new_spares_iff {start : Time} {cfg : RateLimiterConfig} (hburst : 1 ≤ cfg.burstSize)
    (hdrive : 0 ≤ cfg.driveHz) (hkvm : 0 ≤ cfg.kvmHz) {asks : List (Time × MessageType)}
    (horder : InOrder start asks) :
    (newWithConfig start cfg).Spares asks ↔
      WithinRate (cfg.burstSize : Rat) cfg.driveHz (asked .drive asks) ∧
        WithinRate (cfg.burstSize : Rat) cfg.kvmHz (asked .kvmKey asks) ∧
        WithinRate (cfg.burstSize : Rat) cfg.kvmHz (asked .kvmMouse asks) := by
  have hsize : (if cfg.burstSize < 1 then 1 else cfg.burstSize) = cfg.burstSize :=
    if_neg (not_lt.mpr hburst)
  rw [← new_neverRefused_iff hburst hdrive horder, ← new_neverRefused_iff hburst hkvm horder .kvmKey,
    ← new_neverRefused_iff hburst hkvm horder .kvmMouse]
  constructor
  · intro h
    have hbucket (msgType : MessageType) (b : LimitBucket) (hstop : msgType ≠ .eStop)
        (hb : (newWithConfig start cfg).buckets msgType = some b) := h msgType b hstop hb
    simp only [newWithConfig, hsize] at hbucket
    exact ⟨hbucket .drive _ (by decide) rfl, hbucket .kvmKey _ (by decide) rfl,
      hbucket .kvmMouse _ (by decide) rfl⟩
  · rintro ⟨hd, hk, hm⟩ msgType b hstop hb
    simp only [newWithConfig, hsize] at hb
    -- every other type has no bucket, or is not asked about
    cases msgType with
    | drive => rwa [← Option.some.inj hb]
    | kvmKey => rwa [← Option.some.inj hb]
    | kvmMouse => rwa [← Option.some.inj hb]
    | eStop => exact absurd rfl hstop
    | _ => cases hb

/-- A limiter that has just been made lets a stream of commands through iff
the commands of each type are within the type's rate. -/
theorem new_allowsAll_iff {start : Time} {cfg : RateLimiterConfig} (hburst : 1 ≤ cfg.burstSize)
    (hdrive : 0 ≤ cfg.driveHz) (hkvm : 0 ≤ cfg.kvmHz) {asks : List (Time × MessageType)}
    (hsoon : asks.Pairwise fun ask ask' => Soon ask.1 ask'.1)
    (hstart : ∀ ask ∈ asks, Soon start ask.1) :
    (newWithConfig start cfg).allowsAll asks = true ↔
      WithinRate (cfg.burstSize : Rat) cfg.driveHz (asked .drive asks) ∧
        WithinRate (cfg.burstSize : Rat) cfg.kvmHz (asked .kvmKey asks) ∧
        WithinRate (cfg.burstSize : Rat) cfg.kvmHz (asked .kvmMouse asks) := by
  have hrefill (msgType : MessageType) (b : LimitBucket)
      (hb : (newWithConfig start cfg).buckets msgType = some b) : b.lastRefill = start := by
    simp only [newWithConfig] at hb
    split at hb <;> cases hb <;> rfl
  have horder : InOrder start asks :=
    ⟨fun ask hmem => (hstart ask hmem).1, hsoon.imp fun h => h.1⟩
  rw [allowsAll_iff asks _ hsoon fun msgType b hb ask hmem => hrefill msgType b hb ▸ hstart ask hmem]
  exact new_spares_iff hburst hdrive hkvm horder

end RateLimiter

end ChainKVM.Robot
