import ChainKVM.Robot.RateLimiter

/-!
# What the rate limiter allows

Any stream of commands, also one that is not within the rates. Each type that
has a limit and is no e-stop is held to it: a bucket pays for every command
that is allowed (`LimitBucket.paid_cons`), so that each window of time has at
most a burst and its share of the rate. And each type is on its own: its
commands get the answers that they would get without the others
(`RateLimiter.answers_filter`).

`Sub` saturates after 292 years. A bucket then gains less than the rate, which
is why the windows hold all the same, and a command that is refused may even
save some of the gain (`LimitBucket.level_le`).
-/

namespace ChainKVM.Robot

/-- The table `limits` of `NewRateLimiterWithConfig`. -/
def RateLimiterConfig.limits (cfg : RateLimiterConfig) : MessageType → Option Int
  | .drive => some cfg.driveHz
  | .kvmKey => some cfg.kvmHz
  | .kvmMouse => some cfg.kvmHz
  | .eStop => some cfg.eStopHz
  | _ => none

/-! ## The clock -/

theorem nonneg_sub {t u : Int} (h : t ≤ u) : (0 : Int) ≤ sub u t := by
  unfold sub
  omega

theorem sub_le_diff {t u : Time} (h : t ≤ u) : sub u t ≤ u - t :=
  max_le (Int.le_trans (by decide) (Int.sub_nonneg_of_le h)) (min_le_right _ _)

/-- What saturates in one piece does not saturate later in two. -/
theorem saturate_add {d e : Int} (hd : 0 ≤ d) (he : 0 ≤ e) :
    max (-9223372036854775808) (min 9223372036854775807 (d + e)) ≤
      max (-9223372036854775808) (min 9223372036854775807 d) +
        max (-9223372036854775808) (min 9223372036854775807 e) := by
  omega

theorem sub_le_add {s t u : Time} (hst : s ≤ t) (htu : t ≤ u) :
    sub u s ≤ sub t s + sub u t := by
  have hwhole : u - s = (t - s) + (u - t) := by ring
  unfold sub
  rw [hwhole]
  exact saturate_add (Int.sub_nonneg_of_le hst) (Int.sub_nonneg_of_le htu)

theorem seconds_add (d e : Duration) : seconds (d + e) = seconds d + seconds e := by
  unfold seconds
  push_cast
  ring

theorem seconds_nonneg {d : Duration} (h : 0 ≤ d) : 0 ≤ seconds d := by
  have hzero : seconds 0 ≤ seconds d := seconds_le h
  exact (show (0 : Rat) = seconds 0 by simp [seconds]).trans_le hzero

namespace LimitBucket

/-- What the bucket holds at a later time. -/
def level (b : LimitBucket) (now : Time) : Rat :=
  min b.maxTokens (b.tokens + seconds (sub now b.lastRefill) * b.refillRate)

/-- `allow` by the level. -/
theorem allow_eq (b : LimitBucket) (now : Time) :
    b.allow now = (decide (1 ≤ b.level now),
      { b with
        tokens := b.level now - if 1 ≤ b.level now then 1 else 0
        lastRefill := now }) := by
  have hlevel : (if b.maxTokens < b.tokens + seconds (sub now b.lastRefill) * b.refillRate then
      b.maxTokens else b.tokens + seconds (sub now b.lastRefill) * b.refillRate) = b.level now :=
    (min_def_lt _ _).symm
  unfold allow
  dsimp only
  rw [hlevel]
  by_cases h : 1 ≤ b.level now
  · rw [if_pos h, if_pos h, decide_eq_true h]
  · rw [if_neg h, if_neg h, decide_eq_false h, sub_zero]

/-- A bucket of a limiter that was made at `start`, at some later time. -/
structure Holds (cfg : RateLimiterConfig) (start now : Time) (hz : Int) (b : LimitBucket) :
    Prop where
  maxTokens : b.maxTokens = max 1 (cfg.burstSize : Rat)
  refillRate : b.refillRate = hz
  tokens : 0 ≤ b.tokens
  after : start ≤ b.lastRefill
  before : b.lastRefill ≤ now

variable {cfg : RateLimiterConfig} {start now t u : Time} {hz : Int} {b : LimitBucket}

theorem Holds.mono (h : Holds cfg start now hz b) (hnow : now ≤ t) : Holds cfg start t hz b :=
  { h with before := Int.le_trans h.before hnow }

theorem Holds.rate_pos (h : Holds cfg start now hz b) (hhz : 0 < hz) : 0 ≤ b.refillRate := by
  rw [h.refillRate]
  exact_mod_cast hhz.le

theorem Holds.gain_nonneg (h : Holds cfg start now hz b) (hhz : 0 < hz) (ht : now ≤ t) :
    0 ≤ seconds (sub t b.lastRefill) * b.refillRate :=
  mul_nonneg (seconds_nonneg (nonneg_sub (Int.le_trans h.before ht))) (h.rate_pos hhz)

theorem Holds.level_nonneg (h : Holds cfg start now hz b) (hhz : 0 < hz) (ht : now ≤ t) :
    0 ≤ b.level t := by
  refine le_min ?_ (add_nonneg h.tokens (h.gain_nonneg hhz ht))
  rw [h.maxTokens]
  exact zero_le_one.trans (le_max_left _ _)

theorem Holds.allow (h : Holds cfg start now hz b) (hhz : 0 < hz) (ht : now ≤ t) :
    Holds cfg start t hz (b.allow t).2 := by
  rw [allow_eq]
  refine ⟨h.maxTokens, h.refillRate, ?_, Int.le_trans h.after (Int.le_trans h.before ht),
    Int.le_refl _⟩
  show 0 ≤ b.level t - if 1 ≤ b.level t then 1 else 0
  split
  next hpos => exact sub_nonneg.mpr hpos
  next => rw [sub_zero]; exact h.level_nonneg hhz ht

/-- A command is paid for. -/
theorem Holds.paid_cons (h : Holds cfg start now hz b) (hhz : 0 < hz) (ht : now ≤ t)
    {rest : List (Rat × Bool)}
    (hrest : Bucket.Paid (max 1 (cfg.burstSize : Rat)) hz (b.allow t).2.bucket rest) :
    Bucket.Paid (max 1 (cfg.burstSize : Rat)) hz b.bucket
      ((seconds t, (b.allow t).1) :: rest) := by
  rw [allow_eq] at hrest ⊢
  have hlast : b.lastRefill ≤ t := Int.le_trans h.before ht
  refine ⟨b.level t, ?_, ?_, ?_, ?_⟩
  · exact h.maxTokens ▸ min_le_left _ _
  · have hgain : seconds (sub t b.lastRefill) * b.refillRate ≤
        hz * (seconds t - seconds b.lastRefill) := by
      rw [← seconds_sub, mul_comm, h.refillRate]
      exact mul_le_mul_of_nonneg_left (seconds_le (sub_le_diff hlast)) (by exact_mod_cast hhz.le)
    exact (min_le_right _ _).trans (add_le_add_right hgain b.tokens)
  · by_cases hok : 1 ≤ b.level t
    · simp [hok]
    · simpa [hok] using h.level_nonneg hhz ht
  · by_cases hok : 1 ≤ b.level t
    · simpa [bucket, hok] using hrest
    · simpa [bucket, hok] using hrest

/-- After a time in which a whole token is gained, a command is allowed. -/
theorem Holds.allow_of_idle (h : Holds cfg start now hz b) (hhz : 0 < hz) (ht : now ≤ t)
    (hidle : 1 / (hz : Rat) ≤ seconds (t - b.lastRefill)) : (b.allow t).1 = true := by
  have hrate : (1 : Rat) ≤ hz := by exact_mod_cast hhz
  have hpos : (0 : Rat) < hz := by exact_mod_cast hhz
  have hgain : 1 / (hz : Rat) ≤ seconds (sub t b.lastRefill) := by
    -- the longest duration is longer than a second
    rcases le_total (9223372036854775807 : Int) (t - b.lastRefill) with hlong | hshort
    · have hsub : sub t b.lastRefill = 9223372036854775807 := by
        unfold sub
        rw [min_eq_left hlong]
        rfl
      rw [hsub]
      exact ((div_le_one hpos).mpr hrate).trans (by norm_num [seconds])
    · have hsub : sub t b.lastRefill = t - b.lastRefill :=
        RateLimiter.Soon.sub_eq ⟨Int.le_trans h.before ht, hshort⟩
      rwa [hsub]
  have hlevel : 1 ≤ b.level t := by
    refine le_min (h.maxTokens ▸ le_max_left _ _) ?_
    have htoken : 1 ≤ seconds (sub t b.lastRefill) * b.refillRate := by
      rw [h.refillRate]
      exact (div_le_iff₀ hpos).mp hgain
    exact htoken.trans (le_add_of_nonneg_left h.tokens)
  rw [allow_eq]
  exact decide_eq_true hlevel

/-- After a command that is refused, the bucket holds all that it has gained. -/
theorem Holds.level_refused (h : Holds cfg start now hz b) (hhz : 0 < hz) (htu : t ≤ u)
    (hrefused : (b.allow t).1 = false) :
    (b.allow t).2.level u = min b.maxTokens
      (b.tokens + seconds (sub t b.lastRefill + sub u t) * b.refillRate) := by
  have hdenied : ¬1 ≤ b.level t := by
    rw [allow_eq] at hrefused
    exact of_decide_eq_false hrefused
  have hlater : 0 ≤ seconds (sub u t) * b.refillRate :=
    mul_nonneg (seconds_nonneg (nonneg_sub htu)) (h.rate_pos hhz)
  rw [allow_eq, if_neg hdenied, sub_zero]
  show min b.maxTokens (min b.maxTokens (b.tokens + seconds (sub t b.lastRefill) * b.refillRate) +
    seconds (sub u t) * b.refillRate) = _
  rw [← min_add_add_right, ← min_assoc, min_eq_left (le_add_of_nonneg_right hlater), seconds_add]
  congr 1
  ring

/-- A command that is refused takes nothing: at any later time the bucket
holds at least what it would have held without it. -/
theorem Holds.level_le (h : Holds cfg start now hz b) (hhz : 0 < hz) (ht : now ≤ t) (htu : t ≤ u)
    (hrefused : (b.allow t).1 = false) : b.level u ≤ (b.allow t).2.level u := by
  have hlast : b.lastRefill ≤ t := Int.le_trans h.before ht
  have hgain : seconds (sub u b.lastRefill) ≤ seconds (sub t b.lastRefill + sub u t) :=
    seconds_le (sub_le_add hlast htu)
  rw [h.level_refused hhz htu hrefused]
  exact min_le_min le_rfl
    (add_le_add_right (mul_le_mul_of_nonneg_right hgain (h.rate_pos hhz)) b.tokens)

/-- As long as `Sub` is exact, the bucket holds what it would have held. -/
theorem Holds.level_eq (h : Holds cfg start now hz b) (hhz : 0 < hz) (ht : now ≤ t) (htu : t ≤ u)
    (hsoon : RateLimiter.Soon start u) (hrefused : (b.allow t).1 = false) :
    b.level u = (b.allow t).2.level u := by
  have hlast : b.lastRefill ≤ t := Int.le_trans h.before ht
  obtain ⟨-, hbound⟩ := hsoon
  have hexact {v v' : Time} (hv : start ≤ v) (hvv' : v ≤ v') (hv' : v' ≤ u) :
      sub v' v = v' - v :=
    RateLimiter.Soon.sub_eq ⟨hvv', Int.le_trans (Int.sub_le_sub hv' hv) hbound⟩
  have hsum : (t - b.lastRefill) + (u - t) = u - b.lastRefill := by ring
  rw [h.level_refused hhz htu hrefused, hexact h.after hlast htu,
    hexact (Int.le_trans h.after hlast) htu (Int.le_refl u), hsum, level,
    hexact h.after (Int.le_trans hlast htu) (Int.le_refl u)]

end LimitBucket

namespace RateLimiter

/-- The answers to a stream of commands. -/
def answers : RateLimiter → List (Time × MessageType) → List ((Time × MessageType) × Bool)
  | _, [] => []
  | rl, ask :: asks => (ask, (rl.allow ask.1 ask.2).1) :: answers (rl.allow ask.1 ask.2).2 asks

/-- The limiter after a stream of commands. -/
def after (rl : RateLimiter) (asks : List (Time × MessageType)) : RateLimiter :=
  asks.foldl (fun rl ask => (rl.allow ask.1 ask.2).2) rl

/-- The answers to the commands of a type, with the times in seconds. -/
def answered (msgType : MessageType) (answers : List ((Time × MessageType) × Bool)) :
    List (Rat × Bool) :=
  (answers.filter fun a => a.1.2 = msgType).map fun a => (seconds a.1.1, a.2)

/-- The times at which a type was allowed. -/
def allowedAt (msgType : MessageType) (answers : List ((Time × MessageType) × Bool)) : List Rat :=
  granted (answered msgType answers)

/-- What the bucket of a type holds at a later time. -/
def level (rl : RateLimiter) (msgType : MessageType) (now : Time) : Option Rat :=
  (rl.buckets msgType).map (·.level now)

variable {rl rl' : RateLimiter} {now t u : Time} {msgType other : MessageType} {b : LimitBucket}

/-! ## One command -/

/-- A command of one type leaves the buckets of the others. -/
theorem allow_buckets_of_ne (hne : msgType ≠ other) (rl : RateLimiter) (t : Time) :
    (rl.allow t other).2.buckets msgType = rl.buckets msgType := by
  unfold allow
  split
  · rfl
  · split
    · rfl
    · exact Function.update_of_ne hne _ _

theorem allow_of_bucket (hstop : msgType ≠ .eStop) (hb : rl.buckets msgType = some b) (t : Time) :
    rl.allow t msgType =
      ((b.allow t).1, ⟨Function.update rl.buckets msgType (some (b.allow t).2)⟩) := by
  unfold allow
  rw [if_neg hstop, hb]

/-- A type that has no limit is always allowed, and so is an e-stop. -/
theorem allow_of_free (hfree : msgType = .eStop ∨ rl.buckets msgType = none) (t : Time) :
    rl.allow t msgType = (true, rl) := by
  unfold allow
  by_cases hstop : msgType = .eStop
  · rw [if_pos hstop]
  · rw [if_neg hstop, hfree.resolve_left hstop]

/-- The answer, and what becomes of the bucket, is up to the bucket. -/
theorem allow_congr (hsame : rl.buckets msgType = rl'.buckets msgType) (t : Time) :
    (rl.allow t msgType).1 = (rl'.allow t msgType).1 ∧
      (rl.allow t msgType).2.buckets msgType = (rl'.allow t msgType).2.buckets msgType := by
  by_cases hstop : msgType = .eStop
  · rw [allow_of_free (.inl hstop), allow_of_free (.inl hstop)]
    exact ⟨rfl, hsame⟩
  · cases hb : rl.buckets msgType with
    | none =>
      have hb' : rl'.buckets msgType = none := hsame.symm.trans hb
      rw [allow_of_free (.inr hb), allow_of_free (.inr hb')]
      exact ⟨rfl, hsame⟩
    | some b =>
      have hb' : rl'.buckets msgType = some b := hsame.symm.trans hb
      rw [allow_of_bucket hstop hb, allow_of_bucket hstop hb']
      refine ⟨rfl, ?_⟩
      dsimp only
      rw [Function.update_self, Function.update_self]

/-! ## Each type is on its own -/

/-- The commands of a type get the answers that they would get without the
others. -/
theorem answers_filter_of_same (asks : List (Time × MessageType)) :
    ∀ {rl rl' : RateLimiter}, rl.buckets msgType = rl'.buckets msgType →
      (rl.answers asks).filter (fun a => a.1.2 = msgType) =
        rl'.answers (asks.filter fun ask => ask.2 = msgType) := by
  induction asks with
  | nil => exact fun _ => rfl
  | cons ask asks ih =>
    intro rl rl' hsame
    obtain ⟨t, other⟩ := ask
    by_cases hother : other = msgType
    · subst hother
      obtain ⟨hanswer, hbucket⟩ := allow_congr hsame t
      rw [answers, List.filter_cons_of_pos (by simp), List.filter_cons_of_pos (by simp), answers,
        hanswer, ih hbucket]
    · have hskip := (allow_buckets_of_ne (Ne.symm hother) rl t).trans hsame
      rw [answers, List.filter_cons_of_neg (by simpa using hother),
        List.filter_cons_of_neg (by simpa using hother), ih hskip]

theorem answers_filter (msgType : MessageType) (rl : RateLimiter)
    (asks : List (Time × MessageType)) :
    (rl.answers asks).filter (fun a => a.1.2 = msgType) =
      rl.answers (asks.filter fun ask => ask.2 = msgType) :=
  answers_filter_of_same asks rfl

/-! ## The bucket of a type -/

/-- The bucket of a type, at some time after `start`. -/
def Keeps (cfg : RateLimiterConfig) (start now : Time) (hz : Int) (msgType : MessageType)
    (rl : RateLimiter) : Prop :=
  ∃ b, rl.buckets msgType = some b ∧ LimitBucket.Holds cfg start now hz b

variable {cfg : RateLimiterConfig} {start : Time} {hz : Int}

theorem keeps_new (hlimit : cfg.limits msgType = some hz) :
    Keeps cfg start start hz msgType (newWithConfig start cfg) := by
  have hnew (hz : Int) : LimitBucket.Holds cfg start start hz
      (.new start hz (if cfg.burstSize < 1 then 1 else cfg.burstSize)) := by
    have hsize : (if ((if cfg.burstSize < 1 then 1 else cfg.burstSize : Int) : Rat) < 1 then 1
        else ((if cfg.burstSize < 1 then 1 else cfg.burstSize : Int) : Rat)) =
          max 1 (cfg.burstSize : Rat) := by
      by_cases hsmall : cfg.burstSize < 1
      · have hcast : (cfg.burstSize : Rat) ≤ 1 := by exact_mod_cast hsmall.le
        rw [if_pos hsmall, max_eq_left hcast]
        norm_num
      · have hcast : (1 : Rat) ≤ cfg.burstSize := by exact_mod_cast not_lt.mp hsmall
        rw [if_neg hsmall, max_eq_right hcast, if_neg (not_lt.mpr hcast)]
    refine ⟨hsize, rfl, ?_, Int.le_refl _, Int.le_refl _⟩
    exact (zero_le_one.trans (le_max_left 1 (cfg.burstSize : Rat))).trans_eq hsize.symm
  unfold RateLimiterConfig.limits at hlimit
  cases msgType with
  | drive | kvmKey | kvmMouse | eStop =>
    cases hlimit
    exact ⟨_, rfl, hnew _⟩
  | _ => cases hlimit

/-- One command, of this type or another. -/
theorem Keeps.allow (h : Keeps cfg start now hz msgType rl) (hhz : 0 < hz) (ht : now ≤ t)
    (other : MessageType) : Keeps cfg start t hz msgType (rl.allow t other).2 := by
  obtain ⟨b, hb, hholds⟩ := h
  by_cases hother : msgType = other
  · subst hother
    by_cases hstop : msgType = .eStop
    · rw [allow_of_free (.inl hstop)]
      exact ⟨b, hb, hholds.mono ht⟩
    · rw [allow_of_bucket hstop hb]
      exact ⟨_, Function.update_self _ _ _, hholds.allow hhz ht⟩
  · exact ⟨b, (allow_buckets_of_ne hother rl t).trans hb, hholds.mono ht⟩

theorem InOrder.tail {ask : Time × MessageType} {asks : List (Time × MessageType)}
    (h : InOrder now (ask :: asks)) : InOrder ask.1 asks :=
  ⟨(List.pairwise_cons.mp h.sorted).1, (List.pairwise_cons.mp h.sorted).2⟩

theorem InOrder.head {ask : Time × MessageType} {asks : List (Time × MessageType)}
    (h : InOrder now (ask :: asks)) : now ≤ ask.1 := h.after ask (List.mem_cons_self ..)

/-- A whole stream. -/
theorem Keeps.after (hhz : 0 < hz) :
    ∀ {asks : List (Time × MessageType)} {rl : RateLimiter} {now : Time}, now ≤ t →
      Keeps cfg start now hz msgType rl → InOrder now asks → (∀ ask ∈ asks, ask.1 ≤ t) →
        Keeps cfg start t hz msgType (rl.after asks) := by
  intro asks
  induction asks with
  | nil =>
    intro rl now htime h _ _
    obtain ⟨b, hb, hholds⟩ := h
    exact ⟨b, hb, hholds.mono htime⟩
  | cons ask asks ih =>
    intro rl now _ h horder hbefore
    exact ih (hbefore ask (List.mem_cons_self ..)) (h.allow hhz horder.head ask.2) horder.tail
      fun ask' hmem => hbefore ask' (List.mem_cons_of_mem _ hmem)

/-- The bucket of a type pays for all that is allowed. -/
theorem paid (hstop : msgType ≠ .eStop) (hhz : 0 < hz) (asks : List (Time × MessageType)) :
    ∀ {rl : RateLimiter} {now : Time} {b : LimitBucket}, rl.buckets msgType = some b →
      LimitBucket.Holds cfg start now hz b → InOrder now asks →
        Bucket.Paid (max 1 (cfg.burstSize : Rat)) hz b.bucket
          (answered msgType (rl.answers asks)) := by
  induction asks with
  | nil => exact fun _ _ _ => trivial
  | cons ask asks ih =>
    intro rl now b hb hholds horder
    obtain ⟨t, other⟩ := ask
    unfold answered at ih ⊢
    by_cases hother : other = msgType
    · subst hother
      have hbucket : (rl.allow t other).2.buckets other = some (b.allow t).2 := by
        rw [allow_of_bucket hstop hb]
        exact Function.update_self _ _ _
      rw [answers, List.filter_cons_of_pos (by simp), List.map_cons, allow_of_bucket hstop hb]
      rw [allow_of_bucket hstop hb] at hbucket
      exact hholds.paid_cons hhz horder.head
        (ih hbucket (hholds.allow hhz horder.head) horder.tail)
    · have hbucket := (allow_buckets_of_ne (Ne.symm hother) rl t).trans hb
      rw [answers, List.filter_cons_of_neg (by simpa using hother)]
      exact ih hbucket (hholds.mono horder.head) horder.tail

theorem answers_map (asks : List (Time × MessageType)) :
    ∀ rl : RateLimiter, (rl.answers asks).map (·.1) = asks := by
  induction asks with
  | nil => exact fun _ => rfl
  | cons ask asks ih =>
    intro rl
    rw [answers, List.map_cons, ih]

theorem answered_sorted {asks : List (Time × MessageType)} (horder : InOrder now asks)
    (msgType : MessageType) (rl : RateLimiter) :
    (answered msgType (rl.answers asks)).Pairwise fun a a' => a.1 ≤ a'.1 := by
  have hsorted := horder.sorted
  rw [← answers_map asks rl, List.pairwise_map] at hsorted
  exact List.pairwise_map.mpr ((hsorted.filter _).imp fun h => seconds_le h)

/-- What is allowed of a type is within its rate. -/
theorem allowed_withinRate (hlimit : cfg.limits msgType = some hz) (hstop : msgType ≠ .eStop)
    (hhz : 0 < hz) {asks : List (Time × MessageType)} (horder : InOrder start asks) :
    WithinRate (max 1 (cfg.burstSize : Rat)) hz
      (allowedAt msgType ((newWithConfig start cfg).answers asks)) := by
  have hkeeps : Keeps cfg start start hz msgType (newWithConfig start cfg) := keeps_new hlimit
  obtain ⟨b, hb, hholds⟩ := hkeeps
  exact (paid hstop hhz asks hb hholds horder).withinRate
    (zero_le_one.trans (le_max_left _ _)) (by exact_mod_cast hhz.le)
    (answered_sorted horder msgType _)

/-! ## A command after a pause -/

theorem after_append (rl : RateLimiter) (asks asks' : List (Time × MessageType)) :
    rl.after (asks ++ asks') = (rl.after asks).after asks' := List.foldl_append

theorem answers_append (asks asks' : List (Time × MessageType)) :
    ∀ rl : RateLimiter,
      rl.answers (asks ++ asks') = rl.answers asks ++ (rl.after asks).answers asks' := by
  induction asks with
  | nil => exact fun _ => rfl
  | cons ask asks ih =>
    intro rl
    rw [List.cons_append, answers, ih]
    rfl

/-- The commands of other types leave the bucket. -/
theorem after_buckets_of_ne {asks : List (Time × MessageType)}
    (hnone : ∀ ask ∈ asks, ask.2 ≠ msgType) (rl : RateLimiter) :
    (rl.after asks).buckets msgType = rl.buckets msgType := by
  induction asks generalizing rl with
  | nil => rfl
  | cons ask asks ih =>
    refine (ih (fun ask' hmem => hnone ask' (List.mem_cons_of_mem _ hmem)) _).trans ?_
    exact allow_buckets_of_ne (hnone ask (List.mem_cons_self ..)).symm rl ask.1

/-- A beginning of a stream is in order, and before what follows. -/
theorem InOrder.split {asks asks' : List (Time × MessageType)} {ask : Time × MessageType}
    (h : InOrder start (asks ++ ask :: asks')) :
    InOrder start asks ∧ start ≤ ask.1 ∧ (∀ a ∈ asks, a.1 ≤ ask.1) ∧ InOrder ask.1 asks' := by
  obtain ⟨hbefore, hrest, hacross⟩ := List.pairwise_append.mp h.sorted
  refine ⟨⟨fun a ha => h.after a (List.mem_append_left _ ha), hbefore⟩,
    h.after ask (List.mem_append_right _ (List.mem_cons_self ..)),
    fun a ha => hacross a ha ask (List.mem_cons_self ..), ?_⟩
  exact ⟨(List.pairwise_cons.mp hrest).1, (List.pairwise_cons.mp hrest).2⟩

/-- The bucket of a type at a command, whatever came before. -/
theorem keeps_at (hlimit : cfg.limits msgType = some hz) (hhz : 0 < hz)
    {before rest : List (Time × MessageType)} {ask : Time × MessageType}
    (horder : InOrder start (before ++ ask :: rest)) :
    Keeps cfg start ask.1 hz msgType ((newWithConfig start cfg).after before) := by
  obtain ⟨hbefore, hstart, hlater, -⟩ := horder.split
  exact Keeps.after hhz hstart (keeps_new hlimit) hbefore hlater

/-- A command is allowed `1 / hz` after the last one of its type. -/
theorem allow_of_pause (hlimit : cfg.limits msgType = some hz) (hhz : 0 < hz)
    {earlier between rest : List (Time × MessageType)}
    (horder : InOrder start (earlier ++ (t, msgType) :: between ++ (u, msgType) :: rest))
    (hnone : ∀ ask ∈ between, ask.2 ≠ msgType) (hpause : 1 / (hz : Rat) ≤ seconds (u - t)) :
    (((newWithConfig start cfg).after (earlier ++ (t, msgType) :: between)).allow u msgType).1 =
      true := by
  by_cases hstop : msgType = .eStop
  · rw [allow_of_free (.inl hstop)]
  · have hat := keeps_at hlimit hhz horder
    obtain ⟨hbefore, -, -, -⟩ := horder.split
    obtain ⟨b₀, hb₀, -⟩ := keeps_at hlimit hhz hbefore
    obtain ⟨b, hb, hholds⟩ := hat
    -- the bucket was used last at `t`
    have hlast : b.lastRefill = t := by
      rw [after_append] at hb
      have hused : (((newWithConfig start cfg).after earlier).allow t msgType).2.buckets msgType =
          some b := (after_buckets_of_ne hnone _).symm.trans hb
      rw [allow_of_bucket hstop hb₀, LimitBucket.allow_eq] at hused
      dsimp only at hused
      rw [Function.update_self] at hused
      rw [← Option.some.inj hused]
    rw [allow_of_bucket hstop hb]
    rw [← hlast] at hpause
    exact hholds.allow_of_idle hhz (Int.le_refl _) hpause

/-! ## A command that is refused -/

/-- Two limiters whose buckets of one type hold the same at all commands of a
stream give the same answers. -/
theorem answers_congr_of_level (hstop : msgType ≠ .eStop) (asks : List (Time × MessageType)) :
    ∀ {rl rl' : RateLimiter} {b b' : LimitBucket},
      (∀ other, other ≠ msgType → rl.buckets other = rl'.buckets other) →
      rl.buckets msgType = some b → rl'.buckets msgType = some b' →
      b.maxTokens = b'.maxTokens → b.refillRate = b'.refillRate →
      (∀ ask ∈ asks, b.level ask.1 = b'.level ask.1) → rl.answers asks = rl'.answers asks := by
  induction asks with
  | nil => exact fun _ _ _ _ _ _ => rfl
  | cons ask asks ih =>
    intro rl rl' b b' hsame hb hb' hmax hrate hlevel
    obtain ⟨t, other⟩ := ask
    by_cases hother : other = msgType
    · subst hother
      have hnow : b.level t = b'.level t := hlevel (t, other) (List.mem_cons_self ..)
      have hallow : b.allow t = b'.allow t := by
        obtain ⟨tokens, maxTokens, refillRate, lastRefill⟩ := b
        obtain ⟨tokens', maxTokens', refillRate', lastRefill'⟩ := b'
        rw [LimitBucket.allow_eq, LimitBucket.allow_eq, hnow]
        cases hmax
        cases hrate
        rfl
      -- from the first command of the type on, the limiters are the same
      have hequal : rl.allow t other = rl'.allow t other := by
        rw [allow_of_bucket hstop hb, allow_of_bucket hstop hb', hallow]
        have hbuckets : Function.update rl.buckets other (some (b'.allow t).2) =
            Function.update rl'.buckets other (some (b'.allow t).2) := by
          funext ty
          by_cases hty : ty = other
          · rw [hty, Function.update_self, Function.update_self]
          · rw [Function.update_of_ne hty, Function.update_of_ne hty, hsame ty hty]
        rw [hbuckets]
      rw [answers, answers, hequal]
    · have hanswer := allow_congr (hsame other hother) t
      have hkeep := allow_buckets_of_ne (Ne.symm hother)
      have hrest : (rl.allow t other).2.answers asks = (rl'.allow t other).2.answers asks := by
        refine ih (fun ty hty => ?_) ((hkeep rl t).trans hb) ((hkeep rl' t).trans hb') hmax hrate
          fun ask hmem => hlevel ask (List.mem_cons_of_mem _ hmem)
        by_cases hself : ty = other
        · rw [hself]
          exact hanswer.2
        · rw [allow_buckets_of_ne hself, allow_buckets_of_ne hself, hsame ty hty]
      rw [answers, answers, hanswer.1, hrest]

/-- A command takes nothing: at any later time the bucket of its type holds at
least what it would have held without it, and for as long as `Sub` is exact
all later commands get the answers that they would have got. -/
structure TakesNothing (rl : RateLimiter) (start t : Time) (msgType : MessageType)
    (rest : List (Time × MessageType)) : Prop where
  level : ∀ u, t ≤ u → ∀ held ∈ rl.level msgType u,
    ∃ held' ∈ (rl.allow t msgType).2.level msgType u, held ≤ held'
  answers : (∀ ask ∈ rest, Soon start ask.1) →
    (rl.allow t msgType).2.answers rest = rl.answers rest

theorem takesNothing_of_refused (hlimit : cfg.limits msgType = some hz) (hhz : 0 < hz)
    {before rest : List (Time × MessageType)}
    (horder : InOrder start (before ++ (t, msgType) :: rest))
    (hrefused : (((newWithConfig start cfg).after before).allow t msgType).1 = false) :
    TakesNothing ((newWithConfig start cfg).after before) start t msgType rest := by
  have hat := keeps_at hlimit hhz horder
  obtain ⟨-, -, -, hrest⟩ := horder.split
  generalize (newWithConfig start cfg).after before = rl at hat hrefused ⊢
  obtain ⟨b, hb, hholds⟩ := hat
  have hstop : msgType ≠ .eStop := by
    intro hstop
    rw [allow_of_free (.inl hstop)] at hrefused
    cases hrefused
  rw [allow_of_bucket hstop hb] at hrefused
  -- the refused message still moves the bucket, to a level that is the same later
  have hbucket : (rl.allow t msgType).2.buckets msgType = some (b.allow t).2 := by
    rw [allow_of_bucket hstop hb]
    exact Function.update_self _ _ _
  constructor
  · intro u htu held hheld
    rw [RateLimiter.level, hb] at hheld
    rw [RateLimiter.level, hbucket]
    refine ⟨_, rfl, ?_⟩
    rw [← Option.some.inj hheld]
    exact hholds.level_le hhz (Int.le_refl _) htu hrefused
  · intro hsoon
    refine (answers_congr_of_level hstop rest (fun other hother => ?_) hb hbucket ?_ ?_ ?_).symm
    · exact (allow_buckets_of_ne hother rl t).symm
    · rw [LimitBucket.allow_eq]
    · rw [LimitBucket.allow_eq]
    · exact fun ask hmem => hholds.level_eq hhz (Int.le_refl _) (hrest.after ask hmem)
        (hsoon ask hmem) hrefused

/-! ## The limiter -/

theorem new_buckets_eq_none (hnone : cfg.limits msgType = none) :
    (newWithConfig start cfg).buckets msgType = none := by
  cases msgType with
  | drive | kvmKey | kvmMouse | eStop => cases hnone
  | _ => rfl

/-- E-stops, and types that have no limit, are allowed throughout. -/
theorem answers_of_free (asks : List (Time × MessageType)) :
    ∀ {rl : RateLimiter}, msgType = .eStop ∨ rl.buckets msgType = none →
      ∀ a ∈ rl.answers asks, a.1.2 = msgType → a.2 = true := by
  induction asks with
  | nil => exact fun _ a ha => absurd ha List.not_mem_nil
  | cons ask asks ih =>
    intro rl hfree a ha htype
    rcases List.mem_cons.mp ha with rfl | hmem
    · dsimp only at htype ⊢
      rw [htype, allow_of_free hfree]
    · refine ih ?_ a hmem htype
      by_cases hother : msgType = ask.2
      · rw [← hother, allow_of_free hfree]
        exact hfree
      · rw [allow_buckets_of_ne hother]
        exact hfree

/-- A new limiter with positive rates, and any stream of commands in the order
of time. -/
theorem limiter_allows (cfg : RateLimiterConfig) (start : Time)
    (asks : List (Time × MessageType))
    (hpos : ∀ msgType hz, cfg.limits msgType = some hz → 0 < hz) (horder : InOrder start asks) :
    (∀ msgType hz, cfg.limits msgType = some hz → msgType ≠ .eStop →
      WithinRate (max 1 (cfg.burstSize : Rat)) hz
        (allowedAt msgType ((newWithConfig start cfg).answers asks))) ∧
    (∀ msgType, msgType = .eStop ∨ cfg.limits msgType = none →
      ∀ a ∈ (newWithConfig start cfg).answers asks, a.1.2 = msgType → a.2 = true) ∧
    (∀ msgType hz earlier t between u rest, cfg.limits msgType = some hz →
      asks = earlier ++ (t, msgType) :: between ++ (u, msgType) :: rest →
        (∀ ask ∈ between, ask.2 ≠ msgType) → 1 / (hz : Rat) ≤ seconds (u - t) →
          (((newWithConfig start cfg).after (earlier ++ (t, msgType) :: between)).allow u
            msgType).1 = true) ∧
    (∀ msgType before t rest, asks = before ++ (t, msgType) :: rest →
      (((newWithConfig start cfg).after before).allow t msgType).1 = false →
        TakesNothing ((newWithConfig start cfg).after before) start t msgType rest) ∧
    (∀ msgType, ((newWithConfig start cfg).answers asks).filter (fun a => a.1.2 = msgType) =
      (newWithConfig start cfg).answers (asks.filter fun ask => ask.2 = msgType)) := by
  refine ⟨?_, ?_, ?_, ?_, fun msgType => answers_filter msgType _ asks⟩
  · intro msgType hz hlimit hstop
    exact allowed_withinRate hlimit hstop (hpos msgType hz hlimit) horder
  · intro msgType hfree
    exact answers_of_free asks (hfree.imp_right new_buckets_eq_none)
  · intro msgType hz earlier t between u rest hlimit hsplit hnone hpause
    rw [hsplit] at horder
    exact allow_of_pause hlimit (hpos msgType hz hlimit) horder hnone hpause
  · intro msgType before t rest hsplit hrefused
    rw [hsplit] at horder
    cases hlimit : cfg.limits msgType with
    | some hz => exact takesNothing_of_refused hlimit (hpos msgType hz hlimit) horder hrefused
    | none =>
      -- what has no limit is not refused
      have hnone : (newWithConfig start cfg).buckets msgType = none := new_buckets_eq_none hlimit
      have hfree := answers_of_free asks (.inr hnone)
        ((t, msgType), (((newWithConfig start cfg).after before).allow t msgType).1)
      rw [hsplit, answers_append] at hfree
      have hallowed := hfree (List.mem_append_right _ (List.mem_cons_self ..)) rfl
      rw [hrefused] at hallowed
      cases hallowed

/-- One command a second of each type, and no bursts. -/
def slow : RateLimiterConfig := ⟨1, 1, 1, 1⟩

theorem slow_pos : ∀ msgType hz, slow.limits msgType = some hz → 0 < hz := by
  intro msgType hz h
  cases msgType with
  | drive | kvmKey | kvmMouse | eStop => exact Option.some.inj h ▸ Int.one_pos
  | _ => cases h

/-- Two e-stops at once, and two drive commands. -/
def atOnce : List (Time × MessageType) := [(0, .eStop), (0, .eStop), (0, .drive), (0, .drive)]

theorem limiter_allows_sample :
    (∀ msgType hz, slow.limits msgType = some hz → msgType ≠ .eStop →
      WithinRate (max 1 ((1 : Int) : Rat)) hz
        (allowedAt msgType ((newWithConfig 0 slow).answers atOnce))) ∧
    (∀ msgType, msgType = .eStop ∨ slow.limits msgType = none →
      ∀ a ∈ (newWithConfig 0 slow).answers atOnce, a.1.2 = msgType → a.2 = true) ∧
    (∀ msgType hz earlier t between u rest, slow.limits msgType = some hz →
      atOnce = earlier ++ (t, msgType) :: between ++ (u, msgType) :: rest →
        (∀ ask ∈ between, ask.2 ≠ msgType) → 1 / (hz : Rat) ≤ seconds (u - t) →
          (((newWithConfig 0 slow).after (earlier ++ (t, msgType) :: between)).allow u
            msgType).1 = true) ∧
    (∀ msgType before t rest, atOnce = before ++ (t, msgType) :: rest →
      (((newWithConfig 0 slow).after before).allow t msgType).1 = false →
        TakesNothing ((newWithConfig 0 slow).after before) 0 t msgType rest) ∧
    (∀ msgType, ((newWithConfig 0 slow).answers atOnce).filter (fun a => a.1.2 = msgType) =
      (newWithConfig 0 slow).answers (atOnce.filter fun ask => ask.2 = msgType)) :=
  limiter_allows slow 0 atOnce slow_pos ⟨by decide, by decide⟩

/-- Both e-stops are allowed, where the limit is one at a time. -/
theorem limiter_allows_fails :
    ¬ ∀ (cfg : RateLimiterConfig) (start : Time) (asks : List (Time × MessageType)),
      (∀ msgType hz, cfg.limits msgType = some hz → 0 < hz) → InOrder start asks →
        ∀ msgType hz, cfg.limits msgType = some hz →
          WithinRate (max 1 (cfg.burstSize : Rat)) hz
            (allowedAt msgType ((newWithConfig start cfg).answers asks)) := by
  intro h
  have hwithin := h slow 0 [(0, .eStop), (0, .eStop)] slow_pos ⟨by decide, by decide⟩ .eStop 1 rfl
    0 0 le_rfl
  have hallowed : allowedAt .eStop ((newWithConfig 0 slow).answers [(0, .eStop), (0, .eStop)]) =
      [seconds 0, seconds 0] := rfl
  rw [hallowed] at hwithin
  norm_num [arrivals, seconds, slow] at hwithin

end RateLimiter

end ChainKVM.Robot
