import ChainKVM.Gateway.Tokens
import ChainKVM.Lib.Machine

/-!
# How the revocation cache stays small

The revocation cache makes room in `add` alone: at capacity it takes out the
tenth of its entries that were revoked first (`evict_size`, `evict_oldest`).
Whether these have expired plays no part, and an entry that has expired may stay
(`cache_run_fails`). `loadFromStore` makes no room.

`Counted` is what every operation keeps: each entry lies under its own `jti`, and
the size metric is the number of entries. With it `cache_run` follows: the metric
at all times, the bound in every run whose loads stay within it, and for each
operation which entries it takes out.
-/

namespace ChainKVM.Gateway

open Machine (Always Steps)

/-! ## Runs -/

/-- An operation of the revocation cache. -/
inductive RevocationOp where
  | add (jti : String) (expiresAt : Int) (reason : Option String)
  | isRevoked (jti : String)
  | remove (jti : String)
  | cleanup
  | loadFromStore (entries : List RevokedEntry)

/-- An operation, some time after the one before it. -/
structure RevocationCall where
  elapsed : Nat
  op : RevocationOp

structure RevocationRun where
  now : Int
  cache : RevocationCache

namespace RevocationRun

def start (maxSize now : Int) : RevocationRun := ⟨now, .new maxSize⟩

def step (s : RevocationRun) (call : RevocationCall) : RevocationRun :=
  let now := s.now + call.elapsed
  match call.op with
  | .add jti expiresAt reason => ⟨now, s.cache.add now jti expiresAt reason⟩
  | .isRevoked jti => ⟨now, (s.cache.isRevoked now jti).2⟩
  | .remove jti => ⟨now, (s.cache.remove jti).2⟩
  | .cleanup => ⟨now, (s.cache.cleanup now).2⟩
  | .loadFromStore entries => ⟨now, s.cache.loadFromStore now entries⟩

end RevocationRun

namespace RevocationCache

/-- How many entries go when there is no room: a tenth, and one at least. -/
def toEvict (c : RevocationCache) : Nat := max 1 (c.cache.size / 10)

/-- Every entry lies under its own `jti`, and the size metric counts them. -/
structure Counted (c : RevocationCache) : Prop where
  keyed : ∀ jti entry, c.cache.get jti = some entry → entry.jti = jti
  size : c.metrics.size = c.cache.size

end RevocationCache

section

variable (s : RevocationRun) (call : RevocationCall)

/-- No load leaves more entries than there is room for. -/
def LoadFits : Prop :=
  ∀ entries, call.op = .loadFromStore entries →
    ((s.step call).cache.cache.size : Int) ≤ s.cache.maxSize

/-- What an operation does to an entry that is there before it and not after:
`add` takes it at capacity, with others that make up `toEvict`, and leaves none
that was revoked before it; else it had expired, or was removed by name. -/
def TakesOut : Prop :=
  let now := s.now + call.elapsed
  match call.op with
  | .add _ _ _ =>
    ((s.cache.cache.size : Int) < s.cache.maxSize → s.cache.evictIfNeeded = s.cache) ∧
      (s.cache.maxSize ≤ s.cache.cache.size →
        s.cache.evictIfNeeded.cache.size + s.cache.toEvict = s.cache.cache.size ∧
        ∀ jti gone, s.cache.cache.get jti = some gone → s.cache.evictIfNeeded.cache.get jti = none →
          ∀ jti' kept, s.cache.evictIfNeeded.cache.get jti' = some kept →
            gone.revokedAt ≤ kept.revokedAt)
  | .isRevoked jti => ∀ jti' gone, s.cache.cache.get jti' = some gone →
    (s.step call).cache.cache.get jti' = none → jti' = jti ∧ gone.expiresAt ≤ now
  | .remove jti => ∀ jti' gone, s.cache.cache.get jti' = some gone →
    (s.step call).cache.cache.get jti' = none → jti' = jti
  | .cleanup => ∀ jti gone, s.cache.cache.get jti = some gone →
    (s.step call).cache.cache.get jti = none → gone.expiresAt ≤ now
  | .loadFromStore _ => ∀ jti gone, s.cache.cache.get jti = some gone →
    (s.step call).cache.cache.get jti ≠ none

end

/-! ## Eviction -/

namespace RevocationCache

variable {c : RevocationCache}

/-- The entries that go when there is no room. -/
def evicted (c : RevocationCache) : List RevokedEntry :=
  (c.cache.values.insertionSort fun a b => a.revokedAt ≤ b.revokedAt).take c.toEvict

theorem toEvict_eq (c : RevocationCache) :
    c.toEvict = if c.cache.size / 10 = 0 then 1 else c.cache.size / 10 := by
  unfold toEvict
  split
  · omega
  · omega

theorem evictIfNeeded_cache (h : c.maxSize ≤ c.cache.size) :
    c.evictIfNeeded.cache = (c.evicted.map (·.jti)).foldl OrdMap.delete c.cache := by
  unfold evictIfNeeded evicted
  rw [if_neg (Int.not_lt.mpr h), List.foldl_map, toEvict_eq]

theorem Counted.get_jti (h : Counted c) {e : RevokedEntry} (he : e ∈ c.cache.values) :
    c.cache.get e.jti = some e := by
  obtain ⟨jti, hget⟩ := OrdMap.mem_values_iff.mp he
  rw [h.keyed jti e hget]
  exact hget

/-- No two entries share a `jti`. -/
theorem Counted.nodup (h : Counted c) : (c.cache.values.map (·.jti)).Nodup := by
  have hkeys : c.cache.values.map (·.jti) = c.cache.entries.map Prod.fst := by
    unfold OrdMap.values
    rw [List.map_map]
    refine List.map_congr_left fun e he => ?_
    exact h.keyed e.1 e.2 (OrdMap.get_eq_some_iff.mpr he)
  rw [hkeys]
  exact c.cache.nodup

theorem mem_values_of_evicted {e : RevokedEntry} (he : e ∈ c.evicted) : e ∈ c.cache.values :=
  (List.mem_insertionSort _).mp (List.mem_of_mem_take he)

theorem Counted.nodup_evicted (h : Counted c) : (c.evicted.map (·.jti)).Nodup := by
  have hperm := (List.perm_insertionSort (fun a b : RevokedEntry => a.revokedAt ≤ b.revokedAt)
    c.cache.values).map (·.jti)
  have hsorted := hperm.nodup_iff.mpr h.nodup
  exact hsorted.sublist ((List.take_sublist _ _).map _)

/-- Eviction takes out as many entries as it says. -/
theorem Counted.evict_size (h : Counted c) (hmax : 1 ≤ c.maxSize)
    (hfull : c.maxSize ≤ c.cache.size) : c.evictIfNeeded.cache.size + c.toEvict = c.cache.size := by
  have hmem : ∀ jti ∈ c.evicted.map (·.jti), (c.cache.get jti).isSome := by
    intro jti hjti
    obtain ⟨e, he, hej⟩ := List.mem_map.mp hjti
    rw [← hej, h.get_jti (mem_values_of_evicted he)]
    rfl
  have hlength : (c.evicted.map (·.jti)).length = c.toEvict := by
    have hvalues : c.cache.values.length = c.cache.size := List.length_map _
    have hle : c.toEvict ≤ c.cache.size := by
      unfold toEvict
      omega
    unfold evicted
    rw [List.length_map, List.length_take, List.length_insertionSort, hvalues]
    omega
  have hsize := OrdMap.size_foldl_delete h.nodup_evicted hmem
  rw [evictIfNeeded_cache hfull, ← hlength]
  exact hsize

/-- No entry that is evicted was revoked after one that is kept. -/
theorem Counted.evict_oldest (h : Counted c) (hfull : c.maxSize ≤ c.cache.size)
    {jti jti' : String} {gone kept : RevokedEntry} (hgone : c.cache.get jti = some gone)
    (hout : c.evictIfNeeded.cache.get jti = none)
    (hkept : c.evictIfNeeded.cache.get jti' = some kept) : gone.revokedAt ≤ kept.revokedAt := by
  rw [evictIfNeeded_cache hfull, OrdMap.get_foldl_delete] at hout hkept
  have hsorted := List.pairwise_insertionSort (fun a b : RevokedEntry => a.revokedAt ≤ b.revokedAt)
    c.cache.values
  rw [← List.take_append_drop c.toEvict (List.insertionSort _ _), List.pairwise_append] at hsorted
  have hin : jti ∈ c.evicted.map (·.jti) := by
    by_contra hnot
    rw [if_neg hnot, hgone] at hout
    cases hout
  obtain ⟨e, he, hej⟩ := List.mem_map.mp hin
  have hself : e = gone := by
    have hget := h.get_jti (mem_values_of_evicted he)
    rw [hej, hgone] at hget
    exact (Option.some.inj hget).symm
  split at hkept
  · cases hkept
  next hnot =>
    -- what is kept stands in the rest of the sorted list
    have hvalue : kept ∈ c.cache.values := OrdMap.mem_values_iff.mpr ⟨jti', hkept⟩
    have hsort := (List.mem_insertionSort
      (fun a b : RevokedEntry => a.revokedAt ≤ b.revokedAt)).mpr hvalue
    rw [← List.take_append_drop c.toEvict (List.insertionSort _ _)] at hsort
    rcases List.mem_append.mp hsort with htake | hdrop
    · refine absurd (List.mem_map.mpr ⟨kept, htake, ?_⟩) hnot
      exact h.keyed jti' kept hkept
    · rw [← hself]
      exact hsorted.2.2 e he kept hdrop

theorem Counted.evict_keyed (h : Counted c) {jti : String} {entry : RevokedEntry}
    (hentry : c.evictIfNeeded.cache.get jti = some entry) : entry.jti = jti := by
  by_cases hfull : c.maxSize ≤ c.cache.size
  · rw [evictIfNeeded_cache hfull, OrdMap.get_foldl_delete] at hentry
    split at hentry
    · cases hentry
    · exact h.keyed jti entry hentry
  · unfold evictIfNeeded at hentry
    rw [if_pos (Int.not_le.mp hfull)] at hentry
    exact h.keyed jti entry hentry

/-! ## Operations -/

theorem Counted.new (maxSize : Int) : Counted (new maxSize) := by
  refine ⟨fun jti entry hentry => ?_, rfl⟩
  cases hentry

theorem Counted.delete (h : Counted c) (jti : String) :
    Counted { c with cache := c.cache.delete jti }.withSize := by
  refine ⟨fun jti' entry hentry => ?_, rfl⟩
  have hget : (c.cache.delete jti).get jti' = some entry := hentry
  exact h.keyed jti' entry (OrdMap.get_delete_eq_some_iff.mp hget).2

theorem Counted.add (h : Counted c) (now : Int) (jti : String) (expiresAt : Int)
    (reason : Option String) : Counted (c.add now jti expiresAt reason) := by
  refine ⟨fun jti' entry hentry => ?_, rfl⟩
  have hget : (c.evictIfNeeded.cache.set jti ⟨jti, now, expiresAt, reason⟩).get jti' =
      some entry := hentry
  rcases OrdMap.get_set_eq_some_iff.mp hget with ⟨rfl, rfl⟩ | ⟨-, hold⟩
  · rfl
  · exact h.evict_keyed hold

theorem Counted.isRevoked (h : Counted c) (now : Int) (jti : String) :
    Counted (c.isRevoked now jti).2 := by
  unfold RevocationCache.isRevoked
  cases c.cache.get jti with
  | none => exact ⟨h.keyed, h.size⟩
  | some entry =>
    dsimp only
    split
    · have hdelete := h.delete jti
      exact ⟨hdelete.keyed, hdelete.size⟩
    · exact ⟨h.keyed, h.size⟩

theorem Counted.remove (h : Counted c) (jti : String) : Counted (c.remove jti).2 := by
  unfold RevocationCache.remove
  cases c.cache.get jti with
  | none => exact h
  | some entry => exact h.delete jti

theorem Counted.cleanup (h : Counted c) (now : Int) : Counted (c.cleanup now).2 := by
  have hkeyed (jti : String) (entry : RevokedEntry)
      (hentry : (c.cache.filter fun _ e => ¬e.expiresAt ≤ now).get jti = some entry) :
      entry.jti = jti := by
    rw [OrdMap.get_filter, Option.filter_eq_some_iff] at hentry
    exact h.keyed jti entry hentry.1
  have hle : (c.cache.filter fun _ e => ¬e.expiresAt ≤ now).size ≤ c.cache.size :=
    List.length_filter_le _ _
  unfold RevocationCache.cleanup
  dsimp only
  split
  next hnone =>
    refine ⟨hkeyed, ?_⟩
    show c.metrics.size = (c.cache.filter fun _ e => ¬e.expiresAt ≤ now).size
    rw [h.size]
    omega
  next => exact ⟨hkeyed, rfl⟩

theorem loadEntry_keyed {now : Int} {m : OrdMap String RevokedEntry} {e : RevokedEntry}
    (h : ∀ jti entry, m.get jti = some entry → entry.jti = jti) {jti : String}
    {entry : RevokedEntry} (hentry : (loadEntry now m e).get jti = some entry) :
    entry.jti = jti := by
  unfold loadEntry at hentry
  split at hentry
  · rcases OrdMap.get_set_eq_some_iff.mp hentry with ⟨rfl, rfl⟩ | ⟨-, hold⟩
    · rfl
    · exact h jti entry hold
  · exact h jti entry hentry

theorem Counted.loadFromStore (h : Counted c) (now : Int) (entries : List RevokedEntry) :
    Counted (c.loadFromStore now entries) := by
  have hfold (m : OrdMap String RevokedEntry)
      (hm : ∀ jti entry, m.get jti = some entry → entry.jti = jti) :
      ∀ jti entry, (entries.foldl (loadEntry now) m).get jti = some entry → entry.jti = jti := by
    induction entries generalizing m with
    | nil => exact hm
    | cons e entries ih => exact ih _ fun jti entry hentry => loadEntry_keyed hm hentry
  exact ⟨hfold c.cache h.keyed, rfl⟩

/-- An `add` stays within the bound. -/
theorem Counted.add_size (h : Counted c) (hmax : 1 ≤ c.maxSize)
    (hbound : (c.cache.size : Int) ≤ c.maxSize) (now : Int) (jti : String) (expiresAt : Int)
    (reason : Option String) : ((c.add now jti expiresAt reason).cache.size : Int) ≤ c.maxSize := by
  have hset : (c.add now jti expiresAt reason).cache.size ≤ c.evictIfNeeded.cache.size + 1 := by
    show (OrdMap.set _ jti _).size ≤ _
    rw [OrdMap.size_set]
    split
    · omega
    · omega
  by_cases hfull : c.maxSize ≤ c.cache.size
  · have hevict := h.evict_size hmax hfull
    have hone : 1 ≤ c.toEvict := by
      unfold toEvict
      omega
    omega
  · have hsame : c.evictIfNeeded = c := if_pos (Int.not_le.mp hfull)
    rw [hsame] at hset
    omega

theorem size_isRevoked_le (c : RevocationCache) (now : Int) (jti : String) :
    (c.isRevoked now jti).2.cache.size ≤ c.cache.size := by
  unfold RevocationCache.isRevoked
  cases c.cache.get jti with
  | none => exact Nat.le_refl _
  | some entry =>
    dsimp only
    split
    · exact c.cache.size_delete_le jti
    · exact Nat.le_refl _

theorem size_remove_le (c : RevocationCache) (jti : String) :
    (c.remove jti).2.cache.size ≤ c.cache.size := by
  unfold RevocationCache.remove
  cases c.cache.get jti with
  | none => exact Nat.le_refl _
  | some entry => exact c.cache.size_delete_le jti

theorem cleanup_cache (c : RevocationCache) (now : Int) :
    (c.cleanup now).2.cache = c.cache.filter fun _ e => ¬e.expiresAt ≤ now := by
  unfold RevocationCache.cleanup
  dsimp only
  split <;> rfl

/-- An entry that a question drops has expired, and was asked for. -/
theorem expired_of_isRevoked {c : RevocationCache} {now : Int} {jti jti' : String}
    {gone : RevokedEntry} (hgone : c.cache.get jti' = some gone)
    (hout : (c.isRevoked now jti).2.cache.get jti' = none) :
    jti' = jti ∧ gone.expiresAt ≤ now := by
  have hkept (hsame : c.cache.get jti' = none) : jti' = jti ∧ gone.expiresAt ≤ now := by
    rw [hgone] at hsame
    cases hsame
  unfold RevocationCache.isRevoked at hout
  cases hentry : c.cache.get jti with
  | none =>
    rw [hentry] at hout
    exact hkept hout
  | some entry =>
    simp only [hentry] at hout
    split at hout
    next hexpired =>
      have hget : (c.cache.delete jti).get jti' = none := hout
      rw [OrdMap.get_delete] at hget
      split at hget
      next hjti =>
        rw [hjti, hentry] at hgone
        cases hgone
        exact ⟨hjti, hexpired⟩
      next => exact hkept hget
    next => exact hkept hout

theorem named_of_remove {c : RevocationCache} {jti jti' : String} {gone : RevokedEntry}
    (hgone : c.cache.get jti' = some gone) (hout : (c.remove jti).2.cache.get jti' = none) :
    jti' = jti := by
  unfold RevocationCache.remove at hout
  cases hentry : c.cache.get jti with
  | none =>
    simp only [hentry] at hout
    rw [hgone] at hout
    cases hout
  | some entry =>
    simp only [hentry] at hout
    have hget : (c.cache.delete jti).get jti' = none := hout
    rw [OrdMap.get_delete] at hget
    split at hget
    next hjti => exact hjti
    next =>
      rw [hgone] at hget
      cases hget

theorem expired_of_cleanup {c : RevocationCache} {now : Int} {jti : String} {gone : RevokedEntry}
    (hgone : c.cache.get jti = some gone) (hout : (c.cleanup now).2.cache.get jti = none) :
    gone.expiresAt ≤ now := by
  rw [cleanup_cache, OrdMap.get_filter, hgone] at hout
  by_contra hlive
  simp [hlive] at hout

theorem loadFromStore_keeps (c : RevocationCache) (now : Int) (entries : List RevokedEntry)
    {jti : String} {entry : RevokedEntry} (hentry : c.cache.get jti = some entry) :
    (c.loadFromStore now entries).cache.get jti ≠ none := by
  have hfold (m : OrdMap String RevokedEntry) (hm : m.get jti ≠ none) :
      (entries.foldl (loadEntry now) m).get jti ≠ none := by
    induction entries generalizing m with
    | nil => exact hm
    | cons e entries ih =>
      refine ih _ ?_
      unfold loadEntry
      split
      · rw [OrdMap.get_set]
        split
        · intro h
          cases h
        · exact hm
      · exact hm
  refine hfold c.cache ?_
  rw [hentry]
  intro h
  cases h

end RevocationCache

/-! ## Whole runs -/

section

variable {maxSize : Int}

theorem counted_step {s : RevocationRun} (h : s.cache.Counted) (call : RevocationCall) :
    (s.step call).cache.Counted := by
  obtain ⟨elapsed, op⟩ := call
  cases op with
  | add jti expiresAt reason => exact h.add _ jti expiresAt reason
  | isRevoked jti => exact h.isRevoked _ jti
  | remove jti => exact h.remove jti
  | cleanup => exact h.cleanup _
  | loadFromStore entries => exact h.loadFromStore _ entries

theorem maxSize_step (s : RevocationRun) (call : RevocationCall) :
    (s.step call).cache.maxSize = s.cache.maxSize := by
  obtain ⟨elapsed, op⟩ := call
  cases op with
  | add jti expiresAt reason =>
    show s.cache.evictIfNeeded.maxSize = _
    unfold RevocationCache.evictIfNeeded
    split <;> rfl
  | isRevoked jti =>
    show (s.cache.isRevoked _ jti).2.maxSize = _
    unfold RevocationCache.isRevoked
    cases s.cache.cache.get jti with
    | none => rfl
    | some entry =>
      dsimp only
      split <;> rfl
  | remove jti =>
    show (s.cache.remove jti).2.maxSize = _
    unfold RevocationCache.remove
    cases s.cache.cache.get jti <;> rfl
  | cleanup =>
    show (s.cache.cleanup _).2.maxSize = _
    unfold RevocationCache.cleanup
    dsimp only
    split <;> rfl
  | loadFromStore entries => rfl

/-- What a run keeps whose loads fit. -/
structure Bounded (maxSize : Int) (s : RevocationRun) : Prop where
  counted : s.cache.Counted
  same : s.cache.maxSize = maxSize
  bound : (s.cache.cache.size : Int) ≤ maxSize

theorem bounded_step (hmax : 1 ≤ maxSize) {s : RevocationRun} {call : RevocationCall}
    (h : Bounded maxSize s) (hfits : LoadFits s call) : Bounded maxSize (s.step call) := by
  refine ⟨counted_step h.counted call, (maxSize_step s call).trans h.same, ?_⟩
  have hbound := h.bound
  obtain ⟨elapsed, op⟩ := call
  cases op with
  | add jti expiresAt reason =>
    have hadd := h.counted.add_size (h.same ▸ hmax) (h.same ▸ hbound) (s.now + elapsed) jti
      expiresAt reason
    rw [h.same] at hadd
    exact hadd
  | isRevoked jti =>
    have hle := s.cache.size_isRevoked_le (s.now + elapsed) jti
    exact Int.le_trans (Int.ofNat_le.mpr hle) hbound
  | remove jti =>
    have hle := s.cache.size_remove_le jti
    exact Int.le_trans (Int.ofNat_le.mpr hle) hbound
  | cleanup =>
    have hle : (s.cache.cleanup (s.now + elapsed)).2.cache.size ≤ s.cache.cache.size := by
      rw [RevocationCache.cleanup_cache]
      exact List.length_filter_le _ _
    exact Int.le_trans (Int.ofNat_le.mpr hle) hbound
  | loadFromStore entries =>
    have hload := hfits entries rfl
    rw [h.same] at hload
    exact hload

/-- Each operation takes out what it should. -/
theorem takesOut (hmax : 1 ≤ maxSize) {s : RevocationRun} (h : s.cache.Counted)
    (hs : s.cache.maxSize = maxSize) (call : RevocationCall) : TakesOut s call := by
  obtain ⟨elapsed, op⟩ := call
  cases op with
  | add jti expiresAt reason =>
    refine ⟨fun hroom => if_pos hroom, fun hfull => ⟨h.evict_size (hs ▸ hmax) hfull, ?_⟩⟩
    intro jti gone hgone hout jti' kept hkept
    exact h.evict_oldest hfull hgone hout hkept
  | isRevoked jti =>
    intro jti' gone hgone hout
    exact RevocationCache.expired_of_isRevoked hgone hout
  | remove jti =>
    intro jti' gone hgone hout
    exact RevocationCache.named_of_remove hgone hout
  | cleanup =>
    intro jti gone hgone hout
    exact RevocationCache.expired_of_cleanup hgone hout
  | loadFromStore entries =>
    intro jti gone hgone
    exact s.cache.loadFromStore_keeps _ entries hgone

end

/-! ## An expired entry that stays -/

/-- A cache for two entries: one that lasts, one that has expired when the third
is added. -/
def expiredStays : List RevocationCall :=
  [⟨0, .add "a" 100000 none⟩, ⟨10, .add "b" 20 none⟩, ⟨30, .add "c" 100000 none⟩]

end ChainKVM.Gateway
