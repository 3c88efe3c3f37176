import ChainKVM.Lib.Ranks
import ChainKVM.Robot.Metrics

/-!
# Latency statistics: `internal/metrics`

The four collectors turn their measurements into the same seven numbers, each
with a copy of the same block: sort the durations, add them up, and read the
minimum, three percentiles and the maximum off the sorted slice. The block is
`RevocationStats.of` here. What the copies disagree on is which durations get
that far: the revocation and session setup collectors leave out everything
that is not positive, the control RTT and video latency collectors nothing.

A slice cannot be long enough for `p * len(sorted)` to overflow, so the index
is a natural number. The sum can overflow and wraps.
-/

namespace ChainKVM.Robot

/-- `RevocationStats`. -/
structure RevocationStats where
  count : Nat
  p50 : Duration
  p95 : Duration
  p99 : Duration
  min : Duration
  max : Duration
  avg : Duration
  deriving DecidableEq, Repr

/-- `RevocationStats{}`. -/
def RevocationStats.zero : RevocationStats := ⟨0, 0, 0, 0, 0, 0, 0⟩

/-- The index that `percentile` reads in a slice of length `n`. -/
def percentileIndex (n p : Nat) : Nat :=
  let idx := p * n / 100
  if n ≤ idx then n - 1 else idx

/-- `percentile`: the `p`-th percentile of sorted durations. -/
def percentile (sorted : List Duration) (p : Nat) : Duration :=
  if sorted.length = 0 then 0 else sorted.getD (percentileIndex sorted.length p) 0

/-- `total += d` over the durations, in `int64`. -/
def totalOf (durations : List Duration) : Duration :=
  durations.foldl (fun total d => (Int64.ofInt (total + d)).toInt) 0

/-- The numbers read off a sorted slice. -/
def RevocationStats.ofSorted (sorted : List Duration) : RevocationStats where
  count := sorted.length
  p50 := percentile sorted 50
  p95 := percentile sorted 95
  p99 := percentile sorted 99
  min := sorted.getD 0 0
  max := sorted.getD (sorted.length - 1) 0
  avg := (totalOf sorted).tdiv sorted.length

/-- The block that the collectors share, from `sort.Slice` on. -/
def RevocationStats.of (durations : List Duration) : RevocationStats :=
  .ofSorted (durations.insertionSort (· ≤ ·))

/-- The durations that the revocation and session setup collectors count. -/
def positive {M : Type} (measurements : List M) (extract : M → Duration) : List Duration :=
  (measurements.map extract).filter (decide <| 0 < ·)

/-- The statistics of the positive durations. -/
def statsOfPositive {M : Type} (measurements : List M) (extract : M → Duration) :
    RevocationStats :=
  if measurements.length = 0 then .zero
  else if (positive measurements extract).length = 0 then .zero
  else .of (positive measurements extract)

/-- The statistics of all durations. -/
def statsOfAll {M : Type} (samples : List M) (extract : M → Duration) : RevocationStats :=
  if samples.length = 0 then .zero else .of (samples.map extract)

/-- `calculateStats`. -/
def calculateStats (measurements : List RevocationTimestamps)
    (extract : RevocationTimestamps → Duration) : RevocationStats :=
  statsOfPositive measurements extract

/-! ## Percentiles -/

theorem percentileIndex_lt {n : Nat} (p : Nat) (hn : 0 < n) : percentileIndex n p < n := by
  simp only [percentileIndex]
  split <;> omega

theorem percentileIndex_mono (n : Nat) {p q : Nat} (h : p ≤ q) :
    percentileIndex n p ≤ percentileIndex n q := by
  have hdiv : p * n / 100 ≤ q * n / 100 := Nat.div_le_div_right (Nat.mul_le_mul_right n h)
  simp only [percentileIndex]
  split <;> split <;> omega

/-- The index leaves at most `p` percent of the slice below it. -/
theorem percentileIndex_le (n p : Nat) : 100 * percentileIndex n p ≤ p * n := by
  have hdiv : 100 * (p * n / 100) ≤ p * n := Nat.mul_div_le (p * n) 100
  simp only [percentileIndex]
  split
  · calc 100 * (n - 1) ≤ 100 * (p * n / 100) := Nat.mul_le_mul_left 100 (by omega)
      _ ≤ p * n := hdiv
  · exact hdiv

/-- The slice up to the index is at least `p` percent of it. -/
theorem le_percentileIndex {n p : Nat} (hn : 0 < n) (hp : p ≤ 100) :
    p * n ≤ 100 * (percentileIndex n p + 1) := by
  simp only [percentileIndex]
  split
  · calc p * n ≤ 100 * n := Nat.mul_le_mul_right n hp
      _ = 100 * (n - 1 + 1) := by rw [Nat.sub_add_cancel hn]
  · have := Nat.lt_mul_div_succ (p * n) (show 0 < 100 by omega)
    omega

theorem getD_of_lt {sorted : List Duration} {i : Nat} (h : i < sorted.length) :
    sorted.getD i 0 = sorted[i] := by
  rw [List.getD_eq_getElem?_getD, List.getElem?_eq_getElem h]
  rfl

/-- A percentile of a non-empty slice is the element at its index. -/
theorem percentile_eq {sorted : List Duration} (h : sorted ≠ []) (p : Nat) :
    ∃ hlt : percentileIndex sorted.length p < sorted.length,
      percentile sorted p = sorted[percentileIndex sorted.length p] := by
  have hpos : 0 < sorted.length := List.length_pos_iff.mpr h
  have hlt := percentileIndex_lt p hpos
  refine ⟨hlt, ?_⟩
  unfold percentile
  rw [if_neg (Nat.ne_of_gt hpos), getD_of_lt hlt]

/-- `v` has at least `p` percent of the durations at or below it and at most
`p` percent strictly below. -/
structure IsPercentile (p : Nat) (v : Duration) (durations : List Duration) : Prop where
  mem : v ∈ durations
  at_or_below : p * durations.length ≤ 100 * durations.countP (decide <| · ≤ v)
  below : 100 * durations.countP (decide <| · < v) ≤ p * durations.length

theorem IsPercentile.of_perm {p : Nat} {v : Duration} {ds ds' : List Duration}
    (h : IsPercentile p v ds) (hperm : ds.Perm ds') : IsPercentile p v ds' where
  mem := hperm.mem_iff.mp h.mem
  at_or_below := by
    rw [← hperm.length_eq, ← hperm.countP_eq]
    exact h.at_or_below
  below := by
    rw [← hperm.length_eq, ← hperm.countP_eq]
    exact h.below

theorem isPercentile_percentile {sorted : List Duration} (hs : sorted.Pairwise (· ≤ ·))
    (hne : sorted ≠ []) {p : Nat} (hp : p ≤ 100) :
    IsPercentile p (percentile sorted p) sorted := by
  obtain ⟨hlt, heq⟩ := percentile_eq hne p
  rw [heq]
  refine ⟨List.getElem_mem hlt, ?_, ?_⟩
  · have hcount := Ranks.lt_countP_le hs hlt
    have hindex := le_percentileIndex (List.length_pos_iff.mpr hne) hp
    omega
  · have hcount := Ranks.countP_lt_le hs hlt
    have hindex := percentileIndex_le sorted.length p
    omega

/-- A percentile is within a limit exactly when enough of the durations are. -/
theorem percentile_le_iff {sorted : List Duration} (hs : sorted.Pairwise (· ≤ ·))
    (hne : sorted ≠ []) {p : Nat} (target : Duration) :
    percentile sorted p ≤ target ↔
      percentileIndex sorted.length p < sorted.countP (decide <| · ≤ target) := by
  obtain ⟨hlt, heq⟩ := percentile_eq hne p
  have h := Ranks.sat_iff_lt_countP hs (Ranks.downClosed_le target) hlt
  rw [decide_eq_true_eq] at h
  rw [heq]
  exact h

theorem percentile_mono {sorted : List Duration} (hs : sorted.Pairwise (· ≤ ·)) {p q : Nat}
    (h : p ≤ q) : percentile sorted p ≤ percentile sorted q := by
  by_cases hne : sorted = []
  · subst hne
    exact le_refl _
  · obtain ⟨hp, hpeq⟩ := percentile_eq hne p
    obtain ⟨hq, hqeq⟩ := percentile_eq hne q
    rw [hpeq, hqeq]
    exact Ranks.getElem_le hs (percentileIndex_mono _ h) hq

/-! ## The summary -/

/-- The sum of the durations. -/
def sumOf : List Duration → Int
  | [] => 0
  | d :: ds => d + sumOf ds

/-- The range of an `int64`. -/
def FitsInt64 (n : Int) : Prop := -9223372036854775808 ≤ n ∧ n ≤ 9223372036854775807

instance (n : Int) : Decidable (FitsInt64 n) := inferInstanceAs (Decidable (_ ∧ _))

theorem sumOf_perm {ds ds' : List Duration} (h : ds.Perm ds') : sumOf ds = sumOf ds' := by
  induction h with
  | nil => rfl
  | cons d _ ih => exact congrArg (d + ·) ih
  | swap d d' ds =>
    exact Int.add_left_comm d' d (sumOf ds)
  | trans _ _ ih ih' => exact ih.trans ih'

/-- Between `n` times the least and `n` times the greatest. -/
theorem sumOf_between {ds : List Duration} {lo hi : Duration} (hlo : ∀ d ∈ ds, lo ≤ d)
    (hhi : ∀ d ∈ ds, d ≤ hi) : ds.length * lo ≤ sumOf ds ∧ sumOf ds ≤ ds.length * hi := by
  induction ds with
  | nil => simp [sumOf]
  | cons d ds ih =>
    have hrest := ih (fun x hx => hlo x (List.mem_cons_of_mem d hx))
      (fun x hx => hhi x (List.mem_cons_of_mem d hx))
    have hdlo := hlo d List.mem_cons_self
    have hdhi := hhi d List.mem_cons_self
    show ((ds.length + 1 : Nat) : Int) * lo ≤ d + sumOf ds ∧
      d + sumOf ds ≤ ((ds.length + 1 : Nat) : Int) * hi
    rw [Int.natCast_succ, Int.add_mul, Int.add_mul, Int.one_mul, Int.one_mul,
      Int.add_comm _ lo, Int.add_comm _ hi]
    exact ⟨Int.add_le_add hdlo hrest.1, Int.add_le_add hdhi hrest.2⟩

/-- Wrapping at every step wraps the sum once. -/
theorem totalOf_eq (ds : List Duration) : totalOf ds = (Int64.ofInt (sumOf ds)).toInt := by
  have hwrap : ∀ (ds : List Duration) (t : Int),
      ds.foldl (fun total d => (Int64.ofInt (total + d)).toInt) (Int64.ofInt t).toInt
        = (Int64.ofInt (t + sumOf ds)).toInt := by
    intro ds
    induction ds with
    | nil => intro t; simp [sumOf]
    | cons d ds ih =>
      intro t
      have hstep : (Int64.ofInt ((Int64.ofInt t).toInt + d)).toInt = (Int64.ofInt (t + d)).toInt := by
        simp only [Int64.toInt_ofInt, Int.bmod_add_bmod]
      rw [List.foldl_cons, hstep, ih (t + d), Int.add_assoc]
      rfl
  have := hwrap ds 0
  rw [Int.zero_add] at this
  exact this

/-- A sum in range is not wrapped. -/
theorem totalOf_of_fits {ds : List Duration} (h : FitsInt64 (sumOf ds)) :
    totalOf ds = sumOf ds := by
  obtain ⟨hlo, hhi⟩ := h
  rw [totalOf_eq, Int64.toInt_ofInt, show Int64.size = 18446744073709551616 from rfl]
  exact Int.bmod_eq_of_le (by omega) (by omega)

/-- Truncating division stays between the bounds of the exact quotient. -/
theorem tdiv_between {t lo hi n : Int} (hn : 0 < n) (hlo : n * lo ≤ t) (hhi : t ≤ n * hi) :
    lo ≤ t.tdiv n ∧ t.tdiv n ≤ hi := by
  have hne : n ≠ 0 := by omega
  constructor
  · calc lo = (n * lo).tdiv n := (Int.mul_tdiv_cancel_left lo hne).symm
      _ ≤ t.tdiv n := Int.tdiv_le_tdiv hn hlo
  · calc t.tdiv n ≤ (n * hi).tdiv n := Int.tdiv_le_tdiv hn hhi
      _ = hi := Int.mul_tdiv_cancel_left hi hne

/-- What the seven numbers say about the durations. -/
structure IsSummary (s : RevocationStats) (durations : List Duration) : Prop where
  count : s.count = durations.length
  min_mem : s.min ∈ durations
  min_le : ∀ d ∈ durations, s.min ≤ d
  max_mem : s.max ∈ durations
  le_max : ∀ d ∈ durations, d ≤ s.max
  p50 : IsPercentile 50 s.p50 durations
  p95 : IsPercentile 95 s.p95 durations
  p99 : IsPercentile 99 s.p99 durations
  ordered : s.min ≤ s.p50 ∧ s.p50 ≤ s.p95 ∧ s.p95 ≤ s.p99 ∧ s.p99 ≤ s.max
  avg : s.min ≤ s.avg ∧ s.avg ≤ s.max

/-- The statistics do not depend on the order of the durations. -/
theorem of_perm {ds ds' : List Duration} (h : ds.Perm ds') :
    RevocationStats.of ds = RevocationStats.of ds' := by
  unfold RevocationStats.of
  rw [Ranks.insertionSort_eq_of_perm h]

theorem count_of (ds : List Duration) : (RevocationStats.of ds).count = ds.length :=
  List.length_insertionSort _ ds

/-- The first element of a sorted list is the least, the last the greatest. -/
theorem ends_of_sorted {sorted : List Duration} (hs : sorted.Pairwise (· ≤ ·))
    (hne : sorted ≠ []) :
    (sorted.getD 0 0 ∈ sorted ∧ ∀ d ∈ sorted, sorted.getD 0 0 ≤ d) ∧
      sorted.getD (sorted.length - 1) 0 ∈ sorted ∧
      ∀ d ∈ sorted, d ≤ sorted.getD (sorted.length - 1) 0 := by
  have hpos : 0 < sorted.length := List.length_pos_iff.mpr hne
  have hlast : sorted.length - 1 < sorted.length := Nat.sub_lt hpos Nat.one_pos
  rw [getD_of_lt hpos, getD_of_lt hlast]
  refine ⟨⟨List.getElem_mem hpos, ?_⟩, List.getElem_mem hlast, ?_⟩
  · intro d hd
    obtain ⟨i, hi, rfl⟩ := List.getElem_of_mem hd
    exact Ranks.getElem_le hs (Nat.zero_le i) hi
  · intro d hd
    obtain ⟨i, hi, rfl⟩ := List.getElem_of_mem hd
    exact Ranks.getElem_le hs (Nat.le_sub_one_of_lt hi) hlast

theorem isSummary_ofSorted {sorted : List Duration} (hs : sorted.Pairwise (· ≤ ·))
    (hne : sorted ≠ []) (hfits : FitsInt64 (sumOf sorted)) :
    IsSummary (.ofSorted sorted) sorted := by
  obtain ⟨⟨hmin, hlo⟩, hmax, hhi⟩ := ends_of_sorted hs hne
  have hpos : (0 : Int) < sorted.length := Int.natCast_pos.mpr (List.length_pos_iff.mpr hne)
  obtain ⟨hsumlo, hsumhi⟩ := sumOf_between hlo hhi
  have havg := tdiv_between hpos hsumlo hsumhi
  rw [← totalOf_of_fits hfits] at havg
  have hpercentile {p : Nat} (hp : p ≤ 100) : IsPercentile p (percentile sorted p) sorted :=
    isPercentile_percentile hs hne hp
  have h50 := hpercentile (show 50 ≤ 100 by omega)
  have h99 := hpercentile (show 99 ≤ 100 by omega)
  exact {
    count := rfl
    min_mem := hmin
    min_le := hlo
    max_mem := hmax
    le_max := hhi
    p50 := h50
    p95 := hpercentile (by omega)
    p99 := h99
    ordered := ⟨hlo _ h50.mem, percentile_mono hs (by omega), percentile_mono hs (by omega),
      hhi _ h99.mem⟩
    avg := havg }

theorem IsSummary.of_perm {s : RevocationStats} {ds ds' : List Duration} (h : IsSummary s ds)
    (hperm : ds.Perm ds') : IsSummary s ds' where
  count := h.count.trans hperm.length_eq
  min_mem := hperm.mem_iff.mp h.min_mem
  min_le d hd := h.min_le d (hperm.mem_iff.mpr hd)
  max_mem := hperm.mem_iff.mp h.max_mem
  le_max d hd := h.le_max d (hperm.mem_iff.mpr hd)
  p50 := h.p50.of_perm hperm
  p95 := h.p95.of_perm hperm
  p99 := h.p99.of_perm hperm
  ordered := h.ordered
  avg := h.avg

theorem sort_ne_nil {ds : List Duration} (hne : ds ≠ []) : ds.insertionSort (· ≤ ·) ≠ [] := by
  intro hnil
  have hperm := List.perm_insertionSort (· ≤ ·) ds
  rw [hnil] at hperm
  exact hne hperm.nil_eq.symm

/-- A percentile of the sorted durations is one of the durations. -/
theorem isPercentile_sort {ds : List Duration} (hne : ds ≠ []) {p : Nat} (hp : p ≤ 100) :
    IsPercentile p (percentile (ds.insertionSort (· ≤ ·)) p) ds := by
  have hperm := List.perm_insertionSort (· ≤ ·) ds
  have hs := List.pairwise_insertionSort (· ≤ ·) ds
  exact (isPercentile_percentile hs (sort_ne_nil hne) hp).of_perm hperm

theorem isSummary_of {ds : List Duration} (hne : ds ≠ []) (hfits : FitsInt64 (sumOf ds)) :
    IsSummary (.of ds) ds := by
  have hperm := List.perm_insertionSort (· ≤ ·) ds
  have hs := List.pairwise_insertionSort (· ≤ ·) ds
  rw [← sumOf_perm hperm] at hfits
  exact (isSummary_ofSorted hs (sort_ne_nil hne) hfits).of_perm hperm

end ChainKVM.Robot
