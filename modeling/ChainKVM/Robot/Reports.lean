import ChainKVM.Robot.Collectors

/-!
# Measurement reports: `GenerateReport`

The verdict of a report compares some of its statistics with targets. What the
comparison says about the measurements depends on what was counted: a
percentile that is within its target means that more than that share of the
counted durations are, and the revocation and session setup reports count the
positive durations only. A measurement that was never completed, or that took
no time at all, has duration zero and is retained, but not counted.
-/

namespace ChainKVM.Robot

/-- More than `p` percent of the durations, rounded down, are within the target. -/
def Within (p : Nat) (target : Duration) (durations : List Duration) : Prop :=
  p * durations.length / 100 < durations.countP (decide <| · ≤ target)

/-! ## The four reports -/

/-- `LatencyTargets`. -/
structure LatencyTargets where
  totalP95 : Duration
  safeStopMax : Duration
  deriving DecidableEq, Repr

/-- `DefaultTargets`. -/
def defaultTargets : LatencyTargets := ⟨1 * second, 100 * millisecond⟩

/-- `PropagationStats`. -/
structure PropagationStats where
  handlerProcessing : RevocationStats
  transportTeardown : RevocationStats
  sessionTeardown : RevocationStats
  deriving DecidableEq, Repr

/-- `RevocationReport`. -/
structure RevocationReport where
  generatedAt : Time
  sampleCount : Nat
  total : RevocationStats
  safeStop : RevocationStats
  breakdown : PropagationStats
  meetsTarget : Bool
  targets : LatencyTargets
  deriving DecidableEq, Repr

namespace RevocationCollector

/-- The statistics of one of the propagation times. -/
def propagationStats (c : RevocationCollector) (extract : PropagationTimes → Duration) :
    RevocationStats :=
  calculateStats c.measurements fun t => extract t.calculate

/-- The propagation times that are counted. -/
def counted (c : RevocationCollector) (extract : PropagationTimes → Duration) : List Duration :=
  positive c.measurements fun t => extract t.calculate

/-- `GenerateReport`. -/
def generateReport (c : RevocationCollector) (now : Time) (targets : LatencyTargets) :
    RevocationReport :=
  let totalStats := c.propagationStats PropagationTimes.total
  let safeStopStats := c.propagationStats PropagationTimes.safeStopExecution
  { generatedAt := now
    sampleCount := c.measurements.length
    total := totalStats
    safeStop := safeStopStats
    breakdown := {
      handlerProcessing := c.propagationStats PropagationTimes.handlerProcessing
      transportTeardown := c.propagationStats PropagationTimes.transportTeardown
      sessionTeardown := c.propagationStats PropagationTimes.sessionTeardown }
    meetsTarget := totalStats.p95 ≤ targets.totalP95 && safeStopStats.max ≤ targets.safeStopMax
    targets }

end RevocationCollector

/-- `SessionSetupTargets`. -/
structure SessionSetupTargets where
  totalP50 : Duration
  totalP95 : Duration
  deriving DecidableEq, Repr

/-- `SessionSetupBreakdown`. -/
structure SessionSetupBreakdown where
  tokenValidation : RevocationStats
  webRTCSetup : RevocationStats
  iceNegotiation : RevocationStats
  sessionActivation : RevocationStats
  deriving DecidableEq, Repr

/-- `SessionSetupReport`. -/
structure SessionSetupReport where
  generatedAt : Time
  sampleCount : Nat
  total : RevocationStats
  breakdown : SessionSetupBreakdown
  meetsTarget : Bool
  targets : SessionSetupTargets
  deriving DecidableEq, Repr

namespace SessionSetupCollector

/-- The statistics of one of the phases. -/
def phaseStats (c : SessionSetupCollector) (getPhase : SessionSetupPhases → Duration) :
    RevocationStats :=
  calculateSessionSetupStats c.samples fun ts => getPhase ts.calculate

/-- The durations of a phase that are counted. -/
def counted (c : SessionSetupCollector) (getPhase : SessionSetupPhases → Duration) :
    List Duration :=
  positive c.samples fun ts => getPhase ts.calculate

/-- `GenerateReport`. -/
def generateReport (c : SessionSetupCollector) (now : Time) (targets : SessionSetupTargets) :
    SessionSetupReport :=
  let totalStats := c.phaseStats SessionSetupPhases.total
  { generatedAt := now
    sampleCount := c.samples.length
    total := totalStats
    breakdown := {
      tokenValidation := c.phaseStats SessionSetupPhases.tokenValidation
      webRTCSetup := c.phaseStats SessionSetupPhases.webRTCSetup
      iceNegotiation := c.phaseStats SessionSetupPhases.iceNegotiation
      sessionActivation := c.phaseStats SessionSetupPhases.sessionActivation }
    meetsTarget := totalStats.p50 ≤ targets.totalP50 && totalStats.p95 ≤ targets.totalP95
    targets }

end SessionSetupCollector

/-- `ControlRTTTargets` and `VideoLatencyTargets`. -/
structure PercentileTargets where
  p50 : Duration
  p95 : Duration
  deriving DecidableEq, Repr

/-- `ControlRTTReport` and `VideoLatencyReport`. -/
structure PercentileReport where
  generatedAt : Time
  sampleCount : Nat
  stats : RevocationStats
  meetsTarget : Bool
  targets : PercentileTargets
  deriving DecidableEq, Repr

/-- The body of the two `GenerateReport`s. -/
def percentileReport (now : Time) (sampleCount : Nat) (stats : RevocationStats)
    (targets : PercentileTargets) : PercentileReport where
  generatedAt := now
  sampleCount := sampleCount
  stats := stats
  meetsTarget := stats.p50 ≤ targets.p50 && stats.p95 ≤ targets.p95
  targets := targets

/-- `ControlRTTCollector.GenerateReport`. -/
def ControlRTTCollector.generateReport (c : ControlRTTCollector) (now : Time)
    (targets : PercentileTargets) : PercentileReport :=
  percentileReport now c.samples.length c.statsLocked targets

/-- `VideoLatencyCollector.GenerateReport`. -/
def VideoLatencyCollector.generateReport (c : VideoLatencyCollector) (now : Time)
    (targets : PercentileTargets) : PercentileReport :=
  percentileReport now c.samples.length c.statsLocked targets

/-! ## What a verdict says -/

/-- A percentile of the durations is within a target exactly when more than its
share of them are. -/
theorem percentile_sort_le_iff {ds : List Duration} (hne : ds ≠ []) {p : Nat} (hp : p < 100)
    (target : Duration) :
    percentile (ds.insertionSort (· ≤ ·)) p ≤ target ↔ Within p target ds := by
  have hperm := List.perm_insertionSort (· ≤ ·) ds
  have hs := List.pairwise_insertionSort (· ≤ ·) ds
  have hidx : percentileIndex ds.length p = p * ds.length / 100 := by
    have hpos : 0 < ds.length := List.length_pos_iff.mpr hne
    have hlt : p * ds.length < 100 * ds.length := Nat.mul_lt_mul_of_pos_right hp hpos
    simp only [percentileIndex]
    rw [if_neg (by omega)]
  rw [percentile_le_iff hs (sort_ne_nil hne), hperm.length_eq, hperm.countP_eq, hidx]
  rfl

/-- The greatest duration is within a target exactly when all are. -/
theorem max_of_le_iff {ds : List Duration} (hne : ds ≠ []) (target : Duration) :
    (RevocationStats.of ds).max ≤ target ↔ ∀ d ∈ ds, d ≤ target := by
  have hperm := List.perm_insertionSort (· ≤ ·) ds
  have hs := List.pairwise_insertionSort (· ≤ ·) ds
  obtain ⟨-, hmem, hmax⟩ := ends_of_sorted hs (sort_ne_nil hne)
  constructor
  · intro h d hd
    exact le_trans (hmax d (hperm.mem_iff.mpr hd)) h
  · intro h
    exact h _ (hperm.mem_iff.mp hmem)

/-- The verdict on two percentiles of the same durations. -/
theorem percentiles_le_iff {ds : List Duration} (hne : ds ≠ []) (t50 t95 : Duration) :
    (decide ((RevocationStats.of ds).p50 ≤ t50) && decide ((RevocationStats.of ds).p95 ≤ t95))
      = true ↔ Within 50 t50 ds ∧ Within 95 t95 ds := by
  rw [Bool.and_eq_true, decide_eq_true_eq, decide_eq_true_eq]
  exact and_congr (percentile_sort_le_iff hne (by omega) t50)
    (percentile_sort_le_iff hne (by omega) t95)

/-- Where a measurement was counted, the statistics are those of the durations. -/
theorem statsOfPositive_of_count {M : Type} {measurements : List M} {extract : M → Duration}
    (h : 0 < (statsOfPositive measurements extract).count) :
    statsOfPositive measurements extract = .of (positive measurements extract) ∧
      positive measurements extract ≠ [] := by
  have hne : positive measurements extract ≠ [] :=
    List.length_pos_iff.mp (count_statsOfPositive measurements extract ▸ h)
  exact ⟨statsOfPositive_eq hne, hne⟩

theorem propagationStats_eq {c : RevocationCollector} {extract : PropagationTimes → Duration}
    (h : 0 < (c.propagationStats extract).count) :
    c.propagationStats extract = .of (c.counted extract) ∧ c.counted extract ≠ [] :=
  statsOfPositive_of_count h

theorem phaseStats_eq {c : SessionSetupCollector} {getPhase : SessionSetupPhases → Duration}
    (h : 0 < (c.phaseStats getPhase).count) :
    c.phaseStats getPhase = .of (c.counted getPhase) ∧ c.counted getPhase ≠ [] :=
  statsOfPositive_of_count h

/-- The verdict on two percentiles of all durations. -/
theorem meetsTarget_percentileReport {M : Type} {samples : List M} {extract : M → Duration}
    (now : Time) (targets : PercentileTargets) (h : 0 < (statsOfAll samples extract).count) :
    (percentileReport now samples.length (statsOfAll samples extract) targets).meetsTarget = true ↔
      Within 50 targets.p50 (samples.map extract) ∧ Within 95 targets.p95 (samples.map extract) := by
  have hcount : (statsOfAll samples extract).count = (samples.map extract).length :=
    (count_statsOfAll samples extract).trans (List.length_map extract).symm
  have hne : samples.map extract ≠ [] := List.length_pos_iff.mp (hcount ▸ h)
  unfold percentileReport
  rw [statsOfAll_eq hne]
  exact percentiles_le_iff hne targets.p50 targets.p95

/-- Every report says how many measurements are retained. The statistics of its
verdict count the positive durations of these (revocation, session setup) or all
of them (control RTT, video latency), and where they count any, the verdict is
that the counted durations are within the targets. -/
theorem reports_judge_counted :
    (∀ (c : RevocationCollector) (now : Time) (targets : LatencyTargets),
      let report := c.generateReport now targets
      report.sampleCount = c.measurements.length ∧
      report.total.count = (c.counted PropagationTimes.total).length ∧
      report.safeStop.count = (c.counted PropagationTimes.safeStopExecution).length ∧
      (0 < report.total.count → 0 < report.safeStop.count →
        (report.meetsTarget = true ↔
          Within 95 targets.totalP95 (c.counted PropagationTimes.total) ∧
          ∀ d ∈ c.counted PropagationTimes.safeStopExecution, d ≤ targets.safeStopMax))) ∧
    (∀ (c : SessionSetupCollector) (now : Time) (targets : SessionSetupTargets),
      let report := c.generateReport now targets
      report.sampleCount = c.samples.length ∧
      report.total.count = (c.counted SessionSetupPhases.total).length ∧
      (0 < report.total.count →
        (report.meetsTarget = true ↔
          Within 50 targets.totalP50 (c.counted SessionSetupPhases.total) ∧
          Within 95 targets.totalP95 (c.counted SessionSetupPhases.total)))) ∧
    (∀ (c : ControlRTTCollector) (now : Time) (targets : PercentileTargets),
      let report := c.generateReport now targets
      report.sampleCount = c.samples.length ∧ report.stats.count = c.samples.length ∧
      (0 < report.stats.count →
        (report.meetsTarget = true ↔
          Within 50 targets.p50 c.rtts ∧ Within 95 targets.p95 c.rtts))) ∧
    (∀ (c : VideoLatencyCollector) (now : Time) (targets : PercentileTargets),
      let report := c.generateReport now targets
      report.sampleCount = c.samples.length ∧ report.stats.count = c.samples.length ∧
      (0 < report.stats.count →
        (report.meetsTarget = true ↔
          Within 50 targets.p50 (c.samples.map VideoLatencySample.latency) ∧
          Within 95 targets.p95 (c.samples.map VideoLatencySample.latency)))) := by
  refine ⟨?_, ?_, ?_, ?_⟩
  · intro c now targets report
    refine ⟨rfl, count_statsOfPositive _ _, count_statsOfPositive _ _, ?_⟩
    intro htotal hsafe
    obtain ⟨htotaleq, hne⟩ := propagationStats_eq htotal
    obtain ⟨hsafeeq, hne'⟩ := propagationStats_eq hsafe
    show (decide ((c.propagationStats PropagationTimes.total).p95 ≤ targets.totalP95) &&
      decide ((c.propagationStats PropagationTimes.safeStopExecution).max ≤ targets.safeStopMax))
        = true ↔ _
    rw [htotaleq, hsafeeq, Bool.and_eq_true, decide_eq_true_eq, decide_eq_true_eq]
    exact and_congr (percentile_sort_le_iff hne (by omega) _) (max_of_le_iff hne' _)
  · intro c now targets report
    refine ⟨rfl, count_statsOfPositive _ _, ?_⟩
    intro htotal
    obtain ⟨htotaleq, hne⟩ := phaseStats_eq htotal
    show (decide ((c.phaseStats SessionSetupPhases.total).p50 ≤ targets.totalP50) &&
      decide ((c.phaseStats SessionSetupPhases.total).p95 ≤ targets.totalP95)) = true ↔ _
    rw [htotaleq]
    exact percentiles_le_iff hne targets.totalP50 targets.totalP95
  · intro c now targets report
    exact ⟨rfl, count_statsOfAll _ _, meetsTarget_percentileReport now targets⟩
  · intro c now targets report
    exact ⟨rfl, count_statsOfAll _ _, meetsTarget_percentileReport now targets⟩

/-- A revocation in 10 ms and one that was never completed. -/
def unfinishedRevocations : List RevocationTimestamps :=
  [⟨"s1", 0, zeroTime, zeroTime, zeroTime, 2 * millisecond, 10 * millisecond, zeroTime⟩,
    ⟨"s2", second, zeroTime, zeroTime, zeroTime, zeroTime, zeroTime, zeroTime⟩]

/-- Their report is a pass just when the one that counts is within the targets. -/
theorem reports_judge_one :
    (RevocationCollector.generateReport ⟨unfinishedRevocations, 100⟩ (2 * second)
        defaultTargets).meetsTarget = true ↔
      Within 95 (1 * second) (RevocationCollector.counted ⟨unfinishedRevocations, 100⟩
        PropagationTimes.total) ∧
      ∀ d ∈ RevocationCollector.counted ⟨unfinishedRevocations, 100⟩
        PropagationTimes.safeStopExecution, d ≤ 100 * millisecond :=
  (reports_judge_counted.1 ⟨unfinishedRevocations, 100⟩ (2 * second) defaultTargets).2.2.2
    (by decide +kernel) (by decide +kernel)

/-- Two revocations are retained, one is counted, and the report is a pass. -/
theorem report_drops_unfinished :
    ((unfinishedRevocations.foldl RevocationCollector.record (.new 100)).generateReport
        (2 * second) defaultTargets).meetsTarget = true ∧
      ((unfinishedRevocations.foldl RevocationCollector.record (.new 100)).generateReport
        (2 * second) defaultTargets).sampleCount = 2 ∧
      ((unfinishedRevocations.foldl RevocationCollector.record (.new 100)).generateReport
        (2 * second) defaultTargets).total.count = 1 := by
  decide +kernel

end ChainKVM.Robot
