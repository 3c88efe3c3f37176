import ChainKVM.Lib.OrdMap
import ChainKVM.Lib.Recent
import ChainKVM.Robot.Statistics

/-!
# The collectors: `internal/metrics`

What each collector records and the statistics it takes of it. All four keep
the last `maxSamples` measurements. Their statistics are `IsSummary`
summaries of the durations they count, whatever the order in which these were
recorded (`statistics_summarise`).
-/

namespace ChainKVM.Robot

/-- The bound of a collector, from the argument of its constructor. -/
def boundOf (maxSamples : Int) : Nat := if maxSamples ≤ 0 then 1000 else maxSamples.toNat

theorem boundOf_pos (maxSamples : Int) : 0 < boundOf maxSamples := by
  unfold boundOf
  split <;> omega

/-- `duration`: the time between two events, or zero if either is unset. -/
def duration (start stop : Time) : Duration :=
  if start = zeroTime ∨ stop = zeroTime then 0 else sub stop start

/-! ## Revocations -/

/-- `PropagationTimes`. -/
structure PropagationTimes where
  total : Duration
  handlerProcessing : Duration
  transportTeardown : Duration
  sessionTeardown : Duration
  safeStopExecution : Duration
  deriving DecidableEq, Repr

/-- `RevocationTimestamps.Calculate`. -/
def RevocationTimestamps.calculate (t : RevocationTimestamps) : PropagationTimes where
  total := duration t.messageReceived t.safeStopCompleted
  handlerProcessing := duration t.handlerStarted t.safeStopTriggered
  transportTeardown := duration t.handlerStarted t.transportClosed
  sessionTeardown := duration t.transportClosed t.sessionTerminated
  safeStopExecution := duration t.safeStopTriggered t.safeStopCompleted

namespace RevocationCollector

/-- `NewRevocationCollector`. -/
def new (maxSamples : Int) : RevocationCollector := ⟨[], boundOf maxSamples⟩

/-- `Stats`. -/
def stats (c : RevocationCollector) : RevocationStats :=
  calculateStats c.measurements fun t => t.calculate.total

/-- `SafeStopStats`. -/
def safeStopStats (c : RevocationCollector) : RevocationStats :=
  calculateStats c.measurements fun t => t.calculate.safeStopExecution

theorem record_eq (c : RevocationCollector) (ts : RevocationTimestamps) :
    c.record ts = { c with measurements := Recent.push c.maxSamples c.measurements ts } := by
  unfold record Recent.push
  split <;> rfl

/-- The collector retains the last `maxSamples` of what was recorded. -/
theorem measurements_foldl_record (maxSamples : Int) (recorded : List RevocationTimestamps) :
    (recorded.foldl record (new maxSamples)).measurements
      = recorded.rtake (boundOf maxSamples) := by
  have hfold (ms : List RevocationTimestamps) : recorded.foldl record ⟨ms, boundOf maxSamples⟩
      = ⟨recorded.foldl (Recent.push (boundOf maxSamples)) ms, boundOf maxSamples⟩ := by
    induction recorded generalizing ms with
    | nil => rfl
    | cons ts recorded ih => rw [List.foldl_cons, record_eq, ih, List.foldl_cons]
  have hlast := Recent.foldl_push (boundOf_pos maxSamples) [] recorded
  rw [List.rtake_nil, List.nil_append] at hlast
  rw [new, hfold, hlast]

end RevocationCollector

/-! ## Session setup -/

/-- `SessionSetupTimestamps`, without the times that no duration is taken of. -/
structure SessionSetupTimestamps where
  sessionID : String
  offerReceived : Time
  tokenValidated : Time
  answerSent : Time
  connectionEstablished : Time
  dataChannelReady : Time
  deriving DecidableEq, Repr

/-- `SessionSetupPhases`. -/
structure SessionSetupPhases where
  total : Duration
  tokenValidation : Duration
  webRTCSetup : Duration
  iceNegotiation : Duration
  sessionActivation : Duration
  deriving DecidableEq, Repr

/-- `SessionSetupTimestamps.Calculate`. -/
def SessionSetupTimestamps.calculate (ts : SessionSetupTimestamps) : SessionSetupPhases where
  total := duration ts.offerReceived ts.dataChannelReady
  tokenValidation := duration ts.offerReceived ts.tokenValidated
  webRTCSetup := duration ts.tokenValidated ts.answerSent
  iceNegotiation := duration ts.answerSent ts.connectionEstablished
  sessionActivation := duration ts.connectionEstablished ts.dataChannelReady

/-- `calculateSessionSetupStats`. -/
def calculateSessionSetupStats (samples : List SessionSetupTimestamps)
    (extract : SessionSetupTimestamps → Duration) : RevocationStats :=
  statsOfPositive samples extract

/-- `SessionSetupCollector`. -/
structure SessionSetupCollector where
  samples : List SessionSetupTimestamps
  maxSamples : Nat
  deriving DecidableEq, Repr

namespace SessionSetupCollector

/-- `NewSessionSetupCollector`. -/
def new (maxSamples : Int) : SessionSetupCollector := ⟨[], boundOf maxSamples⟩

/-- `Record`. -/
def record (c : SessionSetupCollector) (ts : SessionSetupTimestamps) : SessionSetupCollector :=
  { c with samples := Recent.push c.maxSamples c.samples ts }

/-- `Stats`. -/
def stats (c : SessionSetupCollector) : RevocationStats :=
  calculateSessionSetupStats c.samples fun ts => ts.calculate.total

end SessionSetupCollector

/-! ## Control round trips -/

/-- `ControlRTTSample`. -/
structure ControlRTTSample where
  seq : Nat
  sendTime : Int
  recvTime : Int
  rtt : Duration
  deriving DecidableEq, Repr

/-- `ControlRTTCollector`; the sequence number is a `uint32`. -/
structure ControlRTTCollector where
  samples : List ControlRTTSample
  maxSamples : Nat
  pendingPings : OrdMap Nat Int
  nextSeq : Nat

namespace ControlRTTCollector

/-- `NewControlRTTCollector`. -/
def new (maxSamples : Int) : ControlRTTCollector := ⟨[], boundOf maxSamples, .empty, 0⟩

/-- `stalePingThreshold`. -/
def stalePingThreshold : Duration := 5 * second

/-- `cleanupStalePings` at `now`. -/
def cleanupStalePings (c : ControlRTTCollector) (now : Int) : ControlRTTCollector :=
  { c with
    pendingPings := c.pendingPings.filter fun _ sendTime =>
      ¬(Int64.ofInt (now - sendTime)).toInt > stalePingThreshold }

/-- `GeneratePing`, which reads the clock twice: for the clean-up, and then for
the ping. The message and the state. -/
def generatePing (c : ControlRTTCollector) (cleanedAt now : Int) :
    PingMessage × ControlRTTCollector :=
  let cleaned := c.cleanupStalePings cleanedAt
  let seq := c.nextSeq
  (⟨seq, now⟩,
    { cleaned with
      nextSeq := (seq + 1) % 4294967296
      pendingPings := cleaned.pendingPings.set seq now })

/-- `RecordPong` at `now`: a pong for no pending ping is ignored. -/
def recordPong (c : ControlRTTCollector) (now : Int) (pong : PongMessage) : ControlRTTCollector :=
  match c.pendingPings.get pong.seq with
  | none => c
  | some sendTime =>
    { c with
      pendingPings := c.pendingPings.delete pong.seq
      samples := Recent.push c.maxSamples c.samples
        ⟨pong.seq, sendTime, now, (Int64.ofInt (now - sendTime)).toInt⟩ }

/-- `Reset`. The sequence number goes on. -/
def reset (c : ControlRTTCollector) : ControlRTTCollector :=
  { c with samples := [], pendingPings := .empty }

/-- The durations that the statistics are taken of. -/
def rtts (c : ControlRTTCollector) : List Duration := c.samples.map ControlRTTSample.rtt

/-- `statsLocked`. -/
def statsLocked (c : ControlRTTCollector) : RevocationStats :=
  statsOfAll c.samples ControlRTTSample.rtt

end ControlRTTCollector

/-! ## Video latency -/

/-- `VideoLatencySample`. -/
structure VideoLatencySample where
  frameTimestamp : Time
  extracted : Time
  latency : Duration
  deriving DecidableEq, Repr

/-- `VideoLatencyCollector`. -/
structure VideoLatencyCollector where
  samples : List VideoLatencySample
  maxSamples : Nat
  deriving DecidableEq, Repr

namespace VideoLatencyCollector

/-- `NewVideoLatencyCollector`. -/
def new (maxSamples : Int) : VideoLatencyCollector := ⟨[], boundOf maxSamples⟩

/-- `Record`. -/
def record (c : VideoLatencyCollector) (frameTimestamp extractedAt : Time) :
    VideoLatencyCollector :=
  let sample := ⟨frameTimestamp, extractedAt, sub extractedAt frameTimestamp⟩
  { c with samples := Recent.push c.maxSamples c.samples sample }

/-- `RecordLatency` at `now`. -/
def recordLatency (c : VideoLatencyCollector) (now : Time) (latency : Duration) :
    VideoLatencyCollector :=
  { c with samples := Recent.push c.maxSamples c.samples ⟨zeroTime, now, latency⟩ }

/-- `statsLocked`. -/
def statsLocked (c : VideoLatencyCollector) : RevocationStats :=
  statsOfAll c.samples VideoLatencySample.latency

end VideoLatencyCollector

/-! ## The statistics -/

theorem statsOfPositive_eq {M : Type} {measurements : List M} {extract : M → Duration}
    (h : positive measurements extract ≠ []) :
    statsOfPositive measurements extract = .of (positive measurements extract) := by
  have hpos : (positive measurements extract).length ≠ 0 := by
    rw [ne_eq, List.length_eq_zero_iff]
    exact h
  have hne : measurements.length ≠ 0 := by
    intro hzero
    rw [List.length_eq_zero_iff] at hzero
    subst hzero
    exact h rfl
  unfold statsOfPositive
  rw [if_neg hne, if_neg hpos]

theorem statsOfAll_eq {M : Type} {samples : List M} {extract : M → Duration}
    (h : samples.map extract ≠ []) : statsOfAll samples extract = .of (samples.map extract) := by
  have hne : samples.length ≠ 0 := by
    intro hzero
    rw [List.length_eq_zero_iff] at hzero
    subst hzero
    exact h rfl
  unfold statsOfAll
  rw [if_neg hne]

/-- The count is that of the positive durations. -/
theorem count_statsOfPositive {M : Type} (measurements : List M) (extract : M → Duration) :
    (statsOfPositive measurements extract).count = (positive measurements extract).length := by
  by_cases h : positive measurements extract = []
  · have hzero : statsOfPositive measurements extract = .zero := by
      unfold statsOfPositive
      rw [h]
      exact ite_self _
    rw [hzero, h]
    rfl
  · rw [statsOfPositive_eq h, count_of]

/-- The count is that of the samples. -/
theorem count_statsOfAll {M : Type} (samples : List M) (extract : M → Duration) :
    (statsOfAll samples extract).count = samples.length := by
  by_cases h : samples = []
  · subst h
    rfl
  · rw [statsOfAll_eq (by simpa using h), count_of, List.length_map]

/-- The statistics of the durations `ds`, in whatever order they were recorded
and wherever they are computed. -/
theorem statistics_summarise (ds : List Duration) (hne : ds ≠ [])
    (hfits : FitsInt64 (sumOf ds)) :
    (∀ measurements extract, (positive measurements extract).Perm ds →
      IsSummary (calculateStats measurements extract) ds ∧
        calculateStats measurements extract = .of ds) ∧
    (∀ c : ControlRTTCollector, c.rtts.Perm ds →
      IsSummary c.statsLocked ds ∧ c.statsLocked = .of ds) ∧
    ∀ p ≤ 100, IsPercentile p (percentile (ds.insertionSort (· ≤ ·)) p) ds := by
  have hsummary := isSummary_of hne hfits
  refine ⟨?_, ?_, fun p hp => isPercentile_sort hne hp⟩
  · intro measurements extract hperm
    have hne' : positive measurements extract ≠ [] := fun h => hne (h ▸ hperm).nil_eq.symm
    have heq : calculateStats measurements extract = .of ds :=
      (statsOfPositive_eq hne').trans (of_perm hperm)
    exact ⟨heq ▸ hsummary, heq⟩
  · intro c hperm
    have hne' : c.rtts ≠ [] := fun h => hne (h ▸ hperm).nil_eq.symm
    have heq : c.statsLocked = .of ds := (statsOfAll_eq hne').trans (of_perm hperm)
    exact ⟨heq ▸ hsummary, heq⟩

/-- Three round trips of 30, 10 and 20 nanoseconds. -/
theorem statistics_summarise_three :
    IsSummary (ControlRTTCollector.statsLocked
      ⟨[⟨0, 0, 30, 30⟩, ⟨1, 40, 50, 10⟩, ⟨2, 60, 80, 20⟩], 1000, .empty, 3⟩) [10, 20, 30] :=
  ((statistics_summarise [10, 20, 30] (by decide) (by decide)).2.1 _ (by decide)).1

end ChainKVM.Robot
