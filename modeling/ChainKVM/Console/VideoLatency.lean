import ChainKVM.Console.FrameTimestamps
import ChainKVM.Lib.Machine

/-!
# Video latency: `hooks/useVideoLatency.ts`

The hook takes a latency sample of every timestamp that `useFrameTimestamps`
adds to its buffer. It finds the new ones by how long the buffer was the last
time, and the buffer does not grow beyond 100: from the 101st message on it is
as long as before, and nothing is measured any more (`measures_all_iff`).

A step is what the channel delivers together with the rendering and the effect
that follow; `now` is the clock of the effect. The average is exact.
-/

namespace ChainKVM.Console

open Machine (Always Steps)

/-! ## The hook -/

/-- `VideoLatencyConfig`, with its defaults filled in. -/
structure VideoLatencyConfig where
  maxSamples : Int
  detectClockOffset : Bool
  deriving DecidableEq, Repr

/-- `VideoLatencyData`. -/
structure VideoLatencyData where
  currentLatency : Option Int
  averageLatency : Option Rat
  minLatency : Option Int
  maxLatency : Option Int
  sampleCount : Nat
  clockOffset : Option Int
  error : Option String
  timestampBuffer : TimestampBuffer
  deriving DecidableEq, Repr

/-- `useVideoLatency`: the state and the refs of the hook, and all the samples
that it has taken. -/
structure VideoLatency where
  latencyData : VideoLatencyData
  samples : List Int
  lastProcessedCount : Nat
  prevClockOffset : Option Int
  taken : List Int

namespace VideoLatency

/-- The first rendering. -/
def start : VideoLatency :=
  ⟨⟨none, none, none, none, 0, none, none, ⟨[], 0, 0, 0, none⟩⟩, [], 0, none, []⟩

/-- The body of the loop over the new timestamps. -/
def pushSample (maxSamples : Int) (samples : List Int) (latency : Int) : List Int :=
  let samples := samples ++ [latency]
  if maxSamples < samples.length then samples.tail else samples

/-- The clock offset, with its hysteresis. -/
def clockOffset (cfg : VideoLatencyConfig) (samples : List Int) (prevClockOffset : Option Int) :
    Option Int :=
  let negativeSamples := samples.filter fun s => s < 0
  let negativeRatio : Rat :=
    if 0 < samples.length then (negativeSamples.length : Rat) / samples.length else 0
  if cfg.detectClockOffset then
    if 1 / 4 ≤ negativeRatio then negativeSamples.min?.map fun s => (s.natAbs : Int)
    else if prevClockOffset.isSome ∧ 1 / 5 ≤ negativeRatio then prevClockOffset
    else none
  else none

/-- The statistics of the samples. -/
def statistics (cfg : VideoLatencyConfig) (samples : List Int) (clockOffset : Option Int)
    (timestampBuffer : TimestampBuffer) : VideoLatencyData :=
  let validSamples := samples.filter fun s => 0 ≤ s ∨ !cfg.detectClockOffset
  let sum : Int := validSamples.foldl (fun acc s => acc + s) 0
  { currentLatency := samples.getLast?
    averageLatency :=
      if 0 < validSamples.length then some ((sum : Rat) / validSamples.length) else none
    minLatency := validSamples.min?
    maxLatency := validSamples.max?
    sampleCount := samples.length
    clockOffset
    error := none
    timestampBuffer }

/-- The effect from where the new timestamps are known. -/
def process (cfg : VideoLatencyConfig) (timestampBuffer : TimestampBuffer)
    (newTimestamps : List Int) (currentTime : Int) (h : VideoLatency) : VideoLatency :=
  let latencies := newTimestamps.map fun timestamp => currentTime - timestamp
  let samples := latencies.foldl (pushSample cfg.maxSamples) h.samples
  let offset := clockOffset cfg samples h.prevClockOffset
  { latencyData := statistics cfg samples offset timestampBuffer
    samples
    lastProcessedCount := timestampBuffer.timestamps.length
    prevClockOffset := offset
    taken := h.taken ++ latencies }

/-- The effect; `currentTime` is what `Date.now` says, if it is asked. -/
def effect (cfg : VideoLatencyConfig) (timestampBuffer : TimestampBuffer) (currentTime : Int)
    (h : VideoLatency) : VideoLatency :=
  if cfg.maxSamples ≤ 0 then h
  else
    let newTimestampCount := timestampBuffer.timestamps.length
    let h :=
      if newTimestampCount < h.lastProcessedCount then
        { h with samples := [], lastProcessedCount := 0 }
      else h
    if newTimestampCount = 0 ∨ newTimestampCount = h.lastProcessedCount then h
    else
      h.process cfg timestampBuffer (timestampBuffer.timestamps.drop h.lastProcessedCount)
        currentTime

end VideoLatency

/-- What the channel delivers, and the time of the effect that follows. -/
structure Delivery where
  data : ChannelData
  now : Int
  deriving DecidableEq, Repr

/-- The two hooks, and the latencies of all the timestamps received so far. -/
structure LatencyMeasurement where
  frames : FrameTimestamps
  video : VideoLatency
  received : List Int

namespace LatencyMeasurement

def start : LatencyMeasurement := ⟨.start, .start, []⟩

/-- An object of another type does not change the state, so nothing is rendered. -/
def step (cfg : VideoLatencyConfig) (m : LatencyMeasurement) (d : Delivery) :
    LatencyMeasurement :=
  let frames := m.frames.handleMessage d.data
  { frames
    video := if d.data = .otherType then m.video else m.video.effect cfg frames.buffer d.now
    received := m.received ++ (d.data.message.map fun msg => d.now - msg.timestamp).toList }

/-- Every timestamp that has been received has given one sample, and the last
`maxSamples` of them are there. -/
structure MeasuresAll (cfg : VideoLatencyConfig) (m : LatencyMeasurement) : Prop where
  taken : m.video.taken = m.received
  samples : m.video.samples = m.received.rtake cfg.maxSamples.toNat
  count : m.video.latencyData.sampleCount = min m.received.length cfg.maxSamples.toNat

/-! ## Up to the bound of the buffer -/

variable {cfg : VideoLatencyConfig} {m : LatencyMeasurement} {d : Delivery}

/-- The buffer holds all that has been received, and all of it is processed. -/
structure UpToDate (cfg : VideoLatencyConfig) (m : LatencyMeasurement) : Prop where
  bound : m.received.length ≤ 100
  buffer : m.frames.buffer.timestamps.length = m.received.length
  processed : m.video.lastProcessedCount = m.received.length
  measures : MeasuresAll cfg m

/-- A message that finds room in the buffer. -/
def FindsRoom (m : LatencyMeasurement) (d : Delivery) : Prop :=
  ∀ msg, d.data.message = some msg → m.received.length < 100

/-- An effect that finds the buffer as long as the last time does nothing. -/
theorem effect_same {buffer : TimestampBuffer} {v : VideoLatency} (now : Int)
    (h : buffer.timestamps.length = v.lastProcessedCount) : v.effect cfg buffer now = v := by
  unfold VideoLatency.effect
  split
  · rfl
  · dsimp only
    rw [if_neg (show ¬buffer.timestamps.length < v.lastProcessedCount by omega),
      if_pos (Or.inr h)]

/-- An effect that finds one more timestamp takes one sample. -/
theorem effect_next (hcfg : 1 ≤ cfg.maxSamples) {buffer : TimestampBuffer} {v : VideoLatency}
    {before : List Int} {timestamp : Int} (now : Int)
    (hbuffer : buffer.timestamps = before ++ [timestamp])
    (h : before.length = v.lastProcessedCount) :
    v.effect cfg buffer now = v.process cfg buffer [timestamp] now := by
  have hlen : buffer.timestamps.length = v.lastProcessedCount + 1 := by
    rw [hbuffer, List.length_append, h]
    rfl
  unfold VideoLatency.effect
  dsimp only
  rw [if_neg (by omega),
    if_neg (show ¬buffer.timestamps.length < v.lastProcessedCount by omega), if_neg (by omega),
    hbuffer, ← h, List.drop_left]

/-- One sample more. -/
theorem measures_process (hcfg : 1 ≤ cfg.maxSamples) (h : MeasuresAll cfg m)
    (frames : FrameTimestamps) (timestamp now : Int) :
    MeasuresAll cfg
      { frames
        video := m.video.process cfg frames.buffer [timestamp] now
        received := m.received ++ [now - timestamp] } := by
  have hpush : VideoLatency.pushSample cfg.maxSamples m.video.samples (now - timestamp) =
      (m.received ++ [now - timestamp]).rtake cfg.maxSamples.toNat := by
    rw [h.samples, ← Recent.pushShift_rtake (by omega)]
    unfold VideoLatency.pushSample Recent.pushShift
    dsimp only
    congr 1
    rw [eq_iff_iff]
    omega
  refine ⟨?_, hpush, ?_⟩
  · show m.video.taken ++ [now - timestamp] = _
    rw [h.taken]
  · show (VideoLatency.pushSample cfg.maxSamples m.video.samples (now - timestamp)).length = _
    rw [hpush, Recent.length_rtake, Nat.min_comm]

theorem UpToDate.start : UpToDate cfg .start where
  bound := Nat.zero_le _
  buffer := rfl
  processed := rfl
  measures := ⟨rfl, (List.rtake_nil _).symm, (Nat.zero_min _).symm⟩

/-- The timestamps after a message, if there is room. -/
theorem addTimestamp_room (f : FrameTimestamps) (msg : FrameTimestampMessage)
    (h : f.buffer.timestamps.length < 100) :
    (f.addTimestamp msg).buffer.timestamps = f.buffer.timestamps ++ [msg.timestamp] := by
  show f.buffer.timestamps.rtake 99 ++ [msg.timestamp] = _
  rw [Recent.rtake_of_length_le (by omega)]

/-- What is not a timestamp message leaves the timestamps as they are. -/
theorem timestamps_handleMessage (f : FrameTimestamps) {data : ChannelData}
    (hnone : data.message = none) :
    (f.handleMessage data).buffer.timestamps = f.buffer.timestamps := by
  cases data with
  | frameTimestamp msg => cases hnone
  | otherType => rfl
  | invalidStructure => rfl
  | unparsable errorMessage => rfl

theorem MeasuresAll.of_same {m' : LatencyMeasurement} (h : MeasuresAll cfg m)
    (hvideo : m'.video = m.video) (hreceived : m'.received = m.received) : MeasuresAll cfg m' := by
  refine ⟨?_, ?_, ?_⟩
  · rw [hvideo, hreceived]
    exact h.taken
  · rw [hvideo, hreceived]
    exact h.samples
  · rw [hvideo, hreceived]
    exact h.count

/-- Then nothing is measured. -/
theorem UpToDate.ignored (h : UpToDate cfg m) (hnone : d.data.message = none) :
    UpToDate cfg (m.step cfg d) := by
  have hlen : (m.frames.handleMessage d.data).buffer.timestamps.length = m.received.length := by
    rw [timestamps_handleMessage m.frames hnone, h.buffer]
  have hvideo : (m.step cfg d).video = m.video := by
    unfold step
    dsimp only
    split
    · rfl
    · exact effect_same d.now (hlen.trans h.processed.symm)
  have hreceived : (m.step cfg d).received = m.received := by
    unfold step
    rw [hnone]
    exact List.append_nil _
  refine ⟨?_, ?_, ?_, h.measures.of_same hvideo hreceived⟩
  · rw [hreceived]
    exact h.bound
  · rw [hreceived]
    exact hlen
  · rw [hvideo, hreceived]
    exact h.processed

/-- What a timestamp message does. -/
theorem step_message {msg : FrameTimestampMessage} (hd : d.data.message = some msg) :
    m.step cfg d =
      { frames := m.frames.addTimestamp msg
        video := m.video.effect cfg (m.frames.addTimestamp msg).buffer d.now
        received := m.received ++ [d.now - msg.timestamp] } := by
  unfold step
  rw [hd]
  cases hdata : d.data with
  | frameTimestamp msg' =>
    rw [hdata] at hd
    cases Option.some.inj hd
    dsimp only
    rw [if_neg nofun]
    rfl
  | otherType => rw [hdata] at hd; cases hd
  | invalidStructure => rw [hdata] at hd; cases hd
  | unparsable errorMessage => rw [hdata] at hd; cases hd

theorem UpToDate.next (hcfg : 1 ≤ cfg.maxSamples) (h : UpToDate cfg m) (hroom : FindsRoom m d) :
    UpToDate cfg (m.step cfg d) := by
  cases hd : d.data.message with
  | none => exact h.ignored hd
  | some msg =>
    have hlt := hroom msg hd
    have htimestamps := addTimestamp_room m.frames msg (h.buffer ▸ hlt)
    have hlength : m.frames.buffer.timestamps.length = m.video.lastProcessedCount :=
      h.buffer.trans h.processed.symm
    rw [step_message hd, effect_next hcfg d.now htimestamps hlength]
    refine ⟨?_, ?_, ?_, measures_process hcfg h.measures _ _ _⟩
    · rw [List.length_append, List.length_singleton]
      omega
    · rw [htimestamps, List.length_append, List.length_append, h.buffer]
      rfl
    · show (m.frames.addTimestamp msg).buffer.timestamps.length = _
      rw [htimestamps, List.length_append, List.length_append, h.buffer]
      rfl

/-- A message that finds the buffer full is not measured. -/
theorem UpToDate.full (h : UpToDate cfg m) (hmeasures : MeasuresAll cfg (m.step cfg d)) :
    FindsRoom m d := by
  intro msg hd
  have hbound := h.bound
  by_contra hfull
  have hlen : (m.frames.addTimestamp msg).buffer.timestamps.length =
      m.video.lastProcessedCount := by
    show (m.frames.buffer.timestamps.rtake 99 ++ [msg.timestamp]).length = _
    rw [List.length_append, Recent.length_rtake, h.buffer, h.processed, List.length_singleton]
    omega
  have htaken := hmeasures.taken
  rw [step_message hd, effect_same d.now hlen] at htaken
  dsimp only at htaken
  rw [h.measures.taken] at htaken
  have hlength := congrArg List.length htaken
  rw [List.length_append, List.length_singleton] at hlength
  omega

/-! ## Runs -/

/-- The timestamp messages of a run. -/
def messages (ds : List Delivery) : List FrameTimestampMessage :=
  ds.filterMap fun d => d.data.message

/-- All messages find room iff there are no more of them than fit. -/
theorem steps_findsRoom_iff {ds : List Delivery} (hm : m.received.length ≤ 100) :
    Steps (step cfg) FindsRoom m ds ↔ m.received.length + (messages ds).length ≤ 100 := by
  have hreceived (m : LatencyMeasurement) (d : Delivery) : (m.step cfg d).received.length =
      m.received.length + if d.data.message.isSome then 1 else 0 := by
    unfold step
    rw [List.length_append]
    cases d.data.message <;> rfl
  have hiff (m : LatencyMeasurement) (d : Delivery) :
      FindsRoom m d ↔ (d.data.message.isSome → m.received.length < 100) := by
    unfold FindsRoom
    rw [Option.isSome_iff_exists, forall_exists_index]
  have hsame : Steps (step cfg) FindsRoom m ds ↔
      Steps (step cfg) (fun m d => d.data.message.isSome → m.received.length < 100) m ds :=
    Machine.steps_iff_steps (I := fun _ => True) (fun _ _ _ => trivial) (fun m d _ => hiff m d)
      trivial
  unfold messages
  rw [List.length_filterMap_eq_countP, hsame]
  exact Machine.steps_count_iff (fun m : LatencyMeasurement => m.received.length) hreceived hm

/-- Whatever the channel delivers, and at whatever times: all timestamps are
measured throughout iff there are at most 100 of them. -/
theorem measures_all_iff (hcfg : 1 ≤ cfg.maxSamples) (ds : List Delivery) :
    Always (step cfg) (MeasuresAll cfg) start ds ↔ (messages ds).length ≤ 100 := by
  have hroom : Steps (step cfg) FindsRoom start ds ↔ 0 + (messages ds).length ≤ 100 :=
    steps_findsRoom_iff (Nat.zero_le 100)
  rw [Nat.zero_add] at hroom
  rw [← hroom]
  exact Machine.always_iff_steps_of_break (I := UpToDate cfg) (fun _ h => h.measures)
    (fun _ _ h hd => h.next hcfg hd) (fun _ _ h hd => h.full hd) .start

/-- Message `n`, 20 ms on its way. -/
def sampled (n : Nat) : Delivery := ⟨.frameTimestamp ⟨1000 * n, n, n⟩, 1000 * n + 20⟩

theorem measures_two :
    Always (step ⟨100, true⟩) (MeasuresAll ⟨100, true⟩) start [sampled 1, sampled 2] :=
  (measures_all_iff (by decide) _).mpr (by decide)

/-- The 101st message is not measured. -/
theorem measures_stop :
    ¬Always (step ⟨100, true⟩) (MeasuresAll ⟨100, true⟩) start ((List.range 101).map sampled) := by
  intro h
  have htaken := congrArg List.length h.last.taken
  revert htaken
  decide +kernel

end LatencyMeasurement

end ChainKVM.Console
