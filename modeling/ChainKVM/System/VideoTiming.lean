import ChainKVM.Console.FrameTimestamps
import ChainKVM.Robot.TimestampSender

/-!
# Frame timestamps from the robot to the console

The robot numbers the timestamps that it sends, the data channel loses some and
keeps the others in order, and the console counts the numbers that are left
out. `timing_of_in_order` says what this amounts to: the console's count is the
number of messages that the robot has sent between two that have arrived, and
that have not arrived themselves (`lost`), whether `Send` has failed or the
channel has dropped them; and its buffer holds the capture times of the last
hundred sampled frames that arrived.

Numbers that JavaScript holds exactly stay below 2^53, so a run is shorter than
that. A message is parsed as it was marshalled.
-/

namespace ChainKVM.System

open Console (ChannelData FrameTimestamps receive)
open Gaps (between missing lowest highest)
open Robot (Time TimestampSender millisecond)

/-! ## What arrives -/

/-- A message as the console parses it. -/
def parsed (m : Robot.FrameTimestampMessage) : Console.FrameTimestampMessage :=
  ⟨m.timestamp, m.frameID, m.sequenceNumber⟩

/-- The messages that a sender makes for frames of these times. -/
def outgoing (sendInterval : Int) (frameTimes : List Time) : List Console.FrameTimestampMessage :=
  ((TimestampSender.new sendInterval).sent frameTimes).map parsed

/-- The timestamp messages among what the channel delivers. -/
def arrived (ds : List ChannelData) : List Console.FrameTimestampMessage :=
  ds.filterMap ChannelData.message

/-- What was sent between two messages that have arrived, and has not. -/
def lost (sent got : List Console.FrameTimestampMessage) : List Console.FrameTimestampMessage :=
  sent.filter fun m => m ∉ got ∧ (∃ a ∈ got, a.sequenceNumber ≤ m.sequenceNumber) ∧
    ∃ b ∈ got, m.sequenceNumber ≤ b.sequenceNumber

/-- What the hook makes of it: the losses are counted, and the buffer holds the
times of the frames that the last messages are about. -/
structure Timing (sendInterval : Int) (frameTimes : List Time) (ds : List ChannelData) : Prop where
  losses : (receive ds).buffer.droppedMessages =
    (lost (outgoing sendInterval frameTimes) (arrived ds)).length
  buffer : (receive ds).buffer.timestamps = ((arrived ds).map (·.timestamp)).rtake 100
  frames : ∀ m ∈ arrived ds, ∃ frameTime, frameTimes[m.frameId.toNat - 1]? = some frameTime ∧
    m.timestamp = frameTime / millisecond ∧
    m.frameId = (TimestampSender.new sendInterval).sendInterval * m.sequenceNumber

/-! ## The buffer -/

theorem timestamps_foldl (ds : List ChannelData) (h : FrameTimestamps) (before : List Int)
    (hbuffer : h.buffer.timestamps = before.rtake 100) :
    (ds.foldl FrameTimestamps.handleMessage h).buffer.timestamps =
      (before ++ (arrived ds).map (·.timestamp)).rtake 100 := by
  induction ds generalizing h before with
  | nil => rw [List.foldl_nil, hbuffer, arrived, List.filterMap_nil, List.map_nil, List.append_nil]
  | cons d ds ih =>
    rw [List.foldl_cons]
    cases d with
    | frameTimestamp msg =>
      rw [ih (h.handleMessage (.frameTimestamp msg)) (before ++ [msg.timestamp])]
      · rw [List.append_assoc]
        rfl
      · show h.buffer.timestamps.rtake 99 ++ [msg.timestamp] = _
        rw [hbuffer]
        exact Recent.pushSlice_rtake (by decide) before msg.timestamp
    | otherType => exact ih h before hbuffer
    | invalidStructure => exact ih _ before hbuffer
    | unparsable errorMessage => exact ih _ before hbuffer

/-! ## The losses -/

section Losses

variable {sent got : List Console.FrameTimestampMessage} {n : Nat}

/-- Numbers that were given out in a row are increasing wherever they arrive. -/
theorem increasing_of_sublist
    (hsent : sent.map (·.sequenceNumber) = (List.range' 1 n).map Int.ofNat)
    (hgot : got.Sublist sent) : (got.map (·.sequenceNumber)).Pairwise (· < ·) := by
  have hnumbers : ((List.range' 1 n).map Int.ofNat).Pairwise (· < ·) :=
    List.pairwise_map.mpr ((List.pairwise_lt_range').imp fun h => Int.ofNat_lt.mpr h)
  rw [← hsent] at hnumbers
  exact hnumbers.sublist (hgot.map _)

/-- The numbers of the lost messages are those that are missing. -/
theorem map_lost_perm (hsent : sent.map (·.sequenceNumber) = (List.range' 1 n).map Int.ofNat)
    (hgot : got.Sublist sent) :
    ((lost sent got).map (·.sequenceNumber)).Perm (missing (got.map (·.sequenceNumber))) := by
  have hnodup : (sent.map (·.sequenceNumber)).Nodup :=
    (increasing_of_sublist hsent (List.Sublist.refl sent)).imp fun hlt => ne_of_lt hlt
  cases hcases : got with
  | nil =>
    have hnil : lost sent [] = [] :=
      List.filter_eq_nil_iff.mpr fun m _ => by simp
    rw [hnil]
    rfl
  | cons first rest =>
    rw [← hcases]
    have hlist : got.map (·.sequenceNumber) =
        first.sequenceNumber :: rest.map (·.sequenceNumber) := by
      rw [hcases]
      rfl
    have hlost : ((lost sent got).map (·.sequenceNumber)).Nodup :=
      hnodup.sublist (List.filter_sublist.map _)
    have hmissing : (missing (got.map (·.sequenceNumber))).Nodup := by
      rw [hlist]
      exact (Gaps.nodup_between _ _).filter _
    refine (List.perm_ext_iff_of_nodup hlost hmissing).mpr fun x => ?_
    have hlow :
        lowest first.sequenceNumber (rest.map (·.sequenceNumber)) = first.sequenceNumber := by
      have hincreasing := increasing_of_sublist hsent hgot
      rw [hlist] at hincreasing
      exact Gaps.lowest_of_lt (List.pairwise_cons.mp hincreasing).1
    have hhigh := Gaps.highest_mem first.sequenceNumber (rest.map (·.sequenceNumber))
    rw [← hlist] at hhigh
    have hmem : x ∈ missing (got.map (·.sequenceNumber)) ↔
        (first.sequenceNumber ≤ x ∧
          x ≤ highest first.sequenceNumber (rest.map (·.sequenceNumber))) ∧
          x ∉ got.map (·.sequenceNumber) := by
      rw [hlist]
      unfold missing
      rw [List.mem_filter, Gaps.mem_between, hlow, decide_eq_true_eq]
    rw [hmem, List.mem_map]
    constructor
    · rintro ⟨m, hm, rfl⟩
      obtain ⟨hm, hbetween⟩ := List.mem_filter.mp hm
      obtain ⟨hnot, ⟨a, ha, hle⟩, b, hb, hge⟩ := of_decide_eq_true hbetween
      have hlowest := Gaps.lowest_le first.sequenceNumber (rest.map (·.sequenceNumber))
        a.sequenceNumber (by rw [← hlist]; exact List.mem_map_of_mem ha)
      have hhighest := Gaps.le_highest first.sequenceNumber (rest.map (·.sequenceNumber))
        b.sequenceNumber (by rw [← hlist]; exact List.mem_map_of_mem hb)
      rw [hlow] at hlowest
      refine ⟨⟨hlowest.trans hle, hge.trans hhighest⟩, fun hgot' => ?_⟩
      -- a message that was sent is known by its number
      obtain ⟨m', hm', heq⟩ := List.mem_map.mp hgot'
      exact hnot (List.inj_on_of_nodup_map hnodup (hgot.subset hm') hm heq ▸ hm')
    · rintro ⟨⟨hfirst, hlast⟩, hnot⟩
      obtain ⟨b, hb, hbx⟩ := List.mem_map.mp hhigh
      have hfirst' : first ∈ got := by
        rw [hcases]
        exact List.mem_cons_self
      -- the number lies between two that were given out, so it was given out
      have hrange {a : Console.FrameTimestampMessage} (ha : a ∈ got) :
          ∃ k : Nat, 1 ≤ k ∧ k < 1 + n ∧ a.sequenceNumber = k := by
        have hsentMem : a.sequenceNumber ∈ sent.map (·.sequenceNumber) :=
          List.mem_map_of_mem (hgot.subset ha)
        rw [hsent] at hsentMem
        obtain ⟨k, hk, heq⟩ := List.mem_map.mp hsentMem
        obtain ⟨hone, hlt⟩ := List.mem_range'_1.mp hk
        exact ⟨k, hone, hlt, heq.symm⟩
      obtain ⟨k, hk, -, hfirstk⟩ := hrange hfirst'
      obtain ⟨l, -, hl, hbl⟩ := hrange hb
      have hx : x ∈ sent.map (·.sequenceNumber) := by
        rw [hsent]
        refine List.mem_map.mpr ⟨x.toNat, List.mem_range'_1.mpr ⟨by omega, by omega⟩, ?_⟩
        exact Int.toNat_of_nonneg (by omega)
      obtain ⟨m, hm, rfl⟩ := List.mem_map.mp hx
      refine ⟨m, List.mem_filter.mpr ⟨hm, decide_eq_true ⟨fun hmem => ?_, ?_, ?_⟩⟩, rfl⟩
      · exact hnot (List.mem_map_of_mem hmem)
      · exact ⟨first, hfirst', hfirst⟩
      · exact ⟨b, hb, by rw [hbx]; exact hlast⟩

end Losses

/-! ## End to end -/

/-- What the robot sends has the numbers 1, 2, 3 and so on. -/
theorem outgoing_numbers (sendInterval : Int) {frameTimes : List Time}
    (hroom : frameTimes.length < 9007199254740992) :
    (outgoing sendInterval frameTimes).map (·.sequenceNumber) =
        (List.range' 1 (frameTimes.length / (TimestampSender.new sendInterval).sendInterval)).map
          Int.ofNat ∧
      ∀ m ∈ (TimestampSender.new sendInterval).sent frameTimes,
        (TimestampSender.new sendInterval).About frameTimes m := by
  have hstart : (TimestampSender.new sendInterval).frameCounter + frameTimes.length =
      frameTimes.length := Nat.zero_add _
  have hcounter : (TimestampSender.new sendInterval).frameCounter + frameTimes.length <
      18446744073709551616 := by
    rw [hstart]
    omega
  obtain ⟨hnumbers, habout⟩ := TimestampSender.sent_numbered (.new sendInterval) hcounter
  refine ⟨?_, habout⟩
  rw [hstart] at hnumbers
  have hmap : (outgoing sendInterval frameTimes).map (·.sequenceNumber) =
      (((TimestampSender.new sendInterval).sent frameTimes).map
        (·.sequenceNumber)).map Int.ofNat := by
    unfold outgoing
    rw [List.map_map, List.map_map]
    rfl
  rw [hmap, hnumbers]
  rfl

/-- For all frames, whichever sends fail, and whatever an ordered channel loses
and delivers in between. -/
theorem timing_of_in_order (sendInterval : Int) (frameTimes : List Time) (ds : List ChannelData)
    (hroom : frameTimes.length < 9007199254740992)
    (hinorder : (arrived ds).Sublist (outgoing sendInterval frameTimes)) :
    Timing sendInterval frameTimes ds := by
  obtain ⟨hnumbers, habout⟩ := outgoing_numbers sendInterval hroom
  refine ⟨?_, timestamps_foldl ds .start [] rfl, fun m hm => ?_⟩
  · have hlength := (map_lost_perm hnumbers hinorder).length_eq
    rw [List.length_map] at hlength
    have hdelivered : Console.delivered ds = (arrived ds).map (·.sequenceNumber) := rfl
    rw [Console.dropped_receive, hlength, hdelivered]
    have hincreasing := increasing_of_sublist hnumbers hinorder
    cases hcases : (arrived ds).map (·.sequenceNumber) with
    | nil => rfl
    | cons first rest =>
      rw [hcases] at hincreasing
      exact Gaps.gaps_of_increasing hincreasing
  · obtain ⟨m', hm', rfl⟩ := List.mem_map.mp (hinorder.subset hm)
    obtain ⟨hframe, -, htime⟩ := habout m' hm'
    obtain ⟨frameTime, hget, htimestamp⟩ := Option.map_eq_some_iff.mp htime
    refine ⟨frameTime, hget, htimestamp.symm, ?_⟩
    show ((m'.frameID : Nat) : Int) = _ * (m'.sequenceNumber : Int)
    rw [hframe]
    push_cast
    rfl

/-- Of forty frames four are sampled; the second message is lost. -/
theorem timing_sample :
    Timing 0 ((List.range 40).map fun k : Nat => k * 33 * millisecond)
      [.frameTimestamp ⟨297, 10, 1⟩, .otherType, .frameTimestamp ⟨957, 30, 3⟩,
        .frameTimestamp ⟨1287, 40, 4⟩] :=
  timing_of_in_order _ _ _ (by decide) (by decide)

end ChainKVM.System
