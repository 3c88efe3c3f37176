import ChainKVM.Lib.Machine
import ChainKVM.Robot.Protocol

/-!
# Frame timestamps: `internal/video/timestamp_sender.go`

The sender counts the frames and sends a message for every `sendInterval`-th of
them. A message has its number before `Send` is asked, so a number is used up
even if `Send` fails; what `Send` returns is returned, and changes nothing.

The counters are `uint64`. Short of their end, the messages of a run have the
numbers 1, 2, 3 and so on, and each is about the frame that it should be about
(`sent_numbered`).
-/

namespace ChainKVM.Robot

open Machine (collect run)

/-- `FrameTimestampMessage`, but for its constant type. -/
structure FrameTimestampMessage where
  timestamp : Int
  frameID : Nat
  sequenceNumber : Nat
  deriving DecidableEq, Repr

/-- `TimestampSender`. -/
structure TimestampSender where
  frameCounter : Nat
  seqNumber : Nat
  sendInterval : Nat
  positive : 0 < sendInterval

namespace TimestampSender

/-- `NewTimestampSender`. -/
def new (sendInterval : Int) : TimestampSender where
  frameCounter := 0
  seqNumber := 0
  sendInterval := if sendInterval ≤ 0 then 10 else sendInterval.toNat
  positive := by split <;> omega

/-- `n++` of a `uint64`. -/
def increment (n : Nat) : Nat := (n + 1) % 18446744073709551616

/-- `SendFrameTimestamp`, up to the call of `Send` with this message. -/
def sendFrameTimestamp (s : TimestampSender) (frameTime : Time) :
    Option FrameTimestampMessage × TimestampSender :=
  let s := { s with frameCounter := increment s.frameCounter }
  if s.frameCounter % s.sendInterval ≠ 0 then (none, s)
  else
    let s := { s with seqNumber := increment s.seqNumber }
    (some ⟨frameTime / millisecond, s.frameCounter, s.seqNumber⟩, s)

/-- One more frame. -/
def step (s : TimestampSender) (frameTime : Time) : TimestampSender :=
  (s.sendFrameTimestamp frameTime).2

/-- The messages that frames of these times lead to. -/
def sent (s : TimestampSender) (frameTimes : List Time) : List FrameTimestampMessage :=
  collect step (fun s frameTime => (s.sendFrameTimestamp frameTime).1) s frameTimes

/-! ## The messages of a run -/

/-- A message has been sent for each interval that is complete. -/
def InStep (s : TimestampSender) : Prop := s.seqNumber = s.frameCounter / s.sendInterval

theorem InStep.new (sendInterval : Int) : (new sendInterval).InStep := (Nat.zero_div _).symm

/-- What one frame does: at the end of an interval a message is sent, with the
number of the interval. -/
theorem sendFrameTimestamp_cases {s : TimestampSender} (h : s.InStep)
    (hroom : s.frameCounter + 1 < 18446744073709551616) (frameTime : Time) :
    (s.step frameTime).InStep ∧ (s.step frameTime).frameCounter = s.frameCounter + 1 ∧
      (s.step frameTime).sendInterval = s.sendInterval ∧
      (s.sendFrameTimestamp frameTime).1 =
        if s.sendInterval ∣ s.frameCounter + 1 then
          some ⟨frameTime / millisecond, s.frameCounter + 1, s.seqNumber + 1⟩
        else none := by
  have hcounter : increment s.frameCounter = s.frameCounter + 1 := Nat.mod_eq_of_lt hroom
  have hseq : increment s.seqNumber = s.seqNumber + 1 := by
    refine Nat.mod_eq_of_lt (Nat.lt_of_le_of_lt (Nat.succ_le_succ ?_) hroom)
    rw [h]
    exact Nat.div_le_self _ _
  unfold InStep at h ⊢
  unfold step sendFrameTimestamp
  dsimp only
  rw [hcounter, hseq]
  by_cases hdvd : s.sendInterval ∣ s.frameCounter + 1
  · rw [if_neg (fun hne => hne (Nat.mod_eq_zero_of_dvd hdvd)), if_pos hdvd]
    exact ⟨by rw [h, Nat.succ_div_of_dvd hdvd], rfl, rfl, rfl⟩
  · rw [if_pos (fun hmod => hdvd (Nat.dvd_of_mod_eq_zero hmod)), if_neg hdvd]
    exact ⟨by rw [h, Nat.succ_div_of_not_dvd hdvd], rfl, rfl, rfl⟩

/-- The message is about a frame of these times. -/
def About (s : TimestampSender) (frameTimes : List Time) (m : FrameTimestampMessage) : Prop :=
  m.frameID = s.sendInterval * m.sequenceNumber ∧ s.frameCounter < m.frameID ∧
    (frameTimes[m.frameID - s.frameCounter - 1]?).map (· / millisecond) = some m.timestamp

/-- The messages of a run have consecutive numbers, one for each interval that
is completed, and each is about the last frame of its interval. -/
theorem sent_numbered {s : TimestampSender} (h : s.InStep) {frameTimes : List Time}
    (hroom : s.frameCounter + frameTimes.length < 18446744073709551616) :
    (s.sent frameTimes).map FrameTimestampMessage.sequenceNumber =
        List.range' (s.seqNumber + 1)
          ((s.frameCounter + frameTimes.length) / s.sendInterval - s.seqNumber) ∧
      ∀ m ∈ s.sent frameTimes, s.About frameTimes m := by
  induction frameTimes generalizing s with
  | nil =>
    refine ⟨?_, fun m hm => nomatch hm⟩
    rw [h]
    show [] = List.range' _ (s.frameCounter / s.sendInterval - s.frameCounter / s.sendInterval)
    rw [Nat.sub_self]
    rfl
  | cons frameTime frameTimes ih =>
    rw [List.length_cons] at hroom
    obtain ⟨hstep, hcounter, hinterval, hsent⟩ :=
      sendFrameTimestamp_cases h (by omega) frameTime
    obtain ⟨hnumbers, habout⟩ := ih hstep (by rw [hcounter]; omega)
    rw [hcounter, hinterval] at hnumbers
    have hcons : s.sent (frameTime :: frameTimes) =
        (s.sendFrameTimestamp frameTime).1.toList ++ (s.step frameTime).sent frameTimes := rfl
    have hlater (m : FrameTimestampMessage) (hm : m ∈ (s.step frameTime).sent frameTimes) :
        s.About (frameTime :: frameTimes) m := by
      obtain ⟨hframe, hlt, htime⟩ := habout m hm
      rw [hinterval] at hframe
      rw [hcounter] at hlt htime
      refine ⟨hframe, by omega, ?_⟩
      have hindex : m.frameID - s.frameCounter - 1 = m.frameID - (s.frameCounter + 1) - 1 + 1 := by
        omega
      rw [hindex]
      exact htime
    have hseq : (s.step frameTime).seqNumber = (s.frameCounter + 1) / s.sendInterval := by
      rw [hstep, hcounter, hinterval]
    have hsum : s.frameCounter + (frameTimes.length + 1) =
        s.frameCounter + 1 + frameTimes.length := by
      omega
    rw [hcons, hsent, List.length_cons, hsum]
    by_cases hdvd : s.sendInterval ∣ s.frameCounter + 1
    · -- the interval is complete: the message has the next number
      have hnext : (s.frameCounter + 1) / s.sendInterval = s.seqNumber + 1 := by
        rw [Nat.succ_div_of_dvd hdvd, h]
      have hle : s.seqNumber + 1 ≤ (s.frameCounter + 1 + frameTimes.length) / s.sendInterval := by
        rw [← hnext]
        exact Nat.div_le_div_right (Nat.le_add_right _ _)
      rw [if_pos hdvd]
      constructor
      · rw [hseq, hnext] at hnumbers
        obtain ⟨k, hk⟩ := Nat.exists_eq_add_of_le hle
        rw [hk] at hnumbers ⊢
        rw [Nat.add_sub_cancel_left] at hnumbers
        rw [Nat.add_assoc, Nat.add_sub_cancel_left, Nat.add_comm 1 k, List.range'_succ, ← hnumbers]
        rfl
      · intro m hm
        rcases List.mem_cons.mp hm with rfl | hm
        · refine ⟨?_, Nat.lt_succ_self _, ?_⟩
          · show s.frameCounter + 1 = s.sendInterval * (s.seqNumber + 1)
            rw [← hnext, Nat.mul_div_cancel' hdvd]
          · have hindex : s.frameCounter + 1 - s.frameCounter - 1 = 0 := by omega
            show ((frameTime :: frameTimes)[s.frameCounter + 1 - s.frameCounter - 1]?).map _ = _
            rw [hindex]
            rfl
        · exact hlater m hm
    · rw [if_neg hdvd]
      refine ⟨?_, hlater⟩
      have hsame : (s.frameCounter + 1) / s.sendInterval = s.seqNumber := by
        rw [Nat.succ_div_of_not_dvd hdvd, h]
      rw [hseq, hsame] at hnumbers
      exact hnumbers

end TimestampSender

end ChainKVM.Robot
