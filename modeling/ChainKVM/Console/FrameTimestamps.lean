import ChainKVM.Lib.Gaps
import ChainKVM.Lib.Recent

/-!
# Frame timestamps: `hooks/useFrameTimestamps.ts`

The hook keeps the last 100 timestamps that the robot sends over a data channel
and counts the messages that are lost. It remembers the last sequence number
only, so it counts the numbers that each step up leaves out, and a message that
is late makes it count those above it again (`dropped_counted_iff`).

The channel is there from the first rendering on. Timestamps and sequence
numbers are integers.
-/

namespace ChainKVM.Console

open Gaps

/-! ## The hook -/

/-- `FrameTimestampMessage`. -/
structure FrameTimestampMessage where
  timestamp : Int
  frameId : Int
  sequenceNumber : Int
  deriving DecidableEq, Repr

/-- The data of a message event, by what the handler makes of it. -/
inductive ChannelData where
  | frameTimestamp (msg : FrameTimestampMessage)
  /-- An object of another type. -/
  | otherType
  /-- Anything else that `JSON.parse` accepts. -/
  | invalidStructure
  /-- A text that it throws at. -/
  | unparsable (errorMessage : String)
  deriving DecidableEq, Repr

/-- `TimestampBuffer`. -/
structure TimestampBuffer where
  timestamps : List Int
  lastSequence : Int
  droppedMessages : Int
  parseErrors : Nat
  lastError : Option String
  deriving DecidableEq, Repr

/-- `useFrameTimestamps`: the state and the ref of the hook. -/
structure FrameTimestamps where
  buffer : TimestampBuffer
  receivedFirst : Bool
  deriving DecidableEq, Repr

namespace FrameTimestamps

/-- The first rendering, with a channel. -/
def start : FrameTimestamps := ⟨⟨[], 0, 0, 0, none⟩, false⟩

/-- The updater of a timestamp message. -/
def addTimestamp (h : FrameTimestamps) (msg : FrameTimestampMessage) : FrameTimestamps :=
  let prev := h.buffer
  let dropped :=
    if h.receivedFirst && prev.lastSequence + 1 < msg.sequenceNumber then
      msg.sequenceNumber - prev.lastSequence - 1
    else 0
  { buffer :=
      { timestamps := prev.timestamps.rtake 99 ++ [msg.timestamp]
        lastSequence := msg.sequenceNumber
        droppedMessages := prev.droppedMessages + dropped
        parseErrors := prev.parseErrors
        lastError := none }
    receivedFirst := true }

/-- The updaters of the error paths. -/
def addError (h : FrameTimestamps) (error : String) : FrameTimestamps :=
  { h with
    buffer := { h.buffer with parseErrors := h.buffer.parseErrors + 1, lastError := some error } }

/-- `handleMessage`. -/
def handleMessage (h : FrameTimestamps) : ChannelData → FrameTimestamps
  | .frameTimestamp msg => h.addTimestamp msg
  | .otherType => h
  | .invalidStructure => h.addError "Invalid message structure"
  | .unparsable errorMessage => h.addError (String.ofList (errorMessage.toList.take 100))

end FrameTimestamps

/-- What the channel delivers, from the first message on. -/
def receive (ds : List ChannelData) : FrameTimestamps :=
  ds.foldl FrameTimestamps.handleMessage .start

/-! ## Losses -/

/-- The timestamp message that the data is. -/
def ChannelData.message : ChannelData → Option FrameTimestampMessage
  | .frameTimestamp msg => some msg
  | _ => none

/-- The sequence numbers that are delivered. -/
def delivered (ds : List ChannelData) : List Int :=
  (ds.filterMap ChannelData.message).map FrameTimestampMessage.sequenceNumber

/-- What the count should be: never above the number of messages that are
missing, and that number when they are delivered in increasing order. -/
structure DropsCounted (ds : List ChannelData) : Prop where
  atMost : (receive ds).buffer.droppedMessages ≤ (missing (delivered ds)).length
  exact : (delivered ds).Pairwise (· < ·) →
    (receive ds).buffer.droppedMessages = (missing (delivered ds)).length

/-- The steps up from one delivered number to the next, and one for each number
that is not above the one before it, add up to no more than the distance from
the smallest to the largest. -/
def LatenessFits : List Int → Prop
  | [] => True
  | first :: rest => rise first rest + late first rest ≤ highest first rest - lowest first rest

instance : DecidablePred LatenessFits
  | [] => isTrue trivial
  | first :: rest => inferInstanceAs
    (Decidable (rise first rest + late first rest ≤ highest first rest - lowest first rest))

namespace FrameTimestamps

/-- The last number that has been received. -/
def last (h : FrameTimestamps) : Option Int :=
  if h.receivedFirst then some h.buffer.lastSequence else none

/-- What the numbers after it leave out. -/
def gapsAfter : Option Int → List Int → Int
  | some last, l => gaps last l
  | none, [] => 0
  | none, first :: rest => gaps first rest

theorem dropped_addTimestamp (h : FrameTimestamps) (msg : FrameTimestampMessage) (l : List Int) :
    (h.addTimestamp msg).buffer.droppedMessages + gapsAfter (h.addTimestamp msg).last l =
      h.buffer.droppedMessages + gapsAfter h.last (msg.sequenceNumber :: l) := by
  unfold last addTimestamp
  dsimp only
  rw [if_pos rfl]
  cases h.receivedFirst with
  | false =>
    rw [Bool.false_and, if_neg Bool.false_ne_true, if_neg Bool.false_ne_true, Int.add_zero]
    rfl
  | true =>
    rw [Bool.true_and, if_pos rfl, Int.add_assoc]
    simp only [decide_eq_true_eq]
    rfl

/-- The count of a whole run. -/
theorem dropped_foldl (ds : List ChannelData) (h : FrameTimestamps) :
    (ds.foldl handleMessage h).buffer.droppedMessages =
      h.buffer.droppedMessages + gapsAfter h.last (delivered ds) := by
  induction ds generalizing h with
  | nil =>
    have hnone : gapsAfter h.last [] = 0 := by
      cases h.last <;> rfl
    show h.buffer.droppedMessages = _ + gapsAfter h.last []
    rw [hnone, Int.add_zero]
  | cons d ds ih =>
    rw [List.foldl_cons, ih]
    cases d with
    | frameTimestamp msg => exact h.dropped_addTimestamp msg (delivered ds)
    | otherType => rfl
    | invalidStructure => rfl
    | unparsable errorMessage => rfl

end FrameTimestamps

theorem dropped_receive (ds : List ChannelData) :
    (receive ds).buffer.droppedMessages = FrameTimestamps.gapsAfter none (delivered ds) :=
  (FrameTimestamps.dropped_foldl ds .start).trans (Int.zero_add _)

/-- Whatever is delivered of messages with distinct numbers, in any order and
with anything else in between: the count is as it should be iff the late ones
fit. -/
theorem dropped_counted_iff {ds : List ChannelData} (h : (delivered ds).Nodup) :
    DropsCounted ds ↔ LatenessFits (delivered ds) := by
  have hdropped := dropped_receive ds
  constructor
  · intro hcounted
    have hle := hcounted.atMost
    rw [hdropped] at hle
    cases hl : delivered ds with
    | nil => trivial
    | cons first rest =>
      rw [hl] at hle h
      exact (gaps_le_iff h).mp hle
  · intro hfits
    cases hl : delivered ds with
    | nil =>
      rw [hl] at hdropped
      refine ⟨?_, fun _ => ?_⟩
      all_goals
        rw [hdropped, hl]
        rfl
    | cons first rest =>
      rw [hl] at hdropped h hfits
      refine ⟨?_, fun hincreasing => ?_⟩
      · rw [hdropped, hl]
        exact (gaps_le_iff h).mpr hfits
      · rw [hl] at hincreasing
        rw [hdropped, hl]
        exact gaps_of_increasing hincreasing

/-- A message with this sequence number. -/
def numbered (n : Int) : ChannelData := .frameTimestamp ⟨1000 + n, n, n⟩

/-- A late message that does no harm: of 5, 1, 3 and 2 only 4 is missing. -/
theorem dropped_counted_late : DropsCounted ([5, 1, 3, 2].map numbered) :=
  (dropped_counted_iff (by decide)).mpr (by decide)

/-- Of 1, 5, 2 and 6 two are missing; six are counted. -/
theorem dropped_counted_again : ¬DropsCounted ([1, 5, 2, 6].map numbered) := by
  intro h
  have hle := h.atMost
  revert hle
  decide

end ChainKVM.Console
