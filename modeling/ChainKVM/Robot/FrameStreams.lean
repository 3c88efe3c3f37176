import ChainKVM.Robot.Capture
import ChainKVM.Robot.Encoder

/-!
# Streams of frames: `internal/video/capture.go`, `testsource.go`

`Frames` starts a goroutine that reads a frame at every tick of its own ticker
and offers it on its channel until its context is done or the capture is stopped.
The goroutines share the capture and the camera: between the two checks of
`ReadFrame`, the camera's counter and the offer anything may happen, other
streams, `Stop` and `Start` included.

A step is a section under a mutex, the atomic counter, or a branch of a `select`
that is ready. `Start` and `Stop` hold the capture's mutex over the camera's; what
a stream does between the two it could as well have done before.

In every run `Stop` closes no channel twice, a stream has its frames in the order
in which they were read, and no frame comes twice, on whatever streams
(`streamed_throughout`). What `Stop` ends is weaker: a stream that was opened
before the first start, or that outlives a second one, does not see the channel
that is closed. But it reads nothing while the capture is stopped, so at most one
more frame comes (`at_most_one_more`).
-/

namespace ChainKVM.Robot

open Machine (Always Steps run run_append always_of_step always_of_steps steps_of_mem)

/-! ## The camera -/

/-- `TestPatternSource`. It counts its starts, and its frames since the last. -/
structure TestPatternSource where
  config : CaptureConfig
  started : Bool
  sequence : UInt64
  starts : Nat
  reads : Nat

/-- A frame, with the start that it came after and its number since then. -/
structure ReadFrame where
  start : Nat
  index : Nat
  frame : Frame

/-- Which of two frames was read first. -/
def ReadFrame.Before (a b : ReadFrame) : Prop :=
  a.start < b.start ∨ (a.start = b.start ∧ a.index < b.index)

/-- A frame has the number that the camera gives it, and the bytes that its size
asks for. -/
def ReadFrame.Numbered (a : ReadFrame) : Prop :=
  a.frame.sequence = UInt64.ofNat a.index ∧
    a.frame.data.length = a.frame.width.toNat * a.frame.height.toNat +
      a.frame.width.toNat / 2 * (a.frame.height.toNat / 2) * 2

/-- The bytes of a test pattern: a moving gradient, and grey. -/
def testPattern (config : CaptureConfig) (seq : UInt64) : List UInt8 :=
  let width := config.width.toNat
  let height := config.height.toNat
  let uvSize := config.width.toNat / 2 * (config.height.toNat / 2)
  let offset := seq.toNat % 256
  ((List.range height).flatMap fun y => (List.range width).map fun x =>
    UInt8.ofNat ((x + y + offset) % 256)) ++ List.replicate (uvSize * 2) 128

namespace TestPatternSource

def new : TestPatternSource := ⟨⟨0, 0, 0⟩, false, 0, 0, 0⟩

/-- `Start`. -/
def start (config : CaptureConfig) (t : TestPatternSource) : TestPatternSource :=
  { config, started := true, sequence := 0, starts := t.starts + 1, reads := 0 }

/-- `Stop`. -/
def stop (t : TestPatternSource) : TestPatternSource := { t with started := false }

/-- The second half of `ReadFrame`: the counter, and the frame with a
configuration that was copied before. -/
def next (config : CaptureConfig) (now : Time) (t : TestPatternSource) :
    ReadFrame × TestPatternSource :=
  let seq := t.sequence + 1
  (⟨t.starts, t.reads + 1, ⟨testPattern config seq, config.width, config.height, now, seq⟩⟩,
    { t with sequence := seq, reads := t.reads + 1 })

end TestPatternSource

/-! ## The capture -/

/-- `Capture`. A stop channel is known by the start that made it. -/
structure Capture where
  camera : TestPatternSource
  config : CaptureConfig
  started : Bool
  stopCh : Option Nat
  closed : List Nat

namespace Capture

/-- `NewCapture`. -/
def new : Capture := ⟨.new, ⟨0, 0, 0⟩, false, none, []⟩

/-- `Start`: its error, and what it leaves. -/
def start (config : CaptureConfig) (c : Capture) : Option String × Capture :=
  match config.validate with
  | some err => (some err, c)
  | none =>
    (none, { c with
      camera := c.camera.start config
      config := config
      started := true
      stopCh := some (c.camera.starts + 1) })

/-- Closing a channel; `none` when Go panics. -/
def close (ch : Nat) (c : Capture) : Option Capture :=
  if ch ∈ c.closed then none else some { c with closed := ch :: c.closed }

/-- `Stop`; `none` when it panics. -/
def stop (c : Capture) : Option Capture :=
  if !c.started then some c
  else
    match c.stopCh with
    | none => some { c with started := false, camera := c.camera.stop }
    | some ch => (c.close ch).map fun c => { c with started := false, camera := c.camera.stop }

/-- Whether a receive from a stop channel is ready; never from a nil one. -/
def stopped (c : Capture) (ch : Option Nat) : Bool :=
  match ch with
  | none => false
  | some ch => ch ∈ c.closed

end Capture

/-! ## A stream -/

/-- Where the goroutine of `Frames` stands. -/
inductive StreamPhase where
  | opening
  | waiting (stopCh : Option Nat)
  | ticked (stopCh : Option Nat)
  | checked (stopCh : Option Nat)
  | reading (stopCh : Option Nat) (config : CaptureConfig)
  | offering (stopCh : Option Nat) (frame : ReadFrame)
  | closed

/-- A stream, its context, and the frames that have come. -/
structure FrameStream where
  phase : StreamPhase
  cancelled : Bool
  frames : List ReadFrame

/-- A branch of a `select`. -/
inductive Branch where
  | ctxDone
  | stopCh
  | ticker
  | send
  deriving DecidableEq, Repr

namespace FrameStream

def new : FrameStream := ⟨.opening, false, []⟩

/-- The next step of the goroutine, with the branch that a `select` takes; it
waits when that is not ready. -/
def step (c : Capture) (branch : Branch) (now : Time) (s : FrameStream) : FrameStream × Capture :=
  match s.phase with
  | .opening => ({ s with phase := .waiting c.stopCh }, c)
  | .waiting ch =>
    match branch with
    | .ctxDone => if s.cancelled then ({ s with phase := .closed }, c) else (s, c)
    | .stopCh => if c.stopped ch then ({ s with phase := .closed }, c) else (s, c)
    | .ticker => ({ s with phase := .ticked ch }, c)
    | .send => (s, c)
  | .ticked ch => ({ s with phase := if c.started then .checked ch else .waiting ch }, c)
  | .checked ch =>
    ({ s with phase := if c.camera.started then .reading ch c.camera.config else .waiting ch }, c)
  | .reading ch config =>
    ({ s with phase := .offering ch (c.camera.next config now).1 },
      { c with camera := (c.camera.next config now).2 })
  | .offering ch frame =>
    match branch with
    | .ctxDone => if s.cancelled then ({ s with phase := .closed }, c) else (s, c)
    | .stopCh => if c.stopped ch then ({ s with phase := .closed }, c) else (s, c)
    | .ticker => (s, c)
    | .send => ({ s with phase := .waiting ch, frames := s.frames ++ [frame] }, c)
  | .closed => (s, c)

/-- The frame that the goroutine offers. -/
def held (s : FrameStream) : List ReadFrame :=
  match s.phase with
  | .offering _ frame => [frame]
  | _ => []

/-- The frames that have come, and the one that it offers. -/
def taken (s : FrameStream) : List ReadFrame := s.frames ++ s.held

end FrameStream

/-! ## The whole -/

/-- A capture and its streams. -/
structure Video where
  capture : Capture
  streams : List FrameStream
  panicked : Bool

/-- What happens. -/
inductive VideoEvent where
  | start (config : CaptureConfig)
  | stop
  | frames
  | cancel (i : Nat)
  | advance (i : Nat) (branch : Branch) (now : Time)

namespace Video

def new : Video := ⟨.new, [], false⟩

/-- One step. A panic ends the program. -/
def step (v : Video) (e : VideoEvent) : Video :=
  if v.panicked then v
  else
    match e with
    | .start config => { v with capture := (v.capture.start config).2 }
    | .stop =>
      match v.capture.stop with
      | some c => { v with capture := c }
      | none => { v with panicked := true }
    | .frames => { v with streams := v.streams ++ [.new] }
    | .cancel i =>
      match v.streams[i]? with
      | some s => { v with streams := v.streams.set i { s with cancelled := true } }
      | none => v
    | .advance i branch now =>
      match v.streams[i]? with
      | some s =>
        { v with
          streams := v.streams.set i (s.step v.capture branch now).1
          capture := (s.step v.capture branch now).2 }
      | none => v

/-- What holds throughout: no panic; a stream has its frames in the order in
which they were read; no frame comes on two streams; and the frames are as the
camera numbers them. -/
structure Streamed (v : Video) : Prop where
  running : v.panicked = false
  ordered : ∀ s ∈ v.streams, s.frames.Pairwise ReadFrame.Before
  apart : ∀ (i j : Nat) (s t : FrameStream), v.streams[i]? = some s → v.streams[j]? = some t →
    i ≠ j → ∀ a ∈ s.frames, ∀ b ∈ t.frames, a.Before b ∨ b.Before a
  numbered : ∀ s ∈ v.streams, ∀ a ∈ s.frames, a.Numbered

/-- The frames of a stream; none when it has not been opened. -/
def frames (v : Video) (i : Nat) : List ReadFrame :=
  match v.streams[i]? with
  | some s => s.frames
  | none => []

end Video

/-! ## What is kept about the streams -/

/-- The streams after so many starts, and so many frames since the last. -/
structure Taken (starts reads : Nat) (streams : List FrameStream) : Prop where
  fresh : ∀ s ∈ streams, ∀ a ∈ s.taken, a.start < starts ∨ (a.start = starts ∧ a.index ≤ reads)
  ordered : ∀ s ∈ streams, s.taken.Pairwise ReadFrame.Before
  apart : ∀ (i j : Nat) (s t : FrameStream), streams[i]? = some s → streams[j]? = some t → i ≠ j →
    ∀ a ∈ s.taken, ∀ b ∈ t.taken, a.Before b ∨ b.Before a
  numbered : ∀ s ∈ streams, ∀ a ∈ s.taken, a.Numbered

namespace Taken

variable {starts reads : Nat} {streams : List FrameStream}

theorem get_set {k i : Nat} {s' s : FrameStream} (h : (streams.set k s')[i]? = some s) :
    (i = k ∧ s = s') ∨ (i ≠ k ∧ streams[i]? = some s) := by
  rw [List.getElem?_set] at h
  split at h
  next heq =>
    split at h
    next => exact .inl ⟨heq.symm, (Option.some.inj h).symm⟩
    next => cases h
  next hne => exact .inr ⟨fun heq => hne heq.symm, h⟩

/-- A stream takes nothing new. -/
theorem set_sublist (h : Taken starts reads streams) {k : Nat} {s s' : FrameStream}
    (hget : streams[k]? = some s) (hsub : s'.taken.Sublist s.taken) :
    Taken starts reads (streams.set k s') := by
  have hmem := List.mem_of_getElem? hget
  have hold {i : Nat} {t : FrameStream} (ht : (streams.set k s')[i]? = some t) :
      ∃ t', streams[i]? = some t' ∧ t.taken.Sublist t'.taken := by
    rcases get_set ht with ⟨rfl, rfl⟩ | ⟨-, ht⟩
    · exact ⟨s, hget, hsub⟩
    · exact ⟨t, ht, List.Sublist.refl _⟩
  have holdMem {t : FrameStream} (ht : t ∈ streams.set k s') :
      ∃ t' ∈ streams, t.taken.Sublist t'.taken := by
    obtain ⟨i, hi⟩ := List.mem_iff_getElem?.mp ht
    obtain ⟨t', ht', hsub'⟩ := hold hi
    exact ⟨t', List.mem_of_getElem? ht', hsub'⟩
  constructor
  case fresh =>
    intro t ht a ha
    obtain ⟨t', ht', hsub'⟩ := holdMem ht
    exact h.fresh t' ht' a (hsub'.subset ha)
  case ordered =>
    intro t ht
    obtain ⟨t', ht', hsub'⟩ := holdMem ht
    exact (h.ordered t' ht').sublist hsub'
  case apart =>
    intro i j t u hi hj hne a ha b hb
    obtain ⟨t', ht', hsub'⟩ := hold hi
    obtain ⟨u', hu', hsub''⟩ := hold hj
    exact h.apart i j t' u' ht' hu' hne a (hsub'.subset ha) b (hsub''.subset hb)
  case numbered =>
    intro t ht a ha
    obtain ⟨t', ht', hsub'⟩ := holdMem ht
    exact h.numbered t' ht' a (hsub'.subset ha)

/-- A new frame comes after all that there are. -/
theorem before_next (h : Taken starts reads streams) {s : FrameStream} (hs : s ∈ streams)
    {a b : ReadFrame} (ha : a ∈ s.taken) (hstart : b.start = starts)
    (hindex : b.index = reads + 1) : a.Before b := by
  unfold ReadFrame.Before
  have hfresh := h.fresh s hs a ha
  omega

/-- A stream takes the next frame. -/
theorem set_next (h : Taken starts reads streams) {k : Nat} {s s' : FrameStream} {b : ReadFrame}
    (hget : streams[k]? = some s) (hnext : s'.taken = s.taken ++ [b]) (hstart : b.start = starts)
    (hindex : b.index = reads + 1) (hnumbered : b.Numbered) :
    Taken starts (reads + 1) (streams.set k s') := by
  have hmem := List.mem_of_getElem? hget
  -- a frame that a stream has is one that it had, or the new one
  have hcases {i : Nat} {t : FrameStream} (ht : (streams.set k s')[i]? = some t) {a : ReadFrame}
      (ha : a ∈ t.taken) : (∃ t', streams[i]? = some t' ∧ a ∈ t'.taken) ∨ (i = k ∧ a = b) := by
    rcases get_set ht with ⟨rfl, rfl⟩ | ⟨-, ht⟩
    · rw [hnext] at ha
      rcases List.mem_append.mp ha with ha | ha
      · exact .inl ⟨s, hget, ha⟩
      · exact .inr ⟨rfl, List.mem_singleton.mp ha⟩
    · exact .inl ⟨t, ht, ha⟩
  have hcasesMem {t : FrameStream} (ht : t ∈ streams.set k s') {a : ReadFrame}
      (ha : a ∈ t.taken) : (∃ t' ∈ streams, a ∈ t'.taken) ∨ a = b := by
    obtain ⟨i, hi⟩ := List.mem_iff_getElem?.mp ht
    rcases hcases hi ha with ⟨t', ht', ha'⟩ | ⟨-, heq⟩
    · exact .inl ⟨t', List.mem_of_getElem? ht', ha'⟩
    · exact .inr heq
  constructor
  case fresh =>
    intro t ht a ha
    rcases hcasesMem ht ha with ⟨t', ht', ha'⟩ | rfl
    · have hfresh := h.fresh t' ht' a ha'
      omega
    · exact .inr ⟨hstart, Nat.le_of_eq hindex⟩
  case ordered =>
    intro t ht
    rcases List.mem_or_eq_of_mem_set ht with ht | rfl
    · exact h.ordered t ht
    · rw [hnext]
      refine List.pairwise_append.mpr ⟨h.ordered s hmem, List.pairwise_singleton _ _, ?_⟩
      intro a ha c hc
      rw [List.mem_singleton.mp hc]
      exact h.before_next hmem ha hstart hindex
  case apart =>
    intro i j t u hi hj hne a ha c hc
    rcases hcases hi ha with ⟨t', ht', ha'⟩ | ⟨rfl, rfl⟩
    · rcases hcases hj hc with ⟨u', hu', hc'⟩ | ⟨rfl, rfl⟩
      · exact h.apart i j t' u' ht' hu' hne a ha' c hc'
      · exact .inl (h.before_next (List.mem_of_getElem? ht') ha' hstart hindex)
    · rcases hcases hj hc with ⟨u', hu', hc'⟩ | ⟨heq, rfl⟩
      · exact .inr (h.before_next (List.mem_of_getElem? hu') hc' hstart hindex)
      · exact absurd heq.symm hne
  case numbered =>
    intro t ht a ha
    rcases hcasesMem ht ha with ⟨t', ht', ha'⟩ | rfl
    · exact h.numbered t' ht' a ha'
    · exact hnumbered

/-- A stream that is opened has nothing. -/
theorem open_stream (h : Taken starts reads streams) :
    Taken starts reads (streams ++ [FrameStream.new]) := by
  have hcases {i : Nat} {t : FrameStream} (ht : (streams ++ [FrameStream.new])[i]? = some t)
      {a : ReadFrame} (ha : a ∈ t.taken) : streams[i]? = some t := by
    rcases Nat.lt_or_ge i streams.length with hlt | hge
    · rwa [List.getElem?_append_left hlt] at ht
    · rw [List.getElem?_append_right hge] at ht
      have heq := List.mem_singleton.mp (List.mem_of_getElem? ht)
      rw [heq] at ha
      cases ha
  have hcasesMem {t : FrameStream} (ht : t ∈ streams ++ [FrameStream.new]) {a : ReadFrame}
      (ha : a ∈ t.taken) : t ∈ streams := by
    obtain ⟨i, hi⟩ := List.mem_iff_getElem?.mp ht
    exact List.mem_of_getElem? (hcases hi ha)
  constructor
  case fresh => exact fun t ht a ha => h.fresh t (hcasesMem ht ha) a ha
  case ordered =>
    intro t ht
    rcases List.mem_append.mp ht with ht | ht
    · exact h.ordered t ht
    · rw [List.mem_singleton.mp ht]
      exact List.Pairwise.nil
  case apart =>
    exact fun i j t u hi hj hne a ha b hb =>
      h.apart i j t u (hcases hi ha) (hcases hj hb) hne a ha b hb
  case numbered => exact fun t ht a ha => h.numbered t (hcasesMem ht ha) a ha

/-- After a start all frames are of earlier ones. -/
theorem start (h : Taken starts reads streams) : Taken (starts + 1) 0 streams := by
  refine ⟨fun s hs a ha => ?_, h.ordered, h.apart, h.numbered⟩
  have hfresh := h.fresh s hs a ha
  omega

end Taken

/-! ## What a stream does -/

/-- Whether it has read a frame, or is about to: one, or none. -/
def FrameStream.inHand (s : FrameStream) : Nat :=
  match s.phase with
  | .reading _ _ => 1
  | .offering _ _ => 1
  | _ => 0

/-- The frames that have come, and the one that it has in hand. -/
def FrameStream.due (s : FrameStream) : Nat := s.frames.length + s.inHand

theorem FrameStream.inHand_le_one (s : FrameStream) : s.inHand ≤ 1 := by
  unfold inHand
  split <;> omega

/-- The ways that a step can go. -/
inductive FrameStream.Moves (c : Capture) (s : FrameStream) : FrameStream × Capture → Prop
  | stays : Moves c s (s, c)
  | turns {phase : StreamPhase} (hheld : FrameStream.held { s with phase } = [])
      (hhand : FrameStream.inHand { s with phase } = 0) : Moves c s ({ s with phase }, c)
  | checks {ch : Option Nat} (hstarted : c.camera.started = true) :
      Moves c s ({ s with phase := .reading ch c.camera.config }, c)
  | reads {ch : Option Nat} {config : CaptureConfig} {now : Time}
      (hphase : s.phase = .reading ch config) :
      Moves c s ({ s with phase := .offering ch (c.camera.next config now).1 },
        { c with camera := (c.camera.next config now).2 })
  | sends {ch : Option Nat} {frame : ReadFrame} (hphase : s.phase = .offering ch frame) :
      Moves c s ({ s with phase := .waiting ch, frames := s.frames ++ [frame] }, c)

theorem FrameStream.step_moves (c : Capture) (branch : Branch) (now : Time) (s : FrameStream) :
    s.Moves c (s.step c branch now) := by
  unfold step
  cases hphase : s.phase with
  | opening => exact .turns rfl rfl
  | waiting ch =>
    cases branch with
    | ctxDone =>
      dsimp only
      split
      · exact .turns rfl rfl
      · exact .stays
    | stopCh =>
      dsimp only
      split
      · exact .turns rfl rfl
      · exact .stays
    | ticker => exact .turns rfl rfl
    | send => exact .stays
  | ticked ch =>
    dsimp only
    split
    · exact .turns rfl rfl
    · exact .turns rfl rfl
  | checked ch =>
    dsimp only
    split
    next hstarted => exact .checks hstarted
    next => exact .turns rfl rfl
  | reading ch config => exact .reads hphase
  | offering ch frame =>
    cases branch with
    | ctxDone =>
      dsimp only
      split
      · exact .turns rfl rfl
      · exact .stays
    | stopCh =>
      dsimp only
      split
      · exact .turns rfl rfl
      · exact .stays
    | ticker => exact .stays
    | send => exact .sends hphase
  | closed => exact .stays

namespace FrameStream.Moves

variable {c : Capture} {s : FrameStream} {r : FrameStream × Capture}

/-- A stream takes the next frame of the camera, or it takes nothing and leaves
the capture as it is. -/
theorem takes (h : s.Moves c r) :
    (∃ ch config now, s.phase = .reading ch config ∧
      r = ({ s with phase := .offering ch (c.camera.next config now).1 },
        { c with camera := (c.camera.next config now).2 })) ∨
      (r.2 = c ∧ r.1.taken.Sublist s.taken) := by
  have hframes : (s.frames ++ []).Sublist s.taken :=
    (List.Sublist.refl s.frames).append (List.nil_sublist s.held)
  cases h with
  | stays => exact .inr ⟨rfl, List.Sublist.refl s.taken⟩
  | turns hheld hhand =>
    refine .inr ⟨rfl, ?_⟩
    unfold taken
    rw [hheld]
    exact hframes
  | checks hstarted => exact .inr ⟨rfl, hframes⟩
  | reads hphase => exact .inl ⟨_, _, _, hphase, rfl⟩
  | @sends ch frame hphase =>
    -- the frame that was offered has come
    have htaken : s.taken = s.frames ++ [frame] := by
      unfold taken held
      rw [hphase]
    have hcome : s.frames ++ [frame] ++ [] = s.taken := (List.append_nil _).trans htaken.symm
    exact .inr ⟨rfl, hcome ▸ List.Sublist.refl s.taken⟩

/-- A stream does not start the capture, nor stop it. -/
theorem started_eq (h : s.Moves c r) : r.2.started = c.started := by
  cases h <;> rfl

/-- Of a camera that is stopped it reads nothing more. -/
theorem due_le (h : s.Moves c r) (hcamera : c.camera.started = false) : r.1.due ≤ s.due := by
  have hframes : s.frames.length ≤ s.due := Nat.le_add_right _ _
  cases h with
  | stays => exact Nat.le_refl _
  | turns hheld hhand =>
    unfold due
    rw [hhand]
    exact hframes
  | checks hstarted =>
    rw [hcamera] at hstarted
    cases hstarted
  | reads hphase =>
    have hhand : s.inHand = 1 := by
      unfold inHand
      rw [hphase]
    exact Nat.le_of_eq (congrArg (s.frames.length + ·) hhand.symm)
  | @sends ch frame hphase =>
    -- the frame that it had in hand has come
    have hhand : s.inHand = 1 := by
      unfold inHand
      rw [hphase]
    have hlength : (s.frames ++ [frame]).length = s.frames.length + 1 := List.length_append
    exact Nat.le_of_eq (hlength.trans (congrArg (s.frames.length + ·) hhand.symm))

end FrameStream.Moves

theorem testPattern_length (config : CaptureConfig) (seq : UInt64) :
    (testPattern config seq).length = config.width.toNat * config.height.toNat +
      config.width.toNat / 2 * (config.height.toNat / 2) * 2 := by
  have hrows (row : Nat → Nat → UInt8) (width height : Nat) :
      ((List.range height).flatMap fun y => (List.range width).map fun x => row y x).length =
        width * height := by
    induction height with
    | zero => rfl
    | succ height ih =>
      rw [List.range_succ, List.flatMap_append, List.length_append, ih, List.flatMap_singleton,
        List.length_map, List.length_range, Nat.mul_succ]
  unfold testPattern
  dsimp only
  rw [List.length_append, List.length_replicate, hrows]

/-- The frame that is taken is the next one. -/
theorem TestPatternSource.next_numbered (t : TestPatternSource)
    (h : t.sequence = UInt64.ofNat t.reads) (config : CaptureConfig) (now : Time) :
    (t.next config now).1.Numbered ∧
      (t.next config now).2.sequence = UInt64.ofNat (t.next config now).2.reads := by
  have hsequence : t.sequence + 1 = UInt64.ofNat (t.reads + 1) := by
    rw [h, UInt64.ofNat_add]
    rfl
  exact ⟨⟨hsequence, testPattern_length config (t.sequence + 1)⟩, hsequence⟩

/-! ## What every step keeps -/

namespace Video

/-- What every step keeps: the camera runs when the capture does, whose stop
channel is that of the last start, and open. -/
structure Inv (v : Video) : Prop where
  running : v.panicked = false
  camera : v.capture.camera.started = v.capture.started
  counted : v.capture.camera.sequence = UInt64.ofNat v.capture.camera.reads
  stopCh : v.capture.started = true → v.capture.stopCh = some v.capture.camera.starts ∧
    v.capture.camera.starts ∉ v.capture.closed
  closed : ∀ ch ∈ v.capture.closed, ch ≤ v.capture.camera.starts
  taken : Taken v.capture.camera.starts v.capture.camera.reads v.streams

theorem Inv.new : new.Inv where
  running := rfl
  camera := rfl
  counted := rfl
  stopCh h := by cases h
  closed ch h := by cases h
  taken := by
    refine ⟨fun s hs => ?_, fun s hs => ?_, fun i j s t hi => ?_, fun s hs => ?_⟩
    · cases hs
    · cases hs
    · cases hi
    · cases hs

theorem Inv.start {v : Video} (h : v.Inv) (config : CaptureConfig) :
    Inv { v with capture := (v.capture.start config).2 } := by
  unfold Capture.start
  split
  next => exact h
  next =>
    refine ⟨h.running, rfl, rfl, fun _ => ⟨rfl, fun hclosed => ?_⟩, fun ch hch => ?_, h.taken.start⟩
    · have hle := h.closed _ hclosed
      exact absurd hle (Nat.not_succ_le_self _)
    · exact Nat.le_succ_of_le (h.closed ch hch)

/-- `Stop` does not panic. -/
theorem Inv.stop {v : Video} (h : v.Inv) :
    ∃ c, v.capture.stop = some c ∧ Inv { v with capture := c } ∧ c.started = false := by
  unfold Capture.stop
  cases hstarted : v.capture.started with
  | false => exact ⟨v.capture, rfl, h, hstarted⟩
  | true =>
    obtain ⟨hch, hopen⟩ := h.stopCh hstarted
    rw [hch]
    unfold Capture.close
    dsimp only
    rw [if_neg hopen]
    refine ⟨_, rfl, ⟨h.running, rfl, h.counted, fun hfalse => ?_, fun ch hmem => ?_, h.taken⟩, rfl⟩
    · cases hfalse
    · rcases List.mem_cons.mp hmem with rfl | hmem
      · exact Nat.le_refl _
      · exact h.closed ch hmem

theorem Inv.step {v : Video} (h : v.Inv) (e : VideoEvent) : (v.step e).Inv := by
  unfold Video.step
  rw [if_neg (by rw [h.running]; exact Bool.false_ne_true)]
  cases e with
  | start config => exact h.start config
  | stop =>
    obtain ⟨c, hstop, hinv, -⟩ := h.stop
    dsimp only
    rw [hstop]
    exact hinv
  | frames => exact { h with taken := h.taken.open_stream }
  | cancel i =>
    dsimp only
    split
    next s hget => exact { h with taken := h.taken.set_sublist hget (List.Sublist.refl _) }
    next => exact h
  | advance i branch now =>
    dsimp only
    split
    next s hget =>
      rcases (s.step_moves v.capture branch now).takes with
        ⟨ch, config, now', hphase, hstep⟩ | ⟨hsame, hsub⟩
      · obtain ⟨hnumbered, hcounted⟩ := v.capture.camera.next_numbered h.counted config now'
        rw [hstep]
        refine ⟨h.running, h.camera, hcounted, h.stopCh, h.closed, ?_⟩
        refine h.taken.set_next hget ?_ rfl rfl hnumbered
        unfold FrameStream.taken FrameStream.held
        rw [hphase, List.append_nil]
      · rw [hsame]
        exact { h with taken := h.taken.set_sublist hget hsub }
    next => exact h

theorem Inv.streamed {v : Video} (h : v.Inv) : v.Streamed := by
  have hmem {s : FrameStream} {a : ReadFrame} (ha : a ∈ s.frames) : a ∈ s.taken :=
    List.mem_append_left _ ha
  refine ⟨h.running, fun s hs => ?_, fun i j s t hi hj hne a ha b hb => ?_, fun s hs a ha => ?_⟩
  · exact (h.taken.ordered s hs).sublist (List.sublist_append_left _ _)
  · exact h.taken.apart i j s t hi hj hne a (hmem ha) b (hmem hb)
  · exact h.taken.numbered s hs a (hmem ha)

theorem streamed_throughout (es : List VideoEvent) : Always step Streamed new es :=
  (always_of_step (fun _ e h => h.step e) Inv.new).imp fun _ h => h.streamed

/-! ## After a stop -/

/-- What may still come on a stream. -/
def due (v : Video) (i : Nat) : Nat :=
  match v.streams[i]? with
  | some s => s.due
  | none => 0

theorem frames_le_due (v : Video) (i : Nat) : (v.frames i).length ≤ v.due i := by
  unfold frames due
  split
  next => exact Nat.le_add_right _ _
  next => exact Nat.le_refl _

theorem due_le_frames (v : Video) (i : Nat) : v.due i ≤ (v.frames i).length + 1 := by
  unfold frames due
  split
  next s _ => exact Nat.add_le_add_left s.inHand_le_one _
  next => exact Nat.zero_le _

theorem due_set (v : Video) (c : Capture) {k : Nat} {s s' : FrameStream}
    (hget : v.streams[k]? = some s) (hle : s'.due ≤ s.due) (i : Nat) :
    due { v with streams := v.streams.set k s', capture := c } i ≤ v.due i := by
  unfold due
  dsimp only
  by_cases hik : i = k
  · rw [hik, List.getElem?_set_self (List.getElem?_eq_some_iff.mp hget).1, hget]
    exact hle
  · exact Nat.le_of_eq (by rw [List.getElem?_set_ne fun h => hik h.symm])

theorem due_open (v : Video) (i : Nat) :
    due { v with streams := v.streams ++ [.new] } i = v.due i := by
  unfold due
  dsimp only
  rcases Nat.lt_or_ge i v.streams.length with hlt | hge
  · rw [List.getElem?_append_left hlt]
  · rw [List.getElem?_append_right hge, List.getElem?_eq_none hge]
    cases i - v.streams.length with
    | zero => rfl
    | succ n => rfl

/-- Stopped, with no more to come on a stream than was to. -/
structure Stopped (i n : Nat) (v : Video) : Prop where
  inv : v.Inv
  started : v.capture.started = false
  due_le : v.due i ≤ n

theorem Stopped.step {i n : Nat} {v : Video} (h : v.Stopped i n) {e : VideoEvent}
    (hstart : ∀ config, e ≠ .start config) : (v.step e).Stopped i n := by
  suffices hstep : (v.step e).capture.started = false ∧ (v.step e).due i ≤ n from
    ⟨h.inv.step e, hstep.1, hstep.2⟩
  unfold Video.step
  rw [if_neg (by rw [h.inv.running]; exact Bool.false_ne_true)]
  cases e with
  | start config => exact absurd rfl (hstart config)
  | stop =>
    obtain ⟨c, hstop, -, hstarted⟩ := h.inv.stop
    dsimp only
    rw [hstop]
    exact ⟨hstarted, h.due_le⟩
  | frames =>
    refine ⟨h.started, ?_⟩
    rw [due_open]
    exact h.due_le
  | cancel k =>
    dsimp only
    split
    next s hget =>
      have hsame : FrameStream.due { s with cancelled := true } ≤ s.due := Nat.le_refl _
      exact ⟨h.started, Nat.le_trans (v.due_set v.capture hget hsame i) h.due_le⟩
    next => exact ⟨h.started, h.due_le⟩
  | advance k branch now =>
    dsimp only
    split
    next s hget =>
      have hmoves := s.step_moves v.capture branch now
      have hdue := hmoves.due_le (h.inv.camera.trans h.started)
      exact ⟨hmoves.started_eq.trans h.started, Nat.le_trans (v.due_set _ hget hdue i) h.due_le⟩
    next => exact ⟨h.started, h.due_le⟩

/-- Once the capture is stopped, at most one more frame comes on each stream until
it is started again. -/
theorem at_most_one_more (es es' : List VideoEvent)
    (hstopped : (run step new es).capture.started = false)
    (hstart : ∀ config, VideoEvent.start config ∉ es') (i : Nat) :
    ((run step new (es ++ es')).frames i).length ≤ ((run step new es).frames i).length + 1 := by
  have hinv : (run step new es).Inv := (always_of_step (fun _ e h => h.step e) Inv.new).last
  have hsteps : Steps step (fun _ e => ∀ config, e ≠ .start config) (run step new es) es' := by
    refine steps_of_mem es' _ fun _ e he config heq => ?_
    exact hstart config (heq ▸ he)
  have hlast := (always_of_steps (fun _ _ h he => h.step he)
    (⟨hinv, hstopped, (run step new es).due_le_frames i⟩ : Stopped i _ _) hsteps).last
  rw [run_append]
  exact Nat.le_trans (frames_le_due _ i) hlast.due_le

/-- A stream that has read a frame when the capture is stopped. -/
def stoppedInHand : List VideoEvent :=
  [.start ⟨2, 2, 30⟩, .frames, .advance 0 .ticker 0, .advance 0 .ticker 0, .advance 0 .ticker 0,
    .advance 0 .ticker 0, .advance 0 .ticker 0, .stop]

theorem one_more_comes :
    ((run step new stoppedInHand).frames 0).length = 0 ∧
      ((run step new (stoppedInHand ++ [.advance 0 .send 0])).frames 0).length = 1 ∧
      ((run step new (stoppedInHand ++ [.advance 0 .send 0])).frames 0).length ≤
        ((run step new stoppedInHand).frames 0).length + 1 := by
  refine ⟨rfl, rfl, at_most_one_more stoppedInHand [.advance 0 .send 0] rfl ?_ 0⟩
  intro config h
  cases List.mem_singleton.mp h

end Video

end ChainKVM.Robot
