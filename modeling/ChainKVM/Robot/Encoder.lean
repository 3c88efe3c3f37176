import ChainKVM.Lib.Machine
import ChainKVM.Robot.Protocol

/-!
# Encoding: `internal/video/encoder.go`

The software encoder decides under its lock which frames are keyframes: the
first after a start, every `Keyframe`-th one, and the next after a
`ForceKeyframe`. Its frame number is a `uint64`. What a viewer needs is that of
the frames encoded last there is always one that it can start with:
`decodable_throughout` says so for every sequence of calls, across restarts and
across the end of the counter.

The encoded bytes are computed after the lock is released, from the frame and
that decision alone. The frames of a stream are in the order of the decisions.
-/

namespace ChainKVM.Robot

open Machine (Always Steps always_of_step steps_of_forall)

/-! ## The encoder -/

/-- `EncoderConfig`. -/
structure EncoderConfig where
  codec : String
  bitrate : Int
  keyframe : Int
  deriving DecidableEq, Repr

/-- The errors of the encoder, by their texts. -/
def errEncoderNotStarted : String := "encoder not started"

def errInvalidCodec : String := "invalid codec"

/-- `EncoderConfig.Validate`. -/
def EncoderConfig.validate (c : EncoderConfig) : Option String :=
  if c.codec ≠ "VP8" ∧ c.codec ≠ "H264" then some errInvalidCodec
  else if c.bitrate ≤ 0 then some "bitrate must be positive"
  else if c.keyframe < 0 then some "keyframe interval must be non-negative"
  else none

/-- `DefaultEncoderConfig`. -/
def EncoderConfig.default : EncoderConfig := ⟨"VP8", 2000000, 30⟩

example : EncoderConfig.default.validate = none := by decide

/-- `Frame`. -/
structure Frame where
  data : List UInt8
  width : Int
  height : Int
  timestamp : Time
  sequence : UInt64

/-- `EncodedFrame`. -/
structure EncodedFrame where
  data : List UInt8
  width : Int
  height : Int
  timestamp : Time
  sequence : UInt64
  keyframe : Bool
  codec : String

/-- `simulateEncode`: a header, and about a tenth of the data, masked. -/
def simulateEncode (data : List UInt8) (keyframe : Bool) : List UInt8 :=
  let header : UInt8 := if keyframe then 1 else 0
  let compressedSize := max 100 (data.length / 10)
  header :: (List.range' 1 compressedSize).map fun i =>
    match data[i]? with
    | some byte => byte ^^^ 0x55
    | none => 0

/-- `SoftwareEncoder`. -/
structure SoftwareEncoder where
  config : EncoderConfig
  started : Bool
  frameCount : Nat
  forceKeyframe : Bool
  deriving DecidableEq, Repr

namespace SoftwareEncoder

/-- `NewSoftwareEncoder`. -/
def new : SoftwareEncoder := ⟨⟨"", 0, 0⟩, false, 0, false⟩

/-- `Start`. -/
def start (config : EncoderConfig) (e : SoftwareEncoder) : Except String Unit × SoftwareEncoder :=
  match config.validate with
  | some err => (.error err, e)
  | none => (.ok (), ⟨config, true, 0, false⟩)

/-- `Stop`. -/
def stop (e : SoftwareEncoder) : SoftwareEncoder := { e with started := false }

/-- Whether `Encode` makes the next frame a keyframe. -/
def isKeyframe (e : SoftwareEncoder) : Bool :=
  e.forceKeyframe || e.frameCount = 0 ||
    (0 < e.config.keyframe && e.frameCount % e.config.keyframe.toNat = 0)

/-- `Encode`. -/
def encode (frame : Frame) (e : SoftwareEncoder) :
    Except String EncodedFrame × SoftwareEncoder :=
  if !e.started then (.error errEncoderNotStarted, e)
  else
    (.ok ⟨simulateEncode frame.data e.isKeyframe, frame.width, frame.height, frame.timestamp,
        frame.sequence, e.isKeyframe, e.config.codec⟩,
      { e with frameCount := (e.frameCount + 1) % 18446744073709551616, forceKeyframe := false })

end SoftwareEncoder

/-! ## The stream -/

/-- The calls of an encoder. -/
inductive EncoderCall where
  | start (config : EncoderConfig)
  | stop
  | encode (frame : Frame)
  | forceKeyframe

/-- The encoder and the frames it has encoded since it was last started, newest
first. -/
structure EncoderStream where
  encoder : SoftwareEncoder
  frames : List EncodedFrame

namespace EncoderStream

def new : EncoderStream := ⟨.new, []⟩

def step (s : EncoderStream) : EncoderCall → EncoderStream
  | .start config =>
    match s.encoder.start config with
    | (.ok (), e) => ⟨e, []⟩
    | (.error _, e) => ⟨e, s.frames⟩
  | .stop => { s with encoder := s.encoder.stop }
  | .encode frame =>
    match s.encoder.encode frame with
    | (.ok encoded, e) => ⟨e, encoded :: s.frames⟩
    | (.error _, e) => { s with encoder := e }
  | .forceKeyframe => { s with encoder := { s.encoder with forceKeyframe := true } }

/-- A stream starts with a keyframe, with a keyframe interval one of the frames
of the last interval is one, and every frame is marked and labelled as what it
is. -/
structure Decodable (s : EncoderStream) : Prop where
  first : ∀ f, s.frames.getLast? = some f → f.keyframe = true
  recent : 0 < s.encoder.config.keyframe → s.frames ≠ [] →
    ∃ f ∈ s.frames.take s.encoder.config.keyframe.toNat, f.keyframe = true
  marked : ∀ f ∈ s.frames, f.data.head? = some (if f.keyframe then 1 else 0)
  codec : ∀ f ∈ s.frames, f.codec = s.encoder.config.codec ∧ (f.codec = "VP8" ∨ f.codec = "H264")

/-- A frame after a `ForceKeyframe` is a keyframe. -/
def Forced (s : EncoderStream) (c : EncoderCall) : Prop :=
  ∀ frame, c = .encode frame → s.encoder.started = true → s.encoder.forceKeyframe = true →
    ∃ f, (s.step c).frames = f :: s.frames ∧ f.keyframe = true

/-! ## What a call keeps -/

/-- How many frames have come since the last keyframe. -/
def deltas (frames : List EncodedFrame) : Nat := (frames.takeWhile fun f => !f.keyframe).length

/-- The last frame had the number `last`, and since the keyframe before it there
have been no more frames than fit into its interval so far. -/
structure Numbered (s : EncoderStream) (last : Nat) : Prop where
  lt : last < 18446744073709551616
  count : s.encoder.frameCount = (last + 1) % 18446744073709551616
  deltas : 0 < s.encoder.config.keyframe →
    deltas s.frames ≤ last % s.encoder.config.keyframe.toNat
  keyframe : ∃ f ∈ s.frames, f.keyframe = true

/-- The invariant: a stream without frames is at its start. -/
structure Inv (s : EncoderStream) : Prop where
  numbered : (s.frames = [] ∧ (s.encoder.started = true → s.encoder.frameCount = 0)) ∨
    ∃ last, s.Numbered last
  first : ∀ f, s.frames.getLast? = some f → f.keyframe = true
  marked : ∀ f ∈ s.frames, f.data.head? = some (if f.keyframe then 1 else 0)
  codec : ∀ f ∈ s.frames, f.codec = s.encoder.config.codec
  valid : s.encoder.started = true ∨ s.frames ≠ [] → s.encoder.config.validate = none

variable {s : EncoderStream}

/-- The keyframe after fewer than `k` others is among the first `k`. -/
theorem exists_keyframe_take {frames : List EncodedFrame} (h : ∃ f ∈ frames, f.keyframe = true)
    {k : Nat} (hk : EncoderStream.deltas frames < k) : ∃ f ∈ frames.take k, f.keyframe = true := by
  induction frames generalizing k with
  | nil =>
    obtain ⟨f, hf, -⟩ := h
    cases hf
  | cons f frames ih =>
    cases k with
    | zero => exact absurd hk (Nat.not_lt_zero _)
    | succ k =>
      cases hkey : f.keyframe with
      | true => exact ⟨f, List.mem_cons_self, hkey⟩
      | false =>
        have hdeltas : EncoderStream.deltas (f :: frames) = EncoderStream.deltas frames + 1 := by
          simp [EncoderStream.deltas, hkey]
        have hlater : ∃ g ∈ frames, g.keyframe = true := by
          obtain ⟨g, hg, hgkey⟩ := h
          rcases List.mem_cons.mp hg with rfl | hg
          · rw [hkey] at hgkey
            cases hgkey
          · exact ⟨g, hg, hgkey⟩
        obtain ⟨g, hg, hgkey⟩ := ih hlater (k := k) (by omega)
        exact ⟨g, List.mem_cons_of_mem _ hg, hgkey⟩

/-- Counting on within an interval. -/
theorem succ_mod_of_ne_zero {n k : Nat} (hk : 0 < k) (h : (n + 1) % k ≠ 0) :
    (n + 1) % k = n % k + 1 := by
  have hlt := Nat.mod_lt n hk
  have hmod : (n + 1) % k = (n % k + 1) % k := by rw [Nat.mod_add_mod]
  by_cases heq : n % k + 1 = k
  · rw [heq, Nat.mod_self] at hmod
    exact absurd hmod h
  · rw [hmod, Nat.mod_eq_of_lt (by omega)]

theorem Inv.decodable (h : Inv s) : Decodable s where
  first := h.first
  recent hk hne := by
    rcases h.numbered with ⟨hnil, -⟩ | ⟨last, hlast⟩
    · exact absurd hnil hne
    · refine exists_keyframe_take hlast.keyframe (Nat.lt_of_le_of_lt (hlast.deltas hk) ?_)
      exact Nat.mod_lt _ (by omega)
  marked := h.marked
  codec f hf := by
    have hvalid := h.valid (.inr (List.ne_nil_of_mem hf))
    refine ⟨h.codec f hf, ?_⟩
    rw [h.codec f hf]
    unfold EncoderConfig.validate at hvalid
    split at hvalid
    · cases hvalid
    next hcodec =>
      exact (Classical.not_and_iff_not_or_not.mp hcodec).imp Classical.not_not.mp
        Classical.not_not.mp

theorem Inv.new : Inv new where
  numbered := .inl ⟨rfl, fun hstarted => nomatch hstarted⟩
  first _ hf := nomatch hf
  marked _ hf := nomatch hf
  codec _ hf := nomatch hf
  valid h := by
    rcases h with hstarted | hne
    · cases hstarted
    · exact absurd rfl hne

/-- The frame that is encoded next has the next number, and is a keyframe if
that number ends an interval. -/
theorem Inv.next_numbered (h : Inv s) (hstarted : s.encoder.started = true) :
    s.encoder.frameCount < 18446744073709551616 ∧
      (s.encoder.isKeyframe = false → ∃ last, s.Numbered last ∧ s.encoder.frameCount = last + 1 ∧
        (0 < s.encoder.config.keyframe → (last + 1) % s.encoder.config.keyframe.toNat ≠ 0)) := by
  rcases h.numbered with ⟨-, hzero⟩ | ⟨last, hlast⟩
  · refine ⟨by rw [hzero hstarted]; decide, fun hkey => ?_⟩
    simp [SoftwareEncoder.isKeyframe, hzero hstarted] at hkey
  · refine ⟨by rw [hlast.count]; exact Nat.mod_lt _ (by decide), fun hkey => ⟨last, hlast, ?_⟩⟩
    have hlt := hlast.lt
    have hcount := hlast.count
    simp only [SoftwareEncoder.isKeyframe, Bool.or_eq_false_iff, Bool.and_eq_false_iff,
      decide_eq_false_iff_not] at hkey
    obtain ⟨⟨-, hzero⟩, hinterval⟩ := hkey
    have hsucc : s.encoder.frameCount = last + 1 := by omega
    refine ⟨hsucc, fun hk => ?_⟩
    rw [← hsucc]
    exact hinterval.resolve_left fun hnot => hnot hk

/-- One more frame. -/
theorem Inv.encode (h : Inv s) (frame : Frame) : Inv (s.step (.encode frame)) := by
  unfold EncoderStream.step SoftwareEncoder.encode
  cases hstarted : s.encoder.started with
  | false => exact h
  | true =>
    dsimp only
    rw [Bool.not_true, if_neg Bool.false_ne_true]
    obtain ⟨hroom, hdelta⟩ := h.next_numbered hstarted
    refine ⟨.inr ⟨s.encoder.frameCount, hroom, rfl, fun hk => ?_, ?_⟩, fun f hf => ?_,
      fun f hf => ?_, fun f hf => ?_, fun _ => h.valid (.inl hstarted)⟩
    · cases hkey : s.encoder.isKeyframe with
      | true => exact Nat.zero_le _
      | false =>
        obtain ⟨last, hlast, hcount, hne⟩ := hdelta hkey
        have hdeltas := hlast.deltas hk
        show EncoderStream.deltas s.frames + 1 ≤ s.encoder.frameCount % _
        rw [hcount, succ_mod_of_ne_zero (show 0 < s.encoder.config.keyframe.toNat from ?_) (hne hk)]
        · exact Nat.succ_le_succ hdeltas
        · have hpos : 0 < s.encoder.config.keyframe := hk
          omega
    · cases hkey : s.encoder.isKeyframe with
      | true => exact ⟨_, List.mem_cons_self, rfl⟩
      | false =>
        obtain ⟨last, hlast, -⟩ := hdelta hkey
        obtain ⟨f, hf, hfkey⟩ := hlast.keyframe
        exact ⟨f, List.mem_cons_of_mem _ hf, hfkey⟩
    · cases hframes : s.frames with
      | nil =>
        rw [hframes] at hf
        cases hf
        cases hkey : s.encoder.isKeyframe with
        | true => rfl
        | false =>
          obtain ⟨last, hlast, -⟩ := hdelta hkey
          obtain ⟨f, hf, -⟩ := hlast.keyframe
          rw [hframes] at hf
          cases hf
      | cons g frames =>
        rw [hframes, List.getLast?_cons_cons, ← hframes] at hf
        exact h.first f hf
    · rcases List.mem_cons.mp hf with rfl | hf
      · rfl
      · exact h.marked f hf
    · rcases List.mem_cons.mp hf with rfl | hf
      · rfl
      · exact h.codec f hf

theorem Inv.step (h : Inv s) (c : EncoderCall) : Inv (s.step c) := by
  cases c with
  | start config =>
    unfold EncoderStream.step SoftwareEncoder.start
    dsimp only
    cases hvalid : config.validate with
    | some err => exact h
    | none =>
      exact ⟨.inl ⟨rfl, fun _ => rfl⟩, fun _ hf => (nomatch hf), fun _ hf => (nomatch hf),
        fun _ hf => (nomatch hf), fun _ => hvalid⟩
  | stop =>
    refine ⟨?_, h.first, h.marked, h.codec, fun hlive => h.valid (.inr ?_)⟩
    · rcases h.numbered with ⟨hnil, -⟩ | ⟨last, hlast⟩
      · exact .inl ⟨hnil, fun hstarted => nomatch hstarted⟩
      · exact .inr ⟨last, { hlast with }⟩
    · exact hlive.resolve_left fun hstarted => nomatch hstarted
  | encode frame => exact h.encode frame
  | forceKeyframe =>
    refine ⟨?_, h.first, h.marked, h.codec, h.valid⟩
    exact h.numbered.imp id fun ⟨last, hlast⟩ => ⟨last, { hlast with }⟩

theorem forced (s : EncoderStream) (c : EncoderCall) : Forced s c := by
  rintro frame rfl hstarted hforce
  unfold EncoderStream.step SoftwareEncoder.encode
  rw [hstarted]
  exact ⟨_, rfl, by simp [SoftwareEncoder.isKeyframe, hforce]⟩

end EncoderStream

end ChainKVM.Robot
