import ChainKVM.Lib.Prog

/-!
# Camera recovery: `internal/video/recovery.go`

`ReadFrame` looks once at whether the capture is started and then reads the
source up to `MaxRetries + 1` times, letting go of the lock around every read
and every sleep. `Start` and `Stop` may therefore come before any of its
critical sections; an interleaving is given by what comes before each
(`Prog.execWith`). The source answers its reads with any sequence of frames
and errors.

The frame that comes back and the counters do not depend on what others do,
as long as nobody starts the capture again. But the loop never looks at
`started` again, so a `Stop` does not end it (`readFrame_holds_iff`).
-/

namespace ChainKVM.Robot

open Prog

/-! ## The capture -/

/-- `CaptureConfig`. -/
structure CaptureConfig where
  width : Int
  height : Int
  frameRate : Int
  deriving DecidableEq, Repr

/-- `CaptureConfig.Validate`. -/
def CaptureConfig.validate (c : CaptureConfig) : Option String :=
  if c.width ≤ 0 then some "width must be positive"
  else if c.height ≤ 0 then some "height must be positive"
  else if c.frameRate ≤ 0 || 120 < c.frameRate then some "frame rate must be between 1 and 120"
  else none

/-- `CaptureStats`. -/
structure CaptureStats where
  frameCount : UInt64
  errorCount : UInt64
  recoveryCount : UInt64
  deriving DecidableEq

/-- `RecoverableCapture`: `onError` and `onRecovery` say whether the callbacks
are set, `errors` and `recoveries` what they have been called with, and `reads`
counts the reads of the source. -/
structure RecoverableCapture where
  config : CaptureConfig
  maxRetries : Nat
  started : Bool
  stats : CaptureStats
  onError : Bool
  onRecovery : Bool
  reads : Nat
  errors : List String
  recoveries : Nat
  deriving DecidableEq

namespace RecoverableCapture

/-- `NewRecoverableCapture`. -/
def new (maxRetries : Nat) : RecoverableCapture :=
  ⟨⟨0, 0, 0⟩, maxRetries, false, ⟨0, 0, 0⟩, false, false, 0, [], 0⟩

/-- `Start`, by the answer of the source. -/
def start (config : CaptureConfig) (source : Except String Unit) (r : RecoverableCapture) :
    Except String Unit × RecoverableCapture :=
  match config.validate with
  | some err => (.error err, r)
  | none =>
    match source with
    | .error err => (.error err, r)
    | .ok () => (.ok (), { r with config, started := true, stats := ⟨0, 0, 0⟩ })

/-- `Stop`, by the answer of the source. -/
def stop (source : Except String Unit) (r : RecoverableCapture) :
    Except String Unit × RecoverableCapture :=
  if !r.started then (.ok (), r) else (source, { r with started := false })

end RecoverableCapture

/-- A call that comes between two critical sections of `ReadFrame`. -/
inductive CaptureCall where
  | start (config : CaptureConfig) (source : Except String Unit)
  | stop (source : Except String Unit)

namespace CaptureCall

/-- What the call leaves behind. -/
def apply (r : RecoverableCapture) : CaptureCall → RecoverableCapture
  | .start config source => (r.start config source).2
  | .stop source => (r.stop source).2

def isStart : CaptureCall → Bool
  | .start _ _ => true
  | .stop _ => false

def isStop : CaptureCall → Bool
  | .start _ _ => false
  | .stop _ => true

end CaptureCall

/-! ## `ReadFrame` -/

/-- The errors of `ReadFrame`. -/
inductive ReadError where
  | cameraNotStarted
  | maxRetriesExceeded (lastErr : String)
  deriving DecidableEq, Repr

/-- The critical sections of `ReadFrame`, and its reads of the source. -/
inductive ReadOp where
  | guard
  | read (attempt : Nat)
  | succeeded (hadError : Bool)
  | failed (err : String)
  deriving DecidableEq, Repr

variable {F : Type}

/-- The answer of an operation: of the guard, how often to retry. -/
abbrev ReadOp.Ans (F : Type) : ReadOp → Type
  | .guard => Option Nat
  | .read _ => Except String F
  | _ => Unit

/-- A program over these operations. -/
abbrev ReadProg (F α : Type) := Prog ReadOp (ReadOp.Ans F) α

/-- Perform one of them. -/
abbrev doRead (o : ReadOp) : ReadProg F (o.Ans F) := Prog.perform o

/-- The loop from `attempt` on, with `left` attempts after it. -/
def attempts (left attempt : Nat) (hadError : Bool) : ReadProg F (Except ReadError F) := do
  match ← doRead (.read attempt) with
  | .ok frame =>
    doRead (.succeeded hadError)
    pure (.ok frame)
  | .error err =>
    doRead (.failed err)
    match left with
    | 0 => pure (.error (.maxRetriesExceeded err))
    | left + 1 => attempts left (attempt + 1) true

/-- `ReadFrame`. -/
def readFrame : ReadProg F (Except ReadError F) := do
  match ← doRead .guard with
  | none => pure (.error .cameraNotStarted)
  | some maxRetries => attempts maxRetries 0 false

/-- What an operation does, with `source n` the answer to read `n`. -/
def readSem (source : Nat → Except String F) :
    (o : ReadOp) → RecoverableCapture → o.Ans F × RecoverableCapture
  | .guard, r => (if r.started then some r.maxRetries else none, r)
  | .read _, r => (source r.reads, { r with reads := r.reads + 1 })
  | .succeeded hadError, r =>
    ((), { r with
      stats := { r.stats with
        frameCount := r.stats.frameCount + 1
        recoveryCount := if hadError then r.stats.recoveryCount + 1 else r.stats.recoveryCount }
      recoveries := if hadError && r.onRecovery then r.recoveries + 1 else r.recoveries })
  | .failed err, r =>
    ((), { r with
      stats := { r.stats with errorCount := r.stats.errorCount + 1 }
      errors := if r.onError then r.errors ++ [err] else r.errors })

/-- The calls that come before an operation. -/
def calls (gaps : Nat → List CaptureCall) (n : Nat) (r : RecoverableCapture) :
    RecoverableCapture :=
  (gaps n).foldl CaptureCall.apply r

/-! ## What should hold -/

/-- The counters with some more frames, errors and recoveries. -/
def CaptureStats.plus (s : CaptureStats) (frames errors recoveries : Nat) : CaptureStats :=
  ⟨s.frameCount + .ofNat frames, s.errorCount + .ofNat errors,
    s.recoveryCount + .ofNat recoveries⟩

/-- The first success among the answers `first` to `first + left`, after `fails`
failures, or the last error when there is none. -/
inductive FirstSuccess (source : Nat → Except String F) (first left : Nat) :
    Except ReadError F → Nat → Prop where
  | frame (fails : Nat) (frame : F) (hle : fails ≤ left)
    (hfails : ∀ j < fails, ∃ err, source (first + j) = .error err)
    (hok : source (first + fails) = .ok frame) :
    FirstSuccess source first left (.ok frame) fails
  | exceeded (err : String)
    (hfails : ∀ j < left + 1, ∃ err, source (first + j) = .error err)
    (hlast : source (first + left) = .error err) :
    FirstSuccess source first left (.error (.maxRetriesExceeded err)) (left + 1)

/-- One if a frame came back. -/
def frames (res : Except ReadError F) : Nat := if res.isOk then 1 else 0

/-- One if a frame came back after an error. -/
def recovered (res : Except ReadError F) (hadError : Bool) : Nat :=
  if res.isOk && hadError then 1 else 0

/-- A read that is a retry, or the end of `ReadFrame` with a frame. -/
def actsAgain : ReadOp → Bool
  | .read attempt => 0 < attempt
  | .succeeded _ => true
  | _ => false

/-- Nobody calls `Start` from gap `n` on. -/
def NoStart (gaps : Nat → List CaptureCall) (n : Nat) : Prop :=
  ∀ k, n ≤ k → ∀ c ∈ gaps k, c.isStart = false

/-- Nobody calls `Stop` in the gaps 1 to `n`, those between the guard and
operation `n`. -/
def NoStop (gaps : Nat → List CaptureCall) (n : Nat) : Prop :=
  ∀ k, 1 ≤ k → k ≤ n → ∀ c ∈ gaps k, c.isStop = false

/-- A run of `ReadFrame`. -/
def runRead (source : Nat → Except String F) (gaps : Nat → List CaptureCall)
    (r : RecoverableCapture) : Except ReadError F × RecoverableCapture :=
  readFrame.execWith (readSem source) (calls gaps) 0 r

/-- The operations of that run. -/
def readLog (source : Nat → Except String F) (gaps : Nat → List CaptureCall)
    (r : RecoverableCapture) : List (Nat × (o : ReadOp) × o.Ans F) :=
  readFrame.logWith (readSem source) (calls gaps) 0 r

/-- What should hold of a run of `ReadFrame`: a capture that is not started is
not read; else the first frame of at most `MaxRetries + 1` reads comes back; the
counters say what happened, if nobody starts the capture meanwhile; and once
`Stop` has returned, there is no retry and no frame. -/
structure ReadHolds (source : Nat → Except String F) (gaps : Nat → List CaptureCall)
    (r : RecoverableCapture) : Prop where
  guarded : (calls gaps 0 r).started = false →
    runRead source gaps r = (.error .cameraNotStarted, calls gaps 0 r)
  result : (calls gaps 0 r).started = true → ∃ fails,
    FirstSuccess source r.reads r.maxRetries (runRead source gaps r).1 fails ∧
    (runRead source gaps r).2.reads = r.reads + fails + frames (runRead source gaps r).1 ∧
    (NoStart gaps 1 → (runRead source gaps r).2.stats =
      (calls gaps 0 r).stats.plus (frames (runRead source gaps r).1) fails
        (recovered (runRead source gaps r).1 (0 < fails)))
  stopped : ∀ n o ans, (n, ⟨o, ans⟩) ∈ readLog source gaps r → actsAgain o = true →
    NoStop gaps n

/-- The last operation that a `Stop` should prevent, by the answers of the
source to this call: the success, or the last retry. -/
def lastAct (answers : Nat → Except String F) (maxRetries : Nat) : Nat :=
  match (List.range (maxRetries + 1)).find? fun j => (answers j).isOk with
  | some f => 2 * f + 2
  | none => if maxRetries = 0 then 0 else 2 * maxRetries + 1

/-! ## The calls in between -/

theorem apply_frame (r : RecoverableCapture) (c : CaptureCall) :
    (c.apply r).reads = r.reads ∧ (c.apply r).maxRetries = r.maxRetries ∧
      (c.isStart = false → (c.apply r).stats = r.stats) := by
  cases c with
  | start config source =>
    unfold CaptureCall.apply RecoverableCapture.start
    refine ⟨?_, ?_, fun h => by cases h⟩
    all_goals
      dsimp only
      split
      · rfl
      · split <;> rfl
  | stop source =>
    unfold CaptureCall.apply RecoverableCapture.stop
    refine ⟨?_, ?_, fun _ => ?_⟩
    all_goals
      dsimp only
      split <;> rfl

theorem calls_frame (gaps : Nat → List CaptureCall) (n : Nat) (r : RecoverableCapture) :
    (calls gaps n r).reads = r.reads ∧ (calls gaps n r).maxRetries = r.maxRetries ∧
      ((∀ c ∈ gaps n, c.isStart = false) → (calls gaps n r).stats = r.stats) := by
  unfold calls
  induction gaps n generalizing r with
  | nil => exact ⟨rfl, rfl, fun _ => rfl⟩
  | cons c cs ih =>
    obtain ⟨hreads, hmax, hstats⟩ := apply_frame r c
    obtain ⟨hreads', hmax', hstats'⟩ := ih (c.apply r)
    rw [List.foldl_cons]
    refine ⟨hreads'.trans hreads, hmax'.trans hmax, fun h => ?_⟩
    have hc := h c List.mem_cons_self
    exact (hstats' fun x hx => h x (List.mem_cons_of_mem c hx)).trans (hstats hc)

/-! ## One attempt -/

section Attempts

variable (source : Nat → Except String F) (gaps : Nat → List CaptureCall)

/-- The loop from operation `n` on. -/
abbrev runAttempts (left attempt : Nat) (hadError : Bool) (n : Nat) (r : RecoverableCapture) :
    Except ReadError F × RecoverableCapture :=
  (attempts left attempt hadError).execWith (readSem source) (calls gaps) n r

abbrev attemptsLog (left attempt : Nat) (hadError : Bool) (n : Nat) (r : RecoverableCapture) :
    List (Nat × (o : ReadOp) × o.Ans F) :=
  (attempts left attempt hadError).logWith (readSem source) (calls gaps) n r

/-- The capture after a read. -/
def afterRead (n : Nat) (r : RecoverableCapture) : RecoverableCapture :=
  { calls gaps n r with reads := r.reads + 1 }

/-- The capture after a read that failed. -/
def afterFailure (err : String) (n : Nat) (r : RecoverableCapture) : RecoverableCapture :=
  (readSem source (.failed err) (calls gaps (n + 1) (afterRead gaps n r))).2

/-- The capture after a read that gave a frame. -/
def afterSuccess (hadError : Bool) (n : Nat) (r : RecoverableCapture) : RecoverableCapture :=
  (readSem source (.succeeded hadError) (calls gaps (n + 1) (afterRead gaps n r))).2

variable {gaps}

theorem read_eq (attempt n : Nat) (r : RecoverableCapture) :
    readSem source (.read attempt) (calls gaps n r) = (source r.reads, afterRead gaps n r) := by
  show (source (calls gaps n r).reads,
    { calls gaps n r with reads := (calls gaps n r).reads + 1 }) = _
  rw [(calls_frame gaps n r).1]
  rfl

theorem afterRead_stats {n : Nat} (hgaps : NoStart gaps n) (r : RecoverableCapture) :
    (calls gaps (n + 1) (afterRead gaps n r)).stats = r.stats :=
  ((calls_frame gaps (n + 1) _).2.2 (hgaps (n + 1) (by omega))).trans
    ((calls_frame gaps n r).2.2 (hgaps n (Nat.le_refl n)))

theorem afterFailure_reads (err : String) (n : Nat) (r : RecoverableCapture) :
    (afterFailure source gaps err n r).reads = r.reads + 1 :=
  (calls_frame gaps (n + 1) (afterRead gaps n r)).1

theorem afterSuccess_reads (hadError : Bool) (n : Nat) (r : RecoverableCapture) :
    (afterSuccess source gaps hadError n r).reads = r.reads + 1 :=
  (calls_frame gaps (n + 1) (afterRead gaps n r)).1

theorem afterFailure_stats (err : String) {n : Nat} (hgaps : NoStart gaps n)
    (r : RecoverableCapture) : (afterFailure source gaps err n r).stats = r.stats.plus 0 1 0 := by
  show CaptureStats.mk _ _ _ = _
  rw [afterRead_stats hgaps]
  simp [CaptureStats.plus]

theorem afterSuccess_stats (hadError : Bool) {n : Nat} (hgaps : NoStart gaps n)
    (r : RecoverableCapture) : (afterSuccess source gaps hadError n r).stats =
      r.stats.plus 1 0 (if hadError then 1 else 0) := by
  show CaptureStats.mk _ _ _ = _
  rw [afterRead_stats hgaps]
  cases hadError <;> simp [CaptureStats.plus]

variable {source} (gaps)

theorem attempts_of_ok (left attempt : Nat) (hadError : Bool) (n : Nat) {r : RecoverableCapture}
    {frame : F} (h : source r.reads = .ok frame) :
    runAttempts source gaps left attempt hadError n r =
        (.ok frame, afterSuccess source gaps hadError n r) ∧
      attemptsLog source gaps left attempt hadError n r =
        [(n, ⟨.read attempt, .ok frame⟩), (n + 1, ⟨.succeeded hadError, ()⟩)] := by
  unfold runAttempts attemptsLog attempts
  simp only [perform_bind, execWith_op, logWith_op, read_eq, h]
  exact ⟨rfl, rfl⟩

theorem attempts_of_error (left attempt : Nat) (hadError : Bool) (n : Nat)
    {r : RecoverableCapture} {err : String} (h : source r.reads = .error err) :
    runAttempts source gaps left attempt hadError n r =
        (match left with
        | 0 => (.error (.maxRetriesExceeded err), afterFailure source gaps err n r)
        | left + 1 => runAttempts source gaps left (attempt + 1) true (n + 2)
          (afterFailure source gaps err n r)) ∧
      attemptsLog source gaps left attempt hadError n r =
        (n, ⟨.read attempt, .error err⟩) :: (n + 1, ⟨.failed err, ()⟩) ::
          (match left with
          | 0 => []
          | left + 1 => attemptsLog source gaps left (attempt + 1) true (n + 2)
            (afterFailure source gaps err n r)) := by
  unfold runAttempts attemptsLog
  rw [attempts.eq_def]
  simp only [perform_bind, execWith_op, logWith_op, read_eq, h]
  cases left with
  | zero => exact ⟨rfl, rfl⟩
  | succ left => exact ⟨rfl, rfl⟩

/-! ## The loop -/

/-- The last operation of the loop, counted from its first, that acts again. -/
def actOffset (res : Except ReadError F) (left fails : Nat) : Nat :=
  if res.isOk then 2 * fails + 1 else 2 * left

variable (source)

/-- What the loop does, with `fails` failed reads. -/
structure LoopSpec (left attempt : Nat) (hadError : Bool) (n : Nat) (r : RecoverableCapture)
    (res : Except ReadError F) (r' : RecoverableCapture) (fails : Nat) : Prop where
  result : FirstSuccess source r.reads left res fails
  reads : r'.reads = r.reads + fails + frames res
  stats : NoStart gaps n →
    r'.stats = r.stats.plus (frames res) fails (recovered res (hadError || decide (0 < fails)))
  acts_le : ∀ m o ans, (m, ⟨o, ans⟩) ∈ attemptsLog source gaps left attempt hadError n r →
    actsAgain o = true →
      m ≤ n + actOffset res left fails ∧ (res.isOk = true ∨ 0 < attempt + left)
  acts : res.isOk = true ∨ 0 < attempt + left → ∃ o ans,
    (n + actOffset res left fails, ⟨o, ans⟩) ∈ attemptsLog source gaps left attempt hadError n r ∧
      actsAgain o = true

variable {source gaps}

theorem FirstSuccess.succ {first left fails : Nat} {res : Except ReadError F} {err : String}
    (herr : source first = .error err) (h : FirstSuccess source (first + 1) left res fails) :
    FirstSuccess source first (left + 1) res (fails + 1) := by
  have hshift : ∀ k, first + (k + 1) = first + 1 + k := by
    intro k
    omega
  have hcons : ∀ k, (∀ j < k, ∃ err, source (first + 1 + j) = .error err) →
      ∀ j < k + 1, ∃ err, source (first + j) = .error err := by
    intro k hk j hj
    cases j with
    | zero => exact ⟨err, herr⟩
    | succ j =>
      rw [hshift]
      exact hk j (by omega)
  cases h with
  | frame _ frame hle hfails hok =>
    exact .frame (fails + 1) frame (by omega) (hcons fails hfails) (by rw [hshift]; exact hok)
  | exceeded err' hfails hlast =>
    exact .exceeded err' (hcons (left + 1) hfails) (by rw [hshift]; exact hlast)

theorem CaptureStats.plus_plus (s : CaptureStats) (a b c d e f : Nat) :
    (s.plus a b c).plus d e f = s.plus (a + d) (b + e) (c + f) := by
  simp [CaptureStats.plus, UInt64.ofNat_add, UInt64.add_assoc]

theorem loop_of_ok {left attempt : Nat} {hadError : Bool} {n : Nat} {r : RecoverableCapture}
    {frame : F} (h : source r.reads = .ok frame) :
    LoopSpec source gaps left attempt hadError n r (.ok frame)
      (afterSuccess source gaps hadError n r) 0 := by
  obtain ⟨-, hlog⟩ := attempts_of_ok gaps left attempt hadError n h
  constructor
  · exact .frame 0 frame (Nat.zero_le left) (fun j hj => by omega) h
  · exact afterSuccess_reads source hadError n r
  · intro hgaps
    rw [afterSuccess_stats source hadError hgaps]
    cases hadError <;> rfl
  · intro m o ans hmem _
    rw [hlog] at hmem
    refine ⟨?_, Or.inl rfl⟩
    rcases List.mem_cons.mp hmem with heq | hmem
    · cases heq
      exact Nat.le_add_right _ _
    · cases List.mem_singleton.mp hmem
      exact Nat.le_refl _
  · intro _
    rw [hlog]
    exact ⟨.succeeded hadError, (), List.mem_cons_of_mem _ (List.mem_singleton.mpr rfl), rfl⟩

theorem loop_of_last {attempt : Nat} {hadError : Bool} {n : Nat} {r : RecoverableCapture}
    {err : String} (h : source r.reads = .error err) :
    LoopSpec source gaps 0 attempt hadError n r (.error (.maxRetriesExceeded err))
      (afterFailure source gaps err n r) 1 := by
  obtain ⟨-, hlog⟩ := attempts_of_error gaps 0 attempt hadError n h
  refine ⟨.exceeded err ?_ h, afterFailure_reads source err n r, ?_, ?_, ?_⟩
  · intro j hj
    obtain rfl : j = 0 := by omega
    exact ⟨err, h⟩
  · intro hgaps
    exact afterFailure_stats source err hgaps r
  · intro m o ans hmem hacts
    rw [hlog] at hmem
    rcases List.mem_cons.mp hmem with heq | hmem
    · cases heq
      have hpos : 0 < attempt := of_decide_eq_true hacts
      exact ⟨Nat.le_add_right _ _, Or.inr hpos⟩
    · cases List.mem_singleton.mp hmem
      cases hacts
  · intro hor
    have hpos : 0 < attempt := hor.resolve_left (by simp [Except.isOk, Except.toBool])
    rw [hlog]
    exact ⟨.read attempt, .error err, List.mem_cons_self, decide_eq_true hpos⟩

/-- A failure before what is left of the loop. -/
theorem LoopSpec.after_error {left attempt : Nat} {hadError : Bool} {n : Nat}
    {r r' : RecoverableCapture} {err : String} {res : Except ReadError F} {fails : Nat}
    (h : source r.reads = .error err)
    (hrest : LoopSpec source gaps left (attempt + 1) true (n + 2) (afterFailure source gaps err n r)
      res r' fails) :
    LoopSpec source gaps (left + 1) attempt hadError n r res r' (fails + 1) := by
  obtain ⟨-, hlog⟩ := attempts_of_error gaps (left + 1) attempt hadError n h
  have hreads : (afterFailure source gaps err n r).reads = r.reads + 1 :=
    afterFailure_reads source err n r
  have hoffset : n + 2 + actOffset res left fails = n + actOffset res (left + 1) (fails + 1) := by
    unfold actOffset
    split <;> omega
  refine ⟨?_, ?_, ?_, ?_, ?_⟩
  · have hresult := hrest.result
    rw [hreads] at hresult
    exact hresult.succ h
  · rw [hrest.reads, hreads]
    omega
  · intro hgaps
    rw [hrest.stats (fun k hk => hgaps k (by omega)), afterFailure_stats source err hgaps,
      CaptureStats.plus_plus, Nat.zero_add, Nat.zero_add, Nat.add_comm 1 fails,
      Bool.true_or, decide_eq_true (Nat.succ_pos fails), Bool.or_true]
  · intro m o ans hmem hacts
    rw [hlog] at hmem
    rcases List.mem_cons.mp hmem with heq | hmem
    · cases heq
      exact ⟨Nat.le_add_right _ _, Or.inr (by omega)⟩
    · rcases List.mem_cons.mp hmem with heq | hmem
      · cases heq
        cases hacts
      · have hle := (hrest.acts_le m o ans hmem hacts).1
        exact ⟨by omega, Or.inr (by omega)⟩
  · intro _
    obtain ⟨o, ans, hmem, hacts⟩ := hrest.acts (Or.inr (by omega))
    rw [hoffset] at hmem
    rw [hlog]
    exact ⟨o, ans, List.mem_cons_of_mem _ (List.mem_cons_of_mem _ hmem), hacts⟩

variable (source gaps)

theorem attempts_spec (left attempt : Nat) (hadError : Bool) (n : Nat) (r : RecoverableCapture) :
    ∃ fails, LoopSpec source gaps left attempt hadError n r
      (runAttempts source gaps left attempt hadError n r).1
      (runAttempts source gaps left attempt hadError n r).2 fails := by
  induction left generalizing attempt hadError n r with
  | zero =>
    cases h : source r.reads with
    | ok frame =>
      rw [(attempts_of_ok gaps _ attempt hadError n h).1]
      exact ⟨0, loop_of_ok h⟩
    | error err =>
      rw [(attempts_of_error gaps 0 attempt hadError n h).1]
      exact ⟨1, loop_of_last h⟩
  | succ left ih =>
    cases h : source r.reads with
    | ok frame =>
      rw [(attempts_of_ok gaps _ attempt hadError n h).1]
      exact ⟨0, loop_of_ok h⟩
    | error err =>
      obtain ⟨fails, hrest⟩ := ih (attempt + 1) true (n + 2) (afterFailure source gaps err n r)
      rw [(attempts_of_error gaps (left + 1) attempt hadError n h).1]
      exact ⟨fails + 1, hrest.after_error h⟩

end Attempts

/-! ## The whole call -/

section ReadFrame

variable (source : Nat → Except String F) (gaps : Nat → List CaptureCall)
  (r : RecoverableCapture)

theorem readFrame_of_stopped (h : (calls gaps 0 r).started = false) :
    runRead source gaps r = (.error .cameraNotStarted, calls gaps 0 r) ∧
      readLog source gaps r = [(0, ⟨.guard, none⟩)] := by
  unfold runRead readLog readFrame
  have hguard : readSem source .guard (calls gaps 0 r) = (none, calls gaps 0 r) := by
    show ((if (calls gaps 0 r).started then _ else none), calls gaps 0 r) = _
    rw [h]
    rfl
  constructor
  · simp only [perform_bind, execWith_op, hguard]
    rfl
  · simp only [perform_bind, logWith_op, hguard, pure_eq_ret, logWith_ret]

theorem readFrame_of_started (h : (calls gaps 0 r).started = true) :
    runRead source gaps r =
        runAttempts source gaps r.maxRetries 0 false 1 (calls gaps 0 r) ∧
      readLog source gaps r = (0, ⟨.guard, some r.maxRetries⟩) ::
        attemptsLog source gaps r.maxRetries 0 false 1 (calls gaps 0 r) := by
  unfold runRead readLog readFrame
  have hguard : readSem source .guard (calls gaps 0 r) =
      (some r.maxRetries, calls gaps 0 r) := by
    show ((if (calls gaps 0 r).started then some (calls gaps 0 r).maxRetries else none),
      calls gaps 0 r) = _
    rw [h, (calls_frame gaps 0 r).2.1]
    rfl
  simp only [perform_bind, execWith_op, logWith_op, hguard]
  exact ⟨trivial, trivial⟩

theorem lastAct_eq {first left fails : Nat} {res : Except ReadError F}
    (h : FirstSuccess source first left res fails) :
    lastAct (fun j => source (first + j)) left =
      if res.isOk = true ∨ 0 < left then 1 + actOffset res left fails else 0 := by
  have hnot : ∀ j, (∃ err, source (first + j) = .error err) → (source (first + j)).isOk = false := by
    intro j hj
    obtain ⟨err, herr⟩ := hj
    rw [herr]
    rfl
  unfold lastAct actOffset
  cases h with
  | frame _ frame hle hfails hok =>
    have hfind : (List.range (left + 1)).find? (fun j => (source (first + j)).isOk) = some fails := by
      rw [List.find?_range_eq_some]
      refine ⟨by rw [hok]; rfl, List.mem_range.mpr (by omega), fun j hj => ?_⟩
      rw [hnot j (hfails j hj)]
      rfl
    have hisOk : (Except.ok frame : Except ReadError F).isOk = true := rfl
    rw [hfind, hisOk, if_pos (Or.inl rfl), if_pos rfl]
    dsimp only
    omega
  | exceeded err hfails hlast =>
    have hfind : (List.range (left + 1)).find? (fun j => (source (first + j)).isOk) = none := by
      rw [List.find?_range_eq_none]
      intro j hj
      rw [hnot j (hfails j hj)]
      rfl
    have hok : (Except.error (ReadError.maxRetriesExceeded err) : Except ReadError F).isOk = false :=
      rfl
    rw [hfind, hok, if_neg Bool.false_ne_true]
    dsimp only
    by_cases hleft : left = 0
    · rw [if_pos hleft, if_neg (by simp [hleft])]
    · rw [if_neg hleft, if_pos (Or.inr (by omega))]
      omega

/-- A run of `ReadFrame` is as it should be exactly when `Stop` does not come
between the guard and the success or the last retry. -/
theorem readFrame_holds_iff : ReadHolds source gaps r ↔
    ((calls gaps 0 r).started = true →
      NoStop gaps (lastAct (fun j => source (r.reads + j)) r.maxRetries)) := by
  cases hst : (calls gaps 0 r).started with
  | false =>
    obtain ⟨hrun, hlog⟩ := readFrame_of_stopped source gaps r hst
    refine ⟨?_, fun _ => ⟨fun _ => hrun, fun h => ?_, ?_⟩⟩
    · intro _ h
      cases h
    · rw [hst] at h
      cases h
    · intro n o ans hmem hacts
      rw [hlog] at hmem
      cases List.mem_singleton.mp hmem
      cases hacts
  | true =>
    obtain ⟨hrun, hlog⟩ := readFrame_of_started source gaps r hst
    obtain ⟨fails, hspec⟩ := attempts_spec source gaps r.maxRetries 0 false 1
      (calls gaps 0 r)
    have hreads := (calls_frame gaps 0 r).1
    have hresult := hspec.result
    rw [hreads] at hresult
    have hlast := lastAct_eq source hresult
    rw [hlast]
    constructor
    · intro h _ k hk hkn
      by_cases hor : (runAttempts source gaps r.maxRetries 0 false 1 (calls gaps 0 r)).1.isOk = true ∨
          0 < r.maxRetries
      · rw [if_pos hor] at hkn
        obtain ⟨o, ans, hmem, hacts⟩ := hspec.acts (by rwa [Nat.zero_add])
        refine h.stopped _ o ans ?_ hacts k hk hkn
        rw [hlog]
        exact List.mem_cons_of_mem _ hmem
      · rw [if_neg hor] at hkn
        omega
    · intro h
      refine ⟨fun hf => absurd (hst.symm.trans hf) (by simp), fun _ => ⟨fails, ?_, ?_, ?_⟩, ?_⟩
      · rw [hrun]
        exact hresult
      · rw [hrun, hspec.reads, hreads]
      · intro hgaps
        rw [hrun, hspec.stats hgaps, Bool.false_or]
      · intro n o ans hmem hacts k hk hkn
        rw [hlog] at hmem
        rcases List.mem_cons.mp hmem with heq | hmem
        · cases heq
          cases hacts
        · obtain ⟨hle, hor⟩ := hspec.acts_le n o ans hmem hacts
          rw [Nat.zero_add] at hor
          rw [if_pos hor] at h
          exact h rfl k hk (by omega)

end ReadFrame

/-- A source that fails once and then gives a frame. -/
def flaky : Nat → Except String Unit := fun n => if n = 0 then .error "camera unavailable" else .ok ()

/-- A capture that is started, with one retry. -/
def startedCapture : RecoverableCapture :=
  ((RecoverableCapture.new 1).start ⟨1280, 720, 30⟩ (.ok ())).2

/-- `Stop` returns while the failed read is slept off; the source is read again
and its frame comes back. -/
theorem readFrame_after_stop :
    ¬ ReadHolds flaky (fun n => if n = 3 then [.stop (.ok ())] else []) startedCapture := by
  intro h
  have hretry : (readLog flaky (fun n => if n = 3 then [.stop (.ok ())] else [])
      startedCapture).any (fun e => e.1 = 3 && actsAgain e.2.1) = true := by
    decide +kernel
  -- the retry is operation 3, and the `Stop` comes in the gap before it
  obtain ⟨⟨n, o, ans⟩, hmem, hacts⟩ := List.any_eq_true.mp hretry
  obtain ⟨hn, hacts⟩ := (Bool.and_eq_true _ _).mp hacts
  cases of_decide_eq_true hn
  have hstop := h.stopped 3 o ans hmem hacts 3 (by decide) (by decide) (.stop (.ok ()))
    List.mem_cons_self
  cases hstop

end ChainKVM.Robot
