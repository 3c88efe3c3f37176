import ChainKVM.Robot.Dispatch
import ChainKVM.Robot.Effects
import ChainKVM.Robot.Sample

/-!
# How long a command stays fresh

`checkStale` looks at the age of a command: how far its timestamp is behind the
clock. A timestamp ahead of the clock has a negative age and is fresh, and stays
so until the clock has come past it by the threshold. So a command can be
repeated until that moment, and no longer (`fresh`): within twice the threshold
if its timestamp was at most the threshold ahead, and for an hour if it was an
hour ahead.
-/

namespace ChainKVM.Robot

/-- The timestamp of a command. -/
def Message.t : Message → Int
  | .drive msg => msg.t
  | .kvmKey msg => msg.t
  | .kvmMouse msg => msg.t
  | .eStop msg => msg.t
  | _ => 0

theorem Validator.checkStale_eq_none {v : Validator} {now : Time} {t : Int} :
    v.checkStale now t = none ↔ t ≠ 0 ∧ sub now (unixMilli t) ≤ v.staleThreshold := by
  unfold checkStale
  by_cases ht : t = 0
  · simp [ht]
  · by_cases hstale : v.staleThreshold < sub now (unixMilli t)
    · simp [ht, hstale]
    · simp [ht, hstale, Int.not_lt.mp hstale]

/-- What the validator accepts has passed the stale check. -/
theorem Message.checkStale_of_verdict {v : Validator} {now : Time} {m : Message}
    (hmotion : m.isMotion = true) (h : m.verdict v now = none) : v.checkStale now m.t = none := by
  cases hstale : v.checkStale now m.t with
  | none => rfl
  | some err =>
    cases m with
    | drive msg =>
      have hv : v.validateDrive now msg = some err := by
        unfold Validator.validateDrive
        rw [show v.checkStale now msg.t = some err from hstale]
      exact absurd (hv.symm.trans h) (by simp)
    | kvmKey msg =>
      have hv : v.validateKVMKey now msg = some err := by
        unfold Validator.validateKVMKey
        rw [show v.checkStale now msg.t = some err from hstale]
      exact absurd (hv.symm.trans h) (by simp)
    | kvmMouse msg => exact absurd (hstale.symm.trans h) (by simp)
    | _ => cases hmotion

/-- The validator refuses the message that the bytes decode to, and the robot
is not called. -/
def Rejected (ext : External) (a : Agent) (data : Bytes) : Prop :=
  (∃ m err, ext.decode.message data = some m ∧
    m.verdict Handler.wired.validator a.now = some err) ∧
  robotCalls ((Handler.wired.handleMessage ext.decode data).log (sem ext) a) = []

/-- A command whose timestamp is behind the clock by more than the threshold is
rejected. -/
theorem rejected_of_stale {ext : External} {a : Agent} {data : Bytes} {m : Message}
    (hm : ext.decode.message data = some m) (hmotion : m.isMotion = true)
    (hstale : Handler.wired.validator.staleThreshold < a.now - unixMilli m.t) :
    Rejected ext a data := by
  have hage : Handler.wired.validator.staleThreshold < sub a.now (unixMilli m.t) :=
    lt_sub (by decide) hstale
  have hverdict : m.verdict Handler.wired.validator a.now ≠ none := by
    intro h
    have hfresh := Validator.checkStale_eq_none.mp (Message.checkStale_of_verdict hmotion h)
    exact absurd hage (Int.not_lt.mpr hfresh.2)
  obtain ⟨err, herr⟩ := Option.ne_none_iff_exists'.mp hverdict
  refine ⟨⟨m, err, hm, herr⟩, ?_⟩
  have hhandled := Handler.handleMessage_handled ext Handler.wired.validator ext.decode data a
  refine List.eq_nil_iff_forall_not_mem.mpr fun call hcall => ?_
  obtain ⟨m', hm', -, hadmitted⟩ := (hhandled.called call.1).mp ⟨call.2, hcall⟩
  cases Option.some.inj (hm.symm.trans hm')
  exact hverdict hadmitted.accepted

theorem lt_sub_of_ahead {now later t threshold : Int} (hahead : t ≤ now + threshold)
    (hlate : now + 2 * threshold < later) : threshold < later - t := by
  omega

/-- A motion command is accepted only with a timestamp that is not behind the
clock by more than the threshold. In every run it is rejected from then on; so
if its timestamp was at most the threshold ahead of the clock when it was
accepted, it is rejected later than twice the threshold after that. -/
theorem fresh (ext : External) :
    (∀ (v : Validator) (now : Time) (m : Message), m.isMotion = true → m.verdict v now = none →
      m.t ≠ 0 ∧ sub now (unixMilli m.t) ≤ v.staleThreshold) ∧
    (∀ (a : Agent) (es : List Event) (data : Bytes) (m : Message),
      ext.decode.message data = some m → m.isMotion = true →
      Handler.wired.validator.staleThreshold <
        (Machine.run (Agent.step ext) a es).now - unixMilli m.t →
      ∀ es', Rejected ext (Machine.run (Agent.step ext) a (es ++ es')) data) ∧
    ∀ (a : Agent) (es : List Event) (data : Bytes) (m : Message),
      ext.decode.message data = some m → m.isMotion = true →
      m.verdict Handler.wired.validator a.now = none →
      unixMilli m.t ≤ a.now + Handler.wired.validator.staleThreshold →
      a.now + 2 * Handler.wired.validator.staleThreshold <
        (Machine.run (Agent.step ext) a es).now →
      Rejected ext (Machine.run (Agent.step ext) a es) data := by
  refine ⟨fun v now m hmotion h => ?_, fun a es data m hm hmotion hstale es' => ?_,
    fun a es data m hm hmotion _ hahead hlate => ?_⟩
  · exact Validator.checkStale_eq_none.mp (Message.checkStale_of_verdict hmotion h)
  · refine rejected_of_stale hm hmotion (Int.lt_of_lt_of_le hstale (Int.sub_le_sub_right ?_ _))
    rw [Machine.run_append]
    exact run_now_le ext _ es'
  · exact rejected_of_stale hm hmotion (lt_sub_of_ahead hahead hlate)

namespace Sample

def driveMessage : Message := .drive ⟨1, 0, 1767225600000⟩

theorem decode_drive : decode.message drive = some driveMessage := by decide +kernel

def oneSecond : List Event := [.elapse 1000000000]

/-- The agent with session `s1` activated an hour before the drive's
timestamp. -/
def early : Agent :=
  Machine.run (Agent.step ext) (.init (now - 3600 * second) config validator) signOn

end Sample

open Sample in
/-- The drive is accepted at its time, and rejected a second later. -/
theorem fresh_sample :
    driveMessage.t ≠ 0 ∧ sub active.now (unixMilli driveMessage.t) ≤ 200 * millisecond ∧
    Rejected ext (Machine.run (Agent.step ext) active (oneSecond ++ oneSecond)) drive ∧
    Rejected ext (Machine.run (Agent.step ext) active oneSecond) drive := by
  have haccepted : driveMessage.verdict Handler.wired.validator active.now = none := by
    decide +kernel
  obtain ⟨hfresh, hstale, hreplay⟩ := fresh ext
  obtain ⟨ht, hage⟩ := hfresh Handler.wired.validator active.now driveMessage rfl haccepted
  refine ⟨ht, hage, ?_, ?_⟩
  · exact hstale active oneSecond drive driveMessage decode_drive rfl (by decide +kernel) oneSecond
  · exact hreplay active oneSecond drive driveMessage decode_drive rfl haccepted
      (by decide +kernel) (by decide +kernel)

open Sample in
/-- An hour early the drive is accepted, although its timestamp is further
ahead of the clock than the threshold; and it moves the robot once more when it
is repeated a second later. -/
theorem fresh_fails :
    decode.message drive = some driveMessage ∧
    Handler.wired.validator.staleThreshold < unixMilli driveMessage.t - early.now ∧
    Handler.wired.motionOf decode early.toCore drive = some (.drive 1 0) ∧
    early.now + 2 * Handler.wired.validator.staleThreshold <
      (Machine.run (Agent.step ext) early oneSecond).now ∧
    Handler.wired.motionOf decode (Machine.run (Agent.step ext) early oneSecond).toCore drive =
      some (.drive 1 0) := by
  refine ⟨decode_drive, ?_⟩
  decide +kernel

end ChainKVM.Robot
