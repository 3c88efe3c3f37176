import ChainKVM.Robot.Dispatch
import ChainKVM.Robot.Sample
import ChainKVM.Robot.Wire

/-!
# Emergency stops

An e-stop is not checked for its age, its scope or its rate. It still has to be
decoded a second time, into a struct whose timestamp is an `int64`, and a
message whose `t` is anything else is answered with "invalid JSON": the monitor
counts an invalid command and the robot goes on. `eStop_iff` says for which
messages of an active session the robot is stopped.
-/

namespace ChainKVM.Robot

namespace Wire

/-- The names of the fields of `EStopMessage`. -/
def eStopNames : List String := ["type", "t"]

/-- A value that an `int64` takes. -/
def FitsInt64 (v : Wire) : Prop :=
  v = .null ∨ ∃ literal, v = .number literal ∧ (parseInt literal).isSome = true

/-- A value that a string takes. -/
def FitsString (v : Wire) : Prop := v = .null ∨ ∃ s, v = .string s

/-- A value that a field of `EStopMessage` takes. -/
def FitsEStop (field : String) (v : Wire) : Prop :=
  if field = "type" then FitsString v else FitsInt64 v

/-- Every member of the message that stands for its timestamp is null or an
integer of 64 bits. -/
def TimesFit (text : Bytes → Option Wire) (data : Bytes) : Prop :=
  ∀ members, text data = some (.object members) → ∀ m ∈ members,
    fieldOf eStopNames m.1 = some "t" → FitsInt64 m.2

theorem decodeInt64_isSome {old : Int} {v : Wire} :
    (decodeInt64 old v).isSome = true ↔ FitsInt64 v := by
  cases v <;> simp [decodeInt64, FitsInt64]

theorem decodeString_isSome {old : String} {v : Wire} :
    (decodeString old v).isSome = true ↔ FitsString v := by
  cases v <;> simp [decodeString, FitsString]

theorem setEStop_isSome (s : String × EStopMessage) (field : String) (v : Wire) :
    (setEStop s field v).isSome = true ↔ FitsEStop field v := by
  unfold setEStop FitsEStop
  by_cases h : field = "type"
  · rw [if_pos h, if_pos h, Option.isSome_map, decodeString_isSome]
  · rw [if_neg h, if_neg h, Option.isSome_map, decodeInt64_isSome]

/-- A key that stands for the type does so in both structs. -/
theorem fieldOf_type (key : String) :
    fieldOf ["type"] key = some "type" ↔ fieldOf eStopNames key = some "type" := by
  by_cases htype : "type" = key
  · subst htype
    exact iff_of_true rfl rfl
  · by_cases ht : "t" = key
    · subst ht
      exact iff_of_false (by decide) (by decide)
    · by_cases hfold : SignalField.foldName "type" = SignalField.foldName key
      · simp [fieldOf, eStopNames, htype, ht, hfold]
      · by_cases hfold' : SignalField.foldName "t" = SignalField.foldName key
        · simp [fieldOf, eStopNames, htype, ht, hfold, hfold']
        · simp [fieldOf, eStopNames, htype, ht, hfold, hfold']

theorem fieldOf_mem {names : List String} {key field : String}
    (h : fieldOf names key = some field) : field ∈ names := by
  unfold fieldOf at h
  split at h
  next name hname =>
    cases h
    exact List.mem_of_find?_eq_some hname
  · exact List.mem_of_find?_eq_some h

/-- What has decoded into the base message decodes into an e-stop iff its
timestamps fit. -/
theorem unmarshalEStop_isSome {members : List (String × Wire)}
    (hbase : (unmarshalBase (.object members)).isSome = true) :
    (unmarshalEStop (.object members)).isSome = true ↔
      ∀ m ∈ members, fieldOf eStopNames m.1 = some "t" → FitsInt64 m.2 := by
  have htypes : ∀ m ∈ members, fieldOf ["type"] m.1 = some "type" → FitsString m.2 := by
    have hset : ∀ (s field : String) (v : Wire), (setBase s field v).isSome = true ↔ FitsString v :=
      fun _ _ _ => decodeString_isSome
    unfold unmarshalBase decodeStruct at hbase
    rw [Option.isSome_map] at hbase
    exact fun m hm h => (isSome_foldlM hset members "").mp hbase m hm "type" h
  unfold unmarshalEStop decodeStruct
  rw [Option.isSome_map]
  refine (isSome_foldlM setEStop_isSome members _).trans ⟨fun h m hm hfield => ?_,
    fun h m hm field hfield => ?_⟩
  · have hfits := h m hm "t" hfield
    unfold FitsEStop at hfits
    rwa [if_neg (by decide)] at hfits
  · unfold FitsEStop
    have hmem := fieldOf_mem hfield
    simp only [List.mem_cons, List.not_mem_nil, or_false] at hmem
    rcases hmem with rfl | rfl
    · rw [if_pos rfl]
      exact htypes m hm ((fieldOf_type m.1).mpr hfield)
    · rw [if_neg (by decide)]
      exact h m hm hfield

/-- An e-stop by its type decodes as one iff its timestamps fit. -/
theorem decoder_eStop_isSome {text : Bytes → Option Wire} {others : Decoder} {data : Bytes}
    (htype : (decoder text others).base data = some .eStop) :
    ((decoder text others).eStop data).isSome = true ↔ TimesFit text data := by
  change (text data).bind unmarshalBase = some .eStop at htype
  show ((text data).bind unmarshalEStop).isSome = true ↔ _
  unfold TimesFit
  cases hv : text data with
  | none =>
    rw [hv] at htype
    cases htype
  | some v =>
    rw [hv, Option.bind_some] at htype
    cases v with
    | object members =>
      refine (unmarshalEStop_isSome (by rw [htype]; rfl)).trans ⟨?_, fun h => h members rfl⟩
      rintro h _ ⟨⟩
      exact h
    | _ => simp [unmarshalBase, decodeStruct, messageType] at htype

end Wire

/-! ## The stop -/

/-- `OnEStop` is called before the robot is, and the robot's `EStop` is called
after it. -/
def StopsFirst (es : List Entry) : Prop :=
  ∃ before after, es = before ++ ⟨.onEStop, ()⟩ :: after ∧ robotCalls before = [] ∧
    ∃ r, (.eStop, r) ∈ robotCalls after

/-- Stopped, and no valid control message brings the robot back. -/
def HaltedForGood (a : Agent) : Prop := a.safety.stopped = true ∧ a.safety.inControlLoss = false

theorem onEStop_halted (ext : External) (a : Agent) : HaltedForGood (sem ext .onEStop a).2 := by
  have hmonitor : (sem ext .onEStop a).2.safety = (Monitor.triggerSafeStop
      (some (Agent.onSafeStop ext)) .eStop { a.safety with inControlLoss := false } a).1 := rfl
  unfold HaltedForGood
  rw [hmonitor]
  rcases Monitor.triggerSafeStop_cases (Agent.onSafeStop ext) .eStop
    { a.safety with inControlLoss := false } a with ⟨hstopped, h⟩ | ⟨-, h⟩
  · rw [h]
    exact ⟨hstopped, rfl⟩
  · rw [h]
    exact ⟨rfl, rfl⟩

namespace Handler

/-- Of a decoded e-stop, the agent that `OnEStop` and the robot's `EStop`
leave. -/
theorem eStop_exec (ext : External) (v : Validator) {decode : Decoder} {data : Bytes}
    {msg : EStopMessage} {a : Agent} (hb : decode.base data = some .eStop)
    (hd : decode.eStop data = some msg) (hactive : a.sessionMgr.isActive = true) :
    (((full v).handleMessage decode data).exec (sem ext) a).2 =
      ((sem ext .onEStop a).2.callRobot ext .eStop).2 := by
  have hswitch : ((full v).handleMessage decode data).exec (sem ext) a =
      ((full v).dispatch .eStop (some msg) EStopMessage.t (full v).handleEStop).exec (sem ext) a := by
    rw [← hd]
    simp only [handleMessage, hb, isSessionActive, full, if_true, Prog.perform_bind, Prog.exec_op,
      sem, hactive]
    rfl
  rw [hswitch]
  cases hr : ext.robot (a.onMonitor (Monitor.onEStop (some (Agent.onSafeStop ext)))).calls
      .eStop with
  | error err =>
    simp [dispatch, handleEStop, Validator.validateEStop, full, sem, Agent.callRobot, hr]
  | ok _ =>
    simp [dispatch, handleEStop, Validator.validateEStop, full, sem, Agent.callRobot, hr]

variable {ext : External} {v : Validator} {decode : Decoder} {data : Bytes} {a : Agent}
  {es : List Entry} {reply : Reply}

/-- The operations of a decoded e-stop. -/
theorem Handled.eStop_entries (h : Handled ext v decode data a es reply)
    (hactive : a.sessionMgr.isActive = true) {msg : EStopMessage}
    (hmessage : decode.message data = some (.eStop msg)) :
    ∃ r, es = [⟨.isActive, true⟩, ⟨.onEStop, ()⟩, ⟨.robot .eStop, r⟩] := by
  have hnot {m : Message} (hm : decode.message data = some m) (hne : m ≠ .eStop msg) : False :=
    hne (Option.some.inj (hm.symm.trans hmessage))
  cases h with
  | undecodable hb => simp [Decoder.message, hb] at hmessage
  | inactive _ hinactive => simp [hinactive] at hactive
  | misfit _ hm => simp [hm] at hmessage
  | unknown _ hm => exact (hnot hm (by simp)).elim
  | ping _ hm => exact (hnot hm (by simp)).elim
  | noScope _ hm hmotion _ => exact (hnot hm (by rintro rfl; cases hmotion)).elim
  | rejected _ hm hmotion _ _ => exact (hnot hm (by rintro rfl; cases hmotion)).elim
  | refused _ _ hm hmotion _ _ _ => exact (hnot hm (by rintro rfl; cases hmotion)).elim
  | moved _ hm hmotion _ _ _ => exact (hnot hm (by rintro rfl; cases hmotion)).elim
  | stopped _ _ r => exact ⟨r, rfl⟩

end Handler

theorem StopsFirst.callback {es : List Entry} (h : StopsFirst es) : .onEStop ∈ callbacks es := by
  obtain ⟨before, after, rfl, -, -⟩ := h
  unfold callbacks
  rw [List.filterMap_append, List.mem_append]
  exact .inr List.mem_cons_self

/-- An e-stop of an active session stops the monitor and then the robot, for
good, iff its timestamps are null or integers of 64 bits. -/
theorem eStop_iff (ext : External) (v : Validator) (text : Bytes → Option Wire) (others : Decoder)
    {data : Bytes} {a : Agent} (htype : (Wire.decoder text others).base data = some .eStop)
    (hactive : a.sessionMgr.isActive = true) :
    (StopsFirst (((Handler.full v).handleMessage (Wire.decoder text others) data).log (sem ext) a) ∧
      HaltedForGood
        (((Handler.full v).handleMessage (Wire.decoder text others) data).exec (sem ext) a).2) ↔
      Wire.TimesFit text data := by
  have hhandled := Handler.handleMessage_handled ext v (Wire.decoder text others) data a
  have hmessage : (Wire.decoder text others).message data =
      ((Wire.decoder text others).eStop data).map .eStop := by
    unfold Decoder.message
    rw [htype]
    rfl
  rw [← Wire.decoder_eStop_isSome htype]
  cases hd : (Wire.decoder text others).eStop data with
  | none =>
    -- it counts as an invalid command, and nobody is told to stop
    rw [hd] at hmessage
    refine iff_of_false (fun h => ?_) (by simp)
    have hcallback := h.1.callback
    rw [(hhandled.notified hactive).invalid (.inl hmessage)] at hcallback
    simp at hcallback
  | some msg =>
    rw [hd] at hmessage
    refine iff_of_true ⟨?_, ?_⟩ rfl
    · obtain ⟨r, hes⟩ := hhandled.eStop_entries hactive hmessage
      rw [hes]
      exact ⟨[⟨.isActive, true⟩], [⟨.robot .eStop, r⟩], rfl, rfl, r, List.mem_singleton_self _⟩
    · rw [Handler.eStop_exec ext v htype hd hactive]
      exact onEStop_halted ext a

namespace Sample

/-- An e-stop in the middle of a millisecond. -/
def fractional : Bytes := bytes "\x7b\"type\":\"e_stop\",\"t\":1767225600000.5\x7d"

/-- The two e-stops as they are written. -/
def text (data : Bytes) : Option Wire :=
  if data = eStop then
    some (.object [("type", .string "e_stop"), ("t", .number "1767225600000")])
  else if data = fractional then
    some (.object [("type", .string "e_stop"), ("t", .number "1767225600000.5")])
  else none

theorem text_eStop : text eStop =
    some (.object [("type", .string "e_stop"), ("t", .number "1767225600000")]) := if_pos rfl

theorem active_isActive : active.sessionMgr.isActive = true := by decide +kernel

end Sample

open Sample in
theorem eStop_sample :
    StopsFirst ((Handler.wired.handleMessage (Wire.decoder text decode) eStop).log (sem ext) active) ∧
      HaltedForGood
        ((Handler.wired.handleMessage (Wire.decoder text decode) eStop).exec (sem ext) active).2 := by
  have htype : (Wire.decoder text decode).base eStop = some .eStop := by decide +kernel
  refine (eStop_iff ext ⟨200 * millisecond⟩ text decode htype active_isActive).mpr ?_
  intro members hmembers m hm hfield
  rw [text_eStop] at hmembers
  cases hmembers
  simp only [List.mem_cons, List.not_mem_nil, or_false] at hm
  rcases hm with rfl | rfl
  · exact absurd hfield (by decide)
  · exact .inr ⟨_, rfl, by decide +kernel⟩

open Sample in
/-- The e-stop with a fraction is an invalid command: the robot is not called
and the monitor is not stopped. -/
theorem eStop_fails :
    (Wire.decoder text decode).base fractional = some .eStop ∧
    active.sessionMgr.isActive = true ∧
    callbacks ((Handler.wired.handleMessage (Wire.decoder text decode) fractional).log (sem ext)
      active) = [.onInvalidCommand] ∧
    (robotCalls ((Handler.wired.handleMessage (Wire.decoder text decode) fractional).log (sem ext)
      active)).length = 0 ∧
    ((Handler.wired.handleMessage (Wire.decoder text decode) fractional).exec (sem ext)
      active).2.safety.stopped = false := by
  refine ⟨?_, active_isActive, ?_⟩
  · decide +kernel
  · decide +kernel

end ChainKVM.Robot
