import ChainKVM.Robot.SafeStop

/-!
# Sessions and the expiry of their tokens

A session should not outlive its capability token: once the token has expired,
clock skew included, nothing moves the robot for the session
(`Timely`). The agent looks at the expiry when the token is offered and then
puts it into the session's `Info`, where nothing reads it: `OnTokenExpired` is
never called, and the handler asks for the session's state and scope only. So
the property holds of a run iff no motion command happens to arrive later
(`timely_iff`).
-/

namespace ChainKVM.Robot

open Machine (run Steps)

/-- A step moves the robot iff its event carries a motion that is
dispatched. -/
theorem CoreStep.noMotion_iff {ext : External} {c c' : Core} {e : Event}
    (h : CoreStep ext c e c') : c.NoMotion c' ↔ e.motion ext c = none := by
  constructor
  · intro hno
    cases hm : e.motion ext c with
    | none => rfl
    | some call =>
      have hissued : c'.calls = call :: c.calls ∧ call.isMotion = true := by
        cases h with
        | @message ch data acc _ hd heffect =>
          have hsome : Handler.wired.motionOf ext.decode c data = some call := by
            simpa [Event.motion, hd] using hm
          refine ⟨?_, Handler.motionOf_isMotion hsome⟩
          cases heffect with
          | moved hm' _ =>
            rw [hsome] at hm'
            cases hm'
            rfl
          | refused hm' _ =>
            rw [hsome] at hm'
            cases hm'
            rfl
          | ignored hm' | invalid hm' _ | eStop hm' _ | heartbeat hm' _ =>
            rw [hsome] at hm'
            cases hm'
        | undelivered hd => simp [Event.motion, hd] at hm
        | _ => cases hm
      -- the motion is the one new call, and a quiet step has no such call
      obtain ⟨new, hnew, hquiet⟩ := hno
      rw [hissued.1] at hnew
      have hone : new = [call] := by
        have hlist : [call] ++ c.calls = new ++ c.calls := hnew
        exact (List.append_cancel_right hlist).symm
      have hfalse := hquiet call (by rw [hone]; exact List.mem_cons_self)
      rw [hissued.2] at hfalse
      cases hfalse
  · exact h.noMotion

/-- The event does not move the robot if the active session's token has
expired. -/
def Timely (ext : External) (skew : Duration) (a : Agent) (e : Event) : Prop :=
  ∀ info, a.sessionMgr.info = some info → info.expiresAt + skew < a.now →
    a.toCore.NoMotion (a.step ext e).toCore

/-- The event is no message that would be dispatched as a motion after the
active session's token has expired. -/
def ArrivesInTime (ext : External) (skew : Duration) (a : Agent) (e : Event) : Prop :=
  ∀ info, a.sessionMgr.info = some info → info.expiresAt + skew < a.now →
    e.motion ext a.toCore = none

/-- No session outlives its token in a run iff no message that is dispatched
as a motion arrives after the token has expired. -/
theorem timely_iff (ext : External) (now : Time) (cfg : Agent.Config)
    (tokenValidator : Option TokenValidator) (skew : Duration) (es : List Event) :
    Steps (Agent.step ext) (Timely ext skew) (.init now cfg tokenValidator) es ↔
      Steps (Agent.step ext) (ArrivesInTime ext skew) (.init now cfg tokenValidator) es := by
  have hstep (a : Agent) (e : Event) : Timely ext skew a e ↔ ArrivesInTime ext skew a e := by
    refine forall_congr' fun info => imp_congr_right fun _ => imp_congr_right fun _ => ?_
    exact (step_core ext a e).noMotion_iff
  exact ⟨Steps.imp fun a e => (hstep a e).mp, Steps.imp fun a e => (hstep a e).mpr⟩

/-! ## A session that goes on -/

namespace Sample

/-- A drive command of the year 2100. -/
def lateDrive : Bytes := bytes "\x7b\"type\":\"drive\",\"v\":1,\"w\":0,\"t\":4102444831000\x7d"

/-- The robot, with a decoder that reads it. -/
def lateExt : External where
  robot := ext.robot
  parse := ext.parse
  decode :=
    { decode with
      base := fun data => if data = lateDrive then some .drive else decode.base data
      drive := fun data => if data = lateDrive then some ⟨1, 0, 4102444831000⟩ else decode.drive data }

/-- The session starts a second before its token expires. A ping and a drive
command arrive 32 seconds later. -/
def outlives : List Event :=
  signOn ++ [.elapse 32000000000, message 0 ping, message 0 lateDrive]

end Sample

/-- The robot is driven after the token has expired. -/
theorem timely_fails :
    ¬ ∀ (ext : External) (now : Time) (cfg : Agent.Config) (publicKey : List UInt8)
      (es : List Event), Steps (Agent.step ext) (Timely ext (30 * second))
        (.init now cfg (some ⟨publicKey, cfg.robotID, 30 * second⟩)) es := by
  intro h
  have hsteps := (timely_iff _ _ _ _ _ _).mp
    (h Sample.lateExt (unixMilli 4102444799000) Sample.config Sample.publicKey Sample.outlives)
  obtain ⟨-, -, -, -, -, hlast, -⟩ := hsteps
  have hnone := hlast Sample.info (by decide +kernel) (by decide +kernel)
  exact absurd hnone (by decide +kernel)

end ChainKVM.Robot
