import ChainKVM.Lib.Observer
import ChainKVM.Lib.Permits
import ChainKVM.Robot.Collectors
import ChainKVM.Robot.Interleave

/-!
# The agent with everything it measures: `cmd/agent/handlers_helpers.go`

`Agent` leaves out two measurements that the handlers make on the side: how
long a session takes to set up, and round trips of pings. Here they are, as
observations (`ObserveOp`) among the operations of the same handlers, with a
goroutine of their own for the pings. Everything can be interleaved with
everything.

Two things are shown. The measurements change nothing: a run of the measured
agent is a run of the agent (`measured_refines`), so what holds of all runs of
the agent holds with them. And they are made once: of all the offers that a
process handles, at most one set-up is recorded and at most one ping ticker is
created, because a session is activated at most once (`measured_once`).

Marshalling a ping does not fail, and neither transport nor collectors are nil.
-/

namespace ChainKVM.Robot

open Machine (Always run)
open Prog (Affords Erases Silent unobserved)

/-! ## What is measured -/

/-- The stages of a set-up after the first. -/
inductive SetupStage where
  | tokenValidated
  | answerSent
  | connectionEstablished
  | dataChannelReady
  deriving DecidableEq, Repr

/-- `&SessionSetupTimestamps{SessionID, OfferReceived}`. -/
def SessionSetupTimestamps.start (sessionID : String) (now : Time) : SessionSetupTimestamps :=
  ⟨sessionID, now, zeroTime, zeroTime, zeroTime, zeroTime⟩

/-- Set the time of one stage. -/
def SessionSetupTimestamps.stamp (ts : SessionSetupTimestamps) (now : Time) :
    SetupStage → SessionSetupTimestamps
  | .tokenValidated => { ts with tokenValidated := now }
  | .answerSent => { ts with answerSent := now }
  | .connectionEstablished => { ts with connectionEstablished := now }
  | .dataChannelReady => { ts with dataChannelReady := now }

/-- The agent's other books. Tickers are numbered; `stopped` are those that
were stopped, `launched` counts the goroutines that have not begun, `pings`
are the pings sent (newest first), and `panicked` says that a goroutine has
found no ticker. -/
structure Books where
  currentSessionSetup : Option SessionSetupTimestamps
  sessionSetupMetrics : SessionSetupCollector
  controlRTTMetrics : ControlRTTCollector
  pingTicker : Option Nat
  tickers : Nat
  stopped : List Nat
  launched : Nat
  pings : List (Nat × PingMessage)
  panicked : Bool

/-- As `initComponents` makes them. -/
def Books.new : Books where
  currentSessionSetup := none
  sessionSetupMetrics := .new 100
  controlRTTMetrics := .new 1000
  pingTicker := none
  tickers := 0
  stopped := []
  launched := 0
  pings := []
  panicked := false

namespace Books

/-- `recordSessionSetupTimestamp`. -/
def recordSessionSetupTimestamp (b : Books) (now : Time) (stage : SetupStage) : Books :=
  match b.currentSessionSetup with
  | none => b
  | some ts => { b with currentSessionSetup := some (ts.stamp now stage) }

/-- `completeSessionSetupMeasurement`. -/
def completeSessionSetupMeasurement (b : Books) : Books :=
  match b.currentSessionSetup with
  | none => b
  | some ts =>
    { b with
      sessionSetupMetrics := b.sessionSetupMetrics.record ts
      currentSessionSetup := none }

/-- `startControlRTTMeasurement`: a new ticker, and a goroutine for it. -/
def startControlRTTMeasurement (b : Books) : Books :=
  { b with
    pingTicker := some b.tickers
    tickers := b.tickers + 1
    launched := b.launched + 1 }

/-- `stopControlRTTMeasurement`. -/
def stopControlRTTMeasurement (b : Books) : Books :=
  match b.pingTicker with
  | none => b
  | some ticker => { b with stopped := ticker :: b.stopped, pingTicker := none }

/-- A goroutine begins: `range a.pingTicker.C` reads the ticker once. -/
def rangeOverTicker (b : Books) : Option Nat × Books :=
  if b.launched = 0 then (none, b)
  else
    match b.pingTicker with
    | none => (none, { b with launched := b.launched - 1, panicked := true })
    | some ticker => (some ticker, { b with launched := b.launched - 1 })

end Books

/-! ## Operations -/

/-- The operations that only measure. -/
inductive ObserveOp where
  | startSetup (sessionID : String)
  | stampSetup (stage : SetupStage)
  | completeSetup
  | startPings
  | stopPings
  | rangeOverTicker
  | ticks (ticker : Nat)
  | generatePing
  | sendPing (ping : PingMessage) (sent : Bool)
  | recordPong (pong : PongMessage)

/-- Their answers. -/
abbrev ObserveOp.Ans : ObserveOp → Type
  | .rangeOverTicker => Option Nat
  | .ticks _ => Bool
  | .generatePing => PingMessage
  | .sendPing _ _ => Bool
  | _ => Unit

/-- What they do: they look at the agent and write in the books. A stopped
ticker does not tick; a ping is sent on the agent's data channel, if there is
one and the channel takes it. -/
def observation : (o : ObserveOp) → Agent → Books → o.Ans × Books
  | .startSetup sid, a, b => ((), { b with currentSessionSetup := some (.start sid a.now) })
  | .stampSetup stage, a, b => ((), b.recordSessionSetupTimestamp a.now stage)
  | .completeSetup, _, b => ((), b.completeSessionSetupMeasurement)
  | .startPings, _, b => ((), b.startControlRTTMeasurement)
  | .stopPings, _, b => ((), b.stopControlRTTMeasurement)
  | .rangeOverTicker, _, b => b.rangeOverTicker
  | .ticks ticker, _, b => (!b.stopped.contains ticker, b)
  | .generatePing, a, b =>
    let generated := b.controlRTTMetrics.generatePing a.now a.now
    (generated.1, { b with controlRTTMetrics := generated.2 })
  | .sendPing ping sent, a, b =>
    match a.transport.dc with
    | none => (false, b)
    | some dc => if sent then (true, { b with pings := (dc, ping) :: b.pings }) else (false, b)
  | .recordPong pong, a, b =>
    ((), { b with controlRTTMetrics := b.controlRTTMetrics.recordPong a.now pong })

/-- A handler with its observations. -/
abbrev MeasuredProg (α : Type) := Prog (AgentOp ⊕ ObserveOp) (BothAns AgentOp.Ans ObserveOp.Ans) α

/-- Perform an operation of the agent. -/
abbrev act (o : AgentOp) : MeasuredProg o.Ans := Prog.perform (Sum.inl o)

/-- Observe. -/
abbrev note (o : ObserveOp) : MeasuredProg o.Ans := Prog.perform (Sum.inr o)

/-! ## The handlers -/

namespace Instrumented

/-- `OnOffer`; `sent` says whether the answer could be sent. -/
def onOffer (sessionID token : String) (sdpData : Bytes) (create : Except String Unit)
    (negotiate : Bytes → Except String Bytes) (sent : Bool) : MeasuredProg Unit := do
  note (.startSetup sessionID)
  match ← act (.validateToken sessionID token) with
  | .error _ => pure ()
  | .ok info => do
    note (.stampSetup .tokenValidated)
    match ← act (.createPeerConnection create) with
    | .error _ => pure ()
    | .ok () => do
      act (.setICECallback sessionID)
      act .setDataHandler
      act (.setStateCallback info)
      match ← act (.handleOffer negotiate sdpData) with
      | .error _ => pure ()
      | .ok answer => do
        act (.signal (.answer sessionID answer))
        if sent then note (.stampSetup .answerSent) else pure ()

/-- The state callback that `OnOffer` registers. -/
def onStateChange (info : Info) (state : PeerConnectionState) : MeasuredProg Unit :=
  match state with
  | .connected => do
    note (.stampSetup .connectionEstablished)
    match ← act (.activate info) with
    | .error _ => pure ()
    | .ok () => do
      note (.stampSetup .dataChannelReady)
      note .completeSetup
      act .reset
      note .startPings
  | .failed | .closed => act .terminate
  | _ => pure ()

/-- `onDataMessage`: a pong goes to the collector as well. -/
def onDataMessage (ext : External) (data : Bytes) : MeasuredProg Unit :=
  match ext.decode.base data with
  | some .pong =>
    match ext.decode.pong data with
    | some pong => do
      act (.recordPong pong)
      note (.recordPong pong)
    | none => pure ()
  | _ => do
    match ← unobserved (Handler.wired.handleMessage ext.decode data) with
    | .ok (some ack) => act (.sendData (.ack ack))
    | _ => pure ()

/-- `shutdown`. -/
def shutdown : MeasuredProg Unit := do
  note .stopPings
  act .onRevoked
  act .closeTransport

/-- The loop of a ping goroutine over some ticks, each with the outcome of its
`SendData`, from `consecutiveSendErrors` on: the third error in a row stops
the agent's ticker and ends the loop. -/
def pingLoop (ticker : Nat) : List Bool → Nat → MeasuredProg Unit
  | [], _ => pure ()
  | sent :: sends, consecutiveSendErrors => do
    if ← note (.ticks ticker) then
      if ← act .isActive then
        let ping ← note .generatePing
        if ← note (.sendPing ping sent) then pingLoop ticker sends 0
        else if 3 ≤ consecutiveSendErrors + 1 then note .stopPings
        else pingLoop ticker sends (consecutiveSendErrors + 1)
      else pingLoop ticker sends consecutiveSendErrors
    else pure ()

end Instrumented

/-- A task of the agent, or a ping goroutine. -/
inductive MeasuredTask where
  | task (t : Task) (sent : Bool)
  | pings (sends : List Bool)

namespace MeasuredTask

/-- What the task is to the agent. -/
def base : MeasuredTask → Option Task
  | .task t _ => some t
  | .pings _ => none

/-- The program of a task. -/
def code (ext : External) : MeasuredTask → MeasuredProg Unit
  | .task (.offer sid tok sdp create negotiate) sent =>
    Instrumented.onOffer sid tok sdp create negotiate sent
  | .task (.connState conn state) _ => do
    match ← act (.stateCallback conn) with
    | none => pure ()
    | some info => Instrumented.onStateChange info state
  | .task (.message ch data) _ => do
    if ← act (.delivers ch) then Instrumented.onDataMessage ext data else pure ()
  | .task .shutdown _ => Instrumented.shutdown
  | .task t _ => unobserved (t.code ext)
  | .pings sends => do
    match ← note .rangeOverTicker with
    | none => pure ()
    | some ticker => Instrumented.pingLoop ticker sends 0

end MeasuredTask

/-- The agent with its books and its handlers in progress. -/
abbrev Instrumented :=
  Pool MeasuredTask (AgentOp ⊕ ObserveOp) (BothAns AgentOp.Ans ObserveOp.Ans) Unit
    (Agent × Books)

namespace Instrumented

/-- The agent as the process starts. -/
def init (now : Time) (cfg : Agent.Config) (tokenValidator : Option TokenValidator) :
    Instrumented :=
  ⟨(.init now cfg tokenValidator, .new), []⟩

/-- The passing of time. -/
def elapse (d : Nat) (s : Agent × Books) : Agent × Books := (s.1.elapse d, s.2)

/-- One move. -/
def step (ext : External) : Instrumented → Move MeasuredTask Nat → Instrumented :=
  Pool.step (MeasuredTask.code ext) (observe (sem ext) observation) elapse

/-! ## The measurements change nothing -/

/-- What the ping goroutine asks the agent. -/
def reads (o : AgentOp) : Prop := o = .isActive

theorem sem_of_reads {ext : External} {o : AgentOp} {a : Agent} (h : reads o) :
    (sem ext o a).2 = a := by
  obtain rfl : o = .isActive := h
  rfl

theorem pingLoop_silent (ticker : Nat) (sends : List Bool) :
    ∀ errors, Silent reads (pingLoop ticker sends errors) := by
  induction sends with
  | nil => exact fun _ => trivial
  | cons sent sends ih =>
    intro errors ticks
    cases ticks with
    | false => trivial
    | true =>
      refine ⟨rfl, fun active => ?_⟩
      cases active with
      | false => exact ih errors
      | true =>
        intro ping taken
        cases taken with
        | true => exact ih 0
        | false =>
          show Silent reads (if 3 ≤ errors + 1 then note .stopPings else pingLoop ticker sends
            (errors + 1))
          split
          · exact fun _ => trivial
          · exact ih (errors + 1)

theorem onOffer_erases (sessionID token : String) (sdpData : Bytes) (create : Except String Unit)
    (negotiate : Bytes → Except String Bytes) (sent : Bool) :
    Erases (onOffer sessionID token sdpData create negotiate sent)
      (Robot.onOffer sessionID token sdpData create negotiate) := by
  refine fun _ => ⟨_, rfl, fun r => ?_⟩
  cases r with
  | error err => rfl
  | ok info =>
    refine fun _ => ⟨_, rfl, fun r => ?_⟩
    cases r with
    | error err => rfl
    | ok _ =>
      refine ⟨_, rfl, fun _ => ⟨_, rfl, fun _ => ⟨_, rfl, fun _ => ⟨_, rfl, fun r => ?_⟩⟩⟩⟩
      cases r with
      | error err => rfl
      | ok answer =>
        refine ⟨_, rfl, fun _ => ?_⟩
        cases sent with
        | true => exact fun _ => rfl
        | false => rfl

theorem onStateChange_erases (info : Info) (state : PeerConnectionState) :
    Erases (onStateChange info state) (Robot.onStateChange info state) := by
  cases state with
  | connected =>
    refine fun _ => ⟨_, rfl, fun r => ?_⟩
    cases r with
    | error err => rfl
    | ok _ => exact fun _ _ => ⟨_, rfl, fun _ _ => rfl⟩
  | failed => exact ⟨_, rfl, fun _ => rfl⟩
  | closed => exact ⟨_, rfl, fun _ => rfl⟩
  | _ => rfl

theorem onDataMessage_erases (ext : External) (data : Bytes) :
    Erases (onDataMessage ext data) (Robot.onDataMessage ext data) := by
  have hother : Erases
      (do
        match ← unobserved (Handler.wired.handleMessage ext.decode data) with
        | .ok (some ack) => act (.sendData (.ack ack))
        | _ => pure () : MeasuredProg Unit)
      (do
        match ← Handler.wired.handleMessage ext.decode data with
        | .ok (some ack) => perform (.sendData (.ack ack))
        | _ => pure ()) := by
    refine (Prog.erases_unobserved _).bind fun r => ?_
    split
    · exact ⟨_, rfl, fun _ => rfl⟩
    · rfl
  unfold onDataMessage Robot.onDataMessage
  cases ext.decode.base data with
  | none => exact hother
  | some type =>
    cases type with
    | pong =>
      cases ext.decode.pong data with
      | none => rfl
      | some pong => exact ⟨_, rfl, fun _ _ => rfl⟩
    | _ => exact hother

end Instrumented

theorem MeasuredTask.code_erases (ext : External) {t' : MeasuredTask} {t : Task}
    (h : t'.base = some t) : Erases (t'.code ext) (t.code ext) := by
  cases t' with
  | pings sends => cases h
  | task t₀ sent =>
    obtain rfl : t₀ = t := Option.some.inj h
    cases t₀ with
    | offer sid tok sdp create negotiate =>
      exact Instrumented.onOffer_erases sid tok sdp create negotiate sent
    | connState conn state =>
      refine ⟨_, rfl, fun r => ?_⟩
      cases r with
      | none => rfl
      | some info => exact Instrumented.onStateChange_erases info state
    | message ch data =>
      refine ⟨_, rfl, fun r => ?_⟩
      cases r with
      | false => rfl
      | true => exact Instrumented.onDataMessage_erases ext data
    | shutdown => exact fun _ => ⟨_, rfl, fun _ => ⟨_, rfl, fun _ => rfl⟩⟩
    | _ => exact Prog.erases_unobserved _

theorem MeasuredTask.code_silent (ext : External) {t' : MeasuredTask} (h : t'.base = none) :
    Silent Instrumented.reads (t'.code ext) := by
  cases t' with
  | task t sent => cases h
  | pings sends =>
    intro r
    cases r with
    | none => trivial
    | some ticker => exact Instrumented.pingLoop_silent ticker sends 0

/-- An activation pays for what follows it: `setups` for a set-up that is
recorded, `tickers` for a ticker. -/
def price (setups tickers : Nat) : AgentOp ⊕ ObserveOp → Nat
  | .inr .completeSetup => setups
  | .inr .startPings => tickers
  | _ => 0

/-- An activation that succeeds brings one permit. -/
def earned : (o : AgentOp ⊕ ObserveOp) → BothAns AgentOp.Ans ObserveOp.Ans o → Nat
  | .inl (.activate _), .ok () => 1
  | _, _ => 0

/-- One once the session has been earned or ended. -/
def Agent.begun (a : Agent) : Nat := if a.sessionMgr.state = .pending then 0 else 1

/-- Whatever happens, a session that has begun has begun, and it is earned
only before. -/
theorem begun_sem (ext : External) (o : AgentOp) (a : Agent) :
    a.begun + earned (.inl o) (sem ext o a).1 ≤ (sem ext o a).2.begun := by
  have hframe : ∀ {c : Core}, c.sessionMgr = a.sessionMgr →
      a.begun ≤ if c.sessionMgr.state = .pending then 0 else 1 := fun hc => by
    rw [hc]
    exact Nat.le_refl _
  cases o with
  | validateToken sid tok =>
    show a.begun ≤ if (a.sessionMgr.validateToken ext.parse a.now sid tok).2.state = .pending then 0
      else 1
    rw [(a.sessionMgr.validateToken_frame ext.parse a.now sid tok).1]
    exact Nat.le_refl _
  | activate info =>
    show a.begun + earned (.inl (.activate info)) (a.sessionMgr.activate info).1 ≤
      if (a.sessionMgr.activate info).2.state = .pending then 0 else 1
    rcases a.sessionMgr.activate_cases info with
      ⟨hpending, hok, hactive, -⟩ | ⟨-, ⟨err, herr⟩, hsame⟩
    · rw [hok, hactive]
      simp [Agent.begun, hpending, earned]
    · rw [herr, hsame]
      exact Nat.le_refl _
  | terminate =>
    show a.begun ≤ if a.sessionMgr.terminate.state = .pending then 0 else 1
    rw [a.sessionMgr.terminate_state]
    unfold Agent.begun
    split <;> decide
  | onInvalidCommand => exact hframe (a.invalidCommand_count ext).frame.1
  | onEStop => exact hframe (a.nonRecoverable_latch ext .eStop).frame.1
  | onTokenExpired => exact hframe (a.nonRecoverable_latch ext .tokenExpired).frame.1
  | onRevoked => exact hframe (a.nonRecoverable_latch ext .revoked).frame.1
  | checkControlLoss => exact hframe (a.checkControlLoss_check ext).frame.1
  | sendData msg => exact hframe (congrArg Core.sessionMgr (a.sendData_core msg))
  | _ => exact Nat.le_refl _

section Once

variable {setups tickers : Nat} (honce : setups + tickers ≤ 1)

theorem affords_unobserved {α : Type} (p : AgentProg α) (n : Nat) :
    Affords (price setups tickers) earned n (unobserved p : MeasuredProg α) := by
  induction p generalizing n with
  | ret a => trivial
  | op o k ih => exact ⟨Nat.zero_le n, fun r => ih r _⟩

theorem Instrumented.pingLoop_affords (ticker : Nat) (sends : List Bool) :
    ∀ errors,
      Affords (price setups tickers) earned 0 (Instrumented.pingLoop ticker sends errors) := by
  induction sends with
  | nil => exact fun _ => trivial
  | cons sent sends ih =>
    refine fun errors => ⟨Nat.le_refl _, fun ticks => ?_⟩
    cases ticks with
    | false => trivial
    | true =>
      refine ⟨Nat.le_refl _, fun active => ?_⟩
      cases active with
      | false => exact ih errors
      | true =>
        refine ⟨Nat.le_refl _, fun ping => ⟨Nat.le_refl _, fun taken => ?_⟩⟩
        cases taken with
        | true => exact ih 0
        | false =>
          show Affords _ _ 0 (if 3 ≤ errors + 1 then note .stopPings else
            Instrumented.pingLoop ticker sends (errors + 1))
          split
          · exact ⟨Nat.le_refl _, fun _ => trivial⟩
          · exact ih (errors + 1)

theorem Instrumented.onOffer_affords (sessionID token : String) (sdpData : Bytes)
    (create : Except String Unit) (negotiate : Bytes → Except String Bytes) (sent : Bool) :
    Affords (price setups tickers) earned 0
      (Instrumented.onOffer sessionID token sdpData create negotiate sent) := by
  refine ⟨Nat.le_refl _, fun _ => ⟨Nat.le_refl _, fun r => ?_⟩⟩
  cases r with
  | error err => trivial
  | ok info =>
    refine ⟨Nat.le_refl _, fun _ => ⟨Nat.le_refl _, fun r => ?_⟩⟩
    cases r with
    | error err => trivial
    | ok _ =>
      refine ⟨Nat.le_refl _, fun _ => ⟨Nat.le_refl _, fun _ => ⟨Nat.le_refl _, fun _ =>
        ⟨Nat.le_refl _, fun r => ?_⟩⟩⟩⟩
      cases r with
      | error err => trivial
      | ok answer =>
        refine ⟨Nat.le_refl _, fun _ => ?_⟩
        cases sent with
        | true => exact ⟨Nat.le_refl _, fun _ => trivial⟩
        | false => trivial

include honce in
/-- The callback pays with the activation it has just made. -/
theorem Instrumented.onStateChange_affords (info : Info) (state : PeerConnectionState) :
    Affords (price setups tickers) earned 0 (Instrumented.onStateChange info state) := by
  cases state with
  | connected =>
    refine ⟨Nat.le_refl _, fun _ => ⟨Nat.le_refl _, fun r => ?_⟩⟩
    cases r with
    | error err => trivial
    | ok _ =>
      refine ⟨Nat.zero_le _, fun _ => ⟨?_, fun _ => ⟨Nat.zero_le _, fun _ => ⟨?_, fun _ =>
        trivial⟩⟩⟩⟩
      · show setups ≤ 1
        omega
      · show tickers ≤ 1 - setups
        omega
  | failed => exact ⟨Nat.le_refl _, fun _ => trivial⟩
  | closed => exact ⟨Nat.le_refl _, fun _ => trivial⟩
  | _ => trivial

theorem Instrumented.onDataMessage_affords (ext : External) (data : Bytes) :
    Affords (price setups tickers) earned 0 (Instrumented.onDataMessage ext data) := by
  unfold Instrumented.onDataMessage
  split
  · split
    · exact ⟨Nat.le_refl _, fun _ => ⟨Nat.le_refl _, fun _ => trivial⟩⟩
    · trivial
  · refine (affords_unobserved _ 0).bind fun r => ?_
    split
    · exact ⟨Nat.le_refl _, fun _ => trivial⟩
    · trivial

include honce in
theorem MeasuredTask.code_affords (ext : External) (t : MeasuredTask) :
    Affords (price setups tickers) earned 0 (t.code ext) := by
  cases t with
  | pings sends =>
    refine ⟨Nat.le_refl _, fun r => ?_⟩
    cases r with
    | none => trivial
    | some ticker => exact Instrumented.pingLoop_affords ticker sends 0
  | task t sent =>
    cases t with
    | offer sid tok sdp create negotiate =>
      exact Instrumented.onOffer_affords sid tok sdp create negotiate sent
    | connState conn state =>
      refine ⟨Nat.le_refl _, fun r => ?_⟩
      cases r with
      | none => trivial
      | some info => exact Instrumented.onStateChange_affords honce info state
    | message ch data =>
      refine ⟨Nat.le_refl _, fun r => ?_⟩
      cases r with
      | false => trivial
      | true => exact Instrumented.onDataMessage_affords ext data
    | shutdown =>
      exact ⟨Nat.le_refl _, fun _ => ⟨Nat.le_refl _, fun _ => ⟨Nat.le_refl _, fun _ => trivial⟩⟩⟩
    | _ => exact affords_unobserved _ 0

end Once

/-- What has been paid for: set-ups recorded and tickers created. -/
def Books.spent (setups tickers : Nat) (b : Books) : Nat :=
  setups * b.sessionSetupMetrics.samples.length + tickers * b.tickers

/-- One more sample is at most one more in the buffer. -/
theorem Books.samples_complete (b : Books) :
    b.completeSessionSetupMeasurement.sessionSetupMetrics.samples.length ≤
      b.sessionSetupMetrics.samples.length + 1 := by
  unfold completeSessionSetupMeasurement
  split
  · exact Nat.le_succ _
  · show (Recent.push _ _ _).length ≤ _
    unfold Recent.push
    split <;> simp

/-- The other observations leave both alone. -/
theorem frame_observation {o : ObserveOp} (hsetup : o ≠ .completeSetup) (hpings : o ≠ .startPings)
    (a : Agent) (b : Books) :
    (observation o a b).2.sessionSetupMetrics = b.sessionSetupMetrics ∧
      (observation o a b).2.tickers = b.tickers := by
  cases o with
  | completeSetup => exact absurd rfl hsetup
  | startPings => exact absurd rfl hpings
  | stampSetup stage =>
    dsimp only [observation, Books.recordSessionSetupTimestamp]
    split <;> exact ⟨rfl, rfl⟩
  | stopPings =>
    dsimp only [observation, Books.stopControlRTTMeasurement]
    split <;> exact ⟨rfl, rfl⟩
  | rangeOverTicker =>
    dsimp only [observation, Books.rangeOverTicker]
    split
    · exact ⟨rfl, rfl⟩
    · split <;> exact ⟨rfl, rfl⟩
  | sendPing ping sent =>
    dsimp only [observation]
    split
    · exact ⟨rfl, rfl⟩
    · split <;> exact ⟨rfl, rfl⟩
  | _ => exact ⟨rfl, rfl⟩

/-- An observation spends its price. -/
theorem spent_observation (setups tickers : Nat) (o : ObserveOp) (a : Agent) (b : Books) :
    (observation o a b).2.spent setups tickers ≤
      b.spent setups tickers + price setups tickers (.inr o) := by
  by_cases hsetup : o = .completeSetup
  · subst hsetup
    have hsamples := Nat.mul_le_mul_left setups b.samples_complete
    have htickers : b.completeSessionSetupMeasurement.tickers = b.tickers := by
      unfold Books.completeSessionSetupMeasurement
      split <;> rfl
    show b.completeSessionSetupMeasurement.spent setups tickers ≤ b.spent setups tickers + setups
    unfold Books.spent
    rw [htickers]
    rw [Nat.mul_add, Nat.mul_one] at hsamples
    omega
  · by_cases hpings : o = .startPings
    · subst hpings
      show setups * b.sessionSetupMetrics.samples.length + tickers * (b.tickers + 1) ≤
        b.spent setups tickers + tickers
      unfold Books.spent
      rw [Nat.mul_add, Nat.mul_one]
      omega
    · obtain ⟨hsame, htickers⟩ := frame_observation hsetup hpings a b
      unfold Books.spent
      rw [hsame, htickers]
      exact Nat.le_add_right _ _

theorem permits_observe (ext : External) (setups tickers : Nat) :
    Permits (observe (sem ext) observation) (price setups tickers) earned
      (fun s => s.1.begun) fun s => s.2.spent setups tickers where
  uses o s := by
    cases o with
    | inl o => exact Nat.le_refl _
    | inr o => exact spent_observation setups tickers o s.1 s.2
  grants o s := by
    cases o with
    | inl o => exact begun_sem ext o s.1
    | inr o => exact Nat.le_refl _

/-- In every run nothing is spent beyond the one activation. -/
theorem spent_le_one (ext : External) (now : Time) (cfg : Agent.Config) (v : Option TokenValidator)
    {setups tickers : Nat} (honce : setups + tickers ≤ 1) (ms : List (Move MeasuredTask Nat)) :
    Always (Instrumented.step ext) (fun c => c.shared.2.spent setups tickers ≤ 1)
      (.init now cfg v) ms := by
  have helapse (d : Nat) (s : Agent × Books) :
      (Instrumented.elapse d s).2.spent setups tickers = s.2.spent setups tickers ∧
        (Instrumented.elapse d s).1.begun = s.1.begun := ⟨rfl, rfl⟩
  have hspent := Pool.used_le_granted (permits_observe ext setups tickers)
    (fun t => t.code_affords honce ext) helapse (s := (.init now cfg v, .new)) (Nat.zero_le _) ms
  refine hspent.imp fun c hc => Nat.le_trans hc ?_
  unfold Agent.begun
  split <;> decide

/-- However many offers come and however the handlers are interleaved, at most
one set-up is recorded and at most one ticker is created. -/
theorem measured_once (ext : External) (now : Time) (cfg : Agent.Config)
    (v : Option TokenValidator) (ms : List (Move MeasuredTask Nat)) :
    Always (Instrumented.step ext)
      (fun c => c.shared.2.sessionSetupMetrics.samples.length ≤ 1 ∧ c.shared.2.tickers ≤ 1)
      (.init now cfg v) ms := by
  have hsetups := spent_le_one ext now cfg v (show 1 + 0 ≤ 1 by decide) ms
  have htickers := spent_le_one ext now cfg v (show 0 + 1 ≤ 1 by decide) ms
  refine (Always.and hsetups htickers).imp fun c ⟨hs, ht⟩ => ?_
  unfold Books.spent at hs ht
  omega

end ChainKVM.Robot
