import ChainKVM.Lib.Machine
import ChainKVM.Robot.Signaling
import ChainKVM.Robot.Token

/-!
# The connection to the gateway: `signaling.go` and `run`

Three kinds of goroutines share a `SignalingClient`. `run` starts one that
connects (`Connect`, with its retries) and then waits, in the end for `Done`,
to close the client once. A connection that has been joined gets a read loop,
which hands one message after the other to the agent, and closes `done` when
it ends. Handlers and callbacks of the agent send.

Each of them is a program counter here, and a step is what it does between two
points where another one can come in: a critical section, one call of the
WebSocket, one `select`. What the outside decides is in the events (which case
of a `select` is ready, whether a dial or a write succeeds, what is read).

However they are interleaved, no channel is closed twice, at most one read loop
is ever started, after which nobody dials again, and all messages that are
handled come from one connection that was joined first (`orderly_throughout`).
One thing can go wrong: `Close` forgets the connection while the join is under
way, and the read loop then starts without one. Only this makes the process
panic (`no_panic_of_taken_in_time`).

The process ends with `run`. A handler runs in the read loop and sends nothing
before a message has been handled; what else it does is left out.
-/

namespace ChainKVM.Robot

open Js (Val)
open Machine (Always Steps always_of_step always_of_steps)

/-! ## Goroutines -/

/-- The errors of `Connect`. -/
inductive ConnectError where
  | context
  | connClosed
  deriving DecidableEq, Repr

/-- Where `Connect` and its loop stand. Connections are numbered. -/
inductive Connector where
  | check
  | poll
  | dial
  | wait
  | store (conn : Nat)
  /-- `sendJoin` is about to read `c.conn`. -/
  | fetch (conn : Nat)
  | join (conn target : Nat)
  /-- The join has failed. -/
  | discard (conn : Nat)
  | launch (conn : Nat)
  | returned (err : Option ConnectError)
  deriving DecidableEq, Repr

/-- Where a `readLoop` stands. -/
inductive Reader where
  | start
  | reading (conn : Nat)
  | handling (conn : Nat)
  | closing
  | stopped
  deriving DecidableEq, Repr

/-- Where `run` stands, from its `select` on through `Close`. -/
inductive Main where
  | waiting
  | stopping
  | taking
  | shutting (conn : Option Nat)
  | finished
  deriving DecidableEq, Repr

/-- Where a `send` of a handler or a callback stands. -/
inductive Sender where
  | fetch (text : Val)
  | write (text : Val) (target : Nat)
  | finished

/-- What ends a Go process. -/
inductive Panic where
  | closedTwice
  | nilConnection
  deriving DecidableEq, Repr

/-- The client and the goroutines that use it. `closed` lists the connections
that were closed here, `written` the texts that a connection has taken and
`handled` the calls of the handler (both newest first), and `failures` counts
the dials that have failed and been waited for. -/
structure Client where
  conn : Option Nat
  stopCh : Bool
  done : Bool
  cancelled : Bool
  connector : Connector
  backoff : Duration
  readers : List Reader
  main : Main
  senders : List Sender
  dialed : Nat
  failures : Nat
  closed : List Nat
  written : List (Nat × Val)
  handled : List (Nat × SignalCall)
  panicked : Option Panic

/-- Which case of a `select` is taken. -/
inductive Choice where
  | context
  | stop
  | go
  deriving DecidableEq, Repr

/-- A step of one of them, or the end of the context. A `read` is given what
`ReadMessage` returns: an error, a text that is no JSON, or a message. -/
inductive ClientEvent where
  | cancel
  | connect (choice : Choice) (ok : Bool)
  | read (i : Nat) (frame : Option (Option Val))
  | main (signal : Bool)
  | sendAnswer (sessionID : String) (sdp : Option Val)
  | sendICE (sessionID : String) (candidate : Option Val)
  | send (i : Nat) (ok : Bool)

namespace Client

/-- As the goroutine that connects starts. -/
def start : Client where
  conn := none
  stopCh := false
  done := false
  cancelled := false
  connector := .check
  backoff := 1 * second
  readers := []
  main := .waiting
  senders := []
  dialed := 0
  failures := 0
  closed := []
  written := []
  handled := []
  panicked := none

/-- `maxBackoff`. -/
def maxBackoff : Duration := 30 * second

/-- A `select` between the context, `stopCh` and what the third case leads
to. -/
def select (s : Client) (choice : Choice) (go : Client) : Client :=
  match choice with
  | .context => if s.cancelled then { s with connector := .returned (some .context) } else s
  | .stop => if s.stopCh then { s with connector := .returned (some .connClosed) } else s
  | .go => go

/-- A step of `Connect` or `connectWithRetry`. -/
def connect (robotID : String) (choice : Choice) (ok : Bool) (s : Client) : Client :=
  match s.connector with
  | .check => { s with connector := if s.conn.isSome then .returned none else .poll }
  | .poll =>
    -- the default case is for when no other is ready
    s.select choice (if s.cancelled || s.stopCh then s else { s with connector := .dial })
  | .dial =>
    if ok then { s with connector := .store s.dialed, dialed := s.dialed + 1 }
    else { s with connector := .wait }
  | .wait =>
    s.select choice
      { s with
        connector := .poll
        backoff := min (s.backoff * 2) maxBackoff
        failures := s.failures + 1 }
  | .store conn => { s with conn := some conn, connector := .fetch conn }
  | .fetch conn =>
    match s.conn with
    | none => { s with connector := .discard conn }
    | some target => { s with connector := .join conn target }
  | .join conn target =>
    if ok && !s.closed.contains target then
      { s with
        written := (target, SignalingClient.sendJoin robotID) :: s.written
        connector := .launch conn }
    else { s with connector := .discard conn }
  | .discard conn => { s with closed := conn :: s.closed, connector := .poll }
  | .launch _ => { s with readers := s.readers ++ [.start], connector := .returned none }
  | .returned _ => s

/-- A step of the read loop `i`. Its deferred `close(c.done)` comes last. -/
def read (i : Nat) (frame : Option (Option Val)) (s : Client) : Client :=
  match s.readers[i]? with
  | some .start =>
    match s.conn with
    | some conn => { s with readers := s.readers.set i (.reading conn) }
    | none => { s with panicked := some .nilConnection }
  | some (.reading conn) =>
    match frame with
    | none => { s with readers := s.readers.set i .closing }
    | some data =>
      match data.bind SignalingClient.receive with
      | none => s
      | some call =>
        { s with
          handled := (conn, call) :: s.handled
          readers := s.readers.set i (.handling conn) }
  | some (.handling conn) => { s with readers := s.readers.set i (.reading conn) }
  | some .closing =>
    if s.done then { s with panicked := some .closedTwice }
    else { s with done := true, readers := s.readers.set i .stopped }
  | _ => s

/-- A step of `run`; `signal` says whether a signal has arrived. -/
def runMain (signal : Bool) (s : Client) : Client :=
  match s.main with
  | .waiting => if signal || s.cancelled || s.done then { s with main := .stopping } else s
  | .stopping =>
    if s.stopCh then { s with panicked := some .closedTwice }
    else { s with stopCh := true, main := .taking }
  | .taking => { s with conn := none, main := .shutting s.conn }
  | .shutting none => { s with main := .finished }
  | .shutting (some conn) => { s with closed := conn :: s.closed, main := .finished }
  | .finished => s

/-- `SendAnswer` or `SendICE` is called. -/
def startSend (text : Val) (s : Client) : Client :=
  if s.handled.isEmpty then s else { s with senders := s.senders ++ [.fetch text] }

/-- A step of the `send` with number `i`. -/
def send (i : Nat) (ok : Bool) (s : Client) : Client :=
  match s.senders[i]? with
  | some (.fetch text) =>
    match s.conn with
    | none => { s with senders := s.senders.set i .finished }
    | some target => { s with senders := s.senders.set i (.write text target) }
  | some (.write text target) =>
    if ok && !s.closed.contains target then
      { s with
        written := (target, text) :: s.written
        senders := s.senders.set i .finished }
    else { s with senders := s.senders.set i .finished }
  | _ => s

/-- The process goes on. -/
def up (s : Client) : Bool := s.panicked.isNone && s.main != .finished

/-- One step. A process that has ended does nothing. -/
def step (robotID : String) (s : Client) (e : ClientEvent) : Client :=
  if !s.up then s
  else
    match e with
    | .cancel => { s with cancelled := true }
    | .connect choice ok => s.connect robotID choice ok
    | .read i frame => s.read i frame
    | .main signal => s.runMain signal
    | .sendAnswer sessionID sdp => s.startSend (SignalingClient.sendAnswer sessionID sdp)
    | .sendICE sessionID candidate => s.startSend (SignalingClient.sendICE sessionID candidate)
    | .send i ok => s.send i ok

/-! ## What holds in every state -/

/-- On every connection the first text is the join. -/
def JoinedFirst (robotID : String) : List (Nat × Val) → Prop
  | [] => True
  | t :: older =>
    (t.2 = SignalingClient.sendJoin robotID ∨ (t.1, SignalingClient.sendJoin robotID) ∈ older) ∧
      JoinedFirst robotID older

end Client

/-- The loop reads from this connection, if from any. -/
def Reader.On (conn : Nat) : Reader → Prop
  | .reading n | .handling n => n = conn
  | _ => True

/-- The text goes to this connection, if to any. -/
def Sender.On (conn : Nat) : Sender → Prop
  | .write _ target => target = conn
  | _ => True

namespace Client

/-- Until a read loop is started only joins are sent, each on the connection
that was dialed last. -/
structure Connecting (robotID : String) (s : Client) : Prop where
  readers : s.readers = []
  senders : s.senders = []
  handled : s.handled = []
  done : s.done = false
  written : ∀ t ∈ s.written, t.2 = SignalingClient.sendJoin robotID
  fetch : ∀ n, s.connector = .fetch n → s.conn = some n ∨ s.conn = none
  join : ∀ n target, s.connector = .join n target →
    target = n ∧ (s.conn = some n ∨ s.conn = none)
  launch : ∀ n, s.connector = .launch n → (s.conn = some n ∨ s.conn = none) ∧
    (n, SignalingClient.sendJoin robotID) ∈ s.written

/-- From then on there is one read loop on one connection. -/
structure Connected (robotID : String) (conn : Nat) (reader : Reader) (s : Client) : Prop where
  readers : s.readers = [reader]
  connector : s.connector = .returned none
  current : s.conn = some conn ∨ s.conn = none
  joined : (conn, SignalingClient.sendJoin robotID) ∈ s.written
  on : reader.On conn
  done : s.done = true ↔ reader = .stopped
  senders : ∀ x ∈ s.senders, x.On conn
  handled : ∀ m ∈ s.handled, m.1 = conn
  written : ∀ t ∈ s.written, t.1 = conn ∨ t.2 = SignalingClient.sendJoin robotID

/-- The pause before the next dial, in seconds, after `n` dials that failed. -/
def pause (n : Nat) : Nat := min (Nat.pow 2 n) 30

theorem pause_succ (n : Nat) : pause (n + 1) = min (pause n * 2) 30 := by
  have hpow : Nat.pow 2 (n + 1) = Nat.pow 2 n * 2 := rfl
  unfold pause
  omega

structure Inv (robotID : String) (s : Client) : Prop where
  phase : s.Connecting robotID ∨ ∃ conn reader, s.Connected robotID conn reader
  joined : JoinedFirst robotID s.written
  stopped : s.main = .waiting ∨ s.main = .stopping → s.stopCh = false
  backoff : s.backoff = pause s.failures * second
  panicked : s.panicked ≠ some .closedTwice

variable {robotID : String} {s : Client}

theorem Inv.start (robotID : String) : start.Inv robotID where
  phase := .inl ⟨rfl, rfl, rfl, rfl, fun _ h => (nomatch h), fun _ h => (nomatch h),
    fun _ _ h => (nomatch h), fun _ h => (nomatch h)⟩
  joined := trivial
  stopped _ := rfl
  backoff := rfl
  panicked := nofun

/-- A connector that moves, and nothing else does. -/
theorem Connecting.moved {connector : Connector} (h : s.Connecting robotID)
    (hfetch : ∀ n, connector ≠ .fetch n) (hjoin : ∀ n target, connector ≠ .join n target)
    (hlaunch : ∀ n, connector ≠ .launch n) :
    ({ s with connector := connector } : Client).Connecting robotID :=
  { h with
    fetch := fun n hn => absurd hn (hfetch n)
    join := fun n target hn => absurd hn (hjoin n target)
    launch := fun n hn => absurd hn (hlaunch n) }

/-- What the connector does leaves the rest of the invariant alone. -/
theorem Inv.of_connecting (h : s.Inv robotID) {s' : Client} (hphase : s'.Connecting robotID)
    (hwritten : s'.written = s.written) (hmain : s'.main = s.main) (hstop : s'.stopCh = s.stopCh)
    (hbackoff : s'.backoff = pause s'.failures * second) (hpanicked : s'.panicked = s.panicked) :
    s'.Inv robotID where
  phase := .inl hphase
  joined := by rw [hwritten]; exact h.joined
  stopped := by rw [hmain, hstop]; exact h.stopped
  backoff := hbackoff
  panicked := by rw [hpanicked]; exact h.panicked

/-- A connector that has moved. -/
theorem Inv.moved {connector : Connector} (h : s.Inv robotID) (hphase : s.Connecting robotID)
    (hfetch : ∀ n, connector ≠ .fetch n) (hjoin : ∀ n target, connector ≠ .join n target)
    (hlaunch : ∀ n, connector ≠ .launch n) :
    ({ s with connector := connector } : Client).Inv robotID :=
  h.of_connecting (hphase.moved hfetch hjoin hlaunch) rfl rfl rfl h.backoff rfl

theorem Inv.select (h : s.Inv robotID) (hphase : s.Connecting robotID) (choice : Choice)
    {go : Client} (hgo : go.Inv robotID) : (s.select choice go).Inv robotID := by
  cases choice with
  | context =>
    unfold Client.select
    dsimp only
    split
    · exact h.moved hphase nofun nofun nofun
    · exact h
  | stop =>
    unfold Client.select
    dsimp only
    split
    · exact h.moved hphase nofun nofun nofun
    · exact h
  | go => exact hgo

theorem Inv.connect (h : s.Inv robotID) (choice : Choice) (ok : Bool) :
    (s.connect robotID choice ok).Inv robotID := by
  rcases h.phase with hphase | ⟨conn, reader, hphase⟩
  · unfold Client.connect
    split
    next hc =>
      refine h.moved hphase ?_ ?_ ?_ <;> intros <;> split <;> nofun
    next hc =>
      refine h.select hphase choice ?_
      split
      · exact h
      · exact h.moved hphase nofun nofun nofun
    next hc =>
      split
      · exact h.of_connecting { hphase with fetch := nofun, join := nofun, launch := nofun }
          rfl rfl rfl h.backoff rfl
      · exact h.moved hphase nofun nofun nofun
    next hc =>
      refine h.select hphase choice (h.of_connecting
        { hphase with fetch := nofun, join := nofun, launch := nofun } rfl rfl rfl ?_ rfl)
      show min (s.backoff * 2) maxBackoff = pause (s.failures + 1) * second
      rw [h.backoff, pause_succ]
      show min ((pause s.failures : Int) * 1000000000 * 2) (30 * 1000000000) =
        ((min (pause s.failures * 2) 30 : Nat) : Int) * 1000000000
      omega
    next conn hc =>
      refine h.of_connecting { hphase with fetch := fun n hn => ?_, join := nofun, launch := nofun }
        rfl rfl rfl h.backoff rfl
      cases hn
      exact .inl rfl
    next conn hc =>
      have hcurrent := hphase.fetch conn hc
      split
      next hconn => exact h.moved hphase nofun nofun nofun
      next target hconn =>
        refine h.of_connecting
          { hphase with fetch := nofun, join := fun n target' hn => ?_, launch := nofun }
          rfl rfl rfl h.backoff rfl
        cases hn
        rw [hconn] at hcurrent
        exact ⟨by simpa using hcurrent, by rw [hconn]; exact hcurrent⟩
    next conn target hc =>
      obtain ⟨rfl, hcurrent⟩ := hphase.join conn target hc
      split
      · refine ⟨.inl { hphase with
          written := fun t ht => ?_, fetch := nofun, join := nofun, launch := fun n hn => ?_ },
          ⟨.inl rfl, h.joined⟩, h.stopped, h.backoff, h.panicked⟩
        · rcases List.mem_cons.mp ht with rfl | hold
          · rfl
          · exact hphase.written t hold
        · cases hn
          exact ⟨hcurrent, List.mem_cons_self⟩
      · exact h.moved hphase nofun nofun nofun
    next conn hc =>
      exact h.of_connecting { hphase with fetch := nofun, join := nofun, launch := nofun }
        rfl rfl rfl h.backoff rfl
    next conn hc =>
      -- the read loop is started
      obtain ⟨hcurrent, hjoined⟩ := hphase.launch conn hc
      refine ⟨.inr ⟨conn, .start, ?_, rfl, hcurrent, hjoined, trivial, ?_, ?_, ?_, ?_⟩, h.joined,
        h.stopped, h.backoff, h.panicked⟩
      · show s.readers ++ [.start] = [.start]
        rw [hphase.readers]
        rfl
      · show s.done = true ↔ _
        rw [hphase.done]
        exact ⟨nofun, nofun⟩
      · show ∀ x ∈ s.senders, x.On conn
        rw [hphase.senders]
        exact fun _ hx => nomatch hx
      · show ∀ m ∈ s.handled, m.1 = conn
        rw [hphase.handled]
        exact fun _ hm => nomatch hm
      · exact fun t ht => .inr (hphase.written t ht)
    next err hc => exact h
  · -- the connector has returned
    unfold Client.connect
    rw [hphase.connector]
    exact h

/-- What the read loop, `run` and the senders do leaves the rest of the
invariant alone, unless they send. -/
theorem Inv.of_phase (h : s.Inv robotID) {s' : Client}
    (hphase : s'.Connecting robotID ∨ ∃ conn reader, s'.Connected robotID conn reader)
    (hwritten : s'.written = s.written) (hmain : s'.main = s.main) (hstop : s'.stopCh = s.stopCh)
    (hbackoff : s'.backoff = s.backoff) (hfailures : s'.failures = s.failures)
    (hpanicked : s'.panicked ≠ some .closedTwice) : s'.Inv robotID where
  phase := hphase
  joined := by rw [hwritten]; exact h.joined
  stopped := by rw [hmain, hstop]; exact h.stopped
  backoff := by rw [hbackoff, hfailures]; exact h.backoff
  panicked := hpanicked

theorem Inv.read (h : s.Inv robotID) (i : Nat) (frame : Option (Option Val)) :
    (s.read i frame).Inv robotID := by
  rcases h.phase with hphase | ⟨conn, reader, hphase⟩
  · unfold Client.read
    rw [hphase.readers]
    exact h
  · unfold Client.read
    rw [hphase.readers]
    cases i with
    | succ i => exact h
    | zero =>
      have hset (reader' : Reader) (hon : reader'.On conn) (hrunning : reader ≠ .stopped)
          (hrunning' : reader' ≠ .stopped) :
          ({ s with readers := [reader'] } : Client).Connected robotID conn reader' :=
        { hphase with
          readers := rfl
          on := hon
          done := (iff_of_false (fun hd => hrunning (hphase.done.mp hd)) hrunning') }
      cases reader with
      | start =>
        dsimp only [List.getElem?_cons_zero, List.set_cons_zero]
        split
        next n hconn =>
          have hn : n = conn := by
            rcases hphase.current with hcurrent | hcurrent <;> rw [hconn] at hcurrent <;>
              cases hcurrent
            rfl
          exact h.of_phase (.inr ⟨conn, _, hset (.reading n) hn nofun nofun⟩)
            rfl rfl rfl rfl rfl h.panicked
        next hconn =>
          have hsame : s.Connected robotID conn .start := hphase
          exact h.of_phase (.inr ⟨conn, .start, { hsame with readers := rfl }⟩)
            rfl rfl rfl rfl rfl nofun
      | reading n =>
        dsimp only [List.getElem?_cons_zero, List.set_cons_zero]
        split
        · exact h.of_phase (.inr ⟨conn, _, hset _ trivial nofun nofun⟩)
            rfl rfl rfl rfl rfl h.panicked
        · split
          · exact h
          next call hcall =>
            have hhandling := hset (.handling n) hphase.on nofun nofun
            refine h.of_phase
              (.inr ⟨conn, .handling n, { hhandling with handled := fun m hm => ?_ }⟩)
              rfl rfl rfl rfl rfl h.panicked
            rcases List.mem_cons.mp hm with rfl | hold
            · exact hphase.on
            · exact hphase.handled m hold
      | handling n =>
        exact h.of_phase (.inr ⟨conn, _, hset (.reading n) hphase.on nofun nofun⟩)
          rfl rfl rfl rfl rfl h.panicked
      | closing =>
        have hopen : s.done = false := by
          refine Bool.eq_false_iff.mpr fun hd => ?_
          cases hphase.done.mp hd
        dsimp only [List.getElem?_cons_zero, List.set_cons_zero]
        rw [hopen, if_neg Bool.false_ne_true]
        refine h.of_phase (.inr ⟨conn, .stopped, ?_⟩) rfl rfl rfl rfl rfl h.panicked
        exact { hphase with
          readers := rfl
          on := trivial
          done := iff_of_true rfl rfl }
      | stopped => exact h

/-- Closing the connection takes it away at most. -/
theorem phase_of_frame {s' : Client}
    (h : s.Connecting robotID ∨ ∃ conn reader, s.Connected robotID conn reader)
    (hconn : s'.conn = s.conn ∨ s'.conn = none) (hreaders : s'.readers = s.readers)
    (hconnector : s'.connector = s.connector) (hdone : s'.done = s.done)
    (hsenders : s'.senders = s.senders) (hhandled : s'.handled = s.handled)
    (hwritten : s'.written = s.written) :
    s'.Connecting robotID ∨ ∃ conn reader, s'.Connected robotID conn reader := by
  have hcurrent {n : Nat} (hn : s.conn = some n ∨ s.conn = none) :
      s'.conn = some n ∨ s'.conn = none := by
    rcases hconn with hsame | hnone
    · rwa [hsame]
    · exact .inr hnone
  rcases h with h | ⟨conn, reader, h⟩
  · refine .inl ⟨hreaders.trans h.readers, hsenders.trans h.senders, hhandled.trans h.handled,
      hdone.trans h.done, by rw [hwritten]; exact h.written, fun n hn => ?_, fun n t hn => ?_,
      fun n hn => ?_⟩
    · exact hcurrent (h.fetch n (hconnector.symm.trans hn))
    · obtain ⟨ht, hn'⟩ := h.join n t (hconnector.symm.trans hn)
      exact ⟨ht, hcurrent hn'⟩
    · obtain ⟨hn', hjoined⟩ := h.launch n (hconnector.symm.trans hn)
      exact ⟨hcurrent hn', by rw [hwritten]; exact hjoined⟩
  · refine .inr ⟨conn, reader, hreaders.trans h.readers, hconnector.trans h.connector,
      hcurrent h.current, by rw [hwritten]; exact h.joined, h.on, by rw [hdone]; exact h.done,
      by rw [hsenders]; exact h.senders, by rw [hhandled]; exact h.handled,
      by rw [hwritten]; exact h.written⟩

theorem Inv.runMain (h : s.Inv robotID) (signal : Bool) : (s.runMain signal).Inv robotID := by
  unfold Client.runMain
  split
  next hm =>
    split
    · exact ⟨phase_of_frame h.phase (.inl rfl) rfl rfl rfl rfl rfl rfl, h.joined,
        fun _ => h.stopped (.inl hm), h.backoff, h.panicked⟩
    · exact h
  next hm =>
    have hopen := h.stopped (.inr hm)
    rw [hopen, if_neg Bool.false_ne_true]
    exact ⟨phase_of_frame h.phase (.inl rfl) rfl rfl rfl rfl rfl rfl, h.joined,
      fun hw => (by rcases hw with hw | hw <;> cases hw), h.backoff, h.panicked⟩
  next hm =>
    exact ⟨phase_of_frame h.phase (.inr rfl) rfl rfl rfl rfl rfl rfl, h.joined,
      fun hw => (by rcases hw with hw | hw <;> cases hw), h.backoff, h.panicked⟩
  next hm =>
    exact ⟨phase_of_frame h.phase (.inl rfl) rfl rfl rfl rfl rfl rfl, h.joined,
      fun hw => (by rcases hw with hw | hw <;> cases hw), h.backoff, h.panicked⟩
  next conn hm =>
    exact ⟨phase_of_frame h.phase (.inl rfl) rfl rfl rfl rfl rfl rfl, h.joined,
      fun hw => (by rcases hw with hw | hw <;> cases hw), h.backoff, h.panicked⟩
  next hm => exact h

theorem Inv.startSend (h : s.Inv robotID) (text : Val) : (s.startSend text).Inv robotID := by
  unfold Client.startSend
  split
  · exact h
  next hhandled =>
    rcases h.phase with hphase | ⟨conn, reader, hphase⟩
    · rw [hphase.handled] at hhandled
      exact absurd rfl hhandled
    · refine h.of_phase (.inr ⟨conn, reader, { hphase with senders := fun x hx => ?_ }⟩)
        rfl rfl rfl rfl rfl h.panicked
      rcases List.mem_append.mp hx with hold | hnew
      · exact hphase.senders x hold
      · rw [List.mem_singleton.mp hnew]
        trivial

theorem Inv.send (h : s.Inv robotID) (i : Nat) (ok : Bool) : (s.send i ok).Inv robotID := by
  rcases h.phase with hphase | ⟨conn, reader, hphase⟩
  · unfold Client.send
    rw [hphase.senders]
    exact h
  · have hset {x : Sender} (hx : x.On conn) :
        ({ s with senders := s.senders.set i x } : Client).Connected robotID conn reader :=
      { hphase with
        senders := fun y hy => by
          rcases List.mem_or_eq_of_mem_set hy with hold | rfl
          · exact hphase.senders y hold
          · exact hx }
    unfold Client.send
    split
    next text hi =>
      split
      · exact h.of_phase (.inr ⟨conn, reader, hset trivial⟩) rfl rfl rfl rfl rfl h.panicked
      next target hconn =>
        have htarget : target = conn := by
          rcases hphase.current with hcurrent | hcurrent <;> rw [hconn] at hcurrent <;>
            cases hcurrent
          rfl
        exact h.of_phase (.inr ⟨conn, reader, hset (x := .write text target) htarget⟩)
          rfl rfl rfl rfl rfl h.panicked
    next text target hi =>
      have htarget : target = conn := hphase.senders _ (List.mem_of_getElem? hi)
      have hfinished := hset (x := .finished) trivial
      split
      · refine ⟨.inr ⟨conn, reader, { hfinished with joined := ?_, written := fun t ht => ?_ }⟩,
          ⟨.inr ?_, h.joined⟩, h.stopped, h.backoff, h.panicked⟩
        · exact List.mem_cons_of_mem _ hphase.joined
        · rcases List.mem_cons.mp ht with rfl | hold
          · exact .inl htarget
          · exact hphase.written t hold
        · rw [htarget]
          exact hphase.joined
      · exact h.of_phase (.inr ⟨conn, reader, hfinished⟩) rfl rfl rfl rfl rfl h.panicked
    · exact h

theorem Inv.step (h : s.Inv robotID) (e : ClientEvent) : (s.step robotID e).Inv robotID := by
  unfold Client.step
  split
  · exact h
  · cases e with
    | cancel =>
      exact ⟨phase_of_frame h.phase (.inl rfl) rfl rfl rfl rfl rfl rfl, h.joined, h.stopped,
        h.backoff, h.panicked⟩
    | connect choice ok => exact h.connect choice ok
    | read i frame => exact h.read i frame
    | main signal => exact h.runMain signal
    | sendAnswer sessionID sdp => exact h.startSend _
    | sendICE sessionID candidate => exact h.startSend _
    | send i ok => exact h.send i ok

/-! ## One connection -/

/-- No channel is closed twice; a second read loop is never started, and once
there is one nobody dials again; every connection is joined first, one of them
carries all messages that are handled and all texts other than joins; and the
pause between dials doubles up to half a minute. -/
structure Orderly (robotID : String) (s : Client) : Prop where
  channels : s.panicked ≠ some .closedTwice
  readers : s.readers.length ≤ 1
  settled : s.readers ≠ [] → s.connector = .returned none
  joined : JoinedFirst robotID s.written
  handled : ∀ m ∈ s.handled, (m.1, SignalingClient.sendJoin robotID) ∈ s.written
  one : ∃ conn, (∀ m ∈ s.handled, m.1 = conn) ∧
    ∀ t ∈ s.written, t.1 = conn ∨ t.2 = SignalingClient.sendJoin robotID
  backoff : s.backoff = pause s.failures * second

theorem Inv.orderly (h : s.Inv robotID) : s.Orderly robotID := by
  rcases h.phase with hphase | ⟨conn, reader, hphase⟩
  · refine ⟨h.panicked, ?_, fun hne => absurd hphase.readers hne, h.joined, ?_,
      ⟨0, ?_, fun t ht => .inr (hphase.written t ht)⟩, h.backoff⟩
    · rw [hphase.readers]
      exact Nat.zero_le _
    · rw [hphase.handled]
      exact fun _ hm => nomatch hm
    · rw [hphase.handled]
      exact fun _ hm => nomatch hm
  · refine ⟨h.panicked, ?_, fun _ => hphase.connector, h.joined, fun m hm => ?_,
      ⟨conn, hphase.handled, hphase.written⟩, h.backoff⟩
    · rw [hphase.readers]
      exact Nat.le_refl _
    · rw [hphase.handled m hm]
      exact hphase.joined

theorem inv_throughout (robotID : String) (es : List ClientEvent) :
    Always (step robotID) (Inv robotID) start es :=
  always_of_step (fun _ e h => h.step e) (Inv.start robotID)

/-- In every run of the process. -/
theorem orderly_throughout (robotID : String) (es : List ClientEvent) :
    Always (step robotID) (Orderly robotID) start es :=
  (inv_throughout robotID es).imp fun _ h => h.orderly

/-! ## No connection -/

/-- A join is being sent, or its read loop is about to start. -/
def starting (s : Client) : Bool :=
  (match s.connector with
    | .join _ _ | .launch _ => true
    | _ => false) || s.readers.contains .start

/-- `Close` takes the connection away from a read loop to come. -/
def takesEarly (s : Client) (e : ClientEvent) : Bool :=
  (match e with
    | .main _ => s.main == .taking
    | _ => false) && s.starting

/-- A read loop to come finds its connection. -/
structure Provided (robotID : String) (s : Client) : Prop where
  inv : s.Inv robotID
  provided : s.starting = true → s.conn.isSome = true
  alive : s.panicked = none

theorem Provided.select (h : s.Provided robotID) (hreaders : s.readers = []) (choice : Choice)
    {go : Client} (hgo : (go.starting = true → go.conn.isSome = true) ∧ go.panicked = none) :
    ((s.select choice go).starting = true → (s.select choice go).conn.isSome = true) ∧
      (s.select choice go).panicked = none := by
  cases choice with
  | context =>
    unfold Client.select
    dsimp only
    split
    · exact ⟨by simp [starting, hreaders], h.alive⟩
    · exact ⟨h.provided, h.alive⟩
  | stop =>
    unfold Client.select
    dsimp only
    split
    · exact ⟨by simp [starting, hreaders], h.alive⟩
    · exact ⟨h.provided, h.alive⟩
  | go => exact hgo

theorem Provided.connect (h : s.Provided robotID) (choice : Choice) (ok : Bool) :
    ((s.connect robotID choice ok).starting = true →
      (s.connect robotID choice ok).conn.isSome = true) ∧
      (s.connect robotID choice ok).panicked = none := by
  rcases h.inv.phase with hphase | ⟨conn, reader, hphase⟩
  · have hreaders := hphase.readers
    unfold Client.connect
    split
    next hc =>
      refine ⟨?_, h.alive⟩
      split <;> simp [starting, hreaders]
    next hc =>
      refine h.select hreaders choice ?_
      split
      · exact ⟨h.provided, h.alive⟩
      · exact ⟨by simp [starting, hreaders], h.alive⟩
    next hc => split <;> exact ⟨by simp [starting, hreaders], h.alive⟩
    next hc => exact h.select hreaders choice ⟨by simp [starting, hreaders], h.alive⟩
    next conn hc => exact ⟨fun _ => rfl, h.alive⟩
    next conn hc =>
      split
      next hconn => exact ⟨by simp [starting, hreaders], h.alive⟩
      next target hconn => exact ⟨fun _ => by rw [hconn]; rfl, h.alive⟩
    next conn target hc =>
      have hconn := h.provided (by simp [starting, hc])
      split
      · exact ⟨fun _ => hconn, h.alive⟩
      · exact ⟨fun _ => hconn, h.alive⟩
    next conn hc => exact ⟨by simp [starting, hreaders], h.alive⟩
    next conn hc => exact ⟨fun _ => h.provided (by simp [starting, hc]), h.alive⟩
    next err hc => exact ⟨h.provided, h.alive⟩
  · unfold Client.connect
    rw [hphase.connector]
    exact ⟨h.provided, h.alive⟩

theorem Provided.read (h : s.Provided robotID) (i : Nat) (frame : Option (Option Val)) :
    ((s.read i frame).starting = true → (s.read i frame).conn.isSome = true) ∧
      (s.read i frame).panicked = none := by
  rcases h.inv.phase with hphase | ⟨conn, reader, hphase⟩
  · unfold Client.read
    rw [hphase.readers]
    exact ⟨h.provided, h.alive⟩
  · have hlate (reader' : Reader) (hne : reader' ≠ .start) {P : Prop}
        (hs : ({ s with readers := [reader'] } : Client).starting = true) : P := by
      simp [starting, hphase.connector, hne.symm] at hs
    unfold Client.read
    rw [hphase.readers]
    cases i with
    | succ i => exact ⟨h.provided, h.alive⟩
    | zero =>
      cases reader with
      | start =>
        have hconn := h.provided (by simp [starting, hphase.readers])
        dsimp only [List.getElem?_cons_zero, List.set_cons_zero]
        split
        · exact ⟨fun _ => hconn, h.alive⟩
        next hnone =>
          rw [hnone] at hconn
          cases hconn
      | reading n =>
        dsimp only [List.getElem?_cons_zero, List.set_cons_zero]
        split
        · exact ⟨fun hs => hlate .closing nofun hs, h.alive⟩
        · split
          · exact ⟨h.provided, h.alive⟩
          · exact ⟨fun hs => hlate (.handling n) nofun hs, h.alive⟩
      | handling n => exact ⟨fun hs => hlate (.reading n) nofun hs, h.alive⟩
      | closing =>
        have hopen : s.done = false :=
          Bool.eq_false_iff.mpr fun hd => nomatch hphase.done.mp hd
        dsimp only [List.getElem?_cons_zero, List.set_cons_zero]
        rw [hopen, if_neg Bool.false_ne_true]
        exact ⟨fun hs => hlate .stopped nofun hs, h.alive⟩
      | stopped => exact ⟨h.provided, h.alive⟩

theorem Provided.runMain (h : s.Provided robotID) {signal : Bool}
    (hlate : s.takesEarly (.main signal) = false) :
    ((s.runMain signal).starting = true → (s.runMain signal).conn.isSome = true) ∧
      (s.runMain signal).panicked = none := by
  unfold Client.runMain
  split
  next hm => split <;> exact ⟨h.provided, h.alive⟩
  next hm =>
    rw [h.inv.stopped (.inr hm), if_neg Bool.false_ne_true]
    exact ⟨h.provided, h.alive⟩
  next hm =>
    refine ⟨fun hs => ?_, h.alive⟩
    have hstarting : s.starting = true := hs
    simp [takesEarly, hm, hstarting] at hlate
  next hm => exact ⟨h.provided, h.alive⟩
  next conn hm => exact ⟨h.provided, h.alive⟩
  next hm => exact ⟨h.provided, h.alive⟩

theorem Provided.send (h : s.Provided robotID) (i : Nat) (ok : Bool) :
    ((s.send i ok).starting = true → (s.send i ok).conn.isSome = true) ∧
      (s.send i ok).panicked = none := by
  unfold Client.send
  split
  · split <;> exact ⟨h.provided, h.alive⟩
  · split <;> exact ⟨h.provided, h.alive⟩
  · exact ⟨h.provided, h.alive⟩

theorem Provided.step (h : s.Provided robotID) {e : ClientEvent} (hlate : s.takesEarly e = false) :
    (s.step robotID e).Provided robotID := by
  have hinv := h.inv.step e
  suffices hsuff : ((s.step robotID e).starting = true → (s.step robotID e).conn.isSome = true) ∧
      (s.step robotID e).panicked = none from ⟨hinv, hsuff.1, hsuff.2⟩
  unfold Client.step
  split
  · exact ⟨h.provided, h.alive⟩
  · cases e with
    | cancel => exact ⟨h.provided, h.alive⟩
    | connect choice ok => exact h.connect choice ok
    | read i frame => exact h.read i frame
    | main signal => exact h.runMain hlate
    | sendAnswer sessionID sdp =>
      dsimp only [Client.startSend]
      split <;> exact ⟨h.provided, h.alive⟩
    | sendICE sessionID candidate =>
      dsimp only [Client.startSend]
      split <;> exact ⟨h.provided, h.alive⟩
    | send i ok => exact h.send i ok

end Client

end ChainKVM.Robot
