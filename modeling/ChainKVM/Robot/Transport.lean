import ChainKVM.Robot.Manager

/-!
# The WebRTC transport: `internal/transport/webrtc.go`

Peer connections and data channels are numbered in the order they are
created. `pc` and `dc` are the two the struct holds on to, the latest ones
since the last `close`; older connections stay open and keep their callbacks,
which read the callback fields when they fire. A data channel is the
exception: it keeps the data handler that was set when it was opened.

The two closures that the agent registers are represented by what they
capture: the ICE callback by the session id of its offer, the state callback
by the `Info` of its offer. The data handler captures nothing.
-/

namespace ChainKVM.Robot

/-- `webrtc.PeerConnectionState`. -/
inductive PeerConnectionState where
  | new
  | connecting
  | connected
  | disconnected
  | failed
  | closed
  deriving DecidableEq, Repr

/-- The errors of the transport package, and those of the WebRTC library. -/
inductive TransportError where
  | noPeerConnection
  | noDataChannel
  | webrtc (err : String)
  deriving DecidableEq, Repr

/-- An open data channel: the connection it arrived on, and whether a data
handler was set then. -/
structure Channel where
  conn : Nat
  handler : Bool
  deriving DecidableEq, Repr

/-- `WebRTC`. `conns` counts the connections created so far, `closed` lists
those that `close` has closed. -/
structure Transport where
  conns : Nat
  closed : List Nat
  channels : List Channel
  pc : Option Nat
  dc : Option Nat
  onICE : Option String
  onDataMessage : Bool
  onStateChange : Option Info
  deriving DecidableEq, Repr

namespace Transport

/-- `NewWebRTC`. -/
def new : Transport where
  conns := 0
  closed := []
  channels := []
  pc := none
  dc := none
  onICE := none
  onDataMessage := false
  onStateChange := none

/-- `CreatePeerConnection`, by the outcome of `webrtc.NewPeerConnection`. The
connection held before is replaced, not closed. -/
def createPeerConnection (w : Transport) (outcome : Except String Unit) :
    Except TransportError Unit × Transport :=
  match outcome with
  | .error err => (.error (.webrtc err), w)
  | .ok () => (.ok (), { w with conns := w.conns + 1, pc := some w.conns })

/-- `HandleOffer`, by the outcome of the negotiation on the held
connection. -/
def handleOffer (w : Transport) (negotiate : Bytes → Except String Bytes) (sdpData : Bytes) :
    Except TransportError Bytes :=
  match w.pc with
  | none => .error .noPeerConnection
  | some _ =>
    match negotiate sdpData with
    | .error err => .error (.webrtc err)
    | .ok answer => .ok answer

/-- The `OnDataChannel` callback of connection `conn`. -/
def openChannel (w : Transport) (conn : Nat) : Transport :=
  if conn < w.conns then
    { w with
      channels := w.channels ++ [⟨conn, w.onDataMessage⟩]
      dc := some w.channels.length }
  else w

/-- `Close`. -/
def close (w : Transport) : Transport :=
  match w.pc with
  | none => w
  | some p => { w with closed := p :: w.closed, pc := none, dc := none }

/-- The callback that a state change of connection `conn` runs. -/
def stateCallback (w : Transport) (conn : Nat) : Option Info :=
  if conn < w.conns then w.onStateChange else none

/-- Does a message on channel `ch` reach the agent? -/
def delivers (w : Transport) (ch : Nat) : Bool :=
  match w.channels[ch]? with
  | none => false
  | some c => c.handler

@[simp] theorem close_conns (w : Transport) : w.close.conns = w.conns := by
  unfold close
  split <;> rfl

@[simp] theorem close_onStateChange (w : Transport) : w.close.onStateChange = w.onStateChange := by
  unfold close
  split <;> rfl

@[simp] theorem openChannel_onStateChange (w : Transport) (conn : Nat) :
    (w.openChannel conn).onStateChange = w.onStateChange := by
  unfold openChannel
  split <;> rfl

@[simp] theorem openChannel_conns (w : Transport) (conn : Nat) :
    (w.openChannel conn).conns = w.conns := by
  unfold openChannel
  split <;> rfl

end Transport

end ChainKVM.Robot
