/-!
# The data-channel protocol

The messages of `pkg/protocol/messages.go` that the control handler and the
agent read or write, and the clock units. A time is a number of nanoseconds
since the Unix epoch and a duration a number of nanoseconds, as in Go; a
`float64` is the rational it stands for (`encoding/json` produces neither NaN
nor an infinity).
-/

namespace ChainKVM.Robot

/-- The bytes of a data-channel message. -/
abbrev Bytes := List UInt8

/-- Nanoseconds since the Unix epoch. -/
abbrev Time := Int

/-- Nanoseconds. -/
abbrev Duration := Int

def millisecond : Duration := 1000000

def second : Duration := 1000000000

/-- `time.Time{}`: January 1, year 1. -/
def zeroTime : Time := -62135596800 * second

/-- `time.UnixMilli`. -/
def unixMilli (t : Int) : Time := t * millisecond

/-- `Time.Sub`, which saturates at the ends of `int64`. -/
def sub (t u : Time) : Duration :=
  max (-9223372036854775808) (min 9223372036854775807 (t - u))

/-- A duration short of the maximum is exceeded after saturation if it is
before. -/
theorem lt_sub {d t u : Int} (hd : d < 9223372036854775807) (h : d < t - u) : d < sub t u := by
  unfold sub
  omega

/-- `MessageType`: the constants of the package, and any other string. -/
inductive MessageType where
  | auth
  | authOK
  | authErr
  | drive
  | kvmKey
  | kvmMouse
  | eStop
  | ping
  | pong
  | frameTimestamp
  | ack
  | error
  | state
  | other (s : String)
  deriving DecidableEq, Repr

/-- `DriveMessage` (velocities in [-1, 1], `t` in milliseconds). -/
structure DriveMessage where
  v : Rat
  w : Rat
  t : Int
  deriving DecidableEq, Repr

structure KVMKeyMessage where
  key : String
  action : String
  modifiers : List String
  t : Int
  deriving DecidableEq, Repr

structure KVMMouseMessage where
  dx : Int
  dy : Int
  buttons : Int
  scroll : Int
  t : Int
  deriving DecidableEq, Repr

structure EStopMessage where
  t : Int
  deriving DecidableEq, Repr

/-- `PingMessage` (its own type is always `ping`). -/
structure PingMessage where
  seq : Nat
  tMono : Int
  deriving DecidableEq, Repr

structure PongMessage where
  seq : Nat
  tMono : Int
  tRecv : Int
  deriving DecidableEq, Repr

/-- `AckMessage` (its own type is always `ack`). -/
structure AckMessage where
  refType : MessageType
  refT : Int
  deriving DecidableEq, Repr

/-- The two robot states a safe-stop reports, with the session state that goes
with each. -/
inductive SafeStopState where
  | safeStop
  | safeStopFailed
  deriving DecidableEq, Repr

/-- What the agent sends on its data channel: acknowledgements and the state
message of a safe-stop (`T` in milliseconds). -/
inductive Outgoing where
  | ack (msg : AckMessage)
  | state (robotState : SafeStopState) (t : Int)
  deriving DecidableEq, Repr

/-- `json.Unmarshal` into each message type: `none` where it returns an
error. -/
structure Decoder where
  base : Bytes → Option MessageType
  drive : Bytes → Option DriveMessage
  kvmKey : Bytes → Option KVMKeyMessage
  kvmMouse : Bytes → Option KVMMouseMessage
  eStop : Bytes → Option EStopMessage
  pong : Bytes → Option PongMessage

/-- Scopes for authorization. -/
def scopeControl : String := "teleop:control"

end ChainKVM.Robot
