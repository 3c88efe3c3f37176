import ChainKVM.Lib.Js

/-!
# The agent's signaling client: `internal/session/signaling.go`

What the client makes of the messages of the gateway, and what it sends. The
messages of one WebSocket are JSON texts; here they are the values the texts
stand for. `payload` is a `json.RawMessage`: nil, or the text of any value.

`encoding/json` finds the field of a member by its name or, failing that, by
its folded name, and it takes the members one after the other, so a later one
replaces an earlier one of the same field.
-/

namespace ChainKVM.Robot

open Js (Val)

/-! ## Messages: `signaling_types.go` -/

/-- `SignalMessage`. -/
structure SignalMessage where
  type : String
  robotID : String
  sessionID : String
  token : String
  payload : Option Val
  error : String
  reason : String

/-- The zero value. -/
def SignalMessage.zero : SignalMessage := ⟨"", "", "", "", none, "", ""⟩

/-- The fields of `SignalMessage`. -/
inductive SignalField where
  | type
  | robotID
  | sessionID
  | token
  | payload
  | error
  | reason
  deriving DecidableEq, Repr

namespace SignalField

/-- The fields in order, with their names in JSON. -/
def names : List (SignalField × String) :=
  [(.type, "type"), (.robotID, "robot_id"), (.sessionID, "session_id"), (.token, "token"),
    (.payload, "payload"), (.error, "error"), (.reason, "reason")]

/-- The folding of a character, as far as it can reach an ASCII letter: small
letters, the long s and the Kelvin sign. -/
def foldChar (c : Char) : Char :=
  if 'a' ≤ c ∧ c ≤ 'z' then Char.ofNat (c.toNat - 32)
  else if c.toNat = 383 then 'S'
  else if c.toNat = 8490 then 'K'
  else c

/-- `foldName`. -/
def foldName (name : String) : List Char := name.toList.map foldChar

/-- The field that a member's key stands for. -/
def ofKey (key : String) : Option SignalField :=
  match names.find? fun f => f.2 = key with
  | some f => some f.1
  | none => (names.find? fun f => foldName f.2 = foldName key).map Prod.fst

end SignalField

namespace SignalMessage

/-- Decoding a string into a field: `null` leaves it as it is. -/
def setString (m : SignalMessage) (v : Val) (set : String → SignalMessage) :
    Option SignalMessage :=
  match v with
  | .str s => some (set s)
  | .null => some m
  | _ => none

/-- Decoding a member into its field. -/
def setField (m : SignalMessage) (field : SignalField) (v : Val) : Option SignalMessage :=
  match field with
  | .type => m.setString v fun s => { m with type := s }
  | .robotID => m.setString v fun s => { m with robotID := s }
  | .sessionID => m.setString v fun s => { m with sessionID := s }
  | .token => m.setString v fun s => { m with token := s }
  | .payload => some { m with payload := some v }
  | .error => m.setString v fun s => { m with error := s }
  | .reason => m.setString v fun s => { m with reason := s }

/-- Decoding one member of the object. -/
def setMember (m : SignalMessage) (member : String × Val) : Option SignalMessage :=
  match SignalField.ofKey member.1 with
  | none => some m
  | some field => m.setField field member.2

/-- `json.Unmarshal` into a `SignalMessage`; `none` is an error. -/
def unmarshal : Val → Option SignalMessage
  | .null => some zero
  | .obj members => members.foldlM setMember zero
  | _ => none

/-- A string member, left out when it is empty. -/
def omitempty (name value : String) : List (String × Val) :=
  if value = "" then [] else [(name, .str value)]

/-- `json.Marshal`. -/
def marshal (m : SignalMessage) : Val :=
  .obj (("type", .str m.type) :: (omitempty "robot_id" m.robotID ++
    omitempty "session_id" m.sessionID ++ omitempty "token" m.token ++
    (m.payload.map fun v => ("payload", v)).toList ++ omitempty "error" m.error ++
    omitempty "reason" m.reason))

end SignalMessage

/-! ## The client -/

/-- The calls of `SignalingHandler`. -/
inductive SignalCall where
  | onOffer (sessionID token : String) (sdp : Option Val)
  | onAnswer (sessionID : String) (sdp : Option Val)
  | onICE (sessionID : String) (candidate : Option Val)
  | onBye (sessionID : String)
  | onRevoked (sessionID reason : String)

namespace SignalingClient

/-- `handleMessage`. Errors are logged, other types are ignored. -/
def handleMessage (msg : SignalMessage) : Option SignalCall :=
  if msg.type = "offer" then some (.onOffer msg.sessionID msg.token msg.payload)
  else if msg.type = "answer" then some (.onAnswer msg.sessionID msg.payload)
  else if msg.type = "ice" then some (.onICE msg.sessionID msg.payload)
  else if msg.type = "bye" then some (.onBye msg.sessionID)
  else if msg.type = "revoked" then some (.onRevoked msg.sessionID msg.reason)
  else none

/-- The body of `readLoop`: what does not decode is skipped. -/
def receive (data : Val) : Option SignalCall := (SignalMessage.unmarshal data).bind handleMessage

/-- `sendJoin`. -/
def sendJoin (robotID : String) : Val :=
  { SignalMessage.zero with type := "join", robotID := robotID : SignalMessage }.marshal

/-- `SendAnswer`; `sdp` is what the bytes are the JSON text of, if there are
any. -/
def sendAnswer (sessionID : String) (sdp : Option Val) : Val :=
  { SignalMessage.zero with
    type := "answer", sessionID := sessionID, payload := sdp : SignalMessage }.marshal

/-- `SendICE`. -/
def sendICE (sessionID : String) (candidate : Option Val) : Val :=
  { SignalMessage.zero with
    type := "ice", sessionID := sessionID, payload := candidate : SignalMessage }.marshal

end SignalingClient

end ChainKVM.Robot
