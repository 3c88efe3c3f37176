import ChainKVM.Lib.Js

/-!
# The console's signaling: `hooks/useSignaling.ts`

The messages that the hook sends and what it makes of those it receives. A
session description and a candidate are objects of their own, in members of
their own.
-/

namespace ChainKVM.Console

open Js (Val)

/-! ## Sending -/

/-- `sendJoin`. -/
def sendJoin (sessionId role token : String) : Val :=
  .obj [("type", .str "join"), ("session_id", .str sessionId), ("role", .str role),
    ("token", .str token)]

/-- `sendOffer`. -/
def sendOffer (sessionId : String) (sdp : Val) : Val :=
  .obj [("type", .str "offer"), ("session_id", .str sessionId), ("sdp", sdp)]

/-- `sendAnswer`. -/
def sendAnswer (sessionId : String) (sdp : Val) : Val :=
  .obj [("type", .str "answer"), ("session_id", .str sessionId), ("sdp", sdp)]

/-- `sendIce`. -/
def sendIce (sessionId : String) (candidate : Val) : Val :=
  .obj [("type", .str "ice"), ("session_id", .str sessionId), ("candidate", candidate)]

/-- `sendLeave`. -/
def sendLeave : Val := .obj [("type", .str "leave")]

/-- `RTCSessionDescriptionInit`. -/
def description (type sdp : String) : Val := .obj [("type", .str type), ("sdp", .str sdp)]

/-! ## Receiving -/

/-- The callbacks of the hook. `onRevoked` also sets `revocationReason`. -/
inductive Callback where
  | onOffer (sessionId sdp : Val)
  | onAnswer (sessionId sdp : Val)
  | onIceCandidate (sessionId candidate : Val)
  | onSessionState (sessionId state : Val)
  | onRevoked (sessionId reason : Val)
  | onError (code message : Val)

/-- A callback for a session and one more member, if both are there. -/
def withSession (msg : Val) (name : String) (call : Val → Val → Callback) : Option Callback :=
  if (msg.member "session_id").truthy && (msg.member name).truthy then
    some (call (msg.member "session_id") (msg.member name))
  else none

/-- `handleMessage`, for a text that is JSON. -/
def handleMessage (msg : Val) : Option Callback :=
  match msg.member "type" with
  | .str type =>
    if type = "offer" then withSession msg "sdp" .onOffer
    else if type = "answer" then withSession msg "sdp" .onAnswer
    else if type = "ice" then withSession msg "candidate" .onIceCandidate
    else if type = "session_state" then withSession msg "state" .onSessionState
    else if type = "revoked" then
      some (.onRevoked ((msg.member "session_id").or (.str ""))
        ((msg.member "reason").or (.str "Unknown reason")))
    else if type = "error" then
      some (.onError ((msg.member "code").or (.str "UNKNOWN"))
        ((msg.member "message").or (.str "Unknown error")))
    else none
  | _ => none

end ChainKVM.Console
