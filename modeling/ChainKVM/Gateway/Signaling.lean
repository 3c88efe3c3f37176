import ChainKVM.Gateway.Tokens

/-!
# Signaling: `routes/signaling.ts`

The gateway relays the messages with which the two peers of a session
negotiate their connection. A peer is a WebSocket with an id of its own; after
it has joined it is a member of the session's room, and what it sends goes to
the other members. Membership is stored twice: in the room, and in the
`PeerState` that the socket's listeners share.

`Signaling` is that state together with everything that has been sent. An
exception in a listener is caught by nobody and ends the process; a handler
that throws is `none`, and the server is not `up` after it.

A message is modelled by what `JSON.parse` makes of it. The socket of a room's
member is the one with the member's peer id.
-/

namespace ChainKVM.Gateway

open Js (Val)

/-! ## Errors: `signaling-errors.ts` -/

/-- `SignalingError`. -/
structure SignalingError where
  code : String
  message : String
  deriving DecidableEq, Repr

namespace SignalingErrors

def missingToken : SignalingError := ⟨"missing_token", "Token is required"⟩
def invalidToken : SignalingError := ⟨"invalid_token", "Invalid token format"⟩
def sessionMismatch : SignalingError := ⟨"session_mismatch", "Token session does not match"⟩
def tokenInvalid : SignalingError := ⟨"token_invalid", "Token is not valid or expired"⟩
def invalidJson : SignalingError := ⟨"invalid_json", "Failed to parse message"⟩
def notJoined : SignalingError := ⟨"not_joined", "Must join a session first"⟩
def unknownType : SignalingError := ⟨"unknown_type", "Unknown message type"⟩

end SignalingErrors

/-! ## Tokens of joins -/

/-- What `decodeTokenClaims` reads. -/
structure JoinClaims where
  jti : String
  sid : String
  deriving DecidableEq, Repr

/-- `decodeTokenClaims`, where `decodePart` decodes base64url and parses
JSON. The signature is not looked at. -/
def decodeTokenClaims (decodePart : String → Option Val) (token : String) : Option JoinClaims :=
  match token.toList.splitOn '.' with
  | [_, payload, _] =>
    match decodePart (String.ofList payload) with
    | some payload =>
      match payload.member "jti", payload.member "sid" with
      | .str jti, .str sid => some ⟨jti, sid⟩
      | _, _ => none
    | none => none
  | _ => none

/-- The result of `validateJoinToken`, or an exception. -/
inductive JoinCheck where
  | error (error : SignalingError)
  | claims (claims : JoinClaims)
  | thrown

/-- The last check of `validateJoinToken`, if there is a registry. -/
def checkRegistered (now : Int) (registry : Option TokenRegistry) (claims : JoinClaims) :
    JoinCheck × Option TokenRegistry :=
  match registry with
  | none => (.claims claims, none)
  | some r =>
    let asked := r.isValid now claims.jti
    (if asked.1 then .claims claims else .error SignalingErrors.tokenInvalid, some asked.2)

/-- `validateJoinToken`. Anything truthy that is no string has no `split`. -/
def validateJoinToken (decodePart : String → Option Val) (now : Int)
    (registry : Option TokenRegistry) (msg : Val) : JoinCheck × Option TokenRegistry :=
  let token := msg.member "token"
  if !token.truthy then (.error SignalingErrors.missingToken, registry)
  else
    match token with
    | .str token =>
      match decodeTokenClaims decodePart token with
      | none => (.error SignalingErrors.invalidToken, registry)
      | some claims =>
        if !(msg.member "session_id").strictEq (.str claims.sid) then
          (.error SignalingErrors.sessionMismatch, registry)
        else checkRegistered now registry claims
    | _ => (.thrown, registry)

/-! ## State -/

/-- `Peer`. -/
structure Peer where
  role : Val
  sessionId : String

/-- `PeerState`. -/
structure PeerState where
  sessionId : Option String
  role : Val

/-- The session id, where the code only asks whether it is truthy. -/
def PeerState.session (state : PeerState) : Option String :=
  state.sessionId.filter fun sid => sid ≠ ""

/-- A connected socket; `isOpen` says that its `readyState` is 1. -/
structure Socket where
  state : PeerState
  isOpen : Bool

/-- What the server sends. A relayed message is sent as it came; `sender` is
the peer it came from. -/
inductive ServerMessage where
  | error (code message : String)
  | session_state (session_id state : String)
  | relayed (sender : String) (msg : Val)
  | revoked (session_id : String) (reason : Val)

/-- What the message is the JSON text of; a member that is `undefined` is left
out. -/
def ServerMessage.json : ServerMessage → Val
  | .error code message =>
    .obj [("type", .str "error"), ("code", .str code), ("message", .str message)]
  | .session_state session_id state =>
    .obj [("type", .str "session_state"), ("session_id", .str session_id), ("state", .str state)]
  | .relayed _ msg => msg
  | .revoked session_id .undefined =>
    .obj [("type", .str "revoked"), ("session_id", .str session_id)]
  | .revoked session_id reason =>
    .obj [("type", .str "revoked"), ("session_id", .str session_id), ("reason", reason)]

/-- A message that has been handed to a socket. -/
structure Delivery where
  recipient : String
  message : ServerMessage

/-- The rooms, each a map from peer ids. -/
abbrev Rooms := OrdMap String (OrdMap String Peer)

/-- The signaling server: its connected sockets by peer id, the rooms and what
has been sent. -/
structure Signaling where
  sockets : OrdMap String Socket
  rooms : Rooms
  sent : List Delivery
  up : Bool

/-- A server without connections. -/
def Signaling.start : Signaling := ⟨OrdMap.empty, OrdMap.empty, [], true⟩

/-! ## Rooms -/

/-- `leaveRoom`. -/
def leaveRoom (rooms : Rooms) (peerId sessionId : String) : Rooms :=
  match rooms.get sessionId with
  | none => rooms
  | some room =>
    if (room.delete peerId).size = 0 then rooms.delete sessionId
    else rooms.set sessionId (room.delete peerId)

/-- `joinRoom`. -/
def joinRoom (rooms : Rooms) (peerId sessionId : String) (role : Val) : Rooms :=
  rooms.set sessionId (((rooms.get sessionId).getD OrdMap.empty).set peerId ⟨role, sessionId⟩)

namespace Signaling

/-- `ws.readyState === 1`. -/
def isOpen (s : Signaling) (peerId : String) : Bool := (s.sockets.get peerId).any Socket.isOpen

/-- `ws.send`: on a socket that is closing nothing is sent. -/
def send (s : Signaling) (peerId : String) (message : ServerMessage) : Signaling :=
  if s.isOpen peerId then { s with sent := s.sent ++ [⟨peerId, message⟩] } else s

/-- The members of a room, other than one, whose sockets are open. -/
def recipients (s : Signaling) (sessionId : String) (excludePeerId : Option String) : List String :=
  match s.rooms.get sessionId with
  | none => []
  | some room =>
    (room.entries.map Prod.fst).filter fun peerId => some peerId ≠ excludePeerId ∧ s.isOpen peerId

/-- `broadcast`. -/
def broadcast (s : Signaling) (sessionId : String) (message : ServerMessage)
    (excludePeerId : Option String) : Signaling :=
  { s with sent := s.sent ++ (s.recipients sessionId excludePeerId).map fun peerId =>
      ⟨peerId, message⟩ }

/-- `sendError`. -/
def sendError (s : Signaling) (peerId : String) (error : SignalingError) : Signaling :=
  s.send peerId (.error error.code error.message)

/-! ## The listeners -/

/-- `${v}`; `none` when it throws. -/
def templateText (v : Val) : Option String :=
  v.toPrimitive.map fun
    | .undefined => "undefined"
    | .null => "null"
    | p => Js.itemText p

/-- Assigning to a socket's `PeerState`. -/
def setState (s : Signaling) (peerId : String) (state : PeerState) : Signaling :=
  { s with sockets := s.sockets.update peerId fun socket => { socket with state := state } }

/-- The part of `handleJoin` that moves the peer: out of the room it is in,
into the one it asked for. -/
def enter (s : Signaling) (peerId : String) (state : PeerState) (sessionId : String) (role : Val) :
    Signaling :=
  let left :=
    match state.session with
    | some old => leaveRoom s.rooms peerId old
    | none => s.rooms
  { s.setState peerId ⟨some sessionId, role⟩ with rooms := joinRoom left peerId sessionId role }

/-- `handleJoin`, given what `validateJoinToken` says. -/
def handleJoin (s : Signaling) (peerId : String) (state : PeerState) (msg : Val)
    (result : JoinCheck) : Option Signaling :=
  match result with
  | .thrown => none
  | .error error => some (s.sendError peerId error)
  | .claims claims =>
    -- the session id of the message is that of the claims
    (templateText (msg.member "role")).map fun role =>
      ((s.enter peerId state claims.sid (msg.member "role")).broadcast claims.sid
        (.session_state claims.sid (role ++ "_joined")) (some peerId)).send peerId
        (.session_state claims.sid "joined")

/-- `handleLeave`. -/
def handleLeave (s : Signaling) (peerId : String) (state : PeerState) : Option Signaling :=
  match state.session with
  | none => some s
  | some sid =>
    (templateText state.role).map fun role =>
      ({ s with rooms := leaveRoom s.rooms peerId sid }.broadcast sid
        (.session_state sid (role ++ "_left")) none).setState peerId ⟨none, .null⟩

/-- `handleDisconnect`. -/
def handleDisconnect (s : Signaling) (peerId : String) (state : PeerState) : Option Signaling :=
  match state.session with
  | none => some s
  | some sid =>
    let left := { s with rooms := leaveRoom s.rooms peerId sid }
    -- the room is gone, or there is somebody to tell
    if (s.rooms.get sid).any fun room => (room.delete peerId).size = 0 then some left
    else
      (templateText state.role).map fun role =>
        left.broadcast sid (.session_state sid (role ++ "_disconnected")) none

/-- The types of message that are relayed. -/
def isRelayed (msg : Val) : Bool :=
  (msg.member "type").strictEq (.str "offer") || (msg.member "type").strictEq (.str "answer") ||
    (msg.member "type").strictEq (.str "ice")

/-- The listener for messages; `none` for a text that is no JSON. -/
def onMessage (decodePart : String → Option Val) (now : Int) (registry : Option TokenRegistry)
    (s : Signaling) (peerId : String) (state : PeerState) :
    Option Val → Option Signaling × Option TokenRegistry
  | none => (some (s.sendError peerId SignalingErrors.invalidJson), registry)
  | some .undefined => (none, registry)
  | some .null => (none, registry)
  | some msg =>
    if (msg.member "type").strictEq (.str "join") then
      let result := validateJoinToken decodePart now registry msg
      (s.handleJoin peerId state msg result.1, result.2)
    else if isRelayed msg then
      match state.session with
      | none => (some (s.sendError peerId SignalingErrors.notJoined), registry)
      | some sid => (some (s.broadcast sid (.relayed peerId msg) (some peerId)), registry)
    else if (msg.member "type").strictEq (.str "leave") then (s.handleLeave peerId state, registry)
    else
      ((templateText (msg.member "type")).map fun type =>
        s.sendError peerId
          { SignalingErrors.unknownType with
            message := SignalingErrors.unknownType.message ++ ": " ++ type }, registry)

/-- `notifyRevocation`. The sockets start closing; their states keep the
session id. -/
def notifyRevocation (s : Signaling) (sessionId : String) (reason : Val) : Signaling :=
  let told := s.broadcast sessionId (.revoked sessionId reason) none
  match s.rooms.get sessionId with
  | none => told
  | some room =>
    { told with
      sockets := (room.entries.map Prod.fst).foldl
        (fun sockets peerId => sockets.update peerId fun socket => { socket with isOpen := false })
        told.sockets
      rooms := told.rooms.delete sessionId }

end Signaling

/-! ## The server -/

/-- What happens to the server. A message comes with the clock and the token
registry that its listener sees, if signaling has been given one. -/
inductive SocketEvent where
  | connect (peerId : String)
  | message (peerId : String) (now : Int) (registry : Option TokenRegistry) (msg : Option Val)
  /-- The other side has started to close the connection. -/
  | closing (peerId : String)
  /-- The connection is closed. -/
  | close (peerId : String)
  /-- `notifyRevocation`. -/
  | revoke (sessionId : String) (reason : Val)

namespace Signaling

/-- The state after a listener has run: one that throws ends the process. -/
def settled (s : Signaling) : Option Signaling → Signaling
  | some s' => s'
  | none => { s with up := false }

/-- The state after an event. -/
def step (decodePart : String → Option Val) (s : Signaling) (e : SocketEvent) : Signaling :=
  if !s.up then s
  else
    match e with
    | .connect peerId => { s with sockets := s.sockets.set peerId ⟨⟨none, .null⟩, true⟩ }
    | .message peerId now registry msg =>
      match s.sockets.get peerId with
      | none => s
      | some socket => s.settled (s.onMessage decodePart now registry peerId socket.state msg).1
    | .closing peerId =>
      { s with sockets := s.sockets.update peerId fun socket => { socket with isOpen := false } }
    | .close peerId =>
      match s.sockets.get peerId with
      | none => s
      | some socket =>
        s.settled ((s.handleDisconnect peerId socket.state).map fun s =>
          { s with sockets := s.sockets.delete peerId })
    | .revoke sessionId reason => s.notifyRevocation sessionId reason

end Signaling

end ChainKVM.Gateway
