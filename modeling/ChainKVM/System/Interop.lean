import ChainKVM.Console.Signaling
import ChainKVM.Gateway.Rooms
import ChainKVM.Robot.Signaling

/-!
# One protocol, three implementations

What a message of the console means to the robot once the gateway has relayed
it, what a message of the robot means to the console, and what the gateway
makes of the robot's join.

The gateway relays a message as it came, so all depends on the names of its
members. The console puts a description into `sdp` and a candidate into
`candidate`; the robot looks for both in `payload`, and for the capability
token in `token`, which the console sends with its join only. The robot's join
has neither a session id nor a token.
-/

namespace ChainKVM.System

open Js (Val)
open Gateway (Delivery ServerMessage Signaling SocketEvent TokenRegistry)
open Robot (SignalCall SignalField SignalMessage)
open Robot.SignalingClient (receive sendAnswer sendICE)

/-! ## What the robot makes of a message -/

section Receive

theorem ofKey_type : SignalField.ofKey "type" = some .type := by decide

theorem ofKey_session_id : SignalField.ofKey "session_id" = some .sessionID := by decide

theorem ofKey_reason : SignalField.ofKey "reason" = some .reason := by decide

/-- These mean nothing to the robot. -/
theorem ofKey_unknown : ∀ key ∈ ["sdp", "candidate", "code", "message", "state"],
    SignalField.ofKey key = none := by decide

/-- The console's offer arrives without a token and without a description. -/
theorem receive_sendOffer (sessionId : String) (sdp : Val) :
    receive (Console.sendOffer sessionId sdp) = some (.onOffer sessionId "" none) := by
  have hsdp : SignalField.ofKey "sdp" = none := ofKey_unknown _ (by simp)
  simp only [receive, Console.sendOffer, SignalMessage.unmarshal, List.foldlM,
    SignalMessage.setMember, ofKey_type, ofKey_session_id, hsdp]
  rfl

/-- The console's candidate arrives as none. -/
theorem receive_sendIce (sessionId : String) (candidate : Val) :
    receive (Console.sendIce sessionId candidate) = some (.onICE sessionId none) := by
  have hcandidate : SignalField.ofKey "candidate" = none := ofKey_unknown _ (by simp)
  simp only [receive, Console.sendIce, SignalMessage.unmarshal, List.foldlM,
    SignalMessage.setMember, ofKey_type, ofKey_session_id, hcandidate]
  rfl

/-- The reason that a revocation arrives with: a text, or nothing for none.
Anything else does not decode. -/
def reasonText : Val → Option String
  | .undefined => some ""
  | .null => some ""
  | .str reason => some reason
  | _ => none

theorem receive_revoked (sessionId : String) (reason : Val) :
    receive (ServerMessage.revoked sessionId reason).json =
      (reasonText reason).map (.onRevoked sessionId) := by
  cases reason <;>
    simp only [receive, ServerMessage.json, SignalMessage.unmarshal, List.foldlM,
      SignalMessage.setMember, ofKey_type, ofKey_session_id, ofKey_reason] <;> rfl

/-- The gateway's own messages offer nothing. -/
theorem receive_own {message : ServerMessage} (hown : ∀ sender msg, message ≠ .relayed sender msg)
    {call : SignalCall} (h : receive message.json = some call) :
    ∃ sessionID reason, call = .onRevoked sessionID reason := by
  cases message with
  | relayed sender msg => exact absurd rfl (hown sender msg)
  | error code message =>
    have hcode : SignalField.ofKey "code" = none := ofKey_unknown _ (by simp)
    have hmessage : SignalField.ofKey "message" = none := ofKey_unknown _ (by simp)
    simp only [receive, ServerMessage.json, SignalMessage.unmarshal, List.foldlM,
      SignalMessage.setMember, ofKey_type, hcode, hmessage] at h
    cases h
  | session_state sessionId state =>
    have hstate : SignalField.ofKey "state" = none := ofKey_unknown _ (by simp)
    simp only [receive, ServerMessage.json, SignalMessage.unmarshal, List.foldlM,
      SignalMessage.setMember, ofKey_type, ofKey_session_id, hstate] at h
    cases h
  | revoked sessionId reason =>
    rw [receive_revoked] at h
    obtain ⟨text, -, rfl⟩ := Option.map_eq_some_iff.mp h
    exact ⟨sessionId, text, rfl⟩

end Receive

/-! ## What the console makes of a message -/

/-- The robot's answer has no description that the console would see. -/
theorem handleMessage_sendAnswer (sessionID : String) (sdp : Option Val) :
    Console.handleMessage (sendAnswer sessionID sdp) = none := by
  have hsdp : (sendAnswer sessionID sdp).member "sdp" = .undefined := by
    by_cases hid : sessionID = "" <;> cases sdp <;>
      simp [sendAnswer, SignalMessage.marshal, SignalMessage.omitempty, SignalMessage.zero,
        Val.member, List.lookup_cons, hid]
  show Console.withSession (sendAnswer sessionID sdp) "sdp" .onAnswer = none
  unfold Console.withSession
  rw [hsdp, if_neg (by simp [Val.truthy])]

/-- Nor a candidate. -/
theorem handleMessage_sendICE (sessionID : String) (candidate : Option Val) :
    Console.handleMessage (sendICE sessionID candidate) = none := by
  have hcandidate : (sendICE sessionID candidate).member "candidate" = .undefined := by
    by_cases hid : sessionID = "" <;> cases candidate <;>
      simp [sendICE, SignalMessage.marshal, SignalMessage.omitempty, SignalMessage.zero,
        Val.member, List.lookup_cons, hid]
  show Console.withSession (sendICE sessionID candidate) "candidate" .onIceCandidate = none
  unfold Console.withSession
  rw [hcandidate, if_neg (by simp [Val.truthy])]

/-- The gateway's own messages answer nothing. -/
theorem handleMessage_own {message : ServerMessage}
    (hown : ∀ sender msg, message ≠ .relayed sender msg) (sessionId v : Val) :
    Console.handleMessage message.json ≠ some (.onAnswer sessionId v) ∧
      Console.handleMessage message.json ≠ some (.onIceCandidate sessionId v) := by
  cases message with
  | relayed sender msg => exact absurd rfl (hown sender msg)
  | error code message => exact ⟨nofun, nofun⟩
  | session_state session_id state =>
    have hcases : Console.handleMessage (ServerMessage.session_state session_id state).json = none ∨
        Console.handleMessage (ServerMessage.session_state session_id state).json =
          some (.onSessionState (.str session_id) (.str state)) := by
      show Console.withSession _ "state" .onSessionState = none ∨
        Console.withSession _ "state" .onSessionState = _
      unfold Console.withSession
      split
      · exact .inr rfl
      · exact .inl rfl
    rcases hcases with h | h
    · rw [h]
      exact ⟨nofun, nofun⟩
    · rw [h]
      exact ⟨nofun, nofun⟩
  | revoked session_id reason => cases reason <;> exact ⟨nofun, nofun⟩

/-! ## Through the gateway -/

section Relay

variable (decodePart : String → Option Val) (s : Signaling) (now : Int)
  (registry : Option TokenRegistry)

/-- What the gateway sends when it handles a message of a peer. -/
def delivered (peerId : String) (msg : Val) : List Delivery :=
  (s.step decodePart (.message peerId now registry (some msg))).sent.drop s.sent.length

/-- A message is relayed as it came, or it is answered by the gateway. -/
theorem delivered_cases {peerId : String} {msg : Val} {d : Delivery}
    (hd : d ∈ delivered decodePart s now registry peerId msg) :
    (∀ sender m, d.message ≠ .relayed sender m) ∨ d.message = .relayed peerId msg := by
  unfold delivered at hd
  by_cases hup : s.up = true
  · cases hsocket : s.sockets.get peerId with
    | none =>
      rw [(Signaling.step_of_unconnected hsocket now registry (some msg)).1,
        List.drop_length] at hd
      cases hd
    | some socket =>
      rw [Signaling.step_message hup hsocket] at hd
      cases hrelayed : Signaling.relayedIn socket (some msg) with
      | none =>
        have hquiet := Signaling.quiet_onMessage decodePart now registry s peerId socket hrelayed
        exact .inl (Signaling.not_mem_drop_of_quiet hquiet d hd)
      | some sid =>
        rw [Signaling.onMessage_relayed decodePart now registry s peerId hrelayed] at hd
        have hnew : d ∈ (s.sent ++ (s.recipients sid (some peerId)).map fun recipient =>
            (⟨recipient, .relayed peerId msg⟩ : Delivery)).drop s.sent.length := hd
        rw [List.drop_left] at hnew
        obtain ⟨recipient, -, rfl⟩ := List.mem_map.mp hnew
        exact .inr rfl
  · rw [Signaling.step_of_down (Bool.eq_false_iff.mpr hup), List.drop_length] at hd
    cases hd

/-- What neither the message nor anything the gateway says itself is, nothing
that the gateway delivers is. -/
theorem not_delivered (P : Val → Prop) {peerId : String} {msg : Val} (hmsg : ¬ P msg)
    (hown : ∀ message : ServerMessage, (∀ sender m, message ≠ .relayed sender m) →
      ¬ P message.json) :
    ¬ ∃ d ∈ delivered decodePart s now registry peerId msg, P d.message.json := by
  rintro ⟨d, hd, hp⟩
  rcases delivered_cases decodePart s now registry hd with hgateway | hrelayed
  · exact hown d.message hgateway hp
  · rw [hrelayed] at hp
    exact hmsg hp

/-- The console's offer reaches a robot, with the token and the description. -/
def OfferArrives (peerId sessionId token : String) (sdp : Val) : Prop :=
  ∃ d ∈ delivered decodePart s now registry peerId (Console.sendOffer sessionId sdp),
    receive d.message.json = some (.onOffer sessionId token (some sdp))

/-- The console's candidate reaches a robot. -/
def IceArrives (peerId sessionId : String) (candidate : Val) : Prop :=
  ∃ d ∈ delivered decodePart s now registry peerId (Console.sendIce sessionId candidate),
    receive d.message.json = some (.onICE sessionId (some candidate))

/-- The robot's answer reaches a console, with the description. -/
def AnswerArrives (peerId sessionId : String) (sdp : Val) : Prop :=
  ∃ d ∈ delivered decodePart s now registry peerId (sendAnswer sessionId (some sdp)),
    Console.handleMessage d.message.json = some (.onAnswer (.str sessionId) sdp)

/-- The robot's candidate reaches a console. -/
def RobotIceArrives (peerId sessionId : String) (candidate : Val) : Prop :=
  ∃ d ∈ delivered decodePart s now registry peerId (sendICE sessionId (some candidate)),
    Console.handleMessage d.message.json = some (.onIceCandidate (.str sessionId) candidate)

/-- The robot's join is accepted. -/
def RobotJoins (robotID : String) : Prop :=
  ∃ claims, Signaling.admits decodePart now registry
    (some (Robot.SignalingClient.sendJoin robotID)) = some claims

/-- Console and robot understand each other. -/
structure Interoperates (console robot sessionId token robotID : String) (sdp candidate : Val) :
    Prop where
  offer : OfferArrives decodePart s now registry console sessionId token sdp
  ice : IceArrives decodePart s now registry console sessionId candidate
  answer : AnswerArrives decodePart s now registry robot sessionId sdp
  robotIce : RobotIceArrives decodePart s now registry robot sessionId candidate
  join : RobotJoins decodePart now registry robotID

/-- No part of it holds, whatever is sent in whatever state. -/
theorem nothing_arrives (console robot sessionId token robotID : String) (sdp candidate : Val) :
    ¬ OfferArrives decodePart s now registry console sessionId token sdp ∧
      ¬ IceArrives decodePart s now registry console sessionId candidate ∧
      ¬ AnswerArrives decodePart s now registry robot sessionId sdp ∧
      ¬ RobotIceArrives decodePart s now registry robot sessionId candidate ∧
      ¬ RobotJoins decodePart now registry robotID := by
  refine ⟨?_, ?_, ?_, ?_, ?_⟩
  · refine not_delivered decodePart s now registry
      (fun json => receive json = some (.onOffer sessionId token (some sdp))) ?_ ?_
    · rw [receive_sendOffer]
      exact nofun
    · intro message hown hcall
      obtain ⟨sessionID, reason, h⟩ := receive_own hown hcall
      cases h
  · refine not_delivered decodePart s now registry
      (fun json => receive json = some (.onICE sessionId (some candidate))) ?_ ?_
    · rw [receive_sendIce]
      exact nofun
    · intro message hown hcall
      obtain ⟨sessionID, reason, h⟩ := receive_own hown hcall
      cases h
  · refine not_delivered decodePart s now registry
      (fun json => Console.handleMessage json = some (.onAnswer (.str sessionId) sdp)) ?_
      fun message hown => (handleMessage_own hown (.str sessionId) sdp).1
    rw [handleMessage_sendAnswer]
    exact nofun
  · refine not_delivered decodePart s now registry
      (fun json => Console.handleMessage json = some (.onIceCandidate (.str sessionId) candidate))
      ?_ fun message hown => (handleMessage_own hown (.str sessionId) candidate).2
    rw [handleMessage_sendICE]
    exact nofun
  · -- the join has no token
    rintro ⟨claims, h⟩
    have htoken : (Robot.SignalingClient.sendJoin robotID).member "token" = .undefined := by
      by_cases hid : robotID = "" <;>
        simp [Robot.SignalingClient.sendJoin, SignalMessage.marshal, SignalMessage.omitempty,
          SignalMessage.zero, Val.member, List.lookup_cons, hid]
    have hmissing : (Gateway.validateJoinToken decodePart now registry
        (Robot.SignalingClient.sendJoin robotID)).1 =
          .error Gateway.SignalingErrors.missingToken := by
      unfold Gateway.validateJoinToken
      rw [htoken]
      rfl
    simp only [Signaling.admits, hmissing, ite_self] at h
    cases h

end Relay

/-! ## A console and a robot in one room -/

/-- A console and a robot that have joined `ses_1` with its token. -/
def paired : Signaling :=
  Machine.run (Signaling.step Signaling.ses1Part) .start
    [.connect "console", Signaling.ses1Message "console" "join", .connect "robot",
      Signaling.ses1Message "robot" "join"]

/-- Even they do not understand each other. -/
theorem interoperates_fails :
    ¬ ∀ (decodePart : String → Option Val) (s : Signaling) (now : Int)
      (registry : Option TokenRegistry) (console robot sessionId token robotID : String)
      (sdp candidate : Val),
        Interoperates decodePart s now registry console robot sessionId token robotID sdp
          candidate := by
  intro h
  obtain ⟨d, hd, hcall⟩ := (h Signaling.ses1Part paired 0 none "console" "robot" "ses_1" "h.p.s"
    "robot-1" (Console.description "offer" "v=0") (.obj [("candidate", .str "candidate:1"),
      ("sdpMid", .str "0"), ("sdpMLineIndex", .num (.fin 0))])).offer
  have hone : d ∈ [(⟨"robot", .relayed "console"
      (Console.sendOffer "ses_1" (Console.description "offer" "v=0"))⟩ : Delivery)] := hd
  rw [List.mem_singleton] at hone
  rw [hone] at hcall
  have hempty := (receive_sendOffer "ses_1" (Console.description "offer" "v=0")).symm.trans hcall
  -- the description is not there
  exact nomatch (SignalCall.onOffer.inj (Option.some.inj hempty)).2.2

end ChainKVM.System
