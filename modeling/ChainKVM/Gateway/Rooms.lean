import ChainKVM.Gateway.Signaling
import ChainKVM.Lib.Machine

/-!
# Who is in which room

Membership is stored twice, in the rooms and in the states of the sockets. It
should be stored consistently (`Signaling.Coherent`), and what is relayed
should stay within a room and carry the room's session id (`RelaysWithin`).

Four things break this: a peer whose session id is the empty text, which the
listeners take for none; the same peer's connection closing; a revocation,
which deletes a room and leaves the members' states as they are; and a relayed
message whose session id is not the room's, which nobody compares. Each step
that does none of them keeps both properties, and each step that does one
breaks one of them (`coherent_step_iff`, `relaysWithin_iff`).
-/

namespace ChainKVM.Gateway

open Js (Val)
open Machine (Always Steps)

/-! ## Membership -/

/-- The peer is a member of the room. -/
def InRoom (rooms : Rooms) (sid peerId : String) : Prop :=
  ∃ room, rooms.get sid = some room ∧ (room.get peerId).isSome

/-- The peer is connected and its state says it has joined the session. -/
def Joined (sockets : OrdMap String Socket) (peerId sid : String) : Prop :=
  ∃ socket, sockets.get peerId = some socket ∧ socket.state.sessionId = some sid

/-- No room is empty. -/
def NoneEmpty (rooms : Rooms) : Prop :=
  ∀ sid room, rooms.get sid = some room → room.size ≠ 0

theorem inRoom_leaveRoom (rooms : Rooms) (peerId sid sid' peerId' : String) :
    InRoom (leaveRoom rooms peerId sid) sid' peerId' ↔
      InRoom rooms sid' peerId' ∧ ¬ (sid' = sid ∧ peerId' = peerId) := by
  unfold leaveRoom InRoom
  cases hget : rooms.get sid with
  | none =>
    refine ⟨fun h => ⟨h, ?_⟩, fun h => h.1⟩
    rintro ⟨rfl, -⟩
    obtain ⟨room, hroom, -⟩ := h
    rw [hget] at hroom
    cases hroom
  | some room =>
    by_cases hsid : sid' = sid
    · subst hsid
      have hleft : InRoom rooms sid' peerId' ↔ (room.get peerId').isSome := by
        constructor
        · rintro ⟨room', hroom', h⟩
          obtain rfl : room = room' := Option.some.inj (hget.symm.trans hroom')
          exact h
        · exact fun h => ⟨room, hget, h⟩
      have hafter : ((room.delete peerId).get peerId').isSome ↔
          (room.get peerId').isSome ∧ ¬ peerId' = peerId :=
        OrdMap.isSome_get_delete.trans and_comm
      change _ ↔ InRoom rooms sid' peerId' ∧ _
      rw [hleft]
      simp only [true_and]
      rw [← hafter]
      -- the room goes with its last member; nobody is in it then either way
      by_cases hsize : (room.delete peerId).size = 0
      · rw [if_pos hsize, OrdMap.get_delete, if_pos rfl, OrdMap.size_eq_zero.mp hsize peerId']
        constructor
        · intro h
          obtain ⟨_, hroom, -⟩ := h
          cases hroom
        · intro h
          cases h
      · rw [if_neg hsize, OrdMap.get_set_self]
        constructor
        · intro h
          obtain ⟨_, hroom, hin⟩ := h
          rw [Option.some.inj hroom]
          exact hin
        · exact fun h => ⟨_, rfl, h⟩
    · -- another room is not touched
      have hsame : (if (room.delete peerId).size = 0 then rooms.delete sid
          else rooms.set sid (room.delete peerId)).get sid' = rooms.get sid' := by
        by_cases hsize : (room.delete peerId).size = 0
        · rw [if_pos hsize, OrdMap.get_delete, if_neg hsid]
        · rw [if_neg hsize, OrdMap.get_set_of_ne _ _ hsid]
      dsimp only
      rw [hsame]
      exact ⟨fun h => ⟨h, fun hne => hsid hne.1⟩, fun h => h.1⟩

theorem inRoom_joinRoom (rooms : Rooms) (peerId sid : String) (role : Val) (sid' peerId' : String) :
    InRoom (joinRoom rooms peerId sid role) sid' peerId' ↔
      InRoom rooms sid' peerId' ∨ sid' = sid ∧ peerId' = peerId := by
  unfold joinRoom InRoom
  rw [OrdMap.get_set]
  by_cases hsid : sid' = sid
  · subst hsid
    rw [if_pos rfl]
    constructor
    · rintro ⟨room, hroom, h⟩
      obtain rfl := Option.some.inj hroom
      rw [OrdMap.get_set] at h
      by_cases hp : peerId' = peerId
      · exact .inr ⟨rfl, hp⟩
      · rw [if_neg hp] at h
        cases hget : rooms.get sid' with
        | none =>
          rw [hget] at h
          cases h
        | some room =>
          rw [hget] at h
          exact .inl ⟨room, rfl, h⟩
    · rintro h
      refine ⟨_, rfl, ?_⟩
      rw [OrdMap.get_set]
      by_cases hp : peerId' = peerId
      · rw [if_pos hp]
        rfl
      · rw [if_neg hp]
        rcases h with ⟨room, hroom, h⟩ | ⟨-, hp'⟩
        · rw [hroom]
          exact h
        · exact absurd hp' hp
  · rw [if_neg hsid]
    exact ⟨.inl, fun h => h.resolve_right fun hne => hsid hne.1⟩

theorem inRoom_delete (rooms : Rooms) (sid sid' peerId : String) :
    InRoom (rooms.delete sid) sid' peerId ↔ InRoom rooms sid' peerId ∧ sid' ≠ sid := by
  unfold InRoom
  constructor
  · rintro ⟨room, hroom, h⟩
    obtain ⟨hne, hget⟩ := OrdMap.get_delete_eq_some_iff.mp hroom
    exact ⟨⟨room, hget, h⟩, hne⟩
  · rintro ⟨⟨room, hget, h⟩, hne⟩
    exact ⟨room, OrdMap.get_delete_eq_some_iff.mpr ⟨hne, hget⟩, h⟩

theorem NoneEmpty.leaveRoom {rooms : Rooms} (h : NoneEmpty rooms) (peerId sid : String) :
    NoneEmpty (leaveRoom rooms peerId sid) := by
  intro sid' room' hget
  unfold Gateway.leaveRoom at hget
  cases hroom : rooms.get sid with
  | none =>
    rw [hroom] at hget
    exact h sid' room' hget
  | some room =>
    rw [hroom] at hget
    dsimp only at hget
    by_cases hsize : (room.delete peerId).size = 0
    · rw [if_pos hsize] at hget
      exact h sid' room' (OrdMap.get_delete_eq_some_iff.mp hget).2
    · rw [if_neg hsize] at hget
      rcases OrdMap.get_set_eq_some_iff.mp hget with ⟨-, rfl⟩ | ⟨-, hold⟩
      · exact hsize
      · exact h sid' room' hold

theorem NoneEmpty.joinRoom {rooms : Rooms} (h : NoneEmpty rooms) (peerId sid : String)
    (role : Val) : NoneEmpty (joinRoom rooms peerId sid role) := by
  intro sid' room' hget
  unfold Gateway.joinRoom at hget
  rcases OrdMap.get_set_eq_some_iff.mp hget with ⟨-, rfl⟩ | ⟨-, hold⟩
  · intro hsize
    have hnone := OrdMap.size_eq_zero.mp hsize peerId
    rw [OrdMap.get_set_self] at hnone
    cases hnone
  · exact h sid' room' hold

theorem NoneEmpty.delete {rooms : Rooms} (h : NoneEmpty rooms) (sid : String) :
    NoneEmpty (rooms.delete sid) := by
  intro sid' room' hget
  exact h sid' room' (OrdMap.get_delete_eq_some_iff.mp hget).2

/-! ## The peers' states -/

theorem joined_update (sockets : OrdMap String Socket) (peerId : String) (f : Socket → Socket)
    (peerId' sid : String) :
    Joined (sockets.update peerId f) peerId' sid ↔
      (peerId' = peerId ∧
        ∃ socket, sockets.get peerId = some socket ∧ (f socket).state.sessionId = some sid) ∨
      (peerId' ≠ peerId ∧ Joined sockets peerId' sid) := by
  unfold Joined
  rw [OrdMap.get_update]
  by_cases hp : peerId' = peerId
  · subst hp
    rw [if_pos rfl]
    constructor
    · rintro ⟨socket', hsocket', h⟩
      obtain ⟨socket, hsocket, rfl⟩ := Option.map_eq_some_iff.mp hsocket'
      exact .inl ⟨rfl, socket, hsocket, h⟩
    · rintro (⟨-, socket, hsocket, h⟩ | ⟨hne, -⟩)
      · exact ⟨f socket, by rw [hsocket]; rfl, h⟩
      · exact absurd rfl hne
  · rw [if_neg hp]
    exact ⟨fun h => .inr ⟨hp, h⟩, fun h => (h.resolve_left fun hl => hp hl.1).2⟩

/-- What leaves the state alone leaves the session alone. -/
theorem joined_update_state (sockets : OrdMap String Socket) (peerId : String)
    {f : Socket → Socket} (hf : ∀ socket, (f socket).state = socket.state) (peerId' sid : String) :
    Joined (sockets.update peerId f) peerId' sid ↔ Joined sockets peerId' sid := by
  rw [joined_update]
  simp only [hf]
  constructor
  · rintro (⟨rfl, h⟩ | ⟨-, h⟩)
    · exact h
    · exact h
  · intro h
    by_cases hp : peerId' = peerId
    · subst hp
      exact .inl ⟨rfl, h⟩
    · exact .inr ⟨hp, h⟩

theorem joined_setState {s : Signaling} {peerId : String} {socket : Socket}
    (hsocket : s.sockets.get peerId = some socket) (state : PeerState) (peerId' sid : String) :
    Joined (s.setState peerId state).sockets peerId' sid ↔
      (peerId' = peerId ∧ state.sessionId = some sid) ∨
      (peerId' ≠ peerId ∧ Joined s.sockets peerId' sid) := by
  unfold Signaling.setState
  rw [joined_update]
  refine or_congr_left (and_congr_right fun _ => ?_)
  exact ⟨fun ⟨_, _, h⟩ => h, fun h => ⟨socket, hsocket, h⟩⟩

theorem joined_delete (sockets : OrdMap String Socket) (peerId peerId' sid : String) :
    Joined (sockets.delete peerId) peerId' sid ↔ peerId' ≠ peerId ∧ Joined sockets peerId' sid := by
  unfold Joined
  constructor
  · rintro ⟨socket, hsocket, h⟩
    obtain ⟨hne, hget⟩ := OrdMap.get_delete_eq_some_iff.mp hsocket
    exact ⟨hne, socket, hget, h⟩
  · rintro ⟨hne, socket, hget, h⟩
    exact ⟨socket, OrdMap.get_delete_eq_some_iff.mpr ⟨hne, hget⟩, h⟩

/-- A new connection has joined nothing. -/
theorem joined_connect {sockets : OrdMap String Socket} {peerId : String} {socket : Socket}
    (hnew : sockets.get peerId = none) (hnone : socket.state.sessionId = none)
    (peerId' sid : String) :
    Joined (sockets.set peerId socket) peerId' sid ↔ Joined sockets peerId' sid := by
  unfold Joined
  rw [OrdMap.get_set]
  by_cases hp : peerId' = peerId
  · subst hp
    rw [if_pos rfl, hnew]
    constructor
    · rintro ⟨_, h, hsid⟩
      rw [← Option.some.inj h, hnone] at hsid
      cases hsid
    · exact fun ⟨_, h, _⟩ => (nomatch h)
  · rw [if_neg hp]

/-- The revocation closes sockets and leaves their states alone. -/
theorem joined_notifyRevocation (s : Signaling) (sid : String) (reason : Val)
    (peerId' sid' : String) :
    Joined (s.notifyRevocation sid reason).sockets peerId' sid' ↔
      Joined s.sockets peerId' sid' := by
  unfold Signaling.notifyRevocation
  cases s.rooms.get sid with
  | none => exact Iff.rfl
  | some room =>
    dsimp only [Signaling.broadcast]
    generalize room.entries.map Prod.fst = members
    induction members generalizing s with
    | nil => exact Iff.rfl
    | cons peerId members ih =>
      rw [List.foldl_cons]
      have hhead := joined_update_state s.sockets peerId
        (f := fun socket => { socket with isOpen := false }) (fun _ => rfl) peerId' sid'
      exact (ih { s with
        sockets := s.sockets.update peerId fun socket => { socket with isOpen := false } }).trans
          hhead

theorem rooms_notifyRevocation (s : Signaling) (sid : String) (reason : Val)
    (peerId' sid' : String) :
    InRoom (s.notifyRevocation sid reason).rooms sid' peerId' ↔
      InRoom s.rooms sid' peerId' ∧ sid' ≠ sid := by
  unfold Signaling.notifyRevocation
  cases hroom : s.rooms.get sid with
  | some room => exact inRoom_delete s.rooms sid sid' peerId'
  | none =>
    refine ⟨fun h => ⟨h, ?_⟩, fun h => h.1⟩
    rintro rfl
    obtain ⟨room, hget, -⟩ := h
    have hsame : s.rooms.get sid' = some room := hget
    rw [hroom] at hsame
    cases hsame

/-! ## The check of a join -/

/-- The empty text is no token. -/
theorem ne_empty_of_decoded {decodePart : String → Option Val} {token : String}
    {claims : JoinClaims} (h : decodeTokenClaims decodePart token = some claims) : token ≠ "" := by
  rintro rfl
  cases h

theorem checkRegistered_claims_iff {now : Int} {registry : Option TokenRegistry}
    {claims claims' : JoinClaims} :
    (checkRegistered now registry claims).1 = .claims claims' ↔
      claims = claims' ∧ ∀ r, registry = some r → (r.isValid now claims.jti).1 = true := by
  cases registry with
  | none => simp [checkRegistered]
  | some r =>
    dsimp only [checkRegistered]
    by_cases hvalid : (r.isValid now claims.jti).1 = true
    · simp [hvalid]
    · simp [hvalid]

theorem checkRegistered_ne_thrown (now : Int) (registry : Option TokenRegistry)
    (claims : JoinClaims) : (checkRegistered now registry claims).1 ≠ .thrown := by
  cases registry with
  | none => exact nofun
  | some r =>
    dsimp only [checkRegistered]
    split <;> exact nofun

/-- A join is let in whose token decodes to claims for the session that it
names, and is in the registry, if there is one. -/
theorem validateJoinToken_claims_iff {decodePart : String → Option Val} {now : Int}
    {registry : Option TokenRegistry} {msg : Val} {claims : JoinClaims} :
    (validateJoinToken decodePart now registry msg).1 = .claims claims ↔
      ∃ token, msg.member "token" = .str token ∧ decodeTokenClaims decodePart token = some claims ∧
        msg.member "session_id" = .str claims.sid ∧
        ∀ r, registry = some r → (r.isValid now claims.jti).1 = true := by
  unfold validateJoinToken
  dsimp only
  constructor
  · intro h
    split at h
    · cases h
    · split at h
      next token htoken =>
        cases hdecoded : decodeTokenClaims decodePart token with
        | none =>
          rw [hdecoded] at h
          cases h
        | some claims' =>
          rw [hdecoded] at h
          dsimp only at h
          split at h
          · cases h
          next hsession =>
            obtain ⟨rfl, hvalid⟩ := checkRegistered_claims_iff.mp h
            refine ⟨token, htoken, hdecoded, ?_, hvalid⟩
            simpa using hsession
      · cases h
  · rintro ⟨token, htoken, hdecoded, hsession, hvalid⟩
    have htruthy : (Val.str token).truthy = true := by
      simpa [Val.truthy] using ne_empty_of_decoded hdecoded
    -- the checks in their order: a token, that decodes, for the session asked for
    rw [htoken, htruthy, hsession]
    simp only [Bool.not_true, Bool.false_eq_true, if_false, hdecoded]
    rw [if_neg (by simp)]
    exact checkRegistered_claims_iff.mpr ⟨rfl, hvalid⟩

/-- The check throws for a token that is neither missing nor a text. -/
theorem validateJoinToken_thrown_iff {decodePart : String → Option Val} {now : Int}
    {registry : Option TokenRegistry} {msg : Val} :
    (validateJoinToken decodePart now registry msg).1 = .thrown ↔
      (msg.member "token").truthy = true ∧ ∀ token, msg.member "token" ≠ .str token := by
  unfold validateJoinToken
  dsimp only
  by_cases htruthy : (msg.member "token").truthy = true
  · simp only [htruthy, Bool.not_true, Bool.false_eq_true, if_false, true_and]
    cases htoken : msg.member "token" with
    | str token =>
      refine iff_of_false (fun h => ?_) fun h => h token rfl
      dsimp only at h
      split at h
      · cases h
      · split at h
        · cases h
        · exact checkRegistered_ne_thrown _ _ _ h
    | _ => exact iff_of_true rfl nofun
  · simp only [htruthy, Bool.not_false, if_true, Bool.false_eq_true, false_and, iff_false]
    exact nofun

/-! ## What a listener does -/

namespace Signaling

@[simp] theorem sockets_send (s : Signaling) (peerId : String) (message : ServerMessage) :
    (s.send peerId message).sockets = s.sockets := by
  unfold send
  split <;> rfl

@[simp] theorem rooms_send (s : Signaling) (peerId : String) (message : ServerMessage) :
    (s.send peerId message).rooms = s.rooms := by
  unfold send
  split <;> rfl

/-- The claims of the token in a join that is accepted. -/
def admits (decodePart : String → Option Val) (now : Int) (registry : Option TokenRegistry) :
    Option Val → Option JoinClaims
  | none => none
  | some msg =>
    if (msg.member "type").strictEq (.str "join") then
      match (validateJoinToken decodePart now registry msg).1 with
      | .claims claims => (templateText (msg.member "role")).map fun _ => claims
      | _ => none
    else none

/-- The session that a message of this peer is relayed in, if it is relayed. -/
def relayedIn (socket : Socket) : Option Val → Option String
  | none => none
  | some msg => if isRelayed msg then socket.state.session else none

/-- A join, an offer, an answer and an ice are different things. -/
theorem isRelayed_of_join {msg : Val} (h : (msg.member "type").strictEq (.str "join") = true) :
    isRelayed msg = false := by
  rw [Val.strictEq_str] at h
  unfold isRelayed
  rw [h]
  rfl

/-- What a listener does to the sockets and the rooms: it lets the peer in,
lets it out, or leaves them as they are. -/
inductive Moved (s : Signaling) (peerId : String) (socket : Socket) (admitted : Option JoinClaims)
    (s' : Signaling) : Prop where
  | entered (claims : JoinClaims) (role : Val) (hadmitted : admitted = some claims)
      (hsockets : s'.sockets = (s.setState peerId ⟨some claims.sid, role⟩).sockets)
      (hrooms : s'.rooms = (s.enter peerId socket.state claims.sid role).rooms)
  | left (sid : String) (hadmitted : admitted = none) (hsession : socket.state.session = some sid)
      (hsockets : s'.sockets = (s.setState peerId ⟨none, .null⟩).sockets)
      (hrooms : s'.rooms = leaveRoom s.rooms peerId sid)
  | stayed (hadmitted : admitted = none) (hsockets : s'.sockets = s.sockets)
      (hrooms : s'.rooms = s.rooms)

theorem moved_handleJoin (s : Signaling) (peerId : String) (socket : Socket) (msg : Val)
    (result : JoinCheck) :
    Moved s peerId socket
      (match result with
      | .claims claims => (templateText (msg.member "role")).map fun _ => claims
      | _ => none)
      (s.settled (s.handleJoin peerId socket.state msg result)) := by
  cases result with
  | thrown => exact .stayed rfl rfl rfl
  | error error => exact .stayed rfl (sockets_send ..) (rooms_send ..)
  | claims claims =>
    simp only [handleJoin]
    cases templateText (msg.member "role") with
    | none => exact .stayed rfl rfl rfl
    | some role =>
      refine .entered claims (msg.member "role") rfl ?_ ?_
      · exact sockets_send ..
      · exact rooms_send ..

theorem moved_handleLeave (s : Signaling) (peerId : String) (socket : Socket) :
    Moved s peerId socket none (s.settled (s.handleLeave peerId socket.state)) := by
  unfold handleLeave
  cases hsession : socket.state.session with
  | none => exact .stayed rfl rfl rfl
  | some sid =>
    dsimp only
    cases templateText socket.state.role with
    | none => exact .stayed rfl rfl rfl
    | some role => exact .left sid rfl hsession rfl rfl

/-- The listener for messages. -/
theorem moved_onMessage (decodePart : String → Option Val) (now : Int)
    (registry : Option TokenRegistry) (s : Signaling) (peerId : String) (socket : Socket)
    (msg : Option Val) :
    Moved s peerId socket (admits decodePart now registry msg)
      (s.settled (s.onMessage decodePart now registry peerId socket.state msg).1) := by
  unfold onMessage
  split
  next => exact .stayed rfl (sockets_send ..) (rooms_send ..)
  next => exact .stayed rfl rfl rfl
  next => exact .stayed rfl rfl rfl
  next msg _ _ =>
    unfold admits
    by_cases hjoin : (msg.member "type").strictEq (.str "join") = true
    · rw [if_pos hjoin]
      simp only [if_pos hjoin]
      exact moved_handleJoin s peerId socket msg _
    · rw [if_neg hjoin]
      simp only [if_neg hjoin]
      by_cases hrelayed : isRelayed msg = true
      · rw [if_pos hrelayed]
        cases socket.state.session with
        | none => exact .stayed rfl (sockets_send ..) (rooms_send ..)
        | some sid => exact .stayed rfl rfl rfl
      · rw [if_neg hrelayed]
        by_cases hleave : (msg.member "type").strictEq (.str "leave") = true
        · rw [if_pos hleave]
          exact moved_handleLeave s peerId socket
        · rw [if_neg hleave]
          cases templateText (msg.member "type") with
          | none => exact .stayed rfl rfl rfl
          | some type => exact .stayed rfl (sockets_send ..) (rooms_send ..)

/-! ## What a listener sends -/

/-- What was sent from one state to the next has nothing relayed in it. -/
def Quiet (s s' : Signaling) : Prop :=
  ∃ news, s'.sent = s.sent ++ news ∧
    ∀ d ∈ news, ∀ sender msg, d.message ≠ .relayed sender msg

theorem Quiet.of_sent_eq {s s' : Signaling} (h : s'.sent = s.sent) : Quiet s s' :=
  ⟨[], by rw [h, List.append_nil], fun _ hd => nomatch hd⟩

theorem Quiet.trans {s s' s'' : Signaling} (h : Quiet s s') (h' : Quiet s' s'') : Quiet s s'' := by
  obtain ⟨news, hsent, hnews⟩ := h
  obtain ⟨news', hsent', hnews'⟩ := h'
  refine ⟨news ++ news', by rw [hsent', hsent, List.append_assoc], fun d hd => ?_⟩
  rcases List.mem_append.mp hd with hd | hd
  · exact hnews d hd
  · exact hnews' d hd

theorem quiet_send (s : Signaling) (peerId : String) {message : ServerMessage}
    (hmessage : ∀ sender msg, message ≠ .relayed sender msg) : Quiet s (s.send peerId message) := by
  unfold send
  split
  next =>
    refine ⟨_, rfl, fun d hd => ?_⟩
    rw [List.mem_singleton] at hd
    rw [hd]
    exact hmessage
  next => exact .of_sent_eq rfl

theorem quiet_broadcast (s : Signaling) (sid : String) {message : ServerMessage}
    (excluded : Option String) (hmessage : ∀ sender msg, message ≠ .relayed sender msg) :
    Quiet s (s.broadcast sid message excluded) := by
  refine ⟨_, rfl, fun d hd => ?_⟩
  obtain ⟨recipient, -, rfl⟩ := List.mem_map.mp hd
  exact hmessage

theorem quiet_sendError (s : Signaling) (peerId : String) (error : SignalingError) :
    Quiet s (s.sendError peerId error) := by
  show Quiet s (s.send peerId (.error error.code error.message))
  exact quiet_send s peerId fun _ _ => nofun

theorem quiet_handleJoin (s : Signaling) (peerId : String) (state : PeerState) (msg : Val)
    (result : JoinCheck) : Quiet s (s.settled (s.handleJoin peerId state msg result)) := by
  cases result with
  | thrown => exact .of_sent_eq rfl
  | error error => exact quiet_sendError s peerId error
  | claims claims =>
    simp only [handleJoin]
    cases templateText (msg.member "role") with
    | none => exact .of_sent_eq rfl
    | some role =>
      have hentered : Quiet s (s.enter peerId state claims.sid (msg.member "role")) :=
        .of_sent_eq rfl
      have hbroadcast (s' : Signaling) : Quiet s' (s'.broadcast claims.sid
          (.session_state claims.sid (role ++ "_joined")) (some peerId)) :=
        quiet_broadcast s' claims.sid _ fun _ _ => nofun
      have hsend (s' : Signaling) :
          Quiet s' (s'.send peerId (.session_state claims.sid "joined")) :=
        quiet_send s' peerId fun _ _ => nofun
      exact (hentered.trans (hbroadcast _)).trans (hsend _)

theorem quiet_handleLeave (s : Signaling) (peerId : String) (state : PeerState) :
    Quiet s (s.settled (s.handleLeave peerId state)) := by
  unfold handleLeave
  cases state.session with
  | none => exact .of_sent_eq rfl
  | some sid =>
    dsimp only
    cases templateText state.role with
    | none => exact .of_sent_eq rfl
    | some role =>
      exact quiet_broadcast { s with rooms := leaveRoom s.rooms peerId sid } sid none
        fun _ _ => nofun

theorem quiet_handleDisconnect (s : Signaling) (peerId : String) (state : PeerState) :
    Quiet s (s.settled (s.handleDisconnect peerId state)) := by
  unfold handleDisconnect
  cases state.session with
  | none => exact .of_sent_eq rfl
  | some sid =>
    dsimp only
    by_cases hgone : ((s.rooms.get sid).any fun room => (room.delete peerId).size = 0) = true
    · rw [if_pos hgone]
      exact .of_sent_eq rfl
    · rw [if_neg hgone]
      cases templateText state.role with
      | none => exact .of_sent_eq rfl
      | some role =>
        exact quiet_broadcast { s with rooms := leaveRoom s.rooms peerId sid } sid none
          fun _ _ => nofun

/-- A message that is not relayed in a session is not relayed. -/
theorem quiet_onMessage (decodePart : String → Option Val) (now : Int)
    (registry : Option TokenRegistry) (s : Signaling) (peerId : String) (socket : Socket)
    {msg : Option Val} (hnot : relayedIn socket msg = none) :
    Quiet s (s.settled (s.onMessage decodePart now registry peerId socket.state msg).1) := by
  unfold onMessage
  split
  next => exact quiet_sendError s peerId _
  next => exact .of_sent_eq rfl
  next => exact .of_sent_eq rfl
  next msg _ _ =>
    by_cases hjoin : (msg.member "type").strictEq (.str "join") = true
    · rw [if_pos hjoin]
      exact quiet_handleJoin s peerId socket.state msg _
    · rw [if_neg hjoin]
      by_cases hrelayed : isRelayed msg = true
      · have hsession : socket.state.session = none := by
          have hif : (if isRelayed msg then socket.state.session else none) = none := hnot
          rwa [if_pos hrelayed] at hif
        rw [if_pos hrelayed, hsession]
        exact quiet_sendError s peerId _
      · rw [if_neg hrelayed]
        by_cases hleave : (msg.member "type").strictEq (.str "leave") = true
        · rw [if_pos hleave]
          exact quiet_handleLeave s peerId socket.state
        · rw [if_neg hleave]
          cases templateText (msg.member "type") with
          | none => exact .of_sent_eq rfl
          | some type => exact quiet_sendError s peerId _

/-- A message that is relayed goes to the open members of the session. -/
theorem onMessage_relayed (decodePart : String → Option Val) (now : Int)
    (registry : Option TokenRegistry) (s : Signaling) (peerId : String) {socket : Socket}
    {msg : Val} {sid : String} (hrelayed : relayedIn socket (some msg) = some sid) :
    s.onMessage decodePart now registry peerId socket.state (some msg) =
      (some (s.broadcast sid (.relayed peerId msg) (some peerId)), registry) := by
  simp only [relayedIn] at hrelayed
  by_cases h : isRelayed msg = true
  · rw [if_pos h] at hrelayed
    unfold onMessage
    split
    next heq => cases heq
    next heq =>
      cases heq
      cases h
    next heq =>
      cases heq
      cases h
    next msg' _ _ heq =>
      cases heq
      -- the type is one of those that are relayed, so it is not `join`
      have hjoin : ¬ (msg.member "type").strictEq (.str "join") = true := by
        intro hjoin
        rw [isRelayed_of_join hjoin] at h
        cases h
      rw [if_neg hjoin, if_pos h, hrelayed]
  · rw [if_neg h] at hrelayed
    cases hrelayed

theorem quiet_notifyRevocation (s : Signaling) (sid : String) (reason : Val) :
    Quiet s (s.notifyRevocation sid reason) := by
  have htold : Quiet s (s.broadcast sid (.revoked sid reason) none) :=
    quiet_broadcast s sid none fun _ _ => nofun
  unfold notifyRevocation
  cases s.rooms.get sid with
  | none => exact htold
  | some room => exact htold.trans (.of_sent_eq rfl)

theorem mem_recipients {s : Signaling} {sid peerId recipient : String} :
    recipient ∈ s.recipients sid (some peerId) ↔
      InRoom s.rooms sid recipient ∧ recipient ≠ peerId ∧ s.isOpen recipient := by
  unfold recipients InRoom
  cases s.rooms.get sid with
  | none => exact ⟨fun h => (nomatch h), fun ⟨⟨_, h, _⟩, _⟩ => (nomatch h)⟩
  | some room =>
    rw [List.mem_filter, OrdMap.mem_keys_iff]
    simp

/-! ## What should hold -/

/-- Membership is stored consistently. -/
structure Coherent (s : Signaling) : Prop where
  once : ∀ peerId sid sid', InRoom s.rooms sid peerId → InRoom s.rooms sid' peerId → sid = sid'
  agree : ∀ peerId sid, Joined s.sockets peerId sid ↔ InRoom s.rooms sid peerId
  full : NoneEmpty s.rooms

/-- What a step relays, it relays from a member of a room to another member of
it, and it carries the room's session id. -/
def RelaysWithin (decodePart : String → Option Val) (s : Signaling) (e : SocketEvent) : Prop :=
  ∀ d ∈ (step decodePart s e).sent.drop s.sent.length, ∀ sender msg,
    d.message = .relayed sender msg → ∃ sid,
      InRoom s.rooms sid sender ∧ InRoom s.rooms sid d.recipient ∧ d.recipient ≠ sender ∧
        msg.member "session_id" = .str sid

/-- A connection gets an id of its own. -/
def Unique (s : Signaling) : SocketEvent → Prop
  | .connect peerId => s.sockets.get peerId = none
  | _ => True

/-- What a message must not do: take a peer out of the room with the empty id,
or be relayed to somebody under another session id than the room's. -/
def MessageInOrder (decodePart : String → Option Val) (s : Signaling) (peerId : String)
    (now : Int) (registry : Option TokenRegistry) (msg : Option Val) : Prop :=
  ∀ socket, s.sockets.get peerId = some socket →
    (∀ claims, admits decodePart now registry msg = some claims →
      socket.state.sessionId = some "" → claims.sid = "") ∧
    ∀ sid recipient m, msg = some m → relayedIn socket msg = some sid →
      InRoom s.rooms sid recipient → recipient ≠ peerId → s.isOpen recipient →
        m.member "session_id" = .str sid

/-- The steps that keep the server in order. -/
def InOrder (decodePart : String → Option Val) (s : Signaling) (e : SocketEvent) : Prop :=
  s.up = true →
    match e with
    | .connect _ => True
    | .message peerId now registry msg => s.MessageInOrder decodePart peerId now registry msg
    | .closing _ => True
    | .close peerId => ¬ Joined s.sockets peerId ""
    | .revoke sid _ => ∀ peerId, ¬ InRoom s.rooms sid peerId

theorem Coherent.of_agree {s : Signaling}
    (agree : ∀ peerId sid, Joined s.sockets peerId sid ↔ InRoom s.rooms sid peerId)
    (full : NoneEmpty s.rooms) : Coherent s := by
  refine ⟨fun peerId sid sid' h h' => ?_, agree, full⟩
  -- a peer has one state
  obtain ⟨socket, hget, hsid⟩ := (agree peerId sid).mpr h
  obtain ⟨socket', hget', hsid'⟩ := (agree peerId sid').mpr h'
  rw [hget] at hget'
  rw [← Option.some.inj hget', hsid] at hsid'
  exact Option.some.inj hsid'

/-- What `session` leaves out is the empty id. -/
theorem sessionId_of_session_eq_none {state : PeerState} (h : state.session = none) :
    state.sessionId = none ∨ state.sessionId = some "" := by
  unfold PeerState.session at h
  rw [Option.filter_eq_none_iff] at h
  cases hsid : state.sessionId with
  | none => exact .inl rfl
  | some sid =>
    have hempty := h sid hsid
    simp only [ne_eq, decide_not, Bool.not_eq_true', decide_eq_false_iff_not,
      Decidable.not_not] at hempty
    rw [hempty]
    exact .inr rfl

theorem session_eq_some_iff {state : PeerState} {sid : String} :
    state.session = some sid ↔ state.sessionId = some sid ∧ sid ≠ "" := by
  unfold PeerState.session
  rw [Option.filter_eq_some_iff]
  simp

/-- A connected peer is in the room its state names, and in no other. -/
theorem Coherent.inRoom_iff {s : Signaling} (h : s.Coherent) {peerId : String} {socket : Socket}
    (hsocket : s.sockets.get peerId = some socket) (sid : String) :
    InRoom s.rooms sid peerId ↔ socket.state.sessionId = some sid := by
  rw [← h.agree]
  constructor
  · rintro ⟨socket', hsocket', hsid⟩
    rw [hsocket] at hsocket'
    rwa [← Option.some.inj hsocket'] at hsid
  · exact fun hsid => ⟨socket, hsocket, hsid⟩

/-! ## One step -/

theorem step_of_down {decodePart : String → Option Val} {s : Signaling} {e : SocketEvent}
    (hdown : s.up = false) : step decodePart s e = s := by
  unfold step
  rw [hdown]
  rfl

theorem step_connect {decodePart : String → Option Val} {s : Signaling} (hup : s.up = true)
    (peerId : String) : step decodePart s (.connect peerId) =
      { s with sockets := s.sockets.set peerId ⟨⟨none, .null⟩, true⟩ } := by
  simp only [step, hup, Bool.not_true, Bool.false_eq_true, if_false]

theorem step_closing {decodePart : String → Option Val} {s : Signaling} (hup : s.up = true)
    (peerId : String) : step decodePart s (.closing peerId) =
      { s with
        sockets := s.sockets.update peerId fun socket => { socket with isOpen := false } } := by
  simp only [step, hup, Bool.not_true, Bool.false_eq_true, if_false]

theorem step_revocation {decodePart : String → Option Val} {s : Signaling} (hup : s.up = true)
    (sid : String) (reason : Val) :
    step decodePart s (.revoke sid reason) = s.notifyRevocation sid reason := by
  simp only [step, hup, Bool.not_true, Bool.false_eq_true, if_false]

theorem step_message {decodePart : String → Option Val} {s : Signaling} {peerId : String}
    {now : Int} {registry : Option TokenRegistry} {msg : Option Val} {socket : Socket}
    (hup : s.up = true) (hsocket : s.sockets.get peerId = some socket) :
    step decodePart s (.message peerId now registry msg) =
      s.settled (s.onMessage decodePart now registry peerId socket.state msg).1 := by
  simp only [step, hup, hsocket, Bool.not_true, Bool.false_eq_true, if_false]

theorem step_close {decodePart : String → Option Val} {s : Signaling} {peerId : String}
    {socket : Socket} (hup : s.up = true) (hsocket : s.sockets.get peerId = some socket) :
    step decodePart s (.close peerId) =
      s.settled ((s.handleDisconnect peerId socket.state).map fun s =>
        { s with sockets := s.sockets.delete peerId }) := by
  simp only [step, hup, hsocket, Bool.not_true, Bool.false_eq_true, if_false]

/-- What comes from a peer that is not connected is nothing. -/
theorem step_of_unconnected {decodePart : String → Option Val} {s : Signaling} {peerId : String}
    (hsocket : s.sockets.get peerId = none) (now : Int) (registry : Option TokenRegistry)
    (msg : Option Val) :
    step decodePart s (.message peerId now registry msg) = s ∧
      step decodePart s (.close peerId) = s := by
  simp only [step, hsocket, ite_self, and_self]

/-- Who is where after a join. -/
theorem inRoom_enter (s : Signaling) (peerId : String) (state : PeerState) (sid : String)
    (role : Val) (sid' peerId' : String) :
    InRoom (s.enter peerId state sid role).rooms sid' peerId' ↔
      (InRoom s.rooms sid' peerId' ∧ ¬ (state.session = some sid' ∧ peerId' = peerId)) ∨
        sid' = sid ∧ peerId' = peerId := by
  show InRoom (joinRoom _ peerId sid role) sid' peerId' ↔ _
  rw [inRoom_joinRoom]
  refine or_congr_left ?_
  cases hsession : state.session with
  | none => exact ⟨fun h => ⟨h, fun hn => (nomatch hn.1)⟩, fun h => h.1⟩
  | some old =>
    rw [inRoom_leaveRoom, Option.some.injEq]
    exact and_congr_right fun _ => not_congr (and_congr_left fun _ => eq_comm)

theorem noneEmpty_enter {s : Signaling} (h : NoneEmpty s.rooms) (peerId : String)
    (state : PeerState) (sid : String) (role : Val) :
    NoneEmpty (s.enter peerId state sid role).rooms := by
  refine NoneEmpty.joinRoom ?_ peerId sid role
  cases state.session with
  | none => exact h
  | some old => exact h.leaveRoom peerId old

/-- Taking a peer out of the room that its state names, and clearing the state,
keeps the server coherent. -/
theorem coherent_left {s s' : Signaling} {peerId sid : String} {socket : Socket} (h : s.Coherent)
    (hsocket : s.sockets.get peerId = some socket) (hsid : socket.state.sessionId = some sid)
    (hsockets : s'.sockets = (s.setState peerId ⟨none, .null⟩).sockets)
    (hrooms : s'.rooms = leaveRoom s.rooms peerId sid) : s'.Coherent := by
  refine .of_agree (fun peerId' sid' => ?_) ?_
  · rw [hsockets, hrooms, joined_setState hsocket, inRoom_leaveRoom, h.agree]
    by_cases hp : peerId' = peerId
    · subst hp
      rw [h.inRoom_iff hsocket, hsid]
      simp [eq_comm]
    · simp [hp]
  · rw [hrooms]
    exact h.full.leaveRoom peerId sid

/-- What `enter` can get wrong is the room it leaves: a peer whose room it does
not see is in two rooms afterwards, unless they are the same one. -/
theorem coherent_entered_iff {s s' : Signaling} {peerId sid : String} {socket : Socket} {role : Val}
    (h : s.Coherent) (hsocket : s.sockets.get peerId = some socket)
    (hsockets : s'.sockets = (s.setState peerId ⟨some sid, role⟩).sockets)
    (hrooms : s'.rooms = (s.enter peerId socket.state sid role).rooms) :
    s'.Coherent ↔
      ∀ old, socket.state.sessionId = some old → socket.state.session ≠ some old → old = sid := by
  constructor
  · intro h' old hsid hsession
    have hin : InRoom s'.rooms old peerId := by
      rw [hrooms, inRoom_enter, h.inRoom_iff hsocket]
      exact .inl ⟨hsid, fun hn => hsession hn.1⟩
    rw [← h'.agree, hsockets, joined_setState hsocket] at hin
    rcases hin with ⟨-, hin⟩ | ⟨hne, -⟩
    · exact (Option.some.inj hin).symm
    · exact absurd rfl hne
  · intro hempty
    refine .of_agree (fun peerId' sid' => ?_) ?_
    · rw [hsockets, hrooms, joined_setState hsocket, inRoom_enter, h.agree]
      by_cases hp : peerId' = peerId
      · subst hp
        rw [h.inRoom_iff hsocket]
        constructor
        · rintro (⟨-, hsid⟩ | ⟨hne, -⟩)
          · exact .inr ⟨(Option.some.inj hsid).symm, rfl⟩
          · exact absurd rfl hne
        · rintro (⟨hsid, hsession⟩ | ⟨rfl, -⟩)
          · have heq := hempty sid' hsid fun hs => hsession ⟨hs, rfl⟩
            exact .inl ⟨rfl, by rw [heq]⟩
          · exact .inl ⟨rfl, rfl⟩
      · simp [hp]
    · rw [hrooms]
      exact noneEmpty_enter h.full peerId socket.state sid role

/-- A message keeps the server coherent iff it takes no peer out of the room
with the empty id. -/
theorem coherent_moved_iff {s s' : Signaling} {peerId : String} {socket : Socket}
    {admitted : Option JoinClaims} (h : s.Coherent)
    (hsocket : s.sockets.get peerId = some socket) (hmoved : Moved s peerId socket admitted s') :
    s'.Coherent ↔
      ∀ claims, admitted = some claims → socket.state.sessionId = some "" → claims.sid = "" := by
  cases hmoved with
  | stayed hadmitted hsockets hrooms =>
    have hcoherent : s'.Coherent := by
      refine .of_agree (fun peerId sid => ?_) ?_
      · rw [hsockets, hrooms]
        exact h.agree peerId sid
      · rw [hrooms]
        exact h.full
    refine iff_of_true hcoherent fun claims hclaims => ?_
    rw [hadmitted] at hclaims
    cases hclaims
  | left sid hadmitted hsession hsockets hrooms =>
    have hsid : socket.state.sessionId = some sid := (session_eq_some_iff.mp hsession).1
    refine iff_of_true (coherent_left h hsocket hsid hsockets hrooms) fun claims hclaims => ?_
    rw [hadmitted] at hclaims
    cases hclaims
  | entered claims role hadmitted hsockets hrooms =>
    -- the room it does not see is the one with the empty id
    rw [coherent_entered_iff h hsocket hsockets hrooms]
    constructor
    · intro hall claims' hclaims' hsid
      rw [hadmitted] at hclaims'
      rw [← Option.some.inj hclaims']
      refine (hall "" hsid fun hs => ?_).symm
      exact (session_eq_some_iff.mp hs).2 rfl
    · intro hempty sid hsid hsession
      by_cases hzero : sid = ""
      · subst hzero
        exact (hempty claims hadmitted hsid).symm
      · exact absurd (session_eq_some_iff.mpr ⟨hsid, hzero⟩) hsession

/-- The rooms and the sockets after `handleDisconnect`. -/
theorem handleDisconnect_cases (s : Signaling) (peerId : String) (state : PeerState) :
    (∃ s', s.handleDisconnect peerId state = some s' ∧ s'.sockets = s.sockets ∧
      ((state.session = none ∧ s'.rooms = s.rooms) ∨
        ∃ sid, state.session = some sid ∧ s'.rooms = leaveRoom s.rooms peerId sid)) ∨
    (s.handleDisconnect peerId state = none ∧ state.session ≠ none) := by
  unfold handleDisconnect
  cases hsession : state.session with
  | none => exact .inl ⟨s, rfl, rfl, .inl ⟨rfl, rfl⟩⟩
  | some sid =>
    dsimp only
    by_cases hgone : ((s.rooms.get sid).any fun room => (room.delete peerId).size = 0) = true
    · rw [if_pos hgone]
      exact .inl ⟨_, rfl, rfl, .inr ⟨sid, rfl, rfl⟩⟩
    · rw [if_neg hgone]
      cases templateText state.role with
      | none => exact .inr ⟨rfl, nofun⟩
      | some role => exact .inl ⟨_, rfl, rfl, .inr ⟨sid, rfl, rfl⟩⟩

/-- A connection that closes keeps the server coherent iff its peer is not in
the room with the empty id. -/
theorem coherent_close_iff {s : Signaling} {peerId : String} {socket : Socket} (h : s.Coherent)
    (hsocket : s.sockets.get peerId = some socket) :
    (s.settled ((s.handleDisconnect peerId socket.state).map fun s =>
        { s with sockets := s.sockets.delete peerId })).Coherent ↔
      ¬ Joined s.sockets peerId "" := by
  have hjoined : ∀ sid, Joined s.sockets peerId sid ↔ socket.state.sessionId = some sid :=
    fun sid => (h.agree peerId sid).trans (h.inRoom_iff hsocket sid)
  rcases handleDisconnect_cases s peerId socket.state with
    ⟨s', hs', hsockets, ⟨hsession, hrooms⟩ | ⟨sid, hsession, hrooms⟩⟩ | ⟨hthrown, hsession⟩
  · -- the peer is not taken out of any room
    rw [hs', Option.map_some, hjoined]
    simp only [settled]
    constructor
    · intro h' hempty
      have hin : InRoom s'.rooms "" peerId := by
        rw [hrooms, h.inRoom_iff hsocket]
        exact hempty
      rw [← h'.agree, joined_delete] at hin
      exact hin.1 rfl
    · intro hempty
      have hnone := (sessionId_of_session_eq_none hsession).resolve_right hempty
      refine .of_agree (fun peerId' sid' => ?_) ?_
      · rw [joined_delete, hsockets, hrooms, h.agree]
        by_cases hp : peerId' = peerId
        · subst hp
          rw [h.inRoom_iff hsocket, hnone]
          simp
        · simp [hp]
      · rw [hrooms]
        exact h.full
  · rw [hs', Option.map_some, hjoined]
    simp only [settled]
    obtain ⟨hsid, hne⟩ := session_eq_some_iff.mp hsession
    -- both copies of the membership go together
    have hcoherent : Coherent { s' with sockets := s'.sockets.delete peerId } := by
      refine .of_agree (fun peerId' sid' => ?_) ?_
      · rw [joined_delete, hsockets, hrooms, inRoom_leaveRoom, h.agree]
        by_cases hp : peerId' = peerId
        · subst hp
          rw [h.inRoom_iff hsocket, hsid]
          simp [eq_comm]
        · simp [hp]
      · rw [hrooms]
        exact h.full.leaveRoom peerId sid
    refine iff_of_true hcoherent fun hempty => ?_
    rw [hsid] at hempty
    exact hne (Option.some.inj hempty)
  · -- the exception ends the process, with everything as it was
    rw [hthrown, Option.map_none, hjoined]
    have hcoherent : Coherent { s with up := false } := .of_agree h.agree h.full
    refine iff_of_true hcoherent fun hempty => hsession ?_
    unfold PeerState.session
    rw [hempty]
    rfl

/-- A revocation keeps the server coherent iff the session has no members. -/
theorem coherent_revoke_iff {s : Signaling} (h : s.Coherent) (sid : String) (reason : Val) :
    (s.notifyRevocation sid reason).Coherent ↔ ∀ peerId, ¬ InRoom s.rooms sid peerId := by
  constructor
  · intro h' peerId hin
    -- the room is gone, but a member's state still names it
    have hjoined : Joined (s.notifyRevocation sid reason).sockets peerId sid := by
      rw [joined_notifyRevocation, h.agree]
      exact hin
    rw [h'.agree, rooms_notifyRevocation] at hjoined
    exact hjoined.2 rfl
  · intro hnobody
    refine .of_agree (fun peerId sid' => ?_) ?_
    · rw [joined_notifyRevocation, rooms_notifyRevocation, h.agree]
      constructor
      · rintro hin
        refine ⟨hin, ?_⟩
        rintro rfl
        exact hnobody peerId hin
      · exact fun hin => hin.1
    · unfold notifyRevocation
      cases s.rooms.get sid with
      | none => exact h.full
      | some room => exact h.full.delete sid

theorem not_mem_drop_of_quiet {s s' : Signaling} (h : Quiet s s') :
    ∀ d ∈ s'.sent.drop s.sent.length, ∀ sender msg, d.message ≠ .relayed sender msg := by
  obtain ⟨news, hsent, hnews⟩ := h
  rw [hsent, List.drop_left]
  exact hnews

theorem sessionId_of_relayedIn {socket : Socket} {msg : Option Val} {sid : String}
    (h : relayedIn socket msg = some sid) : socket.state.sessionId = some sid := by
  cases msg with
  | none => cases h
  | some msg =>
    simp only [relayedIn] at h
    by_cases hrelayed : isRelayed msg = true
    · rw [if_pos hrelayed] at h
      exact (session_eq_some_iff.mp h).1
    · rw [if_neg hrelayed] at h
      cases h

/-- A message of a peer is relayed within its room iff it carries the room's
session id, or reaches nobody. -/
theorem relaysWithin_message_iff {decodePart : String → Option Val} {s : Signaling}
    {peerId : String} {now : Int} {registry : Option TokenRegistry} {msg : Option Val}
    {socket : Socket} (h : s.Coherent) (hup : s.up = true)
    (hsocket : s.sockets.get peerId = some socket) :
    s.RelaysWithin decodePart (.message peerId now registry msg) ↔
      ∀ sid recipient m, msg = some m → relayedIn socket msg = some sid →
        InRoom s.rooms sid recipient → recipient ≠ peerId → s.isOpen recipient →
          m.member "session_id" = .str sid := by
  unfold RelaysWithin
  rw [step_message hup hsocket]
  cases hrelayed : relayedIn socket msg with
  | none =>
    have hquiet := quiet_onMessage decodePart now registry s peerId socket hrelayed
    refine iff_of_true (fun d hd sender m hm => ?_) fun _ _ _ _ hsid => nomatch hsid
    exact absurd hm (not_mem_drop_of_quiet hquiet d hd sender m)
  | some sid =>
    cases msg with
    | none => cases hrelayed
    | some m =>
      rw [onMessage_relayed decodePart now registry s peerId hrelayed]
      show (∀ d ∈ (s.sent ++ _).drop s.sent.length, _) ↔ _
      rw [List.drop_left]
      have hsid := sessionId_of_relayedIn hrelayed
      have hsender : InRoom s.rooms sid peerId := (h.inRoom_iff hsocket sid).mpr hsid
      constructor
      · intro hall sid' recipient m' hm hsid' hin hne hopen
        obtain rfl : m = m' := Option.some.inj hm
        obtain rfl : sid = sid' := Option.some.inj hsid'
        have hmem := List.mem_map_of_mem (f := fun recipient =>
          (⟨recipient, .relayed peerId m⟩ : Delivery)) (mem_recipients.mpr ⟨hin, hne, hopen⟩)
        obtain ⟨room, hsender', -, -, hcarries⟩ := hall _ hmem peerId m rfl
        rwa [h.once peerId sid room hsender hsender']
      · intro hall d hd sender m' hm
        obtain ⟨recipient, hrecipient, rfl⟩ := List.mem_map.mp hd
        obtain ⟨hin, hne, hopen⟩ := mem_recipients.mp hrecipient
        obtain ⟨rfl, rfl⟩ := ServerMessage.relayed.inj hm
        exact ⟨sid, hsender, hin, hne, hall sid recipient m rfl rfl hin hne hopen⟩

/-- Nothing but messages is relayed. -/
theorem relaysWithin_of_quiet {decodePart : String → Option Val} {s : Signaling} {e : SocketEvent}
    (h : Quiet s (step decodePart s e)) : s.RelaysWithin decodePart e :=
  fun d hd sender m hm => absurd hm (not_mem_drop_of_quiet h d hd sender m)

/-- The effect of one event: it keeps the server coherent and what it relays is
relayed within a room iff it is in order. -/
theorem coherent_relays_step_iff (decodePart : String → Option Val) (s : Signaling)
    (e : SocketEvent) (h : s.Coherent) (hunique : s.Unique e) :
    (step decodePart s e).Coherent ∧ s.RelaysWithin decodePart e ↔ s.InOrder decodePart e := by
  have hsame (hstep : step decodePart s e = s) :
      (step decodePart s e).Coherent ∧ s.RelaysWithin decodePart e := by
    refine ⟨by rwa [hstep], relaysWithin_of_quiet ?_⟩
    rw [hstep]
    exact .of_sent_eq rfl
  by_cases hup : s.up = true
  · cases e with
    | connect peerId =>
      refine iff_of_true ⟨?_, relaysWithin_of_quiet ?_⟩ fun _ => trivial
      · rw [step_connect hup]
        refine .of_agree (fun peerId' sid => ?_) h.full
        rw [joined_connect hunique rfl]
        exact h.agree peerId' sid
      · rw [step_connect hup]
        exact .of_sent_eq rfl
    | message peerId now registry msg =>
      have hInOrder : s.InOrder decodePart (.message peerId now registry msg) ↔
          s.MessageInOrder decodePart peerId now registry msg := ⟨fun h => h hup, fun h _ => h⟩
      rw [hInOrder]
      cases hsocket : s.sockets.get peerId with
      | none =>
        refine iff_of_true (hsame (step_of_unconnected hsocket now registry msg).1) ?_
        intro socket hs
        rw [hsocket] at hs
        cases hs
      | some socket =>
        -- there is one socket to look at
        have hmessage : s.MessageInOrder decodePart peerId now registry msg ↔ _ :=
          ⟨fun h => h socket hsocket, fun h socket' hs => by
            rw [hsocket] at hs
            rwa [← Option.some.inj hs]⟩
        rw [hmessage, relaysWithin_message_iff h hup hsocket, step_message hup hsocket,
          coherent_moved_iff h hsocket
            (moved_onMessage decodePart now registry s peerId socket msg)]
    | closing peerId =>
      refine iff_of_true ⟨?_, relaysWithin_of_quiet ?_⟩ fun _ => trivial
      · rw [step_closing hup]
        refine .of_agree (fun peerId' sid => ?_) h.full
        have hclosing := joined_update_state s.sockets peerId
          (f := fun socket => { socket with isOpen := false }) (fun _ => rfl) peerId' sid
        exact hclosing.trans (h.agree peerId' sid)
      · rw [step_closing hup]
        exact .of_sent_eq rfl
    | close peerId =>
      have hInOrder : s.InOrder decodePart (.close peerId) ↔ ¬ Joined s.sockets peerId "" :=
        ⟨fun h => h hup, fun h _ => h⟩
      rw [hInOrder]
      cases hsocket : s.sockets.get peerId with
      | none =>
        refine iff_of_true (hsame (step_of_unconnected hsocket 0 none none).2) ?_
        rintro ⟨socket, hs, -⟩
        rw [hsocket] at hs
        cases hs
      | some socket =>
        have hquiet : s.RelaysWithin decodePart (.close peerId) := by
          refine relaysWithin_of_quiet ?_
          rw [step_close hup hsocket]
          have hdisconnect := quiet_handleDisconnect s peerId socket.state
          cases hs : s.handleDisconnect peerId socket.state with
          | none => exact .of_sent_eq rfl
          | some s' =>
            rw [hs] at hdisconnect
            exact hdisconnect.trans (.of_sent_eq rfl)
        rw [and_iff_left hquiet, step_close hup hsocket]
        exact coherent_close_iff h hsocket
    | revoke sid reason =>
      have hInOrder : s.InOrder decodePart (.revoke sid reason) ↔
          ∀ peerId, ¬ InRoom s.rooms sid peerId := ⟨fun h => h hup, fun h _ => h⟩
      have hquiet : s.RelaysWithin decodePart (.revoke sid reason) := by
        refine relaysWithin_of_quiet ?_
        rw [step_revocation hup]
        exact quiet_notifyRevocation s sid reason
      rw [hInOrder, and_iff_left hquiet, step_revocation hup]
      exact coherent_revoke_iff h sid reason
  · have hdown : s.up = false := Bool.eq_false_iff.mpr hup
    exact iff_of_true (hsame (step_of_down hdown)) fun hup' => absurd hup' hup

theorem coherent_start : Signaling.start.Coherent := by
  refine .of_agree (fun peerId sid => ?_) fun sid room hroom => nomatch hroom
  exact ⟨fun ⟨_, hget, _⟩ => (nomatch hget), fun ⟨_, hget, _⟩ => (nomatch hget)⟩

/-- Throughout a run membership is stored consistently and everything is
relayed within its room iff every step is in order. -/
theorem coherent_relays_iff (decodePart : String → Option Val) (es : List SocketEvent)
    (hunique : Steps (step decodePart) Unique Signaling.start es) :
    Always (step decodePart) Coherent Signaling.start es ∧
        Steps (step decodePart) (RelaysWithin decodePart) Signaling.start es ↔
      Steps (step decodePart) (InOrder decodePart) Signaling.start es :=
  Machine.always_and_steps_iff (coherent_relays_step_iff decodePart) coherent_start hunique

/-! ## Two operators and a revocation -/

/-- The payload of a token of the session `ses_1`. -/
def ses1Part (_ : String) : Option Val := some (.obj [("jti", .str "tok_1"), ("sid", .str "ses_1")])

/-- A message of type `type` for `ses_1`. -/
def ses1Message (peerId type : String) : SocketEvent :=
  .message peerId 0 none (some (.obj [("type", .str type), ("session_id", .str "ses_1"),
    ("role", .str "operator"), ("token", .str "h.p.s")]))

/-- Two peers join, one offers, the other answers and leaves. -/
def orderly : List SocketEvent :=
  [.connect "a", ses1Message "a" "join", .connect "b", ses1Message "b" "join",
    ses1Message "a" "offer", ses1Message "b" "answer", ses1Message "b" "leave"]

/-- A peer joins and its session is revoked; while its connection closes a
second one joins the session, and the first sends an offer. -/
def revoked : List SocketEvent :=
  [.connect "a", ses1Message "a" "join", .revoke "ses_1" (.str "abuse"), .connect "b",
    ses1Message "b" "join", ses1Message "a" "offer"]

theorem coherent_relays_iff_sample :
    Always (step ses1Part) Coherent Signaling.start orderly ∧
        Steps (step ses1Part) (RelaysWithin ses1Part) Signaling.start orderly ↔
      Steps (step ses1Part) (InOrder ses1Part) Signaling.start orderly :=
  coherent_relays_iff ses1Part orderly
    ⟨rfl, trivial, rfl, trivial, trivial, trivial, trivial, trivial⟩

/-- The revoked peer has no room any more, its state still names one, and its
offer reaches the second. -/
theorem coherent_relays_fails :
    ∃ es, Steps (step ses1Part) Unique Signaling.start es ∧
      ¬ Always (step ses1Part) Coherent Signaling.start es ∧
      ¬ Steps (step ses1Part) (RelaysWithin ses1Part) Signaling.start es := by
  refine ⟨revoked, ⟨rfl, trivial, trivial, rfl, trivial, trivial, trivial⟩, fun h => ?_,
    fun h => ?_⟩
  · -- after the revocation
    have hrevoked := h.2.2.2.head
    obtain ⟨room, hroom, -⟩ := (hrevoked.agree "a" "ses_1").mp ⟨_, rfl, rfl⟩
    cases hroom
  · -- the last step
    obtain ⟨sid, ⟨room, hroom, hin⟩, -, -, hsid⟩ := h.2.2.2.2.2.1 _ (.head _) "a" _ rfl
    obtain rfl : "ses_1" = sid := Val.str.inj hsid
    obtain rfl := Option.some.inj hroom
    cases hin

end Signaling

end ChainKVM.Gateway
