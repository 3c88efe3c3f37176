import ChainKVM.Gateway.Rooms

/-!
# Messages that nobody catches

The listener for messages is called by the socket's emitter, so what it throws
ends the process, with every session of the gateway. Only the parsing of the
message and of the token's payload stand in a `try`. Outside, three expressions
trust the message to have the type it was cast to: `msg.type`, `token.split`
and the texts that the type and the roles are put into.

`answers_iff` says which messages the listener survives and answers as it
should; `stays_up_iff` says which runs the server does. A role that cannot be
put into a text is never stored, so in a run `leave` and the closing of a
connection are not among the dangers.
-/

namespace ChainKVM.Gateway

open Js (Val)
open Machine (Always Steps)

namespace Signaling

theorem templateText_isSome (v : Val) : (templateText v).isSome = v.converts := by
  unfold templateText
  rw [Option.isSome_map, Val.toPrimitive_isSome]

theorem exists_templateText {v : Val} (h : v.converts = true) :
    ∃ text, templateText v = some text := by
  rw [← Option.isSome_iff_exists, templateText_isSome, h]

theorem templateText_eq_none {v : Val} (h : ¬ v.converts = true) : templateText v = none := by
  rw [← templateText_isSome, Option.not_isSome_iff_eq_none] at h
  exact h

/-! ## What the listener should answer -/

/-- `msg.type === name`. -/
def isType (name : String) (msg : Val) : Bool := (msg.member "type").strictEq (.str name)

/-- The listener knows the type of the message. -/
def isKnown (msg : Val) : Bool := isType "join" msg || isRelayed msg || isType "leave" msg

/-- The token of a join, if there is one, is a text. -/
def TokenIsText (msg : Val) : Prop :=
  (msg.member "token").truthy = true → ∃ token, msg.member "token" = .str token

/-- The token of a join decodes to claims for the session that the join names,
and the registry knows it. -/
def LetIn (decodePart : String → Option Val) (now : Int) (registry : Option TokenRegistry)
    (msg : Val) : Prop :=
  ∃ token claims, msg.member "token" = .str token ∧
    decodeTokenClaims decodePart token = some claims ∧
    msg.member "session_id" = .str claims.sid ∧
    ∀ r, registry = some r → (r.isValid now claims.jti).1 = true

/-- The message is no JSON, or of no type that the listener knows, or a join
that is to be refused. -/
def Faulty (decodePart : String → Option Val) (now : Int) (registry : Option TokenRegistry) :
    Option Val → Prop
  | none => True
  | some msg => isKnown msg = false ∨ isType "join" msg = true ∧
      ¬ LetIn decodePart now registry msg

/-- The listener answers with an error and does nothing else. -/
def Refuses (s s' : Signaling) (peerId : String) : Prop :=
  (∃ error, s' = s.sendError peerId error) ∧ s'.rooms = s.rooms ∧ s'.sockets = s.sockets

/-- The message has what the listener takes for granted. It is not null; the
token of a join is a text, and so can be the role if the join is let in, the
role of a peer that leaves, and a type that is not known. -/
def WellTyped (decodePart : String → Option Val) (now : Int) (registry : Option TokenRegistry)
    (state : PeerState) : Option Val → Prop
  | none => True
  | some .undefined => False
  | some .null => False
  | some msg =>
    if isType "join" msg then
      TokenIsText msg ∧ (LetIn decodePart now registry msg → (msg.member "role").converts = true)
    else if isRelayed msg then True
    else if isType "leave" msg then state.session ≠ none → state.role.converts = true
    else (msg.member "type").converts = true

/-- A listener that throws does not return. -/
theorem not_returns : ¬ ∃ s' : Signaling, none = some s' := by
  rintro ⟨s', hs'⟩
  cases hs'

theorem refuses_sendError (s : Signaling) (peerId : String) (error : SignalingError) :
    s.Refuses (s.sendError peerId error) peerId :=
  ⟨⟨error, rfl⟩, rooms_send .., sockets_send ..⟩

/-! ## The listener -/

/-- What `validateJoinToken` finds out. -/
theorem validateJoinToken_spec (decodePart : String → Option Val) (now : Int)
    (registry : Option TokenRegistry) (msg : Val) :
    match (validateJoinToken decodePart now registry msg).1 with
    | .thrown => ¬ TokenIsText msg
    | .error _ => TokenIsText msg ∧ ¬ LetIn decodePart now registry msg
    | .claims _ => TokenIsText msg ∧ LetIn decodePart now registry msg := by
  cases hresult : (validateJoinToken decodePart now registry msg).1 with
  | thrown =>
    obtain ⟨htruthy, hno⟩ := validateJoinToken_thrown_iff.mp hresult
    intro htext
    obtain ⟨token, htoken⟩ := htext htruthy
    exact hno token htoken
  | error error =>
    refine ⟨fun htruthy => ?_, ?_⟩
    · by_contra hno
      rw [validateJoinToken_thrown_iff.mpr ⟨htruthy, not_exists.mp hno⟩] at hresult
      cases hresult
    · rintro ⟨token, claims, h⟩
      rw [validateJoinToken_claims_iff.mpr ⟨token, h⟩] at hresult
      cases hresult
  | claims claims =>
    obtain ⟨token, htoken, h⟩ := validateJoinToken_claims_iff.mp hresult
    exact ⟨fun _ => ⟨token, htoken⟩, token, claims, htoken, h⟩

theorem handleJoin_returns_iff (decodePart : String → Option Val) (now : Int)
    (registry : Option TokenRegistry) (s : Signaling) (peerId : String) (state : PeerState)
    (msg : Val) :
    (∃ s', s.handleJoin peerId state msg (validateJoinToken decodePart now registry msg).1 =
        some s') ↔
      TokenIsText msg ∧
        (LetIn decodePart now registry msg → (msg.member "role").converts = true) := by
  have hspec := validateJoinToken_spec decodePart now registry msg
  cases hresult : (validateJoinToken decodePart now registry msg).1 with
  | thrown =>
    rw [hresult] at hspec
    exact iff_of_false not_returns fun h => hspec h.1
  | error error =>
    rw [hresult] at hspec
    exact iff_of_true ⟨_, rfl⟩ ⟨hspec.1, fun hin => absurd hin hspec.2⟩
  | claims claims =>
    rw [hresult] at hspec
    simp only [handleJoin]
    by_cases hrole : (msg.member "role").converts = true
    · obtain ⟨role, htext⟩ := exists_templateText hrole
      rw [htext]
      exact iff_of_true ⟨_, rfl⟩ ⟨hspec.1, fun _ => hrole⟩
    · rw [templateText_eq_none hrole]
      exact iff_of_false not_returns fun h => hrole (h.2 hspec.2)

theorem handleLeave_returns_iff (s : Signaling) (peerId : String) (state : PeerState) :
    (∃ s', s.handleLeave peerId state = some s') ↔
      (state.session ≠ none → state.role.converts = true) := by
  unfold handleLeave
  cases state.session with
  | none => exact iff_of_true ⟨s, rfl⟩ fun h => absurd rfl h
  | some sid =>
    dsimp only
    by_cases hrole : state.role.converts = true
    · obtain ⟨role, htext⟩ := exists_templateText hrole
      rw [htext]
      exact iff_of_true ⟨_, rfl⟩ fun _ => hrole
    · rw [templateText_eq_none hrole]
      exact iff_of_false not_returns fun h => hrole (h nofun)

/-- The listener returns iff the message has what it takes for granted. -/
theorem onMessage_returns_iff (decodePart : String → Option Val) (now : Int)
    (registry : Option TokenRegistry) (s : Signaling) (peerId : String) (state : PeerState)
    (msg : Option Val) :
    (∃ s', (s.onMessage decodePart now registry peerId state msg).1 = some s') ↔
      WellTyped decodePart now registry state msg := by
  unfold onMessage
  split
  next => exact iff_of_true ⟨_, rfl⟩ trivial
  next => exact iff_of_false not_returns id
  next => exact iff_of_false not_returns id
  next msg hundefined hnull =>
    have hwell : WellTyped decodePart now registry state (some msg) ↔
        if isType "join" msg then
          TokenIsText msg ∧
            (LetIn decodePart now registry msg → (msg.member "role").converts = true)
        else if isRelayed msg then True
        else if isType "leave" msg then state.session ≠ none → state.role.converts = true
        else (msg.member "type").converts = true := by
      cases msg with
      | undefined => exact absurd rfl hundefined
      | null => exact absurd rfl hnull
      | _ => exact Iff.rfl
    rw [hwell]
    -- the types in the order of the switch
    by_cases hjoin : isType "join" msg = true
    · rw [if_pos hjoin]
      unfold isType at hjoin
      rw [if_pos hjoin]
      exact handleJoin_returns_iff decodePart now registry s peerId state msg
    · rw [if_neg hjoin]
      unfold isType at hjoin
      rw [if_neg hjoin]
      by_cases hrelayed : isRelayed msg = true
      · rw [if_pos hrelayed, if_pos hrelayed]
        cases state.session with
        | none => exact iff_of_true ⟨_, rfl⟩ trivial
        | some sid => exact iff_of_true ⟨_, rfl⟩ trivial
      · rw [if_neg hrelayed, if_neg hrelayed]
        by_cases hleave : isType "leave" msg = true
        · rw [if_pos hleave]
          unfold isType at hleave
          rw [if_pos hleave]
          exact handleLeave_returns_iff s peerId state
        · rw [if_neg hleave]
          unfold isType at hleave
          rw [if_neg hleave, ← templateText_isSome]
          cases templateText (msg.member "type") with
          | none => exact iff_of_false not_returns nofun
          | some type => exact iff_of_true ⟨_, rfl⟩ rfl

/-- If the listener returns, it has refused what is faulty. -/
theorem onMessage_refuses {decodePart : String → Option Val} {now : Int}
    {registry : Option TokenRegistry} {s s' : Signaling} {peerId : String} {state : PeerState}
    {msg : Option Val} (hfaulty : Faulty decodePart now registry msg)
    (hs' : (s.onMessage decodePart now registry peerId state msg).1 = some s') :
    s.Refuses s' peerId := by
  unfold onMessage at hs'
  split at hs'
  next =>
    rw [← Option.some.inj hs']
    exact refuses_sendError s peerId _
  next => cases hs'
  next => cases hs'
  next msg _ _ =>
    by_cases hjoin : isType "join" msg = true
    · -- the type is known, so it is the join that is to be refused
      have hout : ¬ LetIn decodePart now registry msg := by
        rcases hfaulty with hknown | ⟨-, hout⟩
        · unfold isKnown at hknown
          rw [hjoin] at hknown
          cases hknown
        · exact hout
      unfold isType at hjoin
      rw [if_pos hjoin] at hs'
      dsimp only at hs'
      have hspec := validateJoinToken_spec decodePart now registry msg
      cases hresult : (validateJoinToken decodePart now registry msg).1 with
      | thrown =>
        rw [hresult] at hs'
        cases hs'
      | error error =>
        rw [hresult] at hs'
        rw [← Option.some.inj hs']
        exact refuses_sendError s peerId error
      | claims claims =>
        rw [hresult] at hspec
        exact absurd hspec.2 hout
    · have hunknown : isKnown msg = false := hfaulty.resolve_right fun h => hjoin h.1
      unfold isKnown at hunknown
      rw [Bool.or_eq_false_iff, Bool.or_eq_false_iff] at hunknown
      obtain ⟨⟨-, hrelayed⟩, hleave⟩ := hunknown
      -- only the last branch is left, which answers with the type
      unfold isType at hjoin hleave
      rw [if_neg hjoin] at hs'
      simp only [hrelayed, hleave, Bool.false_eq_true, if_false] at hs'
      obtain ⟨type, -, rfl⟩ := Option.map_eq_some_iff.mp hs'
      exact refuses_sendError s peerId _

/-- The listener returns, and refuses what is faulty, iff the message has what
it takes for granted. -/
theorem answers_iff (decodePart : String → Option Val) (now : Int)
    (registry : Option TokenRegistry) (s : Signaling) (peerId : String) (state : PeerState)
    (msg : Option Val) :
    (∃ s', (s.onMessage decodePart now registry peerId state msg).1 = some s' ∧
        (Faulty decodePart now registry msg → s.Refuses s' peerId)) ↔
      WellTyped decodePart now registry state msg := by
  rw [← onMessage_returns_iff decodePart now registry s peerId state msg]
  constructor
  · exact fun ⟨s', hs', _⟩ => ⟨s', hs'⟩
  · exact fun ⟨s', hs'⟩ => ⟨s', hs', fun hfaulty => onMessage_refuses hfaulty hs'⟩

/-- A `null` is answered by nobody. -/
theorem answers_fails :
    ¬ ∃ s', ((step (fun _ => none) start (.connect "peer")).onMessage (fun _ => none) 0 none "peer"
        ⟨none, .null⟩ (some .null)).1 = some s' ∧
      (Faulty (fun _ => none) 0 none (some .null) →
        (step (fun _ => none) start (.connect "peer")).Refuses s' "peer") := by
  rintro ⟨s', hs', -⟩
  cases hs'

/-! ## Runs -/

/-- The roles that are stored can be put into texts. -/
def RolesConvert (s : Signaling) : Prop :=
  ∀ peerId socket, s.sockets.get peerId = some socket → socket.state.role.converts = true

/-- The message of a connected peer is well typed. -/
def Survivable (decodePart : String → Option Val) (s : Signaling) : SocketEvent → Prop
  | .message peerId now registry msg =>
    ∀ socket, s.sockets.get peerId = some socket →
      WellTyped decodePart now registry socket.state msg
  | _ => True

/-- What a listener that returns does not do: it ends nothing, and stores no
role that cannot be put into a text. -/
structure Keeps (s s' : Signaling) : Prop where
  up : s'.up = s.up
  roles : s.RolesConvert → s'.RolesConvert

theorem Keeps.of_sockets_eq {s s' : Signaling} (hup : s'.up = s.up)
    (hsockets : s'.sockets = s.sockets) : Keeps s s' := by
  refine ⟨hup, fun h => ?_⟩
  unfold RolesConvert
  rw [hsockets]
  exact h

/-- A socket may change if its role still converts. -/
theorem Keeps.of_update {s s' : Signaling} {peerId : String} {f : Socket → Socket}
    (hup : s'.up = s.up) (hsockets : s'.sockets = s.sockets.update peerId f)
    (hf : ∀ socket, socket.state.role.converts = true → (f socket).state.role.converts = true) :
    Keeps s s' := by
  refine ⟨hup, fun h peerId' socket' hget => ?_⟩
  rw [hsockets, OrdMap.get_update] at hget
  by_cases hp : peerId' = peerId
  · rw [if_pos hp] at hget
    obtain ⟨socket, hsocket, rfl⟩ := Option.map_eq_some_iff.mp hget
    exact hf socket (h peerId' socket hsocket)
  · rw [if_neg hp] at hget
    exact h peerId' socket' hget

theorem Keeps.trans {s s' s'' : Signaling} (h : Keeps s s') (h' : Keeps s' s'') : Keeps s s'' :=
  ⟨h'.up.trans h.up, fun hroles => h'.roles (h.roles hroles)⟩

theorem keeps_send (s : Signaling) (peerId : String) (message : ServerMessage) :
    Keeps s (s.send peerId message) := by
  refine .of_sockets_eq ?_ (sockets_send ..)
  unfold send
  split <;> rfl

theorem keeps_broadcast (s : Signaling) (sid : String) (message : ServerMessage)
    (excluded : Option String) : Keeps s (s.broadcast sid message excluded) :=
  .of_sockets_eq rfl rfl

theorem keeps_notifyRevocation (s : Signaling) (sid : String) (reason : Val) :
    Keeps s (s.notifyRevocation sid reason) := by
  unfold notifyRevocation
  cases s.rooms.get sid with
  | none => exact keeps_broadcast s sid _ none
  | some room =>
    dsimp only [broadcast]
    generalize s.sent ++ _ = sent
    generalize s.rooms.delete sid = rooms
    generalize room.entries.map Prod.fst = members
    induction members generalizing s with
    | nil => exact .of_sockets_eq rfl rfl
    | cons peerId members ih =>
      rw [List.foldl_cons]
      have hhead : Keeps s { s with
          sockets := s.sockets.update peerId fun socket => { socket with isOpen := false } } :=
        .of_update rfl rfl fun _ => id
      exact hhead.trans (ih _)

theorem keeps_handleJoin {s s' : Signaling} {peerId : String} {state : PeerState} {msg : Val}
    {result : JoinCheck} (hs' : s.handleJoin peerId state msg result = some s') : Keeps s s' := by
  cases result with
  | thrown => cases hs'
  | error error =>
    rw [← Option.some.inj hs']
    exact keeps_send s peerId _
  | claims claims =>
    obtain ⟨role, htext, rfl⟩ := Option.map_eq_some_iff.mp hs'
    -- the role is stored, and it has just been put into a text
    have hrole : (msg.member "role").converts = true := by
      rw [← templateText_isSome, htext]
      rfl
    have hentered : Keeps s (s.enter peerId state claims.sid (msg.member "role")) :=
      .of_update rfl rfl fun _ _ => hrole
    exact (hentered.trans (keeps_broadcast ..)).trans (keeps_send ..)

theorem keeps_handleLeave {s s' : Signaling} {peerId : String} {state : PeerState}
    (hs' : s.handleLeave peerId state = some s') : Keeps s s' := by
  unfold handleLeave at hs'
  cases hsession : state.session with
  | none =>
    rw [hsession] at hs'
    rw [← Option.some.inj hs']
    exact .of_sockets_eq rfl rfl
  | some sid =>
    rw [hsession] at hs'
    obtain ⟨role, -, rfl⟩ := Option.map_eq_some_iff.mp hs'
    exact .of_update rfl rfl fun _ _ => rfl

theorem keeps_handleDisconnect {s s' : Signaling} {peerId : String} {state : PeerState}
    (hs' : s.handleDisconnect peerId state = some s') : Keeps s s' := by
  unfold handleDisconnect at hs'
  cases hsession : state.session with
  | none =>
    rw [hsession] at hs'
    rw [← Option.some.inj hs']
    exact .of_sockets_eq rfl rfl
  | some sid =>
    rw [hsession] at hs'
    dsimp only at hs'
    by_cases hgone : ((s.rooms.get sid).any fun room => (room.delete peerId).size = 0) = true
    · rw [if_pos hgone] at hs'
      rw [← Option.some.inj hs']
      exact .of_sockets_eq rfl rfl
    · rw [if_neg hgone] at hs'
      obtain ⟨role, -, rfl⟩ := Option.map_eq_some_iff.mp hs'
      exact .of_sockets_eq rfl rfl

theorem keeps_onMessage {decodePart : String → Option Val} {now : Int}
    {registry : Option TokenRegistry} {s s' : Signaling} {peerId : String} {state : PeerState}
    {msg : Option Val}
    (hs' : (s.onMessage decodePart now registry peerId state msg).1 = some s') : Keeps s s' := by
  unfold onMessage at hs'
  split at hs'
  next =>
    rw [← Option.some.inj hs']
    exact keeps_send s peerId _
  next => cases hs'
  next => cases hs'
  next msg _ _ =>
    by_cases hjoin : (msg.member "type").strictEq (.str "join") = true
    · rw [if_pos hjoin] at hs'
      exact keeps_handleJoin hs'
    · rw [if_neg hjoin] at hs'
      by_cases hrelayed : isRelayed msg = true
      · rw [if_pos hrelayed] at hs'
        cases hsession : state.session with
        | none =>
          rw [hsession] at hs'
          rw [← Option.some.inj hs']
          exact keeps_send s peerId _
        | some sid =>
          rw [hsession] at hs'
          rw [← Option.some.inj hs']
          exact keeps_broadcast s sid _ _
      · rw [if_neg hrelayed] at hs'
        by_cases hleave : (msg.member "type").strictEq (.str "leave") = true
        · rw [if_pos hleave] at hs'
          exact keeps_handleLeave hs'
        · rw [if_neg hleave] at hs'
          obtain ⟨type, -, rfl⟩ := Option.map_eq_some_iff.mp hs'
          exact keeps_send s peerId _

/-- A connection that closes is no danger where the role converts. -/
theorem handleDisconnect_returns (s : Signaling) (peerId : String) {state : PeerState}
    (hrole : state.role.converts = true) : ∃ s', s.handleDisconnect peerId state = some s' := by
  obtain ⟨role, htext⟩ := exists_templateText hrole
  unfold handleDisconnect
  cases state.session with
  | none => exact ⟨s, rfl⟩
  | some sid =>
    dsimp only
    by_cases hgone : ((s.rooms.get sid).any fun room => (room.delete peerId).size = 0) = true
    · rw [if_pos hgone]
      exact ⟨_, rfl⟩
    · rw [if_neg hgone, htext]
      exact ⟨_, rfl⟩

/-- A listener that may throw ends the process iff it does. -/
theorem settled_spec {s : Signaling} {result : Option Signaling}
    (hkeeps : ∀ s', result = some s' → Keeps s s') (h : s.RolesConvert) (hup : s.up = true) :
    (s.settled result).RolesConvert ∧
      ((s.settled result).up = true ↔ ∃ s', result = some s') := by
  cases result with
  | none => exact ⟨h, iff_of_false nofun not_returns⟩
  | some s' =>
    have hkept := hkeeps s' rfl
    exact ⟨hkept.roles h, iff_of_true (hkept.up.trans hup) ⟨s', rfl⟩⟩

/-- A step keeps the roles, and leaves the server up iff it is survivable. -/
theorem step_spec {s : Signaling} (decodePart : String → Option Val) (e : SocketEvent)
    (h : s.RolesConvert) (hup : s.up = true) :
    (step decodePart s e).RolesConvert ∧
      ((step decodePart s e).up = true ↔ s.Survivable decodePart e) := by
  have hkept {s' : Signaling} (hkeeps : Keeps s s') :
      s'.RolesConvert ∧ (s'.up = true ↔ True) :=
    ⟨hkeeps.roles h, iff_of_true (hkeeps.up.trans hup) trivial⟩
  cases e with
  | connect peerId =>
    rw [step_connect hup]
    refine ⟨fun peerId' socket' hget => ?_, iff_of_true hup trivial⟩
    dsimp only at hget
    rcases OrdMap.get_set_eq_some_iff.mp hget with ⟨-, rfl⟩ | ⟨-, hold⟩
    · rfl
    · exact h peerId' socket' hold
  | message peerId now registry msg =>
    cases hsocket : s.sockets.get peerId with
    | none =>
      rw [(step_of_unconnected hsocket now registry msg).1]
      refine ⟨h, iff_of_true hup fun socket hget => ?_⟩
      rw [hsocket] at hget
      cases hget
    | some socket =>
      rw [step_message hup hsocket]
      have hlistened (s' : Signaling)
          (hs' : (s.onMessage decodePart now registry peerId socket.state msg).1 = some s') :
          Keeps s s' := keeps_onMessage hs'
      obtain ⟨hroles, hstays⟩ := settled_spec hlistened h hup
      rw [onMessage_returns_iff] at hstays
      refine ⟨hroles, hstays.trans ⟨fun hwell socket' hget => ?_, fun hall => ?_⟩⟩
      · rw [hsocket] at hget
        rwa [← Option.some.inj hget]
      · exact hall socket hsocket
  | closing peerId =>
    rw [step_closing hup]
    exact hkept (.of_update rfl rfl fun _ => id)
  | close peerId =>
    cases hsocket : s.sockets.get peerId with
    | none =>
      rw [(step_of_unconnected hsocket 0 none none).2]
      exact ⟨h, iff_of_true hup trivial⟩
    | some socket =>
      rw [step_close hup hsocket]
      obtain ⟨s', hs'⟩ := handleDisconnect_returns s peerId (h peerId socket hsocket)
      rw [hs', Option.map_some]
      have hclosed := keeps_handleDisconnect hs'
      refine ⟨fun peerId' socket' hget => ?_, iff_of_true (hclosed.up.trans hup) trivial⟩
      -- the other sockets are as the listener leaves them
      simp only [settled] at hget
      exact hclosed.roles h peerId' socket' (OrdMap.get_delete_eq_some_iff.mp hget).2
  | revoke sid reason =>
    rw [step_revocation hup]
    exact hkept (keeps_notifyRevocation s sid reason)

/-- The server stays up throughout a run iff each message that a listener gets
is well typed. -/
theorem stays_up_iff (decodePart : String → Option Val) (es : List SocketEvent) :
    Always (step decodePart) (fun s => s.up = true) start es ↔
      Steps (step decodePart) (Survivable decodePart) start es := by
  have hroles (s : Signaling) (e : SocketEvent) (h : s.RolesConvert) :
      (step decodePart s e).RolesConvert := by
    cases hup : s.up with
    | false =>
      rw [step_of_down hup]
      exact h
    | true => exact (step_spec decodePart e h hup).1
  have hstart : start.RolesConvert := fun _ _ h => by cases h
  exact Machine.always_iff_steps hroles (fun s e h hup => (step_spec decodePart e h hup).2)
    hstart rfl

end Signaling

end ChainKVM.Gateway
