import ChainKVM.Gateway.Rooms
import ChainKVM.Gateway.Sample

/-!
# The gateway process: `index.ts`

The HTTP routes and the signaling server in one process. A revocation notifies
the rooms before its handler returns, and the listeners of the sockets see the
clock and the token registry of the routes, the registry only if signaling has
been given it. `main` gives it to the session and the revocation routes and
not to signaling (`Process.main`).

So a join is let through by what its token says of itself: three parts, and a
payload that names the session. `joins_authentic_iff` says of which runs the
rooms still hold only peers with a token of the gateway's.
-/

namespace ChainKVM.Gateway

open Js (Val)
open Machine (Steps)

/-! ## The process -/

/-- A gateway process; `signalingTokenRegistry` says that `setTokenRegistry`
of `signaling.ts` has been called. -/
structure Process where
  deployment : Deployment
  signalingTokenRegistry : Bool

/-- The process that `main` starts. -/
def Process.main (d : Deployment) : Process := ⟨d, false⟩

/-- The state of the process. -/
structure Server where
  http : State
  signaling : Signaling

/-- A process that has just started. -/
def Server.start (now : Int) (revocationCache : Option RevocationCache) : Server :=
  ⟨.start now revocationCache, .start⟩

/-- What can happen to the process. -/
inductive ServerEvent where
  /-- A request, a timer or the passing of time. -/
  | http (e : Event)
  | connect (peerId : String)
  | message (peerId : String) (msg : Option Val)
  | closing (peerId : String)
  | close (peerId : String)

namespace Server

/-- The token registry that the listeners see. -/
def joinRegistry (p : Process) (s : Server) : Option TokenRegistry :=
  if p.signalingTokenRegistry then some s.http.registry else none

/-- The calls of `notifyRevocation` that a request has made. -/
def notifications (before after : State) : List (String × Val) :=
  after.notified.drop before.notified.length

/-- Telling the rooms of revoked sessions. -/
def notify (p : Process) (signaling : Signaling) (revoked : List (String × Val)) : Signaling :=
  revoked.foldl (fun s r => s.step p.deployment.decodePart (.revoke r.1 r.2)) signaling

/-- The registry after a message: a join may have asked it about a token. -/
def asked (p : Process) (s : Server) (peerId : String) (msg : Option Val) : TokenRegistry :=
  match s.signaling.sockets.get peerId with
  | none => s.http.registry
  | some socket =>
    (s.signaling.onMessage p.deployment.decodePart s.http.now (s.joinRegistry p) peerId
      socket.state msg).2.getD s.http.registry

/-- The state after an event. A process that has ended does nothing. -/
def step (p : Process) (s : Server) (e : ServerEvent) : Server :=
  if !s.signaling.up then s
  else
    match e with
    | .http e =>
      let http := Gateway.step p.deployment s.http e
      ⟨http, notify p s.signaling (notifications s.http http)⟩
    | .connect peerId =>
      { s with signaling := s.signaling.step p.deployment.decodePart (.connect peerId) }
    | .message peerId msg =>
      { http := { s.http with registry := s.asked p peerId msg }
        signaling := s.signaling.step p.deployment.decodePart
          (.message peerId s.http.now (s.joinRegistry p) msg) }
    | .closing peerId =>
      { s with signaling := s.signaling.step p.deployment.decodePart (.closing peerId) }
    | .close peerId =>
      { s with signaling := s.signaling.step p.deployment.decodePart (.close peerId) }

/-- What an event is to the signaling server; a request is nothing. -/
def socketEvent (p : Process) (s : Server) : ServerEvent → Option SocketEvent
  | .http _ => none
  | .connect peerId => some (.connect peerId)
  | .message peerId msg => some (.message peerId s.http.now (s.joinRegistry p) msg)
  | .closing peerId => some (.closing peerId)
  | .close peerId => some (.close peerId)

theorem step_of_down {p : Process} {s : Server} (hdown : s.signaling.up = false)
    (e : ServerEvent) : s.step p e = s := by
  simp only [step, hdown, Bool.not_false, if_true]

theorem signaling_step {p : Process} {s : Server} {e : ServerEvent} {e' : SocketEvent}
    (he : s.socketEvent p e = some e') :
    (s.step p e).signaling = s.signaling.step p.deployment.decodePart e' := by
  by_cases hup : s.signaling.up = true
  · cases e with
    | http e => cases he
    | connect peerId | message peerId msg | closing peerId | close peerId =>
      cases he
      simp only [step, hup, Bool.not_true, Bool.false_eq_true, if_false]
  · have hdown : s.signaling.up = false := Bool.eq_false_iff.mpr hup
    rw [step_of_down hdown, Signaling.step_of_down hdown]

/-- A request tells the rooms of what it has revoked. -/
theorem signaling_http {p : Process} {s : Server} (hup : s.signaling.up = true) (e : Event) :
    (s.step p (.http e)).signaling = notify p s.signaling
      (notifications s.http (Gateway.step p.deployment s.http e)) := by
  simp only [step, hup, Bool.not_true, Bool.false_eq_true, if_false]

end Server

/-! ## Who gets into a room -/

namespace Signaling

/-- A message lets its own peer into a room at most, by an accepted join. -/
theorem Moved.inRoom {s s' : Signaling} {peerId : String} {socket : Socket}
    {admitted : Option JoinClaims} (h : Moved s peerId socket admitted s') {sid peerId' : String}
    (hin : InRoom s'.rooms sid peerId') :
    InRoom s.rooms sid peerId' ∨
      ∃ claims, admitted = some claims ∧ sid = claims.sid ∧ peerId' = peerId := by
  cases h with
  | stayed hadmitted hsockets hrooms =>
    rw [hrooms] at hin
    exact .inl hin
  | left sid' hadmitted hsession hsockets hrooms =>
    rw [hrooms, inRoom_leaveRoom] at hin
    exact .inl hin.1
  | entered claims role hadmitted hsockets hrooms =>
    rw [hrooms, inRoom_enter] at hin
    rcases hin with ⟨hin, -⟩ | ⟨hsid, hpeer⟩
    · exact .inl hin
    · exact .inr ⟨claims, hadmitted, hsid, hpeer⟩

/-- An accepted join lets its peer in. -/
theorem Moved.admitted {s s' : Signaling} {peerId : String} {socket : Socket}
    {claims : JoinClaims} (h : Moved s peerId socket (some claims) s') :
    InRoom s'.rooms claims.sid peerId := by
  cases h with
  | stayed hadmitted => cases hadmitted
  | left sid' hadmitted => cases hadmitted
  | entered claims' role hadmitted hsockets hrooms =>
    obtain rfl : claims = claims' := Option.some.inj hadmitted
    rw [hrooms, inRoom_enter]
    exact .inr ⟨rfl, rfl⟩

/-- Nothing but a message lets anybody in. -/
theorem inRoom_of_step {decodePart : String → Option Val} {s : Signaling} {e : SocketEvent}
    (hmessage : ∀ peerId now registry msg, e ≠ .message peerId now registry msg)
    {sid peerId : String} (hin : InRoom (step decodePart s e).rooms sid peerId) :
    InRoom s.rooms sid peerId := by
  by_cases hup : s.up = true
  · cases e with
    | message peerId' now registry msg => exact absurd rfl (hmessage peerId' now registry msg)
    | connect peerId' =>
      rw [step_connect hup] at hin
      exact hin
    | closing peerId' =>
      rw [step_closing hup] at hin
      exact hin
    | close peerId' =>
      cases hsocket : s.sockets.get peerId' with
      | none => rwa [(step_of_unconnected hsocket 0 none none).2] at hin
      | some socket =>
        rw [step_close hup hsocket] at hin
        rcases handleDisconnect_cases s peerId' socket.state with
          ⟨s', hs', -, ⟨-, hrooms⟩ | ⟨sid', -, hrooms⟩⟩ | ⟨hthrown, -⟩
        · rw [hs'] at hin
          have hin' : InRoom s'.rooms sid peerId := hin
          rwa [hrooms] at hin'
        · rw [hs'] at hin
          have hin' : InRoom s'.rooms sid peerId := hin
          rw [hrooms, inRoom_leaveRoom] at hin'
          exact hin'.1
        · rw [hthrown] at hin
          exact hin
    | revoke sid' reason =>
      rw [step_revocation hup] at hin
      exact (rooms_notifyRevocation s sid' reason peerId sid |>.mp hin).1
  · rwa [step_of_down (Bool.eq_false_iff.mpr hup)] at hin

end Signaling

namespace Server

theorem inRoom_of_notify (p : Process) {sid peerId : String} :
    ∀ (revoked : List (String × Val)) (s : Signaling),
      InRoom (notify p s revoked).rooms sid peerId → InRoom s.rooms sid peerId := by
  intro revoked
  induction revoked with
  | nil => exact fun s hin => hin
  | cons r revoked ih =>
    intro s hin
    have htold : InRoom (s.step p.deployment.decodePart (.revoke r.1 r.2)).rooms sid peerId :=
      ih _ hin
    refine Signaling.inRoom_of_step ?_ htold
    exact fun _ _ _ _ => nofun

/-! ## Authentic joins -/

/-- A token that is the gateway's, for this session and good at this moment:
`signed` by its key, registered for the session, unexpired and not revoked. -/
def Authentic (signed : String → Prop) (p : Process) (s : Server) (token sid : String) : Prop :=
  signed token ∧ ∃ claims entry,
    decodeTokenClaims p.deployment.decodePart token = some claims ∧
      s.http.registry.get claims.jti = some entry ∧ entry.sessionId = sid ∧
      (s.http.registry.isValid s.http.now claims.jti).1 = true

/-- Whoever a step adds to a room has presented an authentic token for it. -/
def AddsAuthentic (signed : String → Prop) (p : Process) (s : Server) (e : ServerEvent) : Prop :=
  ∀ sid peerId, InRoom (s.step p e).signaling.rooms sid peerId →
    ¬ InRoom s.signaling.rooms sid peerId →
      ∃ msg token, e = .message peerId (some msg) ∧ msg.member "token" = .str token ∧
        Authentic signed p s token sid

/-- A message that asks to join a session with a token that names it. The role
is one that can be printed. -/
structure AsksToJoin (p : Process) (msg : Val) (token : String) (claims : JoinClaims) : Prop where
  type : msg.member "type" = .str "join"
  presents : msg.member "token" = .str token
  decoded : decodeTokenClaims p.deployment.decodePart token = some claims
  session : msg.member "session_id" = .str claims.sid
  role : (Signaling.templateText (msg.member "role")).isSome = true

/-- Every token with which a connected peer asks to join is authentic. -/
def AsksAuthentic (signed : String → Prop) (p : Process) (s : Server) (e : ServerEvent) : Prop :=
  ∀ peerId msg token claims, e = .message peerId (some msg) → s.signaling.up = true →
    (s.signaling.sockets.get peerId).isSome = true → AsksToJoin p msg token claims →
      ¬ InRoom s.signaling.rooms claims.sid peerId → Authentic signed p s token claims.sid

/-- Without a registry, whoever asks is admitted. -/
theorem admits_iff {p : Process} {now : Int} {msg : Val} {claims : JoinClaims} :
    Signaling.admits p.deployment.decodePart now none (some msg) = some claims ↔
      ∃ token, AsksToJoin p msg token claims := by
  simp only [Signaling.admits]
  constructor
  · intro h
    split at h
    next hjoin =>
      split at h
      next claims' hvalid =>
        obtain ⟨role, hrole, rfl⟩ := Option.map_eq_some_iff.mp h
        obtain ⟨token, htoken, hdecoded, hsession, -⟩ := validateJoinToken_claims_iff.mp hvalid
        refine ⟨token, (Val.strictEq_str _ _).mp hjoin, htoken, hdecoded, hsession, ?_⟩
        rw [hrole]
        rfl
      · cases h
    · cases h
  · rintro ⟨token, h⟩
    obtain ⟨role, hrole⟩ := Option.isSome_iff_exists.mp h.role
    have hvalid : (validateJoinToken p.deployment.decodePart now none msg).1 = .claims claims :=
      validateJoinToken_claims_iff.mpr ⟨token, h.presents, h.decoded, h.session, nofun⟩
    rw [if_pos ((Val.strictEq_str _ _).mpr h.type), hvalid, hrole]
    rfl

/-- Whoever gets into a room sends an accepted join. -/
theorem admitted_of_added {p : Process} {s : Server} {e : ServerEvent} {sid peerId : String}
    (hin : InRoom (s.step p e).signaling.rooms sid peerId)
    (hnot : ¬ InRoom s.signaling.rooms sid peerId) :
    ∃ msg claims, e = .message peerId (some msg) ∧ s.signaling.up = true ∧
      (s.signaling.sockets.get peerId).isSome = true ∧ sid = claims.sid ∧
      Signaling.admits p.deployment.decodePart s.http.now (s.joinRegistry p) (some msg) =
        some claims := by
  by_cases hup : s.signaling.up = true
  · cases e with
    | http e =>
      rw [signaling_http hup] at hin
      exact absurd (inRoom_of_notify p _ _ hin) hnot
    | connect peerId' | closing peerId' | close peerId' =>
      rw [signaling_step rfl] at hin
      refine absurd (Signaling.inRoom_of_step ?_ hin) hnot
      exact fun _ _ _ _ => nofun
    | message peerId' msg =>
      rw [signaling_step rfl] at hin
      cases hsocket : s.signaling.sockets.get peerId' with
      | none =>
        rw [(Signaling.step_of_unconnected hsocket _ _ _).1] at hin
        exact absurd hin hnot
      | some socket =>
        rw [Signaling.step_message hup hsocket] at hin
        have hmoved := Signaling.moved_onMessage p.deployment.decodePart s.http.now
          (s.joinRegistry p) s.signaling peerId' socket msg
        -- of what a message can do only a join puts anybody anywhere
        rcases hmoved.inRoom hin with hin | ⟨claims, hadmitted, hsid, rfl⟩
        · exact absurd hin hnot
        · cases msg with
          | none => cases hadmitted
          | some msg => exact ⟨msg, claims, rfl, hup, by rw [hsocket]; rfl, hsid, hadmitted⟩
  · rw [step_of_down (Bool.eq_false_iff.mpr hup)] at hin
    exact absurd hin hnot

/-- One event adds only peers with authentic tokens iff every token with which
it asks is authentic. -/
theorem addsAuthentic_iff (signed : String → Prop) (d : Deployment) (s : Server)
    (e : ServerEvent) :
    AddsAuthentic signed (.main d) s e ↔ AsksAuthentic signed (.main d) s e := by
  constructor
  · intro hadds peerId msg token claims he hup hsome hasks hnot
    subst he
    obtain ⟨socket, hsocket⟩ := Option.isSome_iff_exists.mp hsome
    have hmoved := Signaling.moved_onMessage d.decodePart s.http.now none s.signaling peerId
      socket (some msg)
    have hadmitted : Signaling.admits d.decodePart s.http.now none (some msg) = some claims :=
      admits_iff.mpr ⟨token, hasks⟩
    rw [hadmitted] at hmoved
    have hin : InRoom (s.step (.main d) (.message peerId (some msg))).signaling.rooms
        claims.sid peerId := by
      rw [signaling_step rfl]
      show InRoom (Signaling.step d.decodePart s.signaling
        (.message peerId s.http.now none (some msg))).rooms claims.sid peerId
      rw [Signaling.step_message hup hsocket]
      exact hmoved.admitted
    -- the token with which it got in is the one it asked with
    obtain ⟨msg', token', he, htoken, hauthentic⟩ := hadds claims.sid peerId hin hnot
    cases he
    rw [hasks.presents] at htoken
    rwa [Val.str.inj htoken]
  · intro hasks sid peerId hin hnot
    obtain ⟨msg, claims, rfl, hup, hsome, rfl, hadmitted⟩ := admitted_of_added hin hnot
    obtain ⟨token, hasked⟩ := admits_iff.mp hadmitted
    exact ⟨msg, token, rfl, hasked.presents,
      hasks peerId msg token claims rfl hup hsome hasked hnot⟩

/-- In a run of the gateway as `main` starts it, nobody gets into a room
without an authentic token for it iff nobody asks with another one. -/
theorem joins_authentic_iff (signed : String → Prop) (d : Deployment) (now : Int)
    (revocationCache : Option RevocationCache) (es : List ServerEvent) :
    Steps (step (.main d)) (AddsAuthentic signed (.main d)) (.start now revocationCache) es ↔
      Steps (step (.main d)) (AsksAuthentic signed (.main d)) (.start now revocationCache) es := by
  have hstep : ∀ s e, True →
      (AddsAuthentic signed (.main d) s e ↔ AsksAuthentic signed (.main d) s e) :=
    fun s e _ => addsAuthentic_iff signed d s e
  exact Machine.steps_iff_steps (fun _ _ _ => trivial) hstep trivial

/-! ## A forged token -/

/-- A gateway for which the middle part of any token names the session
`ses_1`. -/
def ses1Gateway : Deployment := { Sample.gateway with decodePart := Signaling.ses1Part }

/-- Somebody joins `ses_1`, a session the gateway does not have, with a text of
three parts. -/
def forgedJoin : List ServerEvent :=
  [.connect "a", .message "a" (some (.obj [("type", .str "join"), ("session_id", .str "ses_1"),
    ("role", .str "operator"), ("token", .str "h.p.s")]))]

/-- It works: whatever counts as signed, the registry does not have the
token. -/
theorem joins_authentic_fails :
    ¬ ∀ (signed : String → Prop) (d : Deployment) (now : Int)
      (revocationCache : Option RevocationCache) (es : List ServerEvent),
        Steps (step (.main d)) (AddsAuthentic signed (.main d)) (.start now revocationCache)
          es := by
  intro h
  have hjoin := (h (fun _ => True) ses1Gateway 0 none forgedJoin).2.1
  have hbefore : ¬ InRoom OrdMap.empty "ses_1" "a" := fun ⟨_, hroom, _⟩ => (nomatch hroom)
  obtain ⟨msg, token, hmessage, -, -, claims, entry, -, hentry, -⟩ :=
    hjoin "ses_1" "a" ⟨_, rfl, rfl⟩ hbefore
  cases hentry

end Server

end ChainKVM.Gateway
