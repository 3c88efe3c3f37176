import Mathlib.Data.Set.Lattice
import Mathlib.Order.CompletePartialOrder
import ChainKVM.Gateway.Approval
import ChainKVM.Lib.Rely
import ChainKVM.System.Revocation
import ChainKVM.System.RoundTrip

/-!
# Whose authority moves a robot

The gateway checks a policy and signs a token; the robot never talks to the
gateway about it and goes by the token alone. In between there are an
untrusted relay, handlers that overtake each other, a token cache and a
callback that outlives its offer. `Authorised` says that none of this matters:
a robot is active only on a session whose token the gateway has handed out for
this robot, after a request that the policy let pass, and a motion has reached
a robot only if such a token grants control of it.

What is assumed is that tokens are not forged (`Unforged`): an offer that a
robot takes has a token that was handed out before, if the robot's parser
accepts it at all under the gateway's key.

The robot's side is a contract (`contract`) whose worlds are the tokens handed
out so far: an operation may be performed with what was vouched for when it was
answered, and more tokens take nothing back.
-/

namespace ChainKVM.System

open Js (Val)
open Gateway (CapabilityTokenClaims RevocationCache ServerMessage)
open Machine (Always Steps always_of_steps)
open Robot (Agent AgentOp AgentProg Bytes CachedToken Core External JwtParse MessageType Task Time
  TokenClaims TokenValidator second scopeControl)
open Robot.SignalingClient (receive)

/-! ## What a token says to a robot -/

/-- The info that a robot makes of the claims it has read. -/
def infoOf (robotID : String) (claims : TokenClaims) : Robot.Info where
  sessionID := claims.sessionID
  operatorDID := claims.subject
  robotID := robotID
  scope := claims.scope
  expiresAt := claims.expiresAt

/-- The info is what the token says. -/
structure Vouches (claims : CapabilityTokenClaims) (info : Robot.Info) : Prop where
  audience : claims.aud.toJson = some (.str info.robotID)
  session : claims.sid = info.sessionID
  operator : info.operatorDID = (claims.sub.toJson.bind Json.asString).getD ""
  scope : info.scope = ((claims.scope.toJson.bind Json.asArray).getD []).filterMap Json.asString
  expires : info.expiresAt = claims.exp * second

/-- The token grants control of the robot. -/
def Controls (robotID : String) (claims : CapabilityTokenClaims) : Prop :=
  claims.aud.toJson = some (.str robotID) ∧
    ∃ items, claims.scope.toJson = some (.arr items) ∧ .str scopeControl ∈ items

/-- A member is found as what its value is written as. -/
theorem lookup_membersToJson {members : List (String × Val)}
    (h : (members.map Prod.fst).Nodup) (name : String) :
    (Js.membersToJson members).lookup name = (members.lookup name).bind Val.toJson := by
  induction members with
  | nil => rfl
  | cons member members ih =>
    obtain ⟨key, v⟩ := member
    obtain ⟨hnot, hnodup⟩ := List.nodup_cons.mp h
    have hrest := ih hnodup
    by_cases hname : name = key
    · subst hname
      have habsent : members.lookup name = none := by
        rw [List.lookup_eq_none_iff]
        intro member hmember
        have hne : name ≠ member.1 := fun heq =>
          hnot (List.mem_map.mpr ⟨member, hmember, heq.symm⟩)
        simpa using hne
      rw [habsent] at hrest
      cases hjson : v.toJson with
      | none => simp [Js.membersToJson, hjson, hrest]
      | some json => simp [Js.membersToJson, hjson]
    · have hbeq : (name == key) = false := by simpa using hname
      cases hjson : v.toJson with
      | none => simp [Js.membersToJson, hjson, hrest, List.lookup_cons, hbeq]
      | some json => simp [Js.membersToJson, hjson, hrest, List.lookup_cons, hbeq]

/-- The claims that a robot extracts from a token are what the token says. -/
theorem vouches_of_extractClaims {v : TokenValidator} {claims : CapabilityTokenClaims}
    {sessionID : String} {extracted : TokenClaims}
    (h : v.extractClaims claims.payload sessionID = .ok extracted) :
    Vouches claims (infoOf v.robotID extracted) := by
  have hlookup (name : String) : claims.payload.lookup name = _ :=
    @lookup_membersToJson [("sub", claims.sub), ("aud", claims.aud),
      ("sid", .str claims.sid), ("scope", claims.scope), ("nonce", .str claims.nonce),
      ("iat", .num (.fin claims.iat)), ("exp", .num (.fin claims.exp)),
      ("jti", .str claims.jti)] (by simp) name
  have haud : claims.payload.lookup "aud" = claims.aud.toJson := hlookup "aud"
  have hsid : claims.payload.lookup "sid" = some (.str claims.sid) := hlookup "sid"
  have hsub : claims.payload.lookup "sub" = claims.sub.toJson := hlookup "sub"
  have hscope : claims.payload.lookup "scope" = claims.scope.toJson := hlookup "scope"
  have hexp : claims.payload.lookup "exp" = some (.num (claims.exp : Rat)) := hlookup "exp"
  unfold TokenValidator.extractClaims at h
  split at h
  · cases h
  next haudience =>
    split at h
    · cases h
    next hsession =>
      cases h
      have haudience' := Classical.not_not.mp haudience
      have hsession' := Classical.not_not.mp hsession
      rw [haud] at haudience'
      rw [hsid] at hsession'
      refine ⟨?_, Option.some.inj hsession', ?_, ?_, ?_⟩
      · cases hjson : claims.aud.toJson with
        | none =>
          rw [hjson] at haudience'
          cases haudience'
        | some json =>
          rw [hjson] at haudience'
          cases json with
          | str robotID => exact congrArg (some ∘ Json.str) (Option.some.inj haudience')
          | _ => cases haudience'
      · show TokenValidator.stringClaim claims.payload "sub" = _
        unfold TokenValidator.stringClaim
        rw [hsub]
      · show TokenValidator.extractScope claims.payload = _
        unfold TokenValidator.extractScope
        rw [hscope]
        cases claims.scope.toJson.bind Json.asArray <;> rfl
      · unfold infoOf
        dsimp only
        rw [hexp]
        exact congrArg (· * second) (truncate_intCast claims.exp)

/-- A session with the control scope has a token that grants control. -/
theorem Vouches.controls {claims : CapabilityTokenClaims} {info : Robot.Info}
    (h : Vouches claims info) (hscope : info.scope.contains scopeControl = true) :
    Controls info.robotID claims := by
  refine ⟨h.audience, ?_⟩
  rw [h.scope, List.contains_iff_mem] at hscope
  obtain ⟨json, hjson, hstr⟩ := List.mem_filterMap.mp hscope
  cases harr : claims.scope.toJson.bind Json.asArray with
  | none =>
    rw [harr] at hjson
    cases hjson
  | some items =>
    rw [harr] at hjson
    obtain ⟨scope, hscope, hitems⟩ := Option.bind_eq_some_iff.mp harr
    cases scope with
    | arr items' =>
      cases hitems
      refine ⟨items, hscope, ?_⟩
      cases json with
      | str s =>
        cases hstr
        exact hjson
      | _ => cases hstr
    | _ => cases hitems

/-! ## The contract of a robot's handlers -/

section Contract

variable (ext : External) (key : List UInt8) (robotID : String)

/-- Whatever the parser makes of the text under the gateway's key, it is what
a token says that was handed out. -/
def Genuine (parse : JwtParse) (key : List UInt8) (issued : Set CapabilityTokenClaims)
    (token : String) : Prop :=
  ∀ keyFunc leeway now parsed, keyFunc .ed25519 = .ok key →
    parse token keyFunc leeway now = .ok parsed → ∃ claims ∈ issued, parsed.claims = claims.payload

/-- The info is for this robot, and what a token says that was handed out. -/
def Vouched (issued : Set CapabilityTokenClaims) (info : Robot.Info) : Prop :=
  info.robotID = robotID ∧ ∃ claims ∈ issued, Vouches claims info

/-- A token that grants control of this robot was handed out. -/
def Controlled (issued : Set CapabilityTokenClaims) : Prop :=
  ∃ claims ∈ issued, Controls robotID claims

/-- A robot that goes by the gateway's key and by what is vouched for. -/
structure Trusting (issued : Set CapabilityTokenClaims) (c : Core) : Prop where
  robot : c.sessionMgr.robotID = robotID
  validator : ∀ v, c.sessionMgr.validator = some v → v.publicKey = key ∧ v.robotID = robotID
  cache : c.sessionMgr.CacheAll fun e => Vouched robotID issued (infoOf robotID e.claims)
  session : ∀ info, c.sessionMgr.info = some info → Vouched robotID issued info
  callback : ∀ info, c.transport.onStateChange = some info → Vouched robotID issued info
  motion : ∀ call ∈ c.calls, call.isMotion = true → Controlled robotID issued

/-- What an operation may be performed with. -/
def mayPerform (issued : Set CapabilityTokenClaims) : AgentOp → Prop
  | .validateToken _ token => Genuine ext.parse key issued token
  | .activate info => Vouched robotID issued info
  | .setStateCallback info => Vouched robotID issued info
  | .hasScope scope => scope = scopeControl
  | .robot call => call.isMotion = true → Controlled robotID issued
  | _ => True

/-- What its answer says. -/
def mayRelyOn (issued : Set CapabilityTokenClaims) : (o : AgentOp) → o.Ans → Prop
  | .validateToken _ _, r => ∀ info, r = .ok info → Vouched robotID issued info
  | .stateCallback _, r => ∀ info, r = some info → Vouched robotID issued info
  | .hasScope _, r => r = true → Controlled robotID issued
  | _, _ => True

variable {robotID} {issued issued' : Set CapabilityTokenClaims}

theorem Vouched.mono {info : Robot.Info} (h : Vouched robotID issued info)
    (hle : issued ≤ issued') : Vouched robotID issued' info :=
  ⟨h.1, h.2.imp fun _ hclaims => ⟨hle hclaims.1, hclaims.2⟩⟩

theorem Controlled.mono (h : Controlled robotID issued) (hle : issued ≤ issued') :
    Controlled robotID issued' :=
  h.imp fun _ hclaims => ⟨hle hclaims.1, hclaims.2⟩

variable (robotID)

/-- The contract, in the world of the tokens that were handed out. -/
def contract : Contract AgentOp AgentOp.Ans Agent (Set CapabilityTokenClaims) where
  inv issued a := Trusting key robotID issued a.toCore
  guar := mayPerform ext key robotID
  rely := mayRelyOn robotID
  inv_mono hle h :=
    { robot := h.robot
      validator := h.validator
      cache := fun c hc e he => (h.cache c hc e he).mono hle
      session := fun info hinfo => (h.session info hinfo).mono hle
      callback := fun info hinfo => (h.callback info hinfo).mono hle
      motion := fun call hcall hm => (h.motion call hcall hm).mono hle }
  guar_mono {issued issued' o} hle h := by
    cases o with
    | validateToken sessionID token =>
      intro keyFunc leeway now parsed hkey hparse
      obtain ⟨claims, hclaims, hparsed⟩ := h keyFunc leeway now parsed hkey hparse
      exact ⟨claims, hle hclaims, hparsed⟩
    | activate info => exact h.mono hle
    | setStateCallback info => exact h.mono hle
    | robot call => exact fun hm => (h hm).mono hle
    | _ => exact h

variable {ext key robotID}

/-! ### The operations keep to it -/

/-- Session and transport untouched, and no new motion. -/
theorem Trusting.of_frame {c c' : Core} (h : Trusting key robotID issued c)
    (hsession : c'.sessionMgr = c.sessionMgr) (htransport : c'.transport = c.transport)
    (hcalls : ∀ call ∈ c'.calls, call.isMotion = true → call ∈ c.calls) :
    Trusting key robotID issued c' where
  robot := by rw [hsession]; exact h.robot
  validator := by rw [hsession]; exact h.validator
  cache := by rw [hsession]; exact h.cache
  session := by rw [hsession]; exact h.session
  callback := by rw [htransport]; exact h.callback
  motion call hcall hm := h.motion call (hcalls call hcall hm) hm

theorem Trusting.of_trigger {c c' : Core} (h : Trusting key robotID issued c)
    (hframe : c'.sessionMgr = c.sessionMgr ∧ c'.transport = c.transport)
    (hcalls : c'.calls = c.calls ∨ c'.calls = .eStop :: c.calls) :
    Trusting key robotID issued c' := by
  refine h.of_frame hframe.1 hframe.2 fun call hcall hm => ?_
  rcases hcalls with heq | heq
  · rwa [heq] at hcall
  · rw [heq] at hcall
    rcases List.mem_cons.mp hcall with rfl | hold
    · cases hm
    · exact hold

theorem calls_of_latch {c c' : Core} (h : c.Latch c') :
    c'.calls = c.calls ∨ c'.calls = .eStop :: c.calls := by
  cases h with
  | swallowed => exact .inl rfl
  | stop => exact .inr rfl

theorem calls_of_count {c c' : Core} (h : c.Count c') :
    c'.calls = c.calls ∨ c'.calls = .eStop :: c.calls := by
  cases h with
  | counted => exact .inl rfl
  | stop => exact .inr rfl

theorem calls_of_check {c c' : Core} (h : c.Check c') :
    c'.calls = c.calls ∨ c'.calls = .eStop :: c.calls := by
  cases h with
  | fine => exact .inl rfl
  | stop => exact .inr rfl

/-- A session manager that is all the operation has touched. -/
theorem Trusting.of_manager {a : Agent} (h : Trusting key robotID issued a.toCore)
    {m : Robot.Manager} (hrobot : m.robotID = a.sessionMgr.robotID)
    (hvalidator : m.validator = a.sessionMgr.validator)
    (hcache : m.CacheAll fun e => Vouched robotID issued (infoOf robotID e.claims))
    (hsession : ∀ info, m.info = some info → Vouched robotID issued info) :
    Trusting key robotID issued { a with sessionMgr := m }.toCore where
  robot := hrobot.trans h.robot
  validator v hv := h.validator v (hvalidator.symm.trans hv)
  cache := hcache
  session := hsession
  callback := h.callback
  motion := h.motion

/-- A genuine token that the validator accepts is vouched for. -/
theorem vouched_of_validate {v : TokenValidator} {now : Time} {sessionID token : String}
    {claims : TokenClaims} (hkey : v.publicKey = key) (hrobot : v.robotID = robotID)
    (hgenuine : Genuine ext.parse key issued token)
    (h : v.validate ext.parse now token sessionID = .ok claims) :
    Vouched robotID issued (infoOf robotID claims) := by
  unfold TokenValidator.validate at h
  split at h
  · cases h
  · split at h
    · cases h
    next parsed hparse =>
      split at h
      · cases h
      · obtain ⟨signed, hsigned, hclaims⟩ := hgenuine v.keyFunc _ _ parsed
          (congrArg Except.ok hkey) hparse
        rw [hclaims] at h
        have hvouches := vouches_of_extractClaims h
        rw [hrobot] at hvouches
        exact ⟨rfl, signed, hsigned, hvouches⟩

/-- Validating a genuine token: what is accepted is vouched for, whether it
comes from the cache or not, and so is what the cache then holds. -/
theorem Trusting.validateToken {a : Agent} (h : Trusting key robotID issued a.toCore)
    {sessionID token : String} (hgenuine : Genuine ext.parse key issued token) :
    (∀ info, (a.sessionMgr.validateToken ext.parse a.now sessionID token).1 = .ok info →
      Vouched robotID issued info) ∧
    (a.sessionMgr.validateToken ext.parse a.now sessionID token).2.CacheAll
      fun e => Vouched robotID issued (infoOf robotID e.claims) := by
  have hvalid (v : TokenValidator) (claims : TokenClaims) (hv : a.sessionMgr.validator = some v)
      (hok : v.validate ext.parse a.now token sessionID = .ok claims) :
      Vouched robotID issued (infoOf robotID claims) :=
    vouched_of_validate (h.validator v hv).1 (h.validator v hv).2 hgenuine hok
  refine ⟨fun info hinfo => ?_, Robot.Manager.CacheAll.validateToken h.cache hvalid⟩
  have hinfoOf (claims : TokenClaims) :
      a.sessionMgr.claimsToInfo claims = infoOf robotID claims := by
    rw [← h.robot]
    rfl
  unfold Robot.Manager.validateToken at hinfo
  split at hinfo
  · cases hinfo
  · split at hinfo
    · cases hinfo
    next v hv =>
      split at hinfo
      next cached hcached =>
        cases hinfo
        obtain ⟨c, hc, hget⟩ := Option.bind_eq_some_iff.mp hcached
        obtain ⟨e, he, -, -, rfl⟩ := Robot.TokenCache.mem_of_get hget
        rw [hinfoOf]
        exact h.cache c hc e he
      · split at hinfo
        · cases hinfo
        next claims hclaims =>
          cases hinfo
          rw [hinfoOf]
          exact hvalid v claims hv hclaims

theorem contract_sound (ext : External) (key : List UInt8) (robotID : String) :
    (contract ext key robotID).Sound (Robot.sem ext) := by
  intro issued o a hinv hguar
  have h : Trusting key robotID issued a.toCore := hinv
  cases o with
  | validateToken sessionID token =>
    obtain ⟨hinfo, hcache⟩ := h.validateToken hguar
    obtain ⟨hvalidator, hrobot⟩ := a.sessionMgr.validateToken_same ext.parse a.now sessionID token
    refine ⟨hinfo, h.of_manager hrobot hvalidator hcache fun info hinfo => ?_⟩
    rw [(a.sessionMgr.validateToken_frame ext.parse a.now sessionID token).2] at hinfo
    exact h.session info hinfo
  | activate info =>
    obtain ⟨hvalidator, hrobot⟩ := a.sessionMgr.activate_same info
    refine ⟨trivial, h.of_manager hrobot hvalidator (Robot.Manager.CacheAll.activate h.cache info)
      fun info' hinfo => ?_⟩
    rcases a.sessionMgr.activate_cases info with ⟨-, -, -, hnew⟩ | ⟨-, -, hsame⟩
    · rw [hnew] at hinfo
      rw [← Option.some.inj hinfo]
      exact hguar
    · rw [hsame] at hinfo
      exact h.session info' hinfo
  | terminate =>
    obtain ⟨hvalidator, hrobot⟩ := a.sessionMgr.terminate_same
    refine ⟨trivial, h.of_manager hrobot hvalidator (Robot.Manager.CacheAll.terminate h.cache)
      fun info hinfo => ?_⟩
    -- a terminated session has no info
    have hlive := a.sessionMgr.terminate.live.mp (by rw [hinfo]; rfl)
    rw [a.sessionMgr.terminate_state] at hlive
    cases hlive
  | hasScope scope =>
    obtain rfl : scope = scopeControl := hguar
    refine ⟨fun hgranted => ?_, hinv⟩
    have hscope : a.sessionMgr.hasScope scopeControl = true := hgranted
    unfold Robot.Manager.hasScope at hscope
    split at hscope
    · cases hscope
    next info hinfo =>
      obtain ⟨hrobot, claims, hclaims, hvouches⟩ := h.session info hinfo
      rw [← hrobot]
      exact ⟨claims, hclaims, hvouches.controls hscope⟩
  | robot call =>
    refine ⟨trivial, { h with motion := fun call' hcall hm => ?_ }⟩
    rcases List.mem_cons.mp hcall with rfl | hold
    · exact hguar hm
    · exact h.motion call' hold hm
  | setStateCallback info =>
    refine ⟨trivial, { h with callback := fun info' hinfo => ?_ }⟩
    rw [← Option.some.inj hinfo]
    exact hguar
  | stateCallback conn =>
    refine ⟨fun info hinfo => h.callback info ?_, hinv⟩
    have hread : a.transport.stateCallback conn = some info := hinfo
    unfold Robot.Transport.stateCallback at hread
    split at hread
    · exact hread
    · cases hread
  | onInvalidCommand =>
    have hcount := a.invalidCommand_count ext
    exact ⟨trivial, h.of_trigger hcount.frame (calls_of_count hcount)⟩
  | onEStop =>
    have hlatch := a.nonRecoverable_latch ext .eStop
    exact ⟨trivial, h.of_trigger hlatch.frame (calls_of_latch hlatch)⟩
  | onTokenExpired =>
    have hlatch := a.nonRecoverable_latch ext .tokenExpired
    exact ⟨trivial, h.of_trigger hlatch.frame (calls_of_latch hlatch)⟩
  | onRevoked =>
    have hlatch := a.nonRecoverable_latch ext .revoked
    exact ⟨trivial, h.of_trigger hlatch.frame (calls_of_latch hlatch)⟩
  | checkControlLoss =>
    have hcheck := a.checkControlLoss_check ext
    exact ⟨trivial, h.of_trigger hcheck.frame (calls_of_check hcheck)⟩
  | sendData msg =>
    refine ⟨trivial, ?_⟩
    show Trusting key robotID issued (a.sendData msg).toCore
    rw [Agent.sendData_core]
    exact h
  | createPeerConnection outcome =>
    refine ⟨trivial, { h with callback := fun info hinfo => h.callback info ?_ }⟩
    cases outcome <;> exact hinfo
  | openChannel conn =>
    refine ⟨trivial, { h with callback := fun info hinfo => h.callback info ?_ }⟩
    exact (a.transport.openChannel_onStateChange conn).symm.trans hinfo
  | closeTransport =>
    refine ⟨trivial, { h with callback := fun info hinfo => h.callback info ?_ }⟩
    exact a.transport.close_onStateChange.symm.trans hinfo
  | _ => exact ⟨trivial, { h with }⟩

/-! ### The handlers keep to it -/

section Handlers

open Robot (Handler)
open Prog (Keeps keeps_op keeps_ret perform_bind)

theorem keeps_perform {o : AgentOp} (hguar : mayPerform ext key robotID issued o) :
    Keeps (contract ext key robotID) (Robot.perform o) issued :=
  ⟨hguar, fun _ _ _ _ => trivial⟩

/-- A motion follows a scope check that was granted. -/
theorem handleMotion_keeps (validate : Time → Option Robot.ValidationError)
    (call : Robot.RobotCall) :
    Keeps (contract ext key robotID) (Handler.wired.handleMotion validate call) issued := by
  simp only [Handler.handleMotion, Handler.hasScope, Handler.wired, if_true, perform_bind]
  refine ⟨rfl, fun issued₁ _ granted hgranted => ?_⟩
  cases granted with
  | false => trivial
  | true =>
    have hcontrolled : Controlled robotID issued₁ := hgranted rfl
    refine ⟨trivial, fun issued₂ hle₂ now _ => ?_⟩
    dsimp only
    cases validate now with
    | some err => exact ⟨trivial, fun _ _ _ _ => trivial⟩
    | none =>
      refine ⟨fun _ => hcontrolled.mono hle₂, fun issued₃ _ r _ => ?_⟩
      cases r with
      | error err => trivial
      | ok _ => exact ⟨trivial, fun _ _ _ _ => trivial⟩

theorem dispatch_keeps {M : Type} (type : MessageType) (msg : Option M) (t : M → Int)
    {handle : M → AgentProg (Except Robot.HandlerError Unit)}
    (h : ∀ m issued', Keeps (contract ext key robotID) (handle m) issued') :
    Keeps (contract ext key robotID) (Handler.wired.dispatch type msg t handle) issued := by
  cases msg with
  | none => exact ⟨trivial, fun _ _ _ _ => trivial⟩
  | some m =>
    refine (h m issued).bind fun issued' _ r => ?_
    cases r <;> trivial

theorem handleEStop_keeps (msg : Robot.EStopMessage) :
    Keeps (contract ext key robotID) (Handler.wired.handleEStop msg) issued := by
  simp only [Handler.handleEStop, Robot.Validator.validateEStop, Handler.wired, if_true,
    perform_bind]
  refine ⟨trivial, fun _ _ _ _ => ⟨fun hm => absurd hm Bool.false_ne_true, fun _ _ r _ => ?_⟩⟩
  cases r <;> trivial

theorem handleMessage_keeps (decode : Robot.Decoder) (data : Bytes) :
    Keeps (contract ext key robotID) (Handler.wired.handleMessage decode data) issued := by
  unfold Handler.handleMessage
  cases decode.base data with
  | none => exact ⟨trivial, fun _ _ _ _ => trivial⟩
  | some type =>
    refine ⟨trivial, fun issued' _ active _ => ?_⟩
    cases active with
    | false => trivial
    | true =>
      cases type with
      | drive => exact dispatch_keeps _ _ _ fun m _ => handleMotion_keeps _ _
      | kvmKey => exact dispatch_keeps _ _ _ fun m _ => handleMotion_keeps _ _
      | kvmMouse => exact dispatch_keeps _ _ _ fun m _ => handleMotion_keeps _ _
      | eStop => exact dispatch_keeps _ _ _ fun m _ => handleEStop_keeps m
      | _ => exact ⟨trivial, fun _ _ _ _ => trivial⟩

theorem onDataMessage_keeps (data : Bytes) :
    Keeps (contract ext key robotID) (Robot.onDataMessage ext data) issued := by
  unfold Robot.onDataMessage
  split
  · cases ext.decode.pong data with
    | none => trivial
    | some pong => exact keeps_perform trivial
  · refine (handleMessage_keeps ext.decode data).bind fun issued' _ r => ?_
    split
    · exact keeps_perform trivial
    · trivial

/-- Only what an offer's own token says is activated later. -/
theorem onOffer_keeps {sessionID token : String} (hgenuine : Genuine ext.parse key issued token)
    (sdpData : Bytes) (create : Except String Unit) (negotiate : Bytes → Except String Bytes) :
    Keeps (contract ext key robotID)
      (Robot.onOffer sessionID token sdpData create negotiate) issued := by
  simp only [Robot.onOffer, perform_bind]
  refine ⟨hgenuine, fun issued₁ _ r hr => ?_⟩
  cases r with
  | error err => trivial
  | ok info =>
    have hinfo : Vouched robotID issued₁ info := hr info rfl
    refine ⟨trivial, fun issued₂ hle₂ r _ => ?_⟩
    cases r with
    | error err => trivial
    | ok _ =>
      refine ⟨trivial, fun issued₃ hle₃ _ _ => ⟨trivial, fun issued₄ hle₄ _ _ => ?_⟩⟩
      refine ⟨hinfo.mono ((hle₂.trans hle₃).trans hle₄), fun _ _ _ _ => ⟨trivial,
        fun _ _ r _ => ?_⟩⟩
      cases r with
      | error err => trivial
      | ok answer => exact keeps_perform trivial

theorem onStateChange_keeps {info : Robot.Info} (hinfo : Vouched robotID issued info)
    (state : Robot.PeerConnectionState) :
    Keeps (contract ext key robotID) (Robot.onStateChange info state) issued := by
  cases state with
  | connected =>
    simp only [Robot.onStateChange, perform_bind]
    refine ⟨hinfo, fun _ _ r _ => ?_⟩
    cases r with
    | error err => trivial
    | ok _ => exact keeps_perform trivial
  | failed => exact keeps_perform trivial
  | closed => exact keeps_perform trivial
  | _ => trivial

/-- Every handler keeps to the contract; an offer has to bring a genuine
token. -/
theorem code_keeps {t : Task} (hoffer : ∀ sessionID token sdpData create negotiate,
    t = .offer sessionID token sdpData create negotiate → Genuine ext.parse key issued token) :
    Keeps (contract ext key robotID) (t.code ext) issued := by
  cases t with
  | offer sessionID token sdpData create negotiate =>
    exact onOffer_keeps (hoffer _ _ _ _ _ rfl) sdpData create negotiate
  | connState conn state =>
    refine ⟨trivial, fun issued' _ r hr => ?_⟩
    cases r with
    | none => trivial
    | some info => exact onStateChange_keeps (hr info rfl) state
  | message ch data =>
    refine ⟨trivial, fun issued' _ r _ => ?_⟩
    cases r with
    | false => trivial
    | true => exact onDataMessage_keeps data
  | iceCandidate candidate =>
    refine ⟨trivial, fun issued' _ r _ => ?_⟩
    cases r with
    | none => trivial
    | some sessionID => exact keeps_perform trivial
  | tick =>
    refine ⟨trivial, fun issued' _ r _ => ?_⟩
    cases r with
    | false => trivial
    | true => exact keeps_perform trivial
  | bye sessionID => exact keeps_perform trivial
  | dataChannel conn => exact keeps_perform trivial
  | tokenExpired => exact keeps_perform trivial
  | shutdown => exact ⟨trivial, fun _ _ _ _ => keeps_perform trivial⟩
  | revoked sessionID reason =>
    -- nine operations, none of which needs anything
    simp only [Task.code, Robot.onRevoked, perform_bind]
    exact ⟨trivial, fun _ _ _ _ => ⟨trivial, fun _ _ _ _ => ⟨trivial, fun _ _ _ _ => ⟨trivial,
      fun _ _ _ _ => ⟨trivial, fun _ _ _ _ => ⟨trivial, fun _ _ _ _ => ⟨trivial,
      fun _ _ _ _ => ⟨trivial, fun _ _ _ _ => keeps_perform trivial⟩⟩⟩⟩⟩⟩⟩⟩

end Handlers

end Contract

/-! ## The network and the tokens it has handed out -/

/-- The claims of the token that an event hands out. A gateway that has ended
hands out nothing. -/
def Network.issues (n : Network) : NetworkEvent → Option CapabilityTokenClaims
  | .gateway (.http e) =>
    if n.server.signaling.up then Gateway.issues n.server.http e else none
  | _ => none

/-- The network, and the claims of the tokens that were handed out, newest
first. -/
structure Record where
  network : Network
  issued : List CapabilityTokenClaims

namespace Record

def start (now : Int) (cache : Option RevocationCache) : Record := ⟨.start now cache, []⟩

/-- One event, with what it adds to the record. -/
def step (w : Setting) (r : Record) (e : NetworkEvent) : Record where
  network := r.network.step w e
  issued := (r.network.issues e).toList ++ r.issued

/-- The tokens that were handed out. -/
def world (r : Record) : Set CapabilityTokenClaims := {claims | claims ∈ r.issued}

theorem world_step (w : Setting) (r : Record) (e : NetworkEvent) :
    r.world ≤ (r.step w e).world := fun _ hclaims => List.mem_append_right _ hclaims

end Record

/-- A robot that starts goes by the gateway's key and its own name, and an
offer that a robot takes has a genuine token. -/
structure Unforged (w : Setting) (key : List UInt8) (r : Record) (e : NetworkEvent) : Prop where
  boot : ∀ peerId now cfg v, e = .boot peerId now cfg (some v) →
    v.publicKey = key ∧ v.robotID = cfg.robotID
  offer : ∀ peerId create negotiate l message sessionID token sdp,
    e = .read peerId create negotiate → r.network.robots.get peerId = some l →
    (r.network.inbox peerId)[l.taken]? = some message →
    receive message.json = some (.onOffer sessionID token sdp) →
    Genuine (w.ext peerId).parse key r.world token

theorem unforged_gateway (w : Setting) (key : List UInt8) (r : Record)
    (e : Gateway.ServerEvent) : Unforged w key r (.gateway e) :=
  ⟨fun _ _ _ _ he => (nomatch he), fun _ _ _ _ _ _ _ _ he => (nomatch he)⟩

/-- What holds of every robot and of the gateway. -/
structure Record.Holds (w : Setting) (key : List UInt8) (r : Record) : Prop where
  gateway : r.network.server.http.Approves w.process.deployment
  issued : ∀ claims ∈ r.issued,
    claims.Approved w.process.deployment r.network.server.http.now
  robots : ∀ peerId l, r.network.robots.get peerId = some l →
    ∃ robotID, l.agent.Keeps (contract (w.ext peerId) key robotID) r.world

/-! ### Robots -/

/-- What an event can do to a robot. -/
theorem Network.robot_step {w : Setting} {n : Network} {e : NetworkEvent} {peerId : String}
    {l' : Link} (h : (n.step w e).robots.get peerId = some l') :
    n.robots.get peerId = some l' ∨
    (∃ now cfg v, e = .boot peerId now cfg v ∧ l'.agent = ⟨.init now cfg v, []⟩) ∨
    (∃ create negotiate l, e = .read peerId create negotiate ∧ n.robots.get peerId = some l ∧
      l' = l.read (w.ext peerId) w.text (n.inbox peerId) create negotiate) ∨
    ∃ m l, ofReadLoop m = false ∧ n.robots.get peerId = some l ∧
      l'.agent = Agent.poolStep (w.ext peerId) l.agent m := by
  have hupdate {peerId' : String} {f : Link → Link}
      (hget : (n.robots.update peerId' f).get peerId = some l') :
      n.robots.get peerId = some l' ∨
        peerId = peerId' ∧ ∃ l, n.robots.get peerId = some l ∧ l' = f l := by
    rw [OrdMap.get_update] at hget
    split at hget
    next hpeer =>
      obtain ⟨l, hl, hf⟩ := Option.map_eq_some_iff.mp hget
      exact .inr ⟨hpeer, l, hl, hf.symm⟩
    · exact .inl hget
  cases e with
  | gateway e => exact .inl h
  | boot peerId' now cfg v =>
    simp only [Network.step] at h
    split at h
    · exact .inl h
    · have hset : (n.robots.set peerId'
          ⟨⟨.init now cfg v, []⟩, (n.inbox peerId').length, none⟩).get peerId = some l' := h
      rcases OrdMap.get_set_eq_some_iff.mp hset with ⟨rfl, rfl⟩ | ⟨-, hold⟩
      · exact .inr (.inl ⟨now, cfg, v, rfl, rfl⟩)
      · exact .inl hold
  | read peerId' create negotiate =>
    rcases hupdate h with hold | ⟨rfl, l, hl, hread⟩
    · exact .inl hold
    · exact .inr (.inr (.inl ⟨create, negotiate, l, rfl, hl, hread⟩))
  | robot peerId' m =>
    simp only [Network.step] at h
    split at h
    · exact .inl h
    next hm =>
      rcases hupdate h with hold | ⟨rfl, l, hl, rfl⟩
      · exact .inl hold
      · exact .inr (.inr (.inr ⟨m, l, Bool.eq_false_iff.mpr hm, hl, rfl⟩))

/-- One round of the read loop starts a handler at most. -/
theorem Link.agent_read (ext : External) (text : Val → Bytes) (inbox : List ServerMessage)
    (create : Except String Unit) (negotiate : Bytes → Except String Bytes) (l : Link) :
    (l.read ext text inbox create negotiate).agent = l.agent ∨
      ∃ message call t, inbox[l.taken]? = some message ∧ receive message.json = some call ∧
        signalTask text create negotiate call = some t ∧
        (l.read ext text inbox create negotiate).agent = Agent.poolStep ext l.agent (.spawn t) := by
  unfold Link.read
  split
  · exact .inl rfl
  · split
    · exact .inl rfl
    next message hmessage =>
      split
      · exact .inl rfl
      next t ht =>
        obtain ⟨call, hcall, htask⟩ := Option.bind_eq_some_iff.mp ht
        exact .inr ⟨message, call, t, hmessage, hcall, htask, rfl⟩

/-- A robot that has just started trusts nobody yet. -/
theorem trusting_init {key : List UInt8} {cfg : Agent.Config} {v : Option TokenValidator}
    (hv : ∀ v', v = some v' → v'.publicKey = key ∧ v'.robotID = cfg.robotID) (now : Time)
    (issued : Set CapabilityTokenClaims) :
    Trusting key cfg.robotID issued (Agent.init now cfg v).toCore where
  robot := rfl
  validator := hv
  cache := Robot.Manager.new_cacheAll cfg.robotID v _
  session _ hinfo := nomatch hinfo
  callback _ hinfo := nomatch hinfo
  motion _ hcall := nomatch hcall

theorem Record.Holds.robot_step {w : Setting} {key : List UInt8} {r : Record} (h : r.Holds w key)
    {e : NetworkEvent} (hunforged : Unforged w key r e) {peerId : String} {l' : Link}
    (hl' : (r.step w e).network.robots.get peerId = some l') :
    ∃ robotID, l'.agent.Keeps (contract (w.ext peerId) key robotID) (r.step w e).world := by
  have helapse {robotID : String} (d : Nat) (a : Agent)
      (ha : (contract (w.ext peerId) key robotID).inv r.world a) :
      (contract (w.ext peerId) key robotID).inv r.world (a.elapse d) :=
    Trusting.of_frame ha rfl rfl fun _ hcall _ => hcall
  rcases Network.robot_step hl' with hold | ⟨now, cfg, v, rfl, hagent⟩ |
    ⟨create, negotiate, l, rfl, hl, rfl⟩ | ⟨m, l, hm, hl, hagent⟩
  · obtain ⟨robotID, hkeeps⟩ := h.robots peerId l' hold
    exact ⟨robotID, hkeeps.mono (r.world_step w e)⟩
  · refine ⟨cfg.robotID, ?_⟩
    rw [hagent]
    refine ⟨trusting_init (fun v' hv => ?_) now _, fun th hth => nomatch hth⟩
    subst hv
    exact hunforged.boot peerId now cfg v' rfl
  · obtain ⟨robotID, hkeeps⟩ := h.robots peerId l hl
    refine ⟨robotID, Pool.Keeps.mono ?_ (r.world_step w _)⟩
    rcases l.agent_read (w.ext peerId) w.text (r.network.inbox peerId) create negotiate with
      hsame | ⟨message, call, t, hmessage, hcall, htask, hspawn⟩
    · rw [hsame]
      exact hkeeps
    · rw [hspawn]
      refine hkeeps.step (contract_sound _ key robotID) (fun t' ht' => ?_) helapse
      obtain rfl : t = t' := Move.spawn.inj ht'
      refine code_keeps fun sessionID token sdpData create' negotiate' ht => ?_
      -- an offer is the answer to a message with this token
      subst ht
      cases call with
      | onOffer sessionID' token' sdp =>
        cases htask
        exact hunforged.offer peerId create negotiate l message sessionID token sdp rfl hl
          hmessage hcall
      | _ => cases htask
  · obtain ⟨robotID, hkeeps⟩ := h.robots peerId l hl
    refine ⟨robotID, Pool.Keeps.mono ?_ (r.world_step w e)⟩
    rw [hagent]
    refine hkeeps.step (contract_sound _ key robotID) (fun t ht => ?_) helapse
    subst ht
    -- handlers of offers are started by the read loop only
    refine code_keeps fun sessionID token sdpData create negotiate ht => ?_
    subst ht
    cases hm

/-! ### The gateway -/

/-- The routes see an event of the network as one of theirs, or not at all. -/
theorem Network.http_step (w : Setting) (n : Network) (e : NetworkEvent) :
    (∃ e', e = .gateway (.http e') ∧ n.server.signaling.up = true ∧
      (n.step w e).server.http = Gateway.step w.process.deployment n.server.http e') ∨
    (n.issues e = none ∧ (n.step w e).server.http.now = n.server.http.now ∧
      (n.step w e).server.http.sessions = n.server.http.sessions ∧
      (n.step w e).server.http.pending = n.server.http.pending) := by
  cases e with
  | gateway e =>
    by_cases hup : n.server.signaling.up = true
    · cases e with
      | http e =>
        refine .inl ⟨e, rfl, hup, ?_⟩
        simp [Network.step, Gateway.Server.step, hup]
      | _ => exact .inr (by simp [Network.step, Gateway.Server.step, hup, Network.issues])
    · have hsame := Gateway.Server.step_of_down (p := w.process) (Bool.eq_false_iff.mpr hup) e
      have hhttp : (n.step w (.gateway e)).server.http = n.server.http :=
        congrArg Gateway.Server.http hsame
      refine .inr ⟨?_, by rw [hhttp], by rw [hhttp], by rw [hhttp]⟩
      cases e with
      | http e => exact if_neg hup
      | _ => rfl
  | boot peerId now cfg v =>
    simp only [Network.step]
    split <;> exact .inr ⟨rfl, rfl, rfl, rfl⟩
  | read peerId create negotiate => exact .inr ⟨rfl, rfl, rfl, rfl⟩
  | robot peerId m =>
    simp only [Network.step]
    split <;> exact .inr ⟨rfl, rfl, rfl, rfl⟩

theorem now_le_step (d : Gateway.Deployment) (s : Gateway.State) (e : Gateway.Event) :
    s.now ≤ (Gateway.step d s e).now := by
  cases e with
  | create hostname body sid uuids =>
    rw [Gateway.step_create]
    split <;> exact le_refl _
  | refresh sid authorization uuids =>
    rw [Gateway.step_refresh]
    cases Gateway.startRefresh d s sid authorization uuids with
    | mk started registry => cases started <;> exact le_refl _
  | settle i ok =>
    unfold Gateway.step Gateway.handle
    dsimp only
    cases s.pending[i]? with
    | none => exact le_refl _
    | some p => cases ok <;> cases p <;> exact le_refl _
  | delete sid =>
    show s.now ≤ (Gateway.deleteSession d s sid).2.now
    unfold Gateway.deleteSession
    split <;> exact le_refl _
  | revoke adminKey body revocationId =>
    rw [Gateway.step_revoke, Gateway.now_createRevocation]
  | cleanup => exact le_refl _
  | elapse ms =>
    show s.now ≤ s.now + ms
    omega

theorem Record.Holds.step {w : Setting} {key : List UInt8} {r : Record} {e : NetworkEvent}
    (h : r.Holds w key) (hunforged : Unforged w key r e) : (r.step w e).Holds w key := by
  have hrobots (peerId : String) (l' : Link)
      (hl' : (r.step w e).network.robots.get peerId = some l') := h.robot_step hunforged hl'
  rcases r.network.http_step w e with ⟨e', rfl, hup, hhttp⟩ | ⟨hissues, hnow, hsessions, hpending⟩
  · have hhttp' : (r.step w (.gateway (.http e'))).network.server.http =
        Gateway.step w.process.deployment r.network.server.http e' := hhttp
    have hlater := now_le_step w.process.deployment r.network.server.http e'
    refine ⟨?_, fun claims hclaims => ?_, hrobots⟩
    · rw [hhttp']
      exact h.gateway.step e'
    · rw [hhttp']
      refine Gateway.Approved.mono ?_ hlater
      rcases List.mem_append.mp hclaims with hnew | hold
      · refine h.gateway.issues (e := e') ?_
        have hissues : r.network.issues (.gateway (.http e')) =
            Gateway.issues r.network.server.http e' := if_pos hup
        rw [← hissues]
        simpa using hnew
      · exact h.issued claims hold
  · have hissued : (r.step w e).issued = r.issued := by
      show (r.network.issues e).toList ++ r.issued = r.issued
      rw [hissues]
      rfl
    refine ⟨⟨?_, ?_, ?_⟩, ?_, hrobots⟩
    · show Gateway.SessionsApproved _ (r.network.step w e).server.http.now
        (r.network.step w e).server.http.sessions
      rw [hnow, hsessions]
      exact h.gateway.sessions
    · show ∀ p ∈ (r.network.step w e).server.http.pending,
        p.claims.Approved _ (r.network.step w e).server.http.now
      rw [hnow, hpending]
      exact h.gateway.pending
    · show ∀ call, .create call ∈ (r.network.step w e).server.http.pending → _
      rw [hpending]
      exact h.gateway.creates
    · show ∀ claims ∈ (r.step w e).issued,
        claims.Approved _ (r.network.step w e).server.http.now
      rw [hissued, hnow]
      exact h.issued

theorem Record.Holds.start (w : Setting) (key : List UInt8) (now : Int)
    (cache : Option RevocationCache) : (Record.start now cache).Holds w key :=
  ⟨.start _ now cache, fun _ hclaims => (nomatch hclaims), fun _ _ hl => (nomatch hl)⟩

/-! ## Authority -/

/-- A token was handed out to a request that the policy let pass. -/
def Record.Granted (w : Setting) (r : Record) (claims : CapabilityTokenClaims) : Prop :=
  claims ∈ r.issued ∧ claims.Approved w.process.deployment r.network.server.http.now

/-- A session that is active at a robot is that of a token handed out for this
robot, and a motion has reached a robot only if a token was handed out that
grants control of it. -/
structure Record.Authorised (w : Setting) (r : Record) : Prop where
  session : ∀ peerId l info, r.network.robots.get peerId = some l →
    l.agent.shared.sessionMgr.info = some info →
      ∃ claims, r.Granted w claims ∧ Vouches claims info
  motion : ∀ peerId l call, r.network.robots.get peerId = some l →
    call ∈ l.agent.shared.calls → call.isMotion = true →
      ∃ claims, r.Granted w claims ∧ Controls l.agent.shared.sessionMgr.robotID claims

theorem Record.Holds.authorised {w : Setting} {key : List UInt8} {r : Record}
    (h : r.Holds w key) : r.Authorised w := by
  constructor
  · intro peerId l info hl hinfo
    obtain ⟨robotID, hkeeps⟩ := h.robots peerId l hl
    obtain ⟨-, claims, hclaims, hvouches⟩ := hkeeps.shared.session info hinfo
    exact ⟨claims, ⟨hclaims, h.issued claims hclaims⟩, hvouches⟩
  · intro peerId l call hl hcall hm
    obtain ⟨robotID, hkeeps⟩ := h.robots peerId l hl
    obtain ⟨claims, hclaims, hcontrols⟩ := hkeeps.shared.motion call hcall hm
    refine ⟨claims, ⟨hclaims, h.issued claims hclaims⟩, ?_⟩
    rw [hkeeps.shared.robot]
    exact hcontrols

namespace Sample

/-- The operator has asked for a session. -/
theorem record_create :
    (Record.start Gateway.Sample.now (some (.new 100000))).step setting
      (.gateway (.http Gateway.Sample.create)) =
        ⟨⟨⟨Gateway.Sample.requested, .start⟩, OrdMap.empty⟩, []⟩ := by
  have hcreate : Gateway.step gateway Gateway.Sample.start Gateway.Sample.create =
      Gateway.Sample.requested := by
    rw [Gateway.Sample.create, Gateway.step_create]
    have hstart := Gateway.Sample.startCreate_with decodePart (fun _ => "h.p.s") _ _ (.inl rfl)
      Gateway.Sample.evaluation_teleop
    unfold gateway
    rw [hstart]
    rfl
  show (⟨⟨⟨Gateway.step gateway Gateway.Sample.start Gateway.Sample.create, Gateway.Server.notify
    setting.process .start (Gateway.Server.notifications Gateway.Sample.start (Gateway.step gateway
      Gateway.Sample.start Gateway.Sample.create))⟩, OrdMap.empty⟩, []⟩ : Record) = _
  rw [hcreate]
  rfl

/-- The token is handed out. -/
theorem issued_settle :
    sessionClaims ∈ (Record.step setting
      ⟨⟨⟨Gateway.Sample.requested, .start⟩, OrdMap.empty⟩, []⟩
      (.gateway (.http (.settle 0 true)))).issued :=
  List.mem_cons_self

/-- The one token that parses has been handed out. -/
theorem genuine_of_issued {r : Record} (h : sessionClaims ∈ r.issued) (token : String) :
    Genuine parse Robot.Sample.publicKey r.world token := by
  intro keyFunc leeway now parsed hkey hparse
  refine ⟨sessionClaims, h, ?_⟩
  unfold parse at hparse
  rw [hkey] at hparse
  dsimp only at hparse
  split at hparse
  · cases hparse
  · split at hparse
    · cases hparse
      rfl
    · cases hparse

/-- From then on nothing is forged, if the robots that start are ours. -/
theorem steps_unforged :
    ∀ (es : List NetworkEvent) (r : Record), sessionClaims ∈ r.issued →
      (∀ peerId now cfg v, .boot peerId now cfg (some v) ∈ es →
        v.publicKey = Robot.Sample.publicKey ∧ v.robotID = cfg.robotID) →
      Steps (Record.step setting) (Unforged setting Robot.Sample.publicKey) r es := by
  intro es
  induction es with
  | nil => exact fun _ _ _ => trivial
  | cons e es ih =>
    intro r hissued hboot
    refine ⟨⟨fun peerId now cfg v he => ?_, fun _ _ _ _ _ _ token _ _ _ _ _ => ?_⟩,
      ih _ ?_ ?_⟩
    · exact hboot peerId now cfg v (by rw [← he]; exact List.mem_cons_self)
    · exact genuine_of_issued hissued token
    · exact List.mem_append_right _ hissued
    · exact fun peerId now cfg v hmem => hboot peerId now cfg v (List.mem_cons_of_mem _ hmem)

/-- The operator is handed a token, and the robot becomes active on it. -/
def session : List NetworkEvent :=
  .gateway (.http Gateway.Sample.create) :: .gateway (.http (.settle 0 true)) ::
    (offering ++ connecting ++ [activate])

theorem session_unforged :
    Steps (Record.step setting) (Unforged setting Robot.Sample.publicKey)
      (.start Gateway.Sample.now (some (.new 100000))) session := by
  refine ⟨unforged_gateway _ _ _ _, ?_⟩
  rw [record_create]
  refine ⟨unforged_gateway _ _ _ _, steps_unforged _ _ issued_settle ?_⟩
  intro peerId now cfg v hmem
  simp only [offering, connecting, message, read, activate, List.mem_append, List.mem_cons,
    List.mem_replicate, reduceCtorEq, List.not_mem_nil, and_false, or_false,
    NetworkEvent.boot.injEq] at hmem
  obtain ⟨-, -, rfl, hv⟩ := hmem
  cases hv
  exact ⟨rfl, rfl⟩

end Sample

end ChainKVM.System
