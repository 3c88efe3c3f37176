import ChainKVM.System.Authority

/-!
# A robot that asks for another key

The development key manager publishes its key under the id `dev-key-1`, and so
does the fallback of the route; the agent looks for `gateway-signing-key`. A
look-up that misses fetches the key set again and then gives up, so an agent
that starts against such a gateway has no validator, whether a fetch fails or
not. `untouched_of_dev_key` follows this through the network: in every run,
whatever is offered to the robots, and whether it is signed by the gateway or
not, no session is ever active and no motion reaches a robot.

Without a validator the parser is never asked. So the robot's runs are those of
a robot whose parser accepts nothing (`deaf`), and these keep to the contract
of the robot's handlers in a world in which no token has been handed out, under
any key at all.
-/

namespace ChainKVM.System

open Gateway (KeyManager RevocationCache)
open Machine (Always always_of_steps steps_of_mem)
open Robot (Agent AgentOp External JWKSFetcher JwksResponse JwtFailure Task Time)

/-! ## The key set -/

/-- An answer to a fetch of the keys of a gateway that goes by the development
key manager: it fails, or is the key set. -/
inductive OfDevKey : JwksResponse → Prop where
  | failed (err : Robot.JwksError) : OfDevKey (.error err)
  | answered {SigningKey : Type} (signingKey : Option SigningKey) (x : SigningKey → String) :
    OfDevKey (.ok ((Gateway.buildJWKS (signingKey.map Gateway.createDevKeyManager) x).map jwkKey))

section Keys

variable (decodeString : String → Option (List UInt8))

/-- A key that the cache has come to hold has its id from the set. -/
theorem get_addKeys (kid : String) (keys : List Robot.JwkKey) :
    ∀ cache : OrdMap String (List UInt8), (∀ key ∈ keys, key.kid ≠ kid) →
      (keys.foldl (JWKSFetcher.addKey decodeString) cache).get kid = cache.get kid := by
  induction keys with
  | nil => exact fun _ _ => rfl
  | cons key keys ih =>
    intro cache hkeys
    rw [List.foldl_cons, ih _ fun key' hkey => hkeys key' (List.mem_cons_of_mem _ hkey)]
    unfold JWKSFetcher.addKey
    split
    · rfl
    · split
      · rfl
      · split
        · rfl
        · rw [OrdMap.get_set, if_neg (Ne.symm (hkeys key List.mem_cons_self))]

/-- No fetch of such a key set finds the key that the agent looks for. -/
theorem OfDevKey.refresh {response : JwksResponse} (h : OfDevKey response) {f : JWKSFetcher}
    (hf : f.cache.get "gateway-signing-key" = none) :
    (f.refresh decodeString response).2.cache.get "gateway-signing-key" = none := by
  cases h with
  | failed err => exact hf
  | answered signingKey x =>
    refine (get_addKeys _ _ _ OrdMap.empty fun key hkey => ?_).trans rfl
    obtain ⟨jwk, hjwk, rfl⟩ := List.mem_map.mp hkey
    have hkid : jwk.kid = "dev-key-1" := by
      cases signingKey <;> (rw [List.mem_singleton.mp hjwk]; rfl)
    show jwk.kid ≠ _
    rw [hkid]
    decide

theorem initTokenValidator_of_devKey {first second : JwksResponse} (hfirst : OfDevKey first)
    (hsecond : OfDevKey second) (robotID : String) :
    Robot.initTokenValidator decodeString robotID first second = none := by
  have hfetched := hfirst.refresh decodeString (f := .new) rfl
  have hagain := hsecond.refresh decodeString hfetched
  unfold Robot.initTokenValidator JWKSFetcher.getPublicKey
  dsimp only
  rw [hfetched]
  dsimp only
  cases hrefresh : ((JWKSFetcher.new.refresh decodeString first).2).refresh decodeString second with
  | mk result f =>
    rw [hrefresh] at hagain
    cases result with
    | error err => rfl
    | ok _ =>
      dsimp only
      rw [hagain]

end Keys

/-! ## A parser that is never asked -/

/-- The same outside, but for a parser that accepts nothing. -/
def deaf (ext : External) : External :=
  { ext with parse := fun _ _ _ _ => .error ⟨false, false, true, false⟩ }

theorem genuine_deaf (ext : External) (key : List UInt8)
    (issued : Set Gateway.CapabilityTokenClaims) (token : String) :
    Genuine (deaf ext).parse key issued token :=
  fun _ _ _ _ _ hparse => nomatch hparse

theorem sem_deaf (ext : External) {a : Agent} (h : a.sessionMgr.validator = none) (o : AgentOp) :
    Robot.sem ext o a = Robot.sem (deaf ext) o a := by
  cases o with
  | validateToken sessionID token =>
    have hsame : a.sessionMgr.validateToken ext.parse a.now sessionID token =
        a.sessionMgr.validateToken (deaf ext).parse a.now sessionID token := by
      unfold Robot.Manager.validateToken
      rw [h]
    show ((a.sessionMgr.validateToken ext.parse a.now sessionID token).1, _) = _
    rw [hsame]
    rfl
  | _ => rfl

theorem poolStep_deaf (ext : External) {c : Agent.Busy} (h : c.shared.sessionMgr.validator = none)
    (m : Move Task Nat) : Agent.poolStep ext c m = Agent.poolStep (deaf ext) c m := by
  cases m with
  | spawn t => cases t <;> rfl
  | env d => rfl
  | sched i =>
    unfold Agent.poolStep Pool.step
    dsimp only
    split
    next t o k hi => rw [sem_deaf ext h o]
    · rfl

/-! ## A robot that nobody can reach -/

/-- It trusts no token, under any key. -/
def Trustless (ext : External) (c : Agent.Busy) : Prop :=
  ∀ key, ∃ robotID, c.Keeps (contract (deaf ext) key robotID) ∅

/-- A robot with a validator would have to have two keys. -/
theorem Trustless.validator {ext : External} {c : Agent.Busy} (h : Trustless ext c) :
    c.shared.sessionMgr.validator = none := by
  cases hv : c.shared.sessionMgr.validator with
  | none => rfl
  | some v =>
    obtain ⟨_, hkeeps⟩ := h []
    obtain ⟨_, hkeeps'⟩ := h [0]
    have hempty := (hkeeps.shared.validator v hv).1
    rw [(hkeeps'.shared.validator v hv).1] at hempty
    cases hempty

/-- One move of such a robot; whatever an offer brings is as genuine as it gets. -/
theorem Trustless.step {ext : External} {c : Agent.Busy} (h : Trustless ext c)
    (m : Move Task Nat) : Trustless ext (Agent.poolStep ext c m) := by
  intro key
  obtain ⟨robotID, hkeeps⟩ := h key
  refine ⟨robotID, ?_⟩
  rw [poolStep_deaf ext h.validator]
  refine hkeeps.step (contract_sound _ key robotID) (fun t _ => ?_) fun d a ha => ?_
  · exact code_keeps fun _ token _ _ _ _ => genuine_deaf ext key _ token
  · exact Trusting.of_frame ha rfl rfl fun _ hcall _ => hcall

theorem Trustless.init (ext : External) (now : Time) (cfg : Agent.Config) :
    Trustless ext ⟨.init now cfg none, []⟩ := by
  refine fun key => ⟨cfg.robotID, trusting_init ?_ now _, fun _ hth => nomatch hth⟩
  intro v hv
  cases hv

/-! ## The network -/

/-- The robots that start have asked a gateway with a development key. -/
def AsksDevKey (decodeString : String → Option (List UInt8)) (e : NetworkEvent) : Prop :=
  ∀ peerId now cfg v, e = .boot peerId now cfg v →
    ∃ first second, OfDevKey first ∧ OfDevKey second ∧
      v = Robot.initTokenValidator decodeString cfg.robotID first second

/-- Nothing has come of any offer: no session, no callback that could activate
one, and no motion. -/
structure Untouched (l : Link) : Prop where
  session : l.agent.shared.sessionMgr.info = none
  inactive : l.agent.shared.sessionMgr.isActive = false
  callback : l.agent.shared.transport.onStateChange = none
  motion : ∀ call ∈ l.agent.shared.calls, call.isMotion = false

theorem Trustless.untouched {ext : External} {l : Link} (h : Trustless ext l.agent) :
    Untouched l := by
  obtain ⟨robotID, hkeeps⟩ := h []
  have hsession : l.agent.shared.sessionMgr.info = none := by
    cases hinfo : l.agent.shared.sessionMgr.info with
    | none => rfl
    | some info =>
      obtain ⟨-, claims, hclaims, -⟩ := hkeeps.shared.session info hinfo
      cases hclaims
  refine ⟨hsession, ?_, ?_, fun call hcall => ?_⟩
  · -- an active session has an info
    rw [Bool.eq_false_iff]
    intro hactive
    have hstate : l.agent.shared.sessionMgr.state = .active := by
      simpa [Robot.Manager.isActive] using hactive
    have hlive := l.agent.shared.sessionMgr.live.mpr hstate
    rw [hsession] at hlive
    cases hlive
  · cases hcallback : l.agent.shared.transport.onStateChange with
    | none => rfl
    | some info =>
      obtain ⟨-, claims, hclaims, -⟩ := hkeeps.shared.callback info hcallback
      cases hclaims
  · cases hm : call.isMotion with
    | false => rfl
    | true =>
      obtain ⟨claims, hclaims, -⟩ := hkeeps.shared.motion call hcall hm
      cases hclaims

/-- Every robot of the network is one that nobody can reach. -/
def Network.Unreachable (w : Setting) (n : Network) : Prop :=
  ∀ peerId l, n.robots.get peerId = some l → Trustless (w.ext peerId) l.agent

theorem Network.Unreachable.step {decodeString : String → Option (List UInt8)} {w : Setting}
    {n : Network} (h : n.Unreachable w) {e : NetworkEvent} (he : AsksDevKey decodeString e) :
    (n.step w e).Unreachable w := by
  intro peerId l' hl'
  rcases Network.robot_step hl' with hold | ⟨now, cfg, v, rfl, hagent⟩ |
    ⟨create, negotiate, l, rfl, hl, rfl⟩ | ⟨m, l, -, hl, hagent⟩
  · exact h peerId l' hold
  · obtain ⟨first, second, hfirst, hsecond, rfl⟩ := he peerId now cfg v rfl
    rw [hagent, initTokenValidator_of_devKey _ hfirst hsecond]
    exact .init _ now cfg
  · rcases l.agent_read (w.ext peerId) w.text (n.inbox peerId) create negotiate with
      hsame | ⟨-, -, t, -, -, -, hspawn⟩
    · rw [hsame]
      exact h peerId l hl
    · rw [hspawn]
      exact (h peerId l hl).step _
  · rw [hagent]
    exact (h peerId l hl).step m

/-- In every run of the gateway, the relay and any number of robots that have
asked such a gateway for its keys. -/
theorem untouched_of_dev_key (decodeString : String → Option (List UInt8)) (w : Setting)
    (now : Int) (cache : Option RevocationCache) (es : List NetworkEvent)
    (h : ∀ e ∈ es, AsksDevKey decodeString e) :
    Always (Network.step w) (fun n => ∀ peerId l, n.robots.get peerId = some l → Untouched l)
      (.start now cache) es := by
  have hstart : (Network.start now cache).Unreachable w := fun _ _ hl => nomatch hl
  have hstep (n : Network) (e : NetworkEvent) (hn : n.Unreachable w)
      (he : AsksDevKey decodeString e) : (n.step w e).Unreachable w := hn.step he
  exact (always_of_steps hstep hstart (steps_of_mem es _ fun _ => h)).imp
    fun _ hn peerId l hl => (hn peerId l hl).untouched

/-! ## An offer with the gateway's own token -/

namespace Sample

/-- The gateway is up at the robot's second attempt to fetch its keys. -/
def keyless : Option Robot.TokenValidator :=
  Robot.initTokenValidator lib.decodeString "robot-1" (.error .fetchFailed)
    (published lib (Gateway.createDevKeyManager key))

/-- The operator's session, with a robot that has fetched the keys. -/
def unheard : List NetworkEvent :=
  .gateway (.http Gateway.Sample.create) :: .gateway (.http (.settle 0 true)) ::
    .boot "robot" Robot.Sample.now Robot.Sample.config keyless ::
    (offering.tail ++ connecting ++ [activate])

end Sample

theorem untouched_sample :
    Always (Network.step Sample.setting)
      (fun n => ∀ peerId l, n.robots.get peerId = some l → Untouched l)
      (.start Gateway.Sample.now (some (.new 100000))) Sample.unheard := by
  refine untouched_of_dev_key Sample.lib.decodeString Sample.setting _ _ _ fun e he => ?_
  intro peerId now cfg v hboot
  subst hboot
  simp only [Sample.unheard, Sample.offering, Sample.connecting, Sample.message, Sample.read,
    Sample.activate, List.tail_cons, List.mem_append, List.mem_cons, List.mem_replicate,
    reduceCtorEq, List.not_mem_nil, and_false, or_false, false_or,
    NetworkEvent.boot.injEq] at he
  obtain ⟨-, -, rfl, rfl⟩ := he
  exact ⟨_, _, .failed .fetchFailed, .answered (some Sample.key) Sample.lib.x, rfl⟩

end ChainKVM.System
