import ChainKVM.Gateway.Jwks
import ChainKVM.Gateway.Notice
import ChainKVM.Robot.Interleave
import ChainKVM.System.Interop

/-!
# A revocation on its way to the robots

The gateway and any number of robot agents. A robot is behind one of the
gateway's connections; its read loop takes the messages of that connection one
after the other, each when the handler of the one before has returned, while
its other handlers run at the same time, one operation after the other. In
between anything can happen at the gateway. What a peer sends to the gateway is
not looked into: a robot's join is a message like any other.

The robot accepts tokens by their signature and keeps no list of revoked
sessions. All it hears of a revocation is the notice, which stands in the queue
behind what the gateway had sent before: an offer that was relayed before the
revocation is still taken (`revocation_is_final_fails`). Once a robot has
handled what it had been sent when the revocation was done, its session is over
for good (`revocation_reaches`).
-/

namespace ChainKVM.System

open Js (Val)
open Gateway (InRoom Process RevocationCache Server ServerEvent ServerMessage)
open Machine (Always Reachable Steps always_of_step run run_append)
open Robot (Agent AgentProg Bytes External Info Manager SignalCall Task Terminating Time
  TokenValidator)
open Robot.SignalingClient (receive)

/-! ## Robots behind the gateway -/

/-- A robot agent and its connection: its handlers in progress, the number of
messages its read loop has taken, and the thread that handles the last one. -/
structure Link where
  agent : Agent.Busy
  taken : Nat
  reading : Option Nat

/-- The gateway and the robots by the ids of their peers. -/
structure Network where
  server : Server
  robots : OrdMap String Link

/-- What stays the same: the process of the gateway, what is outside each
robot, and the JSON text of a payload. -/
structure Setting where
  process : Process
  ext : String → External
  text : Val → Bytes

/-- A gateway that has just started. -/
def Network.start (now : Int) (revocationCache : Option RevocationCache) : Network :=
  ⟨.start now revocationCache, OrdMap.empty⟩

/-- What can happen. -/
inductive NetworkEvent where
  | gateway (e : ServerEvent)
  /-- An agent starts, with the peer id that its connection is given. -/
  | boot (peerId : String) (now : Time) (cfg : Agent.Config)
      (tokenValidator : Option TokenValidator)
  /-- The read loop of a robot takes a message; if it is an offer, creating the
  connection and negotiating come out like this. -/
  | read (peerId : String) (create : Except String Unit) (negotiate : Bytes → Except String Bytes)
  /-- Anything else that a robot does. -/
  | robot (peerId : String) (m : Move Task Nat)

/-- The handler that the read loop calls. `OnAnswer` only writes to the log,
and a candidate does nothing to the agent. -/
def signalTask (text : Val → Bytes) (create : Except String Unit)
    (negotiate : Bytes → Except String Bytes) : SignalCall → Option Task
  | .onOffer sessionID token sdp =>
    some (.offer sessionID token ((sdp.map text).getD []) create negotiate)
  | .onAnswer _ _ => none
  | .onICE _ _ => none
  | .onBye sessionID => some (.bye sessionID)
  | .onRevoked sessionID reason => some (.revoked sessionID reason)

/-- Handlers of messages are started by the read loop only. -/
def ofReadLoop : Move Task Nat → Bool
  | .spawn (.offer _ _ _ _ _) => true
  | .spawn (.bye _) => true
  | .spawn (.revoked _ _) => true
  | _ => false

namespace Link

/-- The handler of the last message has returned. -/
def idle (l : Link) : Bool :=
  match l.reading.bind fun i => l.agent.threads[i]? with
  | none => true
  | some thread => Robot.finished thread.2

/-- How many messages have been handled. -/
def handled (l : Link) : Nat := if l.idle then l.taken else l.taken - 1

/-- One round of `readLoop`. -/
def read (ext : External) (text : Val → Bytes) (inbox : List ServerMessage)
    (create : Except String Unit) (negotiate : Bytes → Except String Bytes) (l : Link) : Link :=
  if !l.idle then l
  else
    match inbox[l.taken]? with
    | none => l
    | some message =>
      match (receive message.json).bind (signalTask text create negotiate) with
      | none => { l with taken := l.taken + 1, reading := none }
      | some t =>
        { agent := Agent.poolStep ext l.agent (.spawn t)
          taken := l.taken + 1
          reading := some l.agent.threads.length }

end Link

namespace Network

/-- What the gateway has sent to a peer. -/
def inbox (n : Network) (peerId : String) : List ServerMessage :=
  n.server.signaling.inbox peerId

/-- The state after an event. -/
def step (w : Setting) (n : Network) : NetworkEvent → Network
  | .gateway e => { n with server := n.server.step w.process e }
  | .boot peerId now cfg tokenValidator =>
    match n.robots.get peerId with
    | some _ => n
    | none =>
      { n with
        robots := n.robots.set peerId
          ⟨⟨.init now cfg tokenValidator, []⟩, (n.inbox peerId).length, none⟩ }
  | .read peerId create negotiate =>
    { n with
      robots := n.robots.update peerId
        (Link.read (w.ext peerId) w.text (n.inbox peerId) create negotiate) }
  | .robot peerId m =>
    if ofReadLoop m then n
    else
      { n with
        robots := n.robots.update peerId fun l =>
          { l with agent := Agent.poolStep (w.ext peerId) l.agent m } }

end Network

/-! ## What a step does to a robot -/

/-- It does nothing, lets the read loop take a message, or moves one of the
robot's threads. -/
inductive LinkStep (w : Setting) (n : Network) (peerId : String) (l : Link) : Link → Prop where
  | stays : LinkStep w n peerId l l
  | reads (create : Except String Unit) (negotiate : Bytes → Except String Bytes) :
    LinkStep w n peerId l (l.read (w.ext peerId) w.text (n.inbox peerId) create negotiate)
  | moves (m : Move Task Nat) :
    LinkStep w n peerId l { l with agent := Agent.poolStep (w.ext peerId) l.agent m }

namespace Network

theorem inbox_step (w : Setting) (n : Network) (e : NetworkEvent) (peerId : String) :
    n.inbox peerId <+: (n.step w e).inbox peerId := by
  cases e with
  | gateway e => exact Server.inbox_step w.process n.server e peerId
  | boot peerId' now cfg v =>
    simp only [step]
    cases n.robots.get peerId' <;> exact List.prefix_refl _
  | read peerId' create negotiate => exact List.prefix_refl _
  | robot peerId' m =>
    simp only [step]
    split <;> exact List.prefix_refl _

theorem link_step {w : Setting} {n : Network} {peerId : String} {l : Link}
    (hl : n.robots.get peerId = some l) (e : NetworkEvent) :
    ∃ l', (n.step w e).robots.get peerId = some l' ∧ LinkStep w n peerId l l' := by
  have hupdate (peerId' : String) (f : Link → Link)
      (hf : peerId = peerId' → LinkStep w n peerId l (f l)) :
      ∃ l', (n.robots.update peerId' f).get peerId = some l' ∧ LinkStep w n peerId l l' := by
    rw [OrdMap.get_update]
    by_cases hpeer : peerId = peerId'
    · rw [if_pos hpeer, hl]
      exact ⟨f l, rfl, hf hpeer⟩
    · rw [if_neg hpeer]
      exact ⟨l, hl, .stays⟩
  cases e with
  | gateway e => exact ⟨l, hl, .stays⟩
  | boot peerId' now cfg v =>
    simp only [step]
    cases hboot : n.robots.get peerId' with
    | some l' => exact ⟨l, hl, .stays⟩
    | none =>
      have hpeer : peerId ≠ peerId' := by
        rintro rfl
        rw [hl] at hboot
        cases hboot
      -- somebody else starts
      refine ⟨l, ?_, .stays⟩
      show (n.robots.set peerId' _).get peerId = some l
      rw [OrdMap.get_set_of_ne _ _ hpeer]
      exact hl
  | read peerId' create negotiate =>
    refine hupdate peerId' _ fun hpeer => ?_
    subst hpeer
    exact .reads create negotiate
  | robot peerId' m =>
    simp only [step]
    split
    · exact ⟨l, hl, .stays⟩
    · refine hupdate peerId' _ fun hpeer => ?_
      subst hpeer
      exact .moves m

/-- A robot that was not there has just started. -/
theorem new_link_step {w : Setting} {n : Network} {e : NetworkEvent} {peerId : String} {l : Link}
    (hnone : n.robots.get peerId = none) (hl : (n.step w e).robots.get peerId = some l) :
    l.taken = (n.inbox peerId).length := by
  have hupdate (peerId' : String) (f : Link → Link) :
      (n.robots.update peerId' f).get peerId = none := by
    rw [OrdMap.get_update, hnone]
    split <;> rfl
  cases e with
  | gateway e => exact absurd (hnone.symm.trans hl) nofun
  | boot peerId' now cfg v =>
    simp only [step] at hl
    cases hboot : n.robots.get peerId' with
    | some l' =>
      rw [hboot] at hl
      exact absurd (hnone.symm.trans hl) nofun
    | none =>
      rw [hboot] at hl
      have hset : (n.robots.set peerId'
          ⟨⟨.init now cfg v, []⟩, (n.inbox peerId').length, none⟩).get peerId = some l := hl
      rcases OrdMap.get_set_eq_some_iff.mp hset with ⟨rfl, rfl⟩ | ⟨-, hold⟩
      · rfl
      · rw [hnone] at hold
        cases hold
  | read peerId' create negotiate => exact absurd ((hupdate peerId' _).symm.trans hl) nofun
  | robot peerId' m =>
    simp only [step] at hl
    split at hl
    · exact absurd (hnone.symm.trans hl) nofun
    · exact absurd ((hupdate peerId' _).symm.trans hl) nofun

end Network

/-! ## The read loop keeps to the queue -/

theorem Link.taken_read (ext : External) (text : Val → Bytes) (inbox : List ServerMessage)
    (create : Except String Unit) (negotiate : Bytes → Except String Bytes) {l : Link}
    (h : l.taken ≤ inbox.length) :
    (l.read ext text inbox create negotiate).taken ≤ inbox.length := by
  unfold read
  by_cases hidle : (!l.idle) = true
  · rw [if_pos hidle]
    exact h
  · rw [if_neg hidle]
    cases hmessage : inbox[l.taken]? with
    | none => exact h
    | some message =>
      obtain ⟨hlt, -⟩ := List.getElem?_eq_some_iff.mp hmessage
      dsimp only
      split <;> exact hlt

/-- No robot has taken more than it has been sent. -/
def Network.InOrder (n : Network) : Prop :=
  ∀ peerId l, n.robots.get peerId = some l → l.taken ≤ (n.inbox peerId).length

theorem Network.InOrder.step {w : Setting} {n : Network} (h : n.InOrder) (e : NetworkEvent) :
    (n.step w e).InOrder := by
  intro peerId l' hl'
  have hgrown := (n.inbox_step w e peerId).length_le
  cases hl : n.robots.get peerId with
  | none =>
    rw [new_link_step hl hl']
    exact hgrown
  | some l =>
    obtain ⟨l'', hl'', hstep⟩ := link_step (w := w) hl e
    obtain rfl : l'' = l' := Option.some.inj (hl''.symm.trans hl')
    have htaken := h peerId l hl
    cases hstep with
    | stays => omega
    | reads create negotiate =>
      have hread := Link.taken_read (w.ext peerId) w.text (n.inbox peerId) create negotiate htaken
      omega
    | moves m => exact htaken.trans hgrown

theorem inOrder_of_reachable {w : Setting} {now : Int} {cache : Option RevocationCache}
    {n : Network} (hn : Reachable (Network.step w) (.start now cache) n) : n.InOrder := by
  have hstart : (Network.start now cache).InOrder := by
    intro peerId l hl
    cases hl
  exact hn.invariant hstart fun _ e h => h.step e

/-! ## A notice in the queue -/

/-- Where a robot is with the notice at place `k` of its queue: it has not
taken it, or the handler has still to terminate the session, or the session is
over. -/
inductive Heard (k : Nat) (l : Link) : Prop where
  | waiting (htaken : l.taken ≤ k)
  | handling (i : Nat) (t : Task) (p : AgentProg Unit) (htaken : l.taken = k + 1)
      (hreading : l.reading = some i) (hthread : l.agent.threads[i]? = some (t, p))
      (hterminating : Terminating p)
  | ended (hended : l.agent.shared.sessionMgr.state = .terminated)

/-- The messages that make the robot call `OnRevoked`. -/
def Notice (message : ServerMessage) : Prop :=
  ∃ sessionID reason, receive message.json = some (.onRevoked sessionID reason)

/-- While the handler has still to terminate the session, the read loop
waits. -/
theorem idle_of_terminating {l : Link} {i : Nat} {t : Task} {p : AgentProg Unit}
    (hreading : l.reading = some i) (hthread : l.agent.threads[i]? = some (t, p))
    (hterminating : Terminating p) : l.idle = false := by
  unfold Link.idle
  rw [hreading, Option.bind_some, hthread]
  cases p with
  | ret a => exact hterminating.elim
  | op o k => rfl

theorem heard_read {ext : External} {text : Val → Bytes} {inbox : List ServerMessage}
    {create : Except String Unit} {negotiate : Bytes → Except String Bytes} {k : Nat} {l : Link}
    {message : ServerMessage} (hmessage : inbox[k]? = some message) (hnotice : Notice message)
    (h : Heard k l) : Heard k (l.read ext text inbox create negotiate) := by
  unfold Link.read
  by_cases hidle : (!l.idle) = true
  · rw [if_pos hidle]
    exact h
  · rw [if_neg hidle]
    cases hnext : inbox[l.taken]? with
    | none => exact h
    | some next =>
      dsimp only
      cases h with
      | ended hended => split <;> exact .ended hended
      | handling i t p htaken hreading hthread hterminating =>
        rw [idle_of_terminating hreading hthread hterminating] at hidle
        exact absurd rfl hidle
      | waiting htaken =>
        -- the read loop takes one message at a time, so it cannot pass the notice by
        by_cases hk : l.taken = k
        · obtain ⟨sessionID, reason, hreceive⟩ := hnotice
          rw [hk, hmessage] at hnext
          rw [← Option.some.inj hnext, hreceive]
          refine .handling l.agent.threads.length (.revoked sessionID reason) _
            (congrArg (· + 1) hk) rfl ?_ (Robot.revoked_terminating ext sessionID reason)
          show (l.agent.threads ++ [_])[l.agent.threads.length]? = _
          rw [List.getElem?_concat_length]
        · have hlt : l.taken + 1 ≤ k := by omega
          split <;> exact .waiting hlt

theorem Heard.step {w : Setting} {n : Network} {peerId : String} {k : Nat} {l l' : Link}
    {message : ServerMessage} (hmessage : (n.inbox peerId)[k]? = some message)
    (hnotice : Notice message) (h : Heard k l) (hstep : LinkStep w n peerId l l') :
    Heard k l' := by
  cases hstep with
  | stays => exact h
  | reads create negotiate => exact heard_read hmessage hnotice h
  | moves m =>
    cases h with
    | waiting htaken => exact .waiting htaken
    | ended hended =>
      exact .ended (Pool.step_shared _ _ _
        (P := fun a : Agent => a.sessionMgr.state = .terminated)
        (fun _ o _ _ _ => Robot.sem_terminated (w.ext peerId) o hended) (fun _ => hended) hended)
    | handling i t p htaken hreading hthread hterminating =>
      rcases hterminating.step (w.ext peerId) hthread m with hended | ⟨p', hthread', hp'⟩
      · exact .ended hended
      · exact .handling i t p' htaken hreading hthread' hp'

/-- A notice that has been handled has ended the session. -/
theorem Heard.ended_of_handled {k : Nat} {l : Link} (h : Heard k l) (hhandled : k < l.handled) :
    l.agent.shared.sessionMgr.state = .terminated := by
  unfold Link.handled at hhandled
  cases h with
  | ended hended => exact hended
  | waiting htaken => split at hhandled <;> omega
  | handling i t p htaken hreading hthread hterminating =>
    rw [idle_of_terminating hreading hthread hterminating, htaken] at hhandled
    exact absurd hhandled (by simp)

/-! ## What a revocation promises -/

/-- Handling the request tells the room `sid` of a revocation. -/
def Revokes (w : Setting) (n : Network) (e : Gateway.Event) (sid : String) (reason : Val) : Prop :=
  n.server.signaling.up = true ∧
    (sid, reason) ∈ Server.notifications n.server.http
      (Gateway.step w.process.deployment n.server.http e)

/-- A robot is in the room, and its connection is open. -/
structure Present (n : Network) (sid peerId : String) : Prop where
  robot : (n.robots.get peerId).isSome = true
  inRoom : InRoom n.server.signaling.rooms sid peerId
  isOpen : n.server.signaling.isOpen peerId = true

/-- From `n` to `n'` the peer has been sent a `revoked` message. -/
def Told (n n' : Network) (peerId : String) : Prop :=
  ∃ news, n'.inbox peerId = n.inbox peerId ++ news ∧ ∃ sid reason, .revoked sid reason ∈ news

/-- No token is accepted any more and no session becomes active. -/
structure ShutOut (m : Manager) : Prop where
  inactive : m.isActive = false
  rejects : ∀ parse now sessionID token,
    (m.validateToken parse now sessionID token).1 = .error .sessionTerminated
  refuses : ∀ info, (m.activate info).1 = .error .sessionTerminated

theorem shutOut_of_terminated {m : Manager} (h : m.state = .terminated) : ShutOut m where
  inactive := by
    unfold Manager.isActive
    rw [h]
    rfl
  rejects parse now sessionID token := by
    unfold Manager.validateToken
    rw [if_pos h]
  refuses info := by
    unfold Manager.activate
    rw [if_neg (by rw [h]; nofun), if_pos h]

/-- The robot is there, and shut out if it has handled what it had been sent
in `told`. -/
def ShutOutOnceHandled (told : Network) (peerId : String) (n : Network) : Prop :=
  ∃ l, n.robots.get peerId = some l ∧
    ((told.inbox peerId).length ≤ l.handled → ShutOut l.agent.shared.sessionMgr)

/-- What the robot has been told of is a notice if the reason is a text or
missing. -/
theorem notice_of_revoked {sid : String} {reason : Val} (h : reasonText reason ≠ none) :
    Notice (.revoked sid reason) := by
  obtain ⟨text, htext⟩ := Option.ne_none_iff_exists'.mp h
  refine ⟨sid, text, ?_⟩
  rw [receive_revoked, htext]
  rfl

/-- A notice in the queue of a robot that has not taken it yet ends its session
when it is handled. -/
theorem shutOut_of_notice {w : Setting} {n : Network} {peerId : String} {k : Nat}
    {message : ServerMessage} (hmessage : (n.inbox peerId)[k]? = some message)
    (hnotice : Notice message) {l : Link} (hl : n.robots.get peerId = some l)
    (htaken : l.taken ≤ k) (es : List NetworkEvent) :
    Always (Network.step w) (ShutOutOnceHandled n peerId) n es := by
  have hheard : Always (Network.step w) (fun m => (m.inbox peerId)[k]? = some message ∧
      ∃ l, m.robots.get peerId = some l ∧ Heard k l) n es := by
    refine always_of_step (fun m e hm => ?_) ⟨hmessage, l, hl, .waiting htaken⟩
    obtain ⟨hmessage, l, hl, hheard⟩ := hm
    obtain ⟨l', hl', hstep⟩ := Network.link_step (w := w) hl e
    refine ⟨?_, l', hl', hheard.step hmessage hnotice hstep⟩
    obtain ⟨news, hnews⟩ := m.inbox_step w e peerId
    obtain ⟨hlt, -⟩ := List.getElem?_eq_some_iff.mp hmessage
    rw [← hnews, List.getElem?_append_left hlt]
    exact hmessage
  refine hheard.imp fun m hm => ?_
  obtain ⟨-, l, hl, hheard⟩ := hm
  refine ⟨l, hl, fun hhandled => shutOut_of_terminated (hheard.ended_of_handled ?_)⟩
  obtain ⟨hlt, -⟩ := List.getElem?_eq_some_iff.mp hmessage
  omega

/-- In every reachable state: when a session is revoked, a robot that is in its
room with an open connection is sent a `revoked` message behind all it was sent
before; and if the reason is one that the robot can read, the robot is shut out
as soon as it has handled what it has been sent. -/
theorem revocation_reaches {w : Setting} {now : Int} {cache : Option RevocationCache} {n : Network}
    (hn : Reachable (Network.step w) (.start now cache) n) {e : Gateway.Event}
    {sid peerId : String} {reason : Val} (hrevoked : Revokes w n e sid reason)
    (hpresent : Present n sid peerId) (after : List NetworkEvent) :
    Told n (n.step w (.gateway (.http e))) peerId ∧
      (reasonText reason ≠ none → Always (Network.step w)
        (ShutOutOnceHandled (n.step w (.gateway (.http e))) peerId)
        (n.step w (.gateway (.http e))) after) := by
  obtain ⟨hup, hnotified⟩ := hrevoked
  obtain ⟨news, hnews, r, hr, htold⟩ := Server.told_of_notified w.process _ n.server.signaling hup
    hnotified hpresent.inRoom hpresent.isOpen
  have hinbox : (n.step w (.gateway (.http e))).inbox peerId = n.inbox peerId ++ news := by
    show (n.server.step w.process (.http e)).signaling.inbox peerId = _
    rw [Server.signaling_http hup]
    exact hnews
  refine ⟨⟨news, hinbox, r.1, r.2, htold⟩, fun hreason => ?_⟩
  obtain ⟨l, hl⟩ := Option.isSome_iff_exists.mp hpresent.robot
  have htaken := inOrder_of_reachable hn peerId l hl
  obtain ⟨i, hi⟩ := List.mem_iff_getElem?.mp htold
  -- the notice stands behind everything the robot can have taken
  have hmessage : ((n.step w (.gateway (.http e))).inbox peerId)[(n.inbox peerId).length + i]? =
      some (.revoked r.1 r.2) := by
    rw [hinbox, List.getElem?_append_right (Nat.le_add_right _ _), Nat.add_sub_cancel_left]
    exact hi
  have hnotice : Notice (.revoked r.1 r.2) := by
    refine notice_of_revoked ?_
    rw [Server.notifications_reason hr hnotified]
    exact hreason
  exact shutOut_of_notice hmessage hnotice hl (by omega) after

/-! ## What a revocation does not promise -/

/-- The robot is active on the session. -/
def Network.activeOn (n : Network) (peerId sid : String) : Bool :=
  (n.robots.get peerId).any fun l =>
    l.agent.shared.sessionMgr.info.any fun info => info.sessionID = sid

/-- No robot becomes active on the session. -/
def NeverActivated (w : Setting) (sid : String) (n : Network) (e : NetworkEvent) : Prop :=
  ∀ peerId, (n.step w e).activeOn peerId sid = true → n.activeOn peerId sid = true

namespace Sample

open Gateway.Sample (sid teleop)

/-- The claims of the token of the session `sid`, and the claims that its
middle part is the text of. -/
def sessionClaims : Gateway.CapabilityTokenClaims := (Gateway.Sample.call teleop).claims

def decodePart (part : String) : Option Val :=
  if part = "p" then some (.obj [("jti", .str sessionClaims.jti), ("sid", .str sid)]) else none

/-- A gateway whose token for the session is `h.p.s`. -/
def gateway : Gateway.Deployment :=
  { Gateway.Sample.gateway with decodePart := decodePart, sign := fun _ => "h.p.s" }

/-- The token parses under the gateway's key. -/
def parse : Robot.JwtParse := fun token keyFunc _ _ =>
  match keyFunc .ed25519 with
  | .error _ => .error ⟨false, true, false, false⟩
  | .ok key =>
    if key ≠ Robot.Sample.publicKey then .error ⟨false, true, false, false⟩
    else if token = "h.p.s" then .ok ⟨.ed25519, sessionClaims.payload, true⟩
    else .error ⟨false, false, true, false⟩

def setting : Setting where
  process := .main gateway
  ext _ := { Robot.Sample.ext with parse := parse }
  text _ := Robot.Sample.bytes "v=0"

/-- The operator has a session, and nobody is connected. -/
def issued : Network := ⟨⟨Gateway.Sample.issued, .start⟩, OrdMap.empty⟩

theorem issued_reachable :
    Reachable (Network.step setting) (.start Gateway.Sample.now (some (.new 100000))) issued := by
  refine ⟨[.gateway (.http Gateway.Sample.create), .gateway (.http (.settle 0 true))], ?_⟩
  have hcreate : Gateway.step gateway Gateway.Sample.start Gateway.Sample.create =
      Gateway.Sample.requested := by
    rw [Gateway.Sample.create, Gateway.step_create]
    have hstart := Gateway.Sample.startCreate_with decodePart (fun _ => "h.p.s") _ _ (.inl rfl)
      Gateway.Sample.evaluation_teleop
    unfold gateway
    rw [hstart]
    rfl
  have hfirst : (Network.start Gateway.Sample.now (some (.new 100000))).step setting
      (.gateway (.http Gateway.Sample.create)) =
        ⟨⟨Gateway.Sample.requested, .start⟩, OrdMap.empty⟩ := by
    show (⟨⟨Gateway.step gateway Gateway.Sample.start Gateway.Sample.create, Server.notify
      setting.process .start (Server.notifications Gateway.Sample.start (Gateway.step gateway
        Gateway.Sample.start Gateway.Sample.create))⟩, OrdMap.empty⟩ : Network) = _
    rw [hcreate]
    rfl
  rw [Machine.run_cons, hfirst]
  rfl

/-- A message of a peer about the session. -/
def message (peerId type : String) (members : List (String × Val)) : NetworkEvent :=
  .gateway (.message peerId (some (.obj
    (("type", .str type) :: ("session_id", .str sid) :: ("token", .str "h.p.s") :: members))))

/-- A robot and a console join the session, and the console sends an offer. -/
def offering : List NetworkEvent :=
  [.boot "robot" Robot.Sample.now Robot.Sample.config Robot.Sample.validator,
    .gateway (.connect "robot"), message "robot" "join" [("role", .str "robot")],
    .gateway (.connect "console"), message "console" "join" [("role", .str "operator")],
    message "console" "offer" [("payload", .str "v=0")]]

def offered : Network := run (Network.step setting) issued offering

/-- The robot takes a message. -/
def read : NetworkEvent := .read "robot" (.ok ()) fun sdp => .ok sdp

/-- The robot takes the two messages about the joins and the offer, and its
connection comes up. -/
def connecting : List NetworkEvent :=
  List.replicate 3 read ++ List.replicate 7 (.robot "robot" (.sched 0)) ++
    [.robot "robot" (.spawn (.connState 0 .connected)), .robot "robot" (.sched 1)]

/-- The administrator revokes the session. -/
def revoke : Gateway.Event :=
  .revoke (some "chainkvm-admin-dev-key-change-in-prod")
    (.obj [("session_id", .str sid), ("reason", .str "expelled")]) "rev_mjuohs00_p2m4zc"


/-- The callback of the connection activates the session. -/
def activate : NetworkEvent := .robot "robot" (.sched 1)

theorem offered_reachable :
    Reachable (Network.step setting) (.start Gateway.Sample.now (some (.new 100000))) offered := by
  obtain ⟨es, hes⟩ := issued_reachable
  refine ⟨es ++ offering, ?_⟩
  rw [run_append, hes]
  rfl

theorem offered_present : Present offered sid "robot" := ⟨rfl, ⟨_, rfl, rfl⟩, rfl⟩

/-- Whatever has happened at the signaling server, the session is there to be
revoked. -/
theorem revokes_of_issued {n : Network} (hhttp : n.server.http = Gateway.Sample.issued)
    (hup : n.server.signaling.up = true) : Revokes setting n revoke sid (.str "expelled") := by
  refine ⟨hup, ?_⟩
  rw [hhttp]
  exact List.Mem.head _

/-- Active when its connection to the gateway breaks. -/
def cutOff : Network :=
  run (Network.step setting) offered (connecting ++ [activate, .gateway (.closing "robot")])

end Sample

/-- The robot takes the offer and is activated; then it takes the notice, whose
handler has nine operations. -/
theorem revocation_reaches_sample :
    Told Sample.offered (Sample.offered.step Sample.setting (.gateway (.http Sample.revoke)))
        "robot" ∧
      (reasonText (.str "expelled") ≠ none → Always (Network.step Sample.setting)
        (ShutOutOnceHandled
          (Sample.offered.step Sample.setting (.gateway (.http Sample.revoke))) "robot")
        (Sample.offered.step Sample.setting (.gateway (.http Sample.revoke)))
        (Sample.connecting ++ Sample.activate :: Sample.read :: List.replicate 9
          (.robot "robot" (.sched 2)))) :=
  revocation_reaches Sample.offered_reachable (Sample.revokes_of_issued rfl rfl)
    Sample.offered_present _

/-- An offer that is on its way when the session is revoked activates the
session, and a robot whose connection is closing is not told. -/
theorem revocation_is_final_fails :
    (¬ ∀ (w : Setting) (now : Int) (cache : Option RevocationCache) (n : Network)
      (e : Gateway.Event) (sid : String) (reason : Val) (after : List NetworkEvent),
      Reachable (Network.step w) (.start now cache) n → Revokes w n e sid reason →
        Steps (Network.step w) (NeverActivated w sid) (n.step w (.gateway (.http e))) after) ∧
    ¬ ∀ (w : Setting) (now : Int) (cache : Option RevocationCache) (n : Network)
      (e : Gateway.Event) (sid : String) (reason : Val) (peerId : String),
      Reachable (Network.step w) (.start now cache) n → Revokes w n e sid reason →
        n.activeOn peerId sid = true → Told n (n.step w (.gateway (.http e))) peerId := by
  constructor
  · intro h
    have hsteps := h Sample.setting _ _ Sample.offered Sample.revoke Gateway.Sample.sid _
      (Sample.connecting ++ [Sample.activate]) Sample.offered_reachable
      (Sample.revokes_of_issued rfl rfl)
    have hlast := (Machine.steps_append.mp hsteps).2.1 "robot" (by decide +kernel)
    exact absurd hlast (by decide +kernel)
  · intro h
    have hreach : Reachable (Network.step Sample.setting)
        (.start Gateway.Sample.now (some (.new 100000))) Sample.cutOff := by
      obtain ⟨es, hes⟩ := Sample.offered_reachable
      refine ⟨es ++ (Sample.connecting ++ [Sample.activate, .gateway (.closing "robot")]), ?_⟩
      rw [run_append, hes]
      rfl
    obtain ⟨news, hnews, sid, reason, htold⟩ := h Sample.setting _ _ Sample.cutOff Sample.revoke
      Gateway.Sample.sid _ "robot" hreach (Sample.revokes_of_issued rfl rfl) (by decide +kernel)
    have hlength : ((Sample.cutOff.step Sample.setting
        (.gateway (.http Sample.revoke))).inbox "robot").length =
          (Sample.cutOff.inbox "robot").length := by decide +kernel
    rw [hnews, List.length_append] at hlength
    have hnone : news = [] := List.eq_nil_of_length_eq_zero (by omega)
    rw [hnone] at htold
    cases htold

end ChainKVM.System
