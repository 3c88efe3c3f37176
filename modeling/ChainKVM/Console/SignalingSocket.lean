import ChainKVM.Console.Signaling
import ChainKVM.Lib.Machine

/-!
# The sockets of `hooks/useSignaling.ts`

The effect of the hook opens a `WebSocket` each time one of its dependencies
changes, and its cleanup closes the one before. A socket that was closed is not
gone: its handlers stay, and it reports its end later. So there can be many
sockets, of which `wsRef` knows the last.

Only that one ever sends or receives, and its messages go to the callbacks of
the last rendering (`attached_throughout`). The status is set by all of them:
it tells the state of the current socket throughout a run iff no socket that
was replaced reports its end while the current one is in another state
(`status_tells_iff`).

The events of a socket are those of the standard: it reports an error at most
once, then its close, and receives messages only while it is open. `url` is one
that the constructor accepts.
-/

namespace ChainKVM.Console

open Js (Val)
open Machine (Always Steps always_of_step always_iff_steps steps_of_steps steps_of_forall)

/-! ## Sockets -/

/-- `ConnectionStatus`. -/
inductive ConnectionStatus where
  | disconnected
  | connecting
  | connected
  | error
  deriving DecidableEq, Repr

/-- How far a socket is; its `readyState` is `CLOSED` in the last two, and in
`failed` it still has to report its close. -/
inductive SocketState where
  | connecting
  | open
  | closing
  | failed
  | closed
  deriving DecidableEq, Repr

/-- What a socket can report, or do unreported (`closing`: the other end has
begun to close). -/
inductive SocketEvent where
  | opened
  | closing
  | errored
  | closed
  deriving DecidableEq, Repr

/-- `ws.close()`. -/
def SocketState.close : SocketState → SocketState
  | .connecting | .open => .closing
  | state => state

/-- The state after an event, if the event can happen. -/
def SocketState.next : SocketState → SocketEvent → Option SocketState
  | .connecting, .opened => some .open
  | .open, .closing => some .closing
  | .connecting, .errored | .open, .errored | .closing, .errored => some .failed
  | .connecting, .closed | .open, .closed | .closing, .closed | .failed, .closed => some .closed
  | _, _ => none

/-- What `onopen`, `onerror` and `onclose` set the status to. -/
def SocketEvent.status : SocketEvent → Option ConnectionStatus
  | .opened => some .connected
  | .closing => none
  | .errored => some .error
  | .closed => some .disconnected

/-- The status that a socket in this state should be shown with. A socket that
the other end is closing still counts as connected. -/
def SocketState.shown : SocketState → ConnectionStatus
  | .connecting => .connecting
  | .open | .closing => .connected
  | .failed => .error
  | .closed => .disconnected

/-- A socket, with the `handleMessage` that it was given, by its number. -/
structure Socket where
  url : String
  onmessage : Nat
  state : SocketState
  deriving DecidableEq, Repr

/-! ## The hook -/

/-- The dependencies of the effect; a new callback makes a new
`handleMessage`. -/
structure Deps where
  url : String
  enabled : Bool
  handleMessage : Nat
  deriving DecidableEq, Repr

/-- The last run of the effect, with the socket that its cleanup closes. -/
structure EffectRun where
  deps : Deps
  ws : Option Nat
  deriving DecidableEq, Repr

/-- `useSignaling`, and all sockets it has opened. -/
structure UseSignaling where
  mounted : Bool
  effect : Option EffectRun
  sockets : List Socket
  wsRef : Option Nat
  status : ConnectionStatus
  revocationReason : Option Val

/-- What can happen. -/
inductive SignalingEvent where
  | render (deps : Deps)
  /-- Cleanup and effect run again, as in strict mode. -/
  | rerun
  | unmount
  | socket (i : Nat) (e : SocketEvent)
  /-- A message, if its text is JSON. -/
  | received (i : Nat) (data : Option Val)
  | send (msg : Val)
  | disconnect

namespace UseSignaling

/-- Before the first effect. -/
def start : UseSignaling := ⟨true, none, [], none, .disconnected, none⟩

/-- `setStatus`, which does nothing once the component is gone. -/
def setStatus (status : ConnectionStatus) (s : UseSignaling) : UseSignaling :=
  if s.mounted then { s with status := status } else s

/-- The state of one socket changes. -/
def modify (i : Nat) (f : SocketState → SocketState) (s : UseSignaling) : UseSignaling :=
  { s with sockets := s.sockets.modify i fun ws => { ws with state := f ws.state } }

/-- `ws.close(); wsRef.current = null`. -/
def drop (i : Nat) (s : UseSignaling) : UseSignaling :=
  { s.modify i SocketState.close with wsRef := none }

/-- The cleanup of the last run. -/
def cleanup (s : UseSignaling) : UseSignaling :=
  match s.effect.bind EffectRun.ws with
  | some i => s.drop i
  | none => s

/-- The effect. -/
def run (deps : Deps) (s : UseSignaling) : UseSignaling :=
  if deps.enabled then
    { s with
      effect := some ⟨deps, some s.sockets.length⟩
      sockets := s.sockets ++ [⟨deps.url, deps.handleMessage, .connecting⟩]
      wsRef := some s.sockets.length
      status := .connecting
      revocationReason := none }
  else { s with effect := some ⟨deps, none⟩ }

/-- `disconnect`. -/
def disconnect (s : UseSignaling) : UseSignaling :=
  setStatus .disconnected
    (match s.wsRef with
    | some i => s.drop i
    | none => s)

/-- Whether socket `i` is open. -/
def isOpen (s : UseSignaling) (i : Nat) : Bool :=
  (s.sockets[i]?).any fun ws => ws.state = .open

/-- The message that goes out on a socket: `send` asks for its `readyState`. -/
def sends (s : UseSignaling) : SignalingEvent → Option (Nat × Val)
  | .send msg => s.wsRef.bind fun i => if s.isOpen i then some (i, msg) else none
  | _ => none

/-- The callback that a message leads to, with the socket that received it and
the `handleMessage` it went through. -/
def calls (s : UseSignaling) : SignalingEvent → Option (Nat × Nat × Callback)
  | .received i data =>
    match s.sockets[i]? with
    | some ws =>
      if ws.state = .open then (data.bind handleMessage).map fun call => (i, ws.onmessage, call)
      else none
    | none => none
  | _ => none

/-- A message that revokes the session is shown to the user. -/
def record (call : Callback) (s : UseSignaling) : UseSignaling :=
  match call with
  | .onRevoked _ reason => if s.mounted then { s with revocationReason := some reason } else s
  | _ => s

def step (s : UseSignaling) (e : SignalingEvent) : UseSignaling :=
  match e with
  | .render deps =>
    if !s.mounted then s
    else if s.effect.map EffectRun.deps = some deps then s
    else s.cleanup.run deps
  | .rerun =>
    match s.effect with
    | some run => if s.mounted then s.cleanup.run run.deps else s
    | none => s
  | .unmount => { s.cleanup with mounted := false }
  | .socket i e =>
    match (s.sockets[i]?).bind fun ws => ws.state.next e with
    | some state =>
      match e.status with
      | some status => (s.modify i fun _ => state).setStatus status
      | none => s.modify i fun _ => state
    | none => s
  | .received _ _ =>
    match s.calls e with
    | some call => s.record call.2.2
    | none => s
  | .send _ => s
  | .disconnect => s.disconnect

/-! ## What a call changes -/

@[simp] theorem setStatus_sockets (status : ConnectionStatus) (s : UseSignaling) :
    (s.setStatus status).sockets = s.sockets := by
  unfold setStatus
  split <;> rfl

@[simp] theorem setStatus_wsRef (status : ConnectionStatus) (s : UseSignaling) :
    (s.setStatus status).wsRef = s.wsRef := by
  unfold setStatus
  split <;> rfl

@[simp] theorem setStatus_effect (status : ConnectionStatus) (s : UseSignaling) :
    (s.setStatus status).effect = s.effect := by
  unfold setStatus
  split <;> rfl

@[simp] theorem setStatus_mounted (status : ConnectionStatus) (s : UseSignaling) :
    (s.setStatus status).mounted = s.mounted := by
  unfold setStatus
  split <;> rfl

theorem setStatus_status {s : UseSignaling} (hm : s.mounted = true) (status : ConnectionStatus) :
    (s.setStatus status).status = status := by
  unfold setStatus
  rw [if_pos hm]

theorem record_frame (call : Callback) (s : UseSignaling) :
    (s.record call).mounted = s.mounted ∧ (s.record call).effect = s.effect ∧
      (s.record call).sockets = s.sockets ∧ (s.record call).wsRef = s.wsRef ∧
      (s.record call).status = s.status := by
  unfold record
  split
  · split <;> exact ⟨rfl, rfl, rfl, rfl, rfl⟩
  · exact ⟨rfl, rfl, rfl, rfl, rfl⟩

/-- A socket after the change is one from before, in a new state if it is the
one that has changed. -/
theorem get_modify {s : UseSignaling} {i j : Nat} {f : SocketState → SocketState} {ws' : Socket}
    (hget : (s.modify i f).sockets[j]? = some ws') :
    ∃ ws, s.sockets[j]? = some ws ∧
      ws' = { ws with state := if i = j then f ws.state else ws.state } := by
  have hget' : (s.sockets.modify i fun ws => { ws with state := f ws.state })[j]? = some ws' := hget
  rw [List.getElem?_modify] at hget'
  obtain ⟨ws, hws, heq⟩ := Option.map_eq_some_iff.mp hget'
  refine ⟨ws, hws, ?_⟩
  rw [← heq]
  split <;> rfl

theorem get_modify_of_get {s : UseSignaling} {i : Nat} (j : Nat) (f : SocketState → SocketState)
    {ws : Socket} (hget : s.sockets[i]? = some ws) :
    (s.modify j f).sockets[i]? =
      some { ws with state := if j = i then f ws.state else ws.state } := by
  show (s.sockets.modify j fun ws => { ws with state := f ws.state })[i]? = _
  rw [List.getElem?_modify, hget]
  split <;> rfl

/-! ## Only the current socket is in use -/

/-- The current socket is that of the last run, with its URL and its handler;
every other one has been closed, or has closed. As long as the status is not
`disconnected`, some socket has not reported its close. -/
structure Attached (s : UseSignaling) : Prop where
  others : ∀ i ws, s.sockets[i]? = some ws → s.wsRef ≠ some i →
    ws.state ≠ .connecting ∧ ws.state ≠ .open
  current : ∀ i, s.wsRef = some i → ∃ run ws, s.effect = some run ∧ run.ws = some i ∧
    s.sockets[i]? = some ws ∧ ws.url = run.deps.url ∧ ws.onmessage = run.deps.handleMessage
  reported : s.mounted = true → s.status ≠ .disconnected → ∃ ws ∈ s.sockets, ws.state ≠ .closed
  unmounted : s.mounted = false → s.wsRef = none

/-- A message that is received leads to the callback of the last rendering, and
what is sent goes out on an open socket to its URL. -/
structure UsesLatest (s : UseSignaling) (e : SignalingEvent) : Prop where
  calls : ∀ i handler call, s.calls e = some (i, handler, call) →
    ∃ run, s.effect = some run ∧ s.wsRef = some i ∧ handler = run.deps.handleMessage
  sends : ∀ i msg, s.sends e = some (i, msg) →
    ∃ run ws, s.effect = some run ∧ s.sockets[i]? = some ws ∧ ws.state = .open ∧
      ws.url = run.deps.url

variable {s : UseSignaling}

theorem Attached.start : start.Attached where
  others _ _ hget := nomatch hget
  current _ href := nomatch href
  reported _ hstatus := absurd rfl hstatus
  unmounted _ := rfl

theorem close_ne (state : SocketState) : state.close ≠ .connecting ∧ state.close ≠ .open := by
  cases state <;> exact ⟨nofun, nofun⟩

theorem close_ne_closed {state : SocketState} (h : state ≠ .closed) : state.close ≠ .closed := by
  cases state with
  | closed => exact h
  | _ => exact nofun

/-- Some socket stays without its close when one of them is asked to close. -/
theorem exists_open_modify {i : Nat} {f : SocketState → SocketState}
    (hf : ∀ state, state ≠ .closed → f state ≠ .closed)
    (hopen : ∃ ws ∈ s.sockets, ws.state ≠ .closed) :
    ∃ ws ∈ (s.modify i f).sockets, ws.state ≠ .closed := by
  obtain ⟨ws, hmem, hstate⟩ := hopen
  obtain ⟨j, hj⟩ := List.mem_iff_getElem?.mp hmem
  refine ⟨_, List.mem_of_getElem? (get_modify_of_get i f hj), ?_⟩
  dsimp only
  split
  · exact hf _ hstate
  · exact hstate

@[simp] theorem cleanup_mounted (s : UseSignaling) : s.cleanup.mounted = s.mounted := by
  unfold UseSignaling.cleanup
  split <;> rfl

/-- Without a current socket. -/
theorem Attached.drop (h : Attached s) {i : Nat} (hcurrent : ∀ j, s.wsRef = some j → j = i) :
    Attached (s.drop i) where
  others j ws' hget _ := by
    obtain ⟨ws, hws, rfl⟩ := get_modify hget
    dsimp only
    split
    · exact close_ne ws.state
    next hne => exact h.others j ws hws fun href => hne (hcurrent j href).symm
  current _ href := nomatch href
  reported hm hstatus := exists_open_modify (fun _ => close_ne_closed) (h.reported hm hstatus)
  unmounted _ := rfl

/-- After the cleanup there is no current socket. -/
theorem Attached.cleanup (h : Attached s) : Attached s.cleanup ∧ s.cleanup.wsRef = none := by
  unfold UseSignaling.cleanup
  cases hws : s.effect.bind EffectRun.ws with
  | none =>
    refine ⟨h, ?_⟩
    cases href : s.wsRef with
    | none => rfl
    | some i =>
      obtain ⟨run, -, heffect, hrun, -⟩ := h.current i href
      rw [heffect] at hws
      rw [Option.bind_some, hrun] at hws
      cases hws
  | some i =>
    refine ⟨h.drop fun j href => ?_, rfl⟩
    obtain ⟨run, -, heffect, hrun, -⟩ := h.current j href
    rw [heffect, Option.bind_some, hrun] at hws
    exact Option.some.inj hws

/-- The effect, after the cleanup. -/
theorem Attached.run (h : Attached s) (hnone : s.wsRef = none) (hm : s.mounted = true)
    (deps : Deps) : Attached (s.run deps) := by
  unfold UseSignaling.run
  split
  · refine ⟨fun j ws hget href => ?_, fun i href => ?_, fun _ _ => ?_, fun hunmounted => ?_⟩
    · have hget' :
          (s.sockets ++ [⟨deps.url, deps.handleMessage, .connecting⟩])[j]? = some ws := hget
      have hne : j ≠ s.sockets.length := fun heq => href (congrArg some heq.symm)
      by_cases hlt : j < s.sockets.length
      · rw [List.getElem?_append_left hlt] at hget'
        exact h.others j ws hget' (by rw [hnone]; exact nofun)
      · have hlength (ws : Socket) : (s.sockets ++ [ws]).length ≤ j := by
          rw [List.length_append, List.length_singleton]
          omega
        rw [List.getElem?_eq_none (hlength _)] at hget'
        cases hget'
    · cases href
      exact ⟨_, _, rfl, rfl, List.getElem?_concat_length, rfl, rfl⟩
    · exact ⟨_, List.mem_append_right _ List.mem_cons_self, nofun⟩
    · have hfalse : s.mounted = false := hunmounted
      rw [hm] at hfalse
      cases hfalse
  · refine ⟨h.others, fun i href => ?_, h.reported, h.unmounted⟩
    have hsome : s.wsRef = some i := href
    rw [hnone] at hsome
    cases hsome

theorem Attached.setStatus (h : Attached s) {status : ConnectionStatus}
    (hstatus : status ≠ .disconnected → ∃ ws ∈ s.sockets, ws.state ≠ .closed) :
    Attached (s.setStatus status) := by
  unfold UseSignaling.setStatus
  split
  · exact ⟨h.others, h.current, fun _ => hstatus, h.unmounted⟩
  · exact h

/-- A socket that is asked to close neither opens nor connects any more. -/
theorem next_ne {state state' : SocketState} {e : SocketEvent} (hnext : state.next e = some state')
    (hconnecting : state ≠ .connecting) (hopen : state ≠ .open) :
    state' ≠ .connecting ∧ state' ≠ .open := by
  cases state <;> first
    | exact absurd rfl hconnecting
    | exact absurd rfl hopen
    | (cases e <;> cases hnext <;> exact ⟨nofun, nofun⟩)

theorem next_ne_connecting {state state' : SocketState} {e : SocketEvent}
    (hnext : state.next e = some state') : state' ≠ .connecting := by
  cases state <;> cases e <;> cases hnext <;> exact nofun

/-- A socket has reported its close exactly with that event. -/
theorem next_closed {state state' : SocketState} {e : SocketEvent}
    (hnext : state.next e = some state') : state' = .closed ↔ e = .closed := by
  cases state <;> cases e <;> cases hnext <;> simp

/-- The change of a socket that reports something, before its handler. -/
theorem Attached.modify (h : Attached s) {i : Nat} {ws : Socket} {state : SocketState}
    {e : SocketEvent} (hws : s.sockets[i]? = some ws) (hnext : ws.state.next e = some state)
    (hreported : s.mounted = true → s.status ≠ .disconnected → state ≠ .closed) :
    Attached (s.modify i fun _ => state) where
  others j ws' hget href := by
    obtain ⟨ws₀, hws₀, rfl⟩ := get_modify hget
    have hold := h.others j ws₀ hws₀ href
    dsimp only
    split
    next heq =>
      subst heq
      obtain rfl : ws = ws₀ := Option.some.inj (hws.symm.trans hws₀)
      exact next_ne hnext hold.1 hold.2
    · exact hold
  current j href := by
    obtain ⟨run, ws₀, heffect, hrun, hws₀, hurl, honmessage⟩ := h.current j href
    exact ⟨run, _, heffect, hrun, get_modify_of_get i _ hws₀, hurl, honmessage⟩
  reported hm hstatus := by
    refine ⟨_, List.mem_of_getElem? (get_modify_of_get i _ hws), ?_⟩
    dsimp only
    rw [if_pos rfl]
    exact hreported hm hstatus
  unmounted := h.unmounted

theorem setStatus_modify (i : Nat) (f : SocketState → SocketState) (status : ConnectionStatus) :
    (s.modify i f).setStatus status = (s.setStatus status).modify i f := by
  unfold UseSignaling.setStatus UseSignaling.modify
  dsimp only
  split <;> rfl

/-- One event of one socket, with its handler. -/
theorem Attached.socket (h : Attached s) (i : Nat) (e : SocketEvent) :
    Attached (s.step (.socket i e)) := by
  unfold UseSignaling.step
  dsimp only
  split
  next state hnext =>
    obtain ⟨ws, hws, hnext⟩ := Option.bind_eq_some_iff.mp hnext
    by_cases he : e = .closed
    · -- the status is `disconnected` from then on
      subst he
      show Attached ((s.modify i fun _ => state).setStatus .disconnected)
      rw [setStatus_modify]
      refine (h.setStatus fun hne => absurd rfl hne).modify ?_ hnext fun hm hstatus => ?_
      · rw [setStatus_sockets]
        exact hws
      · rw [setStatus_mounted] at hm
        exact absurd (setStatus_status hm .disconnected) hstatus
    · have hstate : state ≠ .closed := fun heq => he ((next_closed hnext).mp heq)
      have hmodify := h.modify hws hnext fun _ _ => hstate
      split
      next status _ =>
        refine hmodify.setStatus fun _ => ⟨_, List.mem_of_getElem? (get_modify_of_get i _ hws), ?_⟩
        dsimp only
        rw [if_pos rfl]
        exact hstate
      · exact hmodify
  · exact h

theorem Attached.step (h : Attached s) (e : SignalingEvent) : Attached (s.step e) := by
  cases e with
  | render deps =>
    unfold UseSignaling.step
    dsimp only
    split
    · exact h
    next hm =>
      split
      · exact h
      · refine h.cleanup.1.run h.cleanup.2 ?_ deps
        rw [cleanup_mounted]
        simpa using hm
  | rerun =>
    unfold UseSignaling.step
    dsimp only
    split
    · split
      next hm =>
        refine h.cleanup.1.run h.cleanup.2 ?_ _
        rw [cleanup_mounted]
        exact hm
      · exact h
    · exact h
  | unmount =>
    obtain ⟨hattached, hnone⟩ := h.cleanup
    exact ⟨hattached.others, hattached.current, fun hm => (nomatch hm), fun _ => hnone⟩
  | socket i e => exact h.socket i e
  | received i data =>
    unfold UseSignaling.step
    dsimp only
    split
    next call _ =>
      obtain ⟨hmounted, heffect, hsockets, href, hstatus⟩ := record_frame call.2.2 s
      constructor
      · rw [hsockets, href]
        exact h.others
      · rw [heffect, hsockets, href]
        exact h.current
      · rw [hmounted, hsockets, hstatus]
        exact h.reported
      · rw [hmounted, href]
        exact h.unmounted
    · exact h
  | send msg => exact h
  | disconnect =>
    show Attached s.disconnect
    unfold UseSignaling.disconnect
    refine Attached.setStatus ?_ fun hne => absurd rfl hne
    split
    next i href =>
      exact h.drop fun j hj => Option.some.inj (hj.symm.trans href)
    · exact h

/-- A socket that receives is open, so it is the current one. -/
theorem Attached.usesLatest (h : Attached s) (e : SignalingEvent) : UsesLatest s e := by
  constructor
  · intro i handler call hcalls
    unfold calls at hcalls
    split at hcalls
    next data =>
      split at hcalls
      next ws hws =>
        split at hcalls
        next hopen =>
          obtain ⟨_, -, heq⟩ := Option.map_eq_some_iff.mp hcalls
          cases heq
          have href : s.wsRef = some i :=
            Classical.byContradiction fun hne => (h.others i ws hws hne).2 hopen
          obtain ⟨run, ws', heffect, -, hws', -, honmessage⟩ := h.current i href
          obtain rfl : ws = ws' := Option.some.inj (hws.symm.trans hws')
          exact ⟨run, heffect, href, honmessage⟩
        · cases hcalls
      · cases hcalls
    · cases hcalls
  · intro i msg hsends
    unfold sends at hsends
    split at hsends
    · obtain ⟨j, href, hopen⟩ := Option.bind_eq_some_iff.mp hsends
      split at hopen
      next hisOpen =>
        cases hopen
        obtain ⟨run, ws, heffect, -, hws, hurl, -⟩ := h.current i href
        unfold isOpen at hisOpen
        rw [hws] at hisOpen
        exact ⟨run, ws, heffect, hws, of_decide_eq_true hisOpen, hurl⟩
      · cases hopen
    · cases hsends

/-- The state of the current socket is shown as this status. -/
def ShownAs (s : UseSignaling) (status : ConnectionStatus) : Prop :=
  ∀ i ws, s.wsRef = some i → s.sockets[i]? = some ws → status = ws.state.shown

/-- The status tells the state of the current socket. -/
def Tells (s : UseSignaling) : Prop := ShownAs s s.status

/-- A socket that is not the current one reports only what the current one
would have set the status to. -/
def Harmless (s : UseSignaling) : SignalingEvent → Prop
  | .socket i e => s.wsRef ≠ some i →
    ((s.sockets[i]?).bind fun ws => ws.state.next e).isSome = true →
      ∀ status, e.status = some status → ShownAs s status
  | _ => True

theorem shownAs_of_none (h : s.wsRef = none) (status : ConnectionStatus) : ShownAs s status := by
  intro i ws href
  rw [h] at href
  cases href

theorem shown_next {state state' : SocketState} {e : SocketEvent}
    (hnext : state.next e = some state') : state'.shown = e.status.getD state.shown := by
  cases state <;> cases e <;> cases hnext <;> rfl

/-- Once the effect has run, the status is that of the socket it has opened, if
there is one. -/
theorem tells_run (hnone : s.wsRef = none) (deps : Deps) : Tells (s.run deps) := by
  unfold UseSignaling.run
  split
  · intro i ws href hws
    cases href
    have hnew : (s.sockets ++ [⟨deps.url, deps.handleMessage, .connecting⟩])[s.sockets.length]? =
        some ws := hws
    rw [List.getElem?_concat_length] at hnew
    cases hnew
    rfl
  · exact shownAs_of_none hnone _

/-- An event of the current socket. -/
theorem tells_current (h : Attached s) (htells : Tells s) {i : Nat} (href : s.wsRef = some i)
    (e : SocketEvent) : Tells (s.step (.socket i e)) := by
  have hm : s.mounted = true := by
    cases hm : s.mounted with
    | true => rfl
    | false =>
      rw [h.unmounted hm] at href
      cases href
  unfold UseSignaling.step
  dsimp only
  split
  next state hnext =>
    obtain ⟨ws, hws, hnext⟩ := Option.bind_eq_some_iff.mp hnext
    have hshown := shown_next hnext
    split
    next status hstatus =>
      rw [hstatus] at hshown
      intro j ws' href' hws'
      rw [setStatus_wsRef] at href'
      obtain rfl : i = j := Option.some.inj (href.symm.trans href')
      rw [setStatus_sockets, get_modify_of_get i _ hws] at hws'
      cases hws'
      dsimp only
      rw [setStatus_status (by exact hm), if_pos rfl]
      exact hshown.symm
    next hstatus =>
      rw [hstatus] at hshown
      intro j ws' href' hws'
      obtain rfl : i = j := Option.some.inj (href.symm.trans href')
      rw [get_modify_of_get i _ hws] at hws'
      cases hws'
      dsimp only
      rw [if_pos rfl, hshown]
      exact htells i ws href hws
  · exact htells

/-- The change of another socket does not show. -/
theorem shownAs_modify {i : Nat} (href : s.wsRef ≠ some i) (f : SocketState → SocketState)
    (status : ConnectionStatus) : ShownAs (s.modify i f) status ↔ ShownAs s status := by
  constructor
  · intro h j ws hj hws
    have hne : i ≠ j := fun heq => href (heq ▸ hj)
    have hshown := h j _ hj (get_modify_of_get i f hws)
    dsimp only at hshown
    rwa [if_neg hne] at hshown
  · intro h j ws' hj hws'
    have hne : i ≠ j := fun heq => href (heq ▸ hj)
    obtain ⟨ws, hws, rfl⟩ := get_modify hws'
    dsimp only
    rw [if_neg hne]
    exact h j ws hj hws

/-- An event of another socket. -/
theorem tells_other_iff (h : Attached s) (htells : Tells s) {i : Nat} (href : s.wsRef ≠ some i)
    (e : SocketEvent) : Tells (s.step (.socket i e)) ↔ s.Harmless (.socket i e) := by
  unfold UseSignaling.step UseSignaling.Harmless
  dsimp only
  cases hnext : (s.sockets[i]?).bind fun ws => ws.state.next e with
  | none => exact iff_of_true htells fun _ hsome => nomatch hsome
  | some state =>
    dsimp only
    cases hstatus : e.status with
    | none =>
      refine iff_of_true ((shownAs_modify href _ _).mpr htells) fun _ _ _ hsome => ?_
      cases hsome
    | some status =>
      dsimp only
      have hiff : Tells ((s.modify i fun _ => state).setStatus status) ↔ ShownAs s status := by
        cases hm : s.mounted with
        | true =>
          rw [setStatus_modify, Tells, shownAs_modify (by rw [setStatus_wsRef]; exact href)]
          show ShownAs (s.setStatus status) (s.setStatus status).status ↔ _
          rw [setStatus_status hm]
          unfold ShownAs
          rw [setStatus_wsRef, setStatus_sockets]
        | false =>
          have hnone := h.unmounted hm
          refine iff_of_true (shownAs_of_none ?_ _) (shownAs_of_none hnone _)
          rw [setStatus_wsRef]
          exact hnone
      rw [hiff]
      constructor
      · intro hshown _ _ status' heq
        cases heq
        exact hshown
      · exact fun hharmless => hharmless href rfl status rfl

theorem tells_step_iff (h : Attached s) (e : SignalingEvent) (htells : Tells s) :
    Tells (s.step e) ↔ s.Harmless e := by
  cases e with
  | socket i e =>
    by_cases href : s.wsRef = some i
    · exact iff_of_true (tells_current h htells href e) fun hne => absurd href hne
    · exact tells_other_iff h htells href e
  | render deps =>
    refine iff_of_true ?_ trivial
    unfold UseSignaling.step
    dsimp only
    split
    · exact htells
    · split
      · exact htells
      · exact tells_run h.cleanup.2 deps
  | rerun =>
    refine iff_of_true ?_ trivial
    unfold UseSignaling.step
    dsimp only
    split
    · split
      · exact tells_run h.cleanup.2 _
      · exact htells
    · exact htells
  | unmount => exact iff_of_true (shownAs_of_none h.cleanup.2 _) trivial
  | received i data =>
    refine iff_of_true ?_ trivial
    unfold UseSignaling.step
    dsimp only
    split
    next call _ =>
      obtain ⟨-, -, hsockets, href, hstatus⟩ := record_frame call.2.2 s
      unfold Tells ShownAs
      rw [hsockets, href, hstatus]
      exact htells
    · exact htells
  | send msg => exact iff_of_true htells trivial
  | disconnect =>
    refine iff_of_true (shownAs_of_none ?_ _) trivial
    show s.disconnect.wsRef = none
    unfold UseSignaling.disconnect
    rw [setStatus_wsRef]
    split
    · rfl
    next hnone => exact hnone

/-- In every run: the status is that of the current socket throughout iff no
socket that was replaced or disconnected reports its end at the wrong time. -/
theorem status_tells_iff (es : List SignalingEvent) :
    Always step Tells start es ↔ Steps step Harmless start es :=
  always_iff_steps (fun _ e h => h.step e) (fun _ e h htells => tells_step_iff h e htells)
    Attached.start (shownAs_of_none rfl _)

/-- The URL changes, the new socket opens, and the old one reports its close. -/
example : (Machine.run step start [.render ⟨"a", true, 0⟩, .socket 0 .opened,
    .render ⟨"b", true, 0⟩, .socket 1 .opened, .socket 0 .closed]).status = .disconnected := rfl

end UseSignaling

end ChainKVM.Console
