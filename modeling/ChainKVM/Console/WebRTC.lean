import ChainKVM.Console.Reconnect

/-!
# The peer connection: `hooks/useWebRTC.ts`

How the hook reconnects. The handler of connection states is set by the effect
that makes the peer connection, and closes over the `scheduleReconnect` of that
rendering, with its `isRevoked`. That effect does not depend on `isRevoked`. So
after a revocation a peer connection from before it still schedules, and a timer
whose handle has been overwritten still acts; nothing else does
(`revoked_quiet_iff`).

Without a revocation the hook does what `useWebRTCReconnect` does
(`reconnect_sound_iff`). Closures are known by the options of their rendering;
the effects have run when a rendering ends.
-/

namespace ChainKVM.Console

open Machine (Always Steps)

/-! ## The hook -/

/-- `RTCPeerConnectionState`. -/
inductive ConnectionState where
  | new
  | connecting
  | connected
  | disconnected
  | failed
  | closed
  deriving DecidableEq, Repr

/-- The options that reconnecting depends on. -/
structure WebRTCOptions where
  enabled : Bool
  reconnect : Option ReconnectConfig
  isRevoked : Bool
  deriving DecidableEq, Repr

/-- A peer connection; `handler` is what its `onconnectionstatechange` closes
over. -/
structure PeerConnection where
  connectionState : ConnectionState
  handler : WebRTCOptions
  deriving DecidableEq, Repr

/-- `pc.close()`: no event comes of it. -/
def PeerConnection.close (pc : PeerConnection) : PeerConnection :=
  { pc with connectionState := .closed }

/-- `useWebRTC`: the options of the last rendering, the refs, and whether a
rendering has been a revoked one. -/
structure WebRTC where
  options : WebRTCOptions
  peerConnection : Option PeerConnection
  refs : Reconnector WebRTCOptions
  revoked : Bool
  deriving DecidableEq, Repr

/-- What can happen to the hook between two changes of its options. -/
inductive ConnectionEvent where
  | connectionState (state : ConnectionState)
  | timer (id : Nat)
  | disconnect
  /-- A rendering with a new `signaling`, `onTrack` and so on. -/
  | renew
  deriving DecidableEq, Repr

/-- What can happen to the hook; `renewed` says that something else that the
effect of the peer connection depends on has changed too. -/
inductive WebRTCEvent where
  | connection (e : ConnectionEvent)
  | render (options : WebRTCOptions) (renewed : Bool)
  deriving DecidableEq, Repr

namespace WebRTC

/-- The first rendering. -/
def start (o : WebRTCOptions) : WebRTC :=
  ⟨o, if o.enabled then some ⟨.new, o⟩ else none, .start, o.isRevoked⟩

/-- `scheduleReconnect` of a rendering. -/
def scheduleReconnect (o : WebRTCOptions) (r : Reconnector WebRTCOptions) :
    Reconnector WebRTCOptions :=
  if o.isRevoked then r
  else
    match o.reconnect with
    | some c => if !c.enabled then r else r.schedule c.maxAttempts o
    | none => r

/-- The callback that it passes to `setTimeout`. -/
def onTimeout (stillDisconnected : Bool) (o : WebRTCOptions) (r : Reconnector WebRTCOptions) :
    Reconnector WebRTCOptions :=
  if o.isRevoked then r
  else
    match o.reconnect with
    | some c => r.attempt c.maxAttempts (scheduleReconnect o) stillDisconnected
    | none => r

/-- `onconnectionstatechange` of a rendering. -/
def onConnectionStateChange (o : WebRTCOptions) (state : ConnectionState)
    (r : Reconnector WebRTCOptions) : Reconnector WebRTCOptions :=
  let r := if state = .connected then r.connected else r
  if state = .disconnected ∧ r.wasConnected ∧ o.reconnect.any (·.enabled) then
    scheduleReconnect o r
  else r

/-- Whether the peer connection is in this state. -/
def isIn (state : ConnectionState) (h : WebRTC) : Bool :=
  h.peerConnection.any fun pc => pc.connectionState = state

/-- The cleanup of the effect of the peer connection, and `disconnect`. -/
def closeConnection (h : WebRTC) : WebRTC :=
  { h with
    refs := h.refs.clearTimeout
    peerConnection := h.peerConnection.map PeerConnection.close }

/-- A rendering: the effect of the peer connection runs again if what it depends
on has changed, that of `isRevoked` if that has. -/
def render (o : WebRTCOptions) (renewed : Bool) (h : WebRTC) : WebRTC :=
  let rerun := renewed ∨ o.enabled ≠ h.options.enabled ∨
    o.reconnect.map (·.enabled) ≠ h.options.reconnect.map (·.enabled)
  let cleaned := if rerun ∧ h.options.enabled then h.closeConnection else h
  let connection :=
    if rerun ∧ o.enabled then { cleaned with peerConnection := some ⟨.new, o⟩ } else cleaned
  let refs :=
    if o.isRevoked ∧ !h.options.isRevoked then connection.refs.dropTimeout else connection.refs
  { connection with options := o, refs, revoked := h.revoked || o.isRevoked }

def connectionStep (h : WebRTC) : ConnectionEvent → WebRTC
  | .connectionState state =>
    match h.peerConnection with
    | some pc =>
      if pc.connectionState = .closed then h
      else
        { h with
          peerConnection := some { pc with connectionState := state }
          refs := onConnectionStateChange pc.handler state h.refs }
    | none => h
  | .timer id => { h with refs := h.refs.fire (onTimeout (h.isIn .disconnected)) id }
  | .disconnect => h.closeConnection
  | .renew => h.render h.options true

def step (h : WebRTC) : WebRTCEvent → WebRTC
  | .connection e => h.connectionStep e
  | .render o renewed => h.render o renewed

/-! ## Runs with fixed options -/

/-- What should hold of the hook. -/
def Sound (h : WebRTC) : Prop := h.refs.Sound (maxAttempts h.options.reconnect) (h.isIn .connected)

/-- A disconnect that makes the hook schedule comes when no timer is pending and
no failure has been reported. -/
def Harmless (h : WebRTC) (e : ConnectionEvent) : Prop :=
  e = .connectionState .disconnected → ∀ pc, h.peerConnection = some pc →
    pc.connectionState ≠ .closed → h.refs.wasConnected = true →
    h.options.reconnect.any (·.enabled) = true → h.options.isRevoked = false → h.refs.Clear

/-- The closures are those of the options, the refs are tidy, and empty while
connected. -/
structure Good (h : WebRTC) : Prop where
  handler : ∀ pc, h.peerConnection = some pc → pc.handler = h.options
  tidy : h.refs.Tidy (maxAttempts h.options.reconnect) h.options
  idle : h.isIn .connected = true → h.refs.timers = [] ∧ h.refs.reconnectAttempts = 0

variable {o : WebRTCOptions} {r : Reconnector WebRTCOptions}

theorem tidy_scheduleReconnect (h : r.Tidy (maxAttempts o.reconnect) o)
    (hclear : o.isRevoked = false → r.Clear) :
    (scheduleReconnect o r).Tidy (maxAttempts o.reconnect) o := by
  unfold scheduleReconnect
  split
  · exact h
  next hrevoked =>
    have hclear := hclear (Bool.eq_false_iff.mpr hrevoked)
    split
    next c hc =>
      split
      · exact h
      · rw [show maxAttempts o.reconnect = c.maxAttempts by rw [hc]; rfl] at h ⊢
        exact h.schedule hclear
    next => exact h

theorem tidy_onTimeout (h : r.Tidy (maxAttempts o.reconnect) o) (hne : r.timers ≠ [])
    (stillDisconnected : Bool) :
    (onTimeout stillDisconnected o { r with timers := [] }).Tidy (maxAttempts o.reconnect) o := by
  have hfired : Reconnector.Tidy (maxAttempts o.reconnect) o { r with timers := [] } :=
    Reconnector.tidy_of_empty rfl h.bounded h.failedOnce h.exhausted
  unfold onTimeout
  split
  · exact hfired
  · split
    next c hc =>
      have hmax : maxAttempts o.reconnect = c.maxAttempts := by rw [hc]; rfl
      rw [hmax] at h ⊢
      refine h.attempt hne (fun r' htidy hclear => ?_) stillDisconnected
      rw [← hmax] at htidy ⊢
      exact tidy_scheduleReconnect htidy fun _ => hclear
    next => exact hfired

variable {h : WebRTC} {e : ConnectionEvent}

theorem isIn_eq {pc : PeerConnection} (hpc : h.peerConnection = some pc)
    (state : ConnectionState) : h.isIn state = decide (pc.connectionState = state) := by
  unfold isIn
  rw [hpc, Option.any_some]

theorem not_isIn_closeConnection {state : ConnectionState} (hstate : state ≠ .closed) :
    h.closeConnection.isIn state = false := by
  unfold closeConnection isIn
  cases h.peerConnection with
  | none => rfl
  | some pc => exact decide_eq_false (Ne.symm hstate)

/-- A rendering with the same options makes a new peer connection. -/
theorem render_renew (h : WebRTC) :
    (h.render h.options true).options = h.options ∧
      (h.options.enabled = true →
        (h.render h.options true).refs = h.refs.clearTimeout ∧
        (h.render h.options true).peerConnection = some ⟨.new, h.options⟩) ∧
      (h.options.enabled = false →
        (h.render h.options true).refs = h.refs ∧
        (h.render h.options true).peerConnection = h.peerConnection) := by
  unfold render
  dsimp only
  rw [if_neg (show ¬(h.options.isRevoked = true ∧ (!h.options.isRevoked) = true) by
    cases h.options.isRevoked <;> decide)]
  refine ⟨rfl, fun hon => ?_, fun hoff => ?_⟩
  · rw [if_pos ⟨.inl rfl, hon⟩, if_pos ⟨.inl rfl, hon⟩]
    exact ⟨rfl, rfl⟩
  · rw [if_neg (by rw [hoff]; simp), if_neg (by rw [hoff]; simp)]
    exact ⟨rfl, rfl⟩

/-- A change of state keeps the refs tidy, if it is harmless. -/
theorem tidy_onConnectionStateChange {state : ConnectionState}
    (h : r.Tidy (maxAttempts o.reconnect) o)
    (hclear : state = .disconnected → r.wasConnected = true →
      o.reconnect.any (·.enabled) = true → o.isRevoked = false → r.Clear) :
    (onConnectionStateChange o state r).Tidy (maxAttempts o.reconnect) o := by
  unfold onConnectionStateChange
  dsimp only
  by_cases hconnected : state = .connected
  · rw [if_pos hconnected, if_neg (by rw [hconnected]; exact fun hno => nomatch hno.1)]
    exact h.connected.1
  · rw [if_neg hconnected]
    split
    next hon => exact tidy_scheduleReconnect h (hclear hon.1 hon.2.1 hon.2.2)
    next => exact h

theorem Good.connectionState {state : ConnectionState} (hgood : Good h)
    (hharmless : Harmless h (.connectionState state)) :
    Good (h.connectionStep (.connectionState state)) := by
  unfold connectionStep
  dsimp only
  cases hpc : h.peerConnection with
  | none => exact hgood
  | some pc =>
    dsimp only
    by_cases hclosed : pc.connectionState = .closed
    · rw [if_pos hclosed]
      exact hgood
    rw [if_neg hclosed, hgood.handler pc hpc]
    refine ⟨?_, ?_, fun hin => ?_⟩
    · intro pc' hpc'
      cases Option.some.inj hpc'
      rfl
    · exact tidy_onConnectionStateChange hgood.tidy fun hstate hwas hon hrevoked =>
        hharmless (by rw [hstate]) pc hpc hclosed hwas hon hrevoked
    · have hstate : state = .connected := by
        rw [isIn_eq rfl] at hin
        exact of_decide_eq_true hin
      rw [hstate]
      exact hgood.tidy.connected.2

theorem Good.timer (hgood : Good h) (id : Nat) : Good (h.connectionStep (.timer id)) := by
  show Good { h with refs := h.refs.fire (onTimeout (h.isIn .disconnected)) id }
  rcases hgood.tidy.fire id with hsame | ⟨hne, hfired⟩
  · rw [hsame]
    exact hgood
  · rw [hfired]
    exact ⟨hgood.handler, tidy_onTimeout hgood.tidy hne _,
      fun hin => absurd (hgood.idle hin).1 hne⟩

theorem Good.disconnect (hgood : Good h) : Good (h.connectionStep .disconnect) := by
  refine ⟨fun pc hpc => ?_, hgood.tidy.clearTimeout, fun hin => ?_⟩
  · obtain ⟨pc', hpc', rfl⟩ := Option.map_eq_some_iff.mp hpc
    exact hgood.handler pc' hpc'
  · rw [show (h.connectionStep .disconnect).isIn .connected = false from
      not_isIn_closeConnection nofun] at hin
    cases hin

theorem Good.renew (hgood : Good h) : Good (h.connectionStep .renew) := by
  obtain ⟨hoptions, hon, hoff⟩ := render_renew h
  show Good (h.render h.options true)
  cases henabled : h.options.enabled with
  | true =>
    obtain ⟨hrefs, hpc⟩ := hon henabled
    refine ⟨fun pc hpc' => ?_, ?_, fun hin => ?_⟩
    · rw [hpc] at hpc'
      cases Option.some.inj hpc'
      exact hoptions.symm
    · rw [hrefs, hoptions]
      exact hgood.tidy.clearTimeout
    · rw [isIn_eq hpc] at hin
      cases hin
  | false =>
    obtain ⟨hrefs, hpc⟩ := hoff henabled
    refine ⟨fun pc hpc' => ?_, ?_, fun hin => ?_⟩
    · rw [hoptions]
      exact hgood.handler pc (hpc.symm.trans hpc')
    · rw [hrefs, hoptions]
      exact hgood.tidy
    · rw [hrefs]
      refine hgood.idle ?_
      unfold isIn at hin ⊢
      rwa [hpc] at hin

theorem Good.step (hgood : Good h) (hharmless : Harmless h e) : Good (h.connectionStep e) := by
  cases e with
  | connectionState state => exact hgood.connectionState hharmless
  | timer id => exact hgood.timer id
  | disconnect => exact hgood.disconnect
  | renew => exact hgood.renew

theorem Good.harmless (hgood : Good h) (hsound : Sound (h.connectionStep e)) : Harmless h e := by
  rintro rfl pc hpc hclosed hwas hon hrevoked
  have hstep : h.connectionStep (.connectionState .disconnected) =
      { h with
        peerConnection := some { pc with connectionState := .disconnected }
        refs := h.refs.schedule (maxAttempts h.options.reconnect) h.options } := by
    unfold connectionStep
    rw [hpc]
    dsimp only
    rw [if_neg hclosed, hgood.handler pc hpc]
    unfold onConnectionStateChange scheduleReconnect
    dsimp only
    rw [if_neg (show ¬ConnectionState.disconnected = .connected from nofun),
      if_pos ⟨rfl, hwas, hon⟩, hrevoked, if_neg Bool.false_ne_true]
    cases hconfig : h.options.reconnect with
    | none =>
      rw [hconfig] at hon
      cases hon
    | some c =>
      rw [hconfig] at hon
      have hc : c.enabled = true := hon
      simp only [hc]
      rfl
  rw [hstep] at hsound
  exact hgood.tidy.clear_of_schedule hsound

theorem Good.start (o : WebRTCOptions) : Good (.start o) where
  handler := by
    intro pc hpc
    have hpc : (if o.enabled then some (PeerConnection.mk .new o) else none) = some pc := hpc
    split at hpc
    · cases Option.some.inj hpc
      rfl
    · cases hpc
  tidy := .start
  idle := fun _ => ⟨rfl, rfl⟩

end WebRTC

/-- Over all runs with a fixed config the refs of either hook are sound
throughout iff every disconnect that schedules finds them clear: no timer is
pending, and no failure has been reported since the last connection. -/
theorem reconnect_sound_iff (config : Option ReconnectConfig) (es : List ReconnectEvent)
    (o : WebRTCOptions) (cs : List ConnectionEvent) :
    (Always WebRTCReconnect.step WebRTCReconnect.Sound (.start config) es ↔
      Steps WebRTCReconnect.step WebRTCReconnect.Harmless (.start config) es) ∧
    (Always WebRTC.connectionStep WebRTC.Sound (.start o) cs ↔
      Steps WebRTC.connectionStep WebRTC.Harmless (.start o) cs) := by
  refine ⟨WebRTCReconnect.always_sound_iff config es, ?_⟩
  exact Machine.always_iff_steps_of_break (I := WebRTC.Good)
    (fun _ hgood => hgood.tidy.sound hgood.idle)
    (fun _ _ hgood hharmless => hgood.step hharmless)
    (fun _ _ hgood hsound => hgood.harmless hsound) (.start o)

/-- Three attempts, a second apart. -/
def threeAttempts : ReconnectConfig := ⟨true, 3, 1000⟩

/-- Two disconnects leave a timer behind that acts while connected. -/
theorem reconnect_timer_left :
    ¬Always WebRTCReconnect.step WebRTCReconnect.Sound (.start (some threeAttempts))
      [.handleConnected, .handleDisconnected, .handleDisconnected, .handleConnected,
        .timer 0 false] := by
  intro h
  have hidle : (Machine.run WebRTCReconnect.step (.start (some threeAttempts))
      [.handleConnected, .handleDisconnected, .handleDisconnected, .handleConnected,
        .timer 0 false]).refs.reconnectAttempts = 0 := (h.last.idle rfl).2
  revert hidle
  decide

/-! ## After a revocation -/

namespace Reconnector

variable {κ : Type}

/-- From `r` to `r'` no timer has been armed and no attempt counted. -/
structure Shrinks (r r' : Reconnector κ) : Prop where
  timers : ∀ t ∈ r'.timers, t ∈ r.timers
  handle : r'.reconnectTimeout = r.reconnectTimeout ∨ r'.reconnectTimeout = none
  nextTimer : r'.nextTimer = r.nextTimer
  attempts : r'.reconnectAttempts ≤ r.reconnectAttempts

variable {r r' r'' : Reconnector κ}

theorem Shrinks.refl (r : Reconnector κ) : Shrinks r r :=
  ⟨fun _ ht => ht, .inl rfl, rfl, Nat.le_refl _⟩

theorem Shrinks.trans (h : Shrinks r r') (h' : Shrinks r' r'') : Shrinks r r'' where
  timers t ht := h.timers t (h'.timers t ht)
  handle := by
    rcases h'.handle with hsame | hnone
    · rw [hsame]
      exact h.handle
    · exact .inr hnone
  nextTimer := h'.nextTimer.trans h.nextTimer
  attempts := Nat.le_trans h'.attempts h.attempts

theorem shrinks_clearTimeout (r : Reconnector κ) : Shrinks r r.clearTimeout := by
  unfold clearTimeout
  split
  · exact ⟨fun t ht => (List.mem_filter.mp ht).1, .inl rfl, rfl, Nat.le_refl _⟩
  · exact .refl r

theorem shrinks_dropTimeout (r : Reconnector κ) : Shrinks r r.dropTimeout :=
  ⟨(shrinks_clearTimeout r).timers, .inr rfl, (shrinks_clearTimeout r).nextTimer,
    (shrinks_clearTimeout r).attempts⟩

theorem shrinks_connected (r : Reconnector κ) : Shrinks r r.connected :=
  have hreset : Shrinks r
      { r with wasConnected := true, reconnectAttempts := 0, failures := 0 } :=
    ⟨fun _ ht => ht, .inl rfl, rfl, Nat.zero_le _⟩
  hreset.trans (shrinks_dropTimeout _)

theorem shrinks_fail (r : Reconnector κ) : Shrinks r r.fail :=
  ⟨fun _ ht => ht, .inl rfl, rfl, Nat.le_refl _⟩

theorem mem_setTimeout {callback : κ} {t : Nat × κ} (h : t ∈ (r.setTimeout callback).timers) :
    t ∈ r.timers ∨ t.2 = callback := by
  rcases List.mem_append.mp h with hold | hnew
  · exact .inl hold
  · exact .inr (congrArg Prod.snd (List.mem_singleton.mp hnew))

theorem attempts_schedule (maxAttempts : Nat) (callback : κ) (r : Reconnector κ) :
    (r.schedule maxAttempts callback).reconnectAttempts = r.reconnectAttempts := by
  unfold schedule
  split
  · rfl
  · rfl

/-- A timer that fires was pending. -/
theorem fire_cases (callback : κ → Reconnector κ → Reconnector κ) (id : Nat)
    (r : Reconnector κ) :
    (∀ t ∈ r.timers, t.1 ≠ id) ∧ r.fire callback id = r ∨
      ∃ t ∈ r.timers, t.1 = id ∧ r.fire callback id =
        callback t.2 { r with timers := r.timers.filter fun t => t.1 ≠ id } := by
  unfold fire
  cases hfind : r.timers.find? fun t => t.1 = id with
  | none =>
    refine .inl ⟨fun t ht => ?_, rfl⟩
    simpa using List.find?_eq_none.mp hfind t ht
  | some t =>
    exact .inr ⟨t, List.mem_of_find?_eq_some hfind,
      by simpa using List.find?_some hfind, rfl⟩

end Reconnector

namespace WebRTC

open Reconnector (Shrinks)

/-- Once a rendering has been revoked: the attempts do not increase, no timer is
armed, and a timer does nothing when it fires. -/
structure Quiet (h : WebRTC) (e : WebRTCEvent) : Prop where
  attempts : (h.step e).refs.reconnectAttempts ≤ h.refs.reconnectAttempts
  arms : (h.step e).refs.nextTimer = h.refs.nextTimer
  acts : ∀ id, e = .connection (.timer id) →
    (h.step e).refs.reconnectAttempts = h.refs.reconnectAttempts ∧
      (h.step e).refs.failures = h.refs.failures

/-- The closures `o` schedule from here. -/
structure Schedules (o : WebRTCOptions) (r : Reconnector WebRTCOptions) : Prop where
  wasConnected : r.wasConnected = true
  isRevoked : o.isRevoked = false
  attempts : ∃ c, o.reconnect = some c ∧ c.enabled = true ∧ r.reconnectAttempts < c.maxAttempts

/-- No disconnect arrives at a peer connection whose closures schedule, and no
timer fires whose handle has been overwritten. -/
structure LeavesAlone (h : WebRTC) (e : WebRTCEvent) : Prop where
  disconnected : e = .connection (.connectionState .disconnected) →
    ∀ pc, h.peerConnection = some pc → pc.connectionState ≠ .closed →
      ¬Schedules pc.handler h.refs
  overwritten : ∀ id, e = .connection (.timer id) → ∀ t ∈ h.refs.timers, t.1 = id →
    h.refs.reconnectTimeout = some id

/-- All timers would act, the options are no more revoked than has been noticed,
and after a revocation the handle is not that of a timer that is pending. -/
structure Watched (h : WebRTC) : Prop where
  live : ∀ t ∈ h.refs.timers, t.2.isRevoked = false ∧ ∃ c, t.2.reconnect = some c
  noticed : h.options.isRevoked = true → h.revoked = true
  cleared : h.revoked = true → ∀ t ∈ h.refs.timers, h.refs.reconnectTimeout ≠ some t.1

variable {h : WebRTC} {o : WebRTCOptions} {r : Reconnector WebRTCOptions}

/-- What scheduling does. -/
theorem scheduleReconnect_cases (o : WebRTCOptions) (r : Reconnector WebRTCOptions) :
    Shrinks r (scheduleReconnect o r) ∨
      scheduleReconnect o r = r.setTimeout o ∧ o.isRevoked = false ∧
        ∃ c, o.reconnect = some c ∧ c.enabled = true ∧ r.reconnectAttempts < c.maxAttempts := by
  unfold scheduleReconnect
  split
  · exact .inl (.refl r)
  next hrevoked =>
    split
    next c hc =>
      split
      · exact .inl (.refl r)
      next henabled =>
        unfold Reconnector.schedule
        split
        · exact .inl (Reconnector.shrinks_fail r)
        next hmax =>
          exact .inr ⟨rfl, Bool.eq_false_iff.mpr hrevoked, c, hc, by simpa using henabled,
            Nat.lt_of_not_le hmax⟩
    next => exact .inl (.refl r)

/-- A change of state arms a timer only if the closures schedule. -/
theorem onConnectionStateChange_cases (o : WebRTCOptions) (state : ConnectionState)
    (r : Reconnector WebRTCOptions) :
    Shrinks r (onConnectionStateChange o state r) ∨
      state = .disconnected ∧ Schedules o r ∧
        onConnectionStateChange o state r = r.setTimeout o := by
  unfold onConnectionStateChange
  dsimp only
  by_cases hconnected : state = .connected
  · rw [if_pos hconnected, if_neg (by rw [hconnected]; exact fun hno => nomatch hno.1)]
    exact .inl (Reconnector.shrinks_connected r)
  · rw [if_neg hconnected]
    split
    next hon =>
      rcases scheduleReconnect_cases o r with hshrinks | ⟨hset, hrevoked, hattempts⟩
      · exact .inl hshrinks
      · exact .inr ⟨hon.1, ⟨hon.2.1, hrevoked, hattempts⟩, hset⟩
    next => exact .inl (.refl r)

theorem shrinks_closeConnection (h : WebRTC) : Shrinks h.refs h.closeConnection.refs :=
  Reconnector.shrinks_clearTimeout h.refs

theorem shrinks_render (h : WebRTC) (o : WebRTCOptions) (renewed : Bool) :
    Shrinks h.refs (h.render o renewed).refs := by
  unfold render
  dsimp only
  have hcleaned (p : Prop) [Decidable p] :
      Shrinks h.refs (if p then h.closeConnection else h).refs := by
    split
    · exact shrinks_closeConnection h
    · exact .refl h.refs
  have hconnection (p q : Prop) [Decidable p] [Decidable q] (pc : Option PeerConnection) :
      Shrinks h.refs (if q then
        { (if p then h.closeConnection else h) with peerConnection := pc }
        else if p then h.closeConnection else h).refs := by
    split
    · exact hcleaned p
    · exact hcleaned p
  split
  · exact (hconnection _ _ _).trans (Reconnector.shrinks_dropTimeout _)
  · exact hconnection _ _ _

theorem schedules_sets {state : ConnectionState} (hstate : state = .disconnected)
    (hs : Schedules o r) : onConnectionStateChange o state r = r.setTimeout o := by
  obtain ⟨c, hc, henabled, hlt⟩ := hs.attempts
  unfold onConnectionStateChange scheduleReconnect Reconnector.schedule
  dsimp only
  rw [hstate, if_neg (show ¬ConnectionState.disconnected = .connected from nofun), hc,
    if_pos ⟨rfl, hs.wasConnected, henabled⟩, hs.isRevoked, if_neg Bool.false_ne_true]
  dsimp only
  rw [henabled, if_neg (by decide), if_neg (by omega)]

theorem attempts_scheduleReconnect (o : WebRTCOptions) (r : Reconnector WebRTCOptions) :
    (scheduleReconnect o r).reconnectAttempts = r.reconnectAttempts := by
  unfold scheduleReconnect
  split
  · rfl
  · split
    · split
      · rfl
      · exact Reconnector.attempts_schedule _ _ _
    · rfl

/-- Scheduling arms only what would act. -/
theorem timers_scheduleReconnect (o : WebRTCOptions) (r : Reconnector WebRTCOptions) :
    ∀ t ∈ (scheduleReconnect o r).timers, t ∈ r.timers ∨
      t.2.isRevoked = false ∧ ∃ c, t.2.reconnect = some c := by
  intro t ht
  rcases scheduleReconnect_cases o r with hshrinks | ⟨hset, hrevoked, c, hc, -, -⟩
  · exact .inl (hshrinks.timers t ht)
  · rw [hset] at ht
    refine (Reconnector.mem_setTimeout ht).imp_right fun hnew => ?_
    rw [hnew]
    exact ⟨hrevoked, c, hc⟩

/-- A callback that would act counts an attempt. -/
theorem attempts_onTimeout (stillDisconnected : Bool) (hrevoked : o.isRevoked = false)
    {c : ReconnectConfig} (hc : o.reconnect = some c) :
    (onTimeout stillDisconnected o r).reconnectAttempts = r.reconnectAttempts + 1 := by
  unfold onTimeout Reconnector.attempt
  rw [hrevoked, if_neg Bool.false_ne_true, hc]
  dsimp only
  split
  · rfl
  · split
    · exact attempts_scheduleReconnect o _
    · rfl

theorem timers_onTimeout (stillDisconnected : Bool) (o : WebRTCOptions)
    (r : Reconnector WebRTCOptions) :
    ∀ t ∈ (onTimeout stillDisconnected o r).timers, t ∈ r.timers ∨
      t.2.isRevoked = false ∧ ∃ c, t.2.reconnect = some c := by
  unfold onTimeout Reconnector.attempt
  split
  · exact fun t ht => .inl ht
  · split
    · dsimp only
      split
      · exact fun t ht => .inl ht
      · split
        · exact timers_scheduleReconnect o _
        · exact fun t ht => .inl ht
    · exact fun t ht => .inl ht

theorem timers_onConnectionStateChange (o : WebRTCOptions) (state : ConnectionState)
    (r : Reconnector WebRTCOptions) :
    ∀ t ∈ (onConnectionStateChange o state r).timers, t ∈ r.timers ∨
      t.2.isRevoked = false ∧ ∃ c, t.2.reconnect = some c := by
  intro t ht
  rcases onConnectionStateChange_cases o state r with hshrinks | ⟨-, hs, hset⟩
  · exact .inl (hshrinks.timers t ht)
  · rw [hset] at ht
    obtain ⟨c, hc, -, -⟩ := hs.attempts
    refine (Reconnector.mem_setTimeout ht).imp_right fun hnew => ?_
    rw [hnew]
    exact ⟨hs.isRevoked, c, hc⟩

/-! ### One step -/

variable {e : WebRTCEvent}

/-- After a revocation, a step that is left alone arms nothing, and a timer does
nothing at all. -/
theorem Watched.shrinks (hw : Watched h) (hrevoked : h.revoked = true) (hl : LeavesAlone h e) :
    Shrinks h.refs (h.step e).refs ∧
      ∀ id, e = .connection (.timer id) → (h.step e).refs = h.refs := by
  cases e with
  | render o renewed => exact ⟨shrinks_render h o renewed, nofun⟩
  | connection e =>
    cases e with
    | connectionState state =>
      refine ⟨?_, nofun⟩
      show Shrinks h.refs (h.connectionStep (.connectionState state)).refs
      unfold connectionStep
      dsimp only
      cases hpc : h.peerConnection with
      | none => exact .refl h.refs
      | some pc =>
        dsimp only
        by_cases hclosed : pc.connectionState = .closed
        · rw [if_pos hclosed]
          exact .refl h.refs
        · rw [if_neg hclosed]
          rcases onConnectionStateChange_cases pc.handler state h.refs with
            hshrinks | ⟨hstate, hs, -⟩
          · exact hshrinks
          · exact absurd hs (hl.disconnected (by rw [hstate]) pc hpc hclosed)
    | timer id =>
      -- only a timer without a handle is pending, and such a one is not fired
      have hsame : (h.step (.connection (.timer id))).refs = h.refs := by
        rcases h.refs.fire_cases (onTimeout (h.isIn .disconnected)) id with
          ⟨-, hsame⟩ | ⟨t, ht, hid, -⟩
        · exact hsame
        · have hhandle := hl.overwritten id rfl t ht hid
          rw [← hid] at hhandle
          exact absurd hhandle (hw.cleared hrevoked t ht)
      exact ⟨hsame ▸ .refl h.refs, fun _ _ => hsame⟩
    | disconnect => exact ⟨shrinks_closeConnection h, nofun⟩
    | renew => exact ⟨shrinks_render h h.options true, nofun⟩

theorem Watched.quiet_iff (hw : Watched h) (hrevoked : h.revoked = true) :
    Quiet h e ↔ LeavesAlone h e := by
  constructor
  · intro hq
    refine ⟨?_, ?_⟩
    · rintro rfl pc hpc hclosed hs
      have harms : (h.connectionStep (.connectionState .disconnected)).refs.nextTimer =
          h.refs.nextTimer := hq.arms
      unfold connectionStep at harms
      rw [hpc] at harms
      dsimp only at harms
      rw [if_neg hclosed] at harms
      dsimp only at harms
      rw [schedules_sets rfl hs] at harms
      exact absurd harms (Nat.succ_ne_self _)
    · rintro id rfl t ht hid
      have hattempts : (h.refs.fire (onTimeout (h.isIn .disconnected)) id).reconnectAttempts ≤
          h.refs.reconnectAttempts := hq.attempts
      rcases h.refs.fire_cases (onTimeout (h.isIn .disconnected)) id with
        ⟨hnone, -⟩ | ⟨t', ht', -, hfire⟩
      · exact absurd hid (hnone t ht)
      · obtain ⟨hlive, c, hc⟩ := hw.live t' ht'
        rw [hfire, attempts_onTimeout _ hlive hc] at hattempts
        exact absurd hattempts (Nat.not_succ_le_self _)
  · intro hl
    obtain ⟨hshrinks, hsame⟩ := hw.shrinks hrevoked hl
    refine ⟨hshrinks.attempts, hshrinks.nextTimer, fun id hid => ?_⟩
    rw [hsame id hid]
    exact ⟨rfl, rfl⟩

/-- All the timers there are would act. -/
theorem Watched.live_step (hw : Watched h) : ∀ t ∈ (h.step e).refs.timers,
    t.2.isRevoked = false ∧ ∃ c, t.2.reconnect = some c := by
  intro t ht
  cases e with
  | render o renewed => exact hw.live t ((shrinks_render h o renewed).timers t ht)
  | connection e =>
    cases e with
    | connectionState state =>
      have ht : t ∈ (h.connectionStep (.connectionState state)).refs.timers := ht
      unfold connectionStep at ht
      dsimp only at ht
      split at ht
      · split at ht
        · exact hw.live t ht
        · exact (timers_onConnectionStateChange _ _ _ t ht).elim (hw.live t) id
      · exact hw.live t ht
    | timer id =>
      have ht : t ∈ (h.refs.fire (onTimeout (h.isIn .disconnected)) id).timers := ht
      rcases h.refs.fire_cases (onTimeout (h.isIn .disconnected)) id with
        ⟨-, hsame⟩ | ⟨t', -, -, hfire⟩
      · rw [hsame] at ht
        exact hw.live t ht
      · rw [hfire] at ht
        rcases timers_onTimeout _ _ _ t ht with hold | hnew
        · exact hw.live t (List.mem_filter.mp hold).1
        · exact hnew
    | disconnect => exact hw.live t ((shrinks_closeConnection h).timers t ht)
    | renew => exact hw.live t ((shrinks_render h h.options true).timers t ht)

/-- A step leaves the options and the revocation as they are, or it is a
rendering. -/
theorem step_options (h : WebRTC) (e : WebRTCEvent) :
    (h.step e).options = h.options ∧ (h.step e).revoked = h.revoked ∨
      ∃ o renewed, h.step e = h.render o renewed := by
  cases e with
  | render o renewed => exact .inr ⟨o, renewed, rfl⟩
  | connection e =>
    cases e with
    | connectionState state =>
      refine .inl ?_
      show (h.connectionStep (.connectionState state)).options = h.options ∧
        (h.connectionStep (.connectionState state)).revoked = h.revoked
      unfold connectionStep
      dsimp only
      split
      · split
        · exact ⟨rfl, rfl⟩
        · exact ⟨rfl, rfl⟩
      · exact ⟨rfl, rfl⟩
    | timer id => exact .inl ⟨rfl, rfl⟩
    | disconnect => exact .inl ⟨rfl, rfl⟩
    | renew => exact .inr ⟨h.options, true, rfl⟩

/-- The rendering that brings the revocation drops the handle and its timer. -/
theorem render_revoked (h : WebRTC) (o : WebRTCOptions) (renewed : Bool)
    (ho : o.isRevoked = true) (hh : h.options.isRevoked = false) :
    (h.render o renewed).refs.reconnectTimeout = none := by
  unfold render
  dsimp only
  rw [if_pos ⟨ho, by rw [hh]; rfl⟩]
  rfl

theorem Watched.step (hw : Watched h) (hl : h.revoked = true → LeavesAlone h e) :
    Watched (h.step e) := by
  refine ⟨hw.live_step, ?_, ?_⟩
  · intro hrevoked
    rcases step_options h e with ⟨hoptions, hsame⟩ | ⟨o, renewed, hrender⟩
    · rw [hsame]
      rw [hoptions] at hrevoked
      exact hw.noticed hrevoked
    · rw [hrender] at hrevoked ⊢
      exact (Bool.or_eq_true _ _).mpr (.inr hrevoked)
  · intro hrevoked t ht
    cases hbefore : h.revoked with
    | true =>
      obtain ⟨hshrinks, -⟩ := hw.shrinks hbefore (hl hbefore)
      rcases hshrinks.handle with hsame | hnone
      · rw [hsame]
        exact hw.cleared hbefore t (hshrinks.timers t ht)
      · rw [hnone]
        nofun
    | false =>
      have hoptions : h.options.isRevoked = false := by
        refine Bool.eq_false_iff.mpr fun hno => ?_
        have hnoticed := hw.noticed hno
        rw [hbefore] at hnoticed
        cases hnoticed
      rcases step_options h e with ⟨-, hsame⟩ | ⟨o, renewed, hrender⟩
      · rw [hsame, hbefore] at hrevoked
        cases hrevoked
      · rw [hrender] at hrevoked ⊢
        have ho : (h.revoked || o.isRevoked) = true := hrevoked
        rw [hbefore, Bool.false_or] at ho
        rw [render_revoked h o renewed ho hoptions]
        nofun

theorem Watched.start (o : WebRTCOptions) : Watched (.start o) :=
  ⟨nofun, id, nofun⟩

end WebRTC

/-- Over all runs: the hook is quiet from the first revoked rendering on iff,
from there on, no disconnect arrives at a peer connection of a rendering without
a revocation that could still schedule, and no timer fires whose handle has been
overwritten. -/
theorem revoked_quiet_iff (o : WebRTCOptions) (es : List WebRTCEvent) :
    Steps WebRTC.step (fun h e => h.revoked = true → WebRTC.Quiet h e) (.start o) es ↔
      Steps WebRTC.step (fun h e => h.revoked = true → WebRTC.LeavesAlone h e) (.start o) es := by
  refine Machine.steps_iff_steps_within (I := WebRTC.Watched) ?_ ?_ (.start o)
  · intro h e hw hl
    exact hw.step hl
  · intro h e hw
    exact forall_congr' fun hrevoked => hw.quiet_iff hrevoked

/-- The session is revoked while connected, and then the connection goes down:
the handler is that of the first rendering. -/
def revokedThenDisconnected : List WebRTCEvent :=
  [.connection (.connectionState .connected), .render ⟨true, some threeAttempts, true⟩ false,
    .connection (.connectionState .disconnected), .connection (.timer 0)]

/-- It arms a timer, and the timer counts an attempt. -/
theorem revoked_reconnects :
    ¬Steps WebRTC.step (fun h e => h.revoked = true → WebRTC.Quiet h e)
      (.start ⟨true, some threeAttempts, false⟩) revokedThenDisconnected := by
  intro h
  have harms := (h.2.2.1 rfl).arms
  revert harms
  decide

end ChainKVM.Console
