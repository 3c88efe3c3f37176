import ChainKVM.Lib.Machine

/-!
# Reconnecting: `hooks/useWebRTCReconnect.ts`

The refs and the timers by which `useWebRTCReconnect` and `useWebRTC` try to
reconnect, and the first of the two hooks. The handle of the timer is one cell,
and scheduling overwrites it without looking. So a disconnect that comes while a
timer is pending leaves that timer without a handle, and one that comes when the
attempts are used up reports the failure again; nothing else goes wrong
(`Reconnector.Tidy`).

A timer may fire whenever it is pending. Its callback is known by what it closes
over.
-/

namespace ChainKVM.Console

open Machine (Always Steps)

/-! ## The refs -/

/-- `ReconnectOptions` of `useWebRTCReconnect`, `ReconnectConfig` of `useWebRTC`. -/
structure ReconnectConfig where
  enabled : Bool
  maxAttempts : Nat
  delayMs : Nat
  deriving DecidableEq, Repr

/-- The refs; `reconnectAttempts` is also the state that follows it. With them
the timers that are pending, under the handles that `setTimeout` gave them, and
the calls of `onReconnectFailed` since the last connection. -/
structure Reconnector (κ : Type) where
  reconnectTimeout : Option Nat
  wasConnected : Bool
  reconnectAttempts : Nat
  timers : List (Nat × κ)
  nextTimer : Nat
  failures : Nat
  deriving DecidableEq, Repr

namespace Reconnector

variable {κ : Type}

def start : Reconnector κ := ⟨none, false, 0, [], 0, 0⟩

/-- `reconnectTimeoutRef.current = setTimeout(callback, delayMs)`. -/
def setTimeout (callback : κ) (r : Reconnector κ) : Reconnector κ :=
  { r with
    reconnectTimeout := some r.nextTimer
    timers := r.timers ++ [(r.nextTimer, callback)]
    nextTimer := r.nextTimer + 1 }

/-- `clearTimeout(reconnectTimeoutRef.current)`, if there is a handle. -/
def clearTimeout (r : Reconnector κ) : Reconnector κ :=
  match r.reconnectTimeout with
  | some id => { r with timers := r.timers.filter fun t => t.1 ≠ id }
  | none => r

/-- The same, and the handle is dropped. -/
def dropTimeout (r : Reconnector κ) : Reconnector κ :=
  { r.clearTimeout with reconnectTimeout := none }

/-- What both hooks do when the connection is there. -/
def connected (r : Reconnector κ) : Reconnector κ :=
  { r with wasConnected := true, reconnectAttempts := 0, failures := 0 }.dropTimeout

/-- `onReconnectFailed?.()`. -/
def fail (r : Reconnector κ) : Reconnector κ := { r with failures := r.failures + 1 }

/-- `scheduleReconnect`, after its guards. -/
def schedule (maxAttempts : Nat) (callback : κ) (r : Reconnector κ) : Reconnector κ :=
  if maxAttempts ≤ r.reconnectAttempts then r.fail else r.setTimeout callback

/-- The callback of the timer, after its guards: it schedules `again` if the
connection is not back. -/
def attempt (maxAttempts : Nat) (again : Reconnector κ → Reconnector κ) (stillDisconnected : Bool)
    (r : Reconnector κ) : Reconnector κ :=
  let r := { r with reconnectAttempts := r.reconnectAttempts + 1 }
  if maxAttempts ≤ r.reconnectAttempts then r.fail
  else if stillDisconnected then again r
  else r

/-- Timer `id` fires, if it is pending. -/
def fire (callback : κ → Reconnector κ → Reconnector κ) (id : Nat) (r : Reconnector κ) :
    Reconnector κ :=
  match r.timers.find? fun t => t.1 = id with
  | some t => callback t.2 { r with timers := r.timers.filter fun t => t.1 ≠ id }
  | none => r

end Reconnector

/-! ## `useWebRTCReconnect` -/

/-- The hook with its config, and whether the last of the two handlers that was
called is `handleConnected`. -/
structure WebRTCReconnect where
  config : Option ReconnectConfig
  refs : Reconnector (Option ReconnectConfig)
  isConnected : Bool
  deriving DecidableEq, Repr

/-- What can happen to it. -/
inductive ReconnectEvent where
  | handleConnected
  | handleDisconnected
  | cleanup
  /-- A timer fires; the flag is what `checkStillDisconnected` says. -/
  | timer (id : Nat) (stillDisconnected : Bool)
  deriving DecidableEq, Repr

namespace WebRTCReconnect

def start (config : Option ReconnectConfig) : WebRTCReconnect := ⟨config, .start, false⟩

/-- `scheduleReconnect`. -/
def scheduleReconnect (config : Option ReconnectConfig)
    (r : Reconnector (Option ReconnectConfig)) : Reconnector (Option ReconnectConfig) :=
  match config with
  | some c => if !c.enabled then r else r.schedule c.maxAttempts config
  | none => r

/-- The callback that it passes to `setTimeout`. -/
def onTimeout (stillDisconnected : Bool) (config : Option ReconnectConfig)
    (r : Reconnector (Option ReconnectConfig)) : Reconnector (Option ReconnectConfig) :=
  match config with
  | some c => r.attempt c.maxAttempts (scheduleReconnect config) stillDisconnected
  | none => r

/-- `handleDisconnected`. -/
def handleDisconnected (config : Option ReconnectConfig)
    (r : Reconnector (Option ReconnectConfig)) : Reconnector (Option ReconnectConfig) :=
  if r.wasConnected && config.any (·.enabled) then scheduleReconnect config r else r

def step (h : WebRTCReconnect) : ReconnectEvent → WebRTCReconnect
  | .handleConnected => { h with refs := h.refs.connected, isConnected := true }
  | .handleDisconnected =>
    { h with refs := handleDisconnected h.config h.refs, isConnected := false }
  | .cleanup => { h with refs := h.refs.dropTimeout }
  | .timer id stillDisconnected => { h with refs := h.refs.fire (onTimeout stillDisconnected) id }

end WebRTCReconnect

/-! ## What should hold -/

namespace Reconnector

variable {κ : Type}

/-- At most one timer is pending, none is and no attempt counts while connected,
the attempts stay within their bound, and the failure is reported once. -/
structure Sound (maxAttempts : Nat) (isConnected : Bool) (r : Reconnector κ) : Prop where
  single : r.timers.length ≤ 1
  idle : isConnected = true → r.timers = [] ∧ r.reconnectAttempts = 0
  bounded : r.reconnectAttempts ≤ maxAttempts
  failedOnce : r.failures ≤ 1

/-- The state in which a disconnect does no harm: no timer is pending and no
failure has been reported since the last connection. -/
def Clear (r : Reconnector κ) : Prop := r.timers = [] ∧ r.failures = 0

/-- The handle is that of the timer that is pending, whose callback is `c`, and
as long as one is, attempts are left. -/
structure Tidy (maxAttempts : Nat) (c : κ) (r : Reconnector κ) : Prop where
  handle : r.timers = [] ∨ ∃ id, r.reconnectTimeout = some id ∧ r.timers = [(id, c)]
  pending : r.timers ≠ [] → r.reconnectAttempts < maxAttempts ∧ r.failures = 0
  bounded : r.reconnectAttempts ≤ maxAttempts
  failedOnce : r.failures ≤ 1
  exhausted : 0 < r.failures → maxAttempts ≤ r.reconnectAttempts

variable {n : Nat} {c : κ} {r : Reconnector κ}

theorem Tidy.sound (h : Tidy n c r) {isConnected : Bool}
    (hidle : isConnected = true → r.timers = [] ∧ r.reconnectAttempts = 0) :
    r.Sound n isConnected where
  single := by
    rcases h.handle with hnil | ⟨id, -, hone⟩
    · rw [hnil]
      exact Nat.zero_le 1
    · rw [hone]
      exact Nat.le_refl 1
  idle := hidle
  bounded := h.bounded
  failedOnce := h.failedOnce

theorem Tidy.start : Tidy n c start where
  handle := .inl rfl
  pending := fun h => absurd rfl h
  bounded := Nat.zero_le n
  failedOnce := Nat.zero_le 1
  exhausted := fun h => absurd h (Nat.lt_irrefl 0)

/-- With no timer, the counts are all there is to say. -/
theorem tidy_of_empty (hempty : r.timers = []) (hbounded : r.reconnectAttempts ≤ n)
    (hfailed : r.failures ≤ 1) (hexhausted : 0 < r.failures → n ≤ r.reconnectAttempts) :
    Tidy n c r :=
  ⟨.inl hempty, fun h => absurd hempty h, hbounded, hfailed, hexhausted⟩

/-- Clearing the handle clears the timers. -/
theorem Tidy.timers_clearTimeout (h : Tidy n c r) : r.clearTimeout.timers = [] := by
  unfold clearTimeout
  rcases h.handle with hnil | ⟨id, hid, hone⟩
  · split
    · show r.timers.filter _ = []
      rw [hnil, List.filter_nil]
    · exact hnil
  · rw [hid]
    show r.timers.filter _ = []
    rw [hone, List.filter_cons_of_neg (by simp), List.filter_nil]

theorem clearTimeout_frame (r : Reconnector κ) :
    r.clearTimeout.reconnectAttempts = r.reconnectAttempts ∧
      r.clearTimeout.failures = r.failures := by
  unfold clearTimeout
  split
  · exact ⟨rfl, rfl⟩
  · exact ⟨rfl, rfl⟩

theorem Tidy.clearTimeout (h : Tidy n c r) : Tidy n c r.clearTimeout := by
  obtain ⟨hattempts, hfailures⟩ := clearTimeout_frame r
  refine tidy_of_empty h.timers_clearTimeout ?_ ?_ ?_
  · rw [hattempts]
    exact h.bounded
  · rw [hfailures]
    exact h.failedOnce
  · rw [hattempts, hfailures]
    exact h.exhausted

theorem Tidy.dropTimeout (h : Tidy n c r) : Tidy n c r.dropTimeout :=
  have hclear := h.clearTimeout
  tidy_of_empty h.timers_clearTimeout hclear.bounded hclear.failedOnce hclear.exhausted

/-- Nothing is left of the attempts when the connection is there. -/
theorem Tidy.connected (h : Tidy n c r) :
    Tidy n c r.connected ∧ r.connected.timers = [] ∧ r.connected.reconnectAttempts = 0 := by
  have hreset : Tidy n c { r with wasConnected := true, reconnectAttempts := 0, failures := 0 } :=
    ⟨h.handle, fun hne => ⟨Nat.zero_lt_of_lt (h.pending hne).1, rfl⟩, Nat.zero_le n,
      Nat.zero_le 1, fun hpos => absurd hpos (Nat.lt_irrefl 0)⟩
  exact ⟨hreset.dropTimeout, hreset.timers_clearTimeout, (clearTimeout_frame _).1⟩

/-- Scheduling is safe when nothing is pending and nothing has failed. -/
theorem Tidy.schedule (h : Tidy n c r) (hclear : r.Clear) : Tidy n c (r.schedule n c) := by
  unfold Reconnector.schedule
  split
  next hmax =>
    refine tidy_of_empty hclear.1 h.bounded ?_ fun _ => hmax
    exact Nat.succ_le_succ (Nat.le_of_eq hclear.2)
  next hmax =>
    have htimers : (r.setTimeout c).timers = [(r.nextTimer, c)] := by
      show r.timers ++ _ = _
      rw [hclear.1, List.nil_append]
    exact ⟨.inr ⟨r.nextTimer, rfl, htimers⟩, fun _ => ⟨Nat.lt_of_not_le hmax, hclear.2⟩,
      h.bounded, h.failedOnce, h.exhausted⟩

/-- And only then. -/
theorem Tidy.clear_of_schedule (h : Tidy n c r) {isConnected : Bool}
    (hs : (r.schedule n c).Sound n isConnected) : r.Clear := by
  have hsingle := hs.single
  have hfailed := hs.failedOnce
  unfold Reconnector.schedule at hsingle hfailed
  by_cases hmax : n ≤ r.reconnectAttempts
  · rw [if_pos hmax] at hfailed
    have hzero : r.failures + 1 ≤ 1 := hfailed
    refine ⟨Classical.not_not.mp fun hne => ?_, by omega⟩
    exact Nat.not_lt.mpr hmax (h.pending hne).1
  · rw [if_neg hmax] at hsingle
    have hone : (r.timers ++ [(r.nextTimer, c)]).length ≤ 1 := hsingle
    rw [List.length_append, List.length_singleton] at hone
    refine ⟨List.length_eq_zero_iff.mp (by omega), Nat.eq_zero_of_not_pos fun hpos => ?_⟩
    exact hmax (h.exhausted hpos)

/-- A timer that fires was the only one. -/
theorem Tidy.fire {callback : κ → Reconnector κ → Reconnector κ} (h : Tidy n c r) (id : Nat) :
    r.fire callback id = r ∨
      r.timers ≠ [] ∧ r.fire callback id = callback c { r with timers := [] } := by
  unfold Reconnector.fire
  rcases h.handle with hnil | ⟨id', -, hone⟩
  · rw [hnil]
    exact .inl rfl
  · rw [hone]
    by_cases hid : id' = id
    · rw [List.find?_cons_of_pos (by simpa using hid),
        List.filter_cons_of_neg (by simpa using hid), List.filter_nil]
      exact .inr ⟨nofun, rfl⟩
    · rw [List.find?_cons_of_neg (by simpa using hid), List.find?_nil]
      exact .inl rfl

/-- An attempt that was pending leaves things tidy. -/
theorem Tidy.attempt {again : Reconnector κ → Reconnector κ} (h : Tidy n c r)
    (hne : r.timers ≠ []) (hagain : ∀ r', Tidy n c r' → r'.Clear → Tidy n c (again r'))
    (stillDisconnected : Bool) :
    Tidy n c ({ r with timers := [] }.attempt n again stillDisconnected) := by
  obtain ⟨hlt, hzero⟩ := h.pending hne
  unfold Reconnector.attempt
  dsimp only
  split
  next hmax =>
    refine tidy_of_empty rfl hlt ?_ fun _ => hmax
    exact Nat.succ_le_succ (Nat.le_of_eq hzero)
  next hmax =>
    have hcounted : Tidy n c
        { r with timers := [], reconnectAttempts := r.reconnectAttempts + 1 } :=
      tidy_of_empty rfl hlt h.failedOnce fun hpos => absurd hpos (by rw [hzero]; decide)
    split
    · exact hagain _ hcounted ⟨rfl, hzero⟩
    · exact hcounted

end Reconnector

/-! ## Runs of `useWebRTCReconnect` -/

/-- The bound of the attempts; without a config there are none. -/
def maxAttempts (config : Option ReconnectConfig) : Nat := config.elim 0 (·.maxAttempts)

namespace WebRTCReconnect

/-- What should hold of the hook. -/
def Sound (h : WebRTCReconnect) : Prop := h.refs.Sound (maxAttempts h.config) h.isConnected

/-- A disconnect that makes the hook schedule comes when no timer is pending and
no failure has been reported. -/
def Harmless (h : WebRTCReconnect) (e : ReconnectEvent) : Prop :=
  e = .handleDisconnected → h.refs.wasConnected = true → h.config.any (·.enabled) = true →
    h.refs.Clear

/-- The refs are tidy, and empty while connected. -/
structure Good (h : WebRTCReconnect) : Prop where
  tidy : h.refs.Tidy (maxAttempts h.config) h.config
  idle : h.isConnected = true → h.refs.timers = [] ∧ h.refs.reconnectAttempts = 0

variable {config : Option ReconnectConfig} {r : Reconnector (Option ReconnectConfig)}

theorem tidy_scheduleReconnect (h : r.Tidy (maxAttempts config) config) (hclear : r.Clear) :
    (scheduleReconnect config r).Tidy (maxAttempts config) config := by
  unfold scheduleReconnect
  cases config with
  | none => exact h
  | some c =>
    dsimp only
    split
    · exact h
    · exact h.schedule hclear

theorem tidy_onTimeout (h : r.Tidy (maxAttempts config) config) (hne : r.timers ≠ [])
    (stillDisconnected : Bool) :
    (onTimeout stillDisconnected config { r with timers := [] }).Tidy (maxAttempts config)
      config := by
  unfold onTimeout
  cases config with
  | none => exact absurd (h.pending hne).1 (Nat.not_lt_zero _)
  | some c => exact h.attempt hne (fun r' => tidy_scheduleReconnect) stillDisconnected

variable {h : WebRTCReconnect} {e : ReconnectEvent}

theorem Good.step (hgood : Good h) (hharmless : Harmless h e) : Good (h.step e) := by
  cases e with
  | handleConnected =>
    obtain ⟨htidy, hempty, hzero⟩ := hgood.tidy.connected
    exact ⟨htidy, fun _ => ⟨hempty, hzero⟩⟩
  | handleDisconnected =>
    refine ⟨?_, nofun⟩
    show (handleDisconnected h.config h.refs).Tidy _ _
    unfold handleDisconnected
    split
    next hon =>
      obtain ⟨hwas, henabled⟩ := (Bool.and_eq_true _ _).mp hon
      exact tidy_scheduleReconnect hgood.tidy (hharmless rfl hwas henabled)
    next => exact hgood.tidy
  | cleanup =>
    refine ⟨hgood.tidy.dropTimeout, fun hconnected => ⟨hgood.tidy.timers_clearTimeout, ?_⟩⟩
    exact (Reconnector.clearTimeout_frame h.refs).1.trans (hgood.idle hconnected).2
  | timer id stillDisconnected =>
    show Good { h with refs := h.refs.fire (onTimeout stillDisconnected) id }
    rcases hgood.tidy.fire id with hsame | ⟨hne, hfired⟩
    · rw [hsame]
      exact hgood
    · rw [hfired]
      exact ⟨tidy_onTimeout hgood.tidy hne stillDisconnected,
        fun hconnected => absurd (hgood.idle hconnected).1 hne⟩

theorem Good.harmless (hgood : Good h) (hsound : Sound (h.step e)) : Harmless h e := by
  rintro rfl hwas henabled
  have hrefs : (h.step .handleDisconnected).refs =
      h.refs.schedule (maxAttempts h.config) h.config := by
    show handleDisconnected h.config h.refs = _
    unfold handleDisconnected scheduleReconnect
    rw [hwas, henabled]
    cases hconfig : h.config with
    | none =>
      rw [hconfig] at henabled
      cases henabled
    | some c =>
      rw [hconfig] at henabled
      have hc : c.enabled = true := henabled
      simp only [hc]
      rfl
  unfold Sound at hsound
  rw [hrefs] at hsound
  exact hgood.tidy.clear_of_schedule hsound

/-- The refs are sound throughout a run iff every disconnect that schedules finds
them clear. -/
theorem always_sound_iff (config : Option ReconnectConfig) (es : List ReconnectEvent) :
    Always step Sound (start config) es ↔ Steps step Harmless (start config) es :=
  Machine.always_iff_steps_of_break (I := Good) (fun _ hgood => hgood.tidy.sound hgood.idle)
    (fun _ _ hgood hharmless => hgood.step hharmless)
    (fun _ _ hgood hsound => hgood.harmless hsound) ⟨.start, nofun⟩

end WebRTCReconnect

end ChainKVM.Console
