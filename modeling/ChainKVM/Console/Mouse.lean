import ChainKVM.Lib.Machine

/-!
# Driving by mouse: `hooks/useMouseInput.ts`

The hook adds up movement and scrolling in two refs and sends both with one
command, at once or when a timer fires. `flushBatch` looks at the movement only
and empties both refs. So scrolling is lost when it finds that nothing has
moved, or that the movements have cancelled out; apart from that every delta is
sent once or still in the refs (`mouse_conserved_iff`).

The listeners and the timer are closures of the rendering that made them.
`render` is a rendering that makes new ones, and the effects that follow it; a
button only changes the state, so anything can happen before the rendering that
it causes. Deltas are integers.
-/

namespace ChainKVM.Console

open Machine (Always Steps)

/-! ## The hook -/

/-- `KVMMouseCommand`. -/
structure KVMMouseCommand where
  dx : Int
  dy : Int
  buttons : Nat
  scroll : Int
  deriving DecidableEq, Repr

/-- The callbacks of the hook. -/
inductive MouseCall where
  | onMouseMove (dx dy : Int)
  | onMouseDown (button : Int)
  | onMouseUp (button : Int)
  | onScroll (deltaY : Int)
  | onKVMMouseCommand (command : KVMMouseCommand)
  deriving DecidableEq, Repr

/-- `buttonToBitmask`. -/
def buttonToBitmask (button : Int) : Nat :=
  if button = 0 then 1
  else if button = 1 then 4
  else if button = 2 then 2
  else 0

/-- `buttonsToBitmask`. -/
def buttonsToBitmask (buttons : List Int) : Nat :=
  buttons.foldl (fun mask button => mask ||| buttonToBitmask button) 0

/-- `UseMouseInputOptions`: `onKVMMouseCommand` says whether there is one. -/
structure MouseOptions where
  enabled : Bool
  onKVMMouseCommand : Bool
  batchMs : Int
  deriving DecidableEq, Repr

/-- The listeners of a rendering, by what they close over. -/
structure MouseListeners where
  options : MouseOptions
  pressedButtons : List Int
  deriving DecidableEq, Repr

/-- `useMouseInput`: the listeners that are attached, the state and the refs of
the hook, with the listeners that set the timer, and its calls so far. -/
structure MouseInput where
  listeners : Option MouseListeners
  pressedButtons : List Int
  accumulatedMovement : Int × Int
  accumulatedScroll : Int
  batchTimer : Option MouseListeners
  calls : List MouseCall

namespace MouseInput

def call (h : MouseInput) (c : MouseCall) : MouseInput := { h with calls := h.calls ++ [c] }

/-- The body of the `if` of `flushBatch`. -/
def emit (l : MouseListeners) (h : MouseInput) : MouseInput :=
  let (dx, dy) := h.accumulatedMovement
  let h := h.call (.onMouseMove dx dy)
  if l.options.onKVMMouseCommand then
    h.call (.onKVMMouseCommand ⟨dx, dy, buttonsToBitmask l.pressedButtons, h.accumulatedScroll⟩)
  else h

/-- `flushBatch`. -/
def flushBatch (l : MouseListeners) (h : MouseInput) : MouseInput :=
  let h :=
    if h.accumulatedMovement.1 ≠ 0 ∨ h.accumulatedMovement.2 ≠ 0 then h.emit l else h
  { h with accumulatedMovement := (0, 0), accumulatedScroll := 0 }

/-- `scheduleBatch`. -/
def scheduleBatch (l : MouseListeners) (h : MouseInput) : MouseInput :=
  if l.options.batchMs ≤ 0 then h.flushBatch l
  else if h.batchTimer.isNone then { h with batchTimer := some l }
  else h

/-- `handleMouseMove`. -/
def handleMouseMove (l : MouseListeners) (movementX movementY : Int) (h : MouseInput) :
    MouseInput :=
  if !l.options.enabled then h
  else
    let (dx, dy) := h.accumulatedMovement
    { h with accumulatedMovement := (dx + movementX, dy + movementY) }.scheduleBatch l

/-- `handleMouseDown`. -/
def handleMouseDown (l : MouseListeners) (button : Int) (h : MouseInput) : MouseInput :=
  if !l.options.enabled then h
  else
    { h.call (.onMouseDown button) with
      pressedButtons :=
        if button ∈ h.pressedButtons then h.pressedButtons else h.pressedButtons ++ [button] }

/-- `handleMouseUp`. -/
def handleMouseUp (l : MouseListeners) (button : Int) (h : MouseInput) : MouseInput :=
  if !l.options.enabled then h
  else
    { h.call (.onMouseUp button) with
      pressedButtons := h.pressedButtons.filter fun b => b ≠ button }

/-- `handleWheel`. -/
def handleWheel (l : MouseListeners) (deltaY : Int) (h : MouseInput) : MouseInput :=
  if !l.options.enabled then h
  else
    { h.call (.onScroll deltaY) with accumulatedScroll := h.accumulatedScroll + deltaY }

/-- The callback of the timer. -/
def timerFires (l : MouseListeners) (h : MouseInput) : MouseInput :=
  { h.flushBatch l with batchTimer := none }

/-- The effects of a rendering with new listeners: those of the one before are
removed and its timer is cleared. -/
def render (options : MouseOptions) (h : MouseInput) : MouseInput :=
  let h := if h.listeners.isSome then { h with batchTimer := none } else h
  if options.enabled then { h with listeners := some ⟨options, h.pressedButtons⟩ }
  else
    { h with
      listeners := none
      pressedButtons := []
      accumulatedMovement := (0, 0)
      accumulatedScroll := 0 }

/-- The first rendering. -/
def start (options : MouseOptions) : MouseInput := render options ⟨none, [], (0, 0), 0, none, []⟩

end MouseInput

/-- What happens to the hook. -/
inductive MouseEvent where
  | mousemove (movementX movementY : Int)
  | mousedown (button : Int)
  | mouseup (button : Int)
  | wheel (deltaY : Int)
  | timer
  | render (options : MouseOptions)
  deriving DecidableEq, Repr

/-- An event goes to the listeners, if they are attached. -/
def MouseInput.dispatch (f : MouseListeners → MouseInput → MouseInput) (h : MouseInput) :
    MouseInput :=
  match h.listeners with
  | some l => f l h
  | none => h

def mouseStep (h : MouseInput) : MouseEvent → MouseInput
  | .mousemove movementX movementY => h.dispatch fun l => .handleMouseMove l movementX movementY
  | .mousedown button => h.dispatch fun l => .handleMouseDown l button
  | .mouseup button => h.dispatch fun l => .handleMouseUp l button
  | .wheel deltaY => h.dispatch fun l => .handleWheel l deltaY
  | .timer =>
    match h.batchTimer with
    | some l => h.timerFires l
    | none => h
  | .render options => h.render options

/-! ## What is sent and what is left -/

/-- Sums of movement and scrolling. -/
@[ext] structure Deltas where
  dx : Int
  dy : Int
  scroll : Int
  deriving DecidableEq, Repr

def Deltas.add (a b : Deltas) : Deltas := ⟨a.dx + b.dx, a.dy + b.dy, a.scroll + b.scroll⟩

theorem Deltas.add_zero (a : Deltas) : a.add ⟨0, 0, 0⟩ = a := by
  unfold Deltas.add
  rw [Deltas.ext_iff]
  dsimp only
  omega

theorem Deltas.add_comm (a b : Deltas) : a.add b = b.add a := by
  unfold Deltas.add
  rw [Deltas.mk.injEq]
  omega

theorem Deltas.add_assoc (a b c : Deltas) : (a.add b).add c = a.add (b.add c) := by
  unfold Deltas.add
  rw [Deltas.mk.injEq]
  dsimp only
  omega

/-- What a call sends. -/
def MouseCall.deltas : MouseCall → Deltas
  | .onKVMMouseCommand command => ⟨command.dx, command.dy, command.scroll⟩
  | _ => ⟨0, 0, 0⟩

/-- What calls send together. -/
def sentDeltas : List MouseCall → Deltas
  | [] => ⟨0, 0, 0⟩
  | c :: calls => c.deltas.add (sentDeltas calls)

theorem sentDeltas_append (calls : List MouseCall) (c : MouseCall) :
    sentDeltas (calls ++ [c]) = (sentDeltas calls).add c.deltas := by
  induction calls with
  | nil => exact c.deltas.add_comm ⟨0, 0, 0⟩
  | cons d calls ih =>
    show d.deltas.add (sentDeltas (calls ++ [c])) = (d.deltas.add (sentDeltas calls)).add c.deltas
    rw [ih, Deltas.add_assoc]

namespace MouseInput

/-- What has been sent or is still in the refs. -/
def deltas (h : MouseInput) : Deltas :=
  (sentDeltas h.calls).add ⟨h.accumulatedMovement.1, h.accumulatedMovement.2, h.accumulatedScroll⟩

/-- The scrolling that `flushBatch` empties without sending it. -/
def unsent (h : MouseInput) : Int :=
  if h.accumulatedMovement.1 = 0 ∧ h.accumulatedMovement.2 = 0 then h.accumulatedScroll else 0

end MouseInput

/-- What the listeners receive with an event. -/
def receivedDeltas (h : MouseInput) (e : MouseEvent) : Deltas :=
  match h.listeners, e with
  | some _, .mousemove movementX movementY => ⟨movementX, movementY, 0⟩
  | some _, .wheel deltaY => ⟨0, 0, deltaY⟩
  | _, _ => ⟨0, 0, 0⟩

/-- The scrolling that a step loses: what `flushBatch` finds with no movement,
when the timer fires or when batches are not delayed. -/
def lostScroll (h : MouseInput) (e : MouseEvent) : Int :=
  match e with
  | .timer => if h.batchTimer.isSome then h.unsent else 0
  | .mousemove movementX movementY =>
    if h.listeners.any fun l => l.options.batchMs ≤ 0 then
      { h with accumulatedMovement :=
          (h.accumulatedMovement.1 + movementX, h.accumulatedMovement.2 + movementY) }.unsent
    else 0
  | _ => 0

/-- A hook and what its listeners have received. -/
structure WatchedMouse where
  hook : MouseInput
  received : Deltas

def WatchedMouse.step (w : WatchedMouse) (e : MouseEvent) : WatchedMouse :=
  ⟨mouseStep w.hook e, w.received.add (receivedDeltas w.hook e)⟩

/-- The first rendering, with nothing received. -/
def WatchedMouse.start (options : MouseOptions) : WatchedMouse := ⟨.start options, ⟨0, 0, 0⟩⟩

/-- What has been received has been sent, or it is still in the refs. -/
def WatchedMouse.Conserved (w : WatchedMouse) : Prop := w.hook.deltas = w.received

/-- The input is enabled and there is a handler for the commands. -/
def MouseOptions.Sends (options : MouseOptions) : Prop :=
  options.enabled = true ∧ options.onKVMMouseCommand = true

/-- A rendering keeps it so. -/
def SendingStep (_ : WatchedMouse) (e : MouseEvent) : Prop :=
  ∀ options, e = .render options → options.Sends

/-- All the closures that are around send. -/
structure Sending (h : MouseInput) : Prop where
  listeners : ∃ l, h.listeners = some l ∧ l.options.Sends
  timer : ∀ l, h.batchTimer = some l → l.options.Sends

/-! ## What a step does -/

namespace MouseInput

theorem deltas_call (h : MouseInput) (c : MouseCall) :
    (h.call c).deltas = h.deltas.add c.deltas := by
  unfold deltas call
  rw [sentDeltas_append, Deltas.add_assoc, Deltas.add_assoc, c.deltas.add_comm]

/-- A flush sends what is in the refs, unless nothing has moved. -/
theorem deltas_flushBatch {l : MouseListeners} (hl : l.options.Sends) (h : MouseInput) :
    (h.flushBatch l).deltas = h.deltas.add ⟨0, 0, -h.unsent⟩ := by
  obtain ⟨listeners, pressed, ⟨dx, dy⟩, scroll, timer, calls⟩ := h
  unfold flushBatch emit unsent
  dsimp only
  by_cases hmoved : dx ≠ 0 ∨ dy ≠ 0
  · rw [if_pos hmoved, if_pos hl.2, if_neg (by omega)]
    unfold deltas call
    dsimp only
    rw [sentDeltas_append, sentDeltas_append]
    unfold Deltas.add MouseCall.deltas
    rw [Deltas.mk.injEq]
    dsimp only
    omega
  · rw [if_neg hmoved, if_pos (by omega)]
    unfold deltas Deltas.add
    rw [Deltas.mk.injEq]
    dsimp only
    omega

/-- A move is added, and what a flush at once loses goes. -/
theorem deltas_handleMouseMove {l : MouseListeners} (hl : l.options.Sends) (x y : Int)
    (h : MouseInput) : (h.handleMouseMove l x y).deltas = (h.deltas.add ⟨x, y, 0⟩).add ⟨0, 0,
      -(if l.options.batchMs ≤ 0 then
        { h with accumulatedMovement :=
            (h.accumulatedMovement.1 + x, h.accumulatedMovement.2 + y) }.unsent
        else 0)⟩ := by
  have hmoved : { h with accumulatedMovement :=
      (h.accumulatedMovement.1 + x, h.accumulatedMovement.2 + y) }.deltas =
        h.deltas.add ⟨x, y, 0⟩ := by
    obtain ⟨listeners, pressed, ⟨dx, dy⟩, scroll, timer, calls⟩ := h
    unfold deltas Deltas.add
    rw [Deltas.mk.injEq]
    dsimp only
    omega
  unfold handleMouseMove scheduleBatch
  dsimp only
  rw [if_neg (by rw [hl.1]; decide)]
  by_cases hnow : l.options.batchMs ≤ 0
  · rw [if_pos hnow, if_pos hnow, deltas_flushBatch hl, hmoved]
  · rw [if_neg hnow, if_neg hnow]
    split
    · exact hmoved.trans (Deltas.add_zero _).symm
    · exact hmoved.trans (Deltas.add_zero _).symm

theorem deltas_handleMouseDown (l : MouseListeners) (button : Int) (h : MouseInput) :
    (h.handleMouseDown l button).deltas = h.deltas := by
  unfold handleMouseDown
  split
  · rfl
  · exact (h.deltas_call (.onMouseDown button)).trans (Deltas.add_zero _)

theorem deltas_handleMouseUp (l : MouseListeners) (button : Int) (h : MouseInput) :
    (h.handleMouseUp l button).deltas = h.deltas := by
  unfold handleMouseUp
  split
  · rfl
  · exact (h.deltas_call (.onMouseUp button)).trans (Deltas.add_zero _)

theorem deltas_handleWheel {l : MouseListeners} (hl : l.options.Sends) (deltaY : Int)
    (h : MouseInput) : (h.handleWheel l deltaY).deltas = h.deltas.add ⟨0, 0, deltaY⟩ := by
  have hcall := (h.deltas_call (.onScroll deltaY)).trans (Deltas.add_zero _)
  unfold handleWheel
  rw [if_neg (by rw [hl.1]; decide), ← hcall]
  unfold deltas Deltas.add call
  rw [Deltas.mk.injEq]
  dsimp only
  omega

end MouseInput

theorem receivedDeltas_of_listening {h : MouseInput} {l : MouseListeners}
    (hl : h.listeners = some l) (e : MouseEvent) : receivedDeltas h e =
      match e with
      | .mousemove movementX movementY => ⟨movementX, movementY, 0⟩
      | .wheel deltaY => ⟨0, 0, deltaY⟩
      | _ => ⟨0, 0, 0⟩ := by
  unfold receivedDeltas
  rw [hl]
  cases e <;> rfl

/-- Every step keeps what it receives, but for the scrolling that it loses. -/
theorem deltas_step {h : MouseInput} {e : MouseEvent} (hs : Sending h)
    (he : ∀ options, e = .render options → options.Sends) :
    (mouseStep h e).deltas =
      (h.deltas.add (receivedDeltas h e)).add ⟨0, 0, -lostScroll h e⟩ := by
  obtain ⟨l, hl, hsends⟩ := hs.listeners
  have hkept (d : Deltas) : (d.add ⟨0, 0, 0⟩).add ⟨0, 0, -0⟩ = d := by
    rw [Deltas.add_zero]
    exact Deltas.add_zero d
  rw [receivedDeltas_of_listening hl]
  cases e with
  | mousemove movementX movementY =>
    unfold mouseStep MouseInput.dispatch lostScroll
    rw [hl]
    dsimp only
    rw [MouseInput.deltas_handleMouseMove hsends, Option.any_some]
    simp only [decide_eq_true_eq]
    rfl
  | mousedown button =>
    unfold mouseStep MouseInput.dispatch
    rw [hl]
    exact (MouseInput.deltas_handleMouseDown l button h).trans (hkept _).symm
  | mouseup button =>
    unfold mouseStep MouseInput.dispatch
    rw [hl]
    exact (MouseInput.deltas_handleMouseUp l button h).trans (hkept _).symm
  | wheel deltaY =>
    unfold mouseStep MouseInput.dispatch
    rw [hl]
    exact (MouseInput.deltas_handleWheel hsends deltaY h).trans (Deltas.add_zero _).symm
  | timer =>
    unfold mouseStep lostScroll
    cases htimer : h.batchTimer with
    | none => exact (hkept _).symm
    | some t =>
      dsimp only
      rw [Deltas.add_zero]
      exact MouseInput.deltas_flushBatch (hs.timer t htimer) h
  | render options =>
    have hrender : (h.render options).deltas = h.deltas := by
      unfold MouseInput.render
      dsimp only
      rw [hl, Option.isSome_some, if_pos rfl, if_pos (he options rfl).1]
      rfl
    exact hrender.trans (hkept _).symm

/-! ## The closures -/

theorem MouseInput.flushBatch_frame (l : MouseListeners) (h : MouseInput) :
    (h.flushBatch l).listeners = h.listeners ∧ (h.flushBatch l).batchTimer = h.batchTimer := by
  unfold flushBatch emit
  dsimp only
  split
  · split
    · exact ⟨rfl, rfl⟩
    · exact ⟨rfl, rfl⟩
  · exact ⟨rfl, rfl⟩

/-- Only a rendering changes the listeners, and only a move sets the timer. -/
theorem MouseInput.handleMouseMove_frame (l : MouseListeners) (x y : Int) (h : MouseInput) :
    (h.handleMouseMove l x y).listeners = h.listeners ∧
      ∀ t, (h.handleMouseMove l x y).batchTimer = some t → t = l ∨ h.batchTimer = some t := by
  unfold handleMouseMove scheduleBatch
  dsimp only
  split
  · exact ⟨rfl, fun t ht => .inr ht⟩
  · split
    · have hframe := flushBatch_frame l { h with accumulatedMovement :=
        (h.accumulatedMovement.1 + x, h.accumulatedMovement.2 + y) }
      exact ⟨hframe.1, fun t ht => .inr (hframe.2.symm.trans ht)⟩
    · split
      · exact ⟨rfl, fun t ht => .inl (Option.some.inj ht).symm⟩
      · exact ⟨rfl, fun t ht => .inr ht⟩

theorem sending_render {options : MouseOptions} (hs : options.Sends) {h : MouseInput}
    (htimer : h.listeners = none → h.batchTimer = none) : Sending (h.render options) := by
  have hnone : (if h.listeners.isSome then { h with batchTimer := none } else h).batchTimer =
      none := by
    split
    · rfl
    · exact htimer (Option.not_isSome_iff_eq_none.mp ‹_›)
  unfold MouseInput.render
  dsimp only
  rw [if_pos hs.1]
  refine ⟨⟨_, rfl, hs⟩, fun l hl => ?_⟩
  dsimp only at hl
  rw [hnone] at hl
  cases hl

theorem sending_step {h : MouseInput} {e : MouseEvent} (hs : Sending h)
    (he : ∀ options, e = .render options → options.Sends) : Sending (mouseStep h e) := by
  obtain ⟨l, hl, hsends⟩ := hs.listeners
  have hsame {h' : MouseInput} (hlisteners : h'.listeners = h.listeners)
      (htimer : h'.batchTimer = h.batchTimer) : Sending h' :=
    ⟨⟨l, hlisteners.trans hl, hsends⟩, fun t ht => hs.timer t (htimer.symm.trans ht)⟩
  cases e with
  | mousemove movementX movementY =>
    obtain ⟨hlisteners, htimer⟩ := MouseInput.handleMouseMove_frame l movementX movementY h
    unfold mouseStep MouseInput.dispatch
    rw [hl]
    refine ⟨⟨l, hlisteners.trans hl, hsends⟩, fun t ht => ?_⟩
    rcases htimer t ht with rfl | hold
    · exact hsends
    · exact hs.timer t hold
  | mousedown button =>
    unfold mouseStep MouseInput.dispatch MouseInput.handleMouseDown
    rw [hl]
    dsimp only
    split
    · exact hs
    · exact hsame rfl rfl
  | mouseup button =>
    unfold mouseStep MouseInput.dispatch MouseInput.handleMouseUp
    rw [hl]
    dsimp only
    split
    · exact hs
    · exact hsame rfl rfl
  | wheel deltaY =>
    unfold mouseStep MouseInput.dispatch MouseInput.handleWheel
    rw [hl]
    dsimp only
    split
    · exact hs
    · exact hsame rfl rfl
  | timer =>
    unfold mouseStep
    cases htimer : h.batchTimer with
    | none => exact hs
    | some t =>
      refine ⟨⟨l, (MouseInput.flushBatch_frame t h).1.trans hl, hsends⟩, fun t' ht' => ?_⟩
      cases ht'
  | render options =>
    exact sending_render (he options rfl) fun hnone => absurd (hnone.symm.trans hl) nofun

/-! ## Runs -/

theorem conserved_step_iff {w : WatchedMouse} {e : MouseEvent} (hs : Sending w.hook)
    (he : SendingStep w e) (hw : w.Conserved) :
    (w.step e).Conserved ↔ lostScroll w.hook e = 0 := by
  unfold WatchedMouse.Conserved at hw
  unfold WatchedMouse.Conserved WatchedMouse.step
  dsimp only
  rw [deltas_step hs he, hw]
  unfold Deltas.add
  rw [Deltas.ext_iff]
  dsimp only
  omega

/-- In a run that stays enabled with a handler for the commands, what has been
received is always sent or in the refs, iff no step loses scrolling: none
flushes scrolling while the movement adds up to nothing. -/
theorem mouse_conserved_iff {options : MouseOptions} {es : List MouseEvent} (hs : options.Sends)
    (hes : Steps WatchedMouse.step SendingStep (.start options) es) :
    Always WatchedMouse.step WatchedMouse.Conserved (.start options) es ↔
      Steps WatchedMouse.step (fun w e => lostScroll w.hook e = 0) (.start options) es := by
  have hstart : Sending (MouseInput.start options) := sending_render hs fun _ => rfl
  have hzero : (WatchedMouse.start options).Conserved := by
    have hrender : MouseInput.start options =
        ⟨some ⟨options, []⟩, [], (0, 0), 0, none, []⟩ := if_pos hs.1
    unfold WatchedMouse.Conserved WatchedMouse.start
    rw [hrender]
    rfl
  exact Machine.always_iff_steps_within (J := fun w => Sending w.hook)
    (fun w e hw he => sending_step hw he) (fun w e hw he hc => conserved_step_iff hw he hc)
    hstart hzero hes

/-- A batch that moves on is conserved. -/
theorem mouse_conserved_batch :
    Always WatchedMouse.step WatchedMouse.Conserved (.start ⟨true, true, 10⟩)
      [.mousemove 1 0, .wheel 3, .mousemove 1 0, .timer] := by
  refine (mouse_conserved_iff ⟨rfl, rfl⟩ ?_).mpr ?_
  · refine ⟨?_, ?_, ?_, ?_, trivial⟩
    all_goals
      intro options h
      cases h
  · refine ⟨?_, ?_, ?_, ?_, trivial⟩
    all_goals decide

/-- A batch that moves and comes back, with scrolling in it. -/
def cancelledBatch : List MouseEvent := [.mousemove 1 0, .wheel 3, .mousemove (-1) 0, .timer]

/-- The timer finds that nothing has moved, and the scrolling is gone. -/
theorem mouse_loses_scroll :
    ¬Always WatchedMouse.step WatchedMouse.Conserved (.start ⟨true, true, 10⟩)
      cancelledBatch := by
  intro h
  have hlast : (Machine.run WatchedMouse.step (.start ⟨true, true, 10⟩) cancelledBatch).hook.deltas =
      (Machine.run WatchedMouse.step (.start ⟨true, true, 10⟩) cancelledBatch).received := h.last
  revert hlast
  decide

end ChainKVM.Console
