import ChainKVM.Lib.Js
import ChainKVM.Lib.Machine

/-!
# Driving by keyboard: `hooks/useKeyboardInput.ts`

The hook keeps the set of the drive keys that are down and emits the command
that they add up to whenever it changes the set in a key handler. It also
changes the set outside the handlers: when input is disabled the set is emptied,
and nothing is emitted. So the last command that was emitted is the one of the
keys that are down as long as input is only disabled while these cancel out
(`keyboard_agrees_iff`).

A step is an event or a rendering together with all it leads to: the updater
that is passed to `setPressedKeys` and the effects have run when it ends.
-/

namespace ChainKVM.Console

open Js (Val)
open Machine (Always Steps)

/-! ## The keys -/

/-- `DriveCommand`. -/
structure DriveCommand where
  v : Int
  w : Int
  deriving DecidableEq, Repr

/-- The command as a value. -/
def DriveCommand.toVal (command : DriveCommand) : Val :=
  .obj [("v", .num (.fin command.v)), ("w", .num (.fin command.w))]

/-- `DRIVE_KEYS`. -/
def driveKeys : List (String × DriveCommand) :=
  [("KeyW", ⟨1, 0⟩), ("KeyS", ⟨-1, 0⟩), ("KeyA", ⟨0, 1⟩), ("KeyD", ⟨0, -1⟩),
    ("ArrowUp", ⟨1, 0⟩), ("ArrowDown", ⟨-1, 0⟩), ("ArrowLeft", ⟨0, 1⟩), ("ArrowRight", ⟨0, -1⟩)]

/-- Whether `DRIVE_KEYS[code]` is truthy. The table is an object, so the names
that it inherits count as drive keys too. -/
def isDriveKey (code : String) : Bool :=
  ((Val.obj (driveKeys.map fun entry => (entry.1, entry.2.toVal))).get code).truthy

example : isDriveKey "toString" = true ∧ isDriveKey "KeyX" = false := by decide

/-- `ESTOP_KEYS`. -/
def estopKeys : List String := ["Space", "Escape"]

/-- The body of the loop of `calculateDriveCommand`. -/
def addCommand (keys : List String) (sum : DriveCommand) (entry : String × DriveCommand) :
    DriveCommand :=
  if entry.1 ∈ keys then ⟨sum.v + entry.2.v, sum.w + entry.2.w⟩ else sum

/-- `calculateDriveCommand`. -/
def calculateDriveCommand (keys : List String) : DriveCommand :=
  let sum := driveKeys.foldl (addCommand keys) ⟨0, 0⟩
  ⟨max (-1) (min 1 sum.v), max (-1) (min 1 sum.w)⟩

/-! ## The hook -/

/-- The callbacks of the hook. -/
inductive KeyboardCall where
  | onKeyDown (code : String)
  | onKeyUp (code : String)
  | onDriveCommand (command : DriveCommand)
  | onEStop
  deriving DecidableEq, Repr

/-- `useKeyboardInput`: the options of the last rendering, the state and the ref
of the hook, and its calls so far. -/
structure KeyboardInput where
  enabled : Bool
  debounceMs : Int
  pressedKeys : List String
  lastCommandTime : Int
  calls : List KeyboardCall

namespace KeyboardInput

/-- The first rendering. -/
def start (enabled : Bool) (debounceMs : Int) : KeyboardInput := ⟨enabled, debounceMs, [], 0, []⟩

def call (h : KeyboardInput) (c : KeyboardCall) : KeyboardInput :=
  { h with calls := h.calls ++ [c] }

/-- The updaters: the next set, and its command. -/
def setPressedKeys (h : KeyboardInput) (next : List String) : KeyboardInput :=
  { h with pressedKeys := next }.call (.onDriveCommand (calculateDriveCommand next))

/-- `handleKeyDown`; `now` is what `Date.now` says, if it is asked. -/
def handleKeyDown (h : KeyboardInput) (code : String) (isRepeat : Bool) (now : Int) :
    KeyboardInput :=
  if !h.enabled then h
  else if code ∈ estopKeys then h.call .onEStop
  else
    let debounced := isRepeat ∧ 0 < h.debounceMs
    if debounced ∧ now - h.lastCommandTime < h.debounceMs then h
    else
      let h := if debounced then { h with lastCommandTime := now } else h
      let h := h.call (.onKeyDown code)
      if isDriveKey code then
        h.setPressedKeys (if code ∈ h.pressedKeys then h.pressedKeys else h.pressedKeys ++ [code])
      else h

/-- `handleKeyUp`. -/
def handleKeyUp (h : KeyboardInput) (code : String) : KeyboardInput :=
  if !h.enabled then h
  else
    let h := h.call (.onKeyUp code)
    if isDriveKey code then h.setPressedKeys (h.pressedKeys.filter fun key => key ≠ code) else h

/-- A rendering with these options, and its effects. -/
def render (h : KeyboardInput) (enabled : Bool) (debounceMs : Int) : KeyboardInput :=
  { h with
    enabled := enabled
    debounceMs := debounceMs
    pressedKeys := if enabled then h.pressedKeys else [] }

end KeyboardInput

/-- What happens to the hook. -/
inductive KeyboardEvent where
  | keydown (code : String) (isRepeat : Bool) (now : Int)
  | keyup (code : String)
  | render (enabled : Bool) (debounceMs : Int)

def keyboardStep (h : KeyboardInput) : KeyboardEvent → KeyboardInput
  | .keydown code isRepeat now => h.handleKeyDown code isRepeat now
  | .keyup code => h.handleKeyUp code
  | .render enabled debounceMs => h.render enabled debounceMs

/-! ## What the keys add up to -/

/-- How many of these keys are down. -/
def held (keys codes : List String) : Nat := codes.countP fun code => code ∈ keys

/-- Every drive key that is down has its counterpart. -/
structure Balanced (keys : List String) : Prop where
  linear : held keys ["KeyW", "ArrowUp"] = held keys ["KeyS", "ArrowDown"]
  angular : held keys ["KeyA", "ArrowLeft"] = held keys ["KeyD", "ArrowRight"]

theorem held_pair (keys : List String) (a b : String) :
    held keys [a, b] = held keys [a] + held keys [b] := by
  show ([a] ++ [b]).countP (fun code => decide (code ∈ keys)) = _
  rw [List.countP_append]
  rfl

/-- A key counts for one or for none. -/
theorem addCommand_eq (keys : List String) (sum : DriveCommand) (code : String)
    (command : DriveCommand) : addCommand keys sum (code, command) =
      ⟨sum.v + held keys [code] * command.v, sum.w + held keys [code] * command.w⟩ := by
  unfold addCommand held
  by_cases hmem : code ∈ keys
  · rw [if_pos hmem, List.countP_cons_of_pos (by simpa using hmem), List.countP_nil]
    show _ = DriveCommand.mk (sum.v + 1 * command.v) (sum.w + 1 * command.w)
    rw [Int.one_mul, Int.one_mul]
  · rw [if_neg hmem, List.countP_cons_of_neg (by simpa using hmem), List.countP_nil]
    show _ = DriveCommand.mk (sum.v + 0 * command.v) (sum.w + 0 * command.w)
    rw [Int.zero_mul, Int.zero_mul, Int.add_zero, Int.add_zero]

theorem calculateDriveCommand_eq (keys : List String) : calculateDriveCommand keys =
    ⟨max (-1) (min 1 ((held keys ["KeyW", "ArrowUp"] : Int) - held keys ["KeyS", "ArrowDown"])),
      max (-1) (min 1 ((held keys ["KeyA", "ArrowLeft"] : Int) -
        held keys ["KeyD", "ArrowRight"]))⟩ := by
  unfold calculateDriveCommand driveKeys
  simp only [List.foldl_cons, List.foldl_nil, addCommand_eq, held_pair]
  rw [DriveCommand.mk.injEq]
  constructor
  · omega
  · omega

/-- The keys add up to a stop iff they cancel out. -/
theorem calculateDriveCommand_eq_stop {keys : List String} :
    calculateDriveCommand keys = ⟨0, 0⟩ ↔ Balanced keys := by
  rw [calculateDriveCommand_eq, DriveCommand.mk.injEq]
  constructor
  · intro h
    exact ⟨by omega, by omega⟩
  · intro h
    have hlinear := h.linear
    have hangular := h.angular
    omega

/-- Both parts of the command are -1, 0 or 1. -/
def DriveCommand.InRange (command : DriveCommand) : Prop :=
  (command.v = -1 ∨ command.v = 0 ∨ command.v = 1) ∧
    (command.w = -1 ∨ command.w = 0 ∨ command.w = 1)

theorem inRange_calculateDriveCommand (keys : List String) :
    (calculateDriveCommand keys).InRange := by
  have hclamp (x : Int) : max (-1) (min 1 x) = -1 ∨ max (-1) (min 1 x) = 0 ∨
      max (-1) (min 1 x) = 1 := by
    omega
  exact ⟨hclamp _, hclamp _⟩

/-! ## What a step does -/

/-- The command of a call. -/
def KeyboardCall.command : KeyboardCall → Option DriveCommand
  | .onDriveCommand command => some command
  | _ => none

namespace KeyboardInput

/-- The last command that was emitted. -/
def lastCommand (h : KeyboardInput) : Option DriveCommand :=
  (h.calls.filterMap KeyboardCall.command).getLast?

theorem lastCommand_call (h : KeyboardInput) {c : KeyboardCall} (hc : c.command = none) :
    (h.call c).lastCommand = h.lastCommand := by
  unfold lastCommand call
  rw [List.filterMap_append, List.filterMap_cons_none hc, List.filterMap_nil, List.append_nil]

theorem lastCommand_setPressedKeys (h : KeyboardInput) (next : List String) :
    (h.setPressedKeys next).lastCommand = some (calculateDriveCommand next) := by
  unfold lastCommand setPressedKeys call
  rw [List.filterMap_append]
  exact List.getLast?_concat

end KeyboardInput

/-- The keys and the last command are as before, or the command of the new keys
has been emitted. -/
def Tracks (h h' : KeyboardInput) : Prop :=
  h'.pressedKeys = h.pressedKeys ∧ h'.lastCommand = h.lastCommand ∨
    h'.lastCommand = some (calculateDriveCommand h'.pressedKeys)

namespace KeyboardInput

theorem tracks_call (h : KeyboardInput) {c : KeyboardCall} (hc : c.command = none) :
    Tracks h (h.call c) :=
  .inl ⟨rfl, h.lastCommand_call hc⟩

theorem tracks_setPressedKeys (h h' : KeyboardInput) (next : List String) :
    Tracks h (h'.setPressedKeys next) :=
  .inr (h'.lastCommand_setPressedKeys next)

theorem tracks_handleKeyDown (h : KeyboardInput) (code : String) (isRepeat : Bool) (now : Int) :
    Tracks h (h.handleKeyDown code isRepeat now) := by
  unfold handleKeyDown
  dsimp only
  by_cases henabled : h.enabled = true
  · rw [henabled, Bool.not_true, if_neg Bool.false_ne_true]
    by_cases hestop : code ∈ estopKeys
    · rw [if_pos hestop]
      exact h.tracks_call rfl
    · rw [if_neg hestop]
      split
      · exact .inl ⟨rfl, rfl⟩
      · by_cases hdrive : isDriveKey code = true
        · rw [if_pos hdrive]
          exact tracks_setPressedKeys h _ _
        · -- the debounce may have moved its time; that is neither a key nor a call
          rw [if_neg hdrive]
          split
          · exact tracks_call { h with lastCommandTime := now } rfl
          · exact h.tracks_call rfl
  · rw [if_pos (by simpa using henabled)]
    exact .inl ⟨rfl, rfl⟩

theorem tracks_handleKeyUp (h : KeyboardInput) (code : String) :
    Tracks h (h.handleKeyUp code) := by
  unfold handleKeyUp
  dsimp only
  by_cases henabled : h.enabled = true
  · rw [henabled, Bool.not_true, if_neg Bool.false_ne_true]
    by_cases hdrive : isDriveKey code = true
    · rw [if_pos hdrive]
      exact tracks_setPressedKeys h _ _
    · rw [if_neg hdrive]
      exact h.tracks_call rfl
  · rw [if_pos (by simpa using henabled)]
    exact .inl ⟨rfl, rfl⟩

end KeyboardInput

/-- Every step does so, but for those that render the hook disabled. -/
theorem tracks_step (h : KeyboardInput) (e : KeyboardEvent) :
    Tracks h (keyboardStep h e) ∨ ∃ ms, e = .render false ms := by
  cases e with
  | keydown code isRepeat now => exact .inl (h.tracks_handleKeyDown code isRepeat now)
  | keyup code => exact .inl (h.tracks_handleKeyUp code)
  | render enabled debounceMs =>
    cases enabled with
    | false => exact .inr ⟨debounceMs, rfl⟩
    | true => exact .inl (.inl ⟨rfl, rfl⟩)

/-! ## Runs -/

/-- The last command is the one of the keys that are down, and in range. -/
def Agrees (h : KeyboardInput) : Prop :=
  ∀ command, h.lastCommand = some command →
    command = calculateDriveCommand h.pressedKeys ∧ command.InRange

/-- Keys are down only if a command has been emitted. -/
def Announced (h : KeyboardInput) : Prop := h.lastCommand = none → h.pressedKeys = []

/-- The step disables the input, or renders it disabled, while keys are down that
do not cancel out. -/
def Abandons (h : KeyboardInput) (e : KeyboardEvent) : Prop :=
  (∃ ms, e = .render false ms) ∧ ¬ Balanced h.pressedKeys

theorem announced_step (h : KeyboardInput) (e : KeyboardEvent) (hann : Announced h) :
    Announced (keyboardStep h e) := by
  intro hnone
  rcases tracks_step h e with (⟨hkeys, hlast⟩ | hlast) | ⟨ms, rfl⟩
  · rw [hkeys]
    rw [hlast] at hnone
    exact hann hnone
  · rw [hlast] at hnone
    cases hnone
  · rfl

theorem Tracks.agrees {h h' : KeyboardInput} (ht : Tracks h h') (hagrees : Agrees h) :
    Agrees h' := by
  intro command hcommand
  rcases ht with ⟨hkeys, hlast⟩ | hlast
  · rw [hlast] at hcommand
    rw [hkeys]
    exact hagrees command hcommand
  · obtain rfl := Option.some.inj (hlast.symm.trans hcommand)
    exact ⟨rfl, inRange_calculateDriveCommand _⟩

/-- Disabling leaves the last command to an empty set of keys. -/
theorem agrees_disabled_iff (h : KeyboardInput) (ms : Int) (hann : Announced h)
    (hagrees : Agrees h) : Agrees (h.render false ms) ↔ Balanced h.pressedKeys := by
  have hlast : (h.render false ms).lastCommand = h.lastCommand := rfl
  rw [← calculateDriveCommand_eq_stop]
  unfold Agrees
  rw [hlast]
  cases hcommand : h.lastCommand with
  | none =>
    -- nothing has been emitted, so no key is down
    rw [hann hcommand]
    refine ⟨fun _ => rfl, fun _ command hnone => ?_⟩
    cases hnone
  | some command =>
    obtain ⟨heq, hrange⟩ := hagrees command hcommand
    rw [← heq]
    refine ⟨fun hall => (hall command rfl).1, fun hstop command' hsome => ?_⟩
    obtain rfl := Option.some.inj hsome
    exact ⟨hstop, hrange⟩

theorem agrees_step_iff (h : KeyboardInput) (e : KeyboardEvent) (hann : Announced h)
    (hagrees : Agrees h) : Agrees (keyboardStep h e) ↔ ¬ Abandons h e := by
  by_cases hoff : ∃ ms, e = .render false ms
  · -- the only steps that change the keys in silence
    have hiff : ¬ Abandons h e ↔ Balanced h.pressedKeys :=
      ⟨fun hno => Classical.not_not.mp fun hb => hno ⟨hoff, hb⟩, fun hb hno => hno.2 hb⟩
    rw [hiff]
    obtain ⟨ms, rfl⟩ := hoff
    exact agrees_disabled_iff h ms hann hagrees
  · have htracks := (tracks_step h e).resolve_right hoff
    exact ⟨fun _ habandons => hoff habandons.1, fun _ => htracks.agrees hagrees⟩

/-- Throughout a run the last command is the one of the keys that are down, iff
input is never disabled while keys are down that do not cancel out. -/
theorem keyboard_agrees_iff (enabled : Bool) (debounceMs : Int) (es : List KeyboardEvent) :
    Always keyboardStep Agrees (.start enabled debounceMs) es ↔
      Steps keyboardStep (fun h e => ¬ Abandons h e) (.start enabled debounceMs) es := by
  refine Machine.always_iff_steps announced_step agrees_step_iff (fun _ => rfl) ?_
  intro command hcommand
  cases hcommand

/-- Input is disabled while the operator drives forward: the last command still
says forward, and no key is down. -/
theorem keyboard_agrees_fails :
    ¬ Always keyboardStep Agrees (.start true 0) [.keydown "KeyW" false 0, .render false 0] := by
  intro h
  have hlast := h.last ⟨1, 0⟩ (by decide)
  have hstop : calculateDriveCommand [] = ⟨1, 0⟩ := hlast.1.symm
  revert hstop
  decide

end ChainKVM.Console
