import ChainKVM.Robot.Protocol

/-!
# Command validation: `internal/control/validator.go`

A validator answers `none` where the Go method returns nil.
-/

namespace ChainKVM.Robot

/-- The `Message` of a validation error: a fixed text, or the text
`command is stale (age: ...)` with the age it shows. -/
inductive ValidationMessage where
  | text (s : String)
  | stale (age : Duration)
  deriving DecidableEq, Repr

/-- `ValidationError`. -/
structure ValidationError where
  code : String
  message : ValidationMessage
  field : String
  deriving DecidableEq, Repr

/-- `Validator`. -/
structure Validator where
  staleThreshold : Duration
  deriving DecidableEq, Repr

namespace Validator

/-- `checkStale`. A timestamp in the future has a negative age and passes. -/
def checkStale (v : Validator) (now : Time) (t : Int) : Option ValidationError :=
  if t = 0 then some ⟨"INVALID_TIMESTAMP", .text "timestamp is required", "t"⟩
  else
    let age := sub now (unixMilli t)
    if v.staleThreshold < age then some ⟨"STALE_COMMAND", .stale age, "t"⟩ else none

/-- `ValidateDrive`. -/
def validateDrive (v : Validator) (now : Time) (msg : DriveMessage) : Option ValidationError :=
  match v.checkStale now msg.t with
  | some err => some err
  | none =>
    if msg.v < -1 ∨ 1 < msg.v then
      some ⟨"OUT_OF_RANGE", .text "linear velocity must be in range [-1, 1]", "v"⟩
    else if msg.w < -1 ∨ 1 < msg.w then
      some ⟨"OUT_OF_RANGE", .text "angular velocity must be in range [-1, 1]", "w"⟩
    else none

/-- `ValidateKVMKey`. -/
def validateKVMKey (v : Validator) (now : Time) (msg : KVMKeyMessage) : Option ValidationError :=
  match v.checkStale now msg.t with
  | some err => some err
  | none =>
    if msg.key = "" then some ⟨"MISSING_FIELD", .text "key is required", "key"⟩
    else if msg.action ≠ "down" ∧ msg.action ≠ "up" then
      some ⟨"INVALID_VALUE", .text "action must be 'down' or 'up'", "action"⟩
    else none

/-- `ValidateKVMMouse`: nothing but the timestamp is checked. -/
def validateKVMMouse (v : Validator) (now : Time) (msg : KVMMouseMessage) :
    Option ValidationError :=
  v.checkStale now msg.t

/-- `ValidateEStop`: always valid. -/
def validateEStop (_ : Validator) (_ : EStopMessage) : Option ValidationError := none

end Validator

end ChainKVM.Robot
