import ChainKVM.Robot.Protocol
import ChainKVM.Robot.Signaling

/-!
# Decoding a message: `encoding/json` on the structs of `pkg/protocol`

`json.Unmarshal` first scans the text, and a text that is no JSON is an error
before anything is decoded. The scanner is a parameter (`text`): it gives the
value a text stands for, with the numbers as they are written, since a number
is only read when its field is known.

A struct is decoded member by member. A member belongs to a field by its name
or its folded name; a later one replaces an earlier one; `null` leaves a field
as it is; a value that does not fit the type of its field is an error, also
where the code never looks at the field.
-/

namespace ChainKVM.Robot

/-- A JSON value as it is written. -/
inductive Wire where
  | null
  | bool (b : Bool)
  | number (literal : String)
  | string (s : String)
  | array (items : List Wire)
  | object (members : List (String × Wire))

namespace Wire

/-- The field, of those with the given names, that a member's key stands
for. -/
def fieldOf (names : List String) (key : String) : Option String :=
  match names.find? fun name => name = key with
  | some name => some name
  | none => names.find? fun name => SignalField.foldName name = SignalField.foldName key

/-- Decoding a string into a field that holds `old`. -/
def decodeString (old : String) : Wire → Option String
  | .string s => some s
  | .null => some old
  | _ => none

/-- `strconv.ParseInt(s, 10, 64)`. -/
def parseInt (literal : String) : Option Int := do
  let n ← match literal.toList with
    | [] => none
    | '-' :: ds => if ds.isEmpty then none else (Js.digits 10 ds).map fun n => -Int.ofNat n
    | '+' :: ds => if ds.isEmpty then none else (Js.digits 10 ds).map Int.ofNat
    | ds => (Js.digits 10 ds).map Int.ofNat
  if -9223372036854775808 ≤ n ∧ n ≤ 9223372036854775807 then some n else none

/-- Decoding an `int64` into a field that holds `old`. -/
def decodeInt64 (old : Int) : Wire → Option Int
  | .number literal => parseInt literal
  | .null => some old
  | _ => none

/-- Decoding one member of a struct whose fields are set by `set`. -/
def setMember {S : Type} (names : List String) (set : S → String → Wire → Option S) (s : S)
    (member : String × Wire) : Option S :=
  match fieldOf names member.1 with
  | none => some s
  | some field => set s field member.2

/-- `json.Unmarshal` into a struct that starts as `zero`. -/
def decodeStruct {S : Type} (names : List String) (set : S → String → Wire → Option S) (zero : S) :
    Wire → Option S
  | .null => some zero
  | .object members => members.foldlM (setMember names set) zero
  | _ => none

/-- A struct decodes iff every member that has a field fits it, when what fits
does not depend on the struct. -/
theorem isSome_foldlM {S : Type} {names : List String} {set : S → String → Wire → Option S}
    {fits : String → Wire → Prop} (hset : ∀ s field v, (set s field v).isSome ↔ fits field v)
    (members : List (String × Wire)) (s : S) :
    (members.foldlM (setMember names set) s).isSome ↔
      ∀ m ∈ members, ∀ field, fieldOf names m.1 = some field → fits field m.2 := by
  -- over the members; what is set before does not matter for what fits
  induction members generalizing s with
  | nil => simp
  | cons m ms ih =>
    have hstep : setMember names set s m = (match fieldOf names m.1 with
        | none => some s
        | some field => set s field m.2) := rfl
    rw [List.foldlM_cons, List.forall_mem_cons, hstep]
    cases hfield : fieldOf names m.1 with
    | none => exact (ih s).trans ⟨fun h => ⟨fun _ hf => (by cases hf), h⟩, And.right⟩
    | some field =>
      dsimp only
      cases hm : set s field m.2 with
      | none =>
        have hnot : ¬ fits field m.2 := fun h => by
          have hsome := (hset s field m.2).mpr h
          rw [hm] at hsome
          cases hsome
        exact ⟨fun h => (by cases h), fun h => absurd (h.1 field rfl) hnot⟩
      | some s' =>
        have hfits : fits field m.2 := (hset s field m.2).mp (by rw [hm]; rfl)
        refine (ih s').trans ⟨fun h => ⟨?_, h⟩, And.right⟩
        rintro _ ⟨⟩
        exact hfits

/-! ## The messages -/

/-- `MessageType(s)`. -/
def messageType (s : String) : MessageType :=
  if s = "auth" then .auth
  else if s = "auth_ok" then .authOK
  else if s = "auth_err" then .authErr
  else if s = "drive" then .drive
  else if s = "kvm_key" then .kvmKey
  else if s = "kvm_mouse" then .kvmMouse
  else if s = "e_stop" then .eStop
  else if s = "ping" then .ping
  else if s = "pong" then .pong
  else if s = "frame_timestamp" then .frameTimestamp
  else if s = "ack" then .ack
  else if s = "error" then .error
  else if s = "state" then .state
  else .other s

/-- The field of `BaseMessage`. -/
def setBase (type : String) (_field : String) (v : Wire) : Option String := decodeString type v

/-- `json.Unmarshal` into a `BaseMessage`. -/
def unmarshalBase (v : Wire) : Option MessageType :=
  (decodeStruct ["type"] setBase "" v).map messageType

/-- The fields of `EStopMessage`, of which the type is not looked at again. -/
def setEStop (m : String × EStopMessage) (field : String) (v : Wire) :
    Option (String × EStopMessage) :=
  if field = "type" then (decodeString m.1 v).map fun type => (type, m.2)
  else (decodeInt64 m.2.t v).map fun t => (m.1, ⟨t⟩)

/-- `json.Unmarshal` into an `EStopMessage`. -/
def unmarshalEStop (v : Wire) : Option EStopMessage :=
  (decodeStruct ["type", "t"] setEStop ("", ⟨0⟩) v).map Prod.snd

/-- The decoder that scans with `text` and decodes these two messages as above;
the others are decoded as given. -/
def decoder (text : Bytes → Option Wire) (others : Decoder) : Decoder :=
  { others with
    base := fun data => (text data).bind unmarshalBase
    eStop := fun data => (text data).bind unmarshalEStop }

end Wire

end ChainKVM.Robot
