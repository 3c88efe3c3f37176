/-!
# JSON values

The values that JSON texts stand for, with the assertions by which Go code
takes a decoded one apart. Numbers are rationals: a JSON number that a decoder
accepts is a finite double, and a finite double is a rational. Decoding text is
not modelled here; the code's decoders are parameters of the models that use
them.
-/

namespace ChainKVM

/-- A decoded JSON value. Object members are in document order. -/
inductive Json where
  | null
  | bool (b : Bool)
  | num (q : Rat)
  | str (s : String)
  | arr (items : List Json)
  | obj (members : List (String × Json))

namespace Json

/-- The members of an object: keys to values. -/
abbrev Members := List (String × Json)

/-- Go's `v.(string)`. -/
def asString : Json → Option String
  | .str s => some s
  | _ => none

/-- Go's `v.(float64)`. -/
def asNumber : Json → Option Rat
  | .num q => some q
  | _ => none

/-- Go's `v.([]any)`. -/
def asArray : Json → Option (List Json)
  | .arr items => some items
  | _ => none

end Json

end ChainKVM
