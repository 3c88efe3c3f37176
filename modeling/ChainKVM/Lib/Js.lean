import ChainKVM.Lib.Json

/-!
# JavaScript values

The values a gateway handler computes with: what `JSON.parse` and decoded
JWTs produce, `undefined`, dates, and the built-in objects that a property
path can run into. Only reading is modelled: property lookup along the
prototype chain, `===`, `includes`, truthiness and the ordering operators.

Numbers are doubles; a finite double is a rational. Two objects are never
`===`: wherever the models compare, one side is a fresh object.
-/

namespace ChainKVM.Js

/-! ## Numbers -/

/-- A double. -/
inductive Num where
  | nan
  | negInf
  | fin (q : Rat)
  | posInf
  deriving DecidableEq, Repr

namespace Num

def neg : Num → Num
  | nan => nan
  | negInf => posInf
  | fin q => fin (-q)
  | posInf => negInf

/-- How two numbers compare; a NaN compares with nothing. -/
def order : Num → Num → Option Ordering
  | nan, _ => none
  | _, nan => none
  | fin p, fin q => some (if p < q then .lt else if p = q then .eq else .gt)
  | negInf, negInf => some .eq
  | posInf, posInf => some .eq
  | negInf, _ => some .lt
  | posInf, _ => some .gt
  | _, posInf => some .lt
  | _, negInf => some .gt

/-- `2 ^ u`. -/
def twoPow (u : Int) : Rat :=
  match u with
  | .ofNat n => ((Nat.pow 2 n : Nat) : Rat)
  | .negSucc n => 1 / ((Nat.pow 2 (n + 1) : Nat) : Rat)

/-- The integer closest to a non-negative rational, the even one of two. -/
def roundHalfEven (q : Rat) : Int :=
  let down := q.floor
  let part := q - down
  if part < 1 / 2 then down
  else if 1 / 2 < part then down + 1
  else if down % 2 = 0 then down
  else down + 1

/-- The double closest to a positive rational: 53 bits of precision, no bit
below `2 ^ -1074`, infinite from the middle above the largest double on. -/
def roundPos (q : Rat) : Num :=
  let guess : Int := (Nat.log2 q.num.natAbs : Int) - (Nat.log2 q.den : Int)
  let exponent := if twoPow guess ≤ q then guess else guess - 1
  let unit := twoPow (if exponent < -1022 then -1074 else exponent - 52)
  let rounded := (roundHalfEven (q / unit) : Rat) * unit
  if twoPow 1024 ≤ rounded then posInf else fin rounded

/-- The double closest to a rational. -/
def ofRat (q : Rat) : Num :=
  if q = 0 then fin 0
  else if 0 < q then roundPos q
  else (roundPos (-q)).neg

end Num

/-! ## Values -/

/-- The built-in prototype objects a path can reach. -/
inductive Proto where
  | object
  | array
  | date
  deriving DecidableEq, Repr

/-- A value. The members of an object are its own properties; its prototype is
`Object.prototype`. A date is valid, in milliseconds; a function is built in
and known by its name. -/
inductive Val where
  | undefined
  | null
  | bool (b : Bool)
  | num (n : Num)
  | str (s : String)
  | arr (items : List Val)
  | obj (members : List (String × Val))
  | date (t : Int)
  | proto (p : Proto)
  | func (name : String)

/-- `ToBoolean`. -/
def Val.truthy : Val → Bool
  | .undefined => false
  | .null => false
  | .bool b => b
  | .num n => n ≠ .nan ∧ n ≠ .fin 0
  | .str s => s ≠ ""
  | _ => true

/-- `a || b`. -/
def Val.or (a b : Val) : Val := if a.truthy then a else b

/-- `a ?? b`. -/
def Val.nullish (a b : Val) : Val :=
  match a with
  | .undefined => b
  | .null => b
  | _ => a

/-- The value, if it is a string. -/
def Val.asString : Val → Option String
  | .str s => some s
  | _ => none

/-- `===`, where the operands are not one and the same object. -/
def Val.strictEq : Val → Val → Bool
  | .undefined, .undefined => true
  | .null, .null => true
  | .bool a, .bool b => a = b
  | .num a, .num b => a = b ∧ a ≠ .nan
  | .str a, .str b => a = b
  | _, _ => false

/-- The comparison of `Array.prototype.includes`: `===`, but a NaN equals
itself. -/
def Val.sameValueZero : Val → Val → Bool
  | .num a, .num b => a = b
  | a, b => a.strictEq b

@[simp] theorem Val.strictEq_str (a : Val) (s : String) : a.strictEq (.str s) = true ↔ a = .str s := by
  cases a <;> simp [Val.strictEq]

/-- `items.includes(v)`. -/
def includes (items : List Val) (v : Val) : Bool := items.any fun item => item.sameValueZero v

/-- `items.includes(v)` for an array of strings. -/
def includesString (items : List String) (v : Val) : Bool :=
  match v with
  | .str s => items.contains s
  | _ => false

/-! ## Properties -/

/-- The methods and constructors found on a prototype object. -/
def Proto.functions : Proto → List (String × String)
  | .object =>
    ("constructor", "Object") ::
      ["hasOwnProperty", "isPrototypeOf", "propertyIsEnumerable", "toLocaleString", "toString",
        "valueOf", "__defineGetter__", "__defineSetter__", "__lookupGetter__",
        "__lookupSetter__"].map fun name => (name, name)
  | .array =>
    ("constructor", "Array") ::
      ["at", "concat", "copyWithin", "entries", "every", "fill", "filter", "find", "findIndex",
        "findLast", "findLastIndex", "flat", "flatMap", "forEach", "includes", "indexOf", "join",
        "keys", "lastIndexOf", "map", "pop", "push", "reduce", "reduceRight", "reverse", "shift",
        "slice", "some", "sort", "splice", "toLocaleString", "toReversed", "toSorted",
        "toSpliced", "toString", "unshift", "values", "with"].map fun name => (name, name)
  | .date =>
    ("constructor", "Date") :: ("toGMTString", "toUTCString") ::
      ["getDate", "getDay", "getFullYear", "getHours", "getMilliseconds", "getMinutes",
        "getMonth", "getSeconds", "getTime", "getTimezoneOffset", "getUTCDate", "getUTCDay",
        "getUTCFullYear", "getUTCHours", "getUTCMilliseconds", "getUTCMinutes", "getUTCMonth",
        "getUTCSeconds", "getYear", "setDate", "setFullYear", "setHours", "setMilliseconds",
        "setMinutes", "setMonth", "setSeconds", "setTime", "setUTCDate", "setUTCFullYear",
        "setUTCHours", "setUTCMilliseconds", "setUTCMinutes", "setUTCMonth", "setUTCSeconds",
        "setYear", "toDateString", "toISOString", "toJSON", "toLocaleDateString",
        "toLocaleString", "toLocaleTimeString", "toString", "toTimeString", "toUTCString",
        "valueOf"].map fun name => (name, name)

/-- The own properties of a prototype object, `__proto__` apart. -/
def Proto.own (p : Proto) (key : String) : Option Val :=
  if p = .array ∧ key = "length" then some (.num (.fin 0))
  else (p.functions.lookup key).map .func

/-- What an object inherits from `p` and the prototypes above it. -/
def Proto.inherited (p : Proto) (key : String) : Option Val :=
  (p.own key).or (Proto.own .object key)

/-- The item a key stands for: an index in canonical decimal. -/
def item (items : List Val) (key : String) : Option Val :=
  match key.toNat? with
  | some n => if toString n = key then items[n]? else none
  | none => none

/-- `Object.getPrototypeOf`. -/
def Val.getPrototypeOf : Val → Val
  | .obj _ => .proto .object
  | .arr _ => .proto .array
  | .date _ => .proto .date
  | .proto .array => .proto .object
  | .proto .date => .proto .object
  | _ => .null

/-- The property a read finds on an object or its prototypes. -/
def Val.find : Val → String → Option Val
  | .obj members, key => (members.lookup key).or (Proto.own .object key)
  | .arr items, key =>
    if key = "length" then some (.num (.fin (items.length : Rat)))
    else (item items key).or (Proto.inherited .array key)
  | .date _, key => Proto.inherited .date key
  | .proto p, key => p.inherited key
  | _, _ => none

/-- `v[key]` for an object `v`. `__proto__` is an accessor that everything
inherits from `Object.prototype`. -/
def Val.get (v : Val) (key : String) : Val :=
  match v.find key with
  | some found => found
  | none => if key = "__proto__" then v.getPrototypeOf else .undefined

/-- `v[key]` for a key that no primitive and no prototype has: an own member
or `undefined`. -/
def Val.member (v : Val) (key : String) : Val :=
  match v with
  | .obj members => (members.lookup key).getD .undefined
  | _ => .undefined

/-- `typeof v === 'object'`, for a `v` that is not null. -/
def Val.isObject : Val → Bool
  | .arr _ => true
  | .obj _ => true
  | .date _ => true
  | .proto _ => true
  | _ => false

/-- `Object.entries(v)`. -/
def Val.entries : Val → List (String × Val)
  | .obj members => members
  | .arr items => items.mapIdx fun n v => (toString n, v)
  | .str s => s.toList.mapIdx fun n c => (toString n, .str (String.singleton c))
  | _ => []

/-- A number is known by its text. -/
theorem toString_inj {m n : Nat} (h : toString m = toString n) : m = n := by
  have hdigits : Nat.toDigits 10 m = Nat.toDigits 10 n := by
    rw [← Nat.toList_repr, ← Nat.toList_repr, ← Nat.toString_eq_repr, ← Nat.toString_eq_repr, h]
  rw [← Nat.ofDigitChars_ten_toDigits (n := m), hdigits, Nat.ofDigitChars_ten_toDigits]

/-! ## Ordering -/

/-- The UTF-16 code units of a string. -/
def utf16 (s : String) : List Nat :=
  s.toList.flatMap fun c =>
    if c.toNat < 65536 then [c.toNat]
    else [55296 + (c.toNat - 65536) / 1024, 56320 + (c.toNat - 65536) % 1024]

/-- White space and line terminators, as `trim` removes them. -/
def isSpace (c : Char) : Bool :=
  [9, 10, 11, 12, 13, 32, 160, 5760, 8232, 8233, 8239, 8287, 12288, 65279].contains c.toNat ||
    (8192 ≤ c.toNat && c.toNat ≤ 8202)

def trim (cs : List Char) : List Char :=
  ((cs.dropWhile isSpace).reverse.dropWhile isSpace).reverse

def digit (c : Char) : Option Nat :=
  if '0' ≤ c ∧ c ≤ '9' then some (c.toNat - '0'.toNat)
  else if 'a' ≤ c ∧ c ≤ 'f' then some (c.toNat - 'a'.toNat + 10)
  else if 'A' ≤ c ∧ c ≤ 'F' then some (c.toNat - 'A'.toNat + 10)
  else none

/-- The value of digits in a radix. -/
def digits (radix : Nat) (cs : List Char) : Option Nat :=
  cs.foldl (fun acc c => do
    let value ← acc
    let d ← digit c
    if d < radix then some (value * radix + d) else none) (some 0)

/-- A decimal exponent: nothing, or `e` with a sign and digits. -/
def exponentPart : List Char → Option Int
  | [] => some 0
  | e :: cs =>
    if e = 'e' ∨ e = 'E' then
      match cs with
      | '+' :: ds => if ds.isEmpty then none else (digits 10 ds).map Int.ofNat
      | '-' :: ds => if ds.isEmpty then none else (digits 10 ds).map fun n => -Int.ofNat n
      | ds => if ds.isEmpty then none else (digits 10 ds).map Int.ofNat
    else none

/-- An unsigned decimal literal. -/
def decimal (cs : List Char) : Option Rat :=
  let whole := cs.takeWhile Char.isDigit
  let rest := cs.drop whole.length
  let fraction := if rest.head? = some '.' then (rest.drop 1).takeWhile Char.isDigit else []
  let tail := if rest.head? = some '.' then (rest.drop 1).drop fraction.length else rest
  if whole.isEmpty && fraction.isEmpty then none
  else do
    let mantissa ← digits 10 (whole ++ fraction)
    let e ← exponentPart tail
    match e - fraction.length with
    | .ofNat n => some ((mantissa * Nat.pow 10 n : Nat) : Rat)
    | .negSucc n => some ((mantissa : Rat) / ((Nat.pow 10 (n + 1) : Nat) : Rat))

/-- A literal without its sign. -/
def unsigned (cs : List Char) : Num :=
  if cs = "Infinity".toList then .posInf
  else
    match decimal cs with
    | some q => Num.ofRat q
    | none => .nan

/-- A literal in a radix, after its prefix. -/
def radixLiteral (radix : Nat) (cs : List Char) : Num :=
  if cs.isEmpty then .nan
  else
    match digits radix cs with
    | some n => Num.ofRat (n : Rat)
    | none => .nan

/-- `StringToNumber`. -/
def stringToNumber (s : String) : Num :=
  match trim s.toList with
  | [] => .fin 0
  | '0' :: 'x' :: cs => radixLiteral 16 cs
  | '0' :: 'X' :: cs => radixLiteral 16 cs
  | '0' :: 'o' :: cs => radixLiteral 8 cs
  | '0' :: 'O' :: cs => radixLiteral 8 cs
  | '0' :: 'b' :: cs => radixLiteral 2 cs
  | '0' :: 'B' :: cs => radixLiteral 2 cs
  | '+' :: cs => unsigned cs
  | '-' :: cs => (unsigned cs).neg
  | cs => unsigned cs

/-! ### Texts -/

/-- How many places the point of a positive rational below 1 has to move for
it to reach 1. -/
def placesBelow (q : Rat) : Nat → Nat
  | 0 => 0
  | fuel + 1 => if 1 ≤ q then 0 else placesBelow (q * 10) fuel + 1

/-- The `n` with `10 ^ (n - 1) ≤ q < 10 ^ n`, for the positive doubles. -/
def magnitude (q : Rat) : Int :=
  if 1 ≤ q then (toString q.floor).length else 1 - placesBelow q 400

/-- `10 ^ u`. -/
def tenPow (u : Int) : Rat :=
  match u with
  | .ofNat n => ((Nat.pow 10 n : Nat) : Rat)
  | .negSucc n => 1 / ((Nat.pow 10 (n + 1) : Nat) : Rat)

/-- The fewest digits, `k` or more, that give back the double, and where its
point stands. -/
def shortest (q : Rat) (n : Int) (k : Nat) : Nat → String × Int
  | 0 => (toString q.floor, n)
  | fuel + 1 =>
    let s := Num.roundHalfEven (q / tenPow (n - k))
    if Num.ofRat ((s : Rat) * tenPow (n - k)) = .fin q then
      let text := toString s
      let kept := (text.toList.reverse.dropWhile (· = '0')).reverse
      (String.ofList kept, n + (text.length - k))
    else shortest q n (k + 1) fuel

def zeros (n : Nat) : String := String.ofList (List.replicate n '0')

/-- The layout of `Number::toString`: digits `ds` with the point after the
`n`-th. -/
def layout (ds : String) (n : Int) : String :=
  let k : Int := ds.length
  if k ≤ n ∧ n ≤ 21 then ds ++ zeros (n - k).toNat
  else if 0 < n ∧ n ≤ 21 then
    String.ofList (ds.toList.take n.toNat) ++ "." ++ String.ofList (ds.toList.drop n.toNat)
  else if -6 < n ∧ n ≤ 0 then "0." ++ zeros (-n).toNat ++ ds
  else
    let sign := if 0 ≤ n - 1 then "+" else "-"
    let fraction := if k = 1 then "" else "." ++ String.ofList (ds.toList.drop 1)
    String.ofList (ds.toList.take 1) ++ fraction ++ "e" ++ sign ++ toString (n - 1).natAbs

def positiveText (q : Rat) : String :=
  let (ds, n) := shortest q (magnitude q) 1 17
  layout ds n

/-- `Number::toString`. -/
def numberText : Num → String
  | .nan => "NaN"
  | .negInf => "-Infinity"
  | .posInf => "Infinity"
  | .fin q =>
    if q = 0 then "0" else if 0 < q then positiveText q else "-" ++ positiveText (-q)

/-- A number in decimal, with zeros in front up to a width. -/
def padded (width n : Nat) : String := zeros (width - (toString n).length) ++ toString n

/-- The civil date of a number of days after 1970-01-01: year, month, day. -/
def civil (days : Int) : Int × Nat × Nat :=
  -- the year starts in March, so that the leap day is its last
  let z := days + 719468
  let dayOfEra := z % 146097
  let yearOfEra := (dayOfEra - dayOfEra / 1460 + dayOfEra / 36524 - dayOfEra / 146096) / 365
  let dayOfYear := dayOfEra - (365 * yearOfEra + yearOfEra / 4 - yearOfEra / 100)
  let monthIndex := (5 * dayOfYear + 2) / 153
  let day := dayOfYear - (153 * monthIndex + 2) / 5 + 1
  let month := if monthIndex < 10 then monthIndex + 3 else monthIndex - 9
  let year := yearOfEra + z / 146097 * 400 + if month ≤ 2 then 1 else 0
  (year, month.toNat, day.toNat)

/-- `toISOString` of a valid date. -/
def isoString (t : Int) : String :=
  let (year, month, day) := civil (t / 86400000)
  let ms := (t % 86400000).toNat
  let yearText :=
    if 0 ≤ year ∧ year ≤ 9999 then padded 4 year.toNat
    else (if 0 ≤ year then "+" else "-") ++ padded 6 year.natAbs
  yearText ++ "-" ++ padded 2 month ++ "-" ++ padded 2 day ++ "T" ++
    padded 2 (ms / 3600000) ++ ":" ++ padded 2 (ms / 60000 % 60) ++ ":" ++
    padded 2 (ms / 1000 % 60) ++ "." ++ padded 3 (ms % 1000) ++ "Z"

/-- The text of a primitive item of an array that is joined. -/
def itemText : Val → String
  | .bool b => if b then "true" else "false"
  | .num n => numberText n
  | .str s => s
  | _ => ""

/-- The source text of a built-in function. -/
def nativeText (name : String) : String :=
  "function " ++ name ++ "() \x7b [native code] \x7d"

mutual

/-- `ToPrimitive`; `none` when it throws. An object with a member named
`toString` has no method left that could convert it. A date is its time: it is
never an item of an array, where it would be a text. -/
def Val.toPrimitive : Val → Option Val
  | .arr items => (joinItems items).map fun texts => .str (String.intercalate "," texts)
  | .obj members =>
    if (members.lookup "toString").isSome then none else some (.str "[object Object]")
  | .date t => some (.num (.fin (t : Rat)))
  | .proto .object => some (.str "[object Object]")
  | .proto .array => some (.str "")
  | .proto .date => none
  | .func name => some (.str (nativeText name))
  | .undefined => some .undefined
  | .null => some .null
  | .bool b => some (.bool b)
  | .num n => some (.num n)
  | .str s => some (.str s)

/-- The texts that `join` puts together. -/
def joinItems : List Val → Option (List String)
  | [] => some []
  | v :: vs => do
    let p ← v.toPrimitive
    let texts ← joinItems vs
    some (itemText p :: texts)

end

mutual

/-- Nothing in the value keeps it from being converted: no object with a member
named `toString`, on its own or in an array. -/
def Val.converts : Val → Bool
  | .arr items => allConvert items
  | .obj members => (members.lookup "toString").isNone
  | .proto p => p ≠ .date
  | _ => true

/-- All the items convert. -/
def allConvert : List Val → Bool
  | [] => true
  | v :: vs => v.converts && allConvert vs

end

mutual

theorem Val.toPrimitive_isSome : ∀ v : Val, v.toPrimitive.isSome = v.converts
  | .arr items => by
    unfold Val.toPrimitive Val.converts
    rw [Option.isSome_map, joinItems_isSome items]
  | .obj members => by
    unfold Val.toPrimitive Val.converts
    cases members.lookup "toString" <;> rfl
  | .proto .object => rfl
  | .proto .array => rfl
  | .proto .date => rfl
  | .undefined => rfl
  | .null => rfl
  | .bool _ => rfl
  | .num _ => rfl
  | .str _ => rfl
  | .date _ => rfl
  | .func _ => rfl

theorem joinItems_isSome : ∀ items : List Val, (joinItems items).isSome = allConvert items
  | [] => rfl
  | v :: vs => by
    have hv := v.toPrimitive_isSome
    have hvs := joinItems_isSome vs
    unfold joinItems allConvert
    rw [← hv, ← hvs]
    cases v.toPrimitive with
    | none => rfl
    | some p => cases joinItems vs <;> rfl

end

/-- `ToNumber` of a primitive. -/
def Val.toNumber : Val → Num
  | .null => .fin 0
  | .bool b => .fin (if b then 1 else 0)
  | .num n => n
  | .str s => stringToNumber s
  | _ => .nan

/-- `new Date(v * 1000)`, if that is a valid date. -/
def dateOfSeconds (v : Val) : Option Int :=
  match v.toPrimitive.map Val.toNumber with
  | some (.fin q) =>
    match Num.ofRat (q * 1000) with
    | .fin ms =>
      let t := if 0 ≤ ms then ms.floor else -((-ms).floor)
      if t.natAbs ≤ 8640000000000000 then some t else none
    | _ => none
  | _ => none

/-- How two strings compare: by their code units. -/
def orderUnits : List Nat → List Nat → Ordering
  | [], [] => .eq
  | [], _ :: _ => .lt
  | _ :: _, [] => .gt
  | a :: as, b :: bs => if a < b then .lt else if b < a then .gt else orderUnits as bs

/-- How two values compare under `<`, `>`, `<=` and `>=`: `none` when the
comparison throws, `some none` when it is false either way. -/
def Val.order (a b : Val) : Option (Option Ordering) := do
  let pa ← a.toPrimitive
  let pb ← b.toPrimitive
  match pa, pb with
  | .str s, .str t => some (some (orderUnits (utf16 s) (utf16 t)))
  | pa, pb => some (pa.toNumber.order pb.toNumber)

/-! ## JSON -/

mutual

/-- What `JSON.stringify` writes; `none` for what it leaves out. -/
def Val.toJson : Val → Option Json
  | .undefined => none
  | .null => some .null
  | .bool b => some (.bool b)
  | .num (.fin q) => some (.num q)
  | .num _ => some .null
  | .str s => some (.str s)
  | .arr items => some (.arr (itemsToJson items))
  | .obj members => some (.obj (membersToJson members))
  | .date t => some (.str (isoString t))
  | .proto .array => some (.arr [])
  | .proto _ => some (.obj [])
  | .func _ => none

/-- The items of an array: one that is left out is null. -/
def itemsToJson : List Val → List Json
  | [] => []
  | v :: vs => v.toJson.getD .null :: itemsToJson vs

/-- The members of an object. -/
def membersToJson : List (String × Val) → Json.Members
  | [] => []
  | (name, v) :: members =>
    match v.toJson with
    | some json => (name, json) :: membersToJson members
    | none => membersToJson members

end

theorem itemsToJson_map_str (items : List String) :
    itemsToJson (items.map Val.str) = items.map Json.str := by
  induction items with
  | nil => rfl
  | cons item items ih =>
    rw [List.map_cons, List.map_cons, ← ih]
    rfl

end ChainKVM.Js
