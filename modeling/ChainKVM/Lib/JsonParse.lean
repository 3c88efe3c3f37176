import ChainKVM.Lib.JsonText
import Mathlib.Data.List.TakeWhile

/-!
# Reading JSON texts

`JSON.parse`. The parser goes down the text with fuel, a step for each value, for
each item and for each member. `ReadsValue`, `ReadsItems` and `ReadsMembers` are
the ways that the steps can go, and every fact about the parser is an induction
over them.

What is read does not depend on what follows (`reads_append`), but for a number
that stands at the very end. So the text of an array that is cut off is no text
(`parse_cut`), nor is one that ends in something else (`parse_spoiled`). A
program that may die while it writes such a text can rely on that.

Strings are read as code units. A lone surrogate, which no string of this model
can hold, is read as the replacement character. The members of an object stand in
the order of the text, those whose names are integers too.
-/

namespace ChainKVM.Json

open Js (Val isNumberChar)

/-! ## Characters -/

/-- JSON's white space. -/
def isSpace (c : Char) : Bool := c = ' ' || c = '\n' || c = '\t' || c = '\r'

/-- What follows the white space. -/
def skip (cs : List Char) : List Char := cs.dropWhile isSpace

/-- The value of a hexadecimal digit. -/
def hexValue (c : Char) : Option Nat :=
  if c.isDigit then some (c.toNat - 48)
  else if 97 ≤ c.toNat ∧ c.toNat ≤ 102 then some (c.toNat - 87)
  else if 65 ≤ c.toNat ∧ c.toNat ≤ 70 then some (c.toNat - 55)
  else none

/-- The four digits after `\u`. -/
def hex (a b c d : Char) : Option Nat := do
  let a ← hexValue a
  let b ← hexValue b
  let c ← hexValue c
  let d ← hexValue d
  return ((a * 16 + b) * 16 + c) * 16 + d

/-- The code unit that a short escape stands for. -/
def unescape (e : Char) : Option Nat :=
  if e = '/' then some 47 else (shortEscapes.find? fun p => p.2 = e).map Prod.fst

/-- A code unit on its own. -/
def ofUnit (n : Nat) : Char := if n.isValidChar then Char.ofNat n else Char.ofNat 0xfffd

/-- The characters of a sequence of code units. A character above them, read as
it is, counts as one unit. -/
def ofUnits : List Nat → List Char
  | high :: low :: ns =>
    if 0xd800 ≤ high ∧ high < 0xdc00 ∧ 0xdc00 ≤ low ∧ low < 0xe000 then
      Char.ofNat (0x10000 + (high - 0xd800) * 1024 + (low - 0xdc00)) :: ofUnits ns
    else ofUnit high :: ofUnits (low :: ns)
  | [n] => [ofUnit n]
  | [] => []

/-- What stands in a string up to its closing quote, and what follows that. -/
def body : List Char → Option (List Char × List Char)
  | [] => none
  | '"' :: cs => some ([], cs)
  | '\\' :: e :: cs => (body cs).map fun p => ('\\' :: e :: p.1, p.2)
  | c :: cs => (body cs).map fun p => (c :: p.1, p.2)

/-- The code units of what stands in a string. -/
def decode : List Char → Option (List Nat)
  | [] => some []
  | '\\' :: 'u' :: a :: b :: c :: d :: cs => do
    let n ← hex a b c d
    let ns ← decode cs
    return n :: ns
  | '\\' :: e :: cs => do
    let n ← unescape e
    let ns ← decode cs
    return n :: ns
  | c :: cs =>
    if c.toNat < 32 ∨ c = '\\' then none else (decode cs).map fun ns => c.toNat :: ns

/-- A string after its opening quote, and what follows it. -/
def string (cs : List Char) : Option (String × List Char) :=
  match body cs with
  | none => none
  | some (inside, rest) => (decode inside).map fun ns => (String.ofList (ofUnits ns), rest)

/-! ## Numbers and names -/

/-- The characters of a numeral. -/
def isNumeralChar (c : Char) : Bool := isNumberChar c || c = 'E'

/-- Whether it is one, as JSON has them. -/
def isNumeral (cs : List Char) : Bool :=
  let body := if cs.head? = some '-' then cs.drop 1 else cs
  let whole := body.takeWhile Char.isDigit
  let rest := body.drop whole.length
  let fraction := (rest.drop 1).takeWhile Char.isDigit
  let tail := if rest.head? = some '.' then (rest.drop 1).drop fraction.length else rest
  !whole.isEmpty && (whole.length = 1 || whole.head? ≠ some '0') &&
    (rest.head? ≠ some '.' || !fraction.isEmpty) && (Js.exponentPart tail).isSome

/-- The number of a numeral. -/
def numeral (cs : List Char) : Option Js.Num :=
  if isNumeral cs then some (Js.readText cs) else none

def number (cs : List Char) : Option (Val × List Char) :=
  (numeral (cs.takeWhile isNumeralChar)).map fun n => (.num n, cs.dropWhile isNumeralChar)

/-- One of the names, after its first character. -/
def name (word : List Char) (v : Val) (cs : List Char) : Option (Val × List Char) :=
  if word.isPrefixOf cs then some (v, cs.drop word.length) else none

/-- A value that is neither an array nor an object. -/
def scalar : List Char → Option (Val × List Char)
  | [] => none
  | c :: cs =>
    if c = '"' then (string cs).map fun p => (.str p.1, p.2)
    else if c = 't' then name "rue".toList (.bool true) cs
    else if c = 'f' then name "alse".toList (.bool false) cs
    else if c = 'n' then name "ull".toList .null cs
    else number (c :: cs)

/-! ## Values -/

/-- A member that is there already is overwritten. -/
def put (members : List (String × Val)) (key : String) (v : Val) : List (String × Val) :=
  if members.any fun m => m.1 = key then
    members.map fun m => if m.1 = key then (key, v) else m
  else members ++ [(key, v)]

/-- What follows a mark, if it comes next. -/
def mark (c : Char) (cs : List Char) : Option (List Char) :=
  match skip cs with
  | [] => none
  | d :: ds => if d = c then some ds else none

/-- The name of a member, and what follows its colon. -/
def key (cs : List Char) : Option (String × List Char) :=
  match mark '"' cs with
  | none => none
  | some cs =>
    match string cs with
    | none => none
    | some (name, cs) => (mark ':' cs).map fun cs => (name, cs)

mutual

/-- A value, and what follows it. -/
def value : Nat → List Char → Option (Val × List Char)
  | 0, _ => none
  | n + 1, cs =>
    match mark '[' cs with
    | some cs =>
      match mark ']' cs with
      | some rest => some (.arr [], rest)
      | none => (items n cs).map fun p => (.arr p.1, p.2)
    | none =>
      match mark '\x7b' cs with
      | some cs =>
        match mark '\x7d' cs with
        | some rest => some (.obj [], rest)
        | none => (members n [] cs).map fun p => (.obj p.1, p.2)
      | none => scalar (skip cs)

/-- The items of an array from the next one on, and what follows the array. -/
def items : Nat → List Char → Option (List Val × List Char)
  | 0, _ => none
  | n + 1, cs =>
    match value n cs with
    | none => none
    | some (v, cs) =>
      match mark ',' cs with
      | some cs => (items n cs).map fun p => (v :: p.1, p.2)
      | none => (mark ']' cs).map fun rest => ([v], rest)

/-- The members of an object, after those that have been read. -/
def members : Nat → List (String × Val) → List Char → Option (List (String × Val) × List Char)
  | 0, _, _ => none
  | n + 1, acc, cs =>
    match key cs with
    | none => none
    | some (name, cs) =>
      match value n cs with
      | none => none
      | some (v, cs) =>
        match mark ',' cs with
        | some cs => members n (put acc name v) cs
        | none => (mark '\x7d' cs).map fun rest => (put acc name v, rest)

end

/-- `JSON.parse`; `none` when it throws. -/
def parse (text : String) : Option Val :=
  match value (2 * text.toList.length) text.toList with
  | some (v, rest) => if skip rest = [] then some v else none
  | none => none

/-! ## What follows a text -/

/-- More can follow what does not end in white space. -/
theorem skip_append {cs : List Char} (h : skip cs ≠ []) (u : List Char) :
    skip (cs ++ u) = skip cs ++ u := by
  unfold skip at h ⊢
  rw [List.dropWhile_append, if_neg]
  rwa [List.isEmpty_iff]

theorem skip_suffix (cs : List Char) : skip cs <:+ cs := List.dropWhile_suffix _

theorem skip_of_mark {c : Char} {cs ds : List Char} (h : mark c cs = some ds) :
    skip cs = c :: ds := by
  unfold mark at h
  split at h
  next => cases h
  next hskip =>
    split at h
    next heq =>
      cases h
      rw [hskip, heq]
    next => cases h

theorem skip_ne_of_mark {c : Char} {cs ds : List Char} (h : mark c cs = some ds) :
    skip cs ≠ [] := by
  rw [skip_of_mark h]
  exact List.cons_ne_nil c ds

theorem mark_of_skip {c d : Char} {cs ds : List Char} (h : skip cs = d :: ds) :
    mark c cs = if d = c then some ds else none := by
  unfold mark
  rw [h]

theorem mark_append {c : Char} {cs ds : List Char} (h : mark c cs = some ds) (u : List Char) :
    mark c (cs ++ u) = some (ds ++ u) := by
  have hskip := skip_append (skip_ne_of_mark h) u
  rw [skip_of_mark h, List.cons_append] at hskip
  rw [mark_of_skip hskip, if_pos rfl]

theorem mark_none_append {c : Char} {cs : List Char} (h : mark c cs = none) (hne : skip cs ≠ [])
    (u : List Char) : mark c (cs ++ u) = none := by
  obtain ⟨d, ds, hd⟩ := List.exists_cons_of_ne_nil hne
  rw [mark_of_skip hd] at h
  have hskip := skip_append hne u
  rw [hd, List.cons_append] at hskip
  rw [mark_of_skip hskip, if_neg]
  intro heq
  rw [if_pos heq] at h
  cases h

theorem mark_suffix {c : Char} {cs ds : List Char} (h : mark c cs = some ds) : c :: ds <:+ cs := by
  rw [← skip_of_mark h]
  exact skip_suffix cs

theorem body_append {cs inside rest : List Char} (h : body cs = some (inside, rest))
    (u : List Char) : body (cs ++ u) = some (inside, rest ++ u) := by
  induction cs using body.induct generalizing inside with
  | case1 => cases h
  | case2 cs =>
    cases h
    rfl
  | case3 e cs ih =>
    rw [body] at h
    obtain ⟨⟨inside', rest'⟩, hbody, heq⟩ := Option.map_eq_some_iff.mp h
    cases heq
    rw [List.cons_append, List.cons_append, body, ih hbody]
    rfl
  | case4 c cs hquote hescape ih =>
    rw [body.eq_4 c cs hquote hescape] at h
    obtain ⟨⟨inside', rest'⟩, hbody, heq⟩ := Option.map_eq_some_iff.mp h
    cases heq
    -- the backslash that would be read on into what follows stands at an end
    have hescape' : ∀ (e : Char) (ds : List Char), c = '\\' → cs ++ u = e :: ds → False := by
      intro e ds hc _
      cases cs with
      | nil => cases hbody
      | cons d cs => exact hescape d cs hc rfl
    rw [List.cons_append, body.eq_4 c (cs ++ u) hquote hescape', ih hbody]
    rfl

theorem body_suffix {cs inside rest : List Char} (h : body cs = some (inside, rest)) :
    rest <:+ cs := by
  induction cs using body.induct generalizing inside with
  | case1 => cases h
  | case2 cs =>
    cases h
    exact List.suffix_cons '"' rest
  | case3 e cs ih =>
    rw [body] at h
    obtain ⟨⟨inside', rest'⟩, hbody, heq⟩ := Option.map_eq_some_iff.mp h
    cases heq
    exact ((ih hbody).trans (List.suffix_cons e cs)).trans (List.suffix_cons '\\' (e :: cs))
  | case4 c cs hquote hescape ih =>
    rw [body.eq_4 c cs hquote hescape] at h
    obtain ⟨⟨inside', rest'⟩, hbody, heq⟩ := Option.map_eq_some_iff.mp h
    cases heq
    exact (ih hbody).trans (List.suffix_cons c cs)

theorem string_cases {cs rest : List Char} {s : String} (h : string cs = some (s, rest)) :
    ∃ inside ns, body cs = some (inside, rest) ∧ decode inside = some ns ∧
      s = String.ofList (ofUnits ns) := by
  unfold string at h
  split at h
  next => cases h
  next inside rest' hbody =>
    obtain ⟨ns, hns, heq⟩ := Option.map_eq_some_iff.mp h
    cases heq
    exact ⟨inside, ns, hbody, hns, rfl⟩

theorem string_append {cs rest : List Char} {s : String} (h : string cs = some (s, rest))
    (u : List Char) : string (cs ++ u) = some (s, rest ++ u) := by
  obtain ⟨inside, ns, hbody, hns, rfl⟩ := string_cases h
  unfold string
  rw [body_append hbody u]
  dsimp only
  rw [hns]
  rfl

theorem string_suffix {cs rest : List Char} {s : String} (h : string cs = some (s, rest)) :
    rest <:+ cs := by
  obtain ⟨inside, ns, hbody, -, -⟩ := string_cases h
  exact body_suffix hbody

theorem key_cases {cs rest : List Char} {name : String} (h : key cs = some (name, rest)) :
    ∃ ds es, mark '"' cs = some ds ∧ string ds = some (name, es) ∧ mark ':' es = some rest := by
  unfold key at h
  split at h
  next => cases h
  next ds hds =>
    split at h
    next => cases h
    next name' es hstring =>
      obtain ⟨rest', hrest, heq⟩ := Option.map_eq_some_iff.mp h
      cases heq
      exact ⟨ds, es, hds, hstring, hrest⟩

theorem key_append {cs rest : List Char} {name : String} (h : key cs = some (name, rest))
    (u : List Char) : key (cs ++ u) = some (name, rest ++ u) := by
  obtain ⟨ds, es, hds, hstring, hrest⟩ := key_cases h
  unfold key
  rw [mark_append hds u]
  dsimp only
  rw [string_append hstring u]
  dsimp only
  rw [mark_append hrest u]
  rfl

theorem key_suffix {cs rest : List Char} {name : String} (h : key cs = some (name, rest)) :
    rest <:+ cs := by
  obtain ⟨ds, es, hds, hstring, hrest⟩ := key_cases h
  calc rest <:+ ':' :: rest := List.suffix_cons ':' rest
    _ <:+ es := mark_suffix hrest
    _ <:+ ds := string_suffix hstring
    _ <:+ '"' :: ds := List.suffix_cons '"' ds
    _ <:+ cs := mark_suffix hds

/-- A text that ends by itself: only a number goes on as long as it can. -/
def Closed : Val → Prop
  | .num _ => False
  | _ => True

theorem name_append {word cs rest : List Char} {v w : Val} (h : name word v cs = some (w, rest))
    (u : List Char) : w = v ∧ name word v (cs ++ u) = some (w, rest ++ u) := by
  unfold name at h ⊢
  split at h
  next hprefix =>
    obtain ⟨after, rfl⟩ := List.isPrefixOf_iff_prefix.mp hprefix
    cases h
    have hprefix' : word <+: word ++ after ++ u := by
      rw [List.append_assoc]
      exact List.prefix_append word (after ++ u)
    rw [if_pos (List.isPrefixOf_iff_prefix.mpr hprefix'), List.append_assoc, List.drop_left,
      List.drop_left]
    exact ⟨rfl, rfl⟩
  next => cases h

theorem name_suffix {word cs rest : List Char} {v w : Val} (h : name word v cs = some (w, rest)) :
    rest <:+ cs := by
  unfold name at h
  split at h
  next =>
    cases h
    exact List.drop_suffix _ _
  next => cases h

theorem number_cases {cs rest : List Char} {v : Val} (h : number cs = some (v, rest)) :
    rest = cs.dropWhile isNumeralChar ∧ ¬ Closed v := by
  obtain ⟨n, -, heq⟩ := Option.map_eq_some_iff.mp h
  cases heq
  exact ⟨rfl, id⟩

theorem number_append {cs rest : List Char} {v : Val} (h : number cs = some (v, rest))
    (hne : rest ≠ []) (u : List Char) : number (cs ++ u) = some (v, rest ++ u) := by
  obtain ⟨hrest, -⟩ := number_cases h
  rw [hrest] at hne
  have hsplit := List.takeWhile_append_dropWhile (p := isNumeralChar) (l := cs)
  have hdrop : (cs ++ u).dropWhile isNumeralChar = rest ++ u := by
    rw [List.dropWhile_append, if_neg, ← hrest]
    rwa [List.isEmpty_iff]
  have htake : (cs ++ u).takeWhile isNumeralChar = cs.takeWhile isNumeralChar := by
    rw [List.takeWhile_append, if_neg]
    intro hlen
    refine hne (List.eq_nil_of_length_eq_zero ?_)
    have hlength := congrArg List.length hsplit
    rw [List.length_append] at hlength
    omega
  unfold number at h ⊢
  rw [htake, hdrop, ← hrest] at *
  obtain ⟨n, hn, heq⟩ := Option.map_eq_some_iff.mp h
  cases heq
  rw [hn]
  rfl

theorem scalar_append {cs rest : List Char} {v : Val} (h : scalar cs = some (v, rest))
    (hend : Closed v ∨ rest ≠ []) (u : List Char) : scalar (cs ++ u) = some (v, rest ++ u) := by
  cases cs with
  | nil => cases h
  | cons c cs =>
    rw [List.cons_append]
    rw [scalar] at h ⊢
    split_ifs at h ⊢ with hquote htrue hfalse hnull
    · obtain ⟨⟨s, rest'⟩, hstring, heq⟩ := Option.map_eq_some_iff.mp h
      cases heq
      rw [string_append hstring u]
      rfl
    · exact (name_append h u).2
    · exact (name_append h u).2
    · exact (name_append h u).2
    · exact number_append h (hend.resolve_left (number_cases h).2) u

theorem scalar_suffix {cs rest : List Char} {v : Val} (h : scalar cs = some (v, rest)) :
    rest <:+ cs := by
  cases cs with
  | nil => cases h
  | cons c cs =>
    rw [scalar] at h
    split_ifs at h with hquote htrue hfalse hnull
    · obtain ⟨⟨s, rest'⟩, hstring, heq⟩ := Option.map_eq_some_iff.mp h
      cases heq
      exact (string_suffix hstring).trans (List.suffix_cons c cs)
    · exact (name_suffix h).trans (List.suffix_cons c cs)
    · exact (name_suffix h).trans (List.suffix_cons c cs)
    · exact (name_suffix h).trans (List.suffix_cons c cs)
    · rw [(number_cases h).1]
      exact List.dropWhile_suffix _

/-! ## The ways to read -/

/-- The ways that a value is read. -/
inductive ReadsValue (n : Nat) (cs : List Char) : Val → List Char → Prop
  | emptyArr {ds rest : List Char} (hopen : mark '[' cs = some ds)
      (hclose : mark ']' ds = some rest) : ReadsValue n cs (.arr []) rest
  | arr {ds rest : List Char} {vs : List Val} (hopen : mark '[' cs = some ds)
      (hitem : mark ']' ds = none) (hitems : items n ds = some (vs, rest)) :
      ReadsValue n cs (.arr vs) rest
  | emptyObj {ds rest : List Char} (harr : mark '[' cs = none) (hopen : mark '\x7b' cs = some ds)
      (hclose : mark '\x7d' ds = some rest) : ReadsValue n cs (.obj []) rest
  | obj {ds rest : List Char} {ms : List (String × Val)} (harr : mark '[' cs = none)
      (hopen : mark '\x7b' cs = some ds) (hmember : mark '\x7d' ds = none)
      (hmembers : members n [] ds = some (ms, rest)) : ReadsValue n cs (.obj ms) rest
  | scalar {rest : List Char} {v : Val} (harr : mark '[' cs = none) (hobj : mark '\x7b' cs = none)
      (hscalar : Json.scalar (skip cs) = some (v, rest)) : ReadsValue n cs v rest

/-- The ways that items are read. -/
inductive ReadsItems (n : Nat) (cs : List Char) : List Val → List Char → Prop
  | last {ds rest : List Char} {v : Val} (hvalue : value n cs = some (v, ds))
      (hcomma : mark ',' ds = none) (hclose : mark ']' ds = some rest) : ReadsItems n cs [v] rest
  | more {ds es rest : List Char} {v : Val} {vs : List Val} (hvalue : value n cs = some (v, ds))
      (hcomma : mark ',' ds = some es) (hitems : items n es = some (vs, rest)) :
      ReadsItems n cs (v :: vs) rest

/-- The ways that members are read. -/
inductive ReadsMembers (n : Nat) (acc : List (String × Val)) (cs : List Char) :
    List (String × Val) → List Char → Prop
  | last {ds es rest : List Char} {name : String} {v : Val} (hkey : key cs = some (name, ds))
      (hvalue : value n ds = some (v, es)) (hcomma : mark ',' es = none)
      (hclose : mark '\x7d' es = some rest) : ReadsMembers n acc cs (put acc name v) rest
  | more {ds es fs rest : List Char} {name : String} {v : Val} {ms : List (String × Val)}
      (hkey : key cs = some (name, ds)) (hvalue : value n ds = some (v, es))
      (hcomma : mark ',' es = some fs)
      (hmembers : members n (put acc name v) fs = some (ms, rest)) : ReadsMembers n acc cs ms rest

theorem value_succ_iff {n : Nat} {cs rest : List Char} {v : Val} :
    value (n + 1) cs = some (v, rest) ↔ ReadsValue n cs v rest := by
  rw [value]
  constructor
  · intro h
    split at h
    next ds hopen =>
      split at h
      next rest' hclose =>
        cases h
        exact .emptyArr hopen hclose
      next hitem =>
        obtain ⟨⟨vs, rest'⟩, hitems, heq⟩ := Option.map_eq_some_iff.mp h
        cases heq
        exact .arr hopen hitem hitems
    next harr =>
      split at h
      next ds hopen =>
        split at h
        next rest' hclose =>
          cases h
          exact .emptyObj harr hopen hclose
        next hmember =>
          obtain ⟨⟨ms, rest'⟩, hmembers, heq⟩ := Option.map_eq_some_iff.mp h
          cases heq
          exact .obj harr hopen hmember hmembers
      next hobj => exact .scalar harr hobj h
  · intro h
    cases h with
    | emptyArr hopen hclose => simp only [hopen, hclose]
    | arr hopen hitem hitems => simp only [hopen, hitem, hitems, Option.map_some]
    | emptyObj harr hopen hclose => simp only [harr, hopen, hclose]
    | obj harr hopen hmember hmembers => simp only [harr, hopen, hmember, hmembers, Option.map_some]
    | scalar harr hobj hscalar => simp only [harr, hobj, hscalar]

theorem items_succ_iff {n : Nat} {cs rest : List Char} {vs : List Val} :
    items (n + 1) cs = some (vs, rest) ↔ ReadsItems n cs vs rest := by
  rw [items]
  constructor
  · intro h
    split at h
    next => cases h
    next v ds hvalue =>
      split at h
      next es hcomma =>
        obtain ⟨⟨vs', rest'⟩, hitems, heq⟩ := Option.map_eq_some_iff.mp h
        cases heq
        exact .more hvalue hcomma hitems
      next hcomma =>
        obtain ⟨rest', hclose, heq⟩ := Option.map_eq_some_iff.mp h
        cases heq
        exact .last hvalue hcomma hclose
  · intro h
    cases h with
    | last hvalue hcomma hclose => simp only [hvalue, hcomma, hclose, Option.map_some]
    | more hvalue hcomma hitems => simp only [hvalue, hcomma, hitems, Option.map_some]

theorem members_succ_iff {n : Nat} {acc ms : List (String × Val)} {cs rest : List Char} :
    members (n + 1) acc cs = some (ms, rest) ↔ ReadsMembers n acc cs ms rest := by
  rw [members]
  constructor
  · intro h
    split at h
    next => cases h
    next name ds hkey =>
      split at h
      next => cases h
      next v es hvalue =>
        split at h
        next fs hcomma => exact .more hkey hvalue hcomma h
        next hcomma =>
          obtain ⟨rest', hclose, heq⟩ := Option.map_eq_some_iff.mp h
          cases heq
          exact .last hkey hvalue hcomma hclose
  · intro h
    cases h with
    | last hkey hvalue hcomma hclose => simp only [hkey, hvalue, hcomma, hclose, Option.map_some]
    | more hkey hvalue hcomma hmembers => simp only [hkey, hvalue, hcomma, hmembers]

/-- More fuel reads the same. -/
theorem reads_succ (n : Nat) :
    (∀ {cs rest v}, value n cs = some (v, rest) → value (n + 1) cs = some (v, rest)) ∧
      (∀ {cs rest vs}, items n cs = some (vs, rest) → items (n + 1) cs = some (vs, rest)) ∧
      ∀ {acc cs rest ms}, members n acc cs = some (ms, rest) →
        members (n + 1) acc cs = some (ms, rest) := by
  induction n with
  | zero =>
    refine ⟨fun h => ?_, fun h => ?_, fun h => ?_⟩
    · cases h
    · cases h
    · cases h
  | succ n ih =>
    obtain ⟨ihvalue, ihitems, ihmembers⟩ := ih
    refine ⟨fun h => ?_, fun h => ?_, fun h => ?_⟩
    · rw [value_succ_iff] at h ⊢
      cases h with
      | emptyArr hopen hclose => exact .emptyArr hopen hclose
      | arr hopen hitem hitems => exact .arr hopen hitem (ihitems hitems)
      | emptyObj harr hopen hclose => exact .emptyObj harr hopen hclose
      | obj harr hopen hmember hmembers => exact .obj harr hopen hmember (ihmembers hmembers)
      | scalar harr hobj hscalar => exact .scalar harr hobj hscalar
    · rw [items_succ_iff] at h ⊢
      cases h with
      | last hvalue hcomma hclose => exact .last (ihvalue hvalue) hcomma hclose
      | more hvalue hcomma hitems => exact .more (ihvalue hvalue) hcomma (ihitems hitems)
    · rw [members_succ_iff] at h ⊢
      cases h with
      | last hkey hvalue hcomma hclose => exact .last hkey (ihvalue hvalue) hcomma hclose
      | more hkey hvalue hcomma hmembers =>
        exact .more hkey (ihvalue hvalue) hcomma (ihmembers hmembers)

theorem value_mono {m n : Nat} (hmn : m ≤ n) {cs rest : List Char} {v : Val}
    (h : value m cs = some (v, rest)) : value n cs = some (v, rest) := by
  induction hmn with
  | refl => exact h
  | step _ ih => exact (reads_succ _).1 ih

theorem skip_ne_of_value {n : Nat} {cs rest : List Char} {v : Val}
    (h : value n cs = some (v, rest)) : skip cs ≠ [] := by
  cases n with
  | zero => cases h
  | succ n =>
    cases value_succ_iff.mp h with
    | emptyArr hopen hclose => exact skip_ne_of_mark hopen
    | arr hopen hitem hitems => exact skip_ne_of_mark hopen
    | emptyObj harr hopen hclose => exact skip_ne_of_mark hopen
    | obj harr hopen hmember hmembers => exact skip_ne_of_mark hopen
    | scalar harr hobj hscalar =>
      intro hskip
      rw [hskip] at hscalar
      cases hscalar

theorem skip_ne_of_items {n : Nat} {cs rest : List Char} {vs : List Val}
    (h : items n cs = some (vs, rest)) : skip cs ≠ [] := by
  cases n with
  | zero => cases h
  | succ n =>
    cases items_succ_iff.mp h with
    | last hvalue hcomma hclose => exact skip_ne_of_value hvalue
    | more hvalue hcomma hitems => exact skip_ne_of_value hvalue

theorem skip_ne_of_members {n : Nat} {acc ms : List (String × Val)} {cs rest : List Char}
    (h : members n acc cs = some (ms, rest)) : skip cs ≠ [] := by
  have hkey : ∀ {name : String} {ds : List Char}, key cs = some (name, ds) → skip cs ≠ [] := by
    intro name ds hname
    obtain ⟨es, -, hopen, -, -⟩ := key_cases hname
    exact skip_ne_of_mark hopen
  cases n with
  | zero => cases h
  | succ n =>
    cases members_succ_iff.mp h with
    | last hname hvalue hcomma hclose => exact hkey hname
    | more hname hvalue hcomma hmembers => exact hkey hname

/-- What is read is read whatever follows, but for a number at the very end. -/
theorem reads_append (n : Nat) (u : List Char) :
    (∀ {cs rest v}, value n cs = some (v, rest) → Closed v ∨ rest ≠ [] →
        value n (cs ++ u) = some (v, rest ++ u)) ∧
      (∀ {cs rest vs}, items n cs = some (vs, rest) → items n (cs ++ u) = some (vs, rest ++ u)) ∧
      ∀ {acc cs rest ms}, members n acc cs = some (ms, rest) →
        members n acc (cs ++ u) = some (ms, rest ++ u) := by
  induction n with
  | zero =>
    refine ⟨fun h => ?_, fun h => ?_, fun h => ?_⟩
    · cases h
    · cases h
    · cases h
  | succ n ih =>
    obtain ⟨ihvalue, ihitems, ihmembers⟩ := ih
    -- a value in an array or an object is followed by a mark
    have hinner : ∀ {c : Char} {cs ds es : List Char} {v : Val}, value n cs = some (v, ds) →
        mark c ds = some es → value n (cs ++ u) = some (v, ds ++ u) := by
      intro c cs ds es v hvalue hmark
      refine ihvalue hvalue (.inr fun hnil => ?_)
      rw [hnil] at hmark
      cases hmark
    refine ⟨?_, fun h => ?_, fun h => ?_⟩
    · intro cs rest v h hend
      rw [value_succ_iff] at h ⊢
      cases h with
      | emptyArr hopen hclose => exact .emptyArr (mark_append hopen u) (mark_append hclose u)
      | arr hopen hitem hitems =>
        exact .arr (mark_append hopen u) (mark_none_append hitem (skip_ne_of_items hitems) u)
          (ihitems hitems)
      | emptyObj harr hopen hclose =>
        exact .emptyObj (mark_none_append harr (skip_ne_of_mark hopen) u) (mark_append hopen u)
          (mark_append hclose u)
      | obj harr hopen hmember hmembers =>
        exact .obj (mark_none_append harr (skip_ne_of_mark hopen) u) (mark_append hopen u)
          (mark_none_append hmember (skip_ne_of_members hmembers) u) (ihmembers hmembers)
      | scalar harr hobj hscalar =>
        have hne : skip cs ≠ [] := by
          intro hskip
          rw [hskip] at hscalar
          cases hscalar
        refine .scalar (mark_none_append harr hne u) (mark_none_append hobj hne u) ?_
        rw [skip_append hne]
        exact scalar_append hscalar hend u
    · rw [items_succ_iff] at h ⊢
      cases h with
      | last hvalue hcomma hclose =>
        exact .last (hinner hvalue hclose) (mark_none_append hcomma (skip_ne_of_mark hclose) u)
          (mark_append hclose u)
      | more hvalue hcomma hitems =>
        exact .more (hinner hvalue hcomma) (mark_append hcomma u) (ihitems hitems)
    · rw [members_succ_iff] at h ⊢
      cases h with
      | last hkey hvalue hcomma hclose =>
        exact .last (key_append hkey u) (hinner hvalue hclose)
          (mark_none_append hcomma (skip_ne_of_mark hclose) u) (mark_append hclose u)
      | more hkey hvalue hcomma hmembers =>
        exact .more (key_append hkey u) (hinner hvalue hcomma) (mark_append hcomma u)
          (ihmembers hmembers)

/-- What is read comes first, and an array ends with its bracket. -/
theorem reads_suffix (n : Nat) :
    (∀ {cs rest v}, value n cs = some (v, rest) → rest <:+ cs) ∧
      (∀ {cs rest vs}, items n cs = some (vs, rest) → ']' :: rest <:+ cs) ∧
      ∀ {acc cs rest ms}, members n acc cs = some (ms, rest) → '\x7d' :: rest <:+ cs := by
  induction n with
  | zero =>
    refine ⟨fun h => ?_, fun h => ?_, fun h => ?_⟩
    · cases h
    · cases h
    · cases h
  | succ n ih =>
    obtain ⟨ihvalue, ihitems, ihmembers⟩ := ih
    -- what stands behind a mark
    have hbehind : ∀ {c : Char} {cs ds : List Char}, mark c cs = some ds → ds <:+ cs :=
      fun h => (List.suffix_cons _ _).trans (mark_suffix h)
    refine ⟨?_, fun h => ?_, fun h => ?_⟩
    · intro cs rest v h
      cases value_succ_iff.mp h with
      | emptyArr hopen hclose => exact (hbehind hclose).trans (hbehind hopen)
      | arr hopen hitem hitems =>
        exact ((List.suffix_cons _ _).trans (ihitems hitems)).trans (hbehind hopen)
      | emptyObj harr hopen hclose => exact (hbehind hclose).trans (hbehind hopen)
      | obj harr hopen hmember hmembers =>
        exact ((List.suffix_cons _ _).trans (ihmembers hmembers)).trans (hbehind hopen)
      | scalar harr hobj hscalar => exact (scalar_suffix hscalar).trans (skip_suffix cs)
    · cases items_succ_iff.mp h with
      | last hvalue hcomma hclose => exact (mark_suffix hclose).trans (ihvalue hvalue)
      | more hvalue hcomma hitems =>
        exact ((ihitems hitems).trans (hbehind hcomma)).trans (ihvalue hvalue)
    · cases members_succ_iff.mp h with
      | last hkey hvalue hcomma hclose =>
        exact ((mark_suffix hclose).trans (ihvalue hvalue)).trans (key_suffix hkey)
      | more hkey hvalue hcomma hmembers =>
        exact (((ihmembers hmembers).trans (hbehind hcomma)).trans (ihvalue hvalue)).trans
          (key_suffix hkey)

/-! ## What is cut off -/

theorem parse_cases {text : String} {v : Val} (h : parse text = some v) :
    ∃ n rest, value n text.toList = some (v, rest) ∧ skip rest = [] := by
  unfold parse at h
  split at h
  next w rest hvalue =>
    split at h
    next hrest =>
      cases h
      exact ⟨_, rest, hvalue, hrest⟩
    next => cases h
  next => cases h

/-- What begins as an array is one, and ends with its bracket. -/
theorem array_of_bracket {n : Nat} {cs rest : List Char} {v : Val}
    (h : value n ('[' :: cs) = some (v, rest)) : Closed v ∧ ']' :: rest <:+ cs := by
  have hmark : mark '[' ('[' :: cs) = some cs := rfl
  cases n with
  | zero => cases h
  | succ n =>
    cases value_succ_iff.mp h with
    | emptyArr hopen hclose =>
      rw [hmark] at hopen
      cases hopen
      exact ⟨trivial, mark_suffix hclose⟩
    | arr hopen hitem hitems =>
      rw [hmark] at hopen
      cases hopen
      exact ⟨trivial, (reads_suffix n).2.1 hitems⟩
    | emptyObj harr hopen hclose =>
      rw [hmark] at harr
      cases harr
    | obj harr hopen hmember hmembers =>
      rw [hmark] at harr
      cases harr
    | scalar harr hobj hscalar =>
      rw [hmark] at harr
      cases harr

/-- The text of an array that is cut off is no text. -/
theorem parse_cut {n : Nat} {cs after : List Char} {v : Val} {text : String}
    (hwhole : value n ('[' :: cs) = some (v, [])) (hcut : text.toList ++ after = '[' :: cs)
    (hne : after ≠ []) : parse text = none := by
  rw [Option.eq_none_iff_forall_ne_some]
  intro w hparse
  obtain ⟨m, rest, hvalue, -⟩ := parse_cases hparse
  cases htext : text.toList with
  | nil =>
    rw [htext] at hvalue
    exact skip_ne_of_value hvalue rfl
  | cons c ds =>
    rw [htext, List.cons_append] at hcut
    obtain ⟨rfl, rfl⟩ := List.cons.inj hcut
    rw [htext] at hvalue
    have hlong := (reads_append m after).1 hvalue (.inl (array_of_bracket hvalue).1)
    have hboth := value_mono (Nat.le_max_left m n) hlong
    rw [List.cons_append, value_mono (Nat.le_max_right m n) hwhole] at hboth
    have hend := congrArg Prod.snd (Option.some.inj hboth)
    exact hne (List.append_eq_nil_iff.mp hend.symm).2

/-- An array does not end with anything but its bracket and white space. -/
theorem parse_spoiled {cs : List Char} {c : Char} (hspace : isSpace c = false) (hclose : c ≠ ']')
    {text : String} (htext : text.toList = '[' :: (cs ++ [c])) : parse text = none := by
  rw [Option.eq_none_iff_forall_ne_some]
  intro w hparse
  obtain ⟨n, rest, hvalue, hrest⟩ := parse_cases hparse
  rw [htext] at hvalue
  obtain ⟨before, hbefore⟩ := (array_of_bracket hvalue).2
  have hlast := congrArg List.getLast? hbefore
  rw [List.getLast?_append_of_ne_nil _ (List.cons_ne_nil ']' rest), List.getLast?_concat] at hlast
  have hmem : c ∈ ']' :: rest := List.mem_of_getLast? hlast
  rcases List.mem_cons.mp hmem with heq | hmem
  · exact hclose heq
  · have hall := List.dropWhile_eq_nil_iff.mp hrest c hmem
    rw [hspace] at hall
    cases hall

end ChainKVM.Json
