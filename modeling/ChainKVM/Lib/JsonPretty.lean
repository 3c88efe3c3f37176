import ChainKVM.Lib.JsonParse

/-!
# Indented JSON texts

`JSON.stringify` with an indentation. The white space between the marks is what
`JSON.parse` skips, so an indented text is read as the value that was written
(`parse_pretty`). The proof follows the writer: a value, then the items or the
members that come after one that has been read.
-/

namespace ChainKVM.Json

open Js (Val)

/-! ## Writing -/

/-- A new line, indented. -/
def line (depth : Nat) : List Char := '\n' :: List.replicate depth ' '

mutual

/-- `JSON.stringify` with an indentation of `step` spaces, `depth` spaces in. -/
def pretty (step depth : Nat) : Json → List Char
  | .null => "null".toList
  | .bool b => text (.bool b)
  | .num q => text (.num q)
  | .str s => quote s
  | .arr [] => ['[', ']']
  | .arr (v :: vs) =>
    '[' :: (line (depth + step) ++ (pretty step (depth + step) v ++ prettyItems step depth vs))
  | .obj [] => ['\x7b', '\x7d']
  | .obj ((name, v) :: ms) =>
    '\x7b' :: (line (depth + step) ++ (quote name ++
      ':' :: ' ' :: (pretty step (depth + step) v ++ prettyMembers step depth ms)))

/-- The other items of an array, and what closes it. -/
def prettyItems (step depth : Nat) : List Json → List Char
  | [] => line depth ++ [']']
  | v :: vs =>
    ',' :: (line (depth + step) ++ (pretty step (depth + step) v ++ prettyItems step depth vs))

/-- The other members of an object, and what closes it. -/
def prettyMembers (step depth : Nat) : Members → List Char
  | [] => line depth ++ ['\x7d']
  | (name, v) :: ms =>
    ',' :: (line (depth + step) ++ (quote name ++
      ':' :: ' ' :: (pretty step (depth + step) v ++ prettyMembers step depth ms)))

end

mutual

/-- The value that a text is read as. -/
def toVal : Json → Val
  | .null => .null
  | .bool b => .bool b
  | .num q => .num (.fin q)
  | .str s => .str s
  | .arr vs => .arr (itemsToVal vs)
  | .obj ms => .obj (membersToVal ms)

def itemsToVal : List Json → List Val
  | [] => []
  | v :: vs => v.toVal :: itemsToVal vs

def membersToVal : Members → List (String × Val)
  | [] => []
  | (name, v) :: ms => (name, v.toVal) :: membersToVal ms

end

theorem itemsToVal_eq_map (vs : List Json) : itemsToVal vs = vs.map toVal := by
  induction vs with
  | nil => rfl
  | cons v vs ih => rw [itemsToVal, ih, List.map_cons]

mutual

/-- What the indented text gives back: there are no numbers in it, and no object
has a member twice. -/
def Legible : Json → Prop
  | .num _ => False
  | .arr vs => ItemsLegible vs
  | .obj ms => (ms.map (·.1)).Nodup ∧ MembersLegible ms
  | _ => True

def ItemsLegible : List Json → Prop
  | [] => True
  | v :: vs => v.Legible ∧ ItemsLegible vs

def MembersLegible : Members → Prop
  | [] => True
  | (_, v) :: ms => v.Legible ∧ MembersLegible ms

end

theorem itemsLegible_of_forall {vs : List Json} (h : ∀ v ∈ vs, v.Legible) : ItemsLegible vs := by
  induction vs with
  | nil => trivial
  | cons v vs ih =>
    exact ⟨h v List.mem_cons_self, ih fun w hw => h w (List.mem_cons_of_mem v hw)⟩

/-! ## Reading strings back -/

theorem unescape_shortEscape {n : Nat} {e : Char} (h : shortEscape n = some e) :
    unescape e = some n := by
  have hall : ∀ p ∈ shortEscapes, unescape p.2 = some p.1 := by decide
  exact hall _ (shortEscape_mem h)

theorem hex_low {n : Nat} (h : n < 32) :
    hex '0' '0' (Nat.digitChar (n / 16)) (Nat.digitChar (n % 16)) = some n := by
  have hall : ∀ n < 32, hex '0' '0' (Nat.digitChar (n / 16)) (Nat.digitChar (n % 16)) = some n := by
    decide
  exact hall n h

/-- A character that needs no escape. -/
theorem plain_of_escape {c : Char} (hshort : shortEscape c.toNat = none) (h : escape c = [c]) :
    c ≠ '"' ∧ c ≠ '\\' ∧ ¬ c.toNat < 32 := by
  refine ⟨?_, ?_, fun hlow => ?_⟩
  · rintro rfl
    cases hshort
  · rintro rfl
    cases hshort
  · unfold escape at h
    rw [hshort] at h
    dsimp only at h
    rw [if_pos hlow] at h
    cases (List.cons.inj h).2

theorem body_escape (c : Char) (cs : List Char) :
    body (escape c ++ cs) = (body cs).map fun p => (escape c ++ p.1, p.2) := by
  have hplain {d : Char} (hquote : d ≠ '"') (hescape : d ≠ '\\') (ds : List Char) :
      body (d :: ds) = (body ds).map fun p => (d :: p.1, p.2) :=
    body.eq_4 d ds hquote fun e es heq => absurd heq hescape
  have hdigit : ∀ n < 16, Nat.digitChar n ≠ '"' ∧ Nat.digitChar n ≠ '\\' := by decide
  rcases escape_cases c with ⟨e, hc, hcs⟩ | ⟨hlow, hcs⟩ | ⟨hc, hcs⟩
  · rw [hcs]
    rfl
  · have hhigh := hdigit (c.toNat / 16) (by omega)
    have hrest := hdigit (c.toNat % 16) (by omega)
    rw [hcs]
    show body ('\\' :: 'u' :: '0' :: '0' :: _ :: _ :: cs) = _
    rw [body, hplain (by decide) (by decide), hplain (by decide) (by decide),
      hplain hhigh.1 hhigh.2, hplain hrest.1 hrest.2]
    cases body cs <;> rfl
  · rw [hcs]
    obtain ⟨hquote, hescape, -⟩ := plain_of_escape hc hcs
    exact hplain hquote hescape cs

theorem decode_escape (c : Char) (cs : List Char) :
    decode (escape c ++ cs) = (decode cs).map (c.toNat :: ·) := by
  rcases escape_cases c with ⟨e, hc, hcs⟩ | ⟨hlow, hcs⟩ | ⟨hc, hcs⟩
  · have hu : e ≠ 'u' := by
      rintro rfl
      exact shortEscape_ne_u _ hc
    rw [hcs]
    show decode ('\\' :: e :: cs) = _
    rw [decode.eq_3 e cs fun a b c d ds heq => absurd heq hu, unescape_shortEscape hc]
    cases decode cs <;> rfl
  · rw [hcs]
    show decode ('\\' :: 'u' :: '0' :: '0' :: _ :: _ :: cs) = _
    rw [decode, hex_low hlow]
    cases decode cs <;> rfl
  · obtain ⟨-, hescape, hlow⟩ := plain_of_escape hc hcs
    rw [hcs]
    show decode (c :: cs) = _
    rw [decode.eq_4, if_neg]
    · exact fun h => h.elim hlow hescape
    · exact fun _ _ _ _ _ heq => absurd heq hescape
    · exact fun _ _ heq => absurd heq hescape

theorem body_quoted (cs rest : List Char) :
    body (cs.flatMap escape ++ '"' :: rest) = some (cs.flatMap escape, rest) := by
  induction cs with
  | nil => rfl
  | cons c cs ih =>
    rw [List.flatMap_cons, List.append_assoc, body_escape, ih]
    rfl

theorem decode_quoted (cs : List Char) : decode (cs.flatMap escape) = some (cs.map Char.toNat) := by
  induction cs with
  | nil => rfl
  | cons c cs ih =>
    rw [List.flatMap_cons, decode_escape, ih]
    rfl

theorem ofUnit_toNat (c : Char) : ofUnit c.toNat = c := by
  have hvalid : c.toNat.isValidChar := c.valid
  unfold ofUnit
  rw [if_pos hvalid, Char.ofNat_toNat]

theorem ofUnits_toNat (cs : List Char) : ofUnits (cs.map Char.toNat) = cs := by
  induction cs with
  | nil => rfl
  | cons c cs ih =>
    cases cs with
    | nil => exact congrArg (· :: []) (ofUnit_toNat c)
    | cons d cs =>
      have hvalid : c.toNat < 0xd800 ∨ (0xdfff < c.toNat ∧ c.toNat < 0x110000) := c.valid
      rw [List.map_cons, List.map_cons, ofUnits, if_neg (by omega), ofUnit_toNat]
      exact congrArg (c :: ·) ih

theorem string_quoted (s : String) (rest : List Char) :
    string (s.toList.flatMap escape ++ '"' :: rest) = some (s, rest) := by
  unfold string
  rw [body_quoted]
  dsimp only
  rw [decode_quoted, Option.map_some, ofUnits_toNat, String.ofList_toList]

/-! ## Reading indented texts back -/

theorem skip_line (depth : Nat) (cs : List Char) : skip (line depth ++ cs) = skip cs := by
  unfold skip
  refine List.dropWhile_append_of_pos fun c hc => ?_
  rcases List.mem_cons.mp hc with rfl | hc
  · decide
  · rw [(List.mem_replicate.mp hc).2]
    decide

theorem mark_line (c : Char) (depth : Nat) (cs : List Char) :
    mark c (line depth ++ cs) = mark c cs := by
  unfold mark
  rw [skip_line]

theorem value_gap (n : Nat) (cs : List Char) : value n (' ' :: cs) = value n cs := by
  cases n with
  | zero => rfl
  | succ n => rfl

theorem value_line (n depth : Nat) (cs : List Char) :
    value n (line depth ++ cs) = value n cs := by
  cases n with
  | zero => rfl
  | succ n => rw [value, value, mark_line, mark_line, skip_line]

theorem mark_head {c d : Char} (cs : List Char) (h : isSpace d = false) :
    mark c (d :: cs) = if d = c then some cs else none := by
  refine mark_of_skip ?_
  unfold skip
  rw [List.dropWhile_cons_of_neg]
  rw [h]
  exact Bool.false_ne_true

theorem key_line (depth : Nat) (name : String) (cs : List Char) :
    key (line depth ++ (quote name ++ ':' :: cs)) = some (name, cs) := by
  have hquote : mark '"' (quote name ++ ':' :: cs) =
      some (name.toList.flatMap escape ++ '"' :: ':' :: cs) := by
    unfold quote
    rw [List.cons_append, List.append_assoc]
    rfl
  unfold key
  rw [mark_line, hquote]
  dsimp only
  rw [string_quoted]
  rfl

theorem line_length (depth : Nat) : (line depth).length = depth + 1 := by
  unfold line
  rw [List.length_cons, List.length_replicate]

/-- A new member goes to the end. -/
theorem put_new {ms : List (String × Val)} {name : String} (h : name ∉ ms.map (·.1)) (v : Val) :
    put ms name v = ms ++ [(name, v)] := by
  unfold put
  rw [if_neg]
  intro hany
  obtain ⟨m, hmem, heq⟩ := List.any_eq_true.mp hany
  rw [← of_decide_eq_true heq] at h
  exact h (List.mem_map_of_mem hmem)

theorem new_of_nodup {names later : List String} {name : String}
    (h : (names ++ name :: later).Nodup) : name ∉ names := fun hmem =>
  (List.nodup_cons.mp (List.nodup_middle.mp h)).1 (List.mem_append_left later hmem)

theorem value_scalar {n : Nat} {c : Char} {cs rest : List Char} {v : Val}
    (hspace : isSpace c = false) (harr : c ≠ '[') (hobj : c ≠ '\x7b')
    (h : scalar (c :: cs) = some (v, rest)) : value (n + 1) (c :: cs) = some (v, rest) := by
  refine value_succ_iff.mpr (.scalar ?_ ?_ ?_)
  · rw [mark_head cs hspace, if_neg harr]
  · rw [mark_head cs hspace, if_neg hobj]
  · unfold skip
    rwa [List.dropWhile_cons_of_neg]
    rw [hspace]
    exact Bool.false_ne_true

theorem fuel_pos {k n : Nat} (hk : 1 ≤ k) (h : 2 * k ≤ n + 1) : ∃ m, n = m + 1 :=
  ⟨n - 1, by omega⟩

/-- No value begins with the bracket that closes an array. -/
theorem mark_none_of_value {n : Nat} {cs rest : List Char} {v : Val}
    (h : value n cs = some (v, rest)) : mark ']' cs = none := by
  rw [Option.eq_none_iff_forall_ne_some]
  intro ds hclose
  have hskip := skip_of_mark hclose
  have hother {c : Char} {es : List Char} (hne : ']' ≠ c) (hopen : mark c cs = some es) :
      False := by
    rw [mark_of_skip hskip, if_neg hne] at hopen
    cases hopen
  cases n with
  | zero => cases h
  | succ n =>
    cases value_succ_iff.mp h with
    | emptyArr hopen hend => exact hother (by decide) hopen
    | arr hopen hitem hitems => exact hother (by decide) hopen
    | emptyObj harr hopen hend => exact hother (by decide) hopen
    | obj harr hopen hmember hmembers => exact hother (by decide) hopen
    | scalar harr hobj hscalar =>
      rw [hskip] at hscalar
      cases hscalar

mutual

theorem value_pretty (step : Nat) : ∀ {v : Json} (n depth : Nat) (rest : List Char), v.Legible →
    2 * (pretty step depth v).length ≤ n + 1 →
    value n (pretty step depth v ++ rest) = some (v.toVal, rest)
  | .null, n, depth, rest, _, h => by
    rw [pretty] at h ⊢
    obtain ⟨m, rfl⟩ := fuel_pos (by decide) h
    exact value_scalar (by decide) (by decide) (by decide) rfl
  | .bool true, n, depth, rest, _, h => by
    rw [pretty] at h ⊢
    obtain ⟨m, rfl⟩ := fuel_pos (by decide) h
    exact value_scalar (by decide) (by decide) (by decide) rfl
  | .bool false, n, depth, rest, _, h => by
    rw [pretty] at h ⊢
    obtain ⟨m, rfl⟩ := fuel_pos (by decide) h
    exact value_scalar (by decide) (by decide) (by decide) rfl
  | .num q, _, _, _, hlegible, _ => hlegible.elim
  | .str s, n, depth, rest, _, h => by
    rw [pretty, quote] at h ⊢
    obtain ⟨m, rfl⟩ := fuel_pos (Nat.succ_le_succ (Nat.zero_le _)) h
    rw [List.cons_append, List.append_assoc]
    refine value_scalar (by decide) (by decide) (by decide) ?_
    rw [scalar, if_pos rfl]
    exact congrArg (Option.map _) (string_quoted s rest)
  | .arr [], n, depth, rest, _, h => by
    rw [pretty] at h ⊢
    obtain ⟨m, rfl⟩ := fuel_pos (by decide) h
    exact value_succ_iff.mpr (.emptyArr rfl rfl)
  | .arr (v :: vs), n, depth, rest, hlegible, h => by
    rw [pretty] at h ⊢
    rw [List.length_cons, List.length_append, List.length_append, line_length] at h
    obtain ⟨m, rfl⟩ : ∃ m, n = m + 2 := ⟨n - 2, by omega⟩
    have hfirst := value_pretty step m (depth + step) (prettyItems step depth vs ++ rest)
      hlegible.1 (by omega)
    rw [← value_line m (depth + step)] at hfirst
    have hitems := items_pretty step rest hlegible.2 hfirst (by omega)
    refine value_succ_iff.mpr (.arr ?_ (mark_none_of_value hfirst) hitems)
    rw [List.cons_append, mark_head _ (by decide), if_pos rfl, List.append_assoc,
      List.append_assoc]
  | .obj [], n, depth, rest, _, h => by
    rw [pretty] at h ⊢
    obtain ⟨m, rfl⟩ := fuel_pos (by decide) h
    exact value_succ_iff.mpr (.emptyObj rfl rfl rfl)
  | .obj ((name, v) :: ms), n, depth, rest, hlegible, h => by
    rw [pretty] at h ⊢
    rw [List.length_cons, List.length_append, List.length_append, List.length_cons,
      List.length_cons, List.length_append, line_length] at h
    obtain ⟨m, rfl⟩ : ∃ m, n = m + 2 := ⟨n - 2, by omega⟩
    have hfirst := value_pretty step m (depth + step) (prettyMembers step depth ms ++ rest)
      hlegible.2.1 (by omega)
    have hnames : (([] : List (String × Val)).map (·.1) ++ name :: ms.map (·.1)).Nodup := hlegible.1
    have hmembers := members_pretty step rest hlegible.2.2 (key_line (depth + step) name _)
      ((value_gap m _).trans hfirst) hnames (by omega)
    refine value_succ_iff.mpr (.obj ?_ ?_ ?_ hmembers)
    · rw [List.cons_append, mark_head _ (by decide), if_neg (by decide)]
    · rw [List.cons_append, mark_head _ (by decide), if_pos rfl]
      simp only [List.append_assoc, List.cons_append]
    · rw [mark_line]
      rfl

/-- The items that come after one that is read. -/
theorem items_pretty (step : Nat) : ∀ {vs : List Json} {n depth : Nat} {cs : List Char} {v : Val}
    (rest : List Char), ItemsLegible vs → value n cs = some (v, prettyItems step depth vs ++ rest) →
    2 * (prettyItems step depth vs).length ≤ n + 1 →
    items (n + 1) cs = some (v :: itemsToVal vs, rest)
  | [], n, depth, cs, v, rest, _, hvalue, _ => by
    refine items_succ_iff.mpr (.last hvalue ?_ ?_)
    · rw [prettyItems, List.append_assoc, mark_line]
      rfl
    · rw [prettyItems, List.append_assoc, mark_line]
      rfl
  | w :: ws, n, depth, cs, v, rest, hlegible, hvalue, h => by
    rw [prettyItems, List.length_cons, List.length_append, List.length_append, line_length] at h
    obtain ⟨m, rfl⟩ : ∃ m, n = m + 1 := ⟨n - 1, by omega⟩
    have hnext := value_pretty step m (depth + step) (prettyItems step depth ws ++ rest)
      hlegible.1 (by omega)
    rw [← value_line m (depth + step)] at hnext
    refine items_succ_iff.mpr (.more hvalue ?_ (items_pretty step rest hlegible.2 hnext (by omega)))
    rw [prettyItems, List.cons_append, mark_head _ (by decide), if_pos rfl, List.append_assoc,
      List.append_assoc]

/-- The members that come after one whose name and value are read. -/
theorem members_pretty (step : Nat) : ∀ {ms : Members} {n depth : Nat} {cs ds : List Char}
    {name : String} {v : Val} {acc : List (String × Val)} (rest : List Char), MembersLegible ms →
    key cs = some (name, ds) → value n ds = some (v, prettyMembers step depth ms ++ rest) →
    (acc.map (·.1) ++ name :: ms.map (·.1)).Nodup →
    2 * (prettyMembers step depth ms).length ≤ n + 1 →
    members (n + 1) acc cs = some (acc ++ (name, v) :: membersToVal ms, rest)
  | [], n, depth, cs, ds, name, v, acc, rest, _, hkey, hvalue, hnames, _ => by
    rw [membersToVal, ← put_new (new_of_nodup hnames)]
    refine members_succ_iff.mpr (.last hkey hvalue ?_ ?_)
    · rw [prettyMembers, List.append_assoc, mark_line]
      rfl
    · rw [prettyMembers, List.append_assoc, mark_line]
      rfl
  | (name', w) :: ms, n, depth, cs, ds, name, v, acc, rest, hlegible, hkey, hvalue, hnames, h => by
    rw [prettyMembers, List.length_cons, List.length_append, List.length_append, List.length_cons,
      List.length_cons, List.length_append, line_length] at h
    obtain ⟨m, rfl⟩ : ∃ m, n = m + 1 := ⟨n - 1, by omega⟩
    have hnext := value_pretty step m (depth + step) (prettyMembers step depth ms ++ rest)
      hlegible.1 (by omega)
    have hnames' : ((acc ++ [(name, v)]).map (·.1) ++ name' :: ms.map (·.1)).Nodup := by
      rw [List.map_append, List.append_assoc]
      exact hnames
    have hmembers := members_pretty step rest hlegible.2 (key_line (depth + step) name' _)
      ((value_gap m _).trans hnext) hnames' (by omega)
    rw [List.append_assoc] at hmembers
    have hcomma : mark ',' (prettyMembers step depth ((name', w) :: ms) ++ rest) =
        some (line (depth + step) ++ (quote name' ++ ':' :: ' ' ::
          (pretty step (depth + step) w ++ (prettyMembers step depth ms ++ rest)))) := by
      rw [prettyMembers, List.cons_append, mark_head _ (by decide), if_pos rfl]
      simp only [List.append_assoc, List.cons_append]
    refine members_succ_iff.mpr (.more hkey hvalue hcomma ?_)
    rw [put_new (new_of_nodup hnames)]
    exact hmembers

end

/-- An indented text is read as the value that was written. -/
theorem parse_pretty {v : Json} (h : v.Legible) (step : Nat) :
    parse (String.ofList (pretty step 0 v)) = some v.toVal := by
  have hvalue := value_pretty step (2 * (pretty step 0 v).length) 0 [] h (Nat.le_succ _)
  rw [List.append_nil] at hvalue
  unfold parse
  rw [String.toList_ofList, hvalue]
  rfl

/-- The indented text of an array begins with its bracket. -/
theorem pretty_arr (step depth : Nat) (vs : List Json) :
    ∃ cs, pretty step depth (.arr vs) = '[' :: cs := by
  cases vs with
  | nil => exact ⟨[']'], by rw [pretty]⟩
  | cons v vs => exact ⟨_, by rw [pretty]⟩

/-- Cut off, it is no text. -/
theorem parse_cut_pretty {vs : List Json} (h : (Json.arr vs).Legible) {step : Nat} {text : String}
    {after : List Char} (hcut : text.toList ++ after = pretty step 0 (.arr vs)) (hne : after ≠ []) :
    parse text = none := by
  have hvalue := value_pretty step (2 * (pretty step 0 (.arr vs)).length) 0 [] h (Nat.le_succ _)
  obtain ⟨cs, hcs⟩ := pretty_arr step 0 vs
  rw [List.append_nil, hcs] at hvalue
  rw [hcs] at hcut
  exact parse_cut hvalue hcut hne

end ChainKVM.Json
