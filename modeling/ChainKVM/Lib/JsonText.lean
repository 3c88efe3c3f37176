import ChainKVM.Lib.NumberText
import Mathlib.Data.List.Perm.Basic

/-!
# JSON texts

`JSON.stringify` writes the members of an object in the order that they have.
Every part of a text can be told from what follows it (`text_append_inj`), so
a text stands for one value with its members in one order.

Two values are the same JSON value (`Same`) when they differ at most in the
order of members. Those that are the same and have all their members in the
same order (`SameOrder`) are equal (`Same.eq`).
-/

namespace ChainKVM

open Js (IsDouble isNumberChar numberText)

namespace Json

/-! ## Strings -/

/-- The escapes of two characters, by the code units that they stand for. -/
def shortEscapes : List (Nat × Char) :=
  [(8, 'b'), (9, 't'), (10, 'n'), (12, 'f'), (13, 'r'), (34, '"'), (92, '\\')]

def shortEscape (n : Nat) : Option Char := shortEscapes.lookup n

/-- `QuoteJSONString` of one character. -/
def escape (c : Char) : List Char :=
  match shortEscape c.toNat with
  | some e => ['\\', e]
  | none =>
    if c.toNat < 32 then
      ['\\', 'u', '0', '0', Nat.digitChar (c.toNat / 16), Nat.digitChar (c.toNat % 16)]
    else [c]

/-- `QuoteJSONString`. -/
def quote (s : String) : List Char := '"' :: (s.toList.flatMap escape ++ ['"'])

/-- The three kinds of characters. -/
theorem escape_cases (c : Char) :
    (∃ e, shortEscape c.toNat = some e ∧ escape c = ['\\', e]) ∨
      (c.toNat < 32 ∧ escape c =
        ['\\', 'u', '0', '0', Nat.digitChar (c.toNat / 16), Nat.digitChar (c.toNat % 16)]) ∨
      (shortEscape c.toNat = none ∧ escape c = [c]) := by
  unfold escape
  cases h : shortEscape c.toNat with
  | some e => exact .inl ⟨e, rfl, rfl⟩
  | none =>
    dsimp only
    split
    next hlow => exact .inr (.inl ⟨hlow, rfl⟩)
    next => exact .inr (.inr ⟨rfl, rfl⟩)

theorem shortEscape_mem {n : Nat} {e : Char} (h : shortEscape n = some e) :
    (n, e) ∈ shortEscapes := by
  obtain ⟨before, after, heq, -⟩ := List.lookup_eq_some_iff.mp h
  rw [heq]
  exact List.mem_append_right _ List.mem_cons_self

theorem shortEscape_inj {m n : Nat} {e : Char} (hm : shortEscape m = some e)
    (hn : shortEscape n = some e) : m = n := by
  have hall : ∀ p ∈ shortEscapes, ∀ q ∈ shortEscapes, p.2 = q.2 → p.1 = q.1 := by decide
  exact hall _ (shortEscape_mem hm) _ (shortEscape_mem hn) rfl

theorem shortEscape_ne_u (n : Nat) : shortEscape n ≠ some 'u' := by
  intro h
  have hall : ∀ p ∈ shortEscapes, p.2 ≠ 'u' := by decide
  exact hall _ (shortEscape_mem h) rfl

theorem digitChar_inj {m n : Nat} (hm : m < 16) (hn : n < 16)
    (h : Nat.digitChar m = Nat.digitChar n) : m = n := by
  have hall : ∀ m < 16, ∀ n < 16, Nat.digitChar m = Nat.digitChar n → m = n := by decide
  exact hall m hm n hn h

/-- What a character is escaped to can be told from what follows. -/
theorem escape_append_inj {c d : Char} {as bs : List Char}
    (h : escape c ++ as = escape d ++ bs) : c = d ∧ as = bs := by
  -- the first two characters tell the three ways of writing a character apart: no
  -- short escape is `\u`, and a character that needs none is not the backslash
  rcases escape_cases c with ⟨e, hc, hcs⟩ | ⟨hlow, hcs⟩ | ⟨hc, hcs⟩
  · rw [hcs] at h
    rcases escape_cases d with ⟨f, hd, hds⟩ | ⟨hlow', hds⟩ | ⟨hd, hds⟩
    · rw [hds] at h
      cases h
      exact ⟨Char.toNat_inj.mp (shortEscape_inj hc hd), rfl⟩
    · rw [hds] at h
      cases h
      exact absurd hc (shortEscape_ne_u _)
    · rw [hds] at h
      cases h
      cases hd
  · rw [hcs] at h
    rcases escape_cases d with ⟨f, hd, hds⟩ | ⟨hlow', hds⟩ | ⟨hd, hds⟩
    · rw [hds] at h
      cases h
      exact absurd hd (shortEscape_ne_u _)
    · rw [hds] at h
      obtain ⟨hhigh, hrest⟩ := List.cons.inj (List.cons.inj (List.cons.inj (List.cons.inj
        (List.cons.inj h).2).2).2).2
      obtain ⟨hlast, htail⟩ := List.cons.inj hrest
      have hdiv := digitChar_inj (by omega) (by omega) hhigh
      have hmod := digitChar_inj (by omega) (by omega) hlast
      exact ⟨Char.toNat_inj.mp (by omega), htail⟩
    · rw [hds] at h
      cases (List.cons.inj h).1
      cases hd
  · rw [hcs] at h
    rcases escape_cases d with ⟨f, hd, hds⟩ | ⟨hlow', hds⟩ | ⟨hd, hds⟩
    · rw [hds] at h
      cases (List.cons.inj h).1
      cases hc
    · rw [hds] at h
      cases (List.cons.inj h).1
      cases hc
    · rw [hds] at h
      exact List.cons.inj h

/-- No escape starts with the quotation mark. -/
theorem escape_ne_quote (c : Char) (as bs : List Char) : escape c ++ as ≠ '"' :: bs := by
  intro h
  rcases escape_cases c with ⟨e, hc, hcs⟩ | ⟨hlow, hcs⟩ | ⟨hc, hcs⟩
  · rw [hcs] at h
    cases h
  · rw [hcs] at h
    cases h
  · rw [hcs] at h
    cases (List.cons.inj h).1
    cases hc

theorem quoted_append_inj {cs ds as bs : List Char}
    (h : cs.flatMap escape ++ '"' :: as = ds.flatMap escape ++ '"' :: bs) :
    cs = ds ∧ as = bs := by
  induction cs generalizing ds with
  | nil =>
    cases ds with
    | nil => exact ⟨rfl, (List.cons.inj h).2⟩
    | cons d ds =>
      rw [List.flatMap_cons, List.append_assoc] at h
      exact absurd h.symm (escape_ne_quote d _ _)
  | cons c cs ih =>
    cases ds with
    | nil =>
      rw [List.flatMap_cons, List.append_assoc] at h
      exact absurd h (escape_ne_quote c _ _)
    | cons d ds =>
      rw [List.flatMap_cons, List.flatMap_cons, List.append_assoc, List.append_assoc] at h
      obtain ⟨hhead, htail⟩ := escape_append_inj h
      obtain ⟨hrest, hafter⟩ := ih htail
      exact ⟨hhead ▸ hrest ▸ rfl, hafter⟩

theorem quote_append_inj {s t : String} {as bs : List Char} (h : quote s ++ as = quote t ++ bs) :
    s = t ∧ as = bs := by
  unfold quote at h
  rw [List.cons_append, List.cons_append, List.append_assoc, List.append_assoc] at h
  obtain ⟨hchars, hafter⟩ := quoted_append_inj (List.cons.inj h).2
  exact ⟨String.toList_inj.mp hchars, hafter⟩

/-! ## Texts -/

mutual

/-- `SerializeJSONProperty`. -/
def text : Json → List Char
  | .null => "null".toList
  | .bool b => if b then "true".toList else "false".toList
  | .num q => (numberText (.fin q)).toList
  | .str s => quote s
  | .arr items => '[' :: itemsText items
  | .obj members => '\x7b' :: membersText members

/-- The items of an array, and what closes it. -/
def itemsText : List Json → List Char
  | [] => [']']
  | v :: vs => v.text ++ moreItemsText vs

def moreItemsText : List Json → List Char
  | [] => [']']
  | v :: vs => ',' :: (v.text ++ moreItemsText vs)

/-- The members of an object, and what closes it. -/
def membersText : Members → List Char
  | [] => ['\x7d']
  | (name, v) :: members => quote name ++ ':' :: (v.text ++ moreMembersText members)

def moreMembersText : Members → List Char
  | [] => ['\x7d']
  | (name, v) :: members => ',' :: (quote name ++ ':' :: (v.text ++ moreMembersText members))

end

/-! ## Well-formed values -/

mutual

/-- The numbers are doubles, and no object has a member twice. -/
def WellFormed : Json → Prop
  | .num q => IsDouble q
  | .arr items => ItemsWellFormed items
  | .obj members => (members.map (·.1)).Nodup ∧ MembersWellFormed members
  | _ => True

def ItemsWellFormed : List Json → Prop
  | [] => True
  | v :: vs => v.WellFormed ∧ ItemsWellFormed vs

def MembersWellFormed : Members → Prop
  | [] => True
  | (_, v) :: members => v.WellFormed ∧ MembersWellFormed members

end

/-! ## Telling texts apart -/

/-- The kinds of values. -/
def kind : Json → Nat
  | .null => 0
  | .bool _ => 1
  | .num _ => 2
  | .str _ => 3
  | .arr _ => 4
  | .obj _ => 5

/-- The kind of the value that a text is of, by its first character. -/
def kindOf (c : Char) : Option Nat :=
  if isNumberChar c then some 2
  else [('n', 0), ('t', 1), ('f', 1), ('"', 3), ('[', 4), ('\x7b', 5)].lookup c

theorem kindOf_head {v : Json} (h : v.WellFormed) :
    ∃ c cs, v.text = c :: cs ∧ kindOf c = some v.kind := by
  cases v with
  | null => exact ⟨'n', _, rfl, by decide⟩
  | bool b =>
    cases b with
    | true => exact ⟨'t', _, rfl, by decide⟩
    | false => exact ⟨'f', _, rfl, by decide⟩
  | num q =>
    obtain ⟨c, cs, htext⟩ := List.exists_cons_of_ne_nil (Js.numberText_ne_nil h)
    refine ⟨c, cs, htext, ?_⟩
    unfold kindOf
    rw [if_pos]
    · rfl
    · exact Js.isNumberChar_numberText h c (by rw [htext]; exact List.mem_cons_self)
  | str s => exact ⟨'"', _, rfl, (by decide : kindOf '"' = some 3)⟩
  | arr items => exact ⟨'[', _, rfl, (by decide : kindOf '[' = some 4)⟩
  | obj members => exact ⟨'\x7b', _, rfl, (by decide : kindOf '\x7b' = some 5)⟩

theorem kind_eq {a b : Json} {as bs : List Char} (ha : a.WellFormed) (hb : b.WellFormed)
    (h : a.text ++ as = b.text ++ bs) : a.kind = b.kind := by
  obtain ⟨c, cs, hatext, hakind⟩ := kindOf_head ha
  obtain ⟨d, ds, hbtext, hbkind⟩ := kindOf_head hb
  rw [hatext, hbtext] at h
  have hhead : c = d := (List.cons.inj h).1
  rw [hhead, hbkind] at hakind
  exact (Option.some.inj hakind).symm

/-- No text starts with a character that is of no kind. -/
theorem text_ne_of_kindOf_none {v : Json} (h : v.WellFormed) {c : Char} (hc : kindOf c = none)
    (as bs : List Char) : v.text ++ as ≠ c :: bs := by
  intro heq
  obtain ⟨d, ds, htext, hkind⟩ := kindOf_head h
  rw [htext] at heq
  have hhead : d = c := (List.cons.inj heq).1
  rw [hhead, hc] at hkind
  cases hkind

/-- What may follow a number. -/
def Delimits (cs : List Char) : Prop := ∀ c ∈ cs.head?, isNumberChar c = false

theorem delimits_nil : Delimits [] := fun c hc => by cases hc

theorem delimits_of_cons {c : Char} (h : isNumberChar c = false) (cs : List Char) :
    Delimits (c :: cs) := by
  intro d hd
  rw [← Option.some.inj hd]
  exact h

theorem delimits_moreItems (vs : List Json) (as : List Char) : Delimits (moreItemsText vs ++ as) := by
  cases vs with
  | nil => exact delimits_of_cons (by decide) _
  | cons v vs => exact delimits_of_cons (by decide) _

theorem delimits_moreMembers (members : Members) (as : List Char) :
    Delimits (moreMembersText members ++ as) := by
  cases members with
  | nil => exact delimits_of_cons (by decide) _
  | cons m members => exact delimits_of_cons (by decide) _

theorem number_append_inj {p q : Rat} {as bs : List Char} (hp : IsDouble p) (hq : IsDouble q)
    (has : Delimits as) (hbs : Delimits bs)
    (h : (numberText (.fin p)).toList ++ as = (numberText (.fin q)).toList ++ bs) :
    p = q ∧ as = bs := by
  have htexts := Js.takeWhile_span (Js.isNumberChar_numberText hp) has
  rw [h, Js.takeWhile_span (Js.isNumberChar_numberText hq) hbs] at htexts
  rw [htexts] at h
  exact ⟨(Js.numberText_inj hq hp (String.toList_inj.mp htexts)).symm, List.append_cancel_left h⟩

mutual

/-- A text can be told from what follows, and stands for one value. -/
theorem text_append_inj : ∀ {a b : Json} {as bs : List Char}, a.WellFormed → b.WellFormed →
    Delimits as → Delimits bs → a.text ++ as = b.text ++ bs → a = b ∧ as = bs
  | .null, b, as, bs, ha, hb, _, _, h => by
    have hkind := kind_eq ha hb h
    cases b with
    | null => exact ⟨rfl, List.append_cancel_left h⟩
    | _ => cases hkind
  | .bool x, b, as, bs, ha, hb, _, _, h => by
    have hkind := kind_eq ha hb h
    cases b with
    | bool y =>
      cases x with
      | true =>
        cases y with
        | true => exact ⟨rfl, List.append_cancel_left h⟩
        | false => cases h
      | false =>
        cases y with
        | true => cases h
        | false => exact ⟨rfl, List.append_cancel_left h⟩
    | _ => cases hkind
  | .num p, b, as, bs, ha, hb, has, hbs, h => by
    have hkind := kind_eq ha hb h
    cases b with
    | num q =>
      -- nothing closes a number, so what follows must not go on with it
      obtain ⟨hsame, hrest⟩ := number_append_inj ha hb has hbs h
      exact ⟨congrArg Json.num hsame, hrest⟩
    | _ => cases hkind
  | .str s, b, as, bs, ha, hb, _, _, h => by
    have hkind := kind_eq ha hb h
    cases b with
    | str t =>
      obtain ⟨hsame, hrest⟩ := quote_append_inj h
      exact ⟨congrArg Json.str hsame, hrest⟩
    | _ => cases hkind
  | .arr xs, b, as, bs, ha, hb, _, _, h => by
    have hkind := kind_eq ha hb h
    cases b with
    | arr ys =>
      obtain ⟨hsame, hrest⟩ := itemsText_append_inj ha hb (List.cons.inj h).2
      exact ⟨congrArg Json.arr hsame, hrest⟩
    | _ => cases hkind
  | .obj ms, b, as, bs, ha, hb, _, _, h => by
    have hkind := kind_eq ha hb h
    cases b with
    | obj ns =>
      obtain ⟨hsame, hrest⟩ := membersText_append_inj ha.2 hb.2 (List.cons.inj h).2
      exact ⟨congrArg Json.obj hsame, hrest⟩
    | _ => cases hkind

theorem itemsText_append_inj : ∀ {xs ys : List Json} {as bs : List Char}, ItemsWellFormed xs →
    ItemsWellFormed ys → itemsText xs ++ as = itemsText ys ++ bs → xs = ys ∧ as = bs
  | [], [], as, bs, _, _, h => ⟨rfl, (List.cons.inj h).2⟩
  | [], y :: ys, as, bs, _, hy, h => by
    rw [itemsText, itemsText, List.append_assoc] at h
    exact absurd h.symm (text_ne_of_kindOf_none hy.1 (by decide) _ _)
  | x :: xs, [], as, bs, hx, _, h => by
    rw [itemsText, itemsText, List.append_assoc] at h
    exact absurd h (text_ne_of_kindOf_none hx.1 (by decide) _ _)
  | x :: xs, y :: ys, as, bs, hx, hy, h => by
    rw [itemsText, itemsText, List.append_assoc, List.append_assoc] at h
    obtain ⟨hhead, htail⟩ := text_append_inj hx.1 hy.1 (delimits_moreItems xs as)
      (delimits_moreItems ys bs) h
    obtain ⟨hrest, hafter⟩ := moreItemsText_append_inj hx.2 hy.2 htail
    exact ⟨hhead ▸ hrest ▸ rfl, hafter⟩

theorem moreItemsText_append_inj : ∀ {xs ys : List Json} {as bs : List Char}, ItemsWellFormed xs →
    ItemsWellFormed ys → moreItemsText xs ++ as = moreItemsText ys ++ bs → xs = ys ∧ as = bs
  | [], [], as, bs, _, _, h => ⟨rfl, (List.cons.inj h).2⟩
  | [], y :: ys, as, bs, _, _, h => by cases (List.cons.inj h).1
  | x :: xs, [], as, bs, _, _, h => by cases (List.cons.inj h).1
  | x :: xs, y :: ys, as, bs, hx, hy, h => by
    rw [moreItemsText, moreItemsText, List.cons_append, List.cons_append, List.append_assoc,
      List.append_assoc] at h
    obtain ⟨hhead, htail⟩ := text_append_inj hx.1 hy.1 (delimits_moreItems xs as)
      (delimits_moreItems ys bs) (List.cons.inj h).2
    obtain ⟨hrest, hafter⟩ := moreItemsText_append_inj hx.2 hy.2 htail
    exact ⟨hhead ▸ hrest ▸ rfl, hafter⟩

theorem membersText_append_inj : ∀ {ms ns : Members} {as bs : List Char}, MembersWellFormed ms →
    MembersWellFormed ns → membersText ms ++ as = membersText ns ++ bs → ms = ns ∧ as = bs
  | [], [], as, bs, _, _, h => ⟨rfl, (List.cons.inj h).2⟩
  | [], (name, v) :: ns, as, bs, _, _, h => by cases (List.cons.inj h).1
  | (name, v) :: ms, [], as, bs, _, _, h => by cases (List.cons.inj h).1
  | (name, v) :: ms, (name', w) :: ns, as, bs, hm, hn, h => by
    rw [membersText, membersText, List.append_assoc, List.append_assoc] at h
    obtain ⟨hname, hmember⟩ := quote_append_inj h
    rw [List.cons_append, List.cons_append, List.append_assoc, List.append_assoc] at hmember
    obtain ⟨hvalue, htail⟩ := text_append_inj hm.1 hn.1 (delimits_moreMembers ms as)
      (delimits_moreMembers ns bs) (List.cons.inj hmember).2
    obtain ⟨hrest, hafter⟩ := moreMembersText_append_inj hm.2 hn.2 htail
    exact ⟨hname ▸ hvalue ▸ hrest ▸ rfl, hafter⟩

theorem moreMembersText_append_inj : ∀ {ms ns : Members} {as bs : List Char},
    MembersWellFormed ms → MembersWellFormed ns →
    moreMembersText ms ++ as = moreMembersText ns ++ bs → ms = ns ∧ as = bs
  | [], [], as, bs, _, _, h => ⟨rfl, (List.cons.inj h).2⟩
  | [], (name, v) :: ns, as, bs, _, _, h => by cases (List.cons.inj h).1
  | (name, v) :: ms, [], as, bs, _, _, h => by cases (List.cons.inj h).1
  | (name, v) :: ms, (name', w) :: ns, as, bs, hm, hn, h => by
    rw [moreMembersText, moreMembersText, List.cons_append, List.cons_append, List.append_assoc,
      List.append_assoc] at h
    obtain ⟨hname, hmember⟩ := quote_append_inj (List.cons.inj h).2
    rw [List.cons_append, List.cons_append, List.append_assoc, List.append_assoc] at hmember
    obtain ⟨hvalue, htail⟩ := text_append_inj hm.1 hn.1 (delimits_moreMembers ms as)
      (delimits_moreMembers ns bs) (List.cons.inj hmember).2
    obtain ⟨hrest, hafter⟩ := moreMembersText_append_inj hm.2 hn.2 htail
    exact ⟨hname ▸ hvalue ▸ hrest ▸ rfl, hafter⟩

end

/-- A text stands for one value. -/
theorem text_inj {a b : Json} (ha : a.WellFormed) (hb : b.WellFormed) (h : a.text = b.text) :
    a = b := by
  have hend : a.text ++ [] = b.text ++ [] := by rw [h]
  exact (text_append_inj ha hb delimits_nil delimits_nil hend).1

/-! ## The same value -/

mutual

/-- The same JSON value: the members of objects in any order. -/
inductive Same : Json → Json → Prop
  | null : Same .null .null
  | bool (b : Bool) : Same (.bool b) (.bool b)
  | num (q : Rat) : Same (.num q) (.num q)
  | str (s : String) : Same (.str s) (.str s)
  | arr {xs ys : List Json} : SameItems xs ys → Same (.arr xs) (.arr ys)
  | obj {ms ns ns' : Members} : ns.Perm ns' → SameMembers ms ns' → Same (.obj ms) (.obj ns)

inductive SameItems : List Json → List Json → Prop
  | nil : SameItems [] []
  | cons {x y : Json} {xs ys : List Json} : Same x y → SameItems xs ys →
      SameItems (x :: xs) (y :: ys)

inductive SameMembers : Members → Members → Prop
  | nil : SameMembers [] []
  | cons {name : String} {v w : Json} {ms ns : Members} : Same v w → SameMembers ms ns →
      SameMembers ((name, v) :: ms) ((name, w) :: ns)

end

mutual

/-- Wherever two values correspond, their objects have the same members in the
same order. -/
def SameOrder : Json → Json → Prop
  | .arr xs, .arr ys => ItemsSameOrder xs ys
  | .obj ms, .obj ns => ms.map (·.1) = ns.map (·.1) ∧ MembersSameOrder ms ns
  | _, _ => True

def ItemsSameOrder : List Json → List Json → Prop
  | x :: xs, y :: ys => SameOrder x y ∧ ItemsSameOrder xs ys
  | _, _ => True

def MembersSameOrder : Members → Members → Prop
  | (_, v) :: ms, (_, w) :: ns => SameOrder v w ∧ MembersSameOrder ms ns
  | _, _ => True

end

mutual

theorem Same.refl : ∀ v : Json, Same v v
  | .null => .null
  | .bool b => .bool b
  | .num q => .num q
  | .str s => .str s
  | .arr xs => .arr (SameItems.refl xs)
  | .obj ms => .obj (List.Perm.refl ms) (SameMembers.refl ms)

theorem SameItems.refl : ∀ xs : List Json, SameItems xs xs
  | [] => .nil
  | x :: xs => .cons (Same.refl x) (SameItems.refl xs)

theorem SameMembers.refl : ∀ ms : Members, SameMembers ms ms
  | [] => .nil
  | (_, v) :: ms => .cons (Same.refl v) (SameMembers.refl ms)

end

mutual

theorem SameOrder.refl : ∀ v : Json, SameOrder v v
  | .null => trivial
  | .bool _ => trivial
  | .num _ => trivial
  | .str _ => trivial
  | .arr xs => ItemsSameOrder.refl xs
  | .obj ms => ⟨rfl, MembersSameOrder.refl ms⟩

theorem ItemsSameOrder.refl : ∀ xs : List Json, ItemsSameOrder xs xs
  | [] => trivial
  | x :: xs => ⟨SameOrder.refl x, ItemsSameOrder.refl xs⟩

theorem MembersSameOrder.refl : ∀ ms : Members, MembersSameOrder ms ms
  | [] => trivial
  | (_, v) :: ms => ⟨SameOrder.refl v, MembersSameOrder.refl ms⟩

end

theorem SameMembers.names : ∀ {ms ns : Members}, SameMembers ms ns →
    ms.map (·.1) = ns.map (·.1)
  | [], _, h => by
    cases h
    rfl
  | (_, _) :: _, _, h => by
    cases h with
    | cons _ htail => rw [List.map_cons, List.map_cons, htail.names]

/-- A permutation of members that keeps the names in place changes nothing. -/
theorem eq_of_perm_of_names {ms ns : Members} (h : ms.Perm ns)
    (hnames : ms.map (·.1) = ns.map (·.1)) (hnodup : (ms.map (·.1)).Nodup) : ms = ns := by
  induction ms generalizing ns with
  | nil => exact (List.nil_perm.mp h).symm
  | cons m ms ih =>
    cases ns with
    | nil => exact List.perm_nil.mp h
    | cons n ns =>
      rw [List.map_cons, List.map_cons] at hnames
      obtain ⟨hname, hrest⟩ := List.cons.inj hnames
      rw [List.map_cons, List.nodup_cons] at hnodup
      have hsame : m = n := by
        rcases List.mem_cons.mp (h.mem_iff.mp List.mem_cons_self) with heq | hlater
        · exact heq
        · have hmem := List.mem_map_of_mem (f := fun m : String × Json => m.1) hlater
          rw [← hrest] at hmem
          exact absurd hmem hnodup.1
      subst hsame
      rw [ih (List.perm_cons m |>.mp h) hrest hnodup.2]

mutual

/-- The same value with its members in the same order is one value. -/
theorem Same.eq : ∀ {a b : Json}, Same a b → SameOrder a b → a.WellFormed → a = b
  | .null, b, h, _, _ => by cases h; rfl
  | .bool _, b, h, _, _ => by cases h; rfl
  | .num _, b, h, _, _ => by cases h; rfl
  | .str _, b, h, _, _ => by cases h; rfl
  | .arr xs, b, h, horder, hwf => by
    cases h with
    | arr hitems => exact congrArg Json.arr (SameItems.eq hitems horder hwf)
  | .obj ms, b, h, horder, hwf => by
    cases h with
    | @obj _ ns ns' hperm hmembers =>
      have hnames := hmembers.names.symm.trans horder.1
      have hnodup := hwf.1
      rw [horder.1] at hnodup
      have hns := eq_of_perm_of_names hperm hnames.symm hnodup
      subst hns
      exact congrArg Json.obj (SameMembers.eq hmembers horder.2 hwf.2)

theorem SameItems.eq : ∀ {xs ys : List Json}, SameItems xs ys → ItemsSameOrder xs ys →
    ItemsWellFormed xs → xs = ys
  | [], ys, h, _, _ => by cases h; rfl
  | x :: xs, ys, h, horder, hwf => by
    cases h with
    | cons hhead htail =>
      rw [Same.eq hhead horder.1 hwf.1, SameItems.eq htail horder.2 hwf.2]

theorem SameMembers.eq : ∀ {ms ns : Members}, SameMembers ms ns → MembersSameOrder ms ns →
    MembersWellFormed ms → ms = ns
  | [], ns, h, _, _ => by cases h; rfl
  | (_, v) :: ms, ns, h, horder, hwf => by
    cases h with
    | cons hhead htail =>
      rw [Same.eq hhead horder.1 hwf.1, SameMembers.eq htail horder.2 hwf.2]

end

end Json

namespace Js

/-! ## The values that are written -/

/-- `JSON.stringify`; `none` for `undefined`. -/
def stringify (v : Val) : Option String := v.toJson.map fun json => String.ofList json.text

mutual

/-- Data: nothing built in, the numbers are doubles, and no object has a member
twice. -/
def Val.Plain : Val → Prop
  | .num (.fin q) => IsDouble q
  | .arr items => ItemsPlain items
  | .obj members => (members.map (·.1)).Nodup ∧ MembersPlain members
  | .proto _ => False
  | .func _ => False
  | _ => True

def ItemsPlain : List Val → Prop
  | [] => True
  | v :: vs => v.Plain ∧ ItemsPlain vs

def MembersPlain : List (String × Val) → Prop
  | [] => True
  | (_, v) :: members => v.Plain ∧ MembersPlain members

end

theorem membersToJson_names (members : List (String × Val)) :
    ((membersToJson members).map (·.1)).Sublist (members.map (·.1)) := by
  induction members with
  | nil => exact List.Sublist.slnil
  | cons m members ih =>
    obtain ⟨name, v⟩ := m
    rw [membersToJson, List.map_cons]
    split
    · rw [List.map_cons]
      exact ih.cons_cons name
    · exact ih.cons name

mutual

theorem toJson_wellFormed : ∀ {v : Val} {json : Json}, v.Plain → v.toJson = some json →
    json.WellFormed
  | .undefined, _, _, h => by cases h
  | .null, _, _, h => by cases h; trivial
  | .bool _, _, _, h => by cases h; trivial
  | .num (.fin _), _, hplain, h => by cases h; exact hplain
  | .num .nan, _, _, h => by cases h; trivial
  | .num .negInf, _, _, h => by cases h; trivial
  | .num .posInf, _, _, h => by cases h; trivial
  | .str _, _, _, h => by cases h; trivial
  | .arr items, _, hplain, h => by
    cases h
    exact itemsToJson_wellFormed hplain
  | .obj members, _, hplain, h => by
    cases h
    exact ⟨hplain.1.sublist (membersToJson_names members), membersToJson_wellFormed hplain.2⟩
  | .date _, _, _, h => by cases h; trivial
  | .proto _, _, hplain, _ => hplain.elim
  | .func _, _, hplain, _ => hplain.elim

theorem itemsToJson_wellFormed : ∀ {items : List Val}, ItemsPlain items →
    Json.ItemsWellFormed (itemsToJson items)
  | [], _ => trivial
  | v :: vs, hplain => by
    refine ⟨?_, itemsToJson_wellFormed hplain.2⟩
    cases h : v.toJson with
    | none => trivial
    | some json => exact toJson_wellFormed hplain.1 h

theorem membersToJson_wellFormed : ∀ {members : List (String × Val)}, MembersPlain members →
    Json.MembersWellFormed (membersToJson members)
  | [], _ => trivial
  | (name, v) :: members, hplain => by
    have hrest := membersToJson_wellFormed hplain.2
    rw [membersToJson]
    split
    next json h => exact ⟨toJson_wellFormed hplain.1 h, hrest⟩
    next => exact hrest

end

end Js

end ChainKVM
