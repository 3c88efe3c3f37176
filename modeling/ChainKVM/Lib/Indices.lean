import ChainKVM.Lib.NumberText

/-!
# Arithmetic on indices

`+`, `-` and `*` of JavaScript, and `Array.prototype.slice`. A natural below
`2 ^ 53` is a double and its text is its digits (`numberText_nat`). `Agrees j x n`
says as much of a number `x` as an index needs: it is `n` below `2 ^ j`, and
beyond that at least `2 ^ j`.
-/

namespace ChainKVM.Js

namespace Num

/-! ## The operators -/

/-- `a + b`. -/
def add : Num → Num → Num
  | nan, _ => nan
  | _, nan => nan
  | fin p, fin q => ofRat (p + q)
  | posInf, negInf => nan
  | negInf, posInf => nan
  | posInf, _ => posInf
  | _, posInf => posInf
  | negInf, _ => negInf
  | _, negInf => negInf

/-- `a - b`. -/
def sub (a b : Num) : Num := a.add b.neg

/-- The number is below zero. -/
def negative : Num → Bool
  | negInf => true
  | fin q => q < 0
  | _ => false

/-- `a * b`. -/
def mul : Num → Num → Num
  | nan, _ => nan
  | _, nan => nan
  | fin p, fin q => ofRat (p * q)
  | a, b =>
    if a = fin 0 ∨ b = fin 0 then nan
    else if a.negative = b.negative then posInf
    else negInf

end Num

/-- `ToString` of a primitive. -/
def Val.text : Val → String
  | .undefined => "undefined"
  | .null => "null"
  | v => itemText v

/-- `a + b`, where neither is a date: a text as soon as one of them is. `none`
when it throws. -/
def Val.plus (a b : Val) : Option Val := do
  let pa ← a.toPrimitive
  let pb ← b.toPrimitive
  match pa, pb with
  | .str s, pb => some (.str (s ++ pb.text))
  | pa, .str t => some (.str (pa.text ++ t))
  | pa, pb => some (.num (pa.toNumber.add pb.toNumber))

/-- `a - b`. -/
def Val.minus (a b : Val) : Option Num := do
  let pa ← a.toPrimitive
  let pb ← b.toPrimitive
  some (pa.toNumber.sub pb.toNumber)

/-- `a * b`. -/
def Val.times (a b : Val) : Option Num := do
  let pa ← a.toPrimitive
  let pb ← b.toPrimitive
  some (pa.toNumber.mul pb.toNumber)

/-! ## `slice` -/

/-- Where an argument of `slice` stands in an array of length `len`. -/
def sliceIndex (len : Nat) : Num → Nat
  | .nan => 0
  | .negInf => 0
  | .posInf => len
  | .fin q =>
    let i := if 0 ≤ q then q.floor else -((-q).floor)
    if i < 0 then (len + i).toNat else min i.toNat len

/-- `items.slice(start, stop)`. -/
def slice {α : Type} (items : List α) (start stop : Num) : List α :=
  let k := sliceIndex items.length start
  (items.drop k).take (sliceIndex items.length stop - k)

/-! ## Naturals are exact -/

namespace Num

/-- A natural that fits in 53 bits is a double. -/
theorem ofRat_exact {n : Nat} (h : n < 2 ^ 53) : ofRat (n : Rat) = fin n := by
  rcases Nat.eq_zero_or_pos n with rfl | hn
  · rfl
  have hpos : (0 : Rat) < n := Nat.cast_pos.mpr hn
  have hbits : (n : Rat) < 2 ^ (53 : Int) := by
    have hcast : ((n : Nat) : Rat) < ((2 ^ 53 : Nat) : Rat) := Nat.cast_lt.mpr h
    rwa [Nat.cast_pow, Nat.cast_ofNat] at hcast
  -- the unit of the last place is one at most, so it divides
  have hexponent : exponent (n : Rat) < 53 := by
    have hlow := lt_of_le_of_lt (exponent_bounds hpos).1 hbits
    exact (zpow_lt_zpow_iff_right₀ (by norm_num)).mp hlow
  have hunit : unitExponent (n : Rat) ≤ 0 := by
    unfold unitExponent
    split <;> omega
  have hmultiple : (n : Rat) = ((n * 2 ^ (0 - unitExponent (n : Rat)).toNat : Nat) : Int) *
      2 ^ unitExponent (n : Rat) := by
    have hsplit := two_zpow_split hunit
    rw [zpow_zero] at hsplit
    rw [Int.cast_natCast] at hsplit ⊢
    rw [Nat.cast_mul, mul_assoc, ← hsplit, mul_one]
  have hhalf : 0 < (2 : Rat) ^ unitExponent (n : Rat) / 2 := half_pos (two_zpow_pos _)
  rw [ofRat_of_pos hpos]
  refine roundPos_of_multiple hmultiple (by linarith) (by linarith) ?_
  rw [twoPow_eq, not_le]
  exact lt_of_lt_of_le hbits (two_zpow_le (by decide))

/-- The number is `b` or more. -/
def AtLeast (b : Rat) : Num → Prop
  | posInf => True
  | fin q => b ≤ q
  | _ => False

/-- Rounding does not go below a power of 2. -/
theorem ofRat_atLeast {j : Nat} {q : Rat} (h : (2 : Rat) ^ j ≤ q) : AtLeast (2 ^ j) (ofRat q) := by
  have hpos : 0 < q := lt_of_lt_of_le (by positivity) h
  obtain ⟨hlow, hhigh⟩ := exponent_bounds hpos
  have hexponent : (j : Int) ≤ exponent q := by
    have hlt : (2 : Rat) ^ (j : Int) < 2 ^ (exponent q + 1) := by
      rw [zpow_natCast]
      exact lt_of_le_of_lt h hhigh
    have hexp := (zpow_lt_zpow_iff_right₀ (by norm_num)).mp hlt
    omega
  have hle : unitExponent q ≤ exponent q := by
    unfold unitExponent
    split <;> omega
  have hunit := two_zpow_pos (unitExponent q)
  have hsplit := two_zpow_split hle
  generalize (2 ^ (exponent q - unitExponent q).toNat : Nat) = m at hsplit
  -- the power below `q` is a multiple of the unit, and `q` is not rounded below it
  have hround : (m : Int) ≤ roundHalfEven (q / 2 ^ unitExponent q) := by
    have hquot : ((m : Int) : Rat) ≤ q / 2 ^ unitExponent q := by
      rw [le_div_iff₀ hunit, ← hsplit]
      exact hlow
    have hnear := (roundHalfEven_near (q / 2 ^ unitExponent q)).1
    have hlt : ((m : Int) : Rat) < roundHalfEven (q / 2 ^ unitExponent q) + 1 := by linarith
    have hlt' : (m : Int) < roundHalfEven (q / 2 ^ unitExponent q) + 1 := by exact_mod_cast hlt
    omega
  rw [ofRat_of_pos hpos, roundPos_eq]
  split
  · trivial
  · show (2 : Rat) ^ j ≤ _
    rw [twoPow_eq]
    calc (2 : Rat) ^ j = 2 ^ (j : Int) := (zpow_natCast 2 j).symm
      _ ≤ 2 ^ exponent q := two_zpow_le hexponent
      _ = ((m : Int) : Rat) * 2 ^ unitExponent q := hsplit
      _ ≤ _ := mul_le_mul_of_nonneg_right (by exact_mod_cast hround) (le_of_lt hunit)

end Num

open Js.Num

/-! ## Their texts -/

/-- Ten times a number is written with a zero more. -/
theorem toString_scaled {m : Nat} (hm : 0 < m) (j : Nat) :
    (toString (m * 10 ^ j)).toList = (toString m).toList ++ List.replicate j '0' := by
  rw [Nat.toString_eq_repr, Nat.toString_eq_repr, Nat.toList_repr, Nat.toList_repr]
  induction j with
  | zero => rw [pow_zero, mul_one, List.replicate_zero, List.append_nil]
  | succ j ih =>
    have hpos : 0 < m * 10 ^ j := Nat.mul_pos hm (Nat.pow_pos (by decide))
    have hnext : m * 10 ^ (j + 1) = 10 * (m * 10 ^ j) + 0 := by
      rw [Nat.pow_succ, ← Nat.mul_assoc, Nat.mul_comm 10, Nat.add_zero]
    rw [hnext, ← Nat.toDigits_append_toDigits (by decide) hpos (by decide), ih,
      Nat.toDigits_zero, List.append_assoc, ← List.replicate_succ']

theorem magnitude_nat {n : Nat} (hn : 0 < n) : magnitude n = (toString n).length := by
  have hone : (1 : Rat) ≤ n := Nat.one_le_cast.mpr hn
  have hfloor : (n : Rat).floor = n := Rat.floor_intCast n
  unfold magnitude
  rw [if_pos hone, hfloor]
  rfl

theorem length_toString_le {n k : Nat} (hk : 0 < k) (h : n < 10 ^ k) : (toString n).length ≤ k := by
  rw [Nat.toString_eq_repr]
  exact (Nat.length_repr_le_iff hk).mpr h

/-- Digits of `n`, with zeros for the ones left out, are `n` when they give it
back. -/
theorem eq_of_gives_back {m n d k : Nat} (hn : n < 2 ^ 53) (hk : k ≤ d)
    (hback : ofRat (((m : Int) : Rat) * tenPow (d - k)) = .fin n) : m * 10 ^ (d - k) = n := by
  have hcast : ((m : Int) : Rat) * tenPow (d - k) = ((m * 10 ^ (d - k) : Nat) : Rat) := by
    have hexp : (d : Int) - k = ((d - k : Nat) : Int) := by omega
    rw [tenPow_eq, hexp, zpow_natCast]
    push_cast
    ring
  rw [hcast] at hback
  by_cases hbig : m * 10 ^ (d - k) < 2 ^ 53
  · rw [ofRat_exact hbig] at hback
    exact_mod_cast Num.fin.inj hback
  · have hge : ((2 : Rat) ^ 53) ≤ ((m * 10 ^ (d - k) : Nat) : Rat) := by
      exact_mod_cast Nat.le_of_not_lt hbig
    have hatLeast := ofRat_atLeast hge
    rw [hback] at hatLeast
    have hle : (2 : Rat) ^ 53 ≤ n := hatLeast
    exact absurd (by exact_mod_cast hle) (Nat.not_le.mpr hn)

/-- The digits of `m` without the zeros at their end are laid out as the number
that they begin, if that has at most 21 digits. -/
theorem layout_stripped {m n k : Nat} (hm : 0 < m) (hlen : (toString n).length ≤ 21)
    (hk : k ≤ (toString n).length) (hvalue : m * 10 ^ ((toString n).length - k) = n) :
    layout (String.ofList ((toString m).toList.reverse.dropWhile (· = '0')).reverse)
      ((toString n).length + ((toString m).length - k)) = toString n := by
  have hpos : 0 < (toString n).length := Nat.length_repr_pos
  have htext := toString_scaled hm ((toString n).length - k)
  rw [hvalue] at htext
  have hlength := congrArg List.length htext
  rw [List.length_append, List.length_replicate, String.length_toList, String.length_toList]
    at hlength
  obtain ⟨z, hstrip⟩ := strip_zeros (toString m).toList
  generalize ((toString m).toList.reverse.dropWhile (· = '0')).reverse = cs at *
  have hcs := congrArg List.length hstrip
  rw [List.length_append, List.length_replicate, String.length_toList] at hcs
  have hpoint : ((toString n).length : Int) + ((toString m).length - k) = (toString n).length := by
    omega
  rw [hpoint]
  apply String.toList_inj.mp
  unfold layout
  dsimp only
  rw [String.length_ofList, if_pos ⟨by omega, by omega⟩, String.toList_append, String.toList_ofList,
    toList_zeros, htext, hstrip, List.append_assoc, ← List.replicate_add]
  congr 2
  omega

/-- A natural that fits in 53 bits is written as its digits. -/
theorem numberText_nat {n : Nat} (h : n < 2 ^ 53) : numberText (.fin n) = toString n := by
  rcases Nat.eq_zero_or_pos n with rfl | hn
  · rfl
  have hpos : (0 : Rat) < n := Nat.cast_pos.mpr hn
  have hten : (2 : Nat) ^ 53 < 10 ^ 16 := by norm_num
  have hlen : (toString n).length ≤ 16 := length_toString_le (by decide) (by omega)
  -- all the digits of `n` give it back, so the search is over when it has them
  have hall : ofRat ((roundHalfEven ((n : Rat) / tenPow (magnitude n - (toString n).length)) : Rat) *
      tenPow (magnitude n - (toString n).length)) = .fin n := by
    have hround : roundHalfEven (n : Rat) = n :=
      roundHalfEven_of_near (by push_cast; linarith) (by push_cast; linarith)
    rw [magnitude_nat hn, sub_self, tenPow_eq, zpow_zero, div_one, mul_one, hround]
    exact ofRat_exact h
  obtain ⟨s, k, hs, hk, hback, hshortest⟩ := shortest_within hpos hall Nat.length_repr_pos
    (by omega : (toString n).length < 1 + 17)
  obtain ⟨m, rfl⟩ := Int.eq_ofNat_of_zero_le (le_of_lt hs)
  rw [magnitude_nat hn] at hback hshortest
  rw [numberText_of_pos hpos]
  unfold positiveText
  rw [magnitude_nat hn, hshortest]
  exact layout_stripped (Int.natCast_pos.mp hs) (by omega) hk (eq_of_gives_back h hk hback)

/-! ## Numerals -/

theorem isSpace_of_isDigit {c : Char} (h : c.isDigit = true) : isSpace c = false := by
  obtain ⟨hlow, hhigh⟩ := Char.isDigit_iff_toNat.mp h
  have hzero : '0'.toNat = 48 := rfl
  have hnine : '9'.toNat = 57 := rfl
  unfold isSpace
  rw [Bool.or_eq_false_iff]
  constructor
  · rw [List.contains_eq_mem, decide_eq_false_iff_not]
    simp only [List.mem_cons, List.not_mem_nil, or_false]
    omega
  · rw [Bool.and_eq_false_iff, decide_eq_false_iff_not]
    omega

/-- Only white space is trimmed. -/
theorem trim_of_noSpace {cs : List Char} (h : ∀ c ∈ cs, isSpace c = false) : trim cs = cs := by
  have hkeep : ∀ ds : List Char, (∀ c ∈ ds, isSpace c = false) → ds.dropWhile isSpace = ds := by
    intro ds hds
    cases ds with
    | nil => rfl
    | cons c ds =>
      rw [List.dropWhile_cons_of_neg]
      rw [hds c List.mem_cons_self]
      decide
  unfold trim
  rw [hkeep cs h, hkeep cs.reverse fun c hc => h c (List.mem_reverse.mp hc), List.reverse_reverse]

theorem trim_digits {cs : List Char} (h : ∀ c ∈ cs, c.isDigit = true) : trim cs = cs :=
  trim_of_noSpace fun c hc => isSpace_of_isDigit (h c hc)

/-- A numeral stands for the double closest to its value. -/
theorem stringToNumber_digits {s : String} (hne : s.toList ≠ [])
    (hs : ∀ c ∈ s.toList, c.isDigit = true) :
    stringToNumber s = ofRat (digitsValue s.toList) := by
  have hunsigned : unsigned s.toList = ofRat (digitsValue s.toList) := by
    have hnone : ∀ c ∈ ([] : List Char).head?, c = 'e' := nofun
    have hdecimal := decimal_whole hne hs hnone rfl
    rw [List.append_nil, tenPow_eq, zpow_zero, mul_one] at hdecimal
    unfold unsigned
    rw [if_neg, hdecimal]
    intro hinfinity
    have hi := hs 'I' (hinfinity ▸ by decide)
    exact absurd hi (by decide)
  have hdigit (c : Char) (hc : c.isDigit = false) : c ∉ s.toList := by
    intro hmem
    rw [hs c hmem] at hc
    cases hc
  unfold stringToNumber
  rw [trim_digits hs]
  generalize s.toList = cs at *
  split
  · exact absurd rfl hne
  all_goals first
    | exact hunsigned
    | exact absurd (List.mem_cons_of_mem _ List.mem_cons_self) (hdigit _ (by decide))
    | exact absurd List.mem_cons_self (hdigit _ (by decide))

theorem digitsValue_append (as bs : List Char) :
    digitsValue (as ++ bs) = 10 ^ bs.length * digitsValue as + digitsValue bs := by
  unfold digitsValue
  rw [Nat.ofDigitChars_append, Nat.ofDigitChars_eq_ofDigitChars_zero]

/-- What is put after the text of NaN is not a number either. -/
theorem stringToNumber_nan {s : String} (hs : ∀ c ∈ s.toList, c.isDigit = true) :
    stringToNumber ("NaN" ++ s) = .nan := by
  have htext : ("NaN" ++ s).toList = 'N' :: 'a' :: 'N' :: s.toList := String.toList_append
  have hspace : ∀ c ∈ ("NaN" ++ s).toList, isSpace c = false := by
    intro c hc
    rw [htext] at hc
    simp only [List.mem_cons] at hc
    rcases hc with rfl | rfl | rfl | hc
    · decide
    · decide
    · decide
    · exact isSpace_of_isDigit (hs c hc)
  unfold stringToNumber
  rw [trim_of_noSpace hspace, htext]
  rfl

/-! ## Numbers as indices -/

/-- The number `x` is `n`, as far as an index below `2 ^ j` can tell. -/
structure Agrees (j : Nat) (x : Num) (n : Nat) : Prop where
  exact : n < 2 ^ j → x = .fin n
  beyond : 2 ^ j ≤ n → x.AtLeast (2 ^ j)

theorem two_pow_cast_le {j n : Nat} : ((2 : Rat) ^ j ≤ n) ↔ 2 ^ j ≤ n := by
  constructor
  · intro h
    exact_mod_cast h
  · intro h
    exact_mod_cast h

theorem agrees_ofRat {j : Nat} (hj : j ≤ 53) (n : Nat) : Agrees j (ofRat n) n where
  exact h := ofRat_exact (lt_of_lt_of_le h (Nat.pow_le_pow_right (by decide) hj))
  beyond h := ofRat_atLeast (two_pow_cast_le.mpr h)

/-- It agrees with a number that is not zero only where it is not. -/
theorem Agrees.atLeast_one {j : Nat} {x : Num} {n : Nat} (h : Agrees j x n) (hn : 0 < n) :
    x.AtLeast 1 := by
  by_cases hlt : n < 2 ^ j
  · rw [h.exact hlt]
    exact Nat.one_le_cast.mpr hn
  · have hbeyond := h.beyond (Nat.le_of_not_lt hlt)
    cases x with
    | nan => exact hbeyond
    | negInf => exact hbeyond
    | posInf => trivial
    | fin q => exact le_trans (one_le_pow₀ (by norm_num)) hbeyond

/-- One less, with a bit less to tell. -/
theorem Agrees.sub_one {j : Nat} (hj : j < 53) {x : Num} {n : Nat} (h : Agrees (j + 1) x n)
    (hn : 0 < n) : Agrees j (x.sub (.fin 1)) (n - 1) := by
  have hsub (q : Rat) : (Num.fin q).sub (.fin 1) = ofRat (q - 1) :=
    congrArg ofRat (sub_eq_add_neg q 1).symm
  have hpow : 0 < 2 ^ j := Nat.pow_pos (by decide)
  by_cases hlt : n < 2 ^ (j + 1)
  · have hcast : (n : Rat) - 1 = ((n - 1 : Nat) : Rat) := (Nat.cast_pred hn).symm
    rw [h.exact hlt, hsub, hcast]
    exact agrees_ofRat (by omega) _
  · have hbeyond := h.beyond (Nat.le_of_not_lt hlt)
    rw [Nat.pow_succ] at hlt
    refine ⟨fun h => by omega, fun _ => ?_⟩
    cases x with
    | nan => exact hbeyond.elim
    | negInf => exact hbeyond.elim
    | posInf => trivial
    | fin q =>
      have hq : (2 : Rat) ^ (j + 1) ≤ q := hbeyond
      have hone : (1 : Rat) ≤ 2 ^ j := one_le_pow₀ (by norm_num)
      rw [pow_succ] at hq
      exact ofRat_atLeast (by linarith)

/-- A product that does not fit comes from a factor that is large enough. -/
theorem atLeast_mul {j : Nat} {x y : Num} {b c : Rat} (hx : x.AtLeast b) (hy : y.AtLeast c)
    (hb : 0 < b) (hc : 0 < c) (hbc : (2 : Rat) ^ j ≤ b * c) : (x.mul y).AtLeast (2 ^ j) := by
  cases x with
  | nan => exact hx.elim
  | negInf => exact hx.elim
  | posInf =>
    cases y with
    | nan => exact hy.elim
    | negInf => exact hy.elim
    | posInf => trivial
    | fin q =>
      have hq : 0 < q := lt_of_lt_of_le hc hy
      have hne : Num.fin q ≠ .fin 0 := fun h => ne_of_gt hq (Num.fin.inj h)
      have hsign : (Num.fin q).negative = false := decide_eq_false (not_lt.mpr (le_of_lt hq))
      show Num.AtLeast (2 ^ j) (if _ then _ else _)
      rw [if_neg (by rintro (h | h); cases h; exact hne h), hsign,
        if_pos (show Num.posInf.negative = false from rfl)]
      trivial
  | fin p =>
    have hp : 0 < p := lt_of_lt_of_le hb hx
    cases y with
    | nan => exact hy.elim
    | negInf => exact hy.elim
    | posInf =>
      have hne : Num.fin p ≠ .fin 0 := fun h => ne_of_gt hp (Num.fin.inj h)
      have hsign : (Num.fin p).negative = false := decide_eq_false (not_lt.mpr (le_of_lt hp))
      show Num.AtLeast (2 ^ j) (if _ then _ else _)
      rw [if_neg (by rintro (h | h); exact hne h; cases h), hsign,
        if_pos (show false = Num.posInf.negative from rfl)]
      trivial
    | fin q => exact ofRat_atLeast (le_trans hbc (mul_le_mul hx hy (le_of_lt hc) (le_of_lt hp)))

/-- Products agree, but for the one of nothing and infinity. -/
theorem Agrees.mul {j : Nat} (hj : j ≤ 53) {x y : Num} {m n : Nat} (hx : Agrees j x m)
    (hy : Agrees j y n) (hn : 0 < n) (hzero : m = 0 → y ≠ .posInf) :
    Agrees j (x.mul y) (m * n) := by
  have hpow : 0 < 2 ^ j := Nat.pow_pos (by decide)
  rcases Nat.eq_zero_or_pos m with rfl | hm
  · -- nothing times a number is nothing
    have hfinite : ∃ q, y = .fin q := by
      have hone := hy.atLeast_one hn
      cases y with
      | nan => exact hone.elim
      | negInf => exact hone.elim
      | posInf => exact absurd rfl (hzero rfl)
      | fin q => exact ⟨q, rfl⟩
    obtain ⟨q, rfl⟩ := hfinite
    have hprod : (Num.fin ((0 : Nat) : Rat)).mul (.fin q) = ofRat ((0 : Nat) : Rat) := by
      show ofRat (((0 : Nat) : Rat) * q) = _
      rw [Nat.cast_zero, zero_mul]
    rw [hx.exact hpow, hprod, Nat.zero_mul]
    exact agrees_ofRat hj 0
  have hcast : ((m : Nat) : Rat) * n = ((m * n : Nat) : Rat) := (Nat.cast_mul m n).symm
  by_cases hmlt : m < 2 ^ j
  · by_cases hnlt : n < 2 ^ j
    · rw [hx.exact hmlt, hy.exact hnlt]
      show Agrees j (ofRat ((m : Rat) * n)) (m * n)
      rw [hcast]
      exact agrees_ofRat hj _
    · have hle : 2 ^ j ≤ m * n := le_trans (Nat.le_of_not_lt hnlt) (Nat.le_mul_of_pos_left n hm)
      refine ⟨fun h => by omega, fun _ => ?_⟩
      exact atLeast_mul (hx.atLeast_one hm) (hy.beyond (Nat.le_of_not_lt hnlt)) one_pos
        (by positivity) (le_of_eq (one_mul _).symm)
  · have hle : 2 ^ j ≤ m * n := le_trans (Nat.le_of_not_lt hmlt) (Nat.le_mul_of_pos_right m hn)
    refine ⟨fun h => by omega, fun _ => ?_⟩
    exact atLeast_mul (hx.beyond (Nat.le_of_not_lt hmlt)) (hy.atLeast_one hn) (by positivity)
      one_pos (le_of_eq (mul_one _).symm)

/-- An array that is not longer than the numbers can tell is cut where they say. -/
theorem Agrees.sliceIndex {j : Nat} {x : Num} {n len : Nat} (h : Agrees j x n)
    (hlen : len ≤ 2 ^ j) : sliceIndex len x = min n len := by
  by_cases hlt : n < 2 ^ j
  · rw [h.exact hlt]
    have hnonneg : (0 : Rat) ≤ n := Nat.cast_nonneg n
    have hfloor : (n : Rat).floor = n := Rat.floor_intCast n
    unfold Js.sliceIndex
    dsimp only
    rw [if_pos hnonneg, hfloor, if_neg (by omega), Int.toNat_natCast]
  · have hbeyond := h.beyond (Nat.le_of_not_lt hlt)
    have hmin : min n len = len := by omega
    rw [hmin]
    cases x with
    | nan => exact hbeyond.elim
    | negInf => exact hbeyond.elim
    | posInf => rfl
    | fin q =>
      have hq : ((2 ^ j : Nat) : Rat) ≤ q := by
        rw [Nat.cast_pow, Nat.cast_ofNat]
        exact hbeyond
      have hnonneg : 0 ≤ q := le_trans (Nat.cast_nonneg _) hq
      have hfloor : ((2 ^ j : Nat) : Int) ≤ q.floor := Rat.le_floor_iff.mpr (by exact_mod_cast hq)
      unfold Js.sliceIndex
      dsimp only
      rw [if_pos hnonneg, if_neg (by omega)]
      omega

/-- A slice between two numbers that agree with naturals; where it ends does not
matter when it starts after the last item. -/
theorem slice_of_agrees {α : Type} {items : List α} {j k e : Nat} {start stop : Num}
    (hlen : items.length ≤ 2 ^ j) (hstart : Agrees j start k)
    (hstop : k < items.length → Agrees j stop e) :
    slice items start stop = (items.drop k).take (e - k) := by
  unfold slice
  dsimp only
  rw [hstart.sliceIndex hlen]
  by_cases hk : k < items.length
  · rw [(hstop hk).sliceIndex hlen, Nat.min_eq_left (le_of_lt hk), List.take_eq_take_iff,
      List.length_drop]
    omega
  · have hle : items.length ≤ k := Nat.le_of_not_lt hk
    rw [Nat.min_eq_right hle, List.drop_length, List.drop_eq_nil_of_le hle, List.take_nil,
      List.take_nil]

end ChainKVM.Js
