import ChainKVM.Lib.Doubles

/-!
# The texts of doubles

`numberText` and the decimal literals of `stringToNumber` are two definitions
that know nothing of each other. The digits that the one writes are a literal
that the other reads, in each of the four layouts (`decimal_layout`), and the
shortest digits give the double back. So two doubles with one text are one
double (`numberText_inj`).
-/

namespace ChainKVM.Js

open Js.Num

/-! ## The magnitude -/

theorem one_le_placesBelow {fuel : Nat} {q : Rat} (h : 1 ≤ q * 10 ^ fuel) :
    1 ≤ q * 10 ^ placesBelow q fuel := by
  induction fuel generalizing q with
  | zero => exact h
  | succ fuel ih =>
    unfold placesBelow
    split
    next hone => rwa [pow_zero, mul_one]
    next hone =>
      have hnext : 1 ≤ q * 10 * 10 ^ fuel := by rwa [mul_assoc, ← pow_succ']
      have hrest := ih hnext
      rwa [mul_assoc, ← pow_succ'] at hrest

/-- No positive double is below the last bit that there is. -/
theorem double_ge {q : Rat} (hpos : 0 < q) (hq : ofRat q = .fin q) : 1 ≤ q * 10 ^ 400 := by
  rw [ofRat_of_pos hpos] at hq
  obtain ⟨⟨m, hm⟩, -⟩ := of_roundPos_eq hq
  have hunit := (one_le_multiple hpos hm).2
  have hlast : (2 : Rat) ^ (-1074 : Int) ≤ 2 ^ unitExponent q := by
    refine two_zpow_le ?_
    unfold unitExponent
    split <;> omega
  have hten : (2 : Rat) ^ 1074 ≤ 10 ^ 400 := by
    calc (2 : Rat) ^ 1074 ≤ 2 ^ (3 * 400) := pow_le_pow_right₀ (by norm_num) (by norm_num)
      _ = (2 ^ 3) ^ 400 := pow_mul 2 3 400
      _ ≤ 10 ^ 400 := pow_le_pow_left₀ (by norm_num) (by norm_num) 400
  have hone : (2 : Rat) ^ (-1074 : Int) * 2 ^ 1074 = 1 := by
    rw [← zpow_natCast, ← zpow_add₀ (by norm_num)]
    rfl
  calc (1 : Rat) = 2 ^ (-1074 : Int) * 2 ^ 1074 := hone.symm
    _ ≤ q * 10 ^ 400 :=
        mul_le_mul (hlast.trans hunit) hten (by positivity) (le_of_lt hpos)

theorem pow_length_le {n : Nat} (h : 0 < n) : 10 ^ ((toString n).length - 1) ≤ n := by
  have hlen : 0 < (toString n).length := Nat.length_repr_pos
  by_cases hone : (toString n).length - 1 = 0
  · rw [hone]
    exact h
  · have hiff := Nat.length_repr_le_iff (n := n) (Nat.pos_of_ne_zero hone)
    have hnot : ¬n.repr.length ≤ (toString n).length - 1 := by
      show ¬(toString n).length ≤ _
      omega
    exact Nat.le_of_not_lt fun hlt => hnot (hiff.mpr hlt)

theorem tenPow_magnitude_le {q : Rat} (hpos : 0 < q) (hq : ofRat q = .fin q) :
    tenPow (magnitude q - 1) ≤ q := by
  unfold magnitude
  rw [tenPow_eq]
  split
  next hone =>
    obtain ⟨n, hn⟩ : ∃ n : Nat, q.floor = n := Int.eq_ofNat_of_zero_le
      (Rat.le_floor_iff.mpr (by exact_mod_cast le_of_lt hpos))
    have hnpos : 0 < n := by
      have hle : (1 : Int) ≤ q.floor := Rat.le_floor_iff.mpr (by exact_mod_cast hone)
      omega
    have hfloor : ((n : Nat) : Rat) ≤ q := by
      have hle := Rat.floor_le q
      rw [hn] at hle
      exact_mod_cast hle
    have htext : toString q.floor = toString n := by
      rw [hn]
      rfl
    have hlen : 0 < (toString n).length := Nat.length_repr_pos
    have hexp : (((toString q.floor).length : Int) - 1) = ((toString n).length - 1 : Nat) := by
      rw [htext]
      omega
    rw [hexp, zpow_natCast]
    calc (10 : Rat) ^ ((toString n).length - 1) ≤ n := by exact_mod_cast pow_length_le hnpos
      _ ≤ q := hfloor
  next hone =>
    have hplaces := one_le_placesBelow (double_ge hpos hq)
    have hexp : (1 - (placesBelow q 400 : Int) - 1) = -((placesBelow q 400 : Nat) : Int) := by
      omega
    rw [hexp, zpow_neg, zpow_natCast]
    exact (inv_le_iff_one_le_mul₀ (by positivity)).mpr hplaces

/-! ## Reading digits -/

/-- The number that decimal digits stand for. -/
def digitsValue (cs : List Char) : Nat := Nat.ofDigitChars 10 cs 0

theorem digit_of_isDigit {c : Char} (h : c.isDigit = true) :
    digit c = some (c.toNat - '0'.toNat) ∧ c.toNat - '0'.toNat < 10 := by
  obtain ⟨hlow, hhigh⟩ := Char.isDigit_iff_toNat.mp h
  have hlow' : '0' ≤ c := hlow
  have hhigh' : c ≤ '9' := hhigh
  refine ⟨?_, ?_⟩
  · unfold digit
    rw [if_pos ⟨hlow', hhigh'⟩]
  · have hzero : '0'.toNat = 48 := rfl
    have hnine : '9'.toNat = 57 := rfl
    omega

theorem digits_eq {cs : List Char} (h : ∀ c ∈ cs, c.isDigit = true) :
    digits 10 cs = some (digitsValue cs) := by
  have hfold : ∀ acc : Nat, cs.foldl (fun acc c => do
      let value ← acc
      let d ← digit c
      if d < 10 then some (value * 10 + d) else none) (some acc) =
        some (Nat.ofDigitChars 10 cs acc) := by
    induction cs with
    | nil => exact fun acc => congrArg some Nat.ofDigitChars_nil.symm
    | cons c cs ih =>
      intro acc
      obtain ⟨hdigit, hlt⟩ := digit_of_isDigit (h c List.mem_cons_self)
      rw [List.foldl_cons, Nat.ofDigitChars_cons, Nat.mul_comm 10 acc]
      rw [← ih fun d hd => h d (List.mem_cons_of_mem c hd)]
      rw [Option.bind_eq_bind, Option.bind_some, hdigit, Option.bind_some, if_pos hlt]
  exact hfold 0

/-- What has a property, and then something that does not. -/
theorem takeWhile_span {p : Char → Bool} {cs rest : List Char} (hcs : ∀ c ∈ cs, p c = true)
    (hrest : ∀ c ∈ rest.head?, p c = false) : (cs ++ rest).takeWhile p = cs := by
  rw [List.takeWhile_append_of_pos hcs]
  cases rest with
  | nil => exact List.append_nil cs
  | cons c rest =>
    rw [List.takeWhile_cons_of_neg (by rw [hrest c rfl]; nofun), List.append_nil]

/-- What `decimal` makes of a mantissa and an exponent. -/
theorem scaled_eq (m : Nat) (e : Int) :
    (match e with
      | .ofNat n => some ((m * Nat.pow 10 n : Nat) : Rat)
      | .negSucc n => some ((m : Rat) / ((Nat.pow 10 (n + 1) : Nat) : Rat))) =
      some ((m : Rat) * tenPow e) := by
  cases e with
  | ofNat n => exact congrArg some (Nat.cast_mul m _)
  | negSucc n => exact congrArg some (div_eq_mul_one_div _ _)

theorem isDigit_append {as bs : List Char} (has : ∀ c ∈ as, c.isDigit = true)
    (hbs : ∀ c ∈ bs, c.isDigit = true) : ∀ c ∈ as ++ bs, c.isDigit = true := by
  intro c hc
  rcases List.mem_append.mp hc with hc | hc
  · exact has c hc
  · exact hbs c hc

theorem decimal_whole {ds tail : List Char} {e : Int} (hne : ds ≠ [])
    (hds : ∀ c ∈ ds, c.isDigit = true) (htail : ∀ c ∈ tail.head?, c = 'e')
    (he : exponentPart tail = some e) :
    decimal (ds ++ tail) = some (digitsValue ds * tenPow e) := by
  have hwhole : (ds ++ tail).takeWhile Char.isDigit = ds := by
    refine takeWhile_span hds fun c hc => ?_
    rw [htail c hc]
    rfl
  have hpoint : tail.head? ≠ some '.' := by
    intro hdot
    have hbad := htail '.' hdot
    exact absurd hbad (by decide)
  unfold decimal
  dsimp only
  rw [hwhole, List.drop_left, if_neg hpoint, if_neg hpoint, List.append_nil, digits_eq hds, he,
    List.isEmpty_eq_false_iff.mpr hne, if_neg (by decide)]
  refine (scaled_eq (digitsValue ds) (e - ((0 : Nat) : Int))).trans ?_
  rw [Int.natCast_zero, Int.sub_zero]

theorem decimal_point {ds fraction tail : List Char} {e : Int} (hne : ds ≠ [])
    (hds : ∀ c ∈ ds, c.isDigit = true) (hfraction : ∀ c ∈ fraction, c.isDigit = true)
    (htail : ∀ c ∈ tail.head?, c = 'e') (he : exponentPart tail = some e) :
    decimal (ds ++ '.' :: (fraction ++ tail)) =
      some (digitsValue (ds ++ fraction) * tenPow (e - fraction.length)) := by
  have hwhole : (ds ++ '.' :: (fraction ++ tail)).takeWhile Char.isDigit = ds := by
    refine takeWhile_span hds fun c hc => ?_
    cases hc
    rfl
  have hpart : (fraction ++ tail).takeWhile Char.isDigit = fraction := by
    refine takeWhile_span hfraction fun c hc => ?_
    rw [htail c hc]
    rfl
  have hboth := isDigit_append hds hfraction
  unfold decimal
  dsimp only
  have hpoint : ('.' :: (fraction ++ tail)).head? = some '.' := rfl
  rw [hwhole, List.drop_left, if_pos hpoint, if_pos hpoint, List.drop_one, List.tail_cons, hpart,
    List.drop_left, digits_eq hboth, he, List.isEmpty_eq_false_iff.mpr hne, Bool.false_and,
    if_neg (by decide)]
  exact scaled_eq (digitsValue (ds ++ fraction)) (e - fraction.length)

/-! ## The layouts -/

theorem isDigit_toString (n : Nat) : ∀ c ∈ (toString n).toList, c.isDigit = true := by
  intro c hc
  rw [Nat.toString_eq_repr, Nat.toList_repr] at hc
  exact Nat.isDigit_of_mem_toDigits (by decide) (by decide) hc

theorem digitsValue_toString (n : Nat) : digitsValue (toString n).toList = n := by
  rw [Nat.toString_eq_repr, Nat.toList_repr]
  exact Nat.ofDigitChars_ten_toDigits

theorem toString_ne_nil (n : Nat) : (toString n).toList ≠ [] := by
  intro h
  have hlen : 0 < (toString n).length := Nat.length_repr_pos
  rw [← String.length_toList, h] at hlen
  exact absurd hlen (by decide)

/-- The exponent as `layout` writes it. -/
def exponentText (e : Int) : List Char :=
  'e' :: (if 0 ≤ e then '+' else '-') :: (toString e.natAbs).toList

theorem exponentPart_plus (ds : List Char) : exponentPart ('e' :: '+' :: ds) =
    if ds.isEmpty then none else (digits 10 ds).map Int.ofNat := by
  rw [exponentPart, if_pos (.inl rfl)]

theorem exponentPart_minus (ds : List Char) : exponentPart ('e' :: '-' :: ds) =
    if ds.isEmpty then none else (digits 10 ds).map fun n => -Int.ofNat n := by
  rw [exponentPart, if_pos (.inl rfl)]

theorem exponentPart_exponentText (e : Int) : exponentPart (exponentText e) = some e := by
  have hempty : (toString e.natAbs).toList.isEmpty = false :=
    List.isEmpty_eq_false_iff.mpr (toString_ne_nil _)
  have hdigits := digits_eq (isDigit_toString e.natAbs)
  rw [digitsValue_toString] at hdigits
  unfold exponentText
  by_cases h : 0 ≤ e
  · rw [if_pos h, exponentPart_plus, hempty, if_neg (by decide), hdigits]
    refine congrArg some ?_
    show (e.natAbs : Int) = e
    omega
  · rw [if_neg h, exponentPart_minus, hempty, if_neg (by decide), hdigits]
    refine congrArg some ?_
    show -(e.natAbs : Int) = e
    omega

theorem isDigit_replicate_zero (n : Nat) : ∀ c ∈ List.replicate n '0', c.isDigit = true := by
  intro c hc
  rw [(List.mem_replicate.mp hc).2]
  rfl

theorem digitsValue_append_zeros (cs : List Char) (n : Nat) :
    digitsValue (cs ++ List.replicate n '0') = 10 ^ n * digitsValue cs := by
  unfold digitsValue
  rw [Nat.ofDigitChars_append, Nat.ofDigitChars_replicate_zero]

theorem digitsValue_zeros_append (cs : List Char) (n : Nat) :
    digitsValue (List.replicate n '0' ++ cs) = digitsValue cs := by
  unfold digitsValue
  rw [Nat.ofDigitChars_append, Nat.ofDigitChars_replicate_zero, Nat.mul_zero]

theorem toList_zeros (n : Nat) : (zeros n).toList = List.replicate n '0' := String.toList_ofList

/-- The four layouts, as characters. -/
theorem layout_cases (cs : List Char) (n : Int) :
    ((cs.length : Int) ≤ n ∧
      (layout (String.ofList cs) n).toList =
        cs ++ List.replicate (n - cs.length).toNat '0') ∨
    (0 < n ∧ n < cs.length ∧
      (layout (String.ofList cs) n).toList = cs.take n.toNat ++ '.' :: cs.drop n.toNat) ∨
    (n ≤ 0 ∧
      (layout (String.ofList cs) n).toList =
        ['0'] ++ '.' :: (List.replicate (-n).toNat '0' ++ cs)) ∨
    (cs.length = 1 ∧
      (layout (String.ofList cs) n).toList = cs.take 1 ++ exponentText (n - 1)) ∨
    (layout (String.ofList cs) n).toList =
      cs.take 1 ++ '.' :: (cs.drop 1 ++ exponentText (n - 1)) := by
  unfold layout
  dsimp only
  rw [String.length_ofList, String.toList_ofList]
  split
  next h =>
    refine .inl ⟨h.1, ?_⟩
    rw [String.toList_append, String.toList_ofList, toList_zeros]
  next hwhole =>
    split
    next h =>
      refine .inr (.inl ⟨h.1, by omega, ?_⟩)
      simp only [String.toList_append, String.toList_ofList, List.append_assoc]
      rfl
    next hpoint =>
      split
      next h =>
        refine .inr (.inr (.inl ⟨h.2, ?_⟩))
        simp only [String.toList_append, String.toList_ofList, toList_zeros, List.append_assoc]
        rfl
      next hbelow =>
        refine .inr (.inr (.inr ?_))
        have hsign : ("e" : String).toList ++ (if 0 ≤ n - 1 then "+" else "-" : String).toList =
            ['e', if 0 ≤ n - 1 then '+' else '-'] := by
          split
          · rfl
          · rfl
        simp only [String.toList_append, String.toList_ofList, List.append_assoc]
        rw [← List.append_assoc ("e" : String).toList, hsign]
        split
        next hone => exact .inl ⟨by omega, rfl⟩
        next hmore =>
          refine .inr ?_
          simp only [String.toList_append, String.toList_ofList, List.append_assoc]
          rfl

/-- The number that is written is read. -/
theorem decimal_layout {cs : List Char} (hne : cs ≠ []) (hcs : ∀ c ∈ cs, c.isDigit = true)
    (n : Int) : decimal (layout (String.ofList cs) n).toList =
      some (digitsValue cs * tenPow (n - cs.length)) := by
  have hlen : 0 < cs.length := List.length_pos_of_ne_nil hne
  have hnone : ∀ c ∈ ([] : List Char).head?, c = 'e' := nofun
  have hexponent : ∀ c ∈ (exponentText (n - 1)).head?, c = 'e' := fun c hc =>
    (Option.some.inj hc).symm
  have htake (k : Nat) : ∀ c ∈ cs.take k, c.isDigit = true := fun c hc =>
    hcs c (List.mem_of_mem_take hc)
  have hdrop (k : Nat) : ∀ c ∈ cs.drop k, c.isDigit = true := fun c hc =>
    hcs c (List.mem_of_mem_drop hc)
  have htakeNe {k : Nat} (hk : 0 < k) : cs.take k ≠ [] := by
    refine List.ne_nil_of_length_pos ?_
    rw [List.length_take]
    omega
  -- zeros, point and exponent all say where the digits stand, which is `n`
  rcases layout_cases cs n with
    ⟨hle, htext⟩ | ⟨hpos, hlt, htext⟩ | ⟨hle, htext⟩ | ⟨hone, htext⟩ | htext
  · have hread := decimal_whole (List.append_ne_nil_of_left_ne_nil hne _)
      (isDigit_append hcs (isDigit_replicate_zero (n - cs.length).toNat)) hnone rfl
    have hexp : n - cs.length = ((n - cs.length).toNat : Int) := by omega
    rw [List.append_nil] at hread
    rw [htext, hread, digitsValue_append_zeros, tenPow_eq, tenPow_eq, hexp, zpow_natCast,
      Int.toNat_natCast, Nat.cast_mul, Nat.cast_pow, Nat.cast_ofNat, zpow_zero, mul_one, mul_comm]
  · have hread := decimal_point (htakeNe (by omega)) (htake n.toNat) (hdrop n.toNat) hnone rfl
    have hexp : (0 : Int) - (cs.drop n.toNat).length = n - cs.length := by
      rw [List.length_drop]
      omega
    rw [List.append_nil, List.take_append_drop, hexp] at hread
    rw [htext, hread]
  · have hread := decimal_point (by decide) (isDigit_replicate_zero 1)
      (isDigit_append (isDigit_replicate_zero (-n).toNat) hcs) hnone rfl
    have hexp : (0 : Int) - (List.replicate (-n).toNat '0' ++ cs).length = n - cs.length := by
      rw [List.length_append, List.length_replicate]
      omega
    rw [List.append_nil, digitsValue_zeros_append, digitsValue_zeros_append, hexp] at hread
    rw [htext]
    exact hread
  · have hread := decimal_whole (htakeNe Nat.one_pos) (htake 1) hexponent
      (exponentPart_exponentText (n - 1))
    rw [htext, hread, List.take_of_length_le (by omega), hone]
    rfl
  · have hread := decimal_point (htakeNe Nat.one_pos) (htake 1) (hdrop 1) hexponent
      (exponentPart_exponentText (n - 1))
    have hexp : n - 1 - (cs.drop 1).length = n - cs.length := by
      rw [List.length_drop]
      omega
    rw [List.take_append_drop, hexp] at hread
    rw [htext, hread]

/-! ## The shortest digits -/

/-- Digits are what is left of them without their last zeros, and the zeros. -/
theorem strip_zeros (cs : List Char) : ∃ n, cs =
    (cs.reverse.dropWhile (· = '0')).reverse ++ List.replicate n '0' := by
  refine ⟨(cs.reverse.takeWhile (· = '0')).length, ?_⟩
  have hzeros : cs.reverse.takeWhile (· = '0') =
      List.replicate (cs.reverse.takeWhile (· = '0')).length '0' := by
    refine List.eq_replicate_iff.mpr ⟨rfl, fun c hc => ?_⟩
    exact of_decide_eq_true (List.all_eq_true.mp List.all_takeWhile c hc)
  rw [← List.reverse_replicate, ← hzeros, ← List.reverse_append, List.takeWhile_append_dropWhile,
    List.reverse_reverse]

/-- The text of a positive double lays out digits that give it back. -/
theorem positiveText_eq {q : Rat} (hpos : 0 < q) (hq : ofRat q = .fin q) :
    ∃ (cs : List Char) (n : Int), positiveText q = layout (String.ofList cs) n ∧ cs ≠ [] ∧
      (∀ c ∈ cs, c.isDigit = true) ∧
      ofRat (digitsValue cs * tenPow (n - cs.length)) = .fin q := by
  obtain ⟨s, k, hs, hback, hshortest⟩ := shortest_gives_back hpos hq (tenPow_magnitude_le hpos hq)
    (by decide : 1 ≤ 17) (by decide : 17 < 1 + 17)
  obtain ⟨m, rfl⟩ := Int.eq_ofNat_of_zero_le (le_of_lt hs)
  have htext : toString (m : Int) = toString m := rfl
  -- the last zeros of the digits are not written; the exponent makes up for them
  obtain ⟨n, hstrip⟩ := strip_zeros (toString m).toList
  have hdigits := isDigit_toString m
  have hvalue := digitsValue_toString m
  have hlen : (toString m).length = (toString m).toList.length := String.length_toList.symm
  rw [htext, hlen] at hshortest
  refine ⟨_, _, by unfold positiveText; rw [hshortest], ?_⟩
  generalize ((toString m).toList.reverse.dropWhile (· = '0')).reverse = cs at *
  rw [hstrip] at hdigits hvalue
  rw [digitsValue_append_zeros] at hvalue
  refine ⟨?_, fun c hc => hdigits c (List.mem_append_left _ hc), ?_⟩
  · rintro rfl
    have hzero : digitsValue [] = 0 := Nat.ofDigitChars_nil
    rw [hzero, Nat.mul_zero] at hvalue
    omega
  · have hexp : magnitude q + ((toString m).toList.length - k) - cs.length =
        (n : Int) + (magnitude q - k) := by
      rw [hstrip, List.length_append, List.length_replicate]
      omega
    have hsame : (digitsValue cs : Rat) * tenPow ((n : Int) + (magnitude q - k)) =
        (m : Rat) * tenPow (magnitude q - k) := by
      rw [tenPow_eq, tenPow_eq, zpow_add₀ (by norm_num), zpow_natCast, ← hvalue]
      push_cast
      ring
    rw [hexp, hsame]
    exact hback

/-- It is a literal for it. -/
theorem decimal_positiveText {q : Rat} (hpos : 0 < q) (hq : ofRat q = .fin q) :
    ∃ r, decimal (positiveText q).toList = some r ∧ ofRat r = .fin q := by
  obtain ⟨cs, n, htext, hne, hcs, hback⟩ := positiveText_eq hpos hq
  rw [htext]
  exact ⟨_, decimal_layout hne hcs n, hback⟩

theorem unsigned_positiveText {q : Rat} (hpos : 0 < q) (hq : ofRat q = .fin q) :
    unsigned (positiveText q).toList = .fin q := by
  obtain ⟨r, hr, hback⟩ := decimal_positiveText hpos hq
  unfold unsigned
  rw [if_neg, hr]
  · exact hback
  · intro hinfinity
    rw [hinfinity] at hr
    cases hr

/-! ## Reading a text back -/

/-- A rational that is a double. -/
def IsDouble (q : Rat) : Prop := ofRat q = .fin q

theorem IsDouble.neg {q : Rat} (h : IsDouble q) (hneg : q < 0) : IsDouble (-q) := by
  have hpos : 0 < -q := neg_pos.mpr hneg
  have hround : (roundPos (-q)).neg = .fin q := by
    unfold IsDouble ofRat at h
    rwa [if_neg (ne_of_lt hneg), if_neg (not_lt.mpr (le_of_lt hneg))] at h
  unfold IsDouble
  rw [ofRat_of_pos hpos]
  cases hresult : roundPos (-q) with
  | nan => rw [hresult] at hround; cases hround
  | negInf => rw [hresult] at hround; cases hround
  | posInf => rw [hresult] at hround; cases hround
  | fin r =>
    rw [hresult] at hround
    rw [← Num.fin.inj hround, neg_neg]

/-- The number that a decimal text stands for. -/
def readText (cs : List Char) : Num :=
  if cs.head? = some '-' then (unsigned (cs.drop 1)).neg else unsigned cs

theorem numberText_of_pos {q : Rat} (h : 0 < q) : numberText (.fin q) = positiveText q := by
  unfold numberText
  dsimp only
  rw [if_neg (ne_of_gt h), if_pos h]

theorem numberText_of_neg {q : Rat} (h : q < 0) :
    numberText (.fin q) = "-" ++ positiveText (-q) := by
  unfold numberText
  dsimp only
  rw [if_neg (ne_of_lt h), if_neg (not_lt.mpr (le_of_lt h))]

/-- An unsigned literal has no sign. -/
theorem head_positiveText {q : Rat} (hpos : 0 < q) (hq : IsDouble q) :
    (positiveText q).toList.head? ≠ some '-' := by
  obtain ⟨r, hr, -⟩ := decimal_positiveText hpos hq
  cases htext : (positiveText q).toList with
  | nil => nofun
  | cons c cs =>
    intro hminus
    cases hminus
    rw [htext] at hr
    cases hr

/-- The text of a double gives it back. -/
theorem readText_numberText {q : Rat} (h : IsDouble q) :
    readText (numberText (.fin q)).toList = .fin q := by
  rcases lt_trichotomy q 0 with hneg | rfl | hpos
  · rw [numberText_of_neg hneg, String.toList_append]
    show (unsigned (positiveText (-q)).toList).neg = .fin q
    rw [unsigned_positiveText (neg_pos.mpr hneg) (h.neg hneg)]
    show Num.fin (- -q) = .fin q
    rw [neg_neg]
  · decide +kernel
  · rw [numberText_of_pos hpos]
    unfold readText
    rw [if_neg (head_positiveText hpos h)]
    exact unsigned_positiveText hpos h

theorem numberText_inj {p q : Rat} (hp : IsDouble p) (hq : IsDouble q)
    (h : numberText (.fin p) = numberText (.fin q)) : p = q := by
  have hread := readText_numberText hp
  rw [h, readText_numberText hq] at hread
  exact (Num.fin.inj hread).symm

/-! ## What a text is made of -/

def isNumberChar (c : Char) : Bool := c.isDigit || ['.', 'e', '+', '-'].contains c

theorem isNumberChar_of_isDigit {c : Char} (h : c.isDigit = true) : isNumberChar c = true := by
  unfold isNumberChar
  rw [h]
  rfl

theorem isNumberChar_exponentText (e : Int) : ∀ c ∈ exponentText e, isNumberChar c = true := by
  intro c hc
  unfold exponentText at hc
  rcases List.mem_cons.mp hc with rfl | hc
  · decide
  · rcases List.mem_cons.mp hc with rfl | hc
    · split
      · decide
      · decide
    · exact isNumberChar_of_isDigit (isDigit_toString _ c hc)

theorem isNumberChar_layout {cs : List Char} (hcs : ∀ c ∈ cs, c.isDigit = true) (n : Int) :
    ∀ c ∈ (layout (String.ofList cs) n).toList, isNumberChar c = true := by
  have hdigits {ds : List Char} (hds : ∀ c ∈ ds, c.isDigit = true) : ∀ c ∈ ds,
      isNumberChar c = true := fun c hc => isNumberChar_of_isDigit (hds c hc)
  have happend {as bs : List Char} (has : ∀ c ∈ as, isNumberChar c = true)
      (hbs : ∀ c ∈ bs, isNumberChar c = true) : ∀ c ∈ as ++ bs, isNumberChar c = true :=
    fun c hc => (List.mem_append.mp hc).elim (has c) (hbs c)
  have hpoint {as bs : List Char} (has : ∀ c ∈ as, isNumberChar c = true)
      (hbs : ∀ c ∈ bs, isNumberChar c = true) : ∀ c ∈ as ++ '.' :: bs, isNumberChar c = true := by
    refine happend has fun c hc => ?_
    rcases List.mem_cons.mp hc with rfl | hc
    · decide
    · exact hbs c hc
  have htake (k : Nat) : ∀ c ∈ cs.take k, isNumberChar c = true := fun c hc =>
    hdigits hcs c (List.mem_of_mem_take hc)
  have hdrop (k : Nat) : ∀ c ∈ cs.drop k, isNumberChar c = true := fun c hc =>
    hdigits hcs c (List.mem_of_mem_drop hc)
  rcases layout_cases cs n with
    ⟨-, htext⟩ | ⟨-, -, htext⟩ | ⟨-, htext⟩ | ⟨-, htext⟩ | htext
  · rw [htext]
    exact happend (hdigits hcs) (hdigits (isDigit_replicate_zero _))
  · rw [htext]
    exact hpoint (htake _) (hdrop _)
  · rw [htext]
    exact hpoint (hdigits (isDigit_replicate_zero 1))
      (happend (hdigits (isDigit_replicate_zero _)) (hdigits hcs))
  · rw [htext]
    exact happend (htake 1) (isNumberChar_exponentText _)
  · rw [htext]
    exact hpoint (htake 1) (happend (hdrop 1) (isNumberChar_exponentText _))

theorem isNumberChar_positiveText {q : Rat} (hpos : 0 < q) (hq : IsDouble q) :
    ∀ c ∈ (positiveText q).toList, isNumberChar c = true := by
  obtain ⟨cs, n, htext, -, hcs, -⟩ := positiveText_eq hpos hq
  rw [htext]
  exact isNumberChar_layout hcs n

theorem isNumberChar_numberText {q : Rat} (h : IsDouble q) :
    ∀ c ∈ (numberText (.fin q)).toList, isNumberChar c = true := by
  rcases lt_trichotomy q 0 with hneg | rfl | hpos
  · rw [numberText_of_neg hneg, String.toList_append]
    intro c hc
    rcases List.mem_append.mp hc with hc | hc
    · rw [List.mem_singleton.mp hc]
      decide
    · exact isNumberChar_positiveText (neg_pos.mpr hneg) (h.neg hneg) c hc
  · exact fun c hc => by
      rw [List.mem_singleton.mp hc]
      decide
  · rw [numberText_of_pos hpos]
    exact isNumberChar_positiveText hpos h

theorem numberText_ne_nil {q : Rat} (h : IsDouble q) : (numberText (.fin q)).toList ≠ [] := by
  intro hnil
  have hread := readText_numberText h
  rw [hnil] at hread
  cases hread

end ChainKVM.Js
