import ChainKVM.Lib.Js
import Mathlib.Algebra.Field.Rat
import Mathlib.Algebra.Order.Field.Power
import Mathlib.Algebra.Order.Ring.Rat
import Mathlib.Tactic.Linarith
import Mathlib.Tactic.NormNum
import Mathlib.Tactic.Positivity
import Mathlib.Tactic.Ring

/-!
# Doubles among the rationals

`roundPos` picks a power of 2, the unit of the last place, and rounds to a
multiple of it. A rational is a double when it rounds to itself.

The main fact is that seventeen significant decimal digits are enough: a
double `q` rounded to a multiple of some `d` that is at most its `10 ^ 16`-th
part rounds back to `q` (`roundPos_of_near`), since `d` is less than the unit,
on whichever side of a power of 2 the decimal lies. So the search for the
shortest digits always ends with digits that give the double back
(`shortest_gives_back`).
-/

namespace ChainKVM.Js.Num

theorem twoPow_eq (u : Int) : twoPow u = (2 : Rat) ^ u := by
  cases u with
  | ofNat n =>
    show ((Nat.pow 2 n : Nat) : Rat) = (2 : Rat) ^ ((n : Nat) : Int)
    rw [zpow_natCast]
    exact Nat.cast_pow 2 n
  | negSucc n =>
    show 1 / ((Nat.pow 2 (n + 1) : Nat) : Rat) = (2 : Rat) ^ Int.negSucc n
    rw [zpow_negSucc, one_div]
    exact congrArg _ (Nat.cast_pow 2 (n + 1))

theorem two_zpow_pos (u : Int) : (0 : Rat) < 2 ^ u := zpow_pos (by norm_num) u

theorem two_zpow_le {u v : Int} (h : u ≤ v) : (2 : Rat) ^ u ≤ 2 ^ v :=
  zpow_le_zpow_right₀ (by norm_num) h

/-- A power of 2 is a multiple of each lower one. -/
theorem two_zpow_split {u v : Int} (h : u ≤ v) :
    (2 : Rat) ^ v = (((2 ^ (v - u).toNat : Nat) : Int) : Rat) * 2 ^ u := by
  have hexp : v = ((v - u).toNat : Int) + u := by omega
  rw [Int.cast_natCast, Nat.cast_pow, Nat.cast_ofNat, ← zpow_natCast, ← zpow_add₀ (by norm_num),
    ← hexp]

/-! ## Rounding to an integer -/

/-- The three ways to round. -/
theorem roundHalfEven_cases (q : Rat) :
    (roundHalfEven q = q.floor ∧ q - q.floor ≤ 1 / 2) ∨
      (roundHalfEven q = q.floor + 1 ∧ 1 / 2 ≤ q - q.floor) := by
  unfold roundHalfEven
  dsimp only
  split
  next hless => exact .inl ⟨rfl, le_of_lt hless⟩
  next hless =>
    split
    next hmore => exact .inr ⟨rfl, le_of_lt hmore⟩
    next hmore =>
      split
      · exact .inl ⟨rfl, not_lt.mp hmore⟩
      · exact .inr ⟨rfl, not_lt.mp hless⟩

theorem roundHalfEven_near (q : Rat) :
    q - 1 / 2 ≤ roundHalfEven q ∧ (roundHalfEven q : Rat) ≤ q + 1 / 2 := by
  have hfloor := Rat.floor_le q
  have hnext : q < q.floor + 1 := by exact_mod_cast Rat.lt_floor_add_one q
  rcases roundHalfEven_cases q with ⟨heq, hpart⟩ | ⟨heq, hpart⟩
  · rw [heq]
    constructor
    · linarith
    · linarith
  · rw [heq, Int.cast_add, Int.cast_one]
    constructor
    · linarith
    · linarith

/-- What is closer than a half to an integer rounds to it. -/
theorem roundHalfEven_of_near {q : Rat} {m : Int} (hlow : (m : Rat) - 1 / 2 < q)
    (hhigh : q < m + 1 / 2) : roundHalfEven q = m := by
  obtain ⟨hbelow, habove⟩ := roundHalfEven_near q
  have hlt : (roundHalfEven q : Rat) < m + 1 := by linarith
  have hgt : (m : Rat) < roundHalfEven q + 1 := by linarith
  have hlt' : roundHalfEven q < m + 1 := by exact_mod_cast hlt
  have hgt' : m < roundHalfEven q + 1 := by exact_mod_cast hgt
  omega

theorem roundHalfEven_nonneg {q : Rat} (h : 0 ≤ q) : 0 ≤ roundHalfEven q := by
  have hbelow := (roundHalfEven_near q).1
  have hgt : (-1 : Rat) < roundHalfEven q := by linarith
  have hgt' : -1 < roundHalfEven q := by exact_mod_cast hgt
  omega

/-! ## The unit of the last place -/

/-- The exponent that `roundPos` finds. -/
def exponent (q : Rat) : Int :=
  let guess : Int := (Nat.log2 q.num.natAbs : Int) - (Nat.log2 q.den : Int)
  if twoPow guess ≤ q then guess else guess - 1

/-- The exponent of the unit of the last place. -/
def unitExponent (q : Rat) : Int := if exponent q < -1022 then -1074 else exponent q - 52

theorem roundPos_eq (q : Rat) : roundPos q =
    if twoPow 1024 ≤ roundHalfEven (q / twoPow (unitExponent q)) * twoPow (unitExponent q)
    then posInf
    else fin (roundHalfEven (q / twoPow (unitExponent q)) * twoPow (unitExponent q)) := rfl

/-- A quotient of naturals lies within the powers of 2 of their lengths. -/
theorem guess_bounds {q : Rat} (h : 0 < q) :
    (2 : Rat) ^ ((Nat.log2 q.num.natAbs : Int) - (Nat.log2 q.den : Int) - 1) ≤ q ∧
      q < (2 : Rat) ^ ((Nat.log2 q.num.natAbs : Int) - (Nat.log2 q.den : Int) + 1) := by
  have hnumPos : 0 < q.num := Rat.num_pos.mpr h
  have hnum : ((q.num.natAbs : Nat) : Rat) = q.num := by
    rw [← Int.cast_natCast, Int.natAbs_of_nonneg (le_of_lt hnumPos)]
  have hq : q = (q.num.natAbs : Rat) / (q.den : Rat) := by
    rw [hnum]
    exact (Rat.num_div_den q).symm
  have hdenPos : (0 : Rat) < q.den := by exact_mod_cast q.den_pos
  have hnumLow : (2 : Rat) ^ (Nat.log2 q.num.natAbs : Int) ≤ q.num.natAbs := by
    rw [zpow_natCast]
    exact_mod_cast Nat.log2_self_le (by omega)
  have hnumHigh : (q.num.natAbs : Rat) < 2 ^ ((Nat.log2 q.num.natAbs : Int) + 1) := by
    rw [← Nat.cast_succ, zpow_natCast]
    exact_mod_cast Nat.lt_log2_self
  have hdenLow : (2 : Rat) ^ (Nat.log2 q.den : Int) ≤ q.den := by
    rw [zpow_natCast]
    exact_mod_cast Nat.log2_self_le q.den_nz
  have hdenHigh : (q.den : Rat) < 2 ^ ((Nat.log2 q.den : Int) + 1) := by
    rw [← Nat.cast_succ, zpow_natCast]
    exact_mod_cast Nat.lt_log2_self
  -- the rest holds of any two exponents
  generalize (Nat.log2 q.num.natAbs : Int) = a at *
  generalize (Nat.log2 q.den : Int) = b at *
  constructor
  · rw [hq, le_div_iff₀ hdenPos]
    calc (2 : Rat) ^ (a - b - 1) * q.den
        ≤ 2 ^ (a - b - 1) * 2 ^ (b + 1) :=
          mul_le_mul_of_nonneg_left (le_of_lt hdenHigh) (le_of_lt (two_zpow_pos _))
      _ = 2 ^ a := by rw [← zpow_add₀ (by norm_num)]; congr 1; omega
      _ ≤ q.num.natAbs := hnumLow
  · rw [hq, div_lt_iff₀ hdenPos]
    calc (q.num.natAbs : Rat) < 2 ^ (a + 1) := hnumHigh
      _ = 2 ^ (a - b + 1) * 2 ^ b := by rw [← zpow_add₀ (by norm_num)]; congr 1; omega
      _ ≤ 2 ^ (a - b + 1) * q.den :=
          mul_le_mul_of_nonneg_left hdenLow (le_of_lt (two_zpow_pos _))

theorem exponent_bounds {q : Rat} (h : 0 < q) :
    (2 : Rat) ^ exponent q ≤ q ∧ q < 2 ^ (exponent q + 1) := by
  obtain ⟨hlow, hhigh⟩ := guess_bounds h
  unfold exponent
  dsimp only
  split
  next hle => exact ⟨by rwa [← twoPow_eq], hhigh⟩
  next hlt =>
    rw [twoPow_eq, not_le] at hlt
    rw [Int.sub_add_cancel]
    exact ⟨hlow, hlt⟩

/-- The unit is less than a `2 ^ 53`-th by no more than the bits that there
are. -/
theorem lt_unit {q : Rat} (h : 0 < q) : q < 2 ^ 53 * 2 ^ unitExponent q := by
  have hle : exponent q + 1 ≤ 53 + unitExponent q := by
    unfold unitExponent
    split <;> omega
  calc q < 2 ^ (exponent q + 1) := (exponent_bounds h).2
    _ ≤ 2 ^ (53 + unitExponent q) := two_zpow_le hle
    _ = 2 ^ 53 * 2 ^ unitExponent q := by
        rw [zpow_add₀ (by norm_num)]
        rfl

theorem unitExponent_le {p q : Rat} (h : exponent p ≤ exponent q) :
    unitExponent p ≤ unitExponent q := by
  unfold unitExponent
  split
  · split <;> omega
  · split <;> omega

/-! ## Doubles -/

/-- A positive double is a multiple of its unit, and in range. -/
theorem of_roundPos_eq {q : Rat} (h : roundPos q = fin q) :
    (∃ m : Int, q = m * 2 ^ unitExponent q) ∧ ¬twoPow 1024 ≤ q := by
  rw [roundPos_eq] at h
  split at h
  · cases h
  next hrange =>
    have hround := fin.inj h
    rw [hround] at hrange
    rw [twoPow_eq] at hround
    exact ⟨⟨_, hround.symm⟩, hrange⟩

/-- Multiples of a unit less than half a unit away round to themselves. -/
theorem roundPos_of_multiple {q x : Rat} {m : Int} (hq : q = m * 2 ^ unitExponent x)
    (hlow : q - 2 ^ unitExponent x / 2 < x) (hhigh : x < q + 2 ^ unitExponent x / 2)
    (hrange : ¬twoPow 1024 ≤ q) : roundPos x = fin q := by
  have hunit := two_zpow_pos (unitExponent x)
  have hround : roundHalfEven (x / 2 ^ unitExponent x) = m := by
    refine roundHalfEven_of_near ?_ ?_
    · rw [lt_div_iff₀ hunit]
      linarith
    · rw [div_lt_iff₀ hunit]
      linarith
  rw [roundPos_eq, twoPow_eq (unitExponent x), hround, ← hq, if_neg hrange]

/-- A positive multiple of its unit is at least one unit. -/
theorem one_le_multiple {q : Rat} (hpos : 0 < q) {m : Int} (hq : q = m * 2 ^ unitExponent q) :
    1 ≤ m ∧ 2 ^ unitExponent q ≤ q := by
  have hunit := two_zpow_pos (unitExponent q)
  have hm : 0 < m := by
    have hmpos : (0 : Rat) < m := pos_of_mul_pos_left (lt_of_lt_of_eq hpos hq) (le_of_lt hunit)
    exact_mod_cast hmpos
  have hone : (1 : Rat) ≤ m := by exact_mod_cast hm
  refine ⟨hm, ?_⟩
  calc (2 : Rat) ^ unitExponent q = 1 * 2 ^ unitExponent q := (one_mul _).symm
    _ ≤ m * 2 ^ unitExponent q := mul_le_mul_of_nonneg_right hone (le_of_lt hunit)
    _ = q := hq.symm

/-- A double does not go past a power of 2 that is above it: it stays a unit
below. -/
theorem le_sub_unit {q : Rat} (hpos : 0 < q) {m : Int} (hq : q = m * 2 ^ unitExponent q) {v : Int}
    (hv : exponent q < v) : q ≤ 2 ^ v - 2 ^ unitExponent q := by
  have hunit := two_zpow_pos (unitExponent q)
  have hbelow : q < 2 ^ v := lt_of_lt_of_le (exponent_bounds hpos).2 (two_zpow_le hv)
  have hle : unitExponent q ≤ v := by
    have hlt := (zpow_lt_zpow_iff_right₀ (by norm_num : (1 : Rat) < 2)).mp
      (lt_of_le_of_lt (one_le_multiple hpos hq).2 hbelow)
    omega
  rw [two_zpow_split hle] at hbelow ⊢
  generalize ((2 ^ (v - unitExponent q).toNat : Nat) : Int) = n at *
  have hlt : m < n := by
    have hlt' : (m : Rat) < n :=
      lt_of_mul_lt_mul_right (lt_of_eq_of_lt hq.symm hbelow) (le_of_lt hunit)
    exact_mod_cast hlt'
  have hmn : (m : Rat) ≤ n - 1 := by exact_mod_cast (by omega : m ≤ n - 1)
  calc q = m * 2 ^ unitExponent q := hq
    _ ≤ (n - 1) * 2 ^ unitExponent q := mul_le_mul_of_nonneg_right hmn (le_of_lt hunit)
    _ = n * 2 ^ unitExponent q - 2 ^ unitExponent q := by ring

/-- A double comes back from each rational that is within half a `d`, where
`d` is at most its `10 ^ 16`-th part. -/
theorem roundPos_of_near {q x d : Rat} (hq : roundPos q = fin q) (hd : 0 < d)
    (hbig : 10 ^ 16 * d ≤ q) (hlow : q - d / 2 ≤ x) (hhigh : x ≤ q + d / 2) :
    roundPos x = fin q := by
  obtain ⟨⟨m, hm⟩, hrange⟩ := of_roundPos_eq hq
  have hqpos : 0 < q := by linarith
  have hxpos : 0 < x := by linarith
  have hdq : d < 2 ^ unitExponent q := by
    have hlt := lt_unit hqpos
    linarith
  have hdx : d < 2 ^ unitExponent x := by
    have hlt := lt_unit hxpos
    linarith
  -- otherwise a power of 2 lies between `q` and `x`
  have hexp : exponent x ≤ exponent q := by
    by_contra hgt
    have hbelow := le_sub_unit hqpos hm (not_le.mp hgt)
    have habove := (exponent_bounds hxpos).1
    linarith
  have hsplit := two_zpow_split (unitExponent_le hexp)
  have hmultiple : q =
      ((m * ((2 ^ (unitExponent q - unitExponent x).toNat : Nat) : Int) : Int) : Rat) *
        2 ^ unitExponent x := by
    rw [Int.cast_mul, mul_assoc, ← hsplit]
    exact hm
  exact roundPos_of_multiple hmultiple (by linarith) (by linarith) hrange

/-! ## Decimal digits -/

theorem tenPow_eq (u : Int) : tenPow u = (10 : Rat) ^ u := by
  cases u with
  | ofNat n =>
    show ((Nat.pow 10 n : Nat) : Rat) = (10 : Rat) ^ ((n : Nat) : Int)
    rw [zpow_natCast]
    exact Nat.cast_pow 10 n
  | negSucc n =>
    show 1 / ((Nat.pow 10 (n + 1) : Nat) : Rat) = (10 : Rat) ^ Int.negSucc n
    rw [zpow_negSucc, one_div]
    exact congrArg _ (Nat.cast_pow 10 (n + 1))

theorem tenPow_pos (u : Int) : 0 < tenPow u := by
  rw [tenPow_eq]
  exact zpow_pos (by norm_num) u

theorem ofRat_of_pos {q : Rat} (h : 0 < q) : ofRat q = roundPos q := by
  unfold ofRat
  rw [if_neg (ne_of_gt h), if_pos h]

/-- Seventeen digits give a double back. -/
theorem seventeen_digits {q : Rat} {n : Int} (hpos : 0 < q) (hq : ofRat q = fin q)
    (hn : tenPow (n - 1) ≤ q) :
    ofRat ((roundHalfEven (q / tenPow (n - 17)) : Rat) * tenPow (n - 17)) = fin q := by
  have hd := tenPow_pos (n - 17)
  have hbig : 10 ^ 16 * tenPow (n - 17) ≤ q := by
    rw [tenPow_eq] at hn ⊢
    calc (10 : Rat) ^ 16 * 10 ^ (n - 17) = 10 ^ ((16 : Nat) + (n - 17) : Int) := by
          rw [zpow_add₀ (by norm_num), zpow_natCast]
      _ = 10 ^ (n - 1) := by congr 1; omega
      _ ≤ q := hn
  -- rounding to a multiple of `d` moves the double by half a `d` at most
  obtain ⟨hlow, hhigh⟩ := roundHalfEven_near (q / tenPow (n - 17))
  generalize tenPow (n - 17) = d at *
  generalize roundHalfEven (q / d) = s at *
  have hlow' : q - d / 2 ≤ s * d := by
    have hmul := mul_le_mul_of_nonneg_right hlow (le_of_lt hd)
    rw [sub_mul, div_mul_cancel₀ q (ne_of_gt hd)] at hmul
    linarith
  have hhigh' : s * d ≤ q + d / 2 := by
    have hmul := mul_le_mul_of_nonneg_right hhigh (le_of_lt hd)
    rw [add_mul, div_mul_cancel₀ q (ne_of_gt hd)] at hmul
    linarith
  rw [ofRat_of_pos (by linarith)]
  rw [ofRat_of_pos hpos] at hq
  exact roundPos_of_near hq hd hbig hlow' hhigh'

end ChainKVM.Js.Num

namespace ChainKVM.Js

open Js.Num

/-- A search that reaches a number of digits that give the double back ends
with as many or fewer, as a number `s`, that do. -/
theorem shortest_within {q : Rat} {n : Int} {K : Nat} (hpos : 0 < q)
    (hK : ofRat ((roundHalfEven (q / tenPow (n - K)) : Rat) * tenPow (n - K)) = .fin q)
    {k fuel : Nat} (hk : k ≤ K) (hfuel : K < k + fuel) :
    ∃ (s : Int) (k' : Nat), 0 < s ∧ k' ≤ K ∧ ofRat ((s : Rat) * tenPow (n - k')) = .fin q ∧
      shortest q n k fuel =
        (String.ofList ((toString s).toList.reverse.dropWhile (· = '0')).reverse,
          n + ((toString s).length - k')) := by
  induction fuel generalizing k with
  | zero => omega
  | succ fuel ih =>
    rw [shortest]
    dsimp only
    split
    next hback =>
      refine ⟨_, k, ?_, hk, hback, rfl⟩
      have hnonneg := roundHalfEven_nonneg (le_of_lt (div_pos hpos (tenPow_pos (n - k))))
      have hne : roundHalfEven (q / tenPow (n - k)) ≠ 0 := by
        intro hzero
        rw [hzero, Int.cast_zero, zero_mul] at hback
        exact ne_of_gt hpos (Num.fin.inj hback).symm
      omega
    next hback =>
      -- `K` digits do not fail, so there is fuel left
      have hne : k ≠ K := by
        rintro rfl
        exact hback hK
      exact ih (by omega) (by omega)

/-- The search ends with digits, as a number `s`, that give the double back. -/
theorem shortest_gives_back {q : Rat} {n : Int} (hpos : 0 < q) (hq : ofRat q = .fin q)
    (hn : tenPow (n - 1) ≤ q) {k fuel : Nat} (hk : k ≤ 17) (hfuel : 17 < k + fuel) :
    ∃ (s : Int) (k' : Nat), 0 < s ∧ ofRat ((s : Rat) * tenPow (n - k')) = .fin q ∧
      shortest q n k fuel =
        (String.ofList ((toString s).toList.reverse.dropWhile (· = '0')).reverse,
          n + ((toString s).length - k')) := by
  obtain ⟨s, k', hs, -, hback, hshortest⟩ :=
    shortest_within hpos (seventeen_digits hpos hq hn) hk hfuel
  exact ⟨s, k', hs, hback, hshortest⟩

end ChainKVM.Js
