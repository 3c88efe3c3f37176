import Mathlib.Algebra.Order.Ring.Int
import Mathlib.Data.List.Nodup

/-!
# Gaps between sequence numbers

A receiver that only remembers the last sequence number counts the numbers that
each step up leaves out (`gaps`). Of the numbers between the smallest and the
largest that have arrived some are missing (`missing`). The two agree when the
numbers arrive in increasing order; in any order the count is at most that of
the missing ones exactly when the steps up, and one for each number that is
late, add up to no more than the distance from the smallest to the largest
(`gaps_le_iff`).
-/

namespace ChainKVM.Gaps

/-- The numbers that a step from `last` to `next` leaves out. -/
def skipped (last next : Int) : Int := if last + 1 < next then next - last - 1 else 0

/-- Those that the steps after `last` leave out. -/
def gaps (last : Int) : List Int → Int
  | [] => 0
  | x :: xs => skipped last x + gaps x xs

/-- The steps up after `last`, together. -/
def rise (last : Int) : List Int → Int
  | [] => 0
  | x :: xs => max 0 (x - last) + rise x xs

/-- How many numbers are not above the one before them. -/
def late (last : Int) : List Int → Nat
  | [] => 0
  | x :: xs => (if x ≤ last then 1 else 0) + late x xs

/-- The smallest number. -/
def lowest (first : Int) (rest : List Int) : Int := rest.foldl min first

/-- The largest number. -/
def highest (first : Int) (rest : List Int) : Int := rest.foldl max first

/-- The numbers from `a` to `b`. -/
def between (a b : Int) : List Int := (List.range (b + 1 - a).toNat).map fun k : Nat => a + k

/-- The numbers between the smallest and the largest that have not arrived. -/
def missing : List Int → List Int
  | [] => []
  | x :: xs => (between (lowest x xs) (highest x xs)).filter fun n => n ∉ x :: xs

/-! ## The count of the receiver -/

/-- Each step leaves out one less than it rises, and none if it does not rise. -/
theorem gaps_eq (last : Int) (l : List Int) :
    gaps last l = rise last l + late last l - l.length := by
  induction l generalizing last with
  | nil => rfl
  | cons x xs ih =>
    have hskip : skipped last x = max 0 (x - last) + (if x ≤ last then 1 else 0) - 1 := by
      unfold skipped
      split
      · omega
      · split <;> omega
    show skipped last x + gaps x xs = max 0 (x - last) + rise x xs +
      (((if x ≤ last then 1 else 0) + late x xs : Nat) : Int) - ((xs.length + 1 : Nat) : Int)
    rw [ih, hskip]
    push_cast
    omega

/-! ## The numbers that are missing -/

theorem lowest_cons (first x : Int) (xs : List Int) :
    lowest first (x :: xs) = lowest (min first x) xs := rfl

theorem highest_cons (first x : Int) (xs : List Int) :
    highest first (x :: xs) = highest (max first x) xs := rfl

theorem lowest_le (first : Int) (rest : List Int) : ∀ n ∈ first :: rest, lowest first rest ≤ n := by
  induction rest generalizing first with
  | nil =>
    intro n hn
    exact le_of_eq (List.mem_singleton.mp hn).symm
  | cons x xs ih =>
    intro n hn
    rw [lowest_cons]
    have hmin := ih (min first x) (min first x) List.mem_cons_self
    rcases List.mem_cons.mp hn with rfl | hn
    · omega
    · rcases List.mem_cons.mp hn with rfl | hn
      · omega
      · exact ih (min first x) n (List.mem_cons_of_mem _ hn)

theorem le_highest (first : Int) (rest : List Int) :
    ∀ n ∈ first :: rest, n ≤ highest first rest := by
  induction rest generalizing first with
  | nil =>
    intro n hn
    exact le_of_eq (List.mem_singleton.mp hn)
  | cons x xs ih =>
    intro n hn
    rw [highest_cons]
    have hmax := ih (max first x) (max first x) List.mem_cons_self
    rcases List.mem_cons.mp hn with rfl | hn
    · omega
    · rcases List.mem_cons.mp hn with rfl | hn
      · omega
      · exact ih (max first x) n (List.mem_cons_of_mem _ hn)

theorem highest_mem (first : Int) (rest : List Int) : highest first rest ∈ first :: rest := by
  induction rest generalizing first with
  | nil => exact List.mem_singleton_self first
  | cons x xs ih =>
    rw [highest_cons]
    rcases List.mem_cons.mp (ih (max first x)) with heq | hmem
    · rw [heq]
      rcases max_choice first x with hmax | hmax
      · rw [hmax]
        exact List.mem_cons_self
      · rw [hmax]
        exact List.mem_cons_of_mem _ List.mem_cons_self
    · exact List.mem_cons_of_mem _ (List.mem_cons_of_mem _ hmem)

theorem lowest_of_lt {first : Int} {rest : List Int} (h : ∀ n ∈ rest, first < n) :
    lowest first rest = first := by
  induction rest with
  | nil => rfl
  | cons x xs ih =>
    rw [lowest_cons, Int.min_eq_left (le_of_lt (h x List.mem_cons_self))]
    exact ih fun n hn => h n (List.mem_cons_of_mem x hn)

theorem mem_between {a b n : Int} : n ∈ between a b ↔ a ≤ n ∧ n ≤ b := by
  unfold between
  rw [List.mem_map]
  constructor
  · rintro ⟨k, hk, rfl⟩
    have hlt := List.mem_range.mp hk
    omega
  · intro h
    exact ⟨(n - a).toNat, List.mem_range.mpr (by omega), by omega⟩

theorem nodup_between (a b : Int) : (between a b).Nodup :=
  List.nodup_range.map fun _ _ h => by simpa using h

theorem length_between (a b : Int) : (between a b).length = (b + 1 - a).toNat := by
  unfold between
  rw [List.length_map, List.length_range]

/-- What is missing and what has arrived fill the interval. -/
theorem length_missing {first : Int} {rest : List Int} (h : (first :: rest).Nodup) :
    ((missing (first :: rest)).length : Int) =
      highest first rest - lowest first rest - rest.length := by
  have harrived : ((between (lowest first rest) (highest first rest)).filter
      fun n => n ∈ first :: rest).Perm (first :: rest) := by
    refine (List.perm_ext_iff_of_nodup ((nodup_between _ _).filter _) h).mpr fun n => ?_
    rw [List.mem_filter, decide_eq_true_eq]
    exact ⟨And.right, fun hn =>
      ⟨mem_between.mpr ⟨lowest_le first rest n hn, le_highest first rest n hn⟩, hn⟩⟩
  have hsplit := List.length_eq_length_filter_add (l := between (lowest first rest)
    (highest first rest)) fun n => n ∈ first :: rest
  simp only [← decide_not] at hsplit
  rw [harrived.length_eq, length_between, List.length_cons] at hsplit
  have hlow := lowest_le first rest first List.mem_cons_self
  have hhigh := le_highest first rest first List.mem_cons_self
  show (((between (lowest first rest) (highest first rest)).filter
    fun n => n ∉ first :: rest).length : Int) = _
  omega

/-! ## The two together -/

/-- The count is at most that of the missing numbers iff the steps up, and one
for each late number, fit between the smallest and the largest. -/
theorem gaps_le_iff {first : Int} {rest : List Int} (h : (first :: rest).Nodup) :
    gaps first rest ≤ (missing (first :: rest)).length ↔
      rise first rest + late first rest ≤ highest first rest - lowest first rest := by
  rw [gaps_eq, length_missing h]
  omega

/-- In increasing order the steps up lead from the smallest to the largest, and
nothing is late. -/
theorem rise_of_increasing {first : Int} {rest : List Int}
    (h : (first :: rest).Pairwise (· < ·)) :
    rise first rest = highest first rest - lowest first rest ∧ late first rest = 0 := by
  induction rest generalizing first with
  | nil => exact ⟨(Int.sub_self _).symm, rfl⟩
  | cons x xs ih =>
    obtain ⟨hfirst, hrest⟩ := List.pairwise_cons.mp h
    have hx := hfirst x List.mem_cons_self
    obtain ⟨hrise, hlate⟩ := ih hrest
    rw [lowest_of_lt (List.pairwise_cons.mp hrest).1] at hrise
    constructor
    · rw [lowest_of_lt hfirst, highest_cons, Int.max_eq_right (le_of_lt hx)]
      show max 0 (x - first) + rise x xs = _
      omega
    · show (if x ≤ first then 1 else 0) + late x xs = 0
      rw [if_neg (by omega), hlate]

theorem gaps_of_increasing {first : Int} {rest : List Int}
    (h : (first :: rest).Pairwise (· < ·)) :
    gaps first rest = (missing (first :: rest)).length := by
  obtain ⟨hrise, hlate⟩ := rise_of_increasing h
  rw [gaps_eq, length_missing (h.imp fun hlt => ne_of_lt hlt), hrise, hlate]
  omega

end ChainKVM.Gaps
