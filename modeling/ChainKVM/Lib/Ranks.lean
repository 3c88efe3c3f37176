import Mathlib.Data.List.Sort

/-!
# Ranks in a sorted list

The element at an index of a sorted list and the number of elements below a
bound say the same thing: a property that only gets rarer along the list holds
at index `k` exactly when it holds of more than `k` elements (`sat_iff_lt_countP`).
The ranks of an order statistic, and what it means that it is under a limit,
are the instances for `· ≤ t` and `· < t`.
-/

namespace ChainKVM.Ranks

variable {α : Type} [LinearOrder α]

/-- `P` holds of whatever is below something it holds of. -/
def DownClosed (P : α → Bool) : Prop := ∀ a b, a ≤ b → P b → P a

theorem downClosed_le (t : α) : DownClosed (decide <| · ≤ t) := by
  intro a b hab hb
  simp only [decide_eq_true_eq] at hb ⊢
  exact le_trans hab hb

theorem downClosed_lt (t : α) : DownClosed (decide <| · < t) := by
  intro a b hab hb
  simp only [decide_eq_true_eq] at hb ⊢
  exact lt_of_le_of_lt hab hb

variable {s : List α} {P : α → Bool}

/-- An element of a sorted list is at least the ones at smaller indices. -/
theorem getElem_le (hs : s.Pairwise (· ≤ ·)) {i j : Nat} (hij : i ≤ j) (hj : j < s.length) :
    s[i] ≤ s[j] := by
  rcases Nat.eq_or_lt_of_le hij with heq | hlt
  · subst heq
    exact le_refl _
  · exact List.pairwise_iff_getElem.mp hs i j _ hj hlt

/-- A property that only gets rarer holds at index `k` exactly when it holds of
more than `k` elements. -/
theorem sat_iff_lt_countP (hs : s.Pairwise (· ≤ ·)) (hP : DownClosed P) {k : Nat}
    (hk : k < s.length) : P s[k] ↔ k < s.countP P := by
  have hsplit (n : Nat) : s.countP P = (s.take n).countP P + (s.drop n).countP P := by
    rw [← List.countP_append, List.take_append_drop]
  constructor
  · -- then it holds of everything up to the index
    intro hsat
    have hall : (s.take (k + 1)).countP P = (s.take (k + 1)).length := by
      refine List.countP_eq_length.mpr fun a ha => ?_
      obtain ⟨i, hi, rfl⟩ := List.mem_take_iff_getElem.mp ha
      exact hP _ _ (getElem_le hs (by omega) hk) hsat
    have hlen : (s.take (k + 1)).length = k + 1 := by
      rw [List.length_take]
      omega
    have := hsplit (k + 1)
    omega
  · -- else it fails from the index on
    intro hlt
    by_contra hnot
    have hnone : (s.drop k).countP P = 0 := by
      refine List.countP_eq_zero.mpr fun a ha hsat => hnot ?_
      obtain ⟨i, hi, rfl⟩ := List.mem_drop_iff_getElem.mp ha
      exact hP _ _ (getElem_le hs (Nat.le_add_right k i) _) hsat
    have hle : (s.take k).countP P ≤ (s.take k).length := List.countP_le_length
    have hlen : (s.take k).length = k := by
      rw [List.length_take]
      omega
    have := hsplit k
    omega

/-- More than `k` elements are at most the one at index `k`. -/
theorem lt_countP_le (hs : s.Pairwise (· ≤ ·)) {k : Nat} (hk : k < s.length) :
    k < s.countP (decide <| · ≤ s[k]) :=
  (sat_iff_lt_countP hs (downClosed_le _) hk).mp (decide_eq_true (le_refl _))

/-- At most `k` elements are less than the one at index `k`. -/
theorem countP_lt_le (hs : s.Pairwise (· ≤ ·)) {k : Nat} (hk : k < s.length) :
    s.countP (decide <| · < s[k]) ≤ k := by
  by_contra hlt
  have hsat := (sat_iff_lt_countP hs (downClosed_lt s[k]) hk).mpr (by omega)
  exact lt_irrefl _ (of_decide_eq_true hsat)

/-- The sorted list is the same for every order of the elements. -/
theorem insertionSort_eq_of_perm {l l' : List α} (h : l.Perm l') :
    l.insertionSort (· ≤ ·) = l'.insertionSort (· ≤ ·) :=
  List.Perm.eq_of_pairwise' (List.pairwise_insertionSort _ l) (List.pairwise_insertionSort _ l')
    ((List.perm_insertionSort _ l).trans (h.trans (List.perm_insertionSort _ l').symm))

end ChainKVM.Ranks
