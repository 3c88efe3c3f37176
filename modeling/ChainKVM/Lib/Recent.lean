import Mathlib.Data.List.DropRight

/-!
# The last entries of a history

A bounded buffer that drops its oldest entry holds the last `n` entries of what
was put into it. There are three ways to write the step, and on a buffer that
is not over its bound they are one function: make room first (`push`), drop
the oldest afterwards (`pushShift`), or keep the last `n - 1` and append
(`pushSlice`).
-/

namespace ChainKVM.Recent

variable {α : Type}

/-- Make room in a full buffer, then append. -/
def push (n : Nat) (buffer : List α) (x : α) : List α :=
  if n ≤ buffer.length then buffer.tail ++ [x] else buffer ++ [x]

/-- Append, then drop the oldest if that is one too many. -/
def pushShift (n : Nat) (buffer : List α) (x : α) : List α :=
  if n < (buffer ++ [x]).length then (buffer ++ [x]).tail else buffer ++ [x]

/-- Append to the last `n - 1`. -/
def pushSlice (n : Nat) (buffer : List α) (x : α) : List α := buffer.rtake (n - 1) ++ [x]

theorem length_rtake (n : Nat) (l : List α) : (l.rtake n).length = min n l.length := by
  unfold List.rtake
  rw [List.length_drop]
  omega

theorem rtake_of_length_le {n : Nat} {l : List α} (h : l.length ≤ n) : l.rtake n = l := by
  unfold List.rtake
  rw [Nat.sub_eq_zero_of_le h, List.drop_zero]

/-- What is older than the last `n - 1` entries does not matter to the last `n`
after one more. -/
theorem rtake_rtake (n : Nat) (l : List α) (x : α) :
    (l.rtake n).rtake (n - 1) ++ [x] = l.rtake (n - 1) ++ [x] := by
  unfold List.rtake
  rw [List.drop_drop, List.length_drop]
  congr 2
  omega

variable {n : Nat} (hn : 0 < n)
include hn

theorem pushSlice_rtake (l : List α) (x : α) : pushSlice n (l.rtake n) x = (l ++ [x]).rtake n := by
  obtain ⟨m, rfl⟩ := Nat.exists_eq_add_of_lt hn
  rw [Nat.zero_add, List.rtake_concat_succ]
  exact rtake_rtake (m + 1) l x

theorem pushShift_eq {buffer : List α} (h : buffer.length ≤ n) (x : α) :
    pushShift n buffer x = pushSlice n buffer x := by
  unfold pushShift pushSlice
  rw [List.length_append, List.length_singleton]
  split
  · have hlen : buffer.length - (n - 1) = 1 := by omega
    have hne : buffer ≠ [] := List.ne_nil_of_length_pos (by omega)
    rw [List.rtake, hlen, List.drop_one, List.tail_append_of_ne_nil hne]
  · rw [rtake_of_length_le (show buffer.length ≤ n - 1 by omega)]

theorem push_eq {buffer : List α} (h : buffer.length ≤ n) (x : α) :
    push n buffer x = pushSlice n buffer x := by
  unfold push pushSlice
  split
  · have hlen : buffer.length - (n - 1) = 1 := by omega
    rw [List.rtake, hlen, List.drop_one]
  · rw [rtake_of_length_le (show buffer.length ≤ n - 1 by omega)]

theorem push_rtake (l : List α) (x : α) : push n (l.rtake n) x = (l ++ [x]).rtake n := by
  rw [push_eq hn (by rw [length_rtake]; omega), pushSlice_rtake hn]

theorem pushShift_rtake (l : List α) (x : α) :
    pushShift n (l.rtake n) x = (l ++ [x]).rtake n := by
  rw [pushShift_eq hn (by rw [length_rtake]; omega), pushSlice_rtake hn]

/-- The buffer holds the last `n` entries. -/
theorem foldl_push (before l : List α) :
    l.foldl (push n) (before.rtake n) = (before ++ l).rtake n := by
  induction l generalizing before with
  | nil => rw [List.foldl_nil, List.append_nil]
  | cons x l ih => rw [List.foldl_cons, push_rtake hn, ih, List.append_assoc, List.singleton_append]

end ChainKVM.Recent
