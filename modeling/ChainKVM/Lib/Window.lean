import Mathlib.Order.Basic
import Mathlib.Data.List.Induction

/-!
# Fixed windows

The cheap way to find `n` events close together: count from some first event,
and start again at the first event that is too late for it. `late a t` says
that `t` is too late for a window that starts at `a`.

What such a counter sees is close together indeed (`window_close`), but it
does not see all: the events before a restart are forgotten, also those that
are close to the ones after it. A burst that goes by unseen has at most
`2 * n - 3` events, and only a burst that starts a window is seen at `n`
(`window_of_starts`, `length_lt_of_unseen`).
-/

namespace ChainKVM.Window

variable {T : Type} (late : T → T → Prop) [DecidableRel late]

/-- An event is counted in the window, or starts the next one. -/
def mark : List T → T → List T
  | [], t => [t]
  | a :: ts, t => if late a t then [t] else a :: ts ++ [t]

/-- The window after the events `ts`. -/
def window (ts : List T) : List T := ts.foldl (mark late) []

/-- The event `a` after the events `ts` starts a window. -/
def Starts (ts : List T) (a : T) : Prop := window late (ts ++ [a]) = [a]

/-- No event is too late for one before it. -/
def Close (ts : List T) : Prop := ts.Pairwise fun a t => ¬late a t

/-- At some point the window held `n` events. -/
def Seen (n : Nat) (ts : List T) : Prop := ∃ before, before <+: ts ∧ n ≤ (window late before).length

/-- The later an event, the more windows it is too late for. -/
structure Monotone [LE T] : Prop where
  start : ∀ {a b t : T}, a ≤ b → late b t → late a t
  event : ∀ {a t u : T}, t ≤ u → late a t → late a u

variable {late}

theorem window_append (ts us : List T) :
    window late (ts ++ us) = us.foldl (mark late) (window late ts) := List.foldl_append

theorem window_concat (ts : List T) (t : T) :
    window late (ts ++ [t]) = mark late (window late ts) t := window_append ts [t]

theorem mark_cons (a : T) (ts : List T) (t : T) :
    mark late (a :: ts) t = if late a t then [t] else a :: ts ++ [t] := rfl

/-! ## What the counter sees -/

/-- The window is the last events. -/
theorem window_suffix (ts : List T) : window late ts <:+ ts := by
  induction ts using List.reverseRecOn with
  | nil => exact List.suffix_rfl
  | append_singleton ts t ih =>
    rw [window_concat]
    cases hw : window late ts with
    | nil => exact List.suffix_append ts [t]
    | cons a us =>
      rw [mark_cons]
      split
      · exact List.suffix_append ts [t]
      · rw [hw] at ih
        obtain ⟨before, hbefore⟩ := ih
        exact ⟨before, by rw [← hbefore, List.append_assoc]⟩

/-- Nothing in a window is too late for its start. -/
theorem not_late_of_window (ts : List T) {a : T} {us : List T}
    (h : window late ts = a :: us) : ∀ t ∈ us, ¬late a t := by
  induction ts using List.reverseRecOn generalizing a us with
  | nil => cases h
  | append_singleton ts t ih =>
    rw [window_concat] at h
    cases hw : window late ts with
    | nil =>
      rw [hw] at h
      cases h
      exact fun t ht => absurd ht List.not_mem_nil
    | cons b vs =>
      rw [hw, mark_cons] at h
      split at h
      · cases h
        exact fun t ht => absurd ht List.not_mem_nil
      next hnot =>
        cases h
        intro u hu
        rcases List.mem_append.mp hu with hmem | hmem
        · exact ih hw u hmem
        · rw [List.mem_singleton.mp hmem]
          exact hnot

/-- Nothing in a window is too late for anything before it in the window. -/
theorem window_close [Preorder T] (hlate : Monotone late) {ts : List T}
    (hsorted : ts.Pairwise (· ≤ ·)) : Close late (window late ts) := by
  have hsub : (window late ts).Pairwise (· ≤ ·) := hsorted.sublist (window_suffix ts).sublist
  cases hw : window late ts with
  | nil => exact List.Pairwise.nil
  | cons a us =>
    rw [hw] at hsub
    obtain ⟨hstart, -⟩ := List.pairwise_cons.mp hsub
    have hfirst := not_late_of_window ts hw
    refine List.pairwise_cons.mpr ⟨hfirst, List.Pairwise.imp_mem.mpr ?_⟩
    -- what is too late for a later event is too late for the start
    exact List.pairwise_of_forall_mem_list fun b hb t ht _ _ hbt =>
      hfirst t ht (hlate.start (hstart b hb) hbt)

/-! ## What it does not see -/

/-- Events that are not too late for the start of the window are counted. -/
theorem foldl_mark_of_not_late {a : T} {us : List T} :
    ∀ {ts : List T}, (∀ t ∈ ts, ¬late a t) → ts.foldl (mark late) (a :: us) = a :: us ++ ts := by
  intro ts
  induction ts generalizing us with
  | nil => exact fun _ => (List.append_nil _).symm
  | cons t ts ih =>
    intro h
    have hmark : mark late (a :: us) t = a :: (us ++ [t]) := if_neg (h t (by simp))
    rw [List.foldl_cons, hmark, ih fun u hu => h u (List.mem_cons_of_mem _ hu)]
    simp

/-- A burst that starts a window is counted whole. -/
theorem window_of_starts {ts us : List T} {a : T} (hstarts : Starts late ts a)
    (hclose : Close late (a :: us)) : window late (ts ++ a :: us) = a :: us := by
  have hsplit : ts ++ a :: us = (ts ++ [a]) ++ us := by simp
  rw [hsplit, window_append, hstarts]
  exact foldl_mark_of_not_late (List.pairwise_cons.mp hclose).1

/-- A burst is added to the window, or cut in two by a restart. -/
theorem burst_cases (w : List T) (hw : w ≠ []) {burst : List T} (hclose : Close late burst) :
    burst.foldl (mark late) w = w ++ burst ∨
      ∃ before c after, burst = before ++ c :: after ∧
        before.foldl (mark late) w = w ++ before ∧
        burst.foldl (mark late) w = c :: after := by
  induction burst generalizing w with
  | nil => exact .inl (List.append_nil w).symm
  | cons t ts ih =>
    obtain ⟨hfirst, hrest⟩ := List.pairwise_cons.mp hclose
    obtain ⟨a, us, rfl⟩ := List.exists_cons_of_ne_nil hw
    by_cases hlate : late a t
    · refine .inr ⟨[], t, ts, rfl, (List.append_nil _).symm, ?_⟩
      have hmark : mark late (a :: us) t = [t] := if_pos hlate
      rw [List.foldl_cons, hmark]
      exact foldl_mark_of_not_late hfirst
    · have hmark : mark late (a :: us) t = a :: us ++ [t] := if_neg hlate
      rw [List.foldl_cons, hmark]
      rcases ih (a :: us ++ [t]) (by simp) hrest with hall | ⟨before, c, after, rfl, hcount, hcut⟩
      · exact .inl (hall.trans (by simp))
      · refine .inr ⟨t :: before, c, after, rfl, ?_, hcut⟩
        rw [List.foldl_cons, hmark, hcount]
        simp

/-- A burst that goes by unseen is shorter than `max n (2 * n - 2)`. -/
theorem length_lt_of_unseen {n : Nat} (hn : 1 ≤ n) {ts burst : List T} (hclose : Close late burst)
    (hunseen : ¬Seen late n (ts ++ burst)) : burst.length < max n (2 * n - 2) := by
  have hshort (before : List T) (h : before <+: ts ++ burst) : (window late before).length < n :=
    Nat.lt_of_not_le fun hle => hunseen ⟨before, h, hle⟩
  have hall := hshort _ List.prefix_rfl
  rw [window_append] at hall
  by_cases hw : window late ts = []
  · -- the first event of the burst starts a window
    rw [hw] at hall
    cases burst with
    | nil => exact Nat.lt_of_lt_of_le hn (Nat.le_max_left _ _)
    | cons a us =>
      rw [List.foldl_cons] at hall
      have hcounted : us.foldl (mark late) [a] = a :: us :=
        foldl_mark_of_not_late (List.pairwise_cons.mp hclose).1
      rw [show mark late [] a = [a] from rfl, hcounted] at hall
      exact Nat.lt_of_lt_of_le hall (Nat.le_max_left _ _)
  · have hpos : 0 < (window late ts).length := List.length_pos_iff.mpr hw
    rcases burst_cases (window late ts) hw hclose with hadded | ⟨before, c, after, rfl, hcount, hcut⟩
    · rw [hadded, List.length_append] at hall
      omega
    · have hbefore := hshort (ts ++ before) ⟨c :: after, by simp⟩
      rw [window_append, hcount, List.length_append] at hbefore
      rw [hcut] at hall
      rw [List.length_append]
      omega

end ChainKVM.Window
