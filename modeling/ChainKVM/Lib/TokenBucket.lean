import Mathlib.Algebra.Order.Field.Basic
import Mathlib.Tactic.Linarith
import Mathlib.Tactic.Ring

/-!
# Token buckets

A bucket holds at most `cap` tokens and gains `rate` of them per unit of time;
a request takes one, and is refused if there is none. It is the greedy way to
keep a stream of requests within a burst and a rate, and the theorem of this
file says that it is exact: a bucket that starts full never refuses a request
of a stream iff every window of time, of any length `T`, has at most
`cap + rate * T` of them (`neverRefused_iff`).

Of any other stream, what is granted is within the rate. This needs less than
a bucket: it holds of everything that pays for what it grants out of a store
that gains at most `rate` (`Paid.withinRate`).
-/

namespace ChainKVM

section Granted

variable {K : Type}

/-- The requests of a stream that were granted. -/
def granted (answers : List (K × Bool)) : List K := (answers.filter (·.2)).map (·.1)

theorem granted_cons (t : K) (ok : Bool) (rest : List (K × Bool)) :
    granted ((t, ok) :: rest) = if ok then t :: granted rest else granted rest := by
  cases ok <;> rfl

theorem granted_subset [LE K] {answers : List (K × Bool)} {s : K} (h : ∀ a ∈ answers, s ≤ a.1) :
    ∀ t ∈ granted answers, s ≤ t := by
  intro t ht
  obtain ⟨a, ha, rfl⟩ := List.mem_map.mp ht
  exact h a (List.mem_filter.mp ha).1

end Granted

section Windows

variable {K : Type} [LinearOrder K]

/-- How many requests of a stream fall into a window. -/
def arrivals (s e : K) (ts : List K) : Nat := ts.countP fun t => s ≤ t ∧ t ≤ e

theorem arrivals_cons (s e t : K) (ts : List K) :
    arrivals s e (t :: ts) = arrivals s e ts + if s ≤ t ∧ t ≤ e then 1 else 0 := by
  simp [arrivals, List.countP_cons]

/-- A window that starts before the stream counts from its start. -/
theorem arrivals_of_le {s s' e : K} {ts : List K} (h : ∀ t ∈ ts, s ≤ t ∧ s' ≤ t) :
    arrivals s e ts = arrivals s' e ts := by
  refine List.countP_congr fun t ht => ?_
  simp [(h t ht).1, (h t ht).2]

/-- A window that ends before the stream is empty. -/
theorem arrivals_of_lt {s e : K} {ts : List K} (h : ∀ t ∈ ts, e < t) : arrivals s e ts = 0 := by
  refine List.countP_eq_zero.mpr fun t ht => ?_
  simp [h t ht]

theorem arrivals_granted_cons_of_not {s e t : K} (ok : Bool) (rest : List (K × Bool))
    (hout : ¬(s ≤ t ∧ t ≤ e)) :
    arrivals s e (granted ((t, ok) :: rest)) = arrivals s e (granted rest) := by
  rw [granted_cons]
  cases ok with
  | true =>
    refine (arrivals_cons ..).trans ?_
    rw [if_neg hout, Nat.add_zero]
  | false => rfl

end Windows

section Buckets

variable {K : Type} [Field K] [LinearOrder K]

/-- Every window has at most a burst and its share of the rate. -/
def WithinRate (cap rate : K) (ts : List K) : Prop :=
  ∀ s e, s ≤ e → (arrivals s e ts : K) ≤ cap + rate * (e - s)

/-- A bucket: what it holds, and since when. -/
structure Bucket (K : Type) where
  tokens : K
  last : K

namespace Bucket

variable (cap rate : K)

/-- A full bucket. -/
def full (t : K) : Bucket K := ⟨cap, t⟩

/-- What the bucket holds at a later time. -/
def refill (b : Bucket K) (t : K) : K := min cap (b.tokens + rate * (t - b.last))

/-- A request: whether it is granted, and the bucket after it. -/
def take (b : Bucket K) (t : K) : Bool × Bucket K :=
  if 1 ≤ b.refill cap rate t then (true, ⟨b.refill cap rate t - 1, t⟩)
  else (false, ⟨b.refill cap rate t, t⟩)

/-- All requests of a stream are granted. -/
def NeverRefused : Bucket K → List K → Prop
  | _, [] => True
  | b, t :: ts => (b.take cap rate t).1 = true ∧ NeverRefused (b.take cap rate t).2 ts

/-- What the bucket holds, and gains, is enough for the requests of a stream
up to any time. -/
def Covers (b : Bucket K) (ts : List K) : Prop :=
  ∀ e, b.last ≤ e → (arrivals b.last e ts : K) ≤ b.tokens + rate * (e - b.last)

variable {cap rate} {b : Bucket K} {t : K} {ts : List K}

theorem neverRefused_cons :
    NeverRefused cap rate b (t :: ts) ↔
      1 ≤ b.refill cap rate t ∧ NeverRefused cap rate ⟨b.refill cap rate t - 1, t⟩ ts := by
  show (b.take cap rate t).1 = true ∧ NeverRefused cap rate (b.take cap rate t).2 ts ↔ _
  unfold take
  by_cases h : 1 ≤ b.refill cap rate t
  · simp only [h, if_true, true_and]
  · simp only [h, if_false, Bool.false_eq_true, false_and]

/-- A request counts in the windows around it. -/
theorem arrivals_cons_self {s e : K} (hs : s ≤ t) (he : t ≤ e) :
    (arrivals s e (t :: ts) : K) = arrivals s e ts + 1 := by
  rw [arrivals_cons, if_pos ⟨hs, he⟩]
  exact Nat.cast_succ _

/-- A request counts in the windows around it if it is granted. -/
theorem arrivals_granted_cons {s e : K} (ok : Bool) (rest : List (K × Bool)) (hs : s ≤ t)
    (he : t ≤ e) : (arrivals s e (granted ((t, ok) :: rest)) : K) =
      arrivals s e (granted rest) + if ok then 1 else 0 := by
  rw [granted_cons]
  cases ok with
  | true => exact arrivals_cons_self hs he
  | false => exact (add_zero _).symm

variable [IsStrictOrderedRing K]

/-- If the bucket covers the stream within the rate, there is a token for the
first request, and for the rest it is enough that is left. -/
theorem covers_tail (ht : b.last ≤ t) (hsorted : ∀ t' ∈ ts, t ≤ t')
    (hcovers : Covers rate b (t :: ts)) (hwithin : WithinRate cap rate (t :: ts)) :
    1 ≤ b.refill cap rate t ∧ Covers rate ⟨b.refill cap rate t - 1, t⟩ ts := by
  have hrest (e : K) (he : t ≤ e) :
      (arrivals t e ts : K) + 1 ≤ b.refill cap rate t + rate * (e - t) := by
    have hburst := hwithin t e he
    have hheld := hcovers e (ht.trans he)
    have hsame : arrivals b.last e ts = arrivals t e ts :=
      arrivals_of_le fun t' ht' => ⟨ht.trans (hsorted t' ht'), hsorted t' ht'⟩
    rw [arrivals_cons_self le_rfl he] at hburst
    rw [arrivals_cons_self ht he, hsame] at hheld
    unfold refill
    rw [← min_add_add_right]
    refine le_min hburst (hheld.trans (le_of_eq ?_))
    ring
  constructor
  · have hfirst := hrest t le_rfl
    have hcount : (0 : K) ≤ arrivals t t ts := Nat.cast_nonneg _
    rw [sub_self, mul_zero, add_zero] at hfirst
    linarith
  · intro e he
    have hlater := hrest e he
    show (arrivals t e ts : K) ≤ b.refill cap rate t - 1 + rate * (e - t)
    linarith

/-- One request: the bucket covers the stream, and all windows are within the
rate, iff there is a token for it and this is so of the rest. -/
theorem covers_cons_iff (hrate : 0 ≤ rate) (htokens : 0 ≤ b.tokens) (ht : b.last ≤ t)
    (hsorted : ∀ t' ∈ ts, t ≤ t') :
    Covers rate b (t :: ts) ∧ WithinRate cap rate (t :: ts) ↔
      1 ≤ b.refill cap rate t ∧ Covers rate ⟨b.refill cap rate t - 1, t⟩ ts ∧
        WithinRate cap rate ts := by
  constructor
  · rintro ⟨hcovers, hwithin⟩
    obtain ⟨hgranted, hrest⟩ := covers_tail ht hsorted hcovers hwithin
    refine ⟨hgranted, hrest, fun s e hse => le_trans ?_ (hwithin s e hse)⟩
    rw [arrivals_cons, Nat.cast_add]
    exact le_add_of_nonneg_right (Nat.cast_nonneg _)
  · rintro ⟨hgranted, hcovers, hwithin⟩
    -- the requests up to `e`, the first one among them
    have hrest (e : K) (he : t ≤ e) :
        (arrivals t e ts : K) + 1 ≤ b.refill cap rate t + rate * (e - t) := by
      have hlater : (arrivals t e ts : K) ≤ b.refill cap rate t - 1 + rate * (e - t) := hcovers e he
      linarith
    constructor
    · intro e he
      by_cases hte : t ≤ e
      · have hsame : arrivals b.last e ts = arrivals t e ts :=
          arrivals_of_le fun t' ht' => ⟨ht.trans (hsorted t' ht'), hsorted t' ht'⟩
        have hheld : b.refill cap rate t ≤ b.tokens + rate * (t - b.last) := min_le_right _ _
        rw [arrivals_cons_self ht hte, hsame]
        calc (arrivals t e ts : K) + 1 ≤ b.refill cap rate t + rate * (e - t) := hrest e hte
          _ ≤ b.tokens + rate * (t - b.last) + rate * (e - t) := by linarith
          _ = b.tokens + rate * (e - b.last) := by ring
      · have hnone : arrivals b.last e (t :: ts) = 0 := by
          refine arrivals_of_lt fun t' ht' => ?_
          rcases List.mem_cons.mp ht' with rfl | hmem
          · exact not_le.mp hte
          · exact (not_le.mp hte).trans_le (hsorted t' hmem)
        rw [hnone, Nat.cast_zero]
        exact add_nonneg htokens (mul_nonneg hrate (sub_nonneg.mpr he))
    · intro s e hse
      by_cases hin : s ≤ t ∧ t ≤ e
      · have hsame : arrivals s e ts = arrivals t e ts :=
          arrivals_of_le fun t' ht' => ⟨hin.1.trans (hsorted t' ht'), hsorted t' ht'⟩
        have hfull : b.refill cap rate t ≤ cap := min_le_left _ _
        have hlonger : rate * (e - t) ≤ rate * (e - s) :=
          mul_le_mul_of_nonneg_left (sub_le_sub_left hin.1 e) hrate
        rw [arrivals_cons_self hin.1 hin.2, hsame]
        linarith [hrest e hin.2]
      · rw [arrivals_cons, if_neg hin, add_zero]
        exact hwithin s e hse

/-- A bucket never refuses iff it covers the stream and all windows of the
stream are within the rate. -/
theorem neverRefused_iff (hcap : 0 ≤ cap) (hrate : 0 ≤ rate) :
    ∀ (ts : List K) {b : Bucket K}, 0 ≤ b.tokens → (∀ t ∈ ts, b.last ≤ t) →
      ts.Pairwise (· ≤ ·) →
        (NeverRefused cap rate b ts ↔ Covers rate b ts ∧ WithinRate cap rate ts) := by
  intro ts
  induction ts with
  | nil =>
    intro b htokens _ _
    refine ⟨fun _ => ⟨fun e he => ?_, fun s e hse => ?_⟩, fun _ => trivial⟩
    · have hgain : 0 ≤ rate * (e - b.last) := mul_nonneg hrate (sub_nonneg.mpr he)
      simpa [arrivals] using add_nonneg htokens hgain
    · have hgain : 0 ≤ rate * (e - s) := mul_nonneg hrate (sub_nonneg.mpr hse)
      simpa [arrivals] using add_nonneg hcap hgain
  | cons t ts ih =>
    intro b htokens hlast hsorted
    obtain ⟨hhead, htail⟩ := List.pairwise_cons.mp hsorted
    rw [neverRefused_cons, covers_cons_iff hrate htokens (hlast t (by simp)) hhead]
    refine and_congr_right fun hgranted => ?_
    exact ih (sub_nonneg.mpr hgranted) hhead htail

/-- A bucket that starts full never refuses iff all windows of the stream are
within the rate. -/
theorem full_neverRefused_iff (hcap : 0 ≤ cap) (hrate : 0 ≤ rate) {t₀ : K}
    (hstart : ∀ t ∈ ts, t₀ ≤ t) (hsorted : ts.Pairwise (· ≤ ·)) :
    NeverRefused cap rate (full cap t₀) ts ↔ WithinRate cap rate ts := by
  rw [neverRefused_iff hcap hrate ts hcap hstart hsorted]
  exact ⟨And.right, fun h => ⟨fun e he => h t₀ e he, h⟩⟩

/-! ## What is granted of any stream -/

/-- Each request that is granted is paid for, out of at most `cap` and at most
what the bucket gains. -/
def Paid (cap rate : K) : Bucket K → List (K × Bool) → Prop
  | _, [] => True
  | b, (t, ok) :: rest => ∃ held, held ≤ cap ∧ held ≤ b.tokens + rate * (t - b.last) ∧
      (if ok then (1 : K) else 0) ≤ held ∧
      Paid cap rate ⟨held - if ok then 1 else 0, t⟩ rest

/-- The bucket pays for all that is granted later. -/
theorem Paid.covers (hrate : 0 ≤ rate) :
    ∀ {answers : List (K × Bool)} {b : Bucket K}, Paid cap rate b answers → 0 ≤ b.tokens →
      (∀ a ∈ answers, b.last ≤ a.1) → answers.Pairwise (fun a a' => a.1 ≤ a'.1) →
        Covers rate b (granted answers) := by
  intro answers
  induction answers with
  | nil =>
    intro b _ htokens _ _ e he
    have hgain : 0 ≤ rate * (e - b.last) := mul_nonneg hrate (sub_nonneg.mpr he)
    simpa [arrivals, granted] using add_nonneg htokens hgain
  | cons a rest ih =>
    obtain ⟨t, ok⟩ := a
    intro b hpaid htokens hlast hsorted e he
    obtain ⟨held, -, hheld, hpays, hrest⟩ := hpaid
    obtain ⟨hhead, htail⟩ := List.pairwise_cons.mp hsorted
    have ht : b.last ≤ t := hlast (t, ok) (List.mem_cons_self ..)
    by_cases hte : t ≤ e
    · have hlater := ih hrest (sub_nonneg.mpr hpays) hhead htail e hte
      have hsame : arrivals b.last e (granted rest) = arrivals t e (granted rest) :=
        arrivals_of_le fun u hu =>
          ⟨granted_subset (fun a ha => hlast a (List.mem_cons_of_mem _ ha)) u hu,
            granted_subset hhead u hu⟩
      rw [arrivals_granted_cons ok rest ht hte, hsame]
      dsimp only at hlater
      calc (arrivals t e (granted rest) : K) + (if ok then 1 else 0)
          ≤ held + rate * (e - t) := by linarith
        _ ≤ b.tokens + rate * (t - b.last) + rate * (e - t) := by linarith
        _ = b.tokens + rate * (e - b.last) := by ring
    · have hnone : arrivals b.last e (granted ((t, ok) :: rest)) = 0 := by
        have hfrom : ∀ a ∈ (t, ok) :: rest, t ≤ a.1 := by
          intro a ha
          rcases List.mem_cons.mp ha with rfl | hmem
          · exact le_rfl
          · exact hhead a hmem
        exact arrivals_of_lt fun u hu => (not_le.mp hte).trans_le (granted_subset hfrom u hu)
      rw [hnone, Nat.cast_zero]
      exact add_nonneg htokens (mul_nonneg hrate (sub_nonneg.mpr he))

/-- What is paid for is within the rate. -/
theorem Paid.withinRate (hcap : 0 ≤ cap) (hrate : 0 ≤ rate) :
    ∀ {answers : List (K × Bool)} {b : Bucket K}, Paid cap rate b answers →
      answers.Pairwise (fun a a' => a.1 ≤ a'.1) → WithinRate cap rate (granted answers) := by
  intro answers
  induction answers with
  | nil =>
    intro b _ _ s e hse
    have hgain : 0 ≤ rate * (e - s) := mul_nonneg hrate (sub_nonneg.mpr hse)
    simpa [arrivals, granted] using add_nonneg hcap hgain
  | cons a rest ih =>
    obtain ⟨t, ok⟩ := a
    intro b hpaid hsorted s e hse
    obtain ⟨held, hfull, -, hpays, hrest⟩ := hpaid
    obtain ⟨hhead, htail⟩ := List.pairwise_cons.mp hsorted
    by_cases hin : s ≤ t ∧ t ≤ e
    · have hlater := hrest.covers hrate (sub_nonneg.mpr hpays) hhead htail e hin.2
      have hsame : arrivals s e (granted rest) = arrivals t e (granted rest) :=
        arrivals_of_le fun u hu =>
          ⟨hin.1.trans (granted_subset hhead u hu), granted_subset hhead u hu⟩
      have hlonger : rate * (e - t) ≤ rate * (e - s) :=
        mul_le_mul_of_nonneg_left (sub_le_sub_left hin.1 e) hrate
      rw [arrivals_granted_cons ok rest hin.1 hin.2, hsame]
      dsimp only at hlater
      linarith
    · rw [arrivals_granted_cons_of_not ok rest hin]
      exact ih hrest htail s e hse

end Bucket

end Buckets

end ChainKVM
