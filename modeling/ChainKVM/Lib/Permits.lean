import Mathlib.Algebra.Ring.Nat
import ChainKVM.Lib.Prog

/-!
# Permits

Some operations should be performed only so often: once for each time that
another operation has succeeded. Each success is a permit, handed to the thread
that had it, and each such operation uses one up. `Prog.Affords` says that a
program needs no more permits than it has or is given on the way.

`Permits` ties this to the shared state: `granted` and `used` count what the
operations do there. If every task starts with no permit, then in every run,
however the operations are interleaved, no more is used than was granted
(`Pool.used_le_granted`).
-/

namespace ChainKVM

variable {Op : Type} {Ans : Op → Type} {α β σ Task Env : Type}

namespace Prog

/-- With `n` permits the program never lacks one: an operation takes `cost` and
brings `gain`. -/
def Affords (cost : Op → Nat) (gain : (o : Op) → Ans o → Nat) : Nat → Prog Op Ans α → Prop
  | _, .ret _ => True
  | n, .op o k => cost o ≤ n ∧ ∀ r, Affords cost gain (n - cost o + gain o r) (k r)

variable {cost : Op → Nat} {gain : (o : Op) → Ans o → Nat}

theorem Affords.mono {p : Prog Op Ans α} {n n' : Nat} (h : Affords cost gain n p) (hn : n ≤ n') :
    Affords cost gain n' p := by
  induction p generalizing n n' with
  | ret a => trivial
  | op o k ih => exact ⟨Nat.le_trans h.1 hn, fun r => ih r (h.2 r) (by omega)⟩

/-- Permits that are left over can be used by what follows, but none are
needed. -/
theorem Affords.bind {p : Prog Op Ans α} {f : α → Prog Op Ans β} {n : Nat}
    (hp : Affords cost gain n p) (hf : ∀ a, Affords cost gain 0 (f a)) :
    Affords cost gain n (p >>= f) := by
  induction p generalizing n with
  | ret a => exact (hf a).mono (Nat.zero_le _)
  | op o k ih => exact ⟨hp.1, fun r => ih r (hp.2 r)⟩

end Prog

/-- What is counted in the shared state: an operation uses no more than it
costs, and grants at least what its answer brings. -/
structure Permits (sem : (o : Op) → σ → Ans o × σ) (cost : Op → Nat)
    (gain : (o : Op) → Ans o → Nat) (granted used : σ → Nat) : Prop where
  uses : ∀ o s, used (sem o s).2 ≤ used s + cost o
  grants : ∀ o s, granted s + gain o (sem o s).1 ≤ granted (sem o s).2

namespace Pool

variable {sem : (o : Op) → σ → Ans o × σ} {cost : Op → Nat} {gain : (o : Op) → Ans o → Nat}
  {granted used : σ → Nat} {code : Task → Prog Op Ans α} {outside : Env → σ → σ}

/-- Every thread has the permits it may need, and none of them is used yet. -/
def Funded (cost : Op → Nat) (gain : (o : Op) → Ans o → Nat) (granted used : σ → Nat)
    (c : Pool Task Op Ans α σ) : Prop :=
  ∃ ns : List Nat, ns.length = c.threads.length ∧
    (∀ (i n : Nat) (th : Task × Prog Op Ans α), ns[i]? = some n → c.threads[i]? = some th →
      Prog.Affords cost gain n th.2) ∧
    ns.sum + used c.shared ≤ granted c.shared

/-- Replacing one number changes the sum by as much. -/
theorem sum_set_add {ns : List Nat} {i n : Nat} (h : ns[i]? = some n) (m : Nat) :
    (ns.set i m).sum + n = ns.sum + m := by
  induction ns generalizing i with
  | nil => cases h
  | cons x ns ih =>
    cases i with
    | zero =>
      cases h
      simp only [List.set_cons_zero, List.sum_cons]
      omega
    | succ i =>
      have := ih (i := i) h
      simp only [List.set_cons_succ, List.sum_cons]
      omega

theorem Funded.step (hpermits : Permits sem cost gain granted used)
    (hcode : ∀ t, Prog.Affords cost gain 0 (code t))
    (henv : ∀ e s, used (outside e s) = used s ∧ granted (outside e s) = granted s)
    {c : Pool Task Op Ans α σ} (h : Funded cost gain granted used c) (m : Move Task Env) :
    Funded cost gain granted used (step code sem outside c m) := by
  obtain ⟨ns, hlength, haffords, hsum⟩ := h
  rcases step_cases code sem outside c m with
    ⟨t, -, -, hs⟩ | ⟨i, t, o, k, -, hi, -, hs⟩ | ⟨-, hs⟩ | ⟨e, -, -, hs⟩
  · rw [hs]
    refine ⟨ns ++ [0], by simp [hlength], fun j n th hn hth => ?_, by simpa using hsum⟩
    rcases Nat.lt_trichotomy j ns.length with hlt | heq | hgt
    · rw [List.getElem?_append_left hlt] at hn
      rw [List.getElem?_append_left (hlength ▸ hlt)] at hth
      exact haffords j n th hn hth
    · subst heq
      rw [List.getElem?_concat_length] at hn
      rw [hlength, List.getElem?_concat_length] at hth
      cases hn
      cases hth
      exact hcode t
    · rw [List.getElem?_eq_none (by simp only [List.length_append, List.length_singleton]; omega)]
        at hn
      cases hn
  · obtain ⟨n, hn⟩ : ∃ n, ns[i]? = some n := by
      obtain ⟨hlt, -⟩ := List.getElem?_eq_some_iff.mp hi
      exact ⟨_, List.getElem?_eq_getElem (hlength ▸ hlt)⟩
    obtain ⟨hcost, hk⟩ := haffords i n _ hn hi
    have huses := hpermits.uses o c.shared
    have hgrants := hpermits.grants o c.shared
    have hset := sum_set_add hn (n - cost o + gain o (sem o c.shared).1)
    rw [hs]
    refine ⟨ns.set i (n - cost o + gain o (sem o c.shared).1), by simp [hlength],
      fun j m th hm hth => ?_, ?_⟩
    · rcases getElem?_set_cases hm with ⟨rfl, rfl⟩ | ⟨hne, hm⟩
      · rcases getElem?_set_cases hth with ⟨-, rfl⟩ | ⟨hne, -⟩
        · exact hk _
        · exact absurd rfl hne
      · rcases getElem?_set_cases hth with ⟨rfl, -⟩ | ⟨-, hth⟩
        · exact absurd rfl hne
        · exact haffords j m th hm hth
    · dsimp only
      omega
  · rw [hs]
    exact ⟨ns, hlength, haffords, hsum⟩
  · rw [hs]
    obtain ⟨hused, hgranted⟩ := henv e c.shared
    refine ⟨ns, hlength, haffords, ?_⟩
    dsimp only
    rw [hused, hgranted]
    exact hsum

/-- In every run from a pool without threads, no more is used than was
granted. -/
theorem used_le_granted (hpermits : Permits sem cost gain granted used)
    (hcode : ∀ t, Prog.Affords cost gain 0 (code t))
    (henv : ∀ e s, used (outside e s) = used s ∧ granted (outside e s) = granted s)
    {s : σ} (hs : used s ≤ granted s) (ms : List (Move Task Env)) :
    Machine.Always (step code sem outside) (fun c => used c.shared ≤ granted c.shared)
      ⟨s, []⟩ ms := by
  have hstart : Funded cost gain granted used (⟨s, []⟩ : Pool Task Op Ans α σ) :=
    ⟨[], rfl, fun _ _ _ hn => (nomatch hn), by simpa using hs⟩
  have hfunded : Machine.Always (step code sem outside) (Funded cost gain granted used) ⟨s, []⟩ ms :=
    Machine.always_of_step (fun c m hc => Funded.step hpermits hcode henv hc m) hstart
  refine hfunded.imp fun c hc => ?_
  obtain ⟨ns, -, -, hsum⟩ := hc
  exact Nat.le_trans (Nat.le_add_left _ _) hsum

end Pool

end ChainKVM
