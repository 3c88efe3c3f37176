import ChainKVM.Lib.Machine

/-!
# Programs over atomic operations, run alone or interleaved

A handler of a concurrent server is a program whose steps are atomic
operations on shared state (each one a critical section), with ordinary
control flow in between. `Prog Op Ans α` is such a program: it stops with an
`α`, or performs an operation `o : Op` and goes on with its answer. One text
of the handler then has two meanings:

* `exec`: the handler runs from start to end with nobody in between;
* `Pool`: many handlers are in progress at once, and each move of the
  scheduler performs one operation of one of them.

`Pool.run_alone` connects the two: letting one thread run to its end is
`exec`.

What holds along *every* path of a program is stated with `Until`:
`Until pass bad fin p` says that `p` performs no `bad` operation and does
not stop (unless `fin`) before an operation has given an answer that passes.
"No dispatch before a granted check" and "no return before the stop" are both
of this form, and `Pool.step_threads` carries such facts over any
interleaving.
-/

namespace ChainKVM

/-- A program over the operations `Op` with answers `Ans`. -/
inductive Prog (Op : Type) (Ans : Op → Type) (α : Type) : Type where
  | ret (a : α)
  | op (o : Op) (k : Ans o → Prog Op Ans α)

namespace Prog

variable {Op : Type} {Ans : Op → Type} {α β σ : Type}

/-- Sequencing. -/
def bind : Prog Op Ans α → (α → Prog Op Ans β) → Prog Op Ans β
  | .ret a, f => f a
  | .op o k, f => .op o fun r => (k r).bind f

instance : Monad (Prog Op Ans) where
  pure := .ret
  bind := bind

/-- Perform one operation. -/
def perform (o : Op) : Prog Op Ans (Ans o) := .op o .ret

@[simp] theorem pure_eq_ret (a : α) : (pure a : Prog Op Ans α) = .ret a := rfl

@[simp] theorem ret_bind (a : α) (f : α → Prog Op Ans β) : (.ret a >>= f) = f a := rfl

@[simp] theorem op_bind (o : Op) (k : Ans o → Prog Op Ans α) (f : α → Prog Op Ans β) :
    (.op o k >>= f) = .op o fun r => k r >>= f := rfl

@[simp] theorem perform_bind (o : Op) (f : Ans o → Prog Op Ans β) :
    (perform o >>= f) = .op o f := rfl

/-! ## Running alone -/

/-- Run a program to its end, `sem` being the meaning of one operation. -/
def exec (sem : (o : Op) → σ → Ans o × σ) : Prog Op Ans α → σ → α × σ
  | .ret a, s => (a, s)
  | .op o k, s => exec sem (k (sem o s).1) (sem o s).2

variable (sem : (o : Op) → σ → Ans o × σ)

@[simp] theorem exec_ret (a : α) (s : σ) : exec sem (.ret a : Prog Op Ans α) s = (a, s) := rfl

@[simp] theorem exec_op (o : Op) (k : Ans o → Prog Op Ans α) (s : σ) :
    exec sem (.op o k) s = exec sem (k (sem o s).1) (sem o s).2 := rfl

@[simp] theorem exec_bind (p : Prog Op Ans α) (f : α → Prog Op Ans β) (s : σ) :
    exec sem (p >>= f) s = exec sem (f (exec sem p s).1) (exec sem p s).2 := by
  induction p generalizing s with
  | ret a => rfl
  | op o k ih => exact ih _ _

/-- The operations that a program performs when it runs alone, each with its
answer. -/
def log : Prog Op Ans α → σ → List ((o : Op) × Ans o)
  | .ret _, _ => []
  | .op o k, s => ⟨o, (sem o s).1⟩ :: log (k (sem o s).1) (sem o s).2

@[simp] theorem log_ret (a : α) (s : σ) : log sem (.ret a : Prog Op Ans α) s = [] := rfl

@[simp] theorem log_op (o : Op) (k : Ans o → Prog Op Ans α) (s : σ) :
    log sem (.op o k) s = ⟨o, (sem o s).1⟩ :: log sem (k (sem o s).1) (sem o s).2 := rfl

@[simp] theorem log_bind (p : Prog Op Ans α) (f : α → Prog Op Ans β) (s : σ) :
    log sem (p >>= f) s = log sem p s ++ log sem (f (exec sem p s).1) (exec sem p s).2 := by
  induction p generalizing s with
  | ret a => rfl
  | op o k ih => exact congrArg (List.cons _) (ih _ _)

/-! ## Running with others in between -/

/-- Run a program to its end, where others act on the state before each
operation: `outside n` before the one with number `n`. -/
def execWith (sem : (o : Op) → σ → Ans o × σ) (outside : Nat → σ → σ) :
    Prog Op Ans α → Nat → σ → α × σ
  | .ret a, _, s => (a, s)
  | .op o k, n, s =>
    execWith sem outside (k (sem o (outside n s)).1) (n + 1) (sem o (outside n s)).2

/-- The operations of such a run, with their numbers and answers. -/
def logWith (outside : Nat → σ → σ) : Prog Op Ans α → Nat → σ → List (Nat × (o : Op) × Ans o)
  | .ret _, _, _ => []
  | .op o k, n, s => (n, ⟨o, (sem o (outside n s)).1⟩) ::
    logWith outside (k (sem o (outside n s)).1) (n + 1) (sem o (outside n s)).2

@[simp] theorem execWith_ret (outside : Nat → σ → σ) (a : α) (n : Nat) (s : σ) :
    execWith sem outside (.ret a : Prog Op Ans α) n s = (a, s) := rfl

@[simp] theorem execWith_op (outside : Nat → σ → σ) (o : Op) (k : Ans o → Prog Op Ans α) (n : Nat)
    (s : σ) : execWith sem outside (.op o k) n s =
      execWith sem outside (k (sem o (outside n s)).1) (n + 1) (sem o (outside n s)).2 := rfl

@[simp] theorem logWith_ret (outside : Nat → σ → σ) (a : α) (n : Nat) (s : σ) :
    logWith sem outside (.ret a : Prog Op Ans α) n s = [] := rfl

@[simp] theorem logWith_op (outside : Nat → σ → σ) (o : Op) (k : Ans o → Prog Op Ans α) (n : Nat)
    (s : σ) : logWith sem outside (.op o k) n s = (n, ⟨o, (sem o (outside n s)).1⟩) ::
      logWith sem outside (k (sem o (outside n s)).1) (n + 1) (sem o (outside n s)).2 := rfl

/-! ## What holds along every path -/

/-- Along every path, no `bad` operation is performed and the program does
not stop (unless `fin`) before some operation has answered with `pass`. -/
def Until (pass : (o : Op) → Ans o → Prop) (bad : Op → Prop) (fin : Prop) :
    Prog Op Ans α → Prop
  | .ret _ => fin
  | .op o k => ¬ bad o ∧ ∀ r, ¬ pass o r → Until pass bad fin (k r)

variable {pass : (o : Op) → Ans o → Prop} {bad : Op → Prop} {fin : Prop}

@[simp] theorem until_ret (a : α) : Until pass bad fin (.ret a : Prog Op Ans α) ↔ fin := Iff.rfl

@[simp] theorem until_op (o : Op) (k : Ans o → Prog Op Ans α) :
    Until pass bad fin (.op o k) ↔ ¬ bad o ∧ ∀ r, ¬ pass o r → Until pass bad fin (k r) := Iff.rfl

@[simp] theorem until_perform (o : Op) :
    Until pass bad fin (perform o : Prog Op Ans (Ans o)) ↔
      ¬ bad o ∧ ∀ r, ¬ pass o r → fin := Iff.rfl

/-- One operation that does not pass leaves the fact in force. -/
theorem Until.next {o : Op} {k : Ans o → Prog Op Ans α} (h : Until pass bad fin (.op o k))
    {r : Ans o} (hr : ¬ pass o r) : Until pass bad fin (k r) := h.2 r hr

/-- A program that may stop is composed with one for which the fact holds. -/
theorem Until.bind {p : Prog Op Ans α} {f : α → Prog Op Ans β}
    (hp : Until pass bad True p) (hf : ∀ a, Until pass bad fin (f a)) :
    Until pass bad fin (p >>= f) := by
  induction p with
  | ret a => exact hf a
  | op o k ih => exact ⟨hp.1, fun r hr => ih r (hp.2 r hr)⟩

end Prog

/-! ## Interleaving -/

/-- Threads in progress on one shared state. A thread keeps the task it was
started for; a finished thread stays in the list. -/
structure Pool (Task Op : Type) (Ans : Op → Type) (α σ : Type) where
  shared : σ
  threads : List (Task × Prog Op Ans α)

/-- One move: start a task, let thread `i` perform its next operation, or let
the outside change the shared state. -/
inductive Move (Task Env : Type) where
  | spawn (t : Task)
  | sched (i : Nat)
  | env (e : Env)

namespace Pool

variable {Task Op : Type} {Ans : Op → Type} {α σ Env : Type}
variable (code : Task → Prog Op Ans α) (sem : (o : Op) → σ → Ans o × σ) (outside : Env → σ → σ)

/-- One move of the scheduler. Scheduling a finished or an absent thread does
nothing. -/
def step (c : Pool Task Op Ans α σ) : Move Task Env → Pool Task Op Ans α σ
  | .spawn t => { c with threads := c.threads ++ [(t, code t)] }
  | .sched i =>
    match c.threads[i]? with
    | some (t, .op o k) =>
      { shared := (sem o c.shared).2, threads := c.threads.set i (t, k (sem o c.shared).1) }
    | _ => c
  | .env e => { c with shared := outside e c.shared }

/-- The operation a move performs, with the task of the thread it belongs to. -/
def next (c : Pool Task Op Ans α σ) : Move Task Env → Option (Task × Op)
  | .sched i =>
    match c.threads[i]? with
    | some (t, .op o _) => some (t, o)
    | _ => none
  | _ => none

/-- What a move can do, once for all proofs about interleavings. -/
theorem step_cases (c : Pool Task Op Ans α σ) (m : Move Task Env) :
    (∃ t, m = .spawn t ∧ c.next m = none ∧
      step code sem outside c m = { c with threads := c.threads ++ [(t, code t)] }) ∨
    (∃ i t o k, m = .sched i ∧ c.threads[i]? = some (t, .op o k) ∧ c.next m = some (t, o) ∧
      step code sem outside c m =
        { shared := (sem o c.shared).2, threads := c.threads.set i (t, k (sem o c.shared).1) }) ∨
    (c.next m = none ∧ step code sem outside c m = c) ∨
    (∃ e, m = .env e ∧ c.next m = none ∧
      step code sem outside c m = { c with shared := outside e c.shared }) := by
  cases m with
  | spawn t => exact Or.inl ⟨t, rfl, rfl, rfl⟩
  | env e => exact Or.inr (Or.inr (Or.inr ⟨e, rfl, rfl, rfl⟩))
  | sched i =>
    cases h : c.threads[i]? with
    | none => exact Or.inr (Or.inr (Or.inl ⟨by simp [next, h], by simp [step, h]⟩))
    | some th =>
      obtain ⟨t, p⟩ := th
      cases p with
      | ret a => exact Or.inr (Or.inr (Or.inl ⟨by simp [next, h], by simp [step, h]⟩))
      | op o k =>
        exact Or.inr (Or.inl ⟨i, t, o, k, rfl, h, by simp [next, h], by simp [step, h]⟩)

/-- A move that performs an operation performs it. -/
theorem step_of_next {c : Pool Task Op Ans α σ} {m : Move Task Env} {t : Task} {o : Op}
    (h : c.next m = some (t, o)) :
    ∃ k, (t, Prog.op o k) ∈ c.threads ∧
      (step code sem outside c m).shared = (sem o c.shared).2 := by
  rcases step_cases code sem outside c m with
    ⟨-, -, hn, -⟩ | ⟨i, t', o', k, -, hi, hn, hs⟩ | ⟨hn, -⟩ | ⟨-, -, hn, -⟩
  · rw [hn] at h
    cases h
  · rw [hn] at h
    cases h
    exact ⟨k, List.mem_of_getElem? hi, by rw [hs]⟩
  · rw [hn] at h
    cases h
  · rw [hn] at h
    cases h

/-- A thread keeps its place and its task, and only its own operations move it
on. -/
theorem step_thread {c : Pool Task Op Ans α σ} {i : Nat} {t : Task} {p : Prog Op Ans α}
    (h : c.threads[i]? = some (t, p)) (m : Move Task Env) :
    (step code sem outside c m).threads[i]? = some (t, p) ∨
      ∃ o k, p = .op o k ∧ c.next m = some (t, o) ∧
        (step code sem outside c m).threads[i]? = some (t, k (sem o c.shared).1) := by
  obtain ⟨hlt, -⟩ := List.getElem?_eq_some_iff.mp h
  rcases step_cases code sem outside c m with
    ⟨t', -, -, hs⟩ | ⟨j, t', o, k, -, hj, hn, hs⟩ | ⟨-, hs⟩ | ⟨e, -, -, hs⟩
  · left
    rw [hs, List.getElem?_append_left hlt]
    exact h
  · by_cases hij : j = i
    · subst hij
      obtain ⟨rfl, rfl⟩ := Prod.mk.inj (Option.some.inj (h.symm.trans hj))
      right
      refine ⟨o, k, rfl, hn, ?_⟩
      rw [hs, List.getElem?_set_self hlt]
    · left
      rw [hs, List.getElem?_set_ne hij]
      exact h
  · left
    rw [hs]
    exact h
  · left
    rw [hs]
    exact h

/-- A fact about every thread survives a move, when started tasks have it and
the performed operation leaves it in force for the thread that performs it. -/
theorem step_threads {T : Task → Prog Op Ans α → Prop} {c : Pool Task Op Ans α σ}
    {m : Move Task Env} (hspawn : ∀ t, T t (code t))
    (hop : ∀ t o k, (t, Prog.op o k) ∈ c.threads → c.next m = some (t, o) → T t (.op o k) →
      T t (k (sem o c.shared).1))
    (h : ∀ th ∈ c.threads, T th.1 th.2) :
    ∀ th ∈ (step code sem outside c m).threads, T th.1 th.2 := by
  intro th hth
  rcases step_cases code sem outside c m with
    ⟨t, -, -, hs⟩ | ⟨i, t, o, k, -, hi, hn, hs⟩ | ⟨-, hs⟩ | ⟨e, -, -, hs⟩
  · rw [hs] at hth
    rcases List.mem_append.mp hth with hold | hnew
    · exact h th hold
    · rw [List.mem_singleton.mp hnew]
      exact hspawn t
  · rw [hs] at hth
    have hmem := List.mem_of_getElem? hi
    rcases List.mem_or_eq_of_mem_set hth with hold | rfl
    · exact h th hold
    · exact hop t o k hmem hn (h _ hmem)
  · rw [hs] at hth
    exact h th hth
  · rw [hs] at hth
    exact h th hth

/-- A fact about the shared state survives a move, when the performed
operation and the outside keep it. -/
theorem step_shared {P : σ → Prop} {c : Pool Task Op Ans α σ} {m : Move Task Env}
    (hop : ∀ t o k, (t, Prog.op o k) ∈ c.threads → c.next m = some (t, o) →
      P (sem o c.shared).2)
    (henv : ∀ e, P (outside e c.shared)) (h : P c.shared) :
    P (step code sem outside c m).shared := by
  rcases step_cases code sem outside c m with
    ⟨t, -, -, hs⟩ | ⟨i, t, o, k, -, hi, hn, hs⟩ | ⟨-, hs⟩ | ⟨e, -, -, hs⟩
  · rw [hs]
    exact h
  · rw [hs]
    exact hop t o k (List.mem_of_getElem? hi) hn
  · rw [hs]
    exact h
  · rw [hs]
    exact henv e

/-! ### Counting threads -/

/-- Replacing one element changes a count by what it changes at that element. -/
theorem countP_set_add {T : Type} (p : T → Bool) {l : List T} {i : Nat} {x : T}
    (h : l[i]? = some x) (y : T) : (l.set i y).countP p + (if p x then 1 else 0) =
      l.countP p + (if p y then 1 else 0) := by
  obtain ⟨hlt, rfl⟩ := List.getElem?_eq_some_iff.mp h
  have hle : (if p l[i] then 1 else 0) ≤ l.countP p := by
    split
    next hx => exact List.countP_pos_iff.mpr ⟨_, List.getElem_mem hlt, hx⟩
    next => exact Nat.zero_le _
  rw [List.countP_set hlt]
  omega

theorem countP_set_of_eq {T : Type} {p : T → Bool} {l : List T} {i : Nat} {x y : T}
    (h : l[i]? = some x) (hxy : p y = p x) : (l.set i y).countP p = l.countP p := by
  have hcount := countP_set_add p h y
  rw [hxy] at hcount
  exact Nat.add_right_cancel hcount

/-- What is there after one element has been replaced. -/
theorem getElem?_set_cases {T : Type} {l : List T} {i j : Nat} {x y : T}
    (h : (l.set i x)[j]? = some y) : j = i ∧ y = x ∨ j ≠ i ∧ l[j]? = some y := by
  by_cases hji : j = i
  · subst hji
    have hlt : j < l.length := by
      have hlt := (List.getElem?_eq_some_iff.mp h).1
      rwa [List.length_set] at hlt
    rw [List.getElem?_set_self hlt] at h
    exact .inl ⟨rfl, (Option.some.inj h).symm⟩
  · rw [List.getElem?_set_ne (Ne.symm hji)] at h
    exact .inr ⟨hji, h⟩

/-- Exactly one element counts. -/
theorem countP_eq_one {T : Type} {p : T → Bool} {l : List T} {i : Nat} {x : T}
    (h : l[i]? = some x) (hx : p x = true)
    (hothers : ∀ j y, l[j]? = some y → j ≠ i → p y = false) : l.countP p = 1 := by
  induction l generalizing i with
  | nil => cases h
  | cons z l ih =>
    cases i with
    | zero =>
      cases h
      have hnone : l.countP p = 0 := by
        refine List.countP_eq_zero.mpr fun y hy => ?_
        obtain ⟨j, hj⟩ := List.getElem?_of_mem hy
        simp [hothers (j + 1) y hj (by omega)]
      rw [List.countP_cons, hnone, if_pos hx]
    | succ i =>
      have hz := hothers 0 z rfl (by omega)
      have := ih (i := i) h fun j y hj hne => hothers (j + 1) y hj (by omega)
      rw [List.countP_cons, this, hz]
      rfl

/-- Letting one thread run to its end is running its program alone. -/
theorem run_alone (i : Nat) (t : Task) :
    ∀ (p : Prog Op Ans α) (c : Pool Task Op Ans α σ), c.threads[i]? = some (t, p) →
      ∃ n, Machine.run (step code sem outside) c (List.replicate n (.sched i)) =
        { shared := (p.exec sem c.shared).2
          threads := c.threads.set i (t, .ret (p.exec sem c.shared).1) } := by
  intro p
  induction p with
  | ret a =>
    intro c hc
    refine ⟨0, ?_⟩
    obtain ⟨hlt, heq⟩ := List.getElem?_eq_some_iff.mp hc
    rw [List.replicate_zero, Machine.run_nil, Prog.exec_ret, ← heq, List.set_getElem_self]
  | op o k ih =>
    intro c hc
    obtain ⟨hlt, -⟩ := List.getElem?_eq_some_iff.mp hc
    have hstep : step code sem outside c (.sched i) =
        { shared := (sem o c.shared).2
          threads := c.threads.set i (t, k (sem o c.shared).1) } := by
      simp [step, hc]
    obtain ⟨n, hn⟩ := ih (sem o c.shared).1
      { shared := (sem o c.shared).2
        threads := c.threads.set i (t, k (sem o c.shared).1) }
      (by rw [List.getElem?_set_self hlt])
    refine ⟨n + 1, ?_⟩
    rw [List.replicate_succ, Machine.run_cons, hstep, hn, Prog.exec_op, List.set_set]

end Pool

end ChainKVM
