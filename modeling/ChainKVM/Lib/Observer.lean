import Mathlib.Data.List.Forall2
import ChainKVM.Lib.Prog

/-!
# Programs with observers

Handlers are often interspersed with operations that measure: they look at the
state and keep books of their own, and nothing else depends on the books.
`observe` puts two kinds of operations together, the ones on the state `σ` and
the ones that only look at it and act on the books `τ`.

A program with observations erases to one without (`Prog.Erases`) if leaving
them out, whatever they answer, gives that one. A thread that only observes
(`Prog.Silent`) erases to nothing at all. `Observed` relates a pool with
observers to one without, and every move of the one is a move of the other or
none (`Observed.step`), so every run with observers is a run without them as
far as `σ` is concerned (`observed_run`), however the operations are
interleaved.
-/

namespace ChainKVM

variable {Op Obs : Type} {Ans : Op → Type} {ObsAns : Obs → Type}
  {α β σ τ Task Task' Env : Type}

/-- The answers of both kinds of operations. -/
abbrev BothAns (Ans : Op → Type) (ObsAns : Obs → Type) : Op ⊕ Obs → Type
  | .inl o => Ans o
  | .inr o => ObsAns o

/-- An operation of the second kind looks at the state and changes its books
only. -/
def observe (sem : (o : Op) → σ → Ans o × σ) (obs : (o : Obs) → σ → τ → ObsAns o × τ) :
    (o : Op ⊕ Obs) → σ × τ → BothAns Ans ObsAns o × (σ × τ)
  | .inl o, s => ((sem o s.1).1, (sem o s.1).2, s.2)
  | .inr o, s => ((obs o s.1 s.2).1, s.1, (obs o s.1 s.2).2)

namespace Prog

/-- The program without its observations. -/
def Erases : Prog (Op ⊕ Obs) (BothAns Ans ObsAns) α → Prog Op Ans α → Prop
  | .ret a, q => q = .ret a
  | .op (.inl o) k, q => ∃ k', q = .op o k' ∧ ∀ r, Erases (k r) (k' r)
  | .op (.inr _) k, q => ∀ r, Erases (k r) q

/-- Apart from observations the program performs only operations in `reads`. -/
def Silent (reads : Op → Prop) : Prog (Op ⊕ Obs) (BothAns Ans ObsAns) α → Prop
  | .ret _ => True
  | .op (.inl o) k => reads o ∧ ∀ r, Silent reads (k r)
  | .op (.inr _) k => ∀ r, Silent reads (k r)

/-- A program that does not observe. -/
def unobserved : Prog Op Ans α → Prog (Op ⊕ Obs) (BothAns Ans ObsAns) α
  | .ret a => .ret a
  | .op o k => .op (.inl o) fun r => unobserved (k r)

theorem erases_unobserved (p : Prog Op Ans α) :
    Erases (unobserved p : Prog (Op ⊕ Obs) (BothAns Ans ObsAns) α) p := by
  induction p with
  | ret a => rfl
  | op o k ih => exact ⟨k, rfl, ih⟩

theorem Erases.bind {p : Prog (Op ⊕ Obs) (BothAns Ans ObsAns) α} {q : Prog Op Ans α}
    {f : α → Prog (Op ⊕ Obs) (BothAns Ans ObsAns) β} {g : α → Prog Op Ans β} (hp : Erases p q)
    (hf : ∀ a, Erases (f a) (g a)) : Erases (p >>= f) (q >>= g) := by
  induction p generalizing q with
  | ret a =>
    obtain rfl : q = .ret a := hp
    exact hf a
  | op o k ih =>
    cases o with
    | inl o =>
      obtain ⟨k', rfl, hk⟩ := hp
      exact ⟨_, rfl, fun r => ih r (hk r)⟩
    | inr o => exact fun r => ih r (hp r)

end Prog

namespace Pool

variable (base : Task' → Option Task)

/-- A thread that is more than an observer. -/
def acts (th : Task' × Prog (Op ⊕ Obs) (BothAns Ans ObsAns) α) : Bool := (base th.1).isSome

/-- The pool `c` is the pool `c'` without its observations: the same state, and
the threads that act, in the same order. -/
structure Observed (reads : Op → Prop)
    (c' : Pool Task' (Op ⊕ Obs) (BothAns Ans ObsAns) α (σ × τ)) (c : Pool Task Op Ans α σ) :
    Prop where
  shared : c.shared = c'.shared.1
  threads : List.Forall₂ (fun th' th => base th'.1 = some th.1 ∧ Prog.Erases th'.2 th.2)
    (c'.threads.filter (acts base)) c.threads
  silent : ∀ th' ∈ c'.threads, acts base th' = false → Prog.Silent reads th'.2

/-- Replacing an element that passes the filter. -/
theorem filter_set_of_pass {T : Type} {p : T → Bool} {l : List T} {i : Nat} {x y : T}
    (h : l[i]? = some x) (hx : p x = true) (hy : p y = true) :
    (l.filter p)[(l.take i).countP p]? = some x ∧
      (l.set i y).filter p = (l.filter p).set ((l.take i).countP p) y := by
  induction l generalizing i with
  | nil => cases h
  | cons z l ih =>
    cases i with
    | zero =>
      cases h
      simp [hx, hy]
    | succ i =>
      obtain ⟨hget, hset⟩ := ih (i := i) h
      by_cases hz : p z = true
      · simp [hz, hget, hset]
      · simp [hz, hget, hset]

/-- Replacing an element that does not. -/
theorem filter_set_of_fail {T : Type} {p : T → Bool} {l : List T} {i : Nat} {x y : T}
    (h : l[i]? = some x) (hx : p x = false) (hy : p y = false) :
    (l.set i y).filter p = l.filter p := by
  induction l generalizing i with
  | nil => rfl
  | cons z l ih =>
    cases i with
    | zero =>
      cases h
      simp [hx, hy]
    | succ i =>
      rw [List.set_cons_succ, List.filter_cons, List.filter_cons, ih h]

theorem forall₂_set {A B : Type} {R : A → B → Prop} {l : List A} {l' : List B} {i : Nat} {x : A}
    {y : B} (h : List.Forall₂ R l l') (hxy : R x y) : List.Forall₂ R (l.set i x) (l'.set i y) := by
  induction h generalizing i with
  | nil => exact .nil
  | cons hab hrest ih =>
    cases i with
    | zero => exact .cons hxy hrest
    | succ i => exact .cons hab ih

variable {base} {reads : Op → Prop} {code : Task → Prog Op Ans α}
  {code' : Task' → Prog (Op ⊕ Obs) (BothAns Ans ObsAns) α} {sem : (o : Op) → σ → Ans o × σ}
  {obs : (o : Obs) → σ → τ → ObsAns o × τ} {outside : Env → σ → σ}
  {outside' : Env → σ × τ → σ × τ}

/-- One move of the pool with observers is a move of the pool without, or
none. -/
theorem Observed.step (hreads : ∀ o s, reads o → (sem o s).2 = s)
    (herases : ∀ t' t, base t' = some t → Prog.Erases (code' t') (code t))
    (hsilent : ∀ t', base t' = none → Prog.Silent reads (code' t'))
    (houtside : ∀ e s, (outside' e s).1 = outside e s.1)
    {c' : Pool Task' (Op ⊕ Obs) (BothAns Ans ObsAns) α (σ × τ)} {c : Pool Task Op Ans α σ}
    (h : Observed base reads c' c) (m : Move Task' Env) :
    ∃ ms, Observed base reads (Pool.step code' (observe sem obs) outside' c' m)
      (Machine.run (Pool.step code sem outside) c ms) := by
  rcases step_cases code' (observe sem obs) outside' c' m with
    ⟨t', -, -, hs⟩ | ⟨i, t', o, k, -, hi, -, hs⟩ | ⟨-, hs⟩ | ⟨e, -, -, hs⟩
  · rw [hs]
    cases hbase : base t' with
    | none =>
      have hobserver : acts base (t', code' t') = false := by simp [acts, hbase]
      refine ⟨[], h.shared, ?_, fun th' hmem hth' => ?_⟩
      · rw [List.filter_append, List.filter_cons_of_neg (by rw [hobserver]; exact nofun)]
        simpa using h.threads
      · rcases List.mem_append.mp hmem with hold | hnew
        · exact h.silent th' hold hth'
        · rw [List.mem_singleton.mp hnew]
          exact hsilent t' hbase
    | some t =>
      have hacts : acts base (t', code' t') = true := by simp [acts, hbase]
      refine ⟨[.spawn t], h.shared, ?_, fun th' hmem hth' => ?_⟩
      · rw [List.filter_append, List.filter_cons_of_pos hacts]
        exact List.rel_append h.threads (.cons ⟨hbase, herases t' t hbase⟩ .nil)
      · rcases List.mem_append.mp hmem with hold | hnew
        · exact h.silent th' hold hth'
        · rw [List.mem_singleton.mp hnew, hacts] at hth'
          cases hth'
  · rw [hs]
    have hmem := List.mem_of_getElem? hi
    cases hbase : base t' with
    | none =>
      -- an observer leaves the state as it is
      have hobserver (p : Prog (Op ⊕ Obs) (BothAns Ans ObsAns) α) :
          acts base (t', p) = false := by simp [acts, hbase]
      have hthread := h.silent _ hmem (hobserver _)
      have hstate : (observe sem obs o c'.shared).2.1 = c'.shared.1 ∧
          Prog.Silent reads (k (observe sem obs o c'.shared).1) := by
        cases o with
        | inl o => exact ⟨hreads o _ hthread.1, hthread.2 _⟩
        | inr o => exact ⟨rfl, hthread _⟩
      refine ⟨[], h.shared.trans hstate.1.symm, ?_, fun th' hmem' hth' => ?_⟩
      · rw [filter_set_of_fail hi (hobserver _) (hobserver _)]
        exact h.threads
      · rcases List.mem_or_eq_of_mem_set hmem' with hold | rfl
        · exact h.silent th' hold hth'
        · exact hstate.2
    | some t =>
      have hacts (p : Prog (Op ⊕ Obs) (BothAns Ans ObsAns) α) :
          acts base (t', p) = true := by simp [acts, hbase]
      have hkept (x : Prog (Op ⊕ Obs) (BothAns Ans ObsAns) α) :
          ∀ th' ∈ c'.threads.set i (t', x), acts base th' = false →
            Prog.Silent reads th'.2 := by
        intro th' hmem' hth'
        rcases List.mem_or_eq_of_mem_set hmem' with hold | rfl
        · exact h.silent th' hold hth'
        · rw [hacts] at hth'
          cases hth'
      have hfilter (x : Prog (Op ⊕ Obs) (BothAns Ans ObsAns) α) :=
        filter_set_of_pass (y := (t', x)) hi (hacts _) (hacts _)
      obtain ⟨q, hq, hthread⟩ : ∃ q, c.threads[(c'.threads.take i).countP (acts base)]? =
          some (t, q) ∧ Prog.Erases (.op o k) q := by
        obtain ⟨hget, -⟩ := hfilter (.op o k)
        obtain ⟨hlt, heq⟩ := List.getElem?_eq_some_iff.mp hget
        obtain ⟨th, hth⟩ : ∃ th, c.threads[(c'.threads.take i).countP (acts base)]? = some th := by
          rw [h.threads.length_eq] at hlt
          exact ⟨_, List.getElem?_eq_getElem hlt⟩
        obtain ⟨hlt', heq'⟩ := List.getElem?_eq_some_iff.mp hth
        have hrel := h.threads.get hlt hlt'
        rw [List.get_eq_getElem, List.get_eq_getElem, heq, heq'] at hrel
        obtain ⟨hb, he⟩ := hrel
        obtain ⟨t₀, q⟩ := th
        obtain rfl : t = t₀ := Option.some.inj (hbase.symm.trans hb)
        exact ⟨q, hth, he⟩
      cases o with
      | inl o =>
        obtain ⟨k', rfl, hk⟩ := hthread
        refine ⟨[.sched ((c'.threads.take i).countP (acts base))], ?_⟩
        have hmove : Pool.step code sem outside c
            (.sched ((c'.threads.take i).countP (acts base)) : Move Task Env) =
            { shared := (sem o c.shared).2
              threads := c.threads.set ((c'.threads.take i).countP (acts base))
                (t, k' (sem o c.shared).1) } := by
          simp [Pool.step, hq]
        rw [Machine.run_cons, hmove, h.shared]
        refine ⟨rfl, ?_, hkept _⟩
        rw [(hfilter _).2]
        exact forall₂_set h.threads ⟨hbase, hk _⟩
      | inr o =>
        -- the observation is left out
        refine ⟨[], h.shared, ?_, hkept _⟩
        rw [(hfilter _).2]
        have hself : c.threads = c.threads.set ((c'.threads.take i).countP (acts base)) (t, q) := by
          obtain ⟨hlt, heq⟩ := List.getElem?_eq_some_iff.mp hq
          rw [← heq, List.set_getElem_self]
        show List.Forall₂ _ _ c.threads
        rw [hself]
        exact forall₂_set h.threads ⟨hbase, hthread _⟩
  · rw [hs]
    exact ⟨[], h⟩
  · rw [hs]
    refine ⟨[.env e], ?_, h.threads, h.silent⟩
    show outside e c.shared = (outside' e c'.shared).1
    rw [houtside, h.shared]

/-- Every run with observers is a run without them. -/
theorem observed_run (hreads : ∀ o s, reads o → (sem o s).2 = s)
    (herases : ∀ t' t, base t' = some t → Prog.Erases (code' t') (code t))
    (hsilent : ∀ t', base t' = none → Prog.Silent reads (code' t'))
    (houtside : ∀ e s, (outside' e s).1 = outside e s.1) :
    ∀ (ms' : List (Move Task' Env))
      {c' : Pool Task' (Op ⊕ Obs) (BothAns Ans ObsAns) α (σ × τ)} {c : Pool Task Op Ans α σ},
      Observed base reads c' c →
      ∃ ms, Observed base reads (Machine.run (Pool.step code' (observe sem obs) outside') c' ms')
        (Machine.run (Pool.step code sem outside) c ms) := by
  intro ms'
  induction ms' with
  | nil => exact fun h => ⟨[], h⟩
  | cons m ms' ih =>
    intro c' c h
    obtain ⟨first, hfirst⟩ := h.step hreads herases hsilent houtside m
    obtain ⟨rest, hrest⟩ := ih hfirst
    refine ⟨first ++ rest, ?_⟩
    rw [Machine.run_append]
    exact hrest

end Pool

end ChainKVM
