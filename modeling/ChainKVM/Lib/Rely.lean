import Mathlib.Order.Basic
import ChainKVM.Lib.Prog

/-!
# What programs in progress keep to, while the world around them grows

A thread may perform an operation only with what it has been told: the answer
of an earlier operation, which was right when it was given. Between the two
the world can have grown (more has been issued, more has been seen), but what
was right stays right.

`Contract` says this over a preorder of worlds: what holds of the shared state
(`inv`), which operations may be performed (`guar`) and what their answers can
be relied on to say (`rely`). `Prog.Keeps` says that a program keeps to its
side in the world at hand and in all that can follow; it is asked again at
every operation, of the answers that are possible then. If the operations keep
to theirs (`Contract.Sound`), so does any number of such programs, however
their operations are interleaved (`Pool.Keeps.step`).
-/

namespace ChainKVM

/-- The two sides of a contract between programs and the operations they
perform, in every world of `ι`. -/
structure Contract (Op : Type) (Ans : Op → Type) (σ ι : Type) [Preorder ι] where
  inv : ι → σ → Prop
  guar : ι → Op → Prop
  rely : ι → (o : Op) → Ans o → Prop
  inv_mono : ∀ {w w' s}, w ≤ w' → inv w s → inv w' s
  guar_mono : ∀ {w w' o}, w ≤ w' → guar w o → guar w' o

variable {Op : Type} {Ans : Op → Type} {α β σ ι Task Env : Type} [Preorder ι]

/-- The operations keep to their side: an operation that may be performed
answers as it is relied on to, and leaves the invariant in force. -/
def Contract.Sound (C : Contract Op Ans σ ι) (sem : (o : Op) → σ → Ans o × σ) : Prop :=
  ∀ w o s, C.inv w s → C.guar w o → C.rely w o (sem o s).1 ∧ C.inv w (sem o s).2

namespace Prog

/-- From the world `w` on, the program performs only operations that it may
perform, as long as it is answered as it relies on. -/
def Keeps (C : Contract Op Ans σ ι) : Prog Op Ans α → ι → Prop
  | .ret _, _ => True
  | .op o k, w => C.guar w o ∧ ∀ w', w ≤ w' → ∀ r, C.rely w' o r → Keeps C (k r) w'

variable {C : Contract Op Ans σ ι}

@[simp] theorem keeps_ret (a : α) (w : ι) : Keeps C (.ret a : Prog Op Ans α) w := trivial

@[simp] theorem keeps_op (o : Op) (k : Ans o → Prog Op Ans α) (w : ι) :
    Keeps C (.op o k) w ↔
      C.guar w o ∧ ∀ w', w ≤ w' → ∀ r, C.rely w' o r → Keeps C (k r) w' := Iff.rfl

theorem Keeps.mono {p : Prog Op Ans α} {w w' : ι} (h : Keeps C p w) (hw : w ≤ w') :
    Keeps C p w' := by
  cases p with
  | ret a => trivial
  | op o k => exact ⟨C.guar_mono hw h.1, fun v hv r hr => h.2 v (hw.trans hv) r hr⟩

/-- A program that keeps to the contract is followed by programs that do, in
any world in which they can start. -/
theorem Keeps.bind {p : Prog Op Ans α} {f : α → Prog Op Ans β} {w : ι} (hp : Keeps C p w)
    (hf : ∀ w', w ≤ w' → ∀ a, Keeps C (f a) w') : Keeps C (p >>= f) w := by
  induction p generalizing w with
  | ret a => exact hf w (le_refl w) a
  | op o k ih =>
    refine ⟨hp.1, fun v hv r hr => ?_⟩
    exact ih r (hp.2 v hv r hr) fun u hu => hf u (hv.trans hu)

end Prog

/-- The invariant holds and every thread keeps to the contract. -/
structure Pool.Keeps (C : Contract Op Ans σ ι) (c : Pool Task Op Ans α σ) (w : ι) : Prop where
  shared : C.inv w c.shared
  threads : ∀ th ∈ c.threads, Prog.Keeps C th.2 w

namespace Pool

variable {C : Contract Op Ans σ ι} {c : Pool Task Op Ans α σ} {w : ι}

theorem Keeps.mono {w' : ι} (h : c.Keeps C w) (hw : w ≤ w') : c.Keeps C w' :=
  ⟨C.inv_mono hw h.shared, fun th hth => (h.threads th hth).mono hw⟩

/-- One move of the scheduler: nothing is asked but that a task that is started
keeps to the contract and the outside leaves the invariant in force. -/
theorem Keeps.step {code : Task → Prog Op Ans α} {sem : (o : Op) → σ → Ans o × σ}
    {outside : Env → σ → σ} (hsem : C.Sound sem) (h : c.Keeps C w) {m : Move Task Env}
    (hspawn : ∀ t, m = .spawn t → Prog.Keeps C (code t) w)
    (henv : ∀ e s, C.inv w s → C.inv w (outside e s)) :
    (step code sem outside c m).Keeps C w := by
  rcases step_cases code sem outside c m with
    ⟨t, hm, -, hs⟩ | ⟨i, t, o, k, -, hi, -, hs⟩ | ⟨-, hs⟩ | ⟨e, -, -, hs⟩
  · rw [hs]
    refine ⟨h.shared, fun th hth => ?_⟩
    rcases List.mem_append.mp hth with hold | hnew
    · exact h.threads th hold
    · rw [List.mem_singleton.mp hnew]
      exact hspawn t hm
  · have hthread := h.threads _ (List.mem_of_getElem? hi)
    obtain ⟨hrely, hinv⟩ := hsem w o c.shared h.shared hthread.1
    rw [hs]
    refine ⟨hinv, fun th hth => ?_⟩
    rcases List.mem_or_eq_of_mem_set hth with hold | rfl
    · exact h.threads th hold
    · -- the world has not moved while the operation was performed
      exact hthread.2 w (le_refl w) _ hrely
  · rw [hs]
    exact h
  · rw [hs]
    exact ⟨henv e _ h.shared, h.threads⟩

end Pool

end ChainKVM
