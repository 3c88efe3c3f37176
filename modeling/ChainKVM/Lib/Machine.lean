/-!
# Machines: runs, invariants and step conditions

A deterministic machine is a step function `σ → ε → σ`; everything a run
does not decide itself (the clock, the answers of the outside, the
scheduler) is in its events. Two ways of talking about a run are used
throughout:

* `Always step P s es`: `P` holds in every state of the run that starts in
  `s` and takes the events `es`, both ends included;
* `Steps step C s es`: every step of that run meets `C`, a relation between
  the state before the step and the event.

The rules below turn a fact about one step into one about whole runs.
`always_of_steps` is the usual invariant rule with a side condition on the
steps, `always_iff_steps` its exact form (the invariant holds throughout
*iff* the condition does), and `steps_of_steps` moves from a condition on
the steps to a property of the steps. `potential_le` is for counting: when
each step pays for what it spends out of a potential, the whole run does; and
where the events of one kind spend one unit each, `steps_count_iff` says that
all of them are covered iff there are no more of them than units.
-/

namespace ChainKVM.Machine

variable {σ ε : Type} (step : σ → ε → σ)

/-- The last state of a run. -/
def run (s : σ) (es : List ε) : σ := es.foldl step s

/-- `P` holds in every state of the run. -/
def Always (P : σ → Prop) : σ → List ε → Prop
  | s, [] => P s
  | s, e :: es => P s ∧ Always P (step s e) es

/-- `C` holds of every step of the run. -/
def Steps (C : σ → ε → Prop) : σ → List ε → Prop
  | _, [] => True
  | s, e :: es => C s e ∧ Steps C (step s e) es

/-- What `f` reads off the steps of a run, in order. -/
def collect {α : Type} (f : σ → ε → Option α) : σ → List ε → List α
  | _, [] => []
  | s, e :: es => (f s e).toList ++ collect f (step s e) es

/-- Some run from `s₀` ends in `s`. -/
def Reachable (s₀ s : σ) : Prop := ∃ es, run step s₀ es = s

variable {step}

@[simp] theorem run_nil (s : σ) : run step s [] = s := rfl

@[simp] theorem run_cons (s : σ) (e : ε) (es : List ε) :
    run step s (e :: es) = run step (step s e) es := rfl

theorem run_append (s : σ) (es es' : List ε) :
    run step s (es ++ es') = run step (run step s es) es' := List.foldl_append

/-! ## Rules -/

theorem Always.head {P : σ → Prop} {s : σ} {es : List ε} (h : Always step P s es) : P s := by
  cases es with
  | nil => exact h
  | cons e es => exact h.1

theorem Always.imp {P Q : σ → Prop} (hPQ : ∀ s, P s → Q s) :
    ∀ {s : σ} {es : List ε}, Always step P s es → Always step Q s es := by
  intro s es
  induction es generalizing s with
  | nil => exact hPQ s
  | cons e es ih => exact fun h => ⟨hPQ s h.1, ih h.2⟩

theorem Always.and {P Q : σ → Prop} :
    ∀ {s : σ} {es : List ε}, Always step P s es → Always step Q s es →
      Always step (fun s => P s ∧ Q s) s es := by
  intro s es
  induction es generalizing s with
  | nil => exact fun hP hQ => ⟨hP, hQ⟩
  | cons e es ih => exact fun hP hQ => ⟨⟨hP.1, hQ.1⟩, ih hP.2 hQ.2⟩

/-- What always holds holds at the end. -/
theorem Always.last {P : σ → Prop} :
    ∀ {s : σ} {es : List ε}, Always step P s es → P (run step s es) := by
  intro s es
  induction es generalizing s with
  | nil => exact id
  | cons e es ih => exact fun h => ih h.2

/-- What holds after every beginning of a run always holds. -/
theorem always_of_prefix {P : σ → Prop} :
    ∀ {s : σ} {es : List ε},
      (∀ before after, es = before ++ after → P (run step s before)) → Always step P s es := by
  intro s es
  induction es generalizing s with
  | nil => exact fun h => h [] [] rfl
  | cons e es ih =>
    intro h
    refine ⟨h [] (e :: es) rfl, ih fun before after hes => ?_⟩
    rw [hes] at h
    exact h (e :: before) after rfl

theorem Steps.imp {C D : σ → ε → Prop} (hCD : ∀ s e, C s e → D s e) :
    ∀ {s : σ} {es : List ε}, Steps step C s es → Steps step D s es := by
  intro s es
  induction es generalizing s with
  | nil => exact id
  | cons e es ih => exact fun h => ⟨hCD s e h.1, ih h.2⟩

theorem steps_of_forall {C : σ → ε → Prop} (h : ∀ s e, C s e) :
    ∀ (s : σ) (es : List ε), Steps step C s es := by
  intro s es
  induction es generalizing s with
  | nil => trivial
  | cons e es ih => exact ⟨h s e, ih _⟩

theorem steps_of_mem {C : σ → ε → Prop} :
    ∀ (es : List ε) (s : σ), (∀ s, ∀ e ∈ es, C s e) → Steps step C s es := by
  intro es
  induction es with
  | nil => exact fun _ _ => trivial
  | cons e es ih =>
    exact fun s h => ⟨h s e List.mem_cons_self,
      ih _ fun s' e' he => h s' e' (List.mem_cons_of_mem e he)⟩

theorem steps_cons {C : σ → ε → Prop} {s : σ} {e : ε} {es : List ε} :
    Steps step C s (e :: es) ↔ C s e ∧ Steps step C (step s e) es := Iff.rfl

theorem steps_append {C : σ → ε → Prop} :
    ∀ {s : σ} {es es' : List ε},
      Steps step C s (es ++ es') ↔ Steps step C s es ∧ Steps step C (run step s es) es' := by
  intro s es es'
  induction es generalizing s with
  | nil => exact ⟨fun h => ⟨trivial, h⟩, fun h => h.2⟩
  | cons e es ih =>
    show C s e ∧ Steps step C (step s e) (es ++ es') ↔ _
    rw [ih]
    exact and_assoc.symm

theorem steps_and {C D : σ → ε → Prop} :
    ∀ {s : σ} {es : List ε}, Steps step C s es → Steps step D s es →
      Steps step (fun s e => C s e ∧ D s e) s es := by
  intro s es
  induction es generalizing s with
  | nil => exact fun _ _ => trivial
  | cons e es ih => exact fun hC hD => ⟨⟨hC.1, hD.1⟩, ih hC.2 hD.2⟩

/-- The invariant rule: an invariant of the steps that meet `C` holds
throughout every run all of whose steps meet `C`. -/
theorem always_of_steps {I : σ → Prop} {C : σ → ε → Prop}
    (hstep : ∀ s e, I s → C s e → I (step s e)) :
    ∀ {s : σ} {es : List ε}, I s → Steps step C s es → Always step I s es := by
  intro s es
  induction es generalizing s with
  | nil => exact fun h _ => h
  | cons e es ih => exact fun h hC => ⟨h, ih (hstep s e h hC.1) hC.2⟩

/-- The unconditional invariant rule. -/
theorem always_of_step {I : σ → Prop} (hstep : ∀ s e, I s → I (step s e)) :
    ∀ {s : σ} {es : List ε}, I s → Always step I s es := by
  intro s es
  induction es generalizing s with
  | nil => exact id
  | cons e es ih => exact fun h => ⟨h, ih (hstep s e h)⟩

theorem Reachable.invariant {I : σ → Prop} {s₀ s : σ} (h₀ : I s₀)
    (hstep : ∀ s e, I s → I (step s e)) (h : Reachable step s₀ s) : I s := by
  obtain ⟨es, rfl⟩ := h
  exact (always_of_step hstep h₀).last

/-- Under an invariant, a condition on the steps gives a property of the
steps. -/
theorem steps_of_steps {I : σ → Prop} {C D : σ → ε → Prop}
    (hstep : ∀ s e, I s → C s e → I (step s e)) (hCD : ∀ s e, I s → C s e → D s e) :
    ∀ {s : σ} {es : List ε}, I s → Steps step C s es → Steps step D s es := by
  intro s es
  induction es generalizing s with
  | nil => exact fun _ _ => trivial
  | cons e es ih =>
    exact fun h hC => ⟨hCD s e h hC.1, ih (hstep s e h hC.1) hC.2⟩

/-- Two conditions that agree under an invariant, which either of them keeps,
agree on whole runs. -/
theorem steps_iff_steps_within {I : σ → Prop} {C D : σ → ε → Prop}
    (hstep : ∀ s e, I s → D s e → I (step s e)) (hiff : ∀ s e, I s → (C s e ↔ D s e)) :
    ∀ {s : σ} {es : List ε}, I s → (Steps step C s es ↔ Steps step D s es) := by
  intro s es h
  exact ⟨steps_of_steps (fun s e hI hC => hstep s e hI ((hiff s e hI).mp hC))
      (fun s e hI => (hiff s e hI).mp) h,
    steps_of_steps hstep (fun s e hI => (hiff s e hI).mpr) h⟩

/-- Two conditions that agree under an invariant agree on whole runs. -/
theorem steps_iff_steps {I : σ → Prop} {C D : σ → ε → Prop}
    (hstep : ∀ s e, I s → I (step s e)) (hiff : ∀ s e, I s → (C s e ↔ D s e)) :
    ∀ {s : σ} {es : List ε}, I s → (Steps step C s es ↔ Steps step D s es) :=
  steps_iff_steps_within (fun s e hI _ => hstep s e hI) hiff

/-- The exact invariant rule for the runs whose steps meet `D`: when, from a
state with the invariants `J` and `P`, such a step keeps `P` iff it meets `C`,
then `P` holds throughout a run iff all its steps meet `C`. -/
theorem always_iff_steps_within {J P : σ → Prop} {C D : σ → ε → Prop}
    (hJ : ∀ s e, J s → D s e → J (step s e))
    (hstep : ∀ s e, J s → D s e → P s → (P (step s e) ↔ C s e)) :
    ∀ {s : σ} {es : List ε}, J s → P s → Steps step D s es →
      (Always step P s es ↔ Steps step C s es) := by
  intro s es
  induction es generalizing s with
  | nil => exact fun _ h _ => ⟨fun _ => trivial, fun _ => h⟩
  | cons e es ih =>
    intro hj hp hD
    constructor
    · intro h
      exact ⟨(hstep s e hj hD.1 hp).mp h.2.head, (ih (hJ s e hj hD.1) h.2.head hD.2).mp h.2⟩
    · intro h
      have hp' := (hstep s e hj hD.1 hp).mpr h.1
      exact ⟨hp, (ih (hJ s e hj hD.1) hp' hD.2).mpr h.2⟩

/-- The exact invariant rule: when, from a state with the invariants `J` and
`P`, a step keeps `P` iff it meets `C`, then `P` holds throughout a run iff
all its steps meet `C`. -/
theorem always_iff_steps {J P : σ → Prop} {C : σ → ε → Prop}
    (hJ : ∀ s e, J s → J (step s e))
    (hstep : ∀ s e, J s → P s → (P (step s e) ↔ C s e)) :
    ∀ {s : σ} {es : List ε}, J s → P s → (Always step P s es ↔ Steps step C s es) := by
  intro s es hj hp
  have hall : Steps step (fun _ _ => True) s es := steps_of_forall (fun _ _ => trivial) s es
  exact always_iff_steps_within (fun s e hj _ => hJ s e hj)
    (fun s e hj _ hp => hstep s e hj hp) hj hp hall

/-- The exact rule where the invariant only lasts as long as the condition:
steps that meet `C` keep the invariant `I`, and a step from `I` after which `P`
still holds has met `C`. -/
theorem always_iff_steps_of_break {I P : σ → Prop} {C : σ → ε → Prop} (hP : ∀ s, I s → P s)
    (hstep : ∀ s e, I s → C s e → I (step s e))
    (hbreak : ∀ s e, I s → P (step s e) → C s e) :
    ∀ {s : σ} {es : List ε}, I s → (Always step P s es ↔ Steps step C s es) := by
  intro s es h
  constructor
  · induction es generalizing s with
    | nil => exact fun _ => trivial
    | cons e es ih =>
      intro halways
      have hC := hbreak s e h halways.2.head
      exact ⟨hC, ih (hstep s e h hC) halways.2⟩
  · exact fun hC => (always_of_steps hstep h hC).imp hP

/-- The exact rule for a state and a step property together, where the steps
are known to meet `D`. -/
theorem always_and_steps_iff {P : σ → Prop} {Q C D : σ → ε → Prop}
    (hstep : ∀ s e, P s → D s e → (P (step s e) ∧ Q s e ↔ C s e)) :
    ∀ {s : σ} {es : List ε}, P s → Steps step D s es →
      (Always step P s es ∧ Steps step Q s es ↔ Steps step C s es) := by
  intro s es
  induction es generalizing s with
  | nil => exact fun h _ => ⟨fun _ => trivial, fun _ => ⟨h, trivial⟩⟩
  | cons e es ih =>
    intro hp hD
    constructor
    · intro h
      have hp' := h.1.2.head
      exact ⟨(hstep s e hp hD.1).mp ⟨hp', h.2.1⟩, (ih hp' hD.2).mp ⟨h.1.2, h.2.2⟩⟩
    · intro h
      obtain ⟨hp', hq⟩ := (hstep s e hp hD.1).mpr h.1
      obtain ⟨halways, hsteps⟩ := (ih hp' hD.2).mpr h.2
      exact ⟨⟨hp, halways⟩, hq, hsteps⟩

/-! ## Simulation -/

section Simulation

variable {σ' : Type} {step' : σ' → ε → σ'} {f : σ → σ'}

/-- A map that commutes with the steps commutes with runs. -/
theorem run_map (hf : ∀ s e, f (step s e) = step' (f s) e) (s : σ) (es : List ε) :
    f (run step s es) = run step' (f s) es := by
  induction es generalizing s with
  | nil => rfl
  | cons e es ih => rw [run_cons, run_cons, ih, hf]

theorem steps_map (hf : ∀ s e, f (step s e) = step' (f s) e) {C : σ' → ε → Prop} (s : σ)
    (es : List ε) : Steps step (fun s e => C (f s) e) s es ↔ Steps step' C (f s) es := by
  induction es generalizing s with
  | nil => exact Iff.rfl
  | cons e es ih => rw [steps_cons, steps_cons, ih, hf]

end Simulation

/-! ## Counting -/

theorem collect_cons {α : Type} (f : σ → ε → Option α) (s : σ) (e : ε) (es : List ε) :
    collect step f s (e :: es) = (f s e).toList ++ collect step f (step s e) es := rfl

theorem collect_append {α : Type} (f : σ → ε → Option α) :
    ∀ (s : σ) (es es' : List ε),
      collect step f s (es ++ es') = collect step f s es ++ collect step f (run step s es) es' := by
  intro s es es'
  induction es generalizing s with
  | nil => rfl
  | cons e es ih =>
    rw [List.cons_append, collect_cons, ih, ← List.append_assoc]
    rfl

/-- A budget: where each event that `p` picks spends one unit, every step of a
run finds its unit iff there are no more such events than units. -/
theorem steps_count_iff (φ : σ → Nat) {p : ε → Bool} {N : Nat}
    (hstep : ∀ s e, φ (step s e) = φ s + if p e then 1 else 0) :
    ∀ {s : σ} {es : List ε}, φ s ≤ N →
      (Steps step (fun s e => p e → φ s < N) s es ↔ φ s + es.countP p ≤ N) := by
  intro s es hs
  induction es generalizing s with
  | nil => exact ⟨fun _ => hs, fun _ => trivial⟩
  | cons e es ih =>
    have hnext := hstep s e
    rw [steps_cons, List.countP_cons]
    constructor
    · rintro ⟨hhead, htail⟩
      have hroom : φ (step s e) ≤ N := by
        by_cases he : p e
        · have hlt := hhead he
          rw [hnext, if_pos he]
          exact hlt
        · rw [hnext, if_neg he]
          exact hs
      have hrest := (ih hroom).mp htail
      omega
    · intro h
      have hroom : φ (step s e) ≤ N := by omega
      refine ⟨fun he => ?_, (ih hroom).mpr (by omega)⟩
      rw [if_pos he] at hnext
      omega

/-- Two machines that keep a relation and answer alike under it answer alike
in all runs. -/
theorem collect_eq_of_simulation {σ' α : Type} {step' : σ' → ε → σ'} {R : σ → σ' → Prop}
    {f : σ → ε → Option α} {f' : σ' → ε → Option α}
    (hR : ∀ s s' e, R s s' → R (step s e) (step' s' e)) (hf : ∀ s s' e, R s s' → f s e = f' s' e) :
    ∀ {s : σ} {s' : σ'} (es : List ε), R s s' → collect step f s es = collect step' f' s' es := by
  intro s s' es h
  induction es generalizing s s' with
  | nil => rfl
  | cons e es ih => rw [collect_cons, collect_cons, hf s s' e h, ih (hR s s' e h)]

/-- The potential rule: when no step spends more than it takes from the
potential `φ` and earns, no run does. -/
theorem potential_le {α β : Type} {φ : σ → Nat} {spent : σ → ε → Option α}
    {earned : σ → ε → Option β} {p : α → Bool} {q : β → Bool}
    (hstep : ∀ s e, (spent s e).toList.countP p + φ (step s e) ≤
      φ s + (earned s e).toList.countP q) :
    ∀ (s : σ) (es : List ε), (collect step spent s es).countP p + φ (run step s es) ≤
      φ s + (collect step earned s es).countP q := by
  intro s es
  induction es generalizing s with
  | nil => exact Nat.le_of_eq (Nat.zero_add _)
  | cons e es ih =>
    have hhead := hstep s e
    have htail := ih (step s e)
    simp only [collect, List.countP_append, run_cons]
    omega

end ChainKVM.Machine
