import Mathlib.Algebra.Order.Ring.Rat
import Mathlib.Data.List.Nodup
import ChainKVM.Gateway.Policy

/-!
# What the evaluator decides

`evaluate` in the terms of the policy itself, without the sort and the passes:
whenever it returns, it allows iff no deny rule matches and some allow rule
does, and the rule it names is, among the rules of the deciding effect that
match, the first in the order of priority and position (`evaluate_decides`).
From this the decision is the same for every order of the rules, deny rules
only ever take away and allow rules only ever add.

It does not return if a rule throws: an ordering condition converts its
operands, and a path like `context.time.__proto__` finds something that does
not convert. With a rule that throws, whether there is a result may depend on
the order of rules that have the same priority.
-/

namespace ChainKVM.Gateway

open Js (Val)

/-- The rule matches. -/
def Matches (context actions : Val) (rule : PolicyRule) : Prop :=
  matchesRule rule context actions = some true

/-- The rule matches, and is the first of its effect that does, in the order of
priority and then of position. -/
def Least (policy : Policy) (context actions : Val) (rule : PolicyRule) : Prop :=
  ∃ before after, policy.rules = before ++ rule :: after ∧ Matches context actions rule ∧
    (∀ r ∈ before, r.effect = rule.effect → Matches context actions r →
      rule.priority < r.priority) ∧
    (∀ r ∈ after, r.effect = rule.effect → Matches context actions r →
      rule.priority ≤ r.priority)

/-! ## A stable sort -/

section StableSort

variable {α : Type} {key : α → Rat}

/-- A stable sort does not move elements of one key past each other. -/
theorem filter_insertionSort {q : α → Bool} {k : Rat} (hq : ∀ a, q a = true → key a = k)
    (l : List α) : (l.insertionSort fun a b => key a ≤ key b).filter q = l.filter q := by
  have hsorted : (l.filter q).Pairwise fun a b => key a ≤ key b := by
    refine List.pairwise_of_forall_mem_list fun a ha b hb => ?_
    rw [hq a (List.mem_filter.mp ha).2, hq b (List.mem_filter.mp hb).2]
  have hsub : (l.filter q).Sublist ((l.insertionSort fun a b => key a ≤ key b).filter q) := by
    have hall := (List.sublist_insertionSort hsorted List.filter_sublist).filter q
    simpa only [List.filter_filter, Bool.and_self] using hall
  exact (hsub.eq_of_length
    ((List.perm_insertionSort _ l).filter q).length_eq.symm).symm

end StableSort

/-! ## The passes -/

theorem sortedRules_sorted (policy : Policy) :
    (sortedRules policy).Pairwise fun a b => a.priority ≤ b.priority := by
  have htotal : Std.Total fun a b : PolicyRule => a.priority ≤ b.priority :=
    ⟨fun a b => le_total a.priority b.priority⟩
  have htrans : IsTrans PolicyRule fun a b => a.priority ≤ b.priority :=
    ⟨fun _ _ _ hab hbc => le_trans hab hbc⟩
  exact List.pairwise_insertionSort _ _

theorem firstMatch_none_iff {effect : PolicyEffect} {context actions : Val}
    {rules : List PolicyRule} :
    firstMatch effect context actions rules = some none ↔
      ∀ r ∈ rules, r.effect = effect → matchesRule r context actions = some false := by
  induction rules with
  | nil => exact ⟨fun _ r hr => absurd hr List.not_mem_nil, fun _ => rfl⟩
  | cons rule rules ih =>
    rw [List.forall_mem_cons, ← ih]
    rw [firstMatch]
    by_cases heffect : rule.effect = effect
    · rw [if_pos heffect]
      cases hmatch : matchesRule rule context actions with
      | none => simp [heffect]
      | some matched => cases matched <;> simp [heffect]
    · rw [if_neg heffect]
      simp [heffect]

/-- A pass throws only at a rule that does. -/
theorem throws_of_firstMatch {effect : PolicyEffect} {context actions : Val}
    {rules : List PolicyRule} (h : firstMatch effect context actions rules = none) :
    ∃ r ∈ rules, matchesRule r context actions = none := by
  induction rules with
  | nil => cases h
  | cons rule rules ih =>
    rw [firstMatch] at h
    have hrest (hnone : firstMatch effect context actions rules = none) :
        ∃ r ∈ rule :: rules, matchesRule r context actions = none := by
      obtain ⟨r, hr, hthrows⟩ := ih hnone
      exact ⟨r, List.mem_cons_of_mem _ hr, hthrows⟩
    split at h
    · cases hmatch : matchesRule rule context actions with
      | none => exact ⟨rule, List.mem_cons_self .., hmatch⟩
      | some matched =>
        rw [hmatch] at h
        cases matched with
        | true => cases h
        | false => exact hrest h
    · exact hrest h

/-- The rule that a pass finds is the least one that matches. -/
theorem Decides.least {policy : Policy} {context actions : Val} {rule : PolicyRule}
    (h : Decides policy context actions rule) : Least policy context actions rule := by
  obtain ⟨before, after, hsplit, hmatch, hbefore⟩ := h
  -- the rules that match and have its effect and its priority, in either order
  let q : PolicyRule → Bool := fun r =>
    decide (r.effect = rule.effect) && decide (matchesRule r context actions = some true) &&
      decide (r.priority = rule.priority)
  have hq (r : PolicyRule) : q r = true ↔ r.effect = rule.effect ∧
      matchesRule r context actions = some true ∧ r.priority = rule.priority := by
    simp only [q, Bool.and_eq_true, decide_eq_true_eq, and_assoc]
  have hself : q rule = true := (hq rule).mpr ⟨rfl, hmatch, rfl⟩
  have hskip : before.filter q = [] := by
    refine List.filter_eq_nil_iff.mpr fun r hr hqr => ?_
    obtain ⟨heffect, hmatches, -⟩ := (hq r).mp hqr
    rw [hbefore r hr heffect] at hmatches
    cases hmatches
  have hhead : policy.rules.filter q = rule :: after.filter q := by
    have hstable : (sortedRules policy).filter q = policy.rules.filter q :=
      filter_insertionSort (fun r hr => ((hq r).mp hr).2.2) policy.rules
    rw [← hstable, hsplit, List.filter_append, hskip, List.nil_append,
      List.filter_cons_of_pos hself]
  obtain ⟨earlier, later, hrules, hnone, -, -⟩ := List.filter_eq_cons_iff.mp hhead
  -- every rule of the effect that matches comes behind it in the sorted list
  have hle (r : PolicyRule) (hr : r ∈ policy.rules) (heffect : r.effect = rule.effect)
      (hmatches : Matches context actions r) : rule.priority ≤ r.priority := by
    have hmem := mem_sortedRules.mpr hr
    have hsorted := sortedRules_sorted policy
    rw [hsplit] at hmem hsorted
    rcases List.mem_append.mp hmem with hin | hin
    · rw [Matches, hbefore r hin heffect] at hmatches
      cases hmatches
    · rcases List.mem_cons.mp hin with rfl | hin
      · exact le_rfl
      · exact (List.pairwise_cons.mp (List.pairwise_append.mp hsorted).2.1).1 r hin
  refine ⟨earlier, later, hrules, hmatch, fun r hr heffect hmatches => ?_,
    fun r hr heffect hmatches => ?_⟩
  · refine lt_of_le_of_ne (hle r ?_ heffect hmatches) fun hsame => ?_
    · rw [hrules]
      exact List.mem_append_left _ hr
    · exact hnone r hr ((hq r).mpr ⟨heffect, hmatches, hsame.symm⟩)
  · refine hle r ?_ heffect hmatches
    rw [hrules]
    exact List.mem_append_right _ (List.mem_cons_of_mem _ hr)

/-! ## The result -/

section Result

variable {policy : Policy} {context actions : Val} {result : EvaluationResult}

/-- The ways to a result. -/
theorem evaluate_cases (h : evaluate policy context actions = some result) :
    (∃ rule, rule.effect = .deny ∧ Decides policy context actions rule ∧
      result = ⟨.deny, some rule.id, some ("denied by rule: " ++ rule.id), [],
        policy.metadata⟩) ∨
    ((∀ r ∈ policy.rules, r.effect = .deny → matchesRule r context actions = some false) ∧
      ∃ rule, rule.effect = .allow ∧ Decides policy context actions rule ∧
        result = ⟨.allow, some rule.id, none,
          intersectActions (requestedItems actions) rule.actions, policy.metadata⟩) ∨
    ((∀ r ∈ policy.rules, matchesRule r context actions = some false) ∧
      result = ⟨.deny, none, some "no matching rule", [], policy.metadata⟩) := by
  unfold evaluate at h
  split at h
  · cases h
  next rule hrule =>
    obtain ⟨heffect, hdecides⟩ := firstMatch_decides.mp hrule
    exact .inl ⟨rule, heffect, hdecides, (Option.some.inj h).symm⟩
  next hdeny =>
    have hnone := firstMatch_none_iff.mp hdeny
    split at h
    · cases h
    next rule hrule =>
      obtain ⟨heffect, hdecides⟩ := firstMatch_decides.mp hrule
      exact .inr (.inl ⟨fun r hr => hnone r (mem_sortedRules.mpr hr), rule, heffect, hdecides,
        (Option.some.inj h).symm⟩)
    next hallow =>
      have hnone' := firstMatch_none_iff.mp hallow
      refine .inr (.inr ⟨fun r hr => ?_, (Option.some.inj h).symm⟩)
      cases heffect : r.effect with
      | deny => exact hnone r (mem_sortedRules.mpr hr) heffect
      | allow => exact hnone' r (mem_sortedRules.mpr hr) heffect

theorem not_matches_of_false {rule : PolicyRule}
    (h : matchesRule rule context actions = some false) : ¬Matches context actions rule := by
  intro hmatches
  rw [Matches, h] at hmatches
  cases hmatches

theorem Least.mem {rule : PolicyRule} (h : Least policy context actions rule) :
    rule ∈ policy.rules ∧ Matches context actions rule := by
  obtain ⟨before, after, hrules, hmatches, -⟩ := h
  refine ⟨?_, hmatches⟩
  rw [hrules]
  exact List.mem_append_right _ (List.mem_cons_self ..)

/-- It allows iff no deny rule matches and some allow rule does. -/
theorem allow_iff (h : evaluate policy context actions = some result) :
    result.decision = .allow ↔
      (∀ r ∈ policy.rules, r.effect = .deny → ¬Matches context actions r) ∧
        ∃ r ∈ policy.rules, r.effect = .allow ∧ Matches context actions r := by
  rcases evaluate_cases h with ⟨rule, heffect, hdecides, rfl⟩ | ⟨hdeny, rule, heffect, hdecides, rfl⟩
    | ⟨hnone, rfl⟩
  · obtain ⟨hmem, hmatches⟩ := hdecides.least.mem
    exact ⟨fun hallow => (by cases hallow), fun hno => absurd hmatches (hno.1 rule hmem heffect)⟩
  · obtain ⟨hmem, hmatches⟩ := hdecides.least.mem
    exact ⟨fun _ => ⟨fun r hr hr' => not_matches_of_false (hdeny r hr hr'),
      rule, hmem, heffect, hmatches⟩, fun _ => rfl⟩
  · refine ⟨fun hallow => (by cases hallow), fun hsome => ?_⟩
    obtain ⟨-, r, hr, -, hmatches⟩ := hsome
    exact absurd hmatches (not_matches_of_false (hnone r hr))

/-- The rule that is named is the least one of the deciding effect; none is
named if none matches. -/
theorem matchedRule_cases (h : evaluate policy context actions = some result) :
    (∃ rule, Least policy context actions rule ∧ rule.effect = result.decision ∧
      result.matchedRule = some rule.id) ∨
    (result.matchedRule = none ∧ result.decision = .deny ∧
      ∀ r ∈ policy.rules, ¬Matches context actions r) := by
  rcases evaluate_cases h with ⟨rule, heffect, hdecides, rfl⟩ | ⟨hdeny, rule, heffect, hdecides, rfl⟩
    | ⟨hnone, rfl⟩
  · exact .inl ⟨rule, hdecides.least, heffect, rfl⟩
  · exact .inl ⟨rule, hdecides.least, heffect, rfl⟩
  · exact .inr ⟨rfl, rfl, fun r hr => not_matches_of_false (hnone r hr)⟩

/-- It throws only if a rule does. -/
theorem throws_of_evaluate (h : evaluate policy context actions = none) :
    ∃ r ∈ policy.rules, matchesRule r context actions = none := by
  have hpass {effect : PolicyEffect}
      (hnone : firstMatch effect context actions (sortedRules policy) = none) :
      ∃ r ∈ policy.rules, matchesRule r context actions = none := by
    obtain ⟨r, hr, hthrows⟩ := throws_of_firstMatch hnone
    exact ⟨r, mem_sortedRules.mp hr, hthrows⟩
  unfold evaluate at h
  split at h
  next hdeny => exact hpass hdeny
  · cases h
  · split at h
    next hallow => exact hpass hallow
    · cases h
    · cases h

end Result

/-! ## Other policies -/

section Compare

variable {policy policy' : Policy} {context actions : Val} {result result' : EvaluationResult}

theorem decision_deny_iff : result.decision = .deny ↔ ¬result.decision = .allow := by
  cases result.decision <;> decide

/-- The order of the rules does not decide. -/
theorem decision_of_perm (hperm : policy'.rules.Perm policy.rules)
    (h : evaluate policy context actions = some result)
    (h' : evaluate policy' context actions = some result') :
    result'.decision = result.decision := by
  have hiff : result'.decision = .allow ↔ result.decision = .allow := by
    rw [allow_iff h, allow_iff h']
    simp only [hperm.mem_iff]
  cases hd : result.decision with
  | allow => exact hiff.mpr hd
  | deny =>
    refine decision_deny_iff.mpr fun hallow => ?_
    rw [hiff.mp hallow] at hd
    cases hd

/-- Rules of different priorities are sorted one way only. -/
theorem evaluate_of_perm (hperm : policy'.rules.Perm policy.rules)
    (hmetadata : policy'.metadata = policy.metadata)
    (hdistinct : (policy.rules.map (·.priority)).Nodup) :
    evaluate policy' context actions = evaluate policy context actions := by
  have hsorted : sortedRules policy' = sortedRules policy := by
    have hperm' : (sortedRules policy').Perm (sortedRules policy) :=
      (List.perm_insertionSort _ _).trans (hperm.trans (List.perm_insertionSort _ _).symm)
    refine List.Perm.eq_of_pairwise (fun a b ha hb hab hba => ?_) (sortedRules_sorted policy')
      (sortedRules_sorted policy) hperm'
    -- two rules of one priority are one rule
    exact List.inj_on_of_nodup_map hdistinct (mem_sortedRules.mp (hperm'.mem_iff.mp ha))
      (mem_sortedRules.mp hb) (le_antisymm hab hba)
  unfold evaluate
  rw [hsorted, hmetadata]

/-- `policy'` is `policy` with one rule more, anywhere. -/
def Adds (rule : PolicyRule) (policy policy' : Policy) : Prop :=
  ∃ before after, policy.rules = before ++ after ∧ policy'.rules = before ++ rule :: after

theorem Adds.mem_iff {rule r : PolicyRule} (h : Adds rule policy policy') :
    r ∈ policy'.rules ↔ r = rule ∨ r ∈ policy.rules := by
  obtain ⟨before, after, hrules, hrules'⟩ := h
  rw [hrules, hrules']
  simp only [List.mem_append, List.mem_cons]
  exact or_left_comm

/-- A deny rule more only takes away. -/
theorem allow_of_adds_deny {rule : PolicyRule} (hadds : Adds rule policy policy')
    (heffect : rule.effect = .deny) (h : evaluate policy context actions = some result)
    (h' : evaluate policy' context actions = some result') (hallow : result'.decision = .allow) :
    result.decision = .allow := by
  obtain ⟨hdeny, r, hr, hreffect, hmatches⟩ := (allow_iff h').mp hallow
  refine (allow_iff h).mpr ⟨fun r hr => hdeny r (hadds.mem_iff.mpr (.inr hr)), r, ?_, hreffect,
    hmatches⟩
  refine (hadds.mem_iff.mp hr).resolve_left fun hself => ?_
  rw [hself, heffect] at hreffect
  cases hreffect

/-- An allow rule more only adds. -/
theorem allow_of_adds_allow {rule : PolicyRule} (hadds : Adds rule policy policy')
    (heffect : rule.effect = .allow) (h : evaluate policy context actions = some result)
    (h' : evaluate policy' context actions = some result') (hallow : result.decision = .allow) :
    result'.decision = .allow := by
  obtain ⟨hdeny, r, hr, hreffect, hmatches⟩ := (allow_iff h).mp hallow
  refine (allow_iff h').mpr ⟨fun r' hr' hdeny' => ?_, r, hadds.mem_iff.mpr (.inr hr), hreffect,
    hmatches⟩
  refine hdeny r' ((hadds.mem_iff.mp hr').resolve_left fun hself => ?_) hdeny'
  rw [hself, heffect] at hdeny'
  cases hdeny'

end Compare

/-! ## All together -/

/-- `evaluate` on a policy, a context and requested actions. It returns if no
rule throws; and whenever it returns, the decision and the rule that is named
are what the rules say, in any order, deny rules only take away and allow rules
only add. -/
theorem evaluate_decides (policy : Policy) (context : Val) (items : List Val) :
    ((∀ r ∈ policy.rules, matchesRule r context (.arr items) ≠ none) →
      ∃ result, evaluate policy context (.arr items) = some result) ∧
    ∀ result, evaluate policy context (.arr items) = some result →
      (result.decision = .allow ↔
        (∀ r ∈ policy.rules, r.effect = .deny → ¬Matches context (.arr items) r) ∧
          ∃ r ∈ policy.rules, r.effect = .allow ∧ Matches context (.arr items) r) ∧
      ((∃ rule, Least policy context (.arr items) rule ∧ rule.effect = result.decision ∧
          result.matchedRule = some rule.id) ∨
        (result.matchedRule = none ∧ result.decision = .deny ∧
          ∀ r ∈ policy.rules, ¬Matches context (.arr items) r)) ∧
      ∀ policy',
        (policy'.rules.Perm policy.rules →
          (∀ result', evaluate policy' context (.arr items) = some result' →
            result'.decision = result.decision) ∧
          (policy'.metadata = policy.metadata → (policy.rules.map (·.priority)).Nodup →
            evaluate policy' context (.arr items) = some result)) ∧
        ∀ rule result', Adds rule policy policy' →
          evaluate policy' context (.arr items) = some result' →
            (rule.effect = .deny → result.decision = .deny → result'.decision = .deny) ∧
            (rule.effect = .allow → result.decision = .allow → result'.decision = .allow) := by
  refine ⟨fun hfine => ?_, fun result h => ⟨allow_iff h, matchedRule_cases h, fun policy' => ⟨?_, ?_⟩⟩⟩
  · -- a policy is only kept from a result by a rule that throws
    cases h : evaluate policy context (.arr items) with
    | some result => exact ⟨result, rfl⟩
    | none =>
      obtain ⟨r, hr, hthrows⟩ := throws_of_evaluate h
      exact absurd hthrows (hfine r hr)
  · intro hperm
    refine ⟨fun result' h' => decision_of_perm hperm h h', fun hmetadata hdistinct => ?_⟩
    rw [evaluate_of_perm hperm hmetadata hdistinct, h]
  · intro rule result' hadds h'
    refine ⟨fun heffect hdeny => ?_, fun heffect => allow_of_adds_allow hadds heffect h h'⟩
    refine decision_deny_iff.mpr fun hallow => ?_
    rw [allow_of_adds_deny hadds heffect h h' hallow] at hdeny
    cases hdeny

/-- A deny rule that asks whether the prototype of the time is positive. -/
def throwingRule : PolicyRule :=
  ⟨"deny-late", .deny, [⟨"context.time.__proto__", .gt, .num (.fin 0)⟩], ["teleop:view"], 1⟩

def viewRule : PolicyRule := ⟨"allow-view", .allow, [], ["teleop:view"], 2⟩

def throwingPolicy : Policy := ⟨"p1", 1, [throwingRule, viewRule], ""⟩

def plainContext : Val :=
  .obj [("credential", .obj [("issuer", .str "did:key:i"), ("subject", .str "did:key:s")]),
    ("context", .obj [("time", .date 0), ("resource", .str "robot-1"), ("action", .str "view")])]

/-- No deny rule matches and an allow rule does, but the deny rule throws. -/
theorem evaluate_decides_fails :
    ¬ ∀ (policy : Policy) (context : Val) (items : List Val),
      (∃ result, evaluate policy context (.arr items) = some result ∧ result.decision = .allow) ↔
        (∀ r ∈ policy.rules, r.effect = .deny → ¬Matches context (.arr items) r) ∧
          ∃ r ∈ policy.rules, r.effect = .allow ∧ Matches context (.arr items) r := by
  intro h
  have hthrows : matchesRule throwingRule plainContext (.arr [.str "teleop:view"]) = none := by
    decide +kernel
  have hmatches : Matches plainContext (.arr [.str "teleop:view"]) viewRule := by
    unfold Matches
    decide +kernel
  have hresult := (h throwingPolicy plainContext [.str "teleop:view"]).mpr
    ⟨?_, viewRule, List.mem_cons_of_mem _ (List.mem_cons_self ..), rfl, hmatches⟩
  · obtain ⟨result, heval, -⟩ := hresult
    have hnone : (evaluate throwingPolicy plainContext (.arr [.str "teleop:view"])).isSome =
        false := by
      decide +kernel
    rw [heval] at hnone
    cases hnone
  · intro r hr heffect hm
    rcases List.mem_cons.mp hr with rfl | hr
    · rw [Matches, hthrows] at hm
      cases hm
    · rw [List.mem_singleton.mp hr] at heffect
      cases heffect

end ChainKVM.Gateway
