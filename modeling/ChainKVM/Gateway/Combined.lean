import ChainKVM.Gateway.Evaluation

/-!
# Asking for several actions at once

A rule matches if it is about *some* of the actions that are asked for, and an
allow rule allows those of them that it is about. So what is allowed together
is allowed alone, by the same rule, and a request that a deny rule turns down
is turned down with any further actions (`combined_request`) unless one of the
rules that these bring in throws.
-/

namespace ChainKVM.Gateway

open Js (Val)

/-- A deny rule has turned the request down. -/
def DeniedByRule (result : EvaluationResult) : Prop :=
  result.decision = .deny ∧ result.matchedRule ≠ none

variable {policy : Policy} {context : Val} {items items' : List Val} {rule : PolicyRule} {a : Val}

theorem matchesRule_arr (rule : PolicyRule) (context : Val) (items : List Val) :
    matchesRule rule context (.arr items) =
      if items.any (Js.includesString rule.actions) then everyCondition context rule.conditions
      else some false := rfl

theorem matchesRule_single (rule : PolicyRule) (context a : Val) :
    matchesRule rule context (.arr [a]) =
      if Js.includesString rule.actions a then everyCondition context rule.conditions
      else some false := by
  rw [matchesRule_arr]
  simp only [List.any_cons, List.any_nil, Bool.or_false]

/-- A rule that does not match the request does not match one of its actions. -/
theorem matchesRule_single_of_false (ha : a ∈ items)
    (h : matchesRule rule context (.arr items) = some false) :
    matchesRule rule context (.arr [a]) = some false := by
  rw [matchesRule_single]
  by_cases hin : Js.includesString rule.actions a = true
  · have hany : items.any (Js.includesString rule.actions) = true :=
      List.any_eq_true.mpr ⟨a, ha, hin⟩
    rw [matchesRule_arr, if_pos hany] at h
    rw [if_pos hin, h]
  · rw [if_neg hin]

/-- A rule that matches is about some action, and its conditions hold. -/
theorem matches_iff : Matches context (.arr items) rule ↔
    (∃ a ∈ items, Js.includesString rule.actions a = true) ∧
      everyCondition context rule.conditions = some true := by
  rw [Matches, matchesRule_arr, ← List.any_eq_true]
  by_cases hany : items.any (Js.includesString rule.actions) = true
  · rw [if_pos hany]
    exact (and_iff_right hany).symm
  · rw [if_neg hany]
    exact ⟨fun h => (by cases h), fun h => absurd h.1 hany⟩

/-- It matches a request for more, and one for any action that it is about. -/
theorem Matches.mono (h : Matches context (.arr items) rule) (hsub : ∀ a ∈ items, a ∈ items') :
    Matches context (.arr items') rule := by
  obtain ⟨⟨a, ha, hin⟩, hconditions⟩ := matches_iff.mp h
  exact matches_iff.mpr ⟨⟨a, hsub a ha, hin⟩, hconditions⟩

theorem Matches.single (h : Matches context (.arr items) rule)
    (hin : Js.includesString rule.actions a = true) : Matches context (.arr [a]) rule :=
  matches_iff.mpr ⟨⟨a, List.mem_singleton_self a, hin⟩, (matches_iff.mp h).2⟩

/-- The rule that decides a request decides each of its actions. -/
theorem Decides.single (h : Decides policy context (.arr items) rule) (ha : a ∈ items)
    (hin : Js.includesString rule.actions a = true) : Decides policy context (.arr [a]) rule := by
  obtain ⟨before, after, hsplit, hmatches, hbefore⟩ := h
  exact ⟨before, after, hsplit, Matches.single hmatches hin,
    fun r hr heffect => matchesRule_single_of_false ha (hbefore r hr heffect)⟩

/-- What an allow rule allows of a request it allows of each action alone. -/
theorem evaluate_single (hallow : rule.effect = .allow)
    (hdeny : ∀ r ∈ policy.rules, r.effect = .deny →
      matchesRule r context (.arr items) = some false)
    (hdecides : Decides policy context (.arr items) rule) (ha : a ∈ items)
    (hin : Js.includesString rule.actions a = true) :
    evaluate policy context (.arr [a]) =
      some ⟨.allow, some rule.id, none, [a], policy.metadata⟩ := by
  have hpass : firstMatch .deny context (.arr [a]) (sortedRules policy) = some none :=
    firstMatch_none_iff.mpr fun r hr heffect =>
      matchesRule_single_of_false ha (hdeny r (mem_sortedRules.mp hr) heffect)
  have hfound : firstMatch .allow context (.arr [a]) (sortedRules policy) = some (some rule) :=
    firstMatch_decides.mpr ⟨hallow, hdecides.single ha hin⟩
  have hself : intersectActions [a] rule.actions = [a] := List.filter_cons_of_pos hin
  unfold evaluate
  rw [hpass, hfound]
  dsimp only [requestedItems]
  rw [hself]

/-- What is allowed of a request is a part of it that is not empty, and each
action in it is allowed alone, with the same result but for the others. -/
theorem allowed_alone {result : EvaluationResult}
    (h : evaluate policy context (.arr items) = some result) (hallow : result.decision = .allow) :
    result.allowedActions ≠ [] ∧ result.allowedActions.Sublist items ∧
      ∀ a ∈ result.allowedActions,
        evaluate policy context (.arr [a]) = some { result with allowedActions := [a] } := by
  rcases evaluate_cases h with ⟨rule, heffect, hdecides, rfl⟩ | ⟨hdeny, rule, heffect, hdecides, rfl⟩
    | ⟨hnone, rfl⟩
  · cases hallow
  · refine ⟨?_, List.filter_sublist, fun a ha => ?_⟩
    · obtain ⟨⟨a, ha, hin⟩, -⟩ := matches_iff.mp hdecides.least.mem.2
      exact List.ne_nil_of_mem (mem_intersectActions.mpr ⟨ha, hin⟩)
    · obtain ⟨hmem, hin⟩ := mem_intersectActions.mp ha
      exact evaluate_single heffect hdeny hdecides hmem hin
  · cases hallow

/-- What a deny rule turns down is turned down with more actions. -/
theorem denied_together {result result' : EvaluationResult}
    (h : evaluate policy context (.arr items) = some result) (hdenied : DeniedByRule result)
    (hsub : ∀ a ∈ items, a ∈ items')
    (h' : evaluate policy context (.arr items') = some result') : DeniedByRule result' := by
  obtain ⟨hdeny, hnamed⟩ := hdenied
  have hrule : ∃ r ∈ policy.rules, r.effect = .deny ∧ Matches context (.arr items) r := by
    rcases matchedRule_cases h with ⟨r, hleast, heffect, -⟩ | ⟨hnone, -⟩
    · exact ⟨r, hleast.mem.1, heffect.trans hdeny, hleast.mem.2⟩
    · exact absurd hnone hnamed
  obtain ⟨r, hr, heffect, hmatches⟩ := hrule
  have hmatches' := hmatches.mono hsub
  refine ⟨decision_deny_iff.mpr fun hallow => ?_, ?_⟩
  · exact ((allow_iff h').mp hallow).1 r hr heffect hmatches'
  · rcases matchedRule_cases h' with ⟨r', -, -, hnamed'⟩ | ⟨-, -, hnone⟩
    · rw [hnamed']
      exact Option.some_ne_none _
    · exact absurd hmatches' (hnone r hr)

/-- A request that is allowed gets a part of it that is not empty, each action
of which would be allowed alone by the same rule; and a request that a deny
rule turns down is turned down by a deny rule with more actions, if that is
decided at all. -/
theorem combined_request (policy : Policy) (context : Val) (items : List Val)
    (result : EvaluationResult) (h : evaluate policy context (.arr items) = some result) :
    (result.decision = .allow → result.allowedActions ≠ [] ∧ result.allowedActions.Sublist items ∧
      ∀ a ∈ result.allowedActions,
        evaluate policy context (.arr [a]) = some { result with allowedActions := [a] }) ∧
    (DeniedByRule result → ∀ items', (∀ a ∈ items, a ∈ items') →
      (∀ result', evaluate policy context (.arr items') = some result' → DeniedByRule result') ∧
      ((∀ r ∈ policy.rules, matchesRule r context (.arr items') ≠ none) →
        ∃ result', evaluate policy context (.arr items') = some result')) := by
  refine ⟨allowed_alone h, fun hdenied items' hsub =>
    ⟨fun result' h' => denied_together h hdenied hsub h', fun hfine => ?_⟩⟩
  cases h' : evaluate policy context (.arr items') with
  | some result' => exact ⟨result', rfl⟩
  | none =>
    obtain ⟨r, hr, hthrows⟩ := throws_of_evaluate h'
    exact absurd hthrows (hfine r hr)

/-- Viewing is denied, and controlling too if it is late. -/
def denyingPolicy : Policy :=
  ⟨"p1", 1, [⟨"deny-late", .deny, [⟨"context.time.__proto__", .gt, .num (.fin 0)⟩],
    ["teleop:control"], 1⟩, ⟨"deny-view", .deny, [], ["teleop:view"], 2⟩], ""⟩

def denyingResult : EvaluationResult :=
  ⟨.deny, some "deny-view", some "denied by rule: deny-view", [], ⟨"p1", 1, ""⟩⟩

theorem evaluate_denyingPolicy :
    evaluate denyingPolicy plainContext (.arr [.str "teleop:view"]) = some denyingResult := by
  rfl

theorem combined_request_denied :
    (denyingResult.decision = .allow → denyingResult.allowedActions ≠ [] ∧
      denyingResult.allowedActions.Sublist [.str "teleop:view"] ∧
      ∀ a ∈ denyingResult.allowedActions,
        evaluate denyingPolicy plainContext (.arr [a]) =
          some { denyingResult with allowedActions := [a] }) ∧
    (DeniedByRule denyingResult → ∀ items', (∀ a ∈ [Val.str "teleop:view"], a ∈ items') →
      (∀ result', evaluate denyingPolicy plainContext (.arr items') = some result' →
        DeniedByRule result') ∧
      ((∀ r ∈ denyingPolicy.rules, matchesRule r plainContext (.arr items') ≠ none) →
        ∃ result', evaluate denyingPolicy plainContext (.arr items') = some result')) :=
  combined_request denyingPolicy plainContext [.str "teleop:view"] denyingResult
    evaluate_denyingPolicy

/-- Viewing is denied by a rule. Viewing and controlling is not decided. -/
theorem combined_request_fails :
    ¬ ∀ (policy : Policy) (context : Val) (items items' : List Val) (result : EvaluationResult),
      evaluate policy context (.arr items) = some result → DeniedByRule result →
        (∀ a ∈ items, a ∈ items') →
          ∃ result', evaluate policy context (.arr items') = some result' ∧
            DeniedByRule result' := by
  intro h
  obtain ⟨result', heval, -⟩ := h denyingPolicy plainContext [.str "teleop:view"]
    [.str "teleop:view", .str "teleop:control"] denyingResult evaluate_denyingPolicy
    ⟨rfl, by simp [denyingResult]⟩ (by simp)
  have hnone : (evaluate denyingPolicy plainContext
      (.arr [.str "teleop:view", .str "teleop:control"])).isSome = false := by
    decide +kernel
  rw [heval] at hnone
  cases hnone

end ChainKVM.Gateway
