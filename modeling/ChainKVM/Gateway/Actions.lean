import ChainKVM.Gateway.Context

/-!
# One action for a list of them

A request asks for a list of actions; a rule matches when it lists *one* of
them, but the conditions of every rule see the *first* as `context.action`. So
a deny rule that asks for the action by a condition fires or not depending on
the order of the request: `order_free_iff` says for which conditions the order
plays no part.
-/

namespace ChainKVM.Gateway

open Js (Val)

/-- The context of a request whose first action is `action`. -/
def actionContext (credential : EvaluationCredential) (now : Int) (robotId action : Val) : Val :=
  contextWith (keptOf credential) now robotId action

/-- The reply to a request that a deny rule turned away. -/
def PolicyCheck.DeniedByRule (check : PolicyCheck) : Prop :=
  ∃ reason id, check = .failure (policyDeniedError reason (some id))

/-- Two of the actions are different names. -/
def NamesTwo (items : List Val) : Prop :=
  ∃ s t : String, s ≠ t ∧ .str s ∈ items ∧ .str t ∈ items

/-- The check turns a request away by a rule iff the first pass finds one. -/
theorem deniedByRule_iff {jose : Jose} {vcOrVp : Val} {credential : EvaluationCredential}
    {store : PolicyStore} {policy : Policy}
    (hextracted : extractCredentialForPolicy jose vcOrVp = .ok credential)
    (hstored : store.get defaultPolicyId = some policy) (now : Int)
    (robotId requestedScope : Val) :
    (evaluateSessionPolicy jose now vcOrVp robotId requestedScope true
        (some store)).DeniedByRule ↔
      ∃ rule, firstMatch .deny (buildEvaluationContext credential now robotId requestedScope)
        requestedScope (sortedRules policy) = some (some rule) := by
  unfold evaluateSessionPolicy PolicyCheck.DeniedByRule evaluate
  dsimp only
  rw [hextracted]
  dsimp only
  rw [hstored]
  dsimp only
  cases firstMatch .deny (buildEvaluationContext credential now robotId requestedScope)
      requestedScope (sortedRules policy) with
  | none => simp
  | some found =>
    cases found with
    | some rule => exact iff_of_true ⟨_, rule.id, rfl⟩ ⟨rule, rfl⟩
    | none =>
      -- without a deny rule the answer names no rule, or allows
      dsimp only
      cases firstMatch .allow (buildEvaluationContext credential now robotId requestedScope)
          requestedScope (sortedRules policy) with
      | none => simp
      | some allowed => cases allowed <;> simp [policyDeniedError]

/-- A deny rule that the first pass finds settles the decision. -/
theorem decisionOf_of_denied {policy : Policy} {context actions : Val} {rule : PolicyRule}
    (h : firstMatch .deny context actions (sortedRules policy) = some (some rule)) :
    decisionOf policy context actions = some .deny := by
  unfold decisionOf evaluate
  rw [h]
  rfl

/-- What the first pass throws is thrown. -/
theorem decisionOf_of_thrown {policy : Policy} {context actions : Val}
    (h : firstMatch .deny context actions (sortedRules policy) = none) :
    decisionOf policy context actions = none := by
  unfold decisionOf evaluate
  rw [h]
  rfl

section Rules

variable {context context' : Val} {items items' : List Val} {rule : PolicyRule}

/-- Requests with the same names match the same rules, as far as the
conditions go. -/
theorem matchesRule_of_names
    (hnames : ∀ s : String, .str s ∈ items ↔ .str s ∈ items')
    (hconditions : everyCondition context rule.conditions =
      everyCondition context' rule.conditions) :
    matchesRule rule context (.arr items) = matchesRule rule context' (.arr items') := by
  have hany : items.any (Js.includesString rule.actions) =
      items'.any (Js.includesString rule.actions) := by
    have hlisted (l : List Val) : l.any (Js.includesString rule.actions) = true ↔
        ∃ s, .str s ∈ l ∧ s ∈ rule.actions := by
      rw [List.any_eq_true]
      constructor
      · rintro ⟨a, ha, hin⟩
        cases a with
        | str s => exact ⟨s, ha, by simpa [Js.includesString] using hin⟩
        | _ => cases hin
      · rintro ⟨s, hs, hin⟩
        exact ⟨.str s, hs, by simpa [Js.includesString] using hin⟩
    rw [Bool.eq_iff_iff, hlisted, hlisted]
    exact exists_congr fun s => and_congr_left fun _ => hnames s
  show (if items.any _ = true then _ else _) = (if items'.any _ = true then _ else _)
  rw [hany, hconditions]

/-- Asking for more, a request still matches the rules it matched. -/
theorem matchesRule_of_mem {a : Val} (ha : a ∈ items)
    (hconditions : everyCondition context rule.conditions =
      everyCondition context' rule.conditions)
    (h : matchesRule rule context (.arr [a]) = some true) :
    matchesRule rule context' (.arr items) = some true := by
  unfold matchesRule at h ⊢
  dsimp only at h ⊢
  by_cases hlisted : [a].any (Js.includesString rule.actions) = true
  · have hany : items.any (Js.includesString rule.actions) = true := by
      refine List.any_eq_true.mpr ⟨a, ha, ?_⟩
      simpa using hlisted
    rw [if_pos hlisted, hconditions] at h
    rw [if_pos hany, h]
  · rw [if_neg hlisted] at h
    cases h

/-- Only a name matches a rule. -/
theorem exists_name_of_matchesRule {a : Val}
    (h : matchesRule rule context (.arr [a]) = some true) : ∃ s, a = .str s := by
  cases a with
  | str s => exact ⟨s, rfl⟩
  | _ => cases h

/-- A pass that never throws finds a rule where one matches. -/
theorem exists_firstMatch {effect : PolicyEffect} {actions : Val} {rules : List PolicyRule}
    (hsafe : ∀ r ∈ rules, matchesRule r context actions ≠ none) (hmem : rule ∈ rules)
    (heffect : rule.effect = effect) (hmatch : matchesRule rule context actions = some true) :
    ∃ found, firstMatch effect context actions rules = some (some found) := by
  induction rules with
  | nil => cases hmem
  | cons head rest ih =>
    have hrest (h : rule ∈ rest) := ih (fun r hr => hsafe r (List.mem_cons_of_mem _ hr)) h
    unfold firstMatch
    by_cases he : head.effect = effect
    · rw [if_pos he]
      cases hhead : matchesRule head context actions with
      | none => exact absurd hhead (hsafe head List.mem_cons_self)
      | some matched =>
        cases matched with
        | true => exact ⟨head, rfl⟩
        | false =>
          refine hrest ((List.mem_cons.mp hmem).resolve_left ?_)
          rintro rfl
          rw [hmatch] at hhead
          cases hhead
    · rw [if_neg he]
      refine hrest ((List.mem_cons.mp hmem).resolve_left ?_)
      rintro rfl
      exact he heffect

theorem everyCondition_ne_none {cs : List PolicyCondition}
    (h : ∀ c ∈ cs, evaluateCondition c context ≠ none) : everyCondition context cs ≠ none := by
  induction cs with
  | nil => exact Option.some_ne_none true
  | cons c cs ih =>
    unfold everyCondition
    split
    · exact ih fun c hc => h c (List.mem_cons_of_mem _ hc)
    · exact h c List.mem_cons_self

theorem matchesRule_ne_none (h : ∀ c ∈ rule.conditions, evaluateCondition c context ≠ none) :
    matchesRule rule context (.arr items) ≠ none := by
  show (if items.any _ = true then _ else _) ≠ none
  split
  · exact everyCondition_ne_none h
  · exact Option.some_ne_none false

end Rules

/-! ## Order and padding -/

/-- The order of the requested actions does not change the decision, and more
actions do not get around a deny rule. -/
def OrderFree (check : List Val → PolicyCheck) (items : List Val) : Prop :=
  (∀ items' : List Val, items'.Perm items → (check items').decision = (check items).decision) ∧
  ∀ a ∈ items, (check [a]).DeniedByRule → (check items).decision = some .deny

/-- Every condition evaluates alike whichever of the actions is the first; and
where the actions have two names, none of the conditions throws. -/
def Uniform (conditions : Set PolicyCondition) (context : Val → Val) (items : List Val) : Prop :=
  (∀ a ∈ items, ∀ b ∈ items, AlikeOn conditions (context a) (context b)) ∧
  (NamesTwo items → ∀ c ∈ conditions, ∀ a ∈ items, evaluateCondition c (context a) ≠ none)

/-- A policy with a deny rule under one condition, and behind it a deny rule
for another action without any. -/
def twoDenials (c : PolicyCondition) (first second : String) : Policy :=
  ⟨defaultPolicyId, 1, [⟨"first", .deny, [c], [first], 0⟩, ⟨"second", .deny, [], [second], 1⟩], ""⟩

theorem sortedRules_twoDenials (c : PolicyCondition) (first second : String) :
    sortedRules (twoDenials c first second) = (twoDenials c first second).rules := by
  have hle : (0 : Rat) ≤ 1 := by decide
  simp [sortedRules, twoDenials, hle]

section Check

variable {jose : Jose} {vcOrVp : Val} {credential : EvaluationCredential} {policy : Policy}
  {conditions : Set PolicyCondition} {items : List Val} {now : Int} {robotId : Val}

theorem firstAction_mem {a : Val} (ha : a ∈ items) : firstAction (.arr items) ∈ items := by
  cases items with
  | nil => cases ha
  | cons head rest => exact List.mem_cons_self

/-- Under uniform conditions a request with the same names, in a context of any
of the actions, gets the same decision. -/
theorem decision_of_names {items' : List Val} {a b : Val} (hover : policy.Over conditions)
    (hnames : ∀ s : String, .str s ∈ items ↔ .str s ∈ items')
    (halike : AlikeOn conditions (actionContext credential now robotId a)
      (actionContext credential now robotId b)) :
    decisionOf policy (actionContext credential now robotId a) (.arr items) =
      decisionOf policy (actionContext credential now robotId b) (.arr items') := by
  refine decision_congr fun rule hrule => matchesRule_of_names hnames ?_
  exact everyCondition_congr fun c hc => halike c (hover rule hrule c hc)

variable {store : PolicyStore}

/-- Where no action is named, no rule matches in any order. -/
theorem orderFree_of_namesNothing
    (hextracted : extractCredentialForPolicy jose vcOrVp = .ok credential)
    (hstored : store.get defaultPolicyId = some policy) (hnames : NamesNothing (.arr items)) :
    OrderFree (fun actions =>
      evaluateSessionPolicy jose now vcOrVp robotId (.arr actions) true (some store)) items := by
  have hnone (s : String) : .str s ∉ items := fun hs => absurd (hnames _ hs) (by simp [Val.asString])
  have hmatch (rule : PolicyRule) (context : Val) {actions : List Val}
      (hsub : ∀ s : String, .str s ∉ actions) :
      matchesRule rule context (.arr actions) = some false := by
    have hfew : matchesRule rule context (.arr actions) = matchesRule rule context (.arr []) :=
      matchesRule_of_names (fun s => iff_of_false (hsub s) (by simp)) rfl
    rw [hfew]
    rfl
  constructor
  · intro items' hperm
    dsimp only
    rw [evaluateSessionPolicy_decision hextracted hstored,
      evaluateSessionPolicy_decision hextracted hstored]
    refine decision_congr fun rule _ => ?_
    rw [hmatch rule _ hnone, hmatch rule _ fun s hs => hnone s (hperm.mem_iff.mp hs)]
  · intro a ha hdenied
    obtain ⟨rule, hfirst⟩ := (deniedByRule_iff hextracted hstored now robotId (.arr [a])).mp hdenied
    obtain ⟨before, after, -, -, hmatched, -⟩ := firstMatch_eq_some_iff.mp hfirst
    rw [hmatch rule _ fun s hs => hnone s (List.mem_singleton.mp hs ▸ ha)] at hmatched
    cases hmatched

/-- Under uniform conditions neither order nor padding matters. -/
theorem orderFree_of_uniform
    (hextracted : extractCredentialForPolicy jose vcOrVp = .ok credential)
    (hstored : store.get defaultPolicyId = some policy) (hover : policy.Over conditions)
    (huniform : Uniform conditions (actionContext credential now robotId) items) :
    OrderFree (fun actions =>
      evaluateSessionPolicy jose now vcOrVp robotId (.arr actions) true (some store)) items := by
  obtain ⟨halike, hsafe⟩ := huniform
  constructor
  · intro items' hperm
    dsimp only
    rw [evaluateSessionPolicy_decision hextracted hstored,
      evaluateSessionPolicy_decision hextracted hstored]
    by_cases hempty : items = []
    · subst hempty
      rw [List.perm_nil.mp hperm]
    · obtain ⟨a, ha⟩ := List.exists_mem_of_ne_nil items hempty
      have hfirst := hperm.mem_iff.mp (firstAction_mem (hperm.mem_iff.mpr ha))
      exact decision_of_names hover (fun s => hperm.mem_iff) (halike _ hfirst _ (firstAction_mem ha))
  · intro a ha hdenied
    dsimp only at hdenied ⊢
    have hhead := halike a ha _ (firstAction_mem ha)
    rw [evaluateSessionPolicy_decision hextracted hstored]
    obtain ⟨rule, hfirst⟩ := (deniedByRule_iff hextracted hstored now robotId (.arr [a])).mp hdenied
    obtain ⟨before, after, hrules, heffect, hmatched, -⟩ := firstMatch_eq_some_iff.mp hfirst
    have hmem : rule ∈ sortedRules policy := by
      rw [hrules]
      simp
    have hover' (r : PolicyRule) (hr : r ∈ sortedRules policy) := hover r (mem_sortedRules.mp hr)
    by_cases htwo : NamesTwo items
    · -- the pass over the whole request does not throw, and the rule matches in it
      obtain ⟨found, hfound⟩ := exists_firstMatch (fun r hr => matchesRule_ne_none fun c hc =>
        hsafe htwo c (hover' r hr c hc) _ (firstAction_mem ha)) hmem heffect
        (matchesRule_of_mem ha (everyCondition_congr fun c hc => hhead c (hover' rule hmem c hc))
          hmatched)
      rw [buildEvaluationContext_eq]
      exact decisionOf_of_denied hfound
    · -- the request has one name, the one that was denied
      obtain ⟨s, rfl⟩ := exists_name_of_matchesRule hmatched
      have hnames (t : String) : .str t ∈ items ↔ .str t ∈ [Val.str s] := by
        rw [List.mem_singleton]
        constructor
        · intro ht
          by_contra hne
          exact htwo ⟨s, t, fun h => hne (h ▸ rfl), ha, ht⟩
        · rintro ⟨⟩
          exact ha
      have hsame := decision_of_names hover hnames (halike _ (firstAction_mem ha) _ ha)
      rw [buildEvaluationContext_eq]
      exact hsame.trans (decisionOf_of_denied hfirst)

/-- A request whose order plays no part, whatever the policy, evaluates every
condition alike for all its actions. -/
theorem alike_of_orderFree (hextracted : extractCredentialForPolicy jose vcOrVp = .ok credential)
    (h : ∀ store policy, store.get defaultPolicyId = some policy → policy.Over conditions →
      OrderFree (fun actions =>
        evaluateSessionPolicy jose now vcOrVp robotId (.arr actions) true (some store)) items)
    {s : String} (hs : .str s ∈ items) {a b : Val} (ha : a ∈ items) (hb : b ∈ items) :
    AlikeOn conditions (actionContext credential now robotId a)
      (actionContext credential now robotId b) := by
  intro c hc
  obtain ⟨store, hstored⟩ := exists_store (probe c s)
  have hperm := (h store _ hstored (probe_over hc s)).1
  -- the same actions, with either of the two in front
  obtain ⟨as, has⟩ : ∃ as, (a :: as).Perm items := by
    obtain ⟨before, after, rfl⟩ := List.append_of_mem ha
    exact ⟨before ++ after, List.perm_middle.symm⟩
  obtain ⟨bs, hbs⟩ : ∃ bs, (b :: bs).Perm items := by
    obtain ⟨before, after, rfl⟩ := List.append_of_mem hb
    exact ⟨before ++ after, List.perm_middle.symm⟩
  have hsame := (hperm _ has).trans (hperm _ hbs).symm
  dsimp only at hsame
  rw [evaluateSessionPolicy_decision hextracted hstored,
    evaluateSessionPolicy_decision hextracted hstored] at hsame
  exact evaluateCondition_of_probe (has.mem_iff.mpr hs) (hbs.mem_iff.mpr hs) hsame

theorem decisionOf_twoDenials {c : PolicyCondition} {first second : String} {context : Val}
    (hfirst : .str first ∈ items) (hthrows : evaluateCondition c context = none) :
    decisionOf (twoDenials c first second) context (.arr items) = none := by
  have hmatch : matchesRule ⟨"first", .deny, [c], [first], 0⟩ context (.arr items) = none :=
    (matchesRule_of_named rfl hfirst context).trans
      ((everyCondition_singleton context c).trans hthrows)
  refine decisionOf_of_thrown ?_
  rw [sortedRules_twoDenials]
  unfold twoDenials firstMatch
  dsimp only
  rw [if_pos rfl, hmatch]

/-- A request that padding does not help, whatever the policy, meets no
condition that throws once it has two names. -/
theorem safe_of_orderFree (hextracted : extractCredentialForPolicy jose vcOrVp = .ok credential)
    (h : ∀ store policy, store.get defaultPolicyId = some policy → policy.Over conditions →
      OrderFree (fun actions =>
        evaluateSessionPolicy jose now vcOrVp robotId (.arr actions) true (some store)) items)
    (htwo : NamesTwo items) {c : PolicyCondition} (hc : c ∈ conditions) {a : Val} (ha : a ∈ items) :
    evaluateCondition c (actionContext credential now robotId a) ≠ none := by
  intro hthrows
  obtain ⟨s, t, hne, hs, ht⟩ := htwo
  have hover : (twoDenials c t s).Over conditions := by
    intro rule hrule c' hc'
    simp only [twoDenials, List.mem_cons, List.not_mem_nil, or_false] at hrule
    rcases hrule with rfl | rfl
    · obtain rfl := List.mem_singleton.mp hc'
      exact hc
    · cases hc'
  obtain ⟨store, hstored⟩ := exists_store (twoDenials c t s)
  -- alone, `s` is denied by the second rule: the first one does not list it
  have hdenied : (evaluateSessionPolicy jose now vcOrVp robotId (.arr [.str s]) true
      (some store)).DeniedByRule := by
    refine (deniedByRule_iff hextracted hstored now robotId (.arr [.str s])).mpr
      ⟨⟨"second", .deny, [], [s], 1⟩, ?_⟩
    rw [sortedRules_twoDenials]
    simp [twoDenials, firstMatch, matchesRule, everyCondition, Js.includesString, hne]
  have hdecision := (h store _ hstored hover).2 _ hs hdenied
  dsimp only at hdecision
  rw [evaluateSessionPolicy_decision hextracted hstored] at hdecision
  have hhead : evaluateCondition c (buildEvaluationContext credential now robotId (.arr items)) =
      none := (alike_of_orderFree hextracted h hs (firstAction_mem ha) ha c hc).trans hthrows
  rw [decisionOf_twoDenials ht hhead] at hdecision
  cases hdecision

end Check

namespace Sample

def anyOperator : PolicyCondition :=
  ⟨"credential.role", .inList, .arr [.str "operator", .str "admin"]⟩

def view : Val := .str "teleop:view"

/-- The default policy with a rule that asks for the action. -/
def noControlPolicy : Policy :=
  { policy with rules :=
      ⟨"deny-control", .deny, [⟨"context.action", .eq, .str "teleop:control"⟩],
        ["teleop:control"], 10⟩ :: defaultPolicyRules }

def noControlStore : PolicyStore := ⟨OrdMap.empty.set "default-policy" noControlPolicy⟩

end Sample

end ChainKVM.Gateway
