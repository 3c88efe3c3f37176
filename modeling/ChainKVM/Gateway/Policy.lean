import Mathlib.Data.List.Infix
import Mathlib.Data.List.Sort
import ChainKVM.Lib.Js
import ChainKVM.Lib.OrdMap

/-!
# Policy evaluation: `policy/`

A policy is a list of rules, each with an effect, actions and conditions.
`evaluate` sorts the rules by priority and goes through them twice: the first
deny rule that matches denies, otherwise the first allow rule that matches
allows, otherwise the request is denied. A rule matches when *some* requested
action is among its actions and all its conditions hold; what it allows is the
requested actions that are among its actions (`intersectActions`).

`none` stands for a thrown `TypeError`: an ordering condition on a value that
has no primitive, or requested actions that are not an array.
-/

namespace ChainKVM.Gateway

open Js (Val)

/-! ## Types -/

/-- `PolicyEffect`. -/
inductive PolicyEffect where
  | allow
  | deny
  deriving DecidableEq, Repr

/-- `ConditionOperator`, and whatever else a stored rule may hold. -/
inductive ConditionOperator where
  | eq
  | neq
  | inList
  | gt
  | lt
  | gte
  | lte
  | contains
  | other (name : String)
  deriving DecidableEq, Repr

/-- `PolicyCondition`. -/
structure PolicyCondition where
  field : String
  operator : ConditionOperator
  value : Val

/-- `PolicyRule`. Lower numbers have the higher priority. -/
structure PolicyRule where
  id : String
  effect : PolicyEffect
  conditions : List PolicyCondition
  actions : List String
  priority : Rat

/-- `Policy`. -/
structure Policy where
  id : String
  version : Nat
  rules : List PolicyRule
  hash : String

/-- `PolicyMetadata`. -/
structure PolicyMetadata where
  id : String
  version : Nat
  hash : String
  deriving DecidableEq, Repr

/-- `EvaluationResult`. -/
structure EvaluationResult where
  decision : PolicyEffect
  matchedRule : Option String
  reason : Option String
  allowedActions : List Val
  policy : PolicyMetadata

/-- `PolicyStore`: the policies by id. -/
structure PolicyStore where
  policies : OrdMap String Policy

/-- `PolicyStore.get`. -/
def PolicyStore.get (store : PolicyStore) (id : String) : Option Policy := store.policies.get id

/-! ## Conditions -/

/-- `path.split('.')`. -/
def pathParts (path : String) : List String := (path.toList.splitOn '.').map String.ofList

theorem pathParts_ne_nil (path : String) : pathParts path ≠ [] := by
  unfold pathParts
  simp [List.splitOn_ne_nil]

/-- The loop of `getFieldValue`: only objects have fields. -/
def getParts : List String → Val → Val
  | [], current => current
  | part :: parts, current =>
    if current.isObject then getParts parts (current.get part) else .undefined

/-- `getFieldValue`. -/
def getFieldValue (path : String) (context : Val) : Val := getParts (pathParts path) context

/-- `contains`: substring or array item. -/
def contains (fieldValue value : Val) : Bool :=
  match fieldValue, value with
  | .str s, .str t => t.toList <:+: s.toList
  | .arr items, v => Js.includes items v
  | _, _ => false

/-- `Array.isArray(value) && value.includes(fieldValue)`. -/
def isIn (fieldValue value : Val) : Bool :=
  match value with
  | .arr items => Js.includes items fieldValue
  | _ => false

/-- `evaluateCondition`. -/
def evaluateCondition (condition : PolicyCondition) (context : Val) : Option Bool :=
  match getFieldValue condition.field context with
  | .undefined => some false
  | fieldValue =>
    match condition.operator with
    | .eq => some (fieldValue.strictEq condition.value)
    | .neq => some !(fieldValue.strictEq condition.value)
    | .inList => some (isIn fieldValue condition.value)
    | .gt => (fieldValue.order condition.value).map (· = some .gt)
    | .lt => (fieldValue.order condition.value).map (· = some .lt)
    | .gte => (fieldValue.order condition.value).map fun o => o = some .gt ∨ o = some .eq
    | .lte => (fieldValue.order condition.value).map fun o => o = some .lt ∨ o = some .eq
    | .contains => some (contains fieldValue condition.value)
    | .other _ => some false

/-! ### Items and objects -/

/-- The items of an array. -/
def arrayItems : Val → List Val
  | .arr items => items
  | _ => []

theorem isIn_iff {v value : Val} :
    isIn v value = true ↔ ∃ item ∈ arrayItems value, item.sameValueZero v = true := by
  cases value with
  | arr items => exact List.any_eq_true
  | _ => exact ⟨nofun, fun ⟨item, h, _⟩ => (by cases h)⟩

/-- An object is equal to nothing. -/
theorem strictEq_of_isObject {v : Val} (h : v.isObject = true) (value : Val) :
    v.strictEq value = false := by
  cases v with
  | arr _ | obj _ | date _ | proto _ => cases value <;> rfl
  | _ => cases h

/-- An object is no item of a list. -/
theorem isIn_of_isObject {v : Val} (h : v.isObject = true) (value : Val) :
    isIn v value = false := by
  refine Bool.eq_false_iff.mpr fun hin => ?_
  obtain ⟨item, -, hsame⟩ := isIn_iff.mp hin
  cases v with
  | arr _ | obj _ | date _ | proto _ => cases item <;> cases hsame
  | _ => cases h

/-! ## The evaluator -/

/-- `conditions.every(…)`. -/
def everyCondition (context : Val) : List PolicyCondition → Option Bool
  | [] => some true
  | c :: cs =>
    match evaluateCondition c context with
    | some true => everyCondition context cs
    | r => r

/-- `matchesRule`. -/
def matchesRule (rule : PolicyRule) (context actions : Val) : Option Bool :=
  match actions with
  | .arr items =>
    if items.any (Js.includesString rule.actions) then everyCondition context rule.conditions
    else some false
  | _ => none

/-- `intersectActions`. -/
def intersectActions (requested : List Val) (ruleActions : List String) : List Val :=
  requested.filter (Js.includesString ruleActions)

/-- `[...policy.rules].sort((a, b) => a.priority - b.priority)`, a stable
sort. -/
def sortedRules (policy : Policy) : List PolicyRule :=
  policy.rules.insertionSort fun a b => a.priority ≤ b.priority

theorem mem_sortedRules {policy : Policy} {rule : PolicyRule} :
    rule ∈ sortedRules policy ↔ rule ∈ policy.rules := List.mem_insertionSort _

/-- One pass over the rules: the first one of the effect that matches. -/
def firstMatch (effect : PolicyEffect) (context actions : Val) :
    List PolicyRule → Option (Option PolicyRule)
  | [] => some none
  | rule :: rules =>
    if rule.effect = effect then
      match matchesRule rule context actions with
      | some true => some (some rule)
      | some false => firstMatch effect context actions rules
      | none => none
    else firstMatch effect context actions rules

/-- The actions of a request, if it has any. -/
def requestedItems : Val → List Val
  | .arr items => items
  | _ => []

def Policy.metadata (policy : Policy) : PolicyMetadata := ⟨policy.id, policy.version, policy.hash⟩

/-- `PolicyEvaluator.evaluate`. -/
def evaluate (policy : Policy) (context requestedActions : Val) : Option EvaluationResult :=
  match firstMatch .deny context requestedActions (sortedRules policy) with
  | none => none
  | some (some rule) =>
    some ⟨.deny, some rule.id, some ("denied by rule: " ++ rule.id), [], policy.metadata⟩
  | some none =>
    match firstMatch .allow context requestedActions (sortedRules policy) with
    | none => none
    | some (some rule) =>
      some ⟨.allow, some rule.id, none,
        intersectActions (requestedItems requestedActions) rule.actions, policy.metadata⟩
    | some none => some ⟨.deny, none, some "no matching rule", [], policy.metadata⟩

/-! ## What the passes find -/

/-- `rule` is the rule of its effect that decides: of the rules of that effect,
in priority order, the first that matches. -/
def Decides (policy : Policy) (context actions : Val) (rule : PolicyRule) : Prop :=
  ∃ before after, sortedRules policy = before ++ rule :: after ∧
    matchesRule rule context actions = some true ∧
    ∀ r ∈ before, r.effect = rule.effect → matchesRule r context actions = some false

/-- A rule before it that does not match makes no difference to the first that
does. -/
theorem first_cons_iff {effect : PolicyEffect} {context actions : Val} {head rule : PolicyRule}
    {rest : List PolicyRule}
    (hhead : head.effect = effect → matchesRule head context actions = some false) :
    (∃ before after, rest = before ++ rule :: after ∧ rule.effect = effect ∧
        matchesRule rule context actions = some true ∧
        ∀ r ∈ before, r.effect = effect → matchesRule r context actions = some false) ↔
      ∃ before after, head :: rest = before ++ rule :: after ∧ rule.effect = effect ∧
        matchesRule rule context actions = some true ∧
        ∀ r ∈ before, r.effect = effect → matchesRule r context actions = some false := by
  constructor
  · rintro ⟨before, after, hrest, heffect, hmatch, hbefore⟩
    refine ⟨head :: before, after, by rw [hrest]; rfl, heffect, hmatch, fun r hr => ?_⟩
    rcases List.mem_cons.mp hr with rfl | hr
    · exact hhead
    · exact hbefore r hr
  · rintro ⟨before, after, hall, heffect, hmatch, hbefore⟩
    cases before with
    | nil =>
      -- the head does not match, so it is not the rule
      obtain ⟨rfl, -⟩ := List.cons.inj hall
      rw [hhead heffect] at hmatch
      cases hmatch
    | cons b before =>
      obtain ⟨-, hrest⟩ := List.cons.inj hall
      exact ⟨before, after, hrest, heffect, hmatch,
        fun r hr => hbefore r (List.mem_cons_of_mem _ hr)⟩

/-- A head that is not refused is the first there is. -/
theorem eq_head_of_first {effect : PolicyEffect} {context actions : Val} {head rule : PolicyRule}
    {rest before after : List PolicyRule} (he : head.effect = effect)
    (hm : matchesRule head context actions ≠ some false)
    (hall : head :: rest = before ++ rule :: after)
    (hbefore : ∀ r ∈ before, r.effect = effect → matchesRule r context actions = some false) :
    head = rule := by
  cases before with
  | nil => exact (List.cons.inj hall).1
  | cons b before =>
    obtain ⟨rfl, -⟩ := List.cons.inj hall
    exact absurd (hbefore head List.mem_cons_self he) hm

theorem firstMatch_eq_some_iff {effect : PolicyEffect} {context actions : Val}
    {rules : List PolicyRule} {rule : PolicyRule} :
    firstMatch effect context actions rules = some (some rule) ↔
      ∃ before after, rules = before ++ rule :: after ∧ rule.effect = effect ∧
        matchesRule rule context actions = some true ∧
        ∀ r ∈ before, r.effect = effect → matchesRule r context actions = some false := by
  induction rules with
  | nil =>
    constructor
    · intro h
      cases h
    · rintro ⟨before, after, h, -⟩
      cases before <;> cases h
  | cons head rest ih =>
    unfold firstMatch
    by_cases he : head.effect = effect
    · rw [if_pos he]
      cases hm : matchesRule head context actions with
      | none =>
        constructor
        · intro h
          cases h
        · rintro ⟨before, after, hall, -, hmatch, hbefore⟩
          have hrule := eq_head_of_first he (by rw [hm]; nofun) hall hbefore
          rw [← hrule, hm] at hmatch
          cases hmatch
      | some matched =>
        cases matched with
        | false => exact ih.trans (first_cons_iff fun _ => hm)
        | true =>
          constructor
          · intro h
            obtain rfl : head = rule := by simpa using h
            exact ⟨[], rest, rfl, he, hm, by simp⟩
          · rintro ⟨before, after, hall, -, -, hbefore⟩
            rw [eq_head_of_first he (by rw [hm]; nofun) hall hbefore]
    · rw [if_neg he]
      exact ih.trans (first_cons_iff fun h => absurd h he)

/-- The first pass that finds a rule finds the one that decides. -/
theorem firstMatch_decides {effect : PolicyEffect} {policy : Policy} {context actions : Val}
    {rule : PolicyRule} :
    firstMatch effect context actions (sortedRules policy) = some (some rule) ↔
      rule.effect = effect ∧ Decides policy context actions rule := by
  rw [firstMatch_eq_some_iff]
  constructor
  · rintro ⟨before, after, hrules, rfl, hmatch, hbefore⟩
    exact ⟨rfl, before, after, hrules, hmatch, hbefore⟩
  · rintro ⟨rfl, before, after, hrules, hmatch, hbefore⟩
    exact ⟨before, after, hrules, rfl, hmatch, hbefore⟩

/-- When the evaluator allows, an allow rule decided, the requested actions are
an array, and what is allowed is those of them that the rule lists. -/
theorem evaluate_allow {policy : Policy} {context actions : Val} {result : EvaluationResult}
    (h : evaluate policy context actions = some result) (hallow : result.decision = .allow) :
    ∃ rule items, actions = .arr items ∧ rule.effect = .allow ∧
      Decides policy context actions rule ∧
      result.allowedActions = intersectActions items rule.actions := by
  unfold evaluate at h
  split at h
  · cases h
  · cases h
    cases hallow
  · split at h
    · cases h
    next rule hrule =>
      cases h
      obtain ⟨heffect, hdecides⟩ := firstMatch_decides.mp hrule
      obtain ⟨before, after, -, hmatch, -⟩ := hdecides
      cases actions with
      | arr items => exact ⟨rule, items, rfl, heffect, firstMatch_decides.mp hrule |>.2, rfl⟩
      | _ => cases hmatch
    · cases h
      cases hallow

/-- Two rules of one effect that both decide are the same. -/
theorem Decides.unique {policy : Policy} {context actions : Val} {rule rule' : PolicyRule}
    (h : Decides policy context actions rule) (h' : Decides policy context actions rule')
    (heffect : rule.effect = rule'.effect) : rule = rule' := by
  have hfirst := firstMatch_decides.mpr ⟨rfl, h⟩
  have hfirst' := firstMatch_decides.mpr ⟨heffect.symm, h'⟩
  rw [hfirst] at hfirst'
  simpa using hfirst'

theorem mem_intersectActions {requested : List Val} {ruleActions : List String} {a : Val} :
    a ∈ intersectActions requested ruleActions ↔
      a ∈ requested ∧ Js.includesString ruleActions a = true := List.mem_filter

end ChainKVM.Gateway
