import ChainKVM.Gateway.Policy

/-!
# The policy validator: `policy/policy-validator.ts`

`validatePolicyInput` gets a value that may be anything and lists what is wrong
with it; it accepts what it finds nothing wrong with. Of a condition it asks
for a field, one of the operators and a value that is there.
-/

namespace ChainKVM.Gateway

open Js (Val)

/-! ## The validator -/

/-- `VALID_OPERATORS`, with the operators that they are. -/
def operatorNames : List (String × ConditionOperator) :=
  [("eq", .eq), ("neq", .neq), ("in", .inList), ("gt", .gt), ("lt", .lt), ("gte", .gte),
    ("lte", .lte), ("contains", .contains)]

def validOperators : List String := operatorNames.map (·.1)

/-- A part of an action: `[a-z][a-z0-9_-]*`. -/
def isActionPart (cs : List Char) : Bool :=
  match cs with
  | [] => false
  | c :: cs => c.isLower && cs.all fun c => c.isLower || c.isDigit || c = '_' || c = '-'

/-- `ACTION_PATTERN.test(action)`: two parts and a colon. -/
def actionPattern (action : String) : Bool :=
  match action.toList.splitOn ':' with
  | [space, name] => isActionPart space && isActionPart name
  | _ => false

/-- `ValidationResult`. -/
structure ValidationResult where
  valid : Bool
  errors : List String
  deriving DecidableEq, Repr

/-- An error, unless a check passes. -/
def errorUnless (passes : Bool) (error : String) : List String := if passes then [] else [error]

/-- `typeof v === 'string' && v.length > 0`. -/
def isNonEmptyString : Val → Bool
  | .str s => s ≠ ""
  | _ => false

/-- Neither `undefined` nor `null`. -/
def isPresent : Val → Bool
  | .undefined => false
  | .null => false
  | _ => true

/-- `typeof v === 'number' && Number.isInteger(v)`. -/
def isInteger : Val → Bool
  | .num (.fin q) => q.den = 1
  | _ => false

/-- `Array.isArray`. -/
def isArray : Val → Bool
  | .arr _ => true
  | _ => false

/-- `items.flatMap((item, i) => check(item, i))`. -/
def checkAll (check : Val → Nat → List String) (items : List Val) : List String :=
  (items.mapIdx fun i item => check item i).flatten

/-- `validateCondition`. -/
def validateCondition (condition : Val) (index : Nat) : List String :=
  let place := "condition[" ++ toString index ++ "]"
  if !condition.truthy || !condition.isObject then [place ++ ": must be an object"]
  else
    errorUnless (isNonEmptyString (condition.get "field"))
        (place ++ ".field: must be a non-empty string") ++
      errorUnless (Js.includesString validOperators (condition.get "operator"))
        (place ++ ".operator: must be one of " ++ String.intercalate ", " validOperators) ++
      errorUnless (isPresent (condition.get "value")) (place ++ ".value: is required")

/-- The check of one action of a rule. -/
def validateAction (place : String) (action : Val) (index : Nat) : List String :=
  errorUnless (action.asString.any actionPattern)
    (place ++ ".actions[" ++ toString index ++ "]: must match pattern 'namespace:action'")

/-- `validateRule`. -/
def validateRule (rule : Val) (index : Nat) : List String :=
  let place := "rule[" ++ toString index ++ "]"
  if !rule.truthy || !rule.isObject then [place ++ ": must be an object"]
  else
    errorUnless (isNonEmptyString (rule.get "id")) (place ++ ".id: must be a non-empty string") ++
      errorUnless (Js.includesString ["allow", "deny"] (rule.get "effect"))
        (place ++ ".effect: must be 'allow' or 'deny'") ++
      (if isArray (rule.get "conditions") then
        (checkAll validateCondition (arrayItems (rule.get "conditions"))).map
          fun e => place ++ "." ++ e
      else [place ++ ".conditions: must be an array"]) ++
      (if (arrayItems (rule.get "actions")).isEmpty then
        [place ++ ".actions: must be a non-empty array"]
      else checkAll (validateAction place) (arrayItems (rule.get "actions"))) ++
      errorUnless (isInteger (rule.get "priority")) (place ++ ".priority: must be an integer")

/-- `validateRules`. -/
def validateRules (rules : Val) : ValidationResult :=
  if isArray rules then
    let errors := checkAll validateRule (arrayItems rules)
    ⟨errors.isEmpty, errors⟩
  else ⟨false, ["rules must be an array"]⟩

/-- `validatePolicyInput`. -/
def validatePolicyInput (input : Val) : ValidationResult :=
  if !input.truthy || !input.isObject then ⟨false, ["policy must be an object"]⟩
  else
    let errors :=
      errorUnless (isNonEmptyString (input.get "id")) "id: must be a non-empty string" ++
        errorUnless (isNonEmptyString (input.get "name")) "name: must be a non-empty string" ++
        (if !isArray (input.get "rules") then ["rules: must be an array"]
        else if (arrayItems (input.get "rules")).isEmpty then
          ["rules: must have at least one rule"]
        else checkAll validateRule (arrayItems (input.get "rules")))
    ⟨errors.isEmpty, errors⟩

/-! ## What is accepted -/

/-- A condition as the evaluator reads it. -/
def PolicyCondition.ofVal (condition : Val) : PolicyCondition where
  field := (condition.get "field").asString.getD ""
  operator :=
    let name := (condition.get "operator").asString.getD ""
    (operatorNames.lookup name).getD (.other name)
  value := condition.get "value"

/-- The conditions of the rules of a policy input. -/
def inputConditions (input : Val) : List PolicyCondition :=
  (arrayItems (input.get "rules")).flatMap fun rule =>
    (arrayItems (rule.get "conditions")).map PolicyCondition.ofVal

theorem errorUnless_eq_nil {passes : Bool} {error : String} :
    errorUnless passes error = [] ↔ passes = true := by
  unfold errorUnless
  cases passes with
  | true => exact ⟨fun _ => rfl, fun _ => rfl⟩
  | false => exact ⟨nofun, nofun⟩

/-- No errors in all, no errors in each. -/
theorem checkAll_eq_nil {check : Val → Nat → List String} {items : List Val}
    (h : checkAll check items = []) : ∀ item ∈ items, ∃ i, check item i = [] := by
  intro item hitem
  obtain ⟨i, hi, rfl⟩ := List.getElem_of_mem hitem
  refine ⟨i, List.flatten_eq_nil_iff.mp h _ ?_⟩
  exact List.mem_mapIdx.mpr ⟨i, hi, rfl⟩

theorem validateCondition_eq_nil {condition : Val} {i : Nat}
    (h : validateCondition condition i = []) :
    isNonEmptyString (condition.get "field") = true ∧
      Js.includesString validOperators (condition.get "operator") = true ∧
      isPresent (condition.get "value") = true := by
  unfold validateCondition at h
  dsimp only at h
  split at h
  · cases h
  · obtain ⟨hfirst, hvalue⟩ := List.append_eq_nil_iff.mp h
    obtain ⟨hfield, hoperator⟩ := List.append_eq_nil_iff.mp hfirst
    exact ⟨errorUnless_eq_nil.mp hfield, errorUnless_eq_nil.mp hoperator,
      errorUnless_eq_nil.mp hvalue⟩

theorem validateRule_eq_nil {rule : Val} {i : Nat} (h : validateRule rule i = []) :
    ∀ condition ∈ arrayItems (rule.get "conditions"), ∃ j, validateCondition condition j = [] := by
  unfold validateRule at h
  dsimp only at h
  split at h
  · cases h
  · obtain ⟨hfirst, -⟩ := List.append_eq_nil_iff.mp h
    obtain ⟨hfirst, -⟩ := List.append_eq_nil_iff.mp hfirst
    obtain ⟨-, hconditions⟩ := List.append_eq_nil_iff.mp hfirst
    split at hconditions
    · exact checkAll_eq_nil (List.map_eq_nil_iff.mp hconditions)
    · cases hconditions

theorem validatePolicyInput_valid {input : Val} (h : (validatePolicyInput input).valid = true) :
    ∀ rule ∈ arrayItems (input.get "rules"), ∃ i, validateRule rule i = [] := by
  unfold validatePolicyInput at h
  split at h
  · cases h
  · obtain ⟨-, hrules⟩ := List.append_eq_nil_iff.mp (List.isEmpty_iff.mp h)
    split at hrules
    · cases hrules
    · split at hrules
      · cases hrules
      · exact checkAll_eq_nil hrules

/-- A condition that passes has one of the operators, and a value. -/
structure PolicyCondition.Checked (c : PolicyCondition) : Prop where
  field : c.field ≠ ""
  operator : ∀ name, c.operator ≠ .other name
  value : isPresent c.value = true

theorem checked_ofVal {condition : Val} {i : Nat} (h : validateCondition condition i = []) :
    (PolicyCondition.ofVal condition).Checked := by
  obtain ⟨hfield, hoperator, hvalue⟩ := validateCondition_eq_nil h
  refine ⟨?_, ?_, hvalue⟩
  · unfold PolicyCondition.ofVal
    cases hget : condition.get "field" with
    | str s =>
      rw [hget] at hfield
      exact of_decide_eq_true hfield
    | _ =>
      rw [hget] at hfield
      cases hfield
  · unfold PolicyCondition.ofVal
    cases hget : condition.get "operator" with
    | str s =>
      rw [hget] at hoperator
      have hmem : s ∈ validOperators := by simpa [Js.includesString] using hoperator
      have hall : ∀ s ∈ validOperators, ∃ op, operatorNames.lookup s = some op ∧
          ∀ name, op ≠ .other name := by
        intro s hs
        simp only [validOperators, operatorNames, List.map_cons, List.map_nil, List.mem_cons,
          List.not_mem_nil, or_false] at hs
        rcases hs with rfl | rfl | rfl | rfl | rfl | rfl | rfl | rfl
        all_goals exact ⟨_, rfl, nofun⟩
      obtain ⟨op, hlookup, hop⟩ := hall s hmem
      show ∀ name, (operatorNames.lookup s).getD (.other s) ≠ .other name
      rw [hlookup]
      exact hop
    | _ =>
      rw [hget] at hoperator
      cases hoperator

/-- All the conditions of an accepted policy have passed. -/
theorem checked_of_valid {input : Val} (h : (validatePolicyInput input).valid = true) :
    ∀ c ∈ inputConditions input, c.Checked := by
  intro c hc
  obtain ⟨rule, hrule, hcondition⟩ := List.mem_flatMap.mp hc
  obtain ⟨condition, hmem, rfl⟩ := List.mem_map.mp hcondition
  obtain ⟨i, hvalid⟩ := validatePolicyInput_valid h rule hrule
  obtain ⟨j, hchecked⟩ := validateRule_eq_nil hvalid condition hmem
  exact checked_ofVal hchecked

end ChainKVM.Gateway
