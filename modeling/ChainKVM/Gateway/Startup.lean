import ChainKVM.Gateway.Approval
import ChainKVM.Gateway.Evaluation
import ChainKVM.Gateway.PolicyStore

/-!
# What `main` sets up: the default policy of `index.ts`

A gateway starts with one policy, which `main` creates in an empty store, and
no route changes the store afterwards. `evaluateSessionPolicy` is worked out
for this policy (`main_success_iff`): a request passes iff its credential can be
extracted, the role that it gives is one of two, and the scope that is asked
for is an array with one of three actions in it. What else the scope contains
is not looked at, and is granted too.

So whoever is handed a token was an operator or an admin by the credential of
some request for the same robot and the same scope (`ForOperator`).
-/

namespace ChainKVM.Gateway

open Js (Val)

/-! ## The policy -/

/-- The actions of `defaultPolicyRules`. -/
def teleopActions : List String := ["teleop:view", "teleop:control", "teleop:estop"]

/-- Its one condition. -/
def roleCondition : PolicyCondition :=
  ⟨"credential.role", .inList, .arr [.str "operator", .str "admin"]⟩

/-- `defaultPolicyRules`. -/
def defaultPolicyRules : List PolicyRule :=
  [⟨"allow-operators", .allow, [roleCondition], teleopActions, 100⟩]

/-- What `main` gives to `policyStore.create`. -/
def defaultPolicyInput : CreatePolicyInput (List PolicyRule) :=
  ⟨defaultPolicyId, "Default Teleoperation Policy", none, defaultPolicyRules⟩

/-- The policy store once `main` has set it up. -/
def mainStore (computeRulesHash : List PolicyRule → String) (now : Int) :
    VersionedStore (List PolicyRule) :=
  (VersionedStore.empty.create computeRulesHash ⟨none⟩ now defaultPolicyInput).2

/-- The policy in it, as the evaluator sees it. -/
def defaultPolicy (computeRulesHash : List PolicyRule → String) : Policy :=
  ⟨defaultPolicyId, 1, defaultPolicyRules, computeRulesHash defaultPolicyRules⟩

/-- What the routes see of a store. -/
def VersionedStore.view (s : VersionedStore (List PolicyRule)) : PolicyStore where
  policies :=
    { entries := s.policies.entries.map fun e => (e.1, e.2.policy id)
      nodup := by
        rw [List.map_map]
        exact s.policies.nodup }

/-- A deployment whose policy modules are those that `main` gives to the
routes. -/
structure Deployment.FromMain (d : Deployment) (computeRulesHash : List PolicyRule → String) :
    Prop where
  policyEvaluator : d.modules.policyEvaluator = true
  policyStore : ∃ now, d.modules.policyStore = some (mainStore computeRulesHash now).view

/-! ## What it allows -/

/-- The roles that the condition lists. -/
def IsOperator (role : Val) : Prop := role = .str "operator" ∨ role = .str "admin"

/-- Some requested action is one of the three. -/
def AsksTeleop (items : List Val) : Prop := ∃ action ∈ teleopActions, Val.str action ∈ items

/-- The credential can be extracted and gives one of the two roles. -/
def SaysOperator (jose : Jose) (vcOrVp : Val) : Prop :=
  ∃ credential, extractCredentialForPolicy jose vcOrVp = .ok credential ∧
    IsOperator (credential.get "role")

theorem isIn_roles (role : Val) :
    isIn role roleCondition.value = true ↔ IsOperator role := by
  have hsame (s : String) : (Val.str s).sameValueZero role = true ↔ role = .str s := by
    cases role <;> simp [Val.sameValueZero, Val.strictEq, eq_comm]
  simp [isIn_iff, roleCondition, arrayItems, hsame, IsOperator]

theorem any_includes_iff (items : List Val) :
    items.any (Js.includesString teleopActions) = true ↔ AsksTeleop items := by
  rw [List.any_eq_true]
  constructor
  · rintro ⟨item, hitem, hin⟩
    cases item with
    | str action => exact ⟨action, List.contains_iff_mem.mp hin, hitem⟩
    | _ => cases hin
  · rintro ⟨action, haction, hitem⟩
    exact ⟨.str action, hitem, List.contains_iff_mem.mpr haction⟩

/-- The condition reads the role that reaches the evaluator. -/
theorem evaluate_roleCondition (credential : EvaluationCredential) (now : Int)
    (robotId requestedScope : Val) :
    evaluateCondition roleCondition
        (buildEvaluationContext credential now robotId requestedScope) =
      some (isIn (credential.get "role") roleCondition.value) := by
  have hfield : getFieldValue roleCondition.field
      (buildEvaluationContext credential now robotId requestedScope) = credential.get "role" := by
    have hparts : pathParts roleCondition.field = ["credential", "role"] := by decide +kernel
    unfold getFieldValue
    rw [hparts]
    rfl
  unfold evaluateCondition
  rw [hfield]
  generalize credential.get "role" = role
  cases role <;> rfl

/-- The one rule matches iff a teleop action is asked for by an operator. -/
theorem matches_default (credential : EvaluationCredential) (now : Int)
    (robotId requestedScope : Val) {rule : PolicyRule} (hrule : rule ∈ defaultPolicyRules) :
    matchesRule rule (buildEvaluationContext credential now robotId requestedScope)
        requestedScope = some true ↔
      ∃ items, requestedScope = .arr items ∧ AsksTeleop items ∧
        IsOperator (credential.get "role") := by
  obtain rfl := List.mem_singleton.mp hrule
  cases requestedScope with
  | arr items =>
    simp only [Val.arr.injEq, exists_eq_left']
    unfold matchesRule
    dsimp only
    by_cases hasks : AsksTeleop items
    · rw [if_pos ((any_includes_iff items).mpr hasks)]
      unfold everyCondition
      rw [evaluate_roleCondition]
      cases hrole : isIn (credential.get "role") roleCondition.value with
      | true => exact ⟨fun _ => ⟨hasks, (isIn_roles _).mp hrole⟩, fun _ => rfl⟩
      | false =>
        refine ⟨nofun, fun h => ?_⟩
        rw [(isIn_roles _).mpr h.2] at hrole
        cases hrole
    · rw [if_neg fun h => hasks ((any_includes_iff items).mp h)]
      exact ⟨nofun, fun h => absurd h.1 hasks⟩
  | _ => exact ⟨nofun, nofun⟩

/-- The policy check of a gateway as `main` starts it. -/
theorem main_success_iff {jose : Jose} {now at₀ : Int} {vcOrVp robotId requestedScope : Val}
    {computeRulesHash : List PolicyRule → String} {info : PolicyInfo} :
    evaluateSessionPolicy jose now vcOrVp robotId requestedScope true
        (some (mainStore computeRulesHash at₀).view) = .success info ↔
      SaysOperator jose vcOrVp ∧ (∃ items, requestedScope = .arr items ∧ AsksTeleop items) ∧
        info = ⟨defaultPolicyId, "1", computeRulesHash defaultPolicyRules⟩ := by
  have hstored : (mainStore computeRulesHash at₀).view.get defaultPolicyId =
      some (defaultPolicy computeRulesHash) := rfl
  have hversion : toString 1 = "1" := by decide
  rw [← hversion, evaluateSessionPolicy_success_iff]
  constructor
  · rintro ⟨credential, policy, result, h, rfl⟩
    obtain rfl := Option.some.inj (hstored.symm.trans h.stored)
    obtain ⟨-, rule, hrule, -, hmatches⟩ := (allow_iff h.evaluated).mp h.allowed
    obtain ⟨items, hitems, hasks, hrole⟩ := (matches_default credential now robotId _ hrule).mp hmatches
    exact ⟨⟨credential, h.extracted, hrole⟩, ⟨items, hitems, hasks⟩, rfl⟩
  · rintro ⟨⟨credential, hextracted, hrole⟩, ⟨items, rfl, hasks⟩, rfl⟩
    have hmatches := (matches_default credential now robotId (.arr items)
      (List.mem_singleton_self _)).mpr ⟨items, rfl, hasks, hrole⟩
    obtain ⟨result, hresult⟩ : ∃ result, evaluate (defaultPolicy computeRulesHash)
        (buildEvaluationContext credential now robotId (.arr items)) (.arr items) = some result := by
      refine Option.ne_none_iff_exists'.mp fun hnone => ?_
      obtain ⟨rule, hrule, hthrows⟩ := throws_of_evaluate hnone
      obtain rfl := List.mem_singleton.mp hrule
      rw [hmatches] at hthrows
      cases hthrows
    refine ⟨credential, _, result, ⟨hextracted, hstored, hresult, ?_⟩, rfl⟩
    refine (allow_iff hresult).mpr ⟨fun rule hrule hdeny => ?_, _, List.mem_singleton_self _, rfl,
      hmatches⟩
    obtain rfl := List.mem_singleton.mp hrule
    cases hdeny

/-! ## Who is handed a token -/

/-- A request of this operator for this robot and this scope came with a
credential that gives one of the two roles, and asked for a teleop action. -/
structure ForOperator (jose : Jose) (operatorDid robotId scope body : Val) : Prop where
  same_operator : body.member "operator_did" = operatorDid
  same_robot : body.member "robot_id" = robotId
  same_scope : requestedScope body = scope
  role : SaysOperator jose (body.member "vc_or_vp")
  asks : ∃ items, scope = .arr items ∧ AsksTeleop items

/-- What such a gateway has approved, it has approved for an operator. -/
theorem Deployment.FromMain.forOperator {d : Deployment}
    {computeRulesHash : List PolicyRule → String} (hmain : d.FromMain computeRulesHash) {now : Int}
    {operatorDid robotId scope : Val} (h : Approved d now operatorDid robotId scope) :
    ∃ body, ForOperator d.jose operatorDid robotId scope body := by
  obtain ⟨body, t, info, -, hoperator, hrobot, hscope, hsuccess⟩ := h
  obtain ⟨at₀, hstore⟩ := hmain.policyStore
  rw [hmain.policyEvaluator, hstore] at hsuccess
  obtain ⟨hrole, hasks, -⟩ := main_success_iff.mp hsuccess
  exact ⟨body, hoperator, hrobot, hscope, hrole, hasks⟩

end ChainKVM.Gateway
