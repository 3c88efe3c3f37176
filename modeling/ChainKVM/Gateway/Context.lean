import ChainKVM.Gateway.Sample

/-!
# What of the credential the evaluator sees

`evaluateSessionPolicy` does not hand the extracted credential to the
evaluator. `buildEvaluationContext` makes a new object with its issuer, subject
and role, so every other claim is gone before a condition asks for it: an allow
rule that wants `credential.department` never matches, and a deny rule on it
never fires.

The evaluator reads the context through `evaluateCondition` only. Two contexts
on which the conditions of a policy evaluate alike therefore lead to the same
decision (`decision_congr`), and one condition on which they differ is enough
for a policy that tells them apart (`probe`). Together: the policies over a set
of conditions decide alike in both contexts iff the conditions do
(`decisions_agree_iff`).
-/

namespace ChainKVM.Gateway

open Js (Val)

/-! ## Decisions -/

/-- The decision of the evaluator; `none` when it throws. -/
def decisionOf (policy : Policy) (context actions : Val) : Option PolicyEffect :=
  (evaluate policy context actions).map EvaluationResult.decision

/-- The decision of a policy check: a check that fails denies. -/
def PolicyCheck.decision : PolicyCheck → Option PolicyEffect
  | .success _ => some .allow
  | .failure _ => some .deny
  | .thrown => none

/-- The policy's conditions are among the given ones. -/
def Policy.Over (policy : Policy) (conditions : Set PolicyCondition) : Prop :=
  ∀ rule ∈ policy.rules, ∀ c ∈ rule.conditions, c ∈ conditions

/-- The conditions evaluate alike in both contexts. -/
def AlikeOn (conditions : Set PolicyCondition) (context context' : Val) : Prop :=
  ∀ c ∈ conditions, evaluateCondition c context = evaluateCondition c context'

theorem everyCondition_congr {context context' : Val} {cs : List PolicyCondition}
    (h : ∀ c ∈ cs, evaluateCondition c context = evaluateCondition c context') :
    everyCondition context cs = everyCondition context' cs := by
  induction cs with
  | nil => rfl
  | cons c cs ih =>
    have hc := h c List.mem_cons_self
    have hcs := ih fun c hc => h c (List.mem_cons_of_mem _ hc)
    unfold everyCondition
    rw [hc, hcs]

/-- A rule matches alike in contexts on which its conditions evaluate alike. -/
theorem matchesRule_congr {conditions : Set PolicyCondition} {context context' : Val}
    (h : AlikeOn conditions context context') {rule : PolicyRule}
    (hrule : ∀ c ∈ rule.conditions, c ∈ conditions) (actions : Val) :
    matchesRule rule context actions = matchesRule rule context' actions := by
  unfold matchesRule
  rw [everyCondition_congr fun c hc => h c (hrule c hc)]

theorem firstMatch_congr {effect : PolicyEffect} {context context' actions actions' : Val}
    {rules : List PolicyRule}
    (h : ∀ rule ∈ rules, matchesRule rule context actions = matchesRule rule context' actions') :
    firstMatch effect context actions rules = firstMatch effect context' actions' rules := by
  induction rules with
  | nil => rfl
  | cons rule rules ih =>
    have hhead := h rule List.mem_cons_self
    have htail := ih fun r hr => h r (List.mem_cons_of_mem _ hr)
    unfold firstMatch
    rw [hhead, htail]

/-- Requests that match the same rules of a policy get the same decision. -/
theorem decision_congr {policy : Policy} {context context' actions actions' : Val}
    (h : ∀ rule ∈ policy.rules,
      matchesRule rule context actions = matchesRule rule context' actions') :
    decisionOf policy context actions = decisionOf policy context' actions' := by
  have hpass (effect : PolicyEffect) :
      firstMatch effect context actions (sortedRules policy) =
        firstMatch effect context' actions' (sortedRules policy) :=
    firstMatch_congr fun rule hrule => h rule (mem_sortedRules.mp hrule)
  unfold decisionOf evaluate
  rw [hpass .deny, hpass .allow]
  split
  · rfl
  · rfl
  · split <;> rfl

/-- No requested action is a name, so that no rule can list one. -/
def NamesNothing (actions : Val) : Prop := ∀ a ∈ requestedItems actions, a.asString = none

/-- Where no action is named, the context plays no part. -/
theorem matchesRule_of_namesNothing {actions : Val} (h : NamesNothing actions) (rule : PolicyRule)
    (context context' : Val) :
    matchesRule rule context actions = matchesRule rule context' actions := by
  cases actions with
  | arr items =>
    have hnone : items.any (Js.includesString rule.actions) = false := by
      rw [List.any_eq_false]
      intro a ha
      have hname := h a ha
      cases a <;> simp_all [Js.includesString, Val.asString]
    have hfalse (v : Val) : matchesRule rule v (.arr items) = some false :=
      if_neg (by simp [hnone])
    rw [hfalse, hfalse]
  | _ => rfl

/-! ## Probes -/

/-- A policy that allows one action under one condition. -/
def probe (c : PolicyCondition) (action : String) : Policy :=
  ⟨defaultPolicyId, 1, [⟨"probe", .allow, [c], [action], 0⟩], ""⟩

theorem probe_over {conditions : Set PolicyCondition} {c : PolicyCondition} (hc : c ∈ conditions)
    (action : String) : (probe c action).Over conditions := by
  intro rule hrule c' hc'
  obtain rfl := List.mem_singleton.mp hrule
  obtain rfl := List.mem_singleton.mp hc'
  exact hc

/-- A rule for one action that is requested asks its conditions. -/
theorem matchesRule_of_named {rule : PolicyRule} {action : String} {items : List Val}
    (hactions : rule.actions = [action]) (hnamed : .str action ∈ items) (context : Val) :
    matchesRule rule context (.arr items) = everyCondition context rule.conditions := by
  have hany : items.any (Js.includesString rule.actions) = true := by
    refine List.any_eq_true.mpr ⟨_, hnamed, ?_⟩
    rw [hactions]
    simp [Js.includesString]
  show (if items.any (Js.includesString rule.actions) = true then
    everyCondition context rule.conditions else some false) = _
  rw [if_pos hany]

theorem everyCondition_singleton (context : Val) (c : PolicyCondition) :
    everyCondition context [c] = evaluateCondition c context := by
  unfold everyCondition
  cases evaluateCondition c context with
  | none => rfl
  | some holds => cases holds <;> rfl

/-- A probe shows how its condition evaluates. -/
theorem decisionOf_probe (c : PolicyCondition) {action : String} {items : List Val}
    (hnamed : .str action ∈ items) (context : Val) :
    decisionOf (probe c action) context (.arr items) =
      (evaluateCondition c context).map fun holds => if holds then .allow else .deny := by
  have hmatch : matchesRule ⟨"probe", .allow, [c], [action], 0⟩ context (.arr items) =
      evaluateCondition c context :=
    (matchesRule_of_named rfl hnamed context).trans (everyCondition_singleton context c)
  have hdeny : firstMatch .deny context (.arr items) (sortedRules (probe c action)) = some none :=
    rfl
  have hallow : firstMatch .allow context (.arr items) (sortedRules (probe c action)) =
      (evaluateCondition c context).map fun holds =>
        if holds then some ⟨"probe", .allow, [c], [action], 0⟩ else none := by
    have hsorted : sortedRules (probe c action) = [⟨"probe", .allow, [c], [action], 0⟩] := rfl
    rw [hsorted]
    unfold firstMatch
    rw [if_pos rfl, hmatch]
    cases evaluateCondition c context with
    | none => rfl
    | some holds => cases holds <;> rfl
  unfold decisionOf evaluate
  rw [hdeny]
  dsimp only
  rw [hallow]
  cases evaluateCondition c context with
  | none => rfl
  | some holds => cases holds <;> rfl

/-- Probes of one condition decide alike only where it evaluates alike. -/
theorem evaluateCondition_of_probe {c : PolicyCondition} {action : String}
    {items items' : List Val} (hnamed : .str action ∈ items) (hnamed' : .str action ∈ items')
    {context context' : Val}
    (h : decisionOf (probe c action) context (.arr items) =
      decisionOf (probe c action) context' (.arr items')) :
    evaluateCondition c context = evaluateCondition c context' := by
  rw [decisionOf_probe c hnamed, decisionOf_probe c hnamed'] at h
  refine Option.map_injective (fun a b hab => ?_) h
  cases a <;> cases b <;> simp_all

/-- Some action is named, or none is. -/
theorem exists_name {actions : Val} (h : ¬ NamesNothing actions) :
    ∃ action items, actions = .arr items ∧ .str action ∈ items := by
  unfold NamesNothing at h
  push Not at h
  obtain ⟨a, ha, hname⟩ := h
  cases actions with
  | arr items =>
    cases a with
    | str action => exact ⟨action, items, rfl, ha⟩
    | _ => exact absurd rfl hname
  | _ => cases ha

/-- The policies over a set of conditions decide alike in two contexts iff the
conditions evaluate alike in them, or nothing is asked for. -/
theorem decisions_agree_iff {conditions : Set PolicyCondition} {context context' actions : Val} :
    (∀ policy : Policy, policy.Over conditions →
        decisionOf policy context actions = decisionOf policy context' actions) ↔
      NamesNothing actions ∨ AlikeOn conditions context context' := by
  constructor
  · intro h
    by_cases hnames : NamesNothing actions
    · exact .inl hnames
    · obtain ⟨action, items, rfl, hmem⟩ := exists_name hnames
      exact .inr fun c hc => evaluateCondition_of_probe hmem hmem (h _ (probe_over hc action))
  · rintro (hnames | halike) policy hover
    · exact decision_congr fun rule _ => matchesRule_of_namesNothing hnames rule context context'
    · exact decision_congr fun rule hrule => matchesRule_congr halike (hover rule hrule) actions

/-! ## The context of a session -/

/-- A context with a credential; resource and action come from the request. -/
def contextWith (credential : Val) (now : Int) (robotId action : Val) : Val :=
  .obj [
    ("credential", credential),
    ("context", .obj [("time", .date now), ("resource", robotId), ("action", action)])]

/-- What `buildEvaluationContext` keeps of a credential. -/
def keptOf (credential : EvaluationCredential) : Val :=
  .obj [
    ("issuer", credential.get "issuer"),
    ("subject", credential.get "subject"),
    ("role", credential.get "role")]

theorem buildEvaluationContext_eq (credential : EvaluationCredential) (now : Int)
    (robotId requestedScope : Val) :
    buildEvaluationContext credential now robotId requestedScope =
      contextWith (keptOf credential) now robotId (firstAction requestedScope) := rfl

/-- The context with the credential as it was extracted. -/
def fullContext (credential : EvaluationCredential) (now : Int) (robotId requestedScope : Val) :
    Val :=
  contextWith credential.toVal now robotId (firstAction requestedScope)

/-- The context with a credential that claims nothing. -/
def bareContext (now : Int) (robotId requestedScope : Val) : Val :=
  contextWith (.obj []) now robotId (firstAction requestedScope)

/-- Once the credential is extracted and the default policy is there, the check
decides as the evaluator does. -/
theorem evaluateSessionPolicy_decision {jose : Jose} {vcOrVp : Val}
    {credential : EvaluationCredential} {store : PolicyStore} {policy : Policy}
    (hextracted : extractCredentialForPolicy jose vcOrVp = .ok credential)
    (hstored : store.get defaultPolicyId = some policy) (now : Int)
    (robotId requestedScope : Val) :
    (evaluateSessionPolicy jose now vcOrVp robotId requestedScope true (some store)).decision =
      decisionOf policy (buildEvaluationContext credential now robotId requestedScope)
        requestedScope := by
  unfold evaluateSessionPolicy decisionOf
  dsimp only
  rw [hextracted]
  dsimp only
  rw [hstored]
  dsimp only
  cases evaluate policy (buildEvaluationContext credential now robotId requestedScope)
      requestedScope with
  | none => rfl
  | some result =>
    dsimp only
    cases hdecision : result.decision with
    | allow => simp [PolicyCheck.decision, hdecision]
    | deny => simp [PolicyCheck.decision, hdecision]

/-- A store with one default policy. -/
theorem exists_store (policy : Policy) :
    ∃ store : PolicyStore, store.get defaultPolicyId = some policy :=
  ⟨⟨OrdMap.empty.set defaultPolicyId policy⟩, OrdMap.get_set_self _ _ _⟩

/-! ## What is dropped -/

/-- The claims that reach the evaluator. -/
def keptNames : List String := ["issuer", "subject", "role"]

/-- A field that does not read the credential, or reads one of the claims that
are kept. -/
def keepsField (field : String) : Bool :=
  match pathParts field with
  | "credential" :: name :: _ => keptNames.contains name
  | "credential" :: [] => false
  | _ => true

theorem getFieldValue_credential {field : String} {parts : List String}
    (hparts : pathParts field = "credential" :: parts) (credential : Val) (now : Int)
    (robotId action : Val) :
    getFieldValue field (contextWith credential now robotId action) = getParts parts credential := by
  unfold getFieldValue
  rw [hparts]
  rfl

/-- Outside the credential, the credential plays no part. -/
theorem getFieldValue_other {field root : String} {parts : List String}
    (hparts : pathParts field = root :: parts) (hroot : root ≠ "credential")
    (credential credential' : Val) (now : Int) (robotId action : Val) :
    getFieldValue field (contextWith credential now robotId action) =
      getFieldValue field (contextWith credential' now robotId action) := by
  have hget (v : Val) : (contextWith v now robotId action).get root =
      (contextWith .undefined now robotId action).get root := by
    have hne : (root == "credential") = false := by simpa using hroot
    simp only [contextWith, Val.get, Val.find, List.lookup_cons, hne, Val.getPrototypeOf]
  unfold getFieldValue
  rw [hparts]
  show getParts parts _ = getParts parts _
  rw [hget credential, hget credential']

theorem evaluateCondition_congr {c : PolicyCondition} {context context' : Val}
    (h : getFieldValue c.field context = getFieldValue c.field context') :
    evaluateCondition c context = evaluateCondition c context' := by
  unfold evaluateCondition
  rw [h]

theorem plain_of_kept {name : String} (h : name ∈ keptNames) :
    EvaluationCredential.Plain name := by
  have hindex : ∀ n : Nat, toString n ≠ name := by
    rintro n rfl
    have hdigits : (toString n).toList.all Char.isDigit = true := by
      refine List.all_eq_true.mpr fun c hc => ?_
      rw [show (toString n).toList = Nat.toDigits 10 n from String.toList_ofList] at hc
      exact Nat.isDigit_of_mem_toDigits (by decide) (by decide) hc
    simp only [keptNames, List.mem_cons, List.not_mem_nil, or_false] at h
    rcases h with h | h | h
    · rw [h] at hdigits
      exact absurd hdigits (by decide)
    · rw [h] at hdigits
      exact absurd hdigits (by decide)
    · rw [h] at hdigits
      exact absurd hdigits (by decide)
  refine ⟨?_, hindex, ?_⟩
  · rintro rfl
    exact absurd h (by decide)
  · simp only [keptNames, List.mem_cons, List.not_mem_nil, or_false] at h
    intro p
    rcases h with rfl | rfl | rfl <;> cases p <;> decide +kernel

/-- The kept claims read as in the whole credential. -/
theorem keptOf_get {name : String} (h : name ∈ keptNames) (credential : EvaluationCredential) :
    (keptOf credential).get name = credential.toVal.get name := by
  rw [EvaluationCredential.toVal_get (plain_of_kept h)]
  simp only [keptNames, List.mem_cons, List.not_mem_nil, or_false] at h
  rcases h with rfl | rfl | rfl
  · rfl
  · rfl
  · rfl

/-- Under any other name it reads as an empty object. -/
theorem keptOf_get_other {name : String} (h : name ∉ keptNames)
    (credential : EvaluationCredential) :
    (keptOf credential).get name = (Val.obj []).get name := by
  have hfind : (keptOf credential).find name = (Val.obj []).find name := by
    show (List.lookup name _).or _ = (List.lookup name []).or _
    have hlookup : List.lookup name [("issuer", credential.get "issuer"),
        ("subject", credential.get "subject"), ("role", credential.get "role")] = none := by
      refine EvaluationCredential.lookup_eq_none_of_ne fun e he => ?_
      rintro rfl
      refine h ?_
      simp only [List.mem_cons, List.not_mem_nil, or_false] at he
      rcases he with rfl | rfl | rfl <;> simp [keptNames]
    rw [hlookup]
    rfl
  unfold Val.get
  rw [hfind]
  rfl

/-- Of an object as a whole a condition sees at most whether it converts to a
text. -/
theorem evaluateCondition_obj {c : PolicyCondition} {context context' : Val}
    {members members' : List (String × Val)}
    (hfield : getFieldValue c.field context = .obj members)
    (hfield' : getFieldValue c.field context' = .obj members')
    (htext : (members.lookup "toString").isSome = (members'.lookup "toString").isSome) :
    evaluateCondition c context = evaluateCondition c context' := by
  have hprimitive : (Val.obj members).toPrimitive = (Val.obj members').toPrimitive := by
    unfold Val.toPrimitive
    rw [htext]
  have horder : (Val.obj members).order c.value = (Val.obj members').order c.value := by
    unfold Val.order
    rw [hprimitive]
  have heq (ms : List (String × Val)) : (Val.obj ms).strictEq c.value = false :=
    strictEq_of_isObject rfl c.value
  have hin (ms : List (String × Val)) : isIn (.obj ms) c.value = false :=
    isIn_of_isObject rfl c.value
  unfold evaluateCondition
  rw [hfield, hfield']
  cases hop : c.operator with
  | eq => simp only [heq]
  | neq => simp only [heq]
  | inList => simp only [hin]
  | gt => simp only [horder]
  | lt => simp only [horder]
  | gte => simp only [horder]
  | lte => simp only [horder]
  | contains => rfl
  | other name => rfl

section Contexts

variable {credential : EvaluationCredential} {c : PolicyCondition} (now : Int)
  (robotId requestedScope : Val)

/-- On a field that is kept, a condition sees what it would see of the whole
credential. -/
theorem evaluateCondition_kept (h : keepsField c.field = true) :
    evaluateCondition c (buildEvaluationContext credential now robotId requestedScope) =
      evaluateCondition c (fullContext credential now robotId requestedScope) := by
  refine evaluateCondition_congr ?_
  rw [buildEvaluationContext_eq]
  unfold fullContext
  cases hparts : pathParts c.field with
  | nil => exact absurd hparts (pathParts_ne_nil c.field)
  | cons root parts =>
    by_cases hroot : root = "credential"
    · subst hroot
      rw [getFieldValue_credential hparts, getFieldValue_credential hparts]
      unfold keepsField at h
      rw [hparts] at h
      cases parts with
      | nil => cases h
      | cons name rest =>
        have hname : name ∈ keptNames := by simpa using h
        show getParts rest ((keptOf credential).get name) = getParts rest (credential.toVal.get name)
        rw [keptOf_get hname]
    · exact getFieldValue_other hparts hroot _ _ _ _ _

/-- On any other field it sees what a credential without claims shows. -/
theorem evaluateCondition_dropped (h : keepsField c.field = false) :
    evaluateCondition c (buildEvaluationContext credential now robotId requestedScope) =
      evaluateCondition c (bareContext now robotId requestedScope) := by
  rw [buildEvaluationContext_eq]
  unfold bareContext
  unfold keepsField at h
  split at h
  next name rest hparts =>
    have hname : name ∉ keptNames := by simpa using h
    refine evaluateCondition_congr ?_
    rw [getFieldValue_credential hparts, getFieldValue_credential hparts]
    show getParts rest ((keptOf credential).get name) = getParts rest ((Val.obj []).get name)
    rw [keptOf_get_other hname]
  next hparts =>
    exact evaluateCondition_obj (getFieldValue_credential hparts _ _ _ _)
      (getFieldValue_credential hparts _ _ _ _) rfl
  · cases h

end Contexts

/-! ## Where the decisions part -/

namespace Sample

/-- An operator on a visit. -/
def visitorSubject : Val :=
  .obj [("role", .str "operator"), ("department", .str "visitors")]

def visitorPayload : Claims :=
  [("iss", .str issuer), ("sub", .str operator),
    ("vc", .obj [("credentialSubject", visitorSubject)])]

/-- Every text is the visitor's credential. -/
def visitorJose : Jose := { jose with decodeJwt := fun _ => some visitorPayload }

def visitor : EvaluationCredential :=
  buildEvaluationCredential (.str issuer) (.str operator) visitorSubject

def noVisitors : PolicyCondition := ⟨"credential.department", .eq, .str "visitors"⟩

/-- The default policy with a rule against visitors. -/
def visitorPolicy : Policy :=
  { policy with rules := ⟨"deny-visitors", .deny, [noVisitors], ["teleop:control"], 10⟩ ::
      defaultPolicyRules }

def visitorStore : PolicyStore := ⟨OrdMap.empty.set "default-policy" visitorPolicy⟩

def control : Val := .arr [.str "teleop:control"]

theorem visitor_extracted : extractCredentialForPolicy visitorJose (.str credential) =
    .ok visitor := by
  refine extract_ok_iff.mpr ⟨credential, visitorPayload, rfl, by simp [credential], rfl,
    ?_, ?_, ?_, rfl⟩
  · decide +kernel
  · decide +kernel
  · decide +kernel

end Sample

end ChainKVM.Gateway
