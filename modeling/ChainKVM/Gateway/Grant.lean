import ChainKVM.Gateway.Sample

/-!
# What a session is granted

Two properties of every session that `POST /v1/sessions` grants while an
evaluator and a policy store are configured: its scope is within what the
evaluator allowed (`scope_within_iff`), and its operator is the subject of a
credential that the verifier accepts (`operator_verified_iff`).

The handler checks neither. It takes the evaluator's decision, but the scope
from the request; and it takes issuer and role from a credential that has only
been decoded, but the operator from the request. So each property holds of
exactly those requests that do not depend on the missing check.
-/

namespace ChainKVM.Gateway

open Js (Val)

/-! ## The scope -/

/-- The scope that a request asks for. -/
def requestedScope (body : Val) : Val := (body.member "requested_scope").nullish defaultScope

/-- The context in which the evaluator decides about a request. -/
def contextOf (credential : EvaluationCredential) (now : Int) (body : Val) : Val :=
  buildEvaluationContext credential now (body.member "robot_id") (requestedScope body)

/-- What the evaluator answers for a request. -/
def evaluationOf (jose : Jose) (now : Int) (store : PolicyStore) (body : Val) :
    Option EvaluationResult :=
  match extractCredentialForPolicy jose (body.member "vc_or_vp"), store.get defaultPolicyId with
  | .ok credential, some policy =>
    evaluate policy (contextOf credential now body) (requestedScope body)
  | _, _ => none

theorem evaluationOf_eq (now : Int) (body : Val) {jose : Jose} {store : PolicyStore}
    {credential : EvaluationCredential} {policy : Policy}
    (hextracted : extractCredentialForPolicy jose (body.member "vc_or_vp") = .ok credential)
    (hstored : store.get defaultPolicyId = some policy) :
    evaluationOf jose now store body =
      evaluate policy (contextOf credential now body) (requestedScope body) := by
  unfold evaluationOf
  rw [hextracted, hstored]

/-- All actions of the scope are among those the evaluator allowed. -/
def Within (scope : Val) (result : EvaluationResult) : Prop :=
  ∃ items, scope = .arr items ∧ ∀ a ∈ items, a ∈ result.allowedActions

/-- The allow rule that decides the request lists every action it asks for. -/
def AllListed (jose : Jose) (now : Int) (store : PolicyStore) (body : Val) : Prop :=
  ∃ credential policy rule,
    extractCredentialForPolicy jose (body.member "vc_or_vp") = .ok credential ∧
    store.get defaultPolicyId = some policy ∧ rule.effect = .allow ∧
    Decides policy (contextOf credential now body) (requestedScope body) rule ∧
    ∀ a ∈ requestedItems (requestedScope body), Js.includesString rule.actions a = true

section Granted

variable {d : Deployment} {s t : State} {hostname : String} {body : Val} {sid : String}
  {uuids : Uuids} {call : CreateCall} {store : PolicyStore}

/-- A request that is granted a session has passed the evaluator. -/
theorem passed_of_startCreate (hevaluator : d.modules.policyEvaluator = true)
    (hstore : d.modules.policyStore = some store)
    (hstart : startCreate d s hostname body sid uuids = .inr call) :
    ∃ credential policy result, Passed d.jose store s.now (body.member "vc_or_vp")
      (body.member "robot_id") (requestedScope body) credential policy result := by
  have hstarted := startCreate_inr hstart
  have hpassed := hstarted.passed
  rw [hevaluator, hstore, hstarted.same_robot, hstarted.same_scope] at hpassed
  obtain ⟨credential, policy, result, h, -⟩ := evaluateSessionPolicy_success_iff.mp hpassed
  exact ⟨credential, policy, result, h⟩

/-- The scope of a granted session is within what the evaluator allowed, in the
token and in the reply, iff the rule that allowed the request lists all its
actions. -/
theorem scope_within_iff (hevaluator : d.modules.policyEvaluator = true)
    (hstore : d.modules.policyStore = some store)
    (hstart : startCreate d s hostname body sid uuids = .inr call) :
    ∃ result response, evaluationOf d.jose s.now store body = some result ∧
      (finishCreate d t call).1 = .created response ∧
      response.capability_token = d.sign call.claims ∧
      (Within call.claims.scope result ∧ Within response.effective_scope result ↔
        AllListed d.jose s.now store body) := by
  obtain ⟨credential, policy, result, hpassed⟩ := passed_of_startCreate hevaluator hstore hstart
  obtain ⟨rule, items, hitems, heffect, hdecides, hallowed⟩ :=
    evaluate_allow hpassed.evaluated hpassed.allowed
  have hstarted := startCreate_inr hstart
  have hscope : call.effectiveScope = requestedScope body := hstarted.same_scope
  have htoken : call.claims.scope = requestedScope body := by
    rw [hstarted.claims]
    exact hscope
  have heval : evaluationOf d.jose s.now store body = some result := by
    rw [evaluationOf_eq _ _ hpassed.extracted hpassed.stored]
    exact hpassed.evaluated
  refine ⟨result, buildSessionResponse d call, heval, rfl, rfl, ?_⟩
  -- token and reply carry the scope that was requested
  have hreply : (buildSessionResponse d call).effective_scope = requestedScope body := hscope
  rw [htoken, hreply, and_self]
  constructor
  · rintro ⟨items', hitems', hwithin⟩
    refine ⟨credential, policy, rule, hpassed.extracted, hpassed.stored, heffect, hdecides, ?_⟩
    intro a ha
    rw [hitems'] at ha
    have hmem := hwithin a ha
    rw [hallowed] at hmem
    exact (mem_intersectActions.mp hmem).2
  · rintro ⟨credential', policy', rule', hextracted, hstored, heffect', hdecides', hlisted⟩
    obtain rfl : credential = credential' :=
      Except.ok.inj (hpassed.extracted.symm.trans hextracted)
    obtain rfl : policy = policy' := Option.some.inj (hpassed.stored.symm.trans hstored)
    obtain rfl : rule = rule' := hdecides.unique hdecides' (heffect.trans heffect'.symm)
    refine ⟨items, hitems, fun a ha => ?_⟩
    rw [hallowed]
    rw [hitems] at hlisted
    exact mem_intersectActions.mpr ⟨ha, hlisted a ha⟩

end Granted

/-- The two actions that the sample session is for are both listed. -/
theorem scope_within_sample :
    ∃ result response,
      evaluationOf Sample.gateway.jose Sample.start.now Sample.store
        (Sample.body Sample.credential Sample.teleop) = some result ∧
      (finishCreate Sample.gateway Sample.start (Sample.call Sample.teleop)).1 =
        .created response ∧
      response.capability_token = Sample.gateway.sign (Sample.call Sample.teleop).claims ∧
      (Within (Sample.call Sample.teleop).claims.scope result ∧
          Within response.effective_scope result ↔
        AllListed Sample.gateway.jose Sample.start.now Sample.store
          (Sample.body Sample.credential Sample.teleop)) :=
  scope_within_iff rfl rfl (Sample.startCreate_body _ _ (.inl rfl) Sample.evaluation_teleop)

/-- A scope that names one action of the rule gets any other action with it. -/
theorem scope_within_fails :
    ¬ ∀ (d : Deployment) (s t : State) (hostname : String) (body : Val) (sid : String)
      (uuids : Uuids) (call : CreateCall) (store : PolicyStore),
      d.modules.policyEvaluator = true → d.modules.policyStore = some store →
      startCreate d s hostname body sid uuids = .inr call →
      ∃ result response, evaluationOf d.jose s.now store body = some result ∧
        (finishCreate d t call).1 = .created response ∧
        Within call.claims.scope result ∧ Within response.effective_scope result := by
  intro h
  have hstart := Sample.startCreate_body Sample.credential ["teleop:view", "admin:all"] (.inl rfl)
    (by decide +kernel)
  obtain ⟨result, -, heval, -, ⟨items, hitems, hwithin⟩, -⟩ :=
    h Sample.gateway Sample.start Sample.start _ _ _ _ _ Sample.store rfl rfl hstart
  cases hitems
  have hallowed := hwithin (.str "admin:all") (by simp)
  -- the evaluator did not allow it
  have hevaluation := evaluationOf_eq Sample.now
    (Sample.body Sample.credential ["teleop:view", "admin:all"]) (Sample.extracted (.inl rfl))
    (rfl : Sample.store.get defaultPolicyId = some Sample.policy)
  have hnot : ((evaluate Sample.policy (contextOf Sample.operatorCredential Sample.now
      (Sample.body Sample.credential ["teleop:view", "admin:all"]))
      (requestedScope (Sample.body Sample.credential ["teleop:view", "admin:all"]))).map
        fun result => result.allowedActions.any fun a => a.strictEq (.str "admin:all")) =
          some false := by
    decide +kernel
  rw [← hevaluation] at hnot
  change evaluationOf Sample.jose Sample.now Sample.store _ = _ at heval
  rw [heval, Option.map_some, Option.some.injEq, List.any_eq_false] at hnot
  exact hnot _ hallowed (by decide)

/-! ## The operator -/

/-- The credential verifies, at a time in ms, under the trusted key that it
names. -/
def Verifies (jose : Jose) (options : JwtVcVerifierOptions) (now : Int) (text : String) : Prop :=
  ∃ key payload, TrustedKey jose options text key ∧
    jose.jwtVerify now text key supportedAlgorithms (clockTolerance options.clockSkewMs) =
      .ok payload

/-- The payload that `jwtVerify` returns is the one that `decodeJwt` reads. -/
def Jose.Decodes (jose : Jose) : Prop :=
  ∀ (now : Int) (text : String) (key : jose.Key) (algorithms : List String) (tolerance : Int)
    (payload : Claims), jose.jwtVerify now text key algorithms tolerance = .ok payload →
      jose.decodeJwt text = some payload

/-- Of a credential with a `vc` claim, the verifier accepts what verifies. -/
theorem verify_isOk_of_vc {jose : Jose} (hjose : jose.Decodes) {options : JwtVcVerifierOptions}
    {now : Int} {text : String} {payload : Claims} (hdecode : jose.decodeJwt text = some payload)
    (hvc : (payload.get "vc").truthy = true) :
    (verify jose options now text).isOk = true ↔ Verifies jose options now text := by
  rw [verify_isOk_iff]
  constructor
  · intro h
    obtain ⟨key, verified, hkey, hverify, -⟩ := h
    exact ⟨key, verified, hkey, hverify⟩
  · intro h
    obtain ⟨key, verified, hkey, hverify⟩ := h
    have hsame := hjose _ _ _ _ _ _ hverify
    obtain rfl : payload = verified := Option.some.inj (hdecode.symm.trans hsame)
    exact ⟨key, payload, hkey, hverify, hvc⟩

/-- The operator of a granted session is the subject of a credential that the
verifier accepts, iff the credential of the request verifies and the request
names its subject. -/
theorem operator_verified_iff {d : Deployment} {s : State} {hostname : String} {body : Val}
    {sid : String} {uuids : Uuids} {call : CreateCall} {store : PolicyStore}
    (options : JwtVcVerifierOptions) (hjose : d.jose.Decodes)
    (hevaluator : d.modules.policyEvaluator = true)
    (hstore : d.modules.policyStore = some store)
    (hstart : startCreate d s hostname body sid uuids = .inr call) :
    ∃ text payload, body.member "vc_or_vp" = .str text ∧ d.jose.decodeJwt text = some payload ∧
      ((verify d.jose options s.now text).isOk = true ∧ call.claims.sub = subjectOf payload ∧
          call.entry.operatorDid = subjectOf payload ↔
        Verifies d.jose options s.now text ∧ body.member "operator_did" = subjectOf payload) := by
  obtain ⟨credential, policy, result, hpassed⟩ := passed_of_startCreate hevaluator hstore hstart
  obtain ⟨text, payload, htext, -, hdecode, -, hvc, -⟩ := extract_ok_iff.mp hpassed.extracted
  have hstarted := startCreate_inr hstart
  have hsub : call.claims.sub = body.member "operator_did" := by
    rw [hstarted.claims]
    exact hstarted.same_operator
  have hentry : call.entry.operatorDid = body.member "operator_did" := hstarted.same_operator
  refine ⟨text, payload, htext, hdecode, ?_⟩
  rw [hsub, hentry, and_self, verify_isOk_of_vc hjose hdecode hvc]

theorem Sample.jose_decodes : Sample.jose.Decodes := by
  intro now text (key : String) algorithms tolerance payload h
  change (if text = credential ∧ key = "4006AbYRLhQp6tYWaEBfTvS-T4hTq-5QedKKxsE__dA" then
    if now / 1000 < 4102444800 + tolerance then JwtVerify.ok Sample.payload else .expired
    else .failed) = JwtVerify.ok payload at h
  by_cases hcredential : text = credential ∧ key = "4006AbYRLhQp6tYWaEBfTvS-T4hTq-5QedKKxsE__dA"
  · rw [if_pos hcredential] at h
    by_cases hnow : now / 1000 < 4102444800 + tolerance
    · rw [if_pos hnow] at h
      cases h
      exact if_pos (.inl hcredential.1)
    · rw [if_neg hnow] at h
      cases h
  · rw [if_neg hcredential] at h
    cases h

/-- The sample session, with the issuer's credential. -/
theorem operator_verified_sample :
    ∃ text payload,
      (Sample.body Sample.credential Sample.teleop).member "vc_or_vp" = .str text ∧
      Sample.gateway.jose.decodeJwt text = some payload ∧
      ((verify Sample.gateway.jose Sample.verifier Sample.start.now text).isOk = true ∧
          (Sample.call Sample.teleop).claims.sub = subjectOf payload ∧
          (Sample.call Sample.teleop).entry.operatorDid = subjectOf payload ↔
        Verifies Sample.gateway.jose Sample.verifier Sample.start.now text ∧
          (Sample.body Sample.credential Sample.teleop).member "operator_did" =
            subjectOf payload) :=
  operator_verified_iff Sample.verifier Sample.jose_decodes rfl rfl
    (Sample.startCreate_body _ _ (.inl rfl) Sample.evaluation_teleop)

/-- A credential that its issuer did not sign is as good as any. -/
theorem operator_verified_fails :
    ¬ ∀ (d : Deployment) (s : State) (hostname : String) (body : Val) (sid : String)
      (uuids : Uuids) (call : CreateCall) (store : PolicyStore) (options : JwtVcVerifierOptions),
      d.jose.Decodes → d.modules.policyEvaluator = true → d.modules.policyStore = some store →
      startCreate d s hostname body sid uuids = .inr call →
      ∃ text payload, body.member "vc_or_vp" = .str text ∧ d.jose.decodeJwt text = some payload ∧
        (verify d.jose options s.now text).isOk = true ∧ call.claims.sub = subjectOf payload ∧
          call.entry.operatorDid = subjectOf payload := by
  intro h
  have hstart := Sample.startCreate_body Sample.forged Sample.teleop (.inr rfl)
    Sample.evaluation_teleop
  obtain ⟨text, payload, htext, -, haccepted, -⟩ :=
    h Sample.gateway Sample.start _ _ _ _ _ Sample.store Sample.verifier Sample.jose_decodes rfl
      rfl hstart
  have hforged : Sample.forged = text := Val.str.inj htext
  have hrejected : (verify Sample.jose Sample.verifier Sample.now Sample.forged).isOk = false := by
    decide +kernel
  rw [hforged] at hrejected
  exact absurd haccepted (by rw [Bool.not_eq_true]; exact hrejected)

end ChainKVM.Gateway
