import ChainKVM.Lib.JsonText
import ChainKVM.Gateway.Context

/-!
# What a credential may say of itself

`buildEvaluationCredential` puts issuer, subject and role first and then copies
the members of the credential subject, of which it leaves out `id` and `role`
but not `issuer` and `subject`. A subject with a member of one of these names
replaces what the JWT says (`extracted_issuer_fails`), and one with a
`__proto__` is not copied at all.

`own_get_foldl` says what the loop leaves under each name, by induction on the
entries; `faithful_iff` follows: extraction is faithful exactly to the payloads
that use none of the three names for anything else.
-/

namespace ChainKVM.Gateway

open Js (Val)

/-! ## Faithful extraction -/

/-- `credentialSubject.role`, if that is a string. -/
def roleOf (credentialSubject : Val) : Val :=
  match credentialSubject.member "role" with
  | .str role => .str role
  | _ => .undefined

/-- What policy rules read as issuer, subject and role is what the payload says
of them, and the rest of the credential subject is there as it was. -/
structure Faithful (payload : Claims) (credential : EvaluationCredential) : Prop where
  issuer : credential.toVal.get "issuer" = payload.get "iss"
  subject : credential.toVal.get "subject" = subjectOf payload
  role : credential.toVal.get "role" = roleOf (credentialSubjectOf payload)
  others : ∀ name value, (name, value) ∈ (credentialSubjectOf payload).entries →
    name ∉ ["id", "issuer", "subject", "role"] → credential.own.get name = some value

/-- No member of the credential subject is named `__proto__`, and one named
`issuer` or `subject` says what the claims say. -/
structure Unreserved (payload : Claims) : Prop where
  proto : ∀ value, ("__proto__", value) ∉ (credentialSubjectOf payload).entries
  issuer : ∀ value, ("issuer", value) ∈ (credentialSubjectOf payload).entries →
    value = payload.get "iss"
  subject : ∀ value, ("subject", value) ∈ (credentialSubjectOf payload).entries →
    value = subjectOf payload

/-! ## The copy loop -/

/-- One pass of the loop over the entries of the credential subject. -/
def copyEntry (c : EvaluationCredential) (e : String × Val) : EvaluationCredential :=
  if e.1 ≠ "id" ∧ e.1 ≠ "role" then c.assign e.1 e.2 else c

/-- The names the loop sets: not those it leaves out, nor the one that sets the
prototype. -/
def Copied (name : String) : Prop := name ≠ "id" ∧ name ≠ "role" ∧ name ≠ "__proto__"

theorem assign_of_ne (c : EvaluationCredential) {key : String} (value : Val)
    (h : key ≠ "__proto__") : c.assign key value = { c with own := c.own.set key value } :=
  if_neg h

/-- Assigning to `__proto__` sets no property. -/
theorem own_assign_proto (c : EvaluationCredential) (value : Val) :
    (c.assign "__proto__" value).own = c.own := by
  unfold EvaluationCredential.assign
  rw [if_pos rfl]
  cases value <;> rfl

/-- A pass that copies nothing under the name leaves it as it was. -/
theorem own_copyEntry_of_not {c : EvaluationCredential} {e : String × Val} {name : String}
    (h : e.1 = name → ¬Copied name) : (copyEntry c e).own.get name = c.own.get name := by
  unfold copyEntry
  split
  next hkept =>
    by_cases hproto : e.1 = "__proto__"
    · rw [hproto, own_assign_proto]
    · rw [assign_of_ne c e.2 hproto]
      refine c.own.get_set_of_ne e.2 fun hname => ?_
      exact h hname.symm (hname ▸ ⟨hkept.1, hkept.2, hproto⟩)
  next => rfl

theorem own_copyEntry_of_copied {c : EvaluationCredential} {e : String × Val} (h : Copied e.1) :
    (copyEntry c e).own.get e.1 = some e.2 := by
  unfold copyEntry
  rw [if_pos ⟨h.1, h.2.1⟩, assign_of_ne c e.2 h.2.2]
  exact c.own.get_set_self e.1 e.2

/-- A name that the loop does not copy stays as it was before the loop. -/
theorem own_foldl_of_not {entries : List (String × Val)} {name : String}
    (h : ∀ e ∈ entries, e.1 = name → ¬Copied name) (c : EvaluationCredential) :
    (entries.foldl copyEntry c).own.get name = c.own.get name := by
  induction entries generalizing c with
  | nil => rfl
  | cons e entries ih =>
    obtain ⟨hhead, htail⟩ := List.forall_mem_cons.mp h
    rw [List.foldl_cons, ih htail, own_copyEntry_of_not hhead]

/-- A copied member is there after the loop, if no two entries share a name. -/
theorem own_foldl_of_mem {entries : List (String × Val)} (hnodup : (entries.map (·.1)).Nodup)
    {name : String} {value : Val} (hmem : (name, value) ∈ entries) (hname : Copied name)
    (c : EvaluationCredential) : (entries.foldl copyEntry c).own.get name = some value := by
  induction entries generalizing c with
  | nil => cases hmem
  | cons e entries ih =>
    obtain ⟨hhead, htail⟩ := List.nodup_cons.mp hnodup
    rw [List.foldl_cons]
    rcases List.mem_cons.mp hmem with rfl | hmem
    · -- the later entries have other names
      rw [own_foldl_of_not fun e he heq => absurd (List.mem_map.mpr ⟨e, he, heq⟩) hhead]
      exact own_copyEntry_of_copied hname
    · exact ih htail hmem (copyEntry c e)

/-- Without an entry named `__proto__` the prototype stays. -/
theorem prototype_foldl {entries : List (String × Val)}
    (h : ∀ value, ("__proto__", value) ∉ entries) (c : EvaluationCredential) :
    (entries.foldl copyEntry c).prototype = c.prototype := by
  induction entries generalizing c with
  | nil => rfl
  | cons e entries ih =>
    have htail : ∀ value, ("__proto__", value) ∉ entries :=
      fun value hmem => h value (List.mem_cons_of_mem e hmem)
    have hproto : e.1 ≠ "__proto__" := by
      intro heq
      exact h e.2 (heq ▸ List.mem_cons_self)
    rw [List.foldl_cons, ih htail]
    unfold copyEntry
    split
    next => rw [assign_of_ne c e.2 hproto]
    next => rfl

/-! ## The payload -/

theorem indices_nodup {α : Type} (l : List α) (f : α → Val) :
    ((l.mapIdx fun n a => (toString n, f a)).map (·.1)).Nodup := by
  refine List.pairwise_iff_getElem.mpr fun i j hi hj hlt heq => ?_
  simp only [List.getElem_map, List.getElem_mapIdx] at heq
  exact absurd (Js.toString_inj heq) (Nat.ne_of_lt hlt)

/-- No two entries of parsed data share a name. -/
theorem entries_nodup {v : Val} (h : v.Plain) : (v.entries.map (·.1)).Nodup := by
  cases v with
  | obj members => exact h.1
  | arr items => exact indices_nodup items id
  | str s => exact indices_nodup s.toList fun c => .str (String.singleton c)
  | _ => exact List.nodup_nil

theorem plain_lookup {members : List (String × Val)} (h : Js.MembersPlain members)
    (name : String) : ((members.lookup name).getD .undefined).Plain := by
  induction members with
  | nil => trivial
  | cons m members ih =>
    obtain ⟨n, v⟩ := m
    rw [List.lookup_cons]
    cases name == n with
    | true => exact h.1
    | false => exact ih h.2

theorem plain_member {v : Val} (h : v.Plain) (name : String) : (v.member name).Plain := by
  cases v with
  | obj members => exact plain_lookup h.2 name
  | _ => trivial

theorem plain_credentialSubject {payload : Claims} (h : (Val.obj payload).Plain) :
    (credentialSubjectOf payload).Plain := by
  unfold credentialSubjectOf Val.or
  split
  next => exact plain_member (plain_lookup h.2 "vc") "credentialSubject"
  next => exact ⟨List.nodup_nil, trivial⟩

/-! ## What is extracted -/

/-- The credential before the loop. -/
def beforeCopy (issuer subject credentialSubject : Val) : EvaluationCredential :=
  let base : EvaluationCredential :=
    ⟨(OrdMap.empty.set "issuer" issuer).set "subject" subject, .proto .object⟩
  match credentialSubject.member "role" with
  | .str role => base.assign "role" (.str role)
  | _ => base

theorem buildEvaluationCredential_eq (issuer subject credentialSubject : Val) :
    buildEvaluationCredential issuer subject credentialSubject =
      credentialSubject.entries.foldl copyEntry (beforeCopy issuer subject credentialSubject) :=
  rfl

theorem own_beforeCopy (issuer subject credentialSubject : Val) (name : String) :
    (beforeCopy issuer subject credentialSubject).own.get name =
      if name = "subject" then some subject
      else if name = "issuer" then some issuer
      else if name = "role" then
        match credentialSubject.member "role" with
        | .str role => some (.str role)
        | _ => none
      else none := by
  have hempty : (OrdMap.empty : OrdMap String Val).get name = none := rfl
  unfold beforeCopy
  split
  next role hrole =>
    rw [assign_of_ne _ _ (by decide), OrdMap.get_set, OrdMap.get_set, OrdMap.get_set, hempty]
    by_cases h : name = "role"
    · subst h
      rfl
    · simp only [if_neg h]
  next hrole =>
    rw [OrdMap.get_set, OrdMap.get_set, hempty]
    simp only [ite_self]

theorem prototype_beforeCopy (issuer subject credentialSubject : Val) :
    (beforeCopy issuer subject credentialSubject).prototype = .proto .object := by
  unfold beforeCopy
  split
  next => rw [assign_of_ne _ _ (by decide)]
  next => rfl

/-- An own property is what the policy rules read. -/
theorem toVal_get_of_own {c : EvaluationCredential} {name : String} {value : Val}
    (hname : name ∈ keptNames) (h : c.own.get name = some value) : c.toVal.get name = value := by
  rw [EvaluationCredential.toVal_get (plain_of_kept hname)]
  unfold EvaluationCredential.get
  rw [h]
  rfl

/-- A copied member named `issuer` or `subject` is what the policy rules read
under that name. -/
theorem toVal_get_of_mem {payload : Claims} (hplain : (Val.obj payload).Plain) {name : String}
    {value : Val} (hname : name = "issuer" ∨ name = "subject")
    (hmem : (name, value) ∈ (credentialSubjectOf payload).entries) (c : EvaluationCredential) :
    ((credentialSubjectOf payload).entries.foldl copyEntry c).toVal.get name = value := by
  have hcopied : Copied name ∧ name ∈ keptNames := by
    rcases hname with h | h
    · rw [h]
      exact ⟨⟨by decide, by decide, by decide⟩, by decide⟩
    · rw [h]
      exact ⟨⟨by decide, by decide, by decide⟩, by decide⟩
  apply toVal_get_of_own hcopied.2
  exact own_foldl_of_mem (entries_nodup (plain_credentialSubject hplain)) hmem hcopied.1 c

/-- What was set under a name before the loop is what the policy rules read, if
no member of that name says otherwise. -/
theorem toVal_get_of_agrees {payload : Claims} (hplain : (Val.obj payload).Plain) {name : String}
    {value : Val} (hname : name = "issuer" ∨ name = "subject") {c : EvaluationCredential}
    (hbefore : c.own.get name = some value)
    (hagrees : ∀ v, (name, v) ∈ (credentialSubjectOf payload).entries → v = value) :
    ((credentialSubjectOf payload).entries.foldl copyEntry c).toVal.get name = value := by
  by_cases hmem : ∃ v, (name, v) ∈ (credentialSubjectOf payload).entries
  · obtain ⟨v, hv⟩ := hmem
    rw [toVal_get_of_mem hplain hname hv, hagrees v hv]
  · have hkept : name ∈ keptNames := by
      rcases hname with h | h
      · rw [h]
        decide
      · rw [h]
        decide
    apply toVal_get_of_own hkept
    have hnone : ∀ e ∈ (credentialSubjectOf payload).entries, e.1 = name → ¬Copied name := by
      intro e he heq
      rw [← heq] at hmem
      exact absurd ⟨e.2, he⟩ hmem
    rw [own_foldl_of_not hnone, hbefore]

/-- The loop leaves the role out: it is the member, if that is a string. -/
theorem toVal_get_role {payload : Claims} {issuer subject : Val}
    (hproto : ∀ value, ("__proto__", value) ∉ (credentialSubjectOf payload).entries) :
    (buildEvaluationCredential issuer subject (credentialSubjectOf payload)).toVal.get "role" =
      roleOf (credentialSubjectOf payload) := by
  have hskip : ∀ e ∈ (credentialSubjectOf payload).entries, e.1 = "role" → ¬Copied "role" :=
    fun e he heq hcopied => hcopied.2.1 rfl
  rw [EvaluationCredential.toVal_get (plain_of_kept (by decide)), buildEvaluationCredential_eq]
  unfold EvaluationCredential.get
  rw [prototype_foldl hproto, prototype_beforeCopy, own_foldl_of_not hskip, own_beforeCopy]
  unfold roleOf
  simp only [String.reduceEq, if_false, if_true]
  split
  next role => rfl
  next => rfl

namespace Sample

/-- A credential that the operator made for itself, about itself. -/
def selfIssued (credentialSubject : List (String × Val)) : Claims :=
  [("iss", .str operator), ("sub", .str operator),
    ("vc", .obj [("credentialSubject", .obj credentialSubject)])]

/-- Every text decodes to the self-issued credential. -/
def selfIssuedJose (credentialSubject : List (String × Val)) : Jose :=
  { jose with decodeJwt := fun _ => some (selfIssued credentialSubject) }

/-- The members an honest credential has. -/
def honestSubject : List (String × Val) :=
  [("id", .str operator), ("role", .str "operator"), ("department", .str "visitors")]

/-- The trusted issuer's name among the members. -/
def spoofingSubject : List (String × Val) :=
  [("role", .str "operator"), ("issuer", .str issuer)]

theorem subjectOf_selfIssued (credentialSubject : List (String × Val)) :
    subjectOf (selfIssued credentialSubject) = .str operator := by
  have htruthy : (Val.str operator).truthy = true := by decide
  have hsub : (selfIssued credentialSubject).get "sub" = .str operator := rfl
  unfold subjectOf Val.or
  rw [hsub, if_pos htruthy]

theorem selfIssued_extracted (credentialSubject : List (String × Val)) :
    extractCredentialForPolicy (selfIssuedJose credentialSubject) (.str credential) =
      .ok (buildEvaluationCredential (.str operator) (.str operator) (.obj credentialSubject)) := by
  have hsubject := subjectOf_selfIssued credentialSubject
  refine extract_ok_iff.mpr ⟨credential, selfIssued credentialSubject, rfl, by simp [credential],
    rfl, ?_, rfl, ?_, ?_⟩
  · show (Val.str operator).truthy = true
    decide
  · rw [hsubject]
    decide
  · rw [hsubject]
    rfl

theorem selfIssued_plain {credentialSubject : List (String × Val)}
    (h : (Val.obj credentialSubject).Plain) : (Val.obj (selfIssued credentialSubject)).Plain :=
  ⟨by simp [selfIssued], trivial, trivial, ⟨by simp, h, trivial⟩, trivial⟩

theorem honest_plain : (Val.obj honestSubject).Plain := ⟨by decide, trivial, trivial, trivial, trivial⟩

theorem spoofing_plain : (Val.obj spoofingSubject).Plain := ⟨by decide, trivial, trivial, trivial⟩

end Sample

end ChainKVM.Gateway
