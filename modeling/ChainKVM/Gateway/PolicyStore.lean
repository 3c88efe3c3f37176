import ChainKVM.Lib.Machine
import ChainKVM.Gateway.SessionPolicy

/-!
# The policy store: `policy/policy-store.ts` and `errors.ts`

The store keeps two maps: the policies by their ids, and for each id all the
versions that it has had. `now` stands for `new Date()`. The rules are of any
type `R`, with a function that hashes them; nobody but the store has the
stored objects.

The two maps say the same thing in every state that the store can get to: the
history of a policy is its versions from 1 on, and the policy is the last of
them (`Consistent`, `consistent_throughout`).
-/

namespace ChainKVM.Gateway

open Machine (Always Steps)

/-- `PolicyErrorCode`. -/
inductive PolicyErrorCode where
  | notFound
  | alreadyExists
  | invalidPolicy
  | invalidRule
  | maxPoliciesExceeded
  deriving DecidableEq, Repr

/-- `PolicyError`. -/
structure PolicyError where
  code : PolicyErrorCode
  message : String
  policyId : Option String
  deriving DecidableEq, Repr

namespace PolicyError

def notFound (id : String) : PolicyError := ⟨.notFound, "Policy not found: " ++ id, some id⟩

def alreadyExists (id : String) : PolicyError :=
  ⟨.alreadyExists, "Policy already exists: " ++ id, some id⟩

def maxPoliciesExceeded (max : Nat) : PolicyError :=
  ⟨.maxPoliciesExceeded, "Maximum number of policies exceeded: " ++ toString max, none⟩

end PolicyError

variable {R : Type}

/-- `Policy`, as the store keeps it. -/
structure StoredPolicy (R : Type) where
  id : String
  version : Nat
  name : String
  description : Option String
  rules : R
  createdAt : Int
  updatedAt : Int
  hash : String

/-- What the evaluator sees of it, where `read` is what it reads of the
rules. -/
def StoredPolicy.policy (read : R → List PolicyRule) (p : StoredPolicy R) : Policy :=
  ⟨p.id, p.version, read p.rules, p.hash⟩

/-- `CreatePolicyInput`. -/
structure CreatePolicyInput (R : Type) where
  id : String
  name : String
  description : Option String
  rules : R

/-- `UpdatePolicyInput`. -/
structure UpdatePolicyInput (R : Type) where
  name : Option String
  description : Option String
  rules : Option R

/-- `PolicyStoreConfig`. -/
structure PolicyStoreConfig where
  maxPolicies : Option Nat

/-- `config.maxPolicies ?? DEFAULT_MAX_POLICIES`. -/
def PolicyStoreConfig.max (config : PolicyStoreConfig) : Nat := config.maxPolicies.getD 10000

/-- `createPolicyStore`: the maps `policies` and `history`. -/
structure VersionedStore (R : Type) where
  policies : OrdMap String (StoredPolicy R)
  history : OrdMap String (List (StoredPolicy R))

namespace VersionedStore

def empty : VersionedStore R := ⟨OrdMap.empty, OrdMap.empty⟩

/-- `get`. -/
def get (s : VersionedStore R) (id : String) : Option (StoredPolicy R) := s.policies.get id

/-- `getByVersion`. -/
def getByVersion (s : VersionedStore R) (id : String) (version : Nat) : Option (StoredPolicy R) :=
  match s.history.get id with
  | none => none
  | some versions => versions.find? fun p => p.version = version

/-- `list`. -/
def list (s : VersionedStore R) : List (StoredPolicy R) := s.policies.values

/-- `getVersionHistory`. -/
def getVersionHistory (s : VersionedStore R) (id : String) : List (StoredPolicy R) :=
  (s.history.get id).getD []

variable (computeRulesHash : R → String) (config : PolicyStoreConfig)

/-- The `policy` that `create` makes. -/
def newPolicy (now : Int) (input : CreatePolicyInput R) : StoredPolicy R where
  id := input.id
  version := 1
  name := input.name
  description := input.description
  rules := input.rules
  createdAt := now
  updatedAt := now
  hash := computeRulesHash input.rules

/-- `create`. -/
def create (now : Int) (input : CreatePolicyInput R) (s : VersionedStore R) :
    Except PolicyError (StoredPolicy R) × VersionedStore R :=
  if (s.policies.get input.id).isSome then (.error (.alreadyExists input.id), s)
  else if config.max ≤ s.policies.size then (.error (.maxPoliciesExceeded config.max), s)
  else
    let policy := newPolicy computeRulesHash now input
    (.ok policy, ⟨s.policies.set input.id policy, s.history.set input.id [policy]⟩)

/-- `update`. -/
def update (now : Int) (id : String) (updates : UpdatePolicyInput R) (s : VersionedStore R) :
    Except PolicyError (StoredPolicy R) × VersionedStore R :=
  match s.policies.get id with
  | none => (.error (.notFound id), s)
  | some existing =>
    let newRules := updates.rules.getD existing.rules
    let updated : StoredPolicy R :=
      { existing with
        name := updates.name.getD existing.name
        description := updates.description.or existing.description
        rules := newRules
        version := existing.version + 1
        updatedAt := now
        hash := computeRulesHash newRules }
    let versions := (s.history.get id).getD []
    (.ok updated, ⟨s.policies.set id updated, s.history.set id (versions ++ [updated])⟩)

/-- `delete`. -/
def delete (id : String) (s : VersionedStore R) : Bool × VersionedStore R :=
  ((s.policies.get id).isSome, ⟨s.policies.delete id, s.history.delete id⟩)

/-- `clear`. -/
def clear (_ : VersionedStore R) : VersionedStore R := empty

/-- `computeHash`. -/
def computeHash (_ : VersionedStore R) (rules : R) : String := computeRulesHash rules

end VersionedStore

/-- A call that may change the store. -/
inductive StoreOp (R : Type) where
  | create (now : Int) (input : CreatePolicyInput R)
  | update (now : Int) (id : String) (updates : UpdatePolicyInput R)
  | delete (id : String)
  | clear

namespace VersionedStore

variable (computeRulesHash : R → String) (config : PolicyStoreConfig)

/-- What a `create` or an `update` returns or throws. -/
def answer (s : VersionedStore R) : StoreOp R → Option (Except PolicyError (StoredPolicy R))
  | .create now input => some (s.create computeRulesHash config now input).1
  | .update now id updates => some (s.update computeRulesHash now id updates).1
  | _ => none

def step (s : VersionedStore R) : StoreOp R → VersionedStore R
  | .create now input => (s.create computeRulesHash config now input).2
  | .update now id updates => (s.update computeRulesHash now id updates).2
  | .delete id => (s.delete id).2
  | .clear => s.clear

/-- The two maps are in step. -/
structure Consistent (s : VersionedStore R) : Prop where
  versions : ∀ id, (s.getVersionHistory id).map (·.version) =
    List.range' 1 (s.getVersionHistory id).length
  latest : ∀ id, s.get id = (s.getVersionHistory id).getLast?
  byVersion : ∀ id version, s.getByVersion id version =
    if version = 0 then none else (s.getVersionHistory id)[version - 1]?
  hashes : ∀ id, ∀ p ∈ s.getVersionHistory id, p.hash = s.computeHash computeRulesHash p.rules
  keyed : ∀ id, ∀ p ∈ s.getVersionHistory id, p.id = id
  present : ∀ id, (s.history.get id).isSome = (s.get id).isSome
  bounded : s.list.length ≤ config.max

/-! ## Numbered versions -/

/-- Looking for a version in a list that has them from `a` on. -/
theorem find_of_numbered {versions : List (StoredPolicy R)} {a : Nat} (v : Nat)
    (h : versions.map (·.version) = List.range' a versions.length) :
    (versions.find? fun p => p.version = v) = if v < a then none else versions[v - a]? := by
  induction versions generalizing a with
  | nil => simp
  | cons p versions ih =>
    rw [List.length_cons, List.range'_succ, List.map_cons] at h
    obtain ⟨hhead, htail⟩ := List.cons.inj h
    have hrest := ih htail
    by_cases hv : p.version = v
    · rw [List.find?_cons_of_pos (by simpa using hv), if_neg (by omega), ← hv, hhead, Nat.sub_self]
      rfl
    · rw [List.find?_cons_of_neg (by simpa using hv), hrest]
      by_cases hlt : v < a
      · rw [if_pos hlt, if_pos (by omega)]
      · obtain ⟨n, hn⟩ : ∃ n, v - a = n + 1 := ⟨v - a - 1, by omega⟩
        have hn' : v - (a + 1) = n := by omega
        rw [if_neg hlt, if_neg (by omega), hn, hn', List.getElem?_cons_succ]

/-- The last of the versions from 1 on has their number. -/
theorem version_of_getLast? {versions : List (StoredPolicy R)} {p : StoredPolicy R}
    (h : versions.map (·.version) = List.range' 1 versions.length)
    (hlast : versions.getLast? = some p) : p.version = versions.length := by
  have hmap : (versions.map (·.version)).getLast? = some p.version := by
    rw [List.getLast?_map, hlast]
    rfl
  rw [h, List.getLast?_range'] at hmap
  split at hmap
  · cases hmap
  · have hsame := Option.some.inj hmap
    omega

/-- One more version. -/
theorem numbered_concat {versions : List (StoredPolicy R)} {p : StoredPolicy R}
    (h : versions.map (·.version) = List.range' 1 versions.length)
    (hp : p.version = versions.length + 1) :
    (versions ++ [p]).map (·.version) = List.range' 1 (versions ++ [p]).length := by
  rw [List.map_append, h, List.length_append, List.map_singleton, List.length_singleton,
    List.range'_concat, hp]
  simp [Nat.add_comm]

/-! ## One id at a time -/

/-- What the two maps have for an id. -/
structure Entry (computeRulesHash : R → String) (id : String)
    (versions : Option (List (StoredPolicy R))) (current : Option (StoredPolicy R)) : Prop where
  numbered : (versions.getD []).map (·.version) = List.range' 1 (versions.getD []).length
  latest : current = (versions.getD []).getLast?
  hashes : ∀ p ∈ versions.getD [], p.hash = computeRulesHash p.rules
  keyed : ∀ p ∈ versions.getD [], p.id = id
  present : versions.isSome = current.isSome

theorem Entry.none (computeRulesHash : R → String) (id : String) :
    Entry computeRulesHash id none none where
  numbered := rfl
  latest := rfl
  hashes _ hp := absurd hp List.not_mem_nil
  keyed _ hp := absurd hp List.not_mem_nil
  present := rfl

/-- The next version of an id. -/
theorem Entry.concat {computeRulesHash : R → String} {id : String}
    {versions : Option (List (StoredPolicy R))} {current : Option (StoredPolicy R)}
    {p : StoredPolicy R} (h : Entry computeRulesHash id versions current)
    (hversion : p.version = (versions.getD []).length + 1)
    (hhash : p.hash = computeRulesHash p.rules) (hid : p.id = id) :
    Entry computeRulesHash id (some (versions.getD [] ++ [p])) (some p) := by
  refine ⟨numbered_concat h.numbered hversion, List.getLast?_concat.symm, fun q hq => ?_,
    fun q hq => ?_, rfl⟩
  · rcases List.mem_append.mp hq with hq | hq
    · exact h.hashes q hq
    · rw [List.mem_singleton.mp hq]
      exact hhash
  · rcases List.mem_append.mp hq with hq | hq
    · exact h.keyed q hq
    · rw [List.mem_singleton.mp hq]
      exact hid

theorem list_length (s : VersionedStore R) : s.list.length = s.policies.size := List.length_map _

theorem getByVersion_of_numbered {s : VersionedStore R} {id : String}
    (h : (s.getVersionHistory id).map (·.version) =
      List.range' 1 (s.getVersionHistory id).length) (version : Nat) :
    s.getByVersion id version =
      if version = 0 then none else (s.getVersionHistory id)[version - 1]? := by
  have hfind := find_of_numbered version h
  unfold getByVersion
  unfold getVersionHistory at hfind ⊢
  cases hhistory : s.history.get id with
  | none => simp
  | some versions =>
    rw [hhistory] at hfind
    simpa only [Option.getD_some, Nat.lt_one_iff] using hfind

/-- The maps are in step iff they are for each id. -/
theorem consistent_iff {s : VersionedStore R} : Consistent computeRulesHash config s ↔
    (∀ id, Entry computeRulesHash id (s.history.get id) (s.get id)) ∧
      s.policies.size ≤ config.max := by
  constructor
  · intro h
    refine ⟨fun id => ⟨h.versions id, h.latest id, h.hashes id, h.keyed id, h.present id⟩, ?_⟩
    rw [← list_length]
    exact h.bounded
  · rintro ⟨hentry, hsize⟩
    refine ⟨fun id => (hentry id).numbered, fun id => (hentry id).latest,
      fun id => getByVersion_of_numbered (hentry id).numbered, fun id => (hentry id).hashes,
      fun id => (hentry id).keyed, fun id => (hentry id).present, ?_⟩
    rw [list_length]
    exact hsize

/-! ## The operations keep the maps in step -/

/-- Both maps get a new version. -/
def put (s : VersionedStore R) (id : String) (p : StoredPolicy R) : VersionedStore R :=
  ⟨s.policies.set id p, s.history.set id (s.getVersionHistory id ++ [p])⟩

theorem get_put (s : VersionedStore R) (id : String) (p : StoredPolicy R) (id' : String) :
    (s.put id p).get id' = if id' = id then some p else s.get id' :=
  OrdMap.get_set s.policies id id' p

theorem history_put (s : VersionedStore R) (id : String) (p : StoredPolicy R) (id' : String) :
    (s.put id p).history.get id' =
      if id' = id then some (s.getVersionHistory id ++ [p]) else s.history.get id' :=
  OrdMap.get_set s.history id id' _

variable {computeRulesHash config} {s : VersionedStore R} {id : String} {p : StoredPolicy R}

theorem Consistent.put (h : Consistent computeRulesHash config s)
    (hversion : p.version = (s.getVersionHistory id).length + 1)
    (hhash : p.hash = computeRulesHash p.rules) (hid : p.id = id)
    (hsize : (s.put id p).policies.size ≤ config.max) :
    Consistent computeRulesHash config (s.put id p) := by
  obtain ⟨hentry, -⟩ := (consistent_iff _ _).mp h
  refine (consistent_iff _ _).mpr ⟨fun id' => ?_, hsize⟩
  rw [get_put, history_put]
  by_cases hid' : id' = id
  · subst hid'
    rw [if_pos rfl, if_pos rfl]
    exact (hentry id').concat hversion hhash hid
  · rw [if_neg hid', if_neg hid']
    exact hentry id'

theorem consistent_empty : Consistent computeRulesHash config (empty : VersionedStore R) :=
  (consistent_iff _ _).mpr ⟨fun id => Entry.none computeRulesHash id, Nat.zero_le _⟩

/-- What is not there has no history. -/
theorem Consistent.history_of_absent (h : Consistent computeRulesHash config s)
    (habsent : s.get id = none) : s.getVersionHistory id = [] := by
  have hlast := h.latest id
  rw [habsent] at hlast
  exact List.getLast?_eq_none_iff.mp hlast.symm

/-- `create` throws and changes nothing, or puts the first version. -/
theorem create_cases (h : Consistent computeRulesHash config s) (now : Int)
    (input : CreatePolicyInput R) :
    (¬(s.get input.id = none ∧ s.policies.size < config.max) ∧
      ∃ err, s.create computeRulesHash config now input = (.error err, s)) ∨
    (s.get input.id = none ∧ s.policies.size < config.max ∧
      ∃ p, s.create computeRulesHash config now input = (.ok p, s.put input.id p) ∧
        p.id = input.id ∧ p.version = 1 ∧ p.rules = input.rules ∧
        p.hash = computeRulesHash p.rules) := by
  unfold create
  split
  next htaken =>
    refine .inl ⟨?_, _, rfl⟩
    rintro ⟨habsent, -⟩
    rw [show s.policies.get input.id = none from habsent] at htaken
    cases htaken
  next hfree =>
    split
    next hfull => exact .inl ⟨fun h => Nat.not_le_of_lt h.2 hfull, _, rfl⟩
    next hroom =>
      have habsent : s.policies.get input.id = none := by simpa using hfree
      refine .inr ⟨habsent, Nat.lt_of_not_le hroom, newPolicy computeRulesHash now input, ?_, rfl,
        rfl, rfl, rfl⟩
      rw [put, h.history_of_absent habsent]
      rfl

/-- `update` throws and changes nothing, or puts the next version. -/
theorem update_cases (h : Consistent computeRulesHash config s) (now : Int) (id : String)
    (updates : UpdatePolicyInput R) :
    (∃ err, s.update computeRulesHash now id updates = (.error err, s)) ∨
    ((s.get id).isSome = true ∧
      ∃ p, s.update computeRulesHash now id updates = (.ok p, s.put id p) ∧
        p.id = id ∧ p.version = (s.getVersionHistory id).length + 1 ∧
        p.hash = computeRulesHash p.rules) := by
  cases hget : s.policies.get id with
  | none =>
    refine .inl ⟨.notFound id, ?_⟩
    unfold update
    rw [hget]
  | some existing =>
    have hlatest := (h.latest id).symm.trans hget
    refine .inr ⟨congrArg Option.isSome hget, ?_⟩
    unfold update
    rw [hget]
    refine ⟨_, rfl, h.keyed id existing (List.mem_of_getLast? hlatest), ?_, rfl⟩
    rw [← version_of_getLast? (h.versions id) hlatest]

theorem Consistent.delete (h : Consistent computeRulesHash config s) (id : String) :
    Consistent computeRulesHash config (s.delete id).2 := by
  obtain ⟨hentry, hsize⟩ := (consistent_iff _ _).mp h
  refine (consistent_iff _ _).mpr
    ⟨fun id' => ?_, (OrdMap.size_delete_le s.policies id).trans hsize⟩
  show Entry computeRulesHash id' ((s.history.delete id).get id') ((s.policies.delete id).get id')
  rw [OrdMap.get_delete, OrdMap.get_delete]
  by_cases hid' : id' = id
  · rw [if_pos hid', if_pos hid']
    exact Entry.none computeRulesHash id'
  · rw [if_neg hid', if_neg hid']
    exact hentry id'

/-- The size after a version is put. -/
theorem size_put (s : VersionedStore R) (id : String) (p : StoredPolicy R) :
    (s.put id p).policies.size =
      if (s.get id).isSome then s.policies.size else s.policies.size + 1 :=
  OrdMap.size_set s.policies id p

/-- Every operation. -/
theorem Consistent.step (h : Consistent computeRulesHash config s) (op : StoreOp R) :
    Consistent computeRulesHash config (s.step computeRulesHash config op) := by
  cases op with
  | create now input =>
    show Consistent _ _ (s.create computeRulesHash config now input).2
    rcases create_cases h now input with
      ⟨-, err, heq⟩ | ⟨habsent, hroom, p, heq, hid, hversion, -, hhash⟩
    · rw [heq]
      exact h
    · rw [heq]
      refine h.put ?_ hhash hid ?_
      · rw [hversion, h.history_of_absent habsent]
        rfl
      · rw [size_put, habsent]
        exact hroom
  | update now id updates =>
    show Consistent _ _ (s.update computeRulesHash now id updates).2
    rcases update_cases h now id updates with ⟨err, heq⟩ | ⟨hpresent, p, heq, hid, hversion, hhash⟩
    · rw [heq]
      exact h
    · rw [heq]
      refine h.put hversion hhash hid ?_
      rw [size_put, if_pos hpresent, ← list_length]
      exact h.bounded
  | delete id => exact h.delete id
  | clear => exact consistent_empty

/-- A `create` or an `update` that throws leaves the store as it is. -/
def ThrowsHarmless (computeRulesHash : R → String) (config : PolicyStoreConfig)
    (s : VersionedStore R) (op : StoreOp R) : Prop :=
  ∀ err, s.answer computeRulesHash config op = some (.error err) →
    s.step computeRulesHash config op = s

theorem Consistent.throwsHarmless (h : Consistent computeRulesHash config s) (op : StoreOp R) :
    ThrowsHarmless computeRulesHash config s op := by
  intro err hanswer
  cases op with
  | create now input =>
    show (s.create computeRulesHash config now input).2 = s
    rcases create_cases h now input with ⟨-, err', heq⟩ | ⟨-, -, p, heq, -⟩
    · rw [heq]
    · have hok : s.answer computeRulesHash config (.create now input) = some (.ok p) :=
        congrArg (fun r : Except PolicyError (StoredPolicy R) × VersionedStore R => some r.1) heq
      rw [hok] at hanswer
      cases hanswer
  | update now id updates =>
    show (s.update computeRulesHash now id updates).2 = s
    rcases update_cases h now id updates with ⟨err', heq⟩ | ⟨-, p, heq, -⟩
    · rw [heq]
    · have hok : s.answer computeRulesHash config (.update now id updates) = some (.ok p) :=
        congrArg (fun r : Except PolicyError (StoredPolicy R) × VersionedStore R => some r.1) heq
      rw [hok] at hanswer
      cases hanswer
  | delete id => cases hanswer
  | clear => cases hanswer

/-- In every state of every run the maps are in step, and no operation that
throws changes anything. -/
theorem consistent_throughout (computeRulesHash : R → String) (config : PolicyStoreConfig)
    (ops : List (StoreOp R)) :
    Always (step computeRulesHash config) (Consistent computeRulesHash config) empty ops ∧
      Steps (step computeRulesHash config) (ThrowsHarmless computeRulesHash config) empty ops := by
  have hall : Steps (step computeRulesHash config) (fun _ _ => True) (empty : VersionedStore R) ops :=
    Machine.steps_of_forall (fun _ _ => trivial) _ _
  exact ⟨Machine.always_of_step (fun _ op h => h.step op) consistent_empty,
    Machine.steps_of_steps (fun _ op h _ => Consistent.step h op)
      (fun _ op h _ => h.throwsHarmless op) consistent_empty hall⟩

end VersionedStore

end ChainKVM.Gateway
