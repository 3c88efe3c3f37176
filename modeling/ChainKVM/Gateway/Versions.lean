import ChainKVM.Gateway.PolicyStore

/-!
# What a version stands for

A grant of a session records the id and the version of the policy that granted
it, and the policy document calls a version a "monotonically increasing
integer": it is to say later which rules these were. So over the whole life of
a store no pair of an id and a version may be issued for two sets of rules.

But `delete` and `clear` drop the history along with the policy, and `create`
starts from version 1. So it holds of a run iff no policy is created under an
id that has been used before (`identified_iff`).
-/

namespace ChainKVM.Gateway

open Machine (Always Steps)

variable {R : Type}

/-- A store, and all the versions that it has issued. -/
structure StoreRun (R : Type) where
  store : VersionedStore R
  issued : List (StoredPolicy R)

namespace StoreRun

def start : StoreRun R := ⟨.empty, []⟩

/-- The version that an operation returns. -/
def newly (computeRulesHash : R → String) (config : PolicyStoreConfig) (s : StoreRun R)
    (op : StoreOp R) : List (StoredPolicy R) :=
  match s.store.answer computeRulesHash config op with
  | some (.ok p) => [p]
  | _ => []

def step (computeRulesHash : R → String) (config : PolicyStoreConfig) (s : StoreRun R)
    (op : StoreOp R) : StoreRun R :=
  ⟨s.store.step computeRulesHash config op, s.issued ++ newly computeRulesHash config s op⟩

/-- The versions of an id increase, so that an id and a version, also those of
a grant, stand for one set of rules. -/
structure Identified (read : R → List PolicyRule) (s : StoreRun R) : Prop where
  increasing : s.issued.Pairwise fun p q => p.id = q.id → p.version < q.version
  once : ∀ p ∈ s.issued, ∀ q ∈ s.issued, p.id = q.id → p.version = q.version → p.rules = q.rules
  granted : ∀ p ∈ s.issued, ∀ q ∈ s.issued,
    (policySuccess (p.policy read)).policy_id = (policySuccess (q.policy read)).policy_id →
    (policySuccess (p.policy read)).version = (policySuccess (q.policy read)).version →
      p.rules = q.rules

/-- A policy is created, where there is none, under an id that was used
before. -/
def Reuses (config : PolicyStoreConfig) (s : StoreRun R) (op : StoreOp R) : Prop :=
  ∃ now input, op = .create now input ∧ s.store.get input.id = none ∧
    s.store.policies.size < config.max ∧ ∃ p ∈ s.issued, p.id = input.id

/-! ## Increasing versions identify -/

/-- Of two entries of a list one is before the other, or they are one. -/
theorem rel_or_of_pairwise {α : Type} {r : α → α → Prop} {l : List α} (h : l.Pairwise r) {a b : α}
    (ha : a ∈ l) (hb : b ∈ l) : a = b ∨ r a b ∨ r b a := by
  obtain ⟨i, hi, rfl⟩ := List.getElem_of_mem ha
  obtain ⟨j, hj, rfl⟩ := List.getElem_of_mem hb
  have hrel := List.pairwise_iff_getElem.mp h
  rcases Nat.lt_trichotomy i j with hlt | heq | hgt
  · exact .inr (.inl (hrel i j hi hj hlt))
  · subst heq
    exact .inl rfl
  · exact .inr (.inr (hrel j i hj hi hgt))

theorem identified_of_increasing (read : R → List PolicyRule) {s : StoreRun R}
    (h : s.issued.Pairwise fun p q => p.id = q.id → p.version < q.version) :
    Identified read s := by
  have honce : ∀ p ∈ s.issued, ∀ q ∈ s.issued, p.id = q.id → p.version = q.version →
      p.rules = q.rules := by
    intro p hp q hq hid hversion
    rcases rel_or_of_pairwise h hp hq with rfl | hlt | hgt
    · rfl
    · exact absurd hversion (Nat.ne_of_lt (hlt hid))
    · exact absurd hversion.symm (Nat.ne_of_lt (hgt hid.symm))
  exact ⟨h, honce, fun p hp q hq hid hversion => honce p hp q hq hid (Js.toString_inj hversion)⟩

/-! ## One operation -/

/-- The current version of an id is the last one that was issued for it. -/
structure Recorded (computeRulesHash : R → String) (config : PolicyStoreConfig)
    (s : StoreRun R) : Prop where
  consistent : s.store.Consistent computeRulesHash config
  positive : ∀ p ∈ s.issued, 1 ≤ p.version
  last : ∀ id cur, s.store.get id = some cur →
    ∃ before after, s.issued = before ++ cur :: after ∧ cur.id = id ∧ ∀ q ∈ after, q.id ≠ id

variable {computeRulesHash : R → String} {config : PolicyStoreConfig} {s : StoreRun R}
  {op : StoreOp R}

/-- What an operation does: a new version of its id, or nothing new and
nothing that was not there. -/
inductive Stepped (computeRulesHash : R → String) (config : PolicyStoreConfig) (s : StoreRun R)
    (op : StoreOp R) : Prop
  | created (now : Int) (input : CreatePolicyInput R) (p : StoredPolicy R) :
      op = .create now input → s.store.get input.id = none →
      s.store.policies.size < config.max → p.id = input.id → p.version = 1 →
      s.step computeRulesHash config op = ⟨s.store.put input.id p, s.issued ++ [p]⟩ →
      Stepped computeRulesHash config s op
  | updated (id : String) (cur p : StoredPolicy R) : ¬Reuses config s op →
      s.store.get id = some cur → p.id = id → p.version = cur.version + 1 →
      s.step computeRulesHash config op = ⟨s.store.put id p, s.issued ++ [p]⟩ →
      Stepped computeRulesHash config s op
  | quiet : ¬Reuses config s op →
      (s.step computeRulesHash config op).issued = s.issued →
      (∀ id cur, (s.step computeRulesHash config op).store.get id = some cur →
        s.store.get id = some cur) →
      Stepped computeRulesHash config s op

theorem step_of_ok {r : Except PolicyError (StoredPolicy R) × VersionedStore R}
    {p : StoredPolicy R} {t : VersionedStore R}
    (hanswer : s.store.answer computeRulesHash config op = some r.1)
    (hstore : s.store.step computeRulesHash config op = r.2) (hr : r = (.ok p, t)) :
    s.step computeRulesHash config op = ⟨t, s.issued ++ [p]⟩ := by
  subst hr
  unfold step newly
  rw [hanswer, hstore]

theorem step_of_error {r : Except PolicyError (StoredPolicy R) × VersionedStore R}
    {err : PolicyError} (hanswer : s.store.answer computeRulesHash config op = some r.1)
    (hstore : s.store.step computeRulesHash config op = r.2) (hr : r = (.error err, s.store)) :
    s.step computeRulesHash config op = s := by
  subst hr
  unfold step newly
  rw [hanswer, hstore]
  exact congrArg (StoreRun.mk s.store) (List.append_nil _)

theorem step_of_no_answer (hanswer : s.store.answer computeRulesHash config op = none) :
    s.step computeRulesHash config op = ⟨s.store.step computeRulesHash config op, s.issued⟩ := by
  unfold step newly
  rw [hanswer]
  exact congrArg (StoreRun.mk _) (List.append_nil _)

/-- Nothing happens. -/
theorem Stepped.idle (hop : ¬Reuses config s op) (h : s.step computeRulesHash config op = s) :
    Stepped computeRulesHash config s op := by
  refine .quiet hop ?_ fun id cur hget => ?_
  · rw [h]
  · rw [h] at hget
    exact hget

theorem stepped (h : s.store.Consistent computeRulesHash config) (op : StoreOp R) :
    Stepped computeRulesHash config s op := by
  cases op with
  | create now input =>
    rcases VersionedStore.create_cases h now input with
      ⟨hfree, err, heq⟩ | ⟨habsent, hroom, p, heq, hid, hversion, -, -⟩
    · refine .idle ?_ (step_of_error rfl rfl heq)
      rintro ⟨now', input', hop, habsent, hroom, -⟩
      cases hop
      exact hfree ⟨habsent, hroom⟩
    · exact .created now input p rfl habsent hroom hid hversion (step_of_ok rfl rfl heq)
  | update now id updates =>
    have hop : ¬Reuses config s (.update now id updates) := by
      rintro ⟨now', input', hop, -⟩
      cases hop
    rcases VersionedStore.update_cases h now id updates with
      ⟨err, heq⟩ | ⟨hpresent, p, heq, hid, hversion, -⟩
    · exact .idle hop (step_of_error rfl rfl heq)
    · obtain ⟨cur, hcur⟩ := Option.isSome_iff_exists.mp hpresent
      have hlast := VersionedStore.version_of_getLast? (h.versions id)
        ((h.latest id).symm.trans hcur)
      refine .updated id cur p hop hcur hid ?_ (step_of_ok rfl rfl heq)
      rw [hversion, hlast]
  | delete id =>
    refine .quiet ?_ ?_ fun id' cur hget => ?_
    · rintro ⟨now, input, hop, -⟩
      cases hop
    · rw [step_of_no_answer rfl]
    · have hdeleted : (s.store.policies.delete id).get id' = some cur := hget
      exact (OrdMap.get_delete_eq_some_iff.mp hdeleted).2
  | clear =>
    refine .quiet ?_ ?_ fun id' cur hget => ?_
    · rintro ⟨now, input, hop, -⟩
      cases hop
    · rw [step_of_no_answer rfl]
    · cases hget

/-- After a version is put, it is the last one of its id; of the others the
last ones are as before. -/
theorem Recorded.last_put (h : Recorded computeRulesHash config s) {id : String}
    {p : StoredPolicy R} (hid : p.id = id) (id' : String) (cur : StoredPolicy R)
    (hcur : (s.store.put id p).get id' = some cur) :
    ∃ before after, s.issued ++ [p] = before ++ cur :: after ∧ cur.id = id' ∧
      ∀ q ∈ after, q.id ≠ id' := by
  rw [VersionedStore.get_put] at hcur
  split at hcur
  next hsame =>
    cases hcur
    exact ⟨s.issued, [], rfl, hid.trans hsame.symm, fun q hq => absurd hq List.not_mem_nil⟩
  next hother =>
    obtain ⟨before, after, hissued, hcurId, hafter⟩ := h.last id' cur hcur
    refine ⟨before, after ++ [p], ?_, hcurId, fun q hq => ?_⟩
    · rw [hissued, List.append_assoc, List.cons_append]
    · rcases List.mem_append.mp hq with hq | hq
      · exact hafter q hq
      · rw [List.mem_singleton.mp hq, hid]
        exact fun hsame => hother hsame.symm

theorem Recorded.positive_concat (h : Recorded computeRulesHash config s) {p : StoredPolicy R}
    (hp : 1 ≤ p.version) : ∀ q ∈ s.issued ++ [p], 1 ≤ q.version := by
  intro q hq
  rcases List.mem_append.mp hq with hq | hq
  · exact h.positive q hq
  · rw [List.mem_singleton.mp hq]
    exact hp

theorem Recorded.step (h : Recorded computeRulesHash config s) (op : StoreOp R) :
    Recorded computeRulesHash config (s.step computeRulesHash config op) := by
  have hconsistent : (s.step computeRulesHash config op).store.Consistent computeRulesHash config :=
    h.consistent.step op
  cases stepped h.consistent op with
  | created now input p hop habsent hroom hid hversion hstep =>
    rw [hstep] at hconsistent ⊢
    exact ⟨hconsistent, h.positive_concat (by omega), h.last_put hid⟩
  | updated id cur p hop hcur hid hversion hstep =>
    rw [hstep] at hconsistent ⊢
    exact ⟨hconsistent, h.positive_concat (by omega), h.last_put hid⟩
  | quiet hop hissued hkept =>
    refine ⟨hconsistent, ?_, ?_⟩
    · rw [hissued]
      exact h.positive
    · rw [hissued]
      exact fun id cur hcur => h.last id cur (hkept id cur hcur)

/-- One more version, which is above those of its id. -/
theorem increasing_concat {issued : List (StoredPolicy R)} {p : StoredPolicy R}
    (h : issued.Pairwise fun p q => p.id = q.id → p.version < q.version) :
    ((issued ++ [p]).Pairwise fun p q => p.id = q.id → p.version < q.version) ↔
      ∀ q ∈ issued, q.id = p.id → q.version < p.version := by
  rw [List.pairwise_append]
  constructor
  · intro hall q hq
    exact hall.2.2 q hq p (List.mem_singleton_self p)
  · intro hbelow
    refine ⟨h, List.pairwise_singleton _ _, fun q hq r hr => ?_⟩
    rw [List.mem_singleton.mp hr]
    exact hbelow q hq

/-- From versions that increase, a step keeps them so iff it does not reuse an
id. -/
theorem increasing_step_iff (h : Recorded computeRulesHash config s)
    (hincreasing : s.issued.Pairwise fun p q => p.id = q.id → p.version < q.version)
    (op : StoreOp R) :
    ((s.step computeRulesHash config op).issued.Pairwise
      fun p q => p.id = q.id → p.version < q.version) ↔ ¬Reuses config s op := by
  cases stepped h.consistent op with
  | created now input p hop habsent hroom hid hversion hstep =>
    rw [hstep]
    show (s.issued ++ [p]).Pairwise _ ↔ _
    rw [increasing_concat hincreasing]
    constructor
    · rintro hbelow ⟨now', input', hop', -, -, q, hq, hused⟩
      cases hop.symm.trans hop'
      have hlt := hbelow q hq (hused.trans hid.symm)
      -- a created policy starts at 1 again
      have hpos := h.positive q hq
      omega
    · intro hfresh q hq hused
      exact absurd ⟨now, input, hop, habsent, hroom, q, hq, hused.trans hid⟩ hfresh
  | updated id cur p hop hcur hid hversion hstep =>
    rw [hstep]
    show (s.issued ++ [p]).Pairwise _ ↔ _
    rw [increasing_concat hincreasing]
    refine ⟨fun _ => hop, fun _ q hq hused => ?_⟩
    -- the update is above the current version, which is the last of its id
    obtain ⟨before, after, hissued, hcurId, hafter⟩ := h.last id cur hcur
    rw [hissued] at hq hincreasing
    rcases List.mem_append.mp hq with hbefore | hfrom
    · have hbelow := (List.pairwise_append.mp hincreasing).2.2 q hbefore cur List.mem_cons_self
      have hlt := hbelow (hused.trans (hid.trans hcurId.symm))
      omega
    · rcases List.mem_cons.mp hfrom with rfl | hlater
      · omega
      · exact absurd (hused.trans hid) (hafter q hlater)
  | quiet hop hissued hkept =>
    rw [hissued]
    exact ⟨fun _ => hop, fun _ => hincreasing⟩

theorem recorded_start : Recorded computeRulesHash config (start : StoreRun R) where
  consistent := VersionedStore.consistent_empty
  positive _ hp := absurd hp List.not_mem_nil
  last id cur hcur := by cases hcur

/-- A run keeps ids and versions good for identifying rules iff none of its
steps creates a policy under an id that was used before. -/
theorem identified_iff (computeRulesHash : R → String) (config : PolicyStoreConfig)
    (read : R → List PolicyRule) (ops : List (StoreOp R)) :
    Always (step computeRulesHash config) (Identified read) start ops ↔
      Steps (step computeRulesHash config) (fun s op => ¬Reuses config s op) start ops := by
  refine Machine.always_iff_steps (J := Recorded computeRulesHash config)
    (fun s op h => h.step op) (fun s op h hidentified => ?_) recorded_start
    (identified_of_increasing read List.Pairwise.nil)
  have hiff := increasing_step_iff h hidentified.increasing op
  exact ⟨fun h' => hiff.mp h'.increasing, fun h' => identified_of_increasing read (hiff.mpr h')⟩

/-- A policy is created, deleted and created again with another rule. -/
def recreated : List (StoreOp String) :=
  [.create 0 ⟨"poc-default", "POC", none, "allow"⟩, .delete "poc-default",
    .create 0 ⟨"poc-default", "POC", none, "deny"⟩]

theorem identified_fails :
    ¬Always (step id ⟨none⟩) (Identified fun _ => []) start recreated := by
  intro h
  have hissued : (Machine.run (step id ⟨none⟩) start recreated).issued.map
      (fun p => (p.id, p.version)) = [("poc-default", 1), ("poc-default", 1)] := by decide +kernel
  have hmap : ((Machine.run (step id ⟨none⟩) start recreated).issued.map
      (fun p => (p.id, p.version))).Pairwise fun p q => p.1 = q.1 → p.2 < q.2 :=
    List.pairwise_map.mpr h.last.increasing
  rw [hissued] at hmap
  exact absurd hmap (by decide)

end StoreRun

end ChainKVM.Gateway
