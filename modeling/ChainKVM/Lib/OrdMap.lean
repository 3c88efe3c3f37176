import Mathlib.Data.List.Nodup

/-!
# Insertion-ordered maps

JavaScript's `Map`: a finite map whose entries keep the order in which their
keys were first set. Setting a present key replaces its value in place;
deleting a key and setting it again puts it last. An `OrdMap` carries the
proof that its keys are distinct, so that lookup and membership say the same
thing (`get_eq_some_iff`), and the effect of every operation on lookups
follows from its effect on membership.
-/

namespace ChainKVM

/-- A map from `K` to `V` in insertion order. -/
structure OrdMap (K V : Type) where
  entries : List (K × V)
  nodup : (entries.map Prod.fst).Nodup

namespace OrdMap

variable {K V : Type}

/-- `new Map()`. -/
def empty : OrdMap K V := ⟨[], List.nodup_nil⟩

/-- `m.values()`. -/
def values (m : OrdMap K V) : List V := m.entries.map Prod.snd

/-- `m.size`. -/
def size (m : OrdMap K V) : Nat := m.entries.length

/-- Deleting, during an iteration over the map, the entries that fail `p`. -/
def filter (p : K → V → Bool) (m : OrdMap K V) : OrdMap K V where
  entries := m.entries.filter fun e => p e.1 e.2
  nodup := m.nodup.sublist (List.filter_sublist.map Prod.fst)

theorem values_filter_sublist (p : K → V → Bool) (m : OrdMap K V) :
    (m.filter p).values.Sublist m.values :=
  List.filter_sublist.map Prod.snd

variable [DecidableEq K]

/-- `m.get(k)`. -/
def get (m : OrdMap K V) (k : K) : Option V :=
  (m.entries.find? fun e => e.1 = k).map Prod.snd

/-- `m.delete(k)`. -/
def delete (m : OrdMap K V) (k : K) : OrdMap K V := m.filter fun k' _ => k' ≠ k

/-- The entries after `m.set(k, v)`. -/
def setEntries (k : K) (v : V) : List (K × V) → List (K × V)
  | [] => [(k, v)]
  | e :: es => if e.1 = k then (k, v) :: es else e :: setEntries k v es

theorem mem_keys_setEntries {k k' : K} {v : V} {es : List (K × V)}
    (h : k' ∈ (setEntries k v es).map Prod.fst) : k' = k ∨ k' ∈ es.map Prod.fst := by
  induction es with
  | nil =>
    left
    simpa [setEntries] using h
  | cons e es ih =>
    unfold setEntries at h
    by_cases he : e.1 = k
    · rw [if_pos he, List.map_cons, List.mem_cons] at h
      rcases h with h | h
      · exact .inl h
      · exact .inr (List.mem_cons_of_mem _ h)
    · rw [if_neg he, List.map_cons, List.mem_cons] at h
      rcases h with h | h
      · right
        rw [h]
        exact List.mem_cons_self
      · exact (ih h).imp_right (List.mem_cons_of_mem _)

theorem nodup_setEntries (k : K) (v : V) {es : List (K × V)} (h : (es.map Prod.fst).Nodup) :
    ((setEntries k v es).map Prod.fst).Nodup := by
  induction es with
  | nil => exact List.nodup_singleton k
  | cons e es ih =>
    obtain ⟨hhead, htail⟩ := List.nodup_cons.mp h
    unfold setEntries
    by_cases he : e.1 = k
    · rw [if_pos he]
      rw [he] at hhead
      exact List.nodup_cons.mpr ⟨hhead, htail⟩
    · rw [if_neg he]
      refine List.nodup_cons.mpr ⟨fun hmem => ?_, ih htail⟩
      rcases mem_keys_setEntries hmem with heq | hin
      · exact he heq
      · exact hhead hin

/-- `m.set(k, v)`. -/
def set (m : OrdMap K V) (k : K) (v : V) : OrdMap K V :=
  ⟨setEntries k v m.entries, nodup_setEntries k v m.nodup⟩

/-- Assigning to the object stored under `k`, if there is one. -/
def update (m : OrdMap K V) (k : K) (f : V → V) : OrdMap K V :=
  match m.get k with
  | some v => m.set k (f v)
  | none => m

/-! ## Lookup and membership -/

theorem get_eq_some_iff {m : OrdMap K V} {k : K} {v : V} :
    m.get k = some v ↔ (k, v) ∈ m.entries := by
  unfold get
  obtain ⟨es, hnodup⟩ := m
  induction es with
  | nil => simp
  | cons e es ih =>
    obtain ⟨hhead, htail⟩ := List.nodup_cons.mp hnodup
    by_cases he : e.1 = k
    · have hout : (k, v) ∉ es := fun hmem => hhead (he ▸ List.mem_map_of_mem (f := Prod.fst) hmem)
      rw [List.find?_cons_of_pos (by simpa using he), Option.map_some, Option.some.injEq,
        List.mem_cons, or_iff_left hout]
      constructor
      · rintro rfl
        rw [← he]
      · rintro rfl
        rfl
    · rw [List.find?_cons_of_neg (by simpa using he), ih htail, List.mem_cons]
      refine ⟨.inr, fun h => h.resolve_left ?_⟩
      rintro rfl
      exact he rfl

theorem lookup_entries (m : OrdMap K V) (k : K) : m.entries.lookup k = m.get k := by
  unfold get
  induction m.entries with
  | nil => rfl
  | cons e es ih =>
    rw [List.lookup_cons]
    by_cases he : e.1 = k
    · have hkey : (k == e.1) = true := by simpa using he.symm
      rw [List.find?_cons_of_pos (by simpa using he), hkey]
      rfl
    · have hkey : (k == e.1) = false := by simpa using Ne.symm he
      rw [List.find?_cons_of_neg (by simpa using he), hkey]
      exact ih

theorem mem_values_iff {m : OrdMap K V} {v : V} : v ∈ m.values ↔ ∃ k, m.get k = some v := by
  simp only [values, List.mem_map, get_eq_some_iff, Prod.exists, exists_eq_right]

theorem size_eq_zero {m : OrdMap K V} : m.size = 0 ↔ ∀ k, m.get k = none := by
  unfold size
  rw [List.length_eq_zero_iff]
  constructor
  · intro h k
    unfold get
    rw [h]
    rfl
  · intro h
    refine List.eq_nil_iff_forall_not_mem.mpr fun e hmem => ?_
    have hget := get_eq_some_iff.mpr (show (e.1, e.2) ∈ m.entries from hmem)
    rw [h] at hget
    cases hget

theorem mem_keys_iff {m : OrdMap K V} {k : K} :
    k ∈ m.entries.map Prod.fst ↔ (m.get k).isSome := by
  rw [Option.isSome_iff_exists, List.mem_map]
  constructor
  · rintro ⟨⟨k, v⟩, hmem, rfl⟩
    exact ⟨v, get_eq_some_iff.mpr hmem⟩
  · rintro ⟨v, hv⟩
    exact ⟨(k, v), get_eq_some_iff.mp hv, rfl⟩

theorem mem_setEntries {k k' : K} {v v' : V} {es : List (K × V)} (h : (es.map Prod.fst).Nodup) :
    (k', v') ∈ setEntries k v es ↔ k' = k ∧ v' = v ∨ k' ≠ k ∧ (k', v') ∈ es := by
  induction es with
  | nil => simp [setEntries]
  | cons e es ih =>
    obtain ⟨hhead, htail⟩ := List.nodup_cons.mp h
    unfold setEntries
    by_cases he : e.1 = k
    · rw [if_pos he, List.mem_cons, Prod.mk.injEq, List.mem_cons]
      have hne : (k', v') ∈ es → k' ≠ k := by
        rintro hmem rfl
        exact hhead (he ▸ List.mem_map_of_mem (f := Prod.fst) hmem)
      have hhead' : k' ≠ k → (k', v') ≠ e := by
        rintro hk rfl
        exact hk he
      constructor
      · rintro (h | h)
        · exact .inl h
        · exact .inr ⟨hne h, .inr h⟩
      · rintro (h | ⟨hk, h | h⟩)
        · exact .inl h
        · exact absurd h (hhead' hk)
        · exact .inr h
    · rw [if_neg he, List.mem_cons, ih htail, List.mem_cons]
      have hhead' : (k', v') = e → k' ≠ k := by
        rintro rfl
        exact he
      constructor
      · rintro (h | h | ⟨hk, h⟩)
        · exact .inr ⟨hhead' h, .inl h⟩
        · exact .inl h
        · exact .inr ⟨hk, .inr h⟩
      · rintro (h | ⟨hk, h | h⟩)
        · exact .inr (.inl h)
        · exact .inl h
        · exact .inr (.inr ⟨hk, h⟩)

theorem get_set (m : OrdMap K V) (k k' : K) (v : V) :
    (m.set k v).get k' = if k' = k then some v else m.get k' := by
  refine Option.ext fun v' => ?_
  rw [get_eq_some_iff]
  show (k', v') ∈ setEntries k v m.entries ↔ _
  rw [mem_setEntries m.nodup]
  by_cases h : k' = k
  · rw [if_pos h, Option.some.injEq]
    constructor
    · rintro (⟨-, rfl⟩ | ⟨hk, -⟩)
      · rfl
      · exact absurd h hk
    · exact fun hv => .inl ⟨h, hv.symm⟩
  · rw [if_neg h, get_eq_some_iff]
    exact ⟨fun hv => (hv.resolve_left fun hk => h hk.1).2, fun hv => .inr ⟨h, hv⟩⟩

theorem get_set_eq_some_iff {m : OrdMap K V} {k k' : K} {v v' : V} :
    (m.set k v).get k' = some v' ↔ k' = k ∧ v' = v ∨ k' ≠ k ∧ m.get k' = some v' := by
  rw [get_eq_some_iff, get_eq_some_iff]
  exact mem_setEntries m.nodup

@[simp] theorem get_set_self (m : OrdMap K V) (k : K) (v : V) : (m.set k v).get k = some v := by
  rw [get_set, if_pos rfl]

theorem get_set_of_ne (m : OrdMap K V) {k k' : K} (v : V) (h : k' ≠ k) :
    (m.set k v).get k' = m.get k' := by
  rw [get_set, if_neg h]

/-- Setting a key adds its value at most. -/
theorem countP_values_set_le (m : OrdMap K V) (k : K) (v : V) (p : V → Bool) :
    (m.set k v).values.countP p ≤ m.values.countP p + [v].countP p := by
  show ((setEntries k v m.entries).map Prod.snd).countP p ≤ (m.entries.map Prod.snd).countP p + _
  induction m.entries with
  | nil => exact Nat.le_of_eq (Nat.zero_add _).symm
  | cons e es ih =>
    unfold setEntries
    by_cases he : e.1 = k
    · rw [if_pos he]
      simp only [List.map_cons, List.countP_cons, List.countP_nil]
      omega
    · rw [if_neg he]
      simp only [List.map_cons, List.countP_cons] at ih ⊢
      omega

/-- Setting a key that is not there adds an entry. -/
theorem size_set (m : OrdMap K V) (k : K) (v : V) :
    (m.set k v).size = if (m.get k).isSome then m.size else m.size + 1 := by
  unfold size set get
  dsimp only
  induction m.entries with
  | nil => rfl
  | cons e es ih =>
    unfold setEntries
    by_cases he : e.1 = k
    · rw [if_pos he, List.find?_cons_of_pos (by simpa using he)]
      rfl
    · rw [if_neg he, List.find?_cons_of_neg (by simpa using he), List.length_cons, ih,
        List.length_cons]
      split <;> rfl

theorem size_delete_le (m : OrdMap K V) (k : K) : (m.delete k).size ≤ m.size :=
  List.length_filter_le _ _

theorem get_filter (p : K → V → Bool) (m : OrdMap K V) (k : K) :
    (m.filter p).get k = (m.get k).filter (p k) := by
  refine Option.ext fun v => ?_
  rw [get_eq_some_iff, Option.filter_eq_some_iff, get_eq_some_iff]
  exact List.mem_filter

theorem get_delete (m : OrdMap K V) (k k' : K) :
    (m.delete k).get k' = if k' = k then none else m.get k' := by
  unfold delete
  rw [get_filter]
  by_cases h : k' = k
  · rw [if_pos h]
    cases m.get k' with
    | none => rfl
    | some v => simp [h]
  · rw [if_neg h]
    cases m.get k' with
    | none => rfl
    | some v => simp [h]

/-- What is left after a deletion was there before. -/
theorem get_delete_eq_some_iff {m : OrdMap K V} {k k' : K} {v : V} :
    (m.delete k).get k' = some v ↔ k' ≠ k ∧ m.get k' = some v := by
  rw [get_delete]
  by_cases h : k' = k
  · rw [if_pos h]
    exact ⟨nofun, fun hv => absurd h hv.1⟩
  · rw [if_neg h]
    exact ⟨fun hv => ⟨h, hv⟩, fun hv => hv.2⟩

theorem isSome_get_delete {m : OrdMap K V} {k k' : K} :
    ((m.delete k).get k').isSome ↔ k' ≠ k ∧ (m.get k').isSome := by
  simp only [Option.isSome_iff_exists, get_delete_eq_some_iff, exists_and_left]

theorem get_update (m : OrdMap K V) (k k' : K) (f : V → V) :
    (m.update k f).get k' = if k' = k then (m.get k').map f else m.get k' := by
  unfold update
  cases hk : m.get k with
  | none =>
    by_cases h : k' = k
    · rw [if_pos h, h, hk]
      rfl
    · rw [if_neg h]
  | some v =>
    show (m.set k (f v)).get k' = _
    rw [get_set]
    by_cases h : k' = k
    · rw [if_pos h, if_pos h, h, hk]
      rfl
    · rw [if_neg h, if_neg h]

/-! ## Deleting several keys -/

theorem keys_delete (m : OrdMap K V) (k : K) :
    (m.delete k).entries.map Prod.fst = (m.entries.map Prod.fst).erase k := by
  rw [m.nodup.erase_eq_filter, List.filter_map]
  refine congrArg (List.map Prod.fst) (List.filter_congr fun e _ => ?_)
  by_cases he : e.1 = k <;> simp [he]

theorem size_delete {m : OrdMap K V} {k : K} (h : (m.get k).isSome) :
    (m.delete k).size + 1 = m.size := by
  have hmem : k ∈ m.entries.map Prod.fst := mem_keys_iff.mpr h
  have hlength := List.length_erase_of_mem hmem
  have hpos := List.length_pos_of_mem hmem
  rw [← keys_delete, List.length_map, List.length_map] at hlength
  rw [List.length_map] at hpos
  unfold size
  omega

theorem get_foldl_delete (ks : List K) (m : OrdMap K V) (k : K) :
    (ks.foldl delete m).get k = if k ∈ ks then none else m.get k := by
  induction ks generalizing m with
  | nil => rw [List.foldl_nil, if_neg List.not_mem_nil]
  | cons k' ks ih =>
    rw [List.foldl_cons, ih, get_delete]
    by_cases hk : k = k'
    · rw [if_pos hk, if_pos (List.mem_cons.mpr (.inl hk)), ite_self]
    · have hiff : k ∈ k' :: ks ↔ k ∈ ks := by
        rw [List.mem_cons]
        exact or_iff_right hk
      simp only [if_neg hk, hiff]

/-- Each of some keys that are there takes one entry with it. -/
theorem size_foldl_delete {ks : List K} (hks : ks.Nodup) {m : OrdMap K V}
    (h : ∀ k ∈ ks, (m.get k).isSome) : (ks.foldl delete m).size + ks.length = m.size := by
  induction ks generalizing m with
  | nil => rfl
  | cons k ks ih =>
    obtain ⟨hk, hrest⟩ := List.nodup_cons.mp hks
    obtain ⟨hhead, htail⟩ := List.forall_mem_cons.mp h
    have hdelete := size_delete hhead
    have hmem : ∀ k' ∈ ks, ((m.delete k).get k').isSome := by
      intro k' hk'
      have hne : k' ≠ k := by
        intro heq
        rw [heq] at hk'
        exact hk hk'
      rw [get_delete, if_neg hne]
      exact htail k' hk'
    have hsize := ih hrest hmem
    rw [List.foldl_cons, List.length_cons]
    omega

end OrdMap

end ChainKVM
