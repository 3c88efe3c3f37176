import ChainKVM.Lib.Machine
import ChainKVM.Lib.OrdMap

/-!
# The TTL cache: `identity/cache.ts`

`createCache` keeps its entries in a map and their keys, in the order of their
last `set`, in a list beside it. Every operation changes both: a `get` of an
expired key and the sweep before a `set` take a key out of both (`remove`), a
`set` of a present key moves it to the end, and a `set` of a new one at capacity
takes the oldest out (`evictOldest`).

What the two should amount to is one list: the settings that are still kept, in
their order (`CacheRun.kept`, which a run carries beside the cache).
`Mirrors` says that map and list show exactly these settings; one lemma for each
operation says that it keeps this. Only `evictOldest` can fail to: it does not
delete an entry whose key is the empty string, which is falsy, but has taken the
key off the list. `cache_consistent_iff` says that the cache is what it should be
throughout a run iff this does not happen.
-/

namespace ChainKVM.Gateway

open Machine (Always Steps)

/-- `CacheConfig`. -/
structure CacheConfig where
  ttlMs : Int
  maxSize : Int

structure CacheEntry (T : Type) where
  value : T
  expiresAt : Int

/-- What `createCache` closes over. -/
structure Cache (T : Type) where
  entries : OrdMap String (CacheEntry T)
  insertionOrder : List String

namespace Cache

variable {T : Type}

def new : Cache T := ⟨OrdMap.empty, []⟩

/-- `entries.delete(key)`, and the key is spliced out of the order. -/
def remove (c : Cache T) (key : String) : Cache T :=
  ⟨c.entries.delete key, c.insertionOrder.erase key⟩

/-- The `keysToRemove` of `removeExpired`. -/
def keysToRemove (now : Int) (c : Cache T) : List String :=
  (c.entries.entries.filter fun e => e.2.expiresAt ≤ now).map Prod.fst

/-- `removeExpired`. -/
def removeExpired (now : Int) (c : Cache T) : Cache T := (c.keysToRemove now).foldl remove c

/-- `evictOldest`: while there is no room, the first key leaves the order, and
its entry the map, unless the key is falsy. -/
def evictOldest (maxSize : Int) : List String → OrdMap String (CacheEntry T) → Cache T
  | [], entries => ⟨entries, []⟩
  | oldest :: order, entries =>
    if maxSize ≤ entries.size then
      evictOldest maxSize order (if oldest = "" then entries else entries.delete oldest)
    else ⟨entries, oldest :: order⟩

/-- `get`: the value, and the cache without the entry if that is expired. -/
def get (now : Int) (key : String) (c : Cache T) : Option T × Cache T :=
  match c.entries.get key with
  | none => (none, c)
  | some entry => if entry.expiresAt ≤ now then (none, c.remove key) else (some entry.value, c)

/-- `set`. -/
def set (config : CacheConfig) (now : Int) (key : String) (value : T) (c : Cache T) : Cache T :=
  let live := c.removeExpired now
  let room :=
    if key ∈ live.insertionOrder then
      { live with insertionOrder := live.insertionOrder.erase key }
    else evictOldest config.maxSize live.insertionOrder live.entries
  ⟨room.entries.set key ⟨value, now + config.ttlMs⟩, room.insertionOrder ++ [key]⟩

end Cache

/-! ## Runs -/

/-- A `set` that was called. -/
structure Setting (T : Type) where
  key : String
  value : T
  time : Int

section

variable {T : Type} (config : CacheConfig)

/-- The entry that a `set` makes. -/
def Setting.entry (s : Setting T) : CacheEntry T := ⟨s.value, s.time + config.ttlMs⟩

/-- As old as the `ttl` or older. -/
def Setting.expired (now : Int) (s : Setting T) : Bool := s.time + config.ttlMs ≤ now

inductive CacheOp (T : Type) where
  | get (key : String)
  | set (key : String) (value : T)
  | clear

/-- A call, some time after the one before it. -/
structure CacheCall (T : Type) where
  elapsed : Nat
  op : CacheOp T

/-- A cache and the settings that it should show, the oldest first. -/
structure CacheRun (T : Type) where
  now : Int
  cache : Cache T
  kept : List (Setting T)

def CacheRun.start (now : Int) : CacheRun T := ⟨now, .new, []⟩

/-- The settings that are not expired. -/
def unexpired (now : Int) (kept : List (Setting T)) : List (Setting T) :=
  kept.filter fun s => !s.expired config now

/-- A setting that is added: it replaces one of its key, or else, at capacity,
the oldest. -/
def keep (now : Int) (key : String) (value : T) (kept : List (Setting T)) : List (Setting T) :=
  let live := unexpired config now kept
  let others :=
    if key ∈ live.map (·.key) then live.filter fun s => s.key ≠ key
    else if config.maxSize ≤ live.length then live.tail
    else live
  others ++ [⟨key, value, now⟩]

/-- The value of the last `set`, if that is kept and younger than the `ttl`. -/
def answer (now : Int) (key : String) (kept : List (Setting T)) : Option T :=
  (kept.find? fun s => s.key = key ∧ s.expired config now = false).map (·.value)

def CacheRun.step (s : CacheRun T) (call : CacheCall T) : CacheRun T :=
  let now := s.now + call.elapsed
  match call.op with
  | .get key =>
    ⟨now, (s.cache.get now key).2, s.kept.filter fun k => ¬(k.key = key ∧ k.expired config now)⟩
  | .set key value => ⟨now, s.cache.set config now key value, keep config now key value s.kept⟩
  | .clear => ⟨now, .new, []⟩

/-- Map and list show the kept settings. -/
structure Mirrors (c : Cache T) (kept : List (Setting T)) : Prop where
  nodup : (kept.map (·.key)).Nodup
  order : c.insertionOrder = kept.map (·.key)
  entries : ∀ key entry, c.entries.get key = some entry ↔
    ∃ s ∈ kept, s.key = key ∧ s.entry config = entry

/-- The cache is what it should be: the order lists the keys of the entries,
each once, in the order of their last `set`, there are at most `maxSize`, and
until the next call a `get` gives the value of a kept setting that is not
expired. -/
structure Consistent (s : CacheRun T) : Prop extends Mirrors config s.cache s.kept where
  listed : ∀ key, key ∈ s.cache.insertionOrder ↔ (s.cache.entries.get key).isSome = true
  once : s.cache.insertionOrder.Nodup
  bound : (s.cache.entries.size : Int) ≤ config.maxSize
  answers : ∀ now key, s.now ≤ now → (s.cache.get now key).1 = answer config now key s.kept

/-- A call that takes out an entry that is not expired clears the cache, or sets
a new key at capacity and takes out the oldest. -/
def EvictsOldest (s : CacheRun T) (call : CacheCall T) : Prop :=
  let now := s.now + call.elapsed
  let live := s.cache.removeExpired now
  ∀ key entry, s.cache.entries.get key = some entry → now < entry.expiresAt →
    (s.step config call).cache.entries.get key = none →
    call.op = .clear ∨ ∃ new value, call.op = .set new value ∧ new ∉ live.insertionOrder ∧
      config.maxSize ≤ live.entries.size ∧ live.insertionOrder.head? = some key

/-- A new key is set at capacity while the oldest key is the empty string. -/
def LosesEmptyKey (s : CacheRun T) (call : CacheCall T) : Prop :=
  let live := s.cache.removeExpired (s.now + call.elapsed)
  ∃ key value, call.op = .set key value ∧ key ∉ live.insertionOrder ∧
    config.maxSize ≤ live.entries.size ∧ live.insertionOrder.head? = some ""

end

section

variable {T : Type} {config : CacheConfig} {c : Cache T} {kept : List (Setting T)} {now : Int}

/-! ## Settings with distinct keys -/

theorem key_filter (p : String → Bool) (kept : List (Setting T)) :
    (kept.filter fun s => p s.key).map (·.key) = (kept.map (·.key)).filter p := by
  rw [List.filter_map]
  rfl

theorem nodup_filter (p : Setting T → Bool) (h : (kept.map (·.key)).Nodup) :
    ((kept.filter p).map (·.key)).Nodup :=
  h.sublist (List.filter_sublist.map _)

theorem eq_of_key {s s' : Setting T} (h : (kept.map (·.key)).Nodup) (hs : s ∈ kept)
    (hs' : s' ∈ kept) (hkey : s.key = s'.key) : s = s' :=
  List.inj_on_of_nodup_map h hs hs' hkey

namespace Mirrors

/-- There are as many entries as kept settings. -/
theorem size (h : Mirrors config c kept) : c.entries.size = kept.length := by
  have hperm : (c.entries.entries.map Prod.fst).Perm (kept.map (·.key)) := by
    rw [List.perm_ext_iff_of_nodup c.entries.nodup h.nodup]
    intro key
    rw [OrdMap.mem_keys_iff, Option.isSome_iff_exists, List.mem_map]
    constructor
    · intro ⟨entry, hentry⟩
      obtain ⟨s, hs, hkey, -⟩ := (h.entries key entry).mp hentry
      exact ⟨s, hs, hkey⟩
    · intro ⟨s, hs, hkey⟩
      exact ⟨s.entry config, (h.entries key _).mpr ⟨s, hs, hkey, rfl⟩⟩
  have hlength := hperm.length_eq
  rw [List.length_map, List.length_map] at hlength
  exact hlength

theorem listed (h : Mirrors config c kept) (key : String) :
    key ∈ c.insertionOrder ↔ (c.entries.get key).isSome = true := by
  rw [h.order, List.mem_map, Option.isSome_iff_exists]
  constructor
  · intro ⟨s, hs, hkey⟩
    exact ⟨s.entry config, (h.entries key _).mpr ⟨s, hs, hkey, rfl⟩⟩
  · intro ⟨entry, hentry⟩
    obtain ⟨s, hs, hkey, -⟩ := (h.entries key entry).mp hentry
    exact ⟨s, hs, hkey⟩

/-- A kept setting is found under its key. -/
theorem get_eq (h : Mirrors config c kept) {s : Setting T} (hs : s ∈ kept) :
    c.entries.get s.key = some (s.entry config) :=
  (h.entries s.key _).mpr ⟨s, hs, rfl, rfl⟩

theorem new : Mirrors config (.new : Cache T) [] := by
  refine ⟨List.nodup_nil, rfl, fun key entry => ?_⟩
  show none = some entry ↔ _
  simp

/-! ## Operations -/

theorem remove (h : Mirrors config c kept) (key : String) :
    Mirrors config (c.remove key) (kept.filter fun s => s.key ≠ key) := by
  refine ⟨nodup_filter _ h.nodup, ?_, fun key' entry => ?_⟩
  · show c.insertionOrder.erase key = _
    have hfilter := key_filter (fun k => decide (k ≠ key)) kept
    rw [hfilter, h.order, h.nodup.erase_eq_filter]
    refine List.filter_congr fun k _ => ?_
    by_cases hk : k = key <;> simp [hk]
  · show (c.entries.delete key).get key' = some entry ↔ _
    rw [OrdMap.get_delete]
    by_cases hk : key' = key
    · rw [if_pos hk]
      constructor
      · intro hentry
        cases hentry
      · intro ⟨s, hs, hkey, _⟩
        have hne : s.key ≠ key := by simpa using (List.mem_filter.mp hs).2
        exact absurd (hkey.trans hk) hne
    · rw [if_neg hk, h.entries]
      constructor
      · intro ⟨s, hs, hkey, hentry⟩
        exact ⟨s, List.mem_filter.mpr ⟨hs, by simpa [hkey] using hk⟩, hkey, hentry⟩
      · intro ⟨s, hs, hkey, hentry⟩
        exact ⟨s, (List.mem_filter.mp hs).1, hkey, hentry⟩

theorem removeAll (h : Mirrors config c kept) (keys : List String) :
    Mirrors config (keys.foldl Cache.remove c) (kept.filter fun s => s.key ∉ keys) := by
  induction keys generalizing c kept with
  | nil =>
    have hall : (kept.filter fun s => s.key ∉ ([] : List String)) = kept := by simp
    rw [hall]
    exact h
  | cons key keys ih =>
    have hboth : (kept.filter fun s => s.key ∉ key :: keys) =
        (kept.filter fun s => s.key ≠ key).filter fun s => s.key ∉ keys := by
      rw [List.filter_filter]
      refine List.filter_congr fun s _ => ?_
      by_cases hk : s.key = key <;> simp [hk]
    rw [List.foldl_cons, hboth]
    exact ih (h.remove key)

theorem mem_keysToRemove {key : String} : key ∈ c.keysToRemove now ↔
    ∃ entry, c.entries.get key = some entry ∧ entry.expiresAt ≤ now := by
  unfold Cache.keysToRemove
  rw [List.mem_map]
  constructor
  · intro ⟨e, he, hkey⟩
    obtain ⟨hmem, hexpired⟩ := List.mem_filter.mp he
    refine ⟨e.2, OrdMap.get_eq_some_iff.mpr ?_, of_decide_eq_true hexpired⟩
    rw [← hkey]
    exact hmem
  · intro ⟨entry, hentry, hexpired⟩
    exact ⟨(key, entry), List.mem_filter.mpr ⟨OrdMap.get_eq_some_iff.mp hentry,
      decide_eq_true hexpired⟩, rfl⟩

/-- The sweep leaves what is not expired. -/
theorem removeExpired (h : Mirrors config c kept) (now : Int) :
    Mirrors config (c.removeExpired now) (unexpired config now kept) := by
  have hsame : unexpired config now kept = kept.filter fun s => s.key ∉ c.keysToRemove now := by
    refine List.filter_congr fun s hs => ?_
    have hmem : s.key ∈ c.keysToRemove now ↔ s.expired config now = true := by
      rw [mem_keysToRemove, h.get_eq hs]
      simp [Setting.expired, Setting.entry]
    by_cases hexpired : s.expired config now = true
    · simp [hexpired, hmem.mpr hexpired]
    · have hout := mt hmem.mp hexpired
      simp [hexpired, hout]
  rw [hsame]
  exact h.removeAll _

/-- A `get` leaves the cache without the expired setting of its key. -/
theorem get (h : Mirrors config c kept) (now : Int) (key : String) :
    Mirrors config (c.get now key).2
      (kept.filter fun s => ¬(s.key = key ∧ s.expired config now)) := by
  have hself (hkept : ∀ s ∈ kept, s.key = key → s.expired config now = false) :
      (kept.filter fun s => ¬(s.key = key ∧ s.expired config now)) = kept := by
    refine List.filter_eq_self.mpr fun s hs => ?_
    by_cases hk : s.key = key
    · simp [hkept s hs hk]
    · simp [hk]
  unfold Cache.get
  cases hentry : c.entries.get key with
  | none =>
    rw [hself fun s hs hk => ?_]
    · exact h
    · rw [← hk, h.get_eq hs] at hentry
      cases hentry
  | some entry =>
    have hexpires {s : Setting T} (hs : s ∈ kept) (hk : s.key = key) :
        s.expired config now = decide (entry.expiresAt ≤ now) := by
      rw [← hk, h.get_eq hs] at hentry
      rw [← Option.some.inj hentry]
      rfl
    dsimp only
    by_cases hexpired : entry.expiresAt ≤ now
    · rw [if_pos hexpired]
      have hdrop : (kept.filter fun s => ¬(s.key = key ∧ s.expired config now)) =
          kept.filter fun s => s.key ≠ key := by
        refine List.filter_congr fun s hs => ?_
        by_cases hk : s.key = key
        · simp [hk, hexpires hs hk, hexpired]
        · simp [hk]
      rw [hdrop]
      exact h.remove key
    · rw [if_neg hexpired, hself fun s hs hk => ?_]
      · exact h
      · rw [hexpires hs hk]
        exact decide_eq_false hexpired

/-- A `get` gives the value of the kept setting that is not expired. -/
theorem get_value (h : Mirrors config c kept) (now : Int) (key : String) :
    (c.get now key).1 = answer config now key kept := by
  unfold Cache.get answer
  cases hentry : c.entries.get key with
  | none =>
    have hnone : (kept.find? fun s => s.key = key ∧ s.expired config now = false) = none := by
      rw [List.find?_eq_none]
      intro s hs hfound
      have hk : s.key = key := (of_decide_eq_true hfound).1
      rw [← hk, h.get_eq hs] at hentry
      cases hentry
    rw [hnone]
    rfl
  | some entry =>
    obtain ⟨s, hs, hk, hsome⟩ := (h.entries key entry).mp hentry
    have hexpires : s.expired config now = decide (entry.expiresAt ≤ now) := by
      rw [← hsome]
      rfl
    dsimp only
    by_cases hexpired : entry.expiresAt ≤ now
    · have hnone : (kept.find? fun s => s.key = key ∧ s.expired config now = false) = none := by
        rw [List.find?_eq_none]
        intro s' hs' hfound
        obtain ⟨hk', hlive⟩ := of_decide_eq_true hfound
        rw [eq_of_key h.nodup hs' hs (hk'.trans hk.symm), hexpires] at hlive
        exact absurd hexpired (of_decide_eq_false hlive)
      rw [if_pos hexpired, hnone]
      rfl
    · have hlive : s.expired config now = false := by
        rw [hexpires]
        exact decide_eq_false hexpired
      cases hfind : kept.find? fun s => s.key = key ∧ s.expired config now = false with
      | none =>
        have hno := List.find?_eq_none.mp hfind s hs
        exact absurd (decide_eq_true ⟨hk, hlive⟩) hno
      | some s' =>
        -- the key has one setting
        have hs' := List.mem_of_find?_eq_some hfind
        have hfound := List.find?_some hfind
        rw [decide_eq_true_eq] at hfound
        have hk' : s'.key = key := hfound.1
        rw [if_neg hexpired, eq_of_key h.nodup hs' hs (hk'.trans hk.symm), ← hsome]
        rfl

theorem evictOldest_of_lt {maxSize : Int} {entries : OrdMap String (CacheEntry T)}
    (h : (entries.size : Int) < maxSize) (order : List String) :
    Cache.evictOldest maxSize order entries = ⟨entries, order⟩ := by
  cases order with
  | nil => rfl
  | cons key order => exact if_neg (Int.not_le.mpr h)

/-- With room to be made for one entry, and the oldest key not empty, eviction
takes out the oldest. -/
theorem evictOldest (h : Mirrors config c kept) (hmax : 1 ≤ config.maxSize)
    (hbound : (kept.length : Int) ≤ config.maxSize)
    (hkey : config.maxSize ≤ kept.length → (kept.map (·.key)).head? ≠ some "") :
    Mirrors config (Cache.evictOldest config.maxSize c.insertionOrder c.entries)
      (if config.maxSize ≤ kept.length then kept.tail else kept) := by
  have hsize := h.size
  by_cases hfull : config.maxSize ≤ kept.length
  · rw [if_pos hfull]
    cases kept with
    | nil =>
      rw [List.length_nil] at hfull
      omega
    | cons oldest others =>
      have hne : oldest.key ≠ "" := fun heq => hkey hfull (congrArg some heq)
      have hnot : oldest.key ∉ others.map (·.key) := (List.nodup_cons.mp h.nodup).1
      have hothers : ((oldest :: others).filter fun s => s.key ≠ oldest.key) = others := by
        rw [List.filter_cons_of_neg (by simp)]
        refine List.filter_eq_self.mpr fun s hs => ?_
        have hs' : s.key ≠ oldest.key := fun heq => hnot (List.mem_map.mpr ⟨s, hs, heq⟩)
        simpa using hs'
      have hremove := h.remove oldest.key
      rw [hothers] at hremove
      have horder : c.insertionOrder = oldest.key :: others.map (·.key) := h.order
      have hlast : ((c.entries.delete oldest.key).size : Int) < config.maxSize := by
        have hone : (c.entries.delete oldest.key).size = others.length := hremove.size
        rw [List.length_cons] at hbound
        omega
      have hfirst : config.maxSize ≤ c.entries.size := by
        rw [hsize]
        exact hfull
      rw [horder, Cache.evictOldest, if_pos hfirst, if_neg hne, evictOldest_of_lt hlast]
      have hgone : c.insertionOrder.erase oldest.key = others.map (·.key) := hremove.order
      rw [← hgone]
      exact hremove
  · rw [if_neg hfull, evictOldest_of_lt (by omega)]
    exact h

/-- A setting of a new key, put last. -/
theorem push (h : Mirrors config c kept) {key : String} (hkey : key ∉ kept.map (·.key))
    {entries : OrdMap String (CacheEntry T)}
    (hothers : ∀ k, k ≠ key → entries.get k = c.entries.get k) (value : T) (now : Int) :
    Mirrors config ⟨entries.set key ⟨value, now + config.ttlMs⟩, c.insertionOrder ++ [key]⟩
      (kept ++ [⟨key, value, now⟩]) := by
  refine ⟨?_, ?_, fun key' entry => ?_⟩
  · rw [List.map_append, List.map_singleton, List.nodup_append]
    refine ⟨h.nodup, List.nodup_singleton _, fun k hk k' hk' heq => ?_⟩
    rw [heq, List.mem_singleton.mp hk'] at hk
    exact hkey hk
  · rw [List.map_append, List.map_singleton, ← h.order]
  · show (entries.set key _).get key' = some entry ↔ _
    rw [OrdMap.get_set]
    simp only [List.mem_append, List.mem_singleton, or_and_right, exists_or, exists_eq_left]
    by_cases hk : key' = key
    · -- no other setting has the key
      have hno : ¬∃ s ∈ kept, s.key = key' ∧ s.entry config = entry := by
        intro hother
        obtain ⟨s, hs, hkey', -⟩ := hother
        exact hkey (List.mem_map.mpr ⟨s, hs, hkey'.trans hk⟩)
      rw [if_pos hk, or_iff_right hno, Option.some.injEq]
      exact ⟨fun hentry => ⟨hk.symm, hentry⟩, fun hentry => hentry.2⟩
    · have hno : ¬(key = key' ∧ Setting.entry config ⟨key, value, now⟩ = entry) :=
        fun hentry => hk hentry.1.symm
      rw [if_neg hk, or_iff_left hno, hothers key' hk]
      exact h.entries key' entry

/-- A `set` keeps the setting, if it does not lose the empty key. -/
theorem set (h : Mirrors config c kept) (hmax : 1 ≤ config.maxSize)
    (hbound : (kept.length : Int) ≤ config.maxSize) (now : Int) (key : String) (value : T)
    (hkey : key ∉ (c.removeExpired now).insertionOrder →
      config.maxSize ≤ (c.removeExpired now).entries.size →
      (c.removeExpired now).insertionOrder.head? ≠ some "") :
    Mirrors config (c.set config now key value) (keep config now key value kept) := by
  have hlive := h.removeExpired now
  have hlength : ((unexpired config now kept).length : Int) ≤ config.maxSize := by
    have hle : (unexpired config now kept).length ≤ kept.length := List.length_filter_le _ _
    omega
  unfold Cache.set keep
  dsimp only
  rw [← hlive.order]
  by_cases hin : key ∈ (c.removeExpired now).insertionOrder
  · -- the key moves to the end
    rw [if_pos hin, if_pos hin]
    refine (hlive.remove key).push ?_ (fun k hk => ?_) value now
    · intro hmem
      obtain ⟨s, hs, hk⟩ := List.mem_map.mp hmem
      have hne : s.key ≠ key := by simpa using (List.mem_filter.mp hs).2
      exact hne hk
    · show _ = ((c.removeExpired now).entries.delete key).get k
      rw [OrdMap.get_delete, if_neg hk]
  · rw [if_neg hin, if_neg hin]
    have hroom := hlive.evictOldest hmax hlength (by
      rw [← hlive.size, ← hlive.order]
      exact hkey hin)
    refine hroom.push (fun hmem => ?_) (fun k _ => rfl) value now
    -- what is left after the eviction was there before
    rw [hlive.order] at hin
    split at hmem
    next => exact hin (List.Sublist.subset ((List.tail_sublist _).map _) hmem)
    next => exact hin hmem

end Mirrors

/-- A kept setting leaves room for itself. -/
theorem length_keep (hmax : 1 ≤ config.maxSize) (hbound : (kept.length : Int) ≤ config.maxSize)
    (now : Int) (key : String) (value : T) :
    ((keep config now key value kept).length : Int) ≤ config.maxSize := by
  have hlive : (unexpired config now kept).length ≤ kept.length := List.length_filter_le _ _
  unfold keep
  dsimp only
  rw [List.length_append, List.length_singleton]
  split
  next hin =>
    obtain ⟨s, hs, hk⟩ := List.mem_map.mp hin
    have hlt : ((unexpired config now kept).filter fun s => s.key ≠ key).length <
        (unexpired config now kept).length := by
      rw [List.length_filter_lt_length_iff_exists]
      exact ⟨s, hs, by simp [hk]⟩
    omega
  next =>
    split
    next =>
      rw [List.length_tail]
      omega
    next => omega

/-! ## Whole runs -/

theorem Consistent.of_mirrors {s : CacheRun T} (h : Mirrors config s.cache s.kept)
    (hbound : (s.kept.length : Int) ≤ config.maxSize) : Consistent config s := by
  refine ⟨h, h.listed, ?_, ?_, fun now key _ => h.get_value now key⟩
  · rw [h.order]
    exact h.nodup
  · rw [h.size]
    exact hbound

variable {s : CacheRun T} {call : CacheCall T}

theorem Consistent.length_le (h : Consistent config s) :
    (s.kept.length : Int) ≤ config.maxSize := by
  rw [← h.toMirrors.size]
  exact h.bound

/-- A step that does not lose the empty key keeps the cache consistent. -/
theorem Consistent.step (hmax : 1 ≤ config.maxSize) (h : Consistent config s)
    (hcall : ¬LosesEmptyKey config s call) : Consistent config (s.step config call) := by
  have hlength := h.length_le
  obtain ⟨elapsed, op⟩ := call
  cases op with
  | get key =>
    exact .of_mirrors (h.toMirrors.get _ key)
      (Int.le_trans (Int.ofNat_le.mpr (List.length_filter_le _ _)) hlength)
  | set key value =>
    refine .of_mirrors (h.toMirrors.set hmax hlength _ key value fun hnew hfull hempty => ?_)
      (length_keep hmax hlength _ key value)
    exact hcall ⟨key, value, rfl, hnew, hfull, hempty⟩
  | clear =>
    refine .of_mirrors .new ?_
    show (0 : Int) ≤ _
    omega

/-- An unexpired setting of another key goes only for a new key at capacity, as
the oldest. -/
theorem oldest_of_not_mem_keep {k : Setting T} {new : String} {value : T}
    (hmem : k ∈ unexpired config now kept) (hkey : k.key ≠ new)
    (hgone : k ∉ keep config now new value kept) :
    new ∉ (unexpired config now kept).map (·.key) ∧
      config.maxSize ≤ (unexpired config now kept).length ∧
      (unexpired config now kept).head? = some k := by
  unfold keep at hgone
  dsimp only at hgone
  rw [List.mem_append, not_or] at hgone
  by_cases hin : new ∈ (unexpired config now kept).map (·.key)
  · -- the new key replaces its own setting
    rw [if_pos hin] at hgone
    exact absurd (List.mem_filter.mpr ⟨hmem, by simpa using hkey⟩) hgone.1
  · rw [if_neg hin] at hgone
    refine ⟨hin, ?_⟩
    by_cases hfull : config.maxSize ≤ (unexpired config now kept).length
    · rw [if_pos hfull] at hgone
      refine ⟨hfull, ?_⟩
      cases hcons : unexpired config now kept with
      | nil =>
        rw [hcons] at hmem
        cases hmem
      | cons oldest others =>
        rw [hcons] at hmem hgone
        rcases List.mem_cons.mp hmem with heq | hlater
        · rw [heq]
          rfl
        · exact absurd hlater hgone.1
    · rw [if_neg hfull] at hgone
      exact absurd hmem hgone.1

/-- A step that does not lose the empty key takes out the oldest entry only. -/
theorem Consistent.evictsOldest (hmax : 1 ≤ config.maxSize) (h : Consistent config s)
    (hcall : ¬LosesEmptyKey config s call) : EvictsOldest config s call := by
  have hafter := (h.step hmax hcall).toMirrors
  have hlive := h.toMirrors.removeExpired (s.now + call.elapsed)
  intro key entry hentry hnow hgone
  obtain ⟨k, hk, hkey, hsome⟩ := (h.entries key entry).mp hentry
  have hyoung : k.expired config (s.now + call.elapsed) = false := by
    rw [← hsome] at hnow
    exact decide_eq_false (Int.not_le.mpr hnow)
  -- a setting that is kept would still be found
  have hout : k ∉ (s.step config call).kept := by
    intro hin
    have hfound := hafter.get_eq hin
    rw [hkey, hgone] at hfound
    cases hfound
  obtain ⟨elapsed, op⟩ := call
  cases op with
  | get key' =>
    exact absurd (List.mem_filter.mpr ⟨hk, by simp [hyoung]⟩) hout
  | clear => exact .inl rfl
  | set new value =>
    have hmem : k ∈ unexpired config (s.now + elapsed) s.kept :=
      List.mem_filter.mpr ⟨hk, by simp [hyoung]⟩
    have hne : k.key ≠ new := by
      intro hsame
      rw [← hkey, hsame] at hgone
      have hset : ((s.step config ⟨elapsed, .set new value⟩).cache.entries.get new).isSome =
          true := by
        show ((OrdMap.set _ new _).get new).isSome = true
        rw [OrdMap.get_set_self]
        rfl
      rw [hgone] at hset
      cases hset
    obtain ⟨hnew, hfull, hfirst⟩ := oldest_of_not_mem_keep hmem hne hout
    refine .inr ⟨new, value, rfl, ?_, hlive.size.symm ▸ hfull, ?_⟩
    · show new ∉ (s.cache.removeExpired (s.now + elapsed)).insertionOrder
      rw [hlive.order]
      exact hnew
    · show (s.cache.removeExpired (s.now + elapsed)).insertionOrder.head? = some key
      rw [hlive.order, List.head?_map, hfirst, ← hkey]
      rfl

/-- Eviction does not delete the entry of the empty key, but takes the key off
the order. -/
theorem evictOldest_empty (maxSize : Int) (order : List String) {entries : OrdMap String (CacheEntry T)}
    (hentry : (entries.get "").isSome = true) :
    ((Cache.evictOldest maxSize order entries).entries.get "").isSome = true ∧
      (Cache.evictOldest maxSize order entries).insertionOrder.Sublist order := by
  induction order generalizing entries with
  | nil => exact ⟨hentry, List.Sublist.refl _⟩
  | cons oldest order ih =>
    unfold Cache.evictOldest
    split
    next =>
      have hkeeps : ((if oldest = "" then entries else entries.delete oldest).get "").isSome =
          true := by
        split
        next => exact hentry
        next hne =>
          rw [OrdMap.get_delete, if_neg (Ne.symm hne)]
          exact hentry
      exact ⟨(ih hkeeps).1, (ih hkeeps).2.cons _⟩
    next => exact ⟨hentry, List.Sublist.refl _⟩

/-- Once the empty key is lost, the order does not list all the entries. -/
theorem Consistent.not_of_loses (h : Consistent config s)
    (hcall : LosesEmptyKey config s call) : ¬Consistent config (s.step config call) := by
  have hlive := h.toMirrors.removeExpired (s.now + call.elapsed)
  obtain ⟨elapsed, op⟩ := call
  obtain ⟨key, value, hop, hnew, hfull, hempty⟩ := hcall
  cases hop
  obtain ⟨order, horder⟩ : ∃ order,
      (s.cache.removeExpired (s.now + elapsed)).insertionOrder = "" :: order := by
    cases hcons : (s.cache.removeExpired (s.now + elapsed)).insertionOrder with
    | nil =>
      rw [hcons] at hempty
      cases hempty
    | cons first order =>
      rw [hcons] at hempty
      cases hempty
      exact ⟨order, rfl⟩
  have hnodup : ("" :: order).Nodup := by
    rw [← horder, hlive.order]
    exact hlive.nodup
  have hpresent : ((s.cache.removeExpired (s.now + elapsed)).entries.get "").isSome = true := by
    rw [← hlive.listed, horder]
    exact List.mem_cons_self
  have hne : "" ≠ key := by
    intro heq
    refine hnew ?_
    rw [← heq, horder]
    exact List.mem_cons_self
  obtain ⟨hkeeps, hsub⟩ := evictOldest_empty config.maxSize order hpresent
  have hcache : (s.step config ⟨elapsed, .set key value⟩).cache =
      ⟨(Cache.evictOldest config.maxSize order
          (s.cache.removeExpired (s.now + elapsed)).entries).entries.set key
          ⟨value, s.now + elapsed + config.ttlMs⟩,
        (Cache.evictOldest config.maxSize order
          (s.cache.removeExpired (s.now + elapsed)).entries).insertionOrder ++ [key]⟩ := by
    show s.cache.set config (s.now + elapsed) key value = _
    unfold Cache.set
    dsimp only
    rw [if_neg hnew, horder, Cache.evictOldest, if_pos hfull, if_pos rfl]
  intro hafter
  have hlisted := hafter.listed ""
  rw [hcache, OrdMap.get_set_of_ne _ _ hne] at hlisted
  rcases List.mem_append.mp (hlisted.mpr hkeeps) with hin | hin
  · exact (List.nodup_cons.mp hnodup).1 (hsub.subset hin)
  · exact hne (List.mem_singleton.mp hin)

theorem Consistent.start (hmax : 1 ≤ config.maxSize) (now : Int) :
    Consistent config (CacheRun.start now : CacheRun T) :=
  .of_mirrors .new (by
    show (0 : Int) ≤ _
    omega)

end

/-- The cache is what it should be after every call, and evicts only the oldest
entry at capacity, iff no call sets a new key at capacity while the oldest key
is the empty string. -/
theorem cache_consistent_iff {T : Type} {config : CacheConfig} (hmax : 1 ≤ config.maxSize) (now : Int)
    (calls : List (CacheCall T)) :
    Always (CacheRun.step config) (Consistent config) (.start now) calls ∧
        Steps (CacheRun.step config) (EvictsOldest config) (.start now) calls ↔
      Steps (CacheRun.step config) (fun s call => ¬LosesEmptyKey config s call) (.start now)
        calls := by
  refine Machine.always_and_steps_iff (fun s call hs _ => ?_) (Consistent.start hmax now)
    (Machine.steps_of_forall (C := fun _ _ => True) (fun _ _ => trivial) _ _)
  constructor
  · intro h hloses
    exact hs.not_of_loses hloses h.1
  · intro hcall
    exact ⟨hs.step hmax hcall, hs.evictsOldest hmax hcall⟩

/-- A key, a second one at capacity, and the first again. -/
theorem cache_consistent_sample :
    Always (CacheRun.step ⟨1000, 1⟩) (Consistent ⟨1000, 1⟩) (.start 0)
        [⟨0, .set "did:key:a" 1⟩, ⟨5, .set "did:key:b" 2⟩, ⟨5, .get "did:key:a"⟩] ∧
      Steps (CacheRun.step ⟨1000, 1⟩) (EvictsOldest ⟨1000, 1⟩) (.start 0)
        [⟨0, .set "did:key:a" 1⟩, ⟨5, .set "did:key:b" 2⟩, ⟨5, .get "did:key:a"⟩] ↔
      Steps (CacheRun.step ⟨1000, 1⟩) (fun s call => ¬LosesEmptyKey ⟨1000, 1⟩ s call) (.start 0)
        [⟨0, .set "did:key:a" 1⟩, ⟨5, .set "did:key:b" 2⟩, ⟨5, .get "did:key:a"⟩] :=
  cache_consistent_iff (by decide) 0 _

/-- Under the empty key and then another, a cache for one entry holds two, of
which it lists one. -/
theorem cache_consistent_fails :
    (Machine.run (CacheRun.step ⟨1000, 1⟩) (.start 0)
        [⟨0, .set "" 1⟩, ⟨0, .set "a" 2⟩]).cache.entries.size = 2 ∧
      (Machine.run (CacheRun.step ⟨1000, 1⟩) (.start 0)
        [⟨0, .set "" 1⟩, ⟨0, .set "a" 2⟩]).cache.insertionOrder = ["a"] ∧
      ¬Always (CacheRun.step ⟨1000, 1⟩) (Consistent ⟨1000, 1⟩) (.start 0)
        [⟨0, .set "" 1⟩, ⟨0, .set "a" 2⟩] := by
  have hsize : (Machine.run (CacheRun.step ⟨1000, 1⟩) (.start 0)
      [⟨0, .set "" 1⟩, ⟨0, .set "a" 2⟩]).cache.entries.size = 2 := by decide
  refine ⟨hsize, by decide, fun h => ?_⟩
  have hbound := h.last.bound
  rw [hsize] at hbound
  exact absurd hbound (by decide)

end ChainKVM.Gateway
