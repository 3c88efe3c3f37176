import ChainKVM.Gateway.Cache
import ChainKVM.Gateway.DidKey

/-!
# The cached `did:key` resolver

`createDIDKeyResolver` answers from a cache, and otherwise resolves the DID and
remembers the result if it has a document. What makes the cache invisible is one
invariant, `Resolutions`: under each key lies a resolution of that key, with a
document. No operation of the cache makes an entry of its own (`Cache.Holds` is
kept by all of them, evictions included), so that times, sizes and the order of
the calls play no part.
-/

namespace ChainKVM.Gateway

/-! ## What every entry of a cache has -/

namespace Cache

variable {T : Type} {P : String → T → Prop} {c : Cache T}

/-- Every value in the cache has a property, which may depend on its key. -/
def Holds (P : String → T → Prop) (c : Cache T) : Prop :=
  ∀ key entry, c.entries.get key = some entry → P key entry.value

theorem Holds.new : Holds P (new : Cache T) := by
  intro key entry hentry
  cases hentry

theorem Holds.remove (h : Holds P c) (key : String) : Holds P (c.remove key) := by
  intro key' entry hentry
  have hget : (c.entries.delete key).get key' = some entry := hentry
  exact h key' entry (OrdMap.get_delete_eq_some_iff.mp hget).2

theorem Holds.removeExpired (h : Holds P c) (now : Int) : Holds P (c.removeExpired now) := by
  unfold Cache.removeExpired
  induction c.keysToRemove now generalizing c with
  | nil => exact h
  | cons key keys ih => exact ih (h.remove key)

theorem Holds.evictOldest (maxSize : Int) (order : List String)
    {entries : OrdMap String (CacheEntry T)}
    (h : ∀ key entry, entries.get key = some entry → P key entry.value) :
    Holds P (evictOldest maxSize order entries) := by
  induction order generalizing entries with
  | nil => exact h
  | cons oldest order ih =>
    unfold Cache.evictOldest
    split
    · refine ih fun key entry hentry => ?_
      split at hentry
      · exact h key entry hentry
      · exact h key entry (OrdMap.get_delete_eq_some_iff.mp hentry).2
    · exact h

theorem Holds.get (h : Holds P c) (now : Int) (key : String) : Holds P (c.get now key).2 := by
  unfold Cache.get
  cases c.entries.get key with
  | none => exact h
  | some entry =>
    dsimp only
    split
    · exact h.remove key
    · exact h

/-- What is found has the property. -/
theorem Holds.of_get (h : Holds P c) {now : Int} {key : String} {value : T}
    (hget : (c.get now key).1 = some value) : P key value := by
  unfold Cache.get at hget
  cases hentry : c.entries.get key with
  | none =>
    rw [hentry] at hget
    cases hget
  | some entry =>
    simp only [hentry] at hget
    split at hget
    · cases hget
    · cases hget
      exact h key entry hentry

theorem Holds.set (h : Holds P c) (config : CacheConfig) (now : Int) {key : String} {value : T}
    (hvalue : P key value) : Holds P (c.set config now key value) := by
  have hlive := h.removeExpired now
  intro key' entry hentry
  unfold Cache.set at hentry
  dsimp only at hentry
  rcases OrdMap.get_set_eq_some_iff.mp hentry with ⟨rfl, rfl⟩ | ⟨-, hold⟩
  · exact hvalue
  · split at hold
    · exact hlive key' entry hold
    · exact Holds.evictOldest config.maxSize _ hlive key' entry hold

end Cache

/-! ## The resolver -/

namespace DidKey

/-- A call of the resolver: its time, and how long a resolution takes. -/
inductive ResolverCall where
  | resolve (now : Int) (duration : Rat) (did : String)
  | clearCache

section

variable (lib : Multiformats) (config : CacheConfig)

/-- `resolve` of the cached resolver. -/
def resolve (now : Int) (duration : Rat) (did : String) (cache : Cache DIDResolutionResult) :
    DIDResolutionResult × Cache DIDResolutionResult :=
  match cache.get now did with
  | (some cached, cache) =>
    ({ cached with
        didResolutionMetadata := { cached.didResolutionMetadata with cached := some true } }, cache)
  | (none, cache) =>
    let result := resolveDIDKey lib did duration
    (result, if result.didDocument.isSome then cache.set config now did result else cache)

def stepResolver (cache : Cache DIDResolutionResult) :
    ResolverCall → Cache DIDResolutionResult
  | .resolve now duration did => (resolve lib config now duration did cache).2
  | .clearCache => .new

/-- The result is that of a resolution, but for how long it took and whether it
was cached. -/
structure SameResolution (result fresh : DIDResolutionResult) : Prop where
  document : result.didDocument = fresh.didDocument
  documentMetadata : result.didDocumentMetadata = fresh.didDocumentMetadata
  error : result.didResolutionMetadata.error = fresh.didResolutionMetadata.error
  contentType : result.didResolutionMetadata.contentType = fresh.didResolutionMetadata.contentType

/-- The answer to a call is a resolution of its DID, and one from the cache is
no failure. -/
def Transparent (cache : Cache DIDResolutionResult) : ResolverCall → Prop
  | .resolve now duration did =>
    let result := (resolve lib config now duration did cache).1
    (∀ duration', SameResolution result (resolveDIDKey lib did duration')) ∧
      ((cache.get now did).1.isSome = true →
        result.didDocument.isSome = true ∧ result.didResolutionMetadata.error = none)
  | .clearCache => True

/-- What the cache holds: a resolution of the key, with a document. -/
structure Resolution (did : String) (result : DIDResolutionResult) : Prop where
  same : ∀ duration, SameResolution result (resolveDIDKey lib did duration)
  document : result.didDocument.isSome = true

end

variable {lib : Multiformats} {config : CacheConfig} {cache : Cache DIDResolutionResult}

/-- How long a resolution takes does not change what it finds. -/
theorem sameResolution_resolveDIDKey (did : String) (duration duration' : Rat) :
    SameResolution (resolveDIDKey lib did duration) (resolveDIDKey lib did duration') := by
  unfold resolveDIDKey
  cases parseDIDKey lib did with
  | ok parsed => exact ⟨rfl, rfl, rfl, rfl⟩
  | error err => exact ⟨rfl, rfl, rfl, rfl⟩

/-- A resolution with a document has no error. -/
theorem error_eq_none {did : String} {duration : Rat}
    (h : (resolveDIDKey lib did duration).didDocument.isSome = true) :
    (resolveDIDKey lib did duration).didResolutionMetadata.error = none := by
  unfold resolveDIDKey at h ⊢
  cases hparse : parseDIDKey lib did with
  | ok parsed => rfl
  | error err =>
    rw [hparse] at h
    cases h

/-- A call that finds nothing in the cache resolves. -/
theorem resolve_of_none {now : Int} {did : String} (h : (cache.get now did).1 = none)
    (duration : Rat) : (resolve lib config now duration did cache).1 =
      resolveDIDKey lib did duration := by
  unfold resolve
  split
  next cached cache' hget =>
    rw [hget] at h
    cases h
  next => rfl

theorem resolve_of_some {now : Int} {did : String} {cached : DIDResolutionResult}
    (h : (cache.get now did).1 = some cached) (duration : Rat) :
    (resolve lib config now duration did cache).1 =
      { cached with
        didResolutionMetadata := { cached.didResolutionMetadata with cached := some true } } := by
  unfold resolve
  split
  next cached' cache' hget =>
    rw [hget] at h
    cases h
    rfl
  next hget =>
    rw [hget] at h
    cases h

theorem transparent_of_holds (h : cache.Holds (Resolution lib)) (call : ResolverCall) :
    Transparent lib config cache call := by
  cases call with
  | clearCache => trivial
  | resolve now duration did =>
    unfold Transparent
    dsimp only
    cases hget : (cache.get now did).1 with
    | none =>
      rw [resolve_of_none hget]
      refine ⟨sameResolution_resolveDIDKey did duration, fun hsome => ?_⟩
      cases hsome
    | some cached =>
      have hcached := h.of_get hget
      rw [resolve_of_some hget]
      refine ⟨fun duration' => ?_, fun _ => ⟨hcached.document, ?_⟩⟩
      · obtain ⟨hdocument, hmetadata, herror, htype⟩ := hcached.same duration'
        exact ⟨hdocument, hmetadata, herror, htype⟩
      · have hsame := hcached.same 0
        have hfresh := hcached.document
        rw [hsame.document] at hfresh
        exact hsame.error.trans (error_eq_none hfresh)

theorem holds_step (h : cache.Holds (Resolution lib)) (call : ResolverCall) :
    (stepResolver lib config cache call).Holds (Resolution lib) := by
  cases call with
  | clearCache => exact Cache.Holds.new
  | resolve now duration did =>
    have hafter := h.get now did
    show ((resolve lib config now duration did cache).2).Holds _
    unfold resolve
    split
    next cached cache' hget =>
      rw [hget] at hafter
      exact hafter
    next cache' hget =>
      rw [hget] at hafter
      dsimp only
      split
      next hdocument =>
        exact hafter.set config now ⟨sameResolution_resolveDIDKey did duration, hdocument⟩
      next => exact hafter

/-- Whatever its configuration and the times of the calls, the cached resolver
answers as a resolution does, and with no failure from its cache. -/
theorem transparent (lib : Multiformats) (config : CacheConfig) (calls : List ResolverCall) :
    Machine.Steps (stepResolver lib config) (Transparent lib config) .new calls :=
  Machine.steps_of_steps (I := Cache.Holds (Resolution lib)) (C := fun _ _ => True)
    (fun _ call h _ => holds_step h call) (fun _ call h _ => transparent_of_holds h call)
    Cache.Holds.new (Machine.steps_of_forall (fun _ _ => trivial) _ calls)

end DidKey

end ChainKVM.Gateway
