import ChainKVM.Gateway.Sample

/-!
# A refresh that comes to nothing

`refresh` revokes the session's tokens first and asks for a new one after. When
`generate` fails the old token is gone and there is no new one: of all the exits
of the handler this is the one that leaves something behind
(`refresh_atomic_iff`). On the exits before it the handler has only looked. A
look at the revocation cache counts itself, and drops an entry that has expired;
the counters are left out of the comparison, the entry is not.

A failing settlement changes nothing by itself (`unaffected_settle`), so it does
not matter what else happens during the `await`.
-/

namespace ChainKVM.Gateway

open Js (Val)
open Machine (run)

/-! ## Leaving no trace -/

/-- A cache without its counters. -/
def RevocationCache.contents (c : RevocationCache) : Int × OrdMap String RevokedEntry :=
  (c.maxSize, c.cache)

/-- The same tokens and the same revocations. -/
structure TokenRegistry.Same (r r' : TokenRegistry) : Prop where
  tokens : r'.tokens = r.tokens
  cache : r'.revocationCache.map RevocationCache.contents =
    r.revocationCache.map RevocationCache.contents

theorem TokenRegistry.Same.refl (r : TokenRegistry) : r.Same r := ⟨rfl, rfl⟩

/-- The registry, the revocation cache and the sessions are as before. -/
structure Unaffected (s t : State) : Prop where
  registry : s.registry.Same t.registry
  sessions : t.sessions = s.sessions

/-- A refresh from the request to its answer, with nothing else in between;
`generated` says how the call of `generate` ends if it comes to it. -/
def refreshAnswer (d : Deployment) (s : State) (sessionId : String)
    (authorization : Option String) (uuids : Uuids) (generated : Bool) : Option Reply × State :=
  let started := handle d s (.refresh sessionId authorization uuids)
  match started.1 with
  | some _ => started
  | none => handle d started.2 (.settle s.pending.length generated)

/-- A refresh that does not answer 200 leaves no trace. -/
def RefreshAtomic (d : Deployment) (s : State) (sessionId : String)
    (authorization : Option String) (uuids : Uuids) (generated : Bool) : Prop :=
  (∀ response, (refreshAnswer d s sessionId authorization uuids generated).1 ≠
      some (.refreshed response)) →
    Unaffected s (refreshAnswer d s sessionId authorization uuids generated).2

/-! ## When it does -/

/-- The request gets as far as the question whether its token is valid. -/
structure AsksForToken (s : State) (sessionId : String) (authorization : Option String)
    (bearerToken : String) : Prop where
  bearer : extractBearerToken authorization = some bearerToken
  isOpen : ∃ session, s.sessions.get sessionId = some session ∧
    (session.state = .pending ∨ session.state = .active)

/-- The question is put to the registry: the token is registered for the session. -/
structure AsksRegistry (d : Deployment) (s : State) (sessionId bearerToken jti : String)
    (entry : TokenEntry) : Prop where
  configured : d.modules.tokenRegistry = true
  extracted : extractJtiFromToken d.decodePart bearerToken = .str jti
  nonempty : jti ≠ ""
  registered : s.registry.get jti = some entry
  same_session : entry.sessionId = sessionId

/-- The registry drops an entry from its cache, one that has expired. -/
structure DropsEntry (d : Deployment) (s : State) (sessionId bearerToken jti : String)
    (entry : TokenEntry) (cache : RevocationCache) (revoked : RevokedEntry) : Prop
    extends AsksRegistry d s sessionId bearerToken jti entry where
  cached : s.registry.revocationCache = some cache
  stored : cache.cache.get jti = some revoked
  expired : revoked.expiresAt ≤ s.now

/-- The token is accepted, and there is a generator to ask for the next one. -/
def Exchanges (d : Deployment) (s : State) (sessionId bearerToken : String) : Prop :=
  (isTokenValidForSession d.decodePart s.now bearerToken sessionId d.modules.tokenRegistry
    s.registry).1 = true ∧ d.modules.tokenGenerator = true

/-- An exchange goes through, or there is no registry to revoke anything in; a
request that is refused over its token meets no expired revocation of it. -/
structure RefreshKeeps (d : Deployment) (s : State) (sessionId : String)
    (authorization : Option String) (generated : Bool) : Prop where
  exchanged : ∀ bearerToken, AsksForToken s sessionId authorization bearerToken →
    Exchanges d s sessionId bearerToken → generated = true ∨ d.modules.tokenRegistry = false
  refused : ∀ bearerToken, AsksForToken s sessionId authorization bearerToken →
    ¬ Exchanges d s sessionId bearerToken →
      ∀ jti entry cache revoked,
        ¬ DropsEntry d s sessionId bearerToken jti entry cache revoked

/-! ## The look-up -/

theorem contents_isRevoked {c : RevocationCache} {now : Int} {jti : String} :
    (c.isRevoked now jti).2.contents = c.contents ↔
      ∀ revoked, c.cache.get jti = some revoked → now < revoked.expiresAt := by
  unfold RevocationCache.isRevoked
  cases hget : c.cache.get jti with
  | none =>
    refine ⟨fun _ revoked h => ?_, fun _ => rfl⟩
    cases h
  | some revoked =>
    dsimp only
    by_cases hexpired : revoked.expiresAt ≤ now
    · rw [if_pos hexpired]
      refine ⟨fun h => ?_, fun h => absurd (h revoked rfl) (Int.not_lt.mpr hexpired)⟩
      -- the entry is no longer there
      have hcache : c.cache.delete jti = c.cache := congrArg Prod.snd h
      have hgone := OrdMap.get_delete c.cache jti jti
      rw [hcache, if_pos rfl, hget] at hgone
      cases hgone
    · rw [if_neg hexpired]
      refine ⟨fun _ revoked' h => ?_, fun _ => rfl⟩
      obtain rfl := Option.some.inj h
      exact Int.not_le.mp hexpired

theorem same_isValid {r : TokenRegistry} {now : Int} {jti : String} :
    r.Same (r.isValid now jti).2 ↔ ∀ cache revoked, r.revocationCache = some cache →
      cache.cache.get jti = some revoked → now < revoked.expiresAt := by
  unfold TokenRegistry.isValid
  cases hcache : r.revocationCache with
  | none =>
    refine ⟨fun _ cache revoked h => ?_, fun _ => .refl r⟩
    cases h
  | some c =>
    dsimp only
    constructor
    · intro h cache revoked heq hget
      obtain rfl := Option.some.inj heq
      have hsame := h.cache
      rw [hcache] at hsame
      exact contents_isRevoked.mp (Option.some.inj hsame) revoked hget
    · intro h
      refine ⟨rfl, ?_⟩
      rw [hcache]
      exact congrArg some (contents_isRevoked.mpr fun revoked hget => h c revoked rfl hget)

section Request

variable {d : Deployment} {s : State} {sessionId : String} {authorization : Option String}
  {uuids : Uuids} {bearerToken : String}

/-- The registry is asked about one token at most. -/
theorem AsksRegistry.jti_eq {jti jti' : String} {entry entry' : TokenEntry}
    (h : AsksRegistry d s sessionId bearerToken jti entry)
    (h' : AsksRegistry d s sessionId bearerToken jti' entry') : jti' = jti :=
  Val.str.inj (h'.extracted.symm.trans h.extracted)

/-- The answer comes from the registry, or nothing has been asked. -/
theorem isTokenValidForSession_cases (d : Deployment) (s : State)
    (sessionId bearerToken : String) :
    (∃ jti entry, AsksRegistry d s sessionId bearerToken jti entry ∧
      isTokenValidForSession d.decodePart s.now bearerToken sessionId d.modules.tokenRegistry
        s.registry = s.registry.isValid s.now jti) ∨
    (∀ jti entry, ¬ AsksRegistry d s sessionId bearerToken jti entry) ∧
      (isTokenValidForSession d.decodePart s.now bearerToken sessionId d.modules.tokenRegistry
        s.registry).2 = s.registry := by
  unfold isTokenValidForSession
  by_cases hconfigured : d.modules.tokenRegistry = true
  · rw [if_neg (by simp [hconfigured])]
    unfold isJtiValidForSession
    split
    next jti hjti =>
      have hsame {jti' : String} {entry : TokenEntry}
          (h : AsksRegistry d s sessionId bearerToken jti' entry) : jti = jti' :=
        Val.str.inj (hjti.symm.trans h.extracted)
      split
      next hempty =>
        refine .inr ⟨fun jti' entry h => ?_, rfl⟩
        exact h.nonempty (hsame h ▸ hempty)
      next hnonempty =>
        split
        next hnone =>
          refine .inr ⟨fun jti' entry h => ?_, rfl⟩
          rw [hsame h, h.registered] at hnone
          cases hnone
        next entry hget =>
          split
          next hsession =>
            exact .inl ⟨jti, entry, ⟨hconfigured, hjti, hnonempty, hget, hsession⟩, rfl⟩
          next hother =>
            refine .inr ⟨fun jti' entry' h => ?_, rfl⟩
            rw [hsame h, h.registered] at hget
            obtain rfl := Option.some.inj hget
            exact hother h.same_session
    next hno => exact .inr ⟨fun jti entry h => hno jti h.extracted, rfl⟩
  · rw [if_pos (by simpa using hconfigured)]
    exact .inr ⟨fun jti entry h => hconfigured h.configured, rfl⟩

theorem same_isTokenValid :
    s.registry.Same (isTokenValidForSession d.decodePart s.now bearerToken sessionId
        d.modules.tokenRegistry s.registry).2 ↔
      ∀ jti entry cache revoked,
        ¬ DropsEntry d s sessionId bearerToken jti entry cache revoked := by
  rcases isTokenValidForSession_cases d s sessionId bearerToken with
    ⟨jti, entry, hasks, heq⟩ | ⟨hno, heq⟩
  · rw [heq, same_isValid]
    constructor
    · intro h jti' entry' cache revoked hdrops
      have hstored := hdrops.stored
      rw [hasks.jti_eq hdrops.toAsksRegistry] at hstored
      exact absurd hdrops.expired (Int.not_le.mpr (h cache revoked hdrops.cached hstored))
    · intro h cache revoked hcache hrevoked
      refine Int.not_le.mp fun hexpired => ?_
      exact h jti entry cache revoked ⟨hasks, hcache, hrevoked, hexpired⟩
  · rw [heq]
    exact ⟨fun _ jti entry cache revoked h => hno jti entry h.toAsksRegistry, fun _ => .refl _⟩

/-! ## The exits -/

theorem handle_refresh : handle d s (.refresh sessionId authorization uuids) =
    suspendRefresh s (startRefresh d s sessionId authorization uuids) := rfl

/-- The exits before the token is looked at. -/
theorem startRefresh_unasked
    (h : ∀ bearerToken, ¬ AsksForToken s sessionId authorization bearerToken) (d : Deployment)
    (uuids : Uuids) : ∃ reply, startRefresh d s sessionId authorization uuids =
      (.inl (.error reply), s.registry) := by
  unfold startRefresh
  split
  · exact ⟨_, rfl⟩
  next bearerToken hbearer =>
    unfold letThrough
    split
    · exact ⟨_, rfl⟩
    next session hsession =>
      by_cases hclosed : session.state ≠ .pending ∧ session.state ≠ .active
      · rw [if_pos hclosed]
        exact ⟨_, rfl⟩
      · -- an open session: the token would have been looked at
        refine absurd ⟨hbearer, session, hsession, ?_⟩ (h bearerToken)
        by_cases hpending : session.state = .pending
        · exact .inl hpending
        · exact .inr (Classical.not_not.mp fun hactive => hclosed ⟨hpending, hactive⟩)

/-- From there on the handler is decided by the token and the generator. -/
theorem startRefresh_asked (h : AsksForToken s sessionId authorization bearerToken)
    (d : Deployment) (uuids : Uuids) :
    (¬ Exchanges d s sessionId bearerToken → ∃ reply,
      startRefresh d s sessionId authorization uuids = (.inl (.error reply),
        (isTokenValidForSession d.decodePart s.now bearerToken sessionId d.modules.tokenRegistry
          s.registry).2)) ∧
    (Exchanges d s sessionId bearerToken → ∃ call,
      startRefresh d s sessionId authorization uuids = (.inr call, revokeTokens d s.now
        (isTokenValidForSession d.decodePart s.now bearerToken sessionId d.modules.tokenRegistry
          s.registry).2 sessionId)) := by
  obtain ⟨session, hsession, hopen⟩ := h.isOpen
  have hnotclosed : ¬ (session.state ≠ .pending ∧ session.state ≠ .active) :=
    fun hclosed => hopen.elim hclosed.1 hclosed.2
  unfold startRefresh Exchanges
  rw [h.bearer]
  dsimp only
  generalize isTokenValidForSession d.decodePart s.now bearerToken sessionId
    d.modules.tokenRegistry s.registry = asked
  unfold letThrough
  rw [hsession]
  dsimp only
  rw [if_neg hnotclosed]
  cases hvalid : asked.1 with
  | false => exact ⟨fun _ => ⟨_, rfl⟩, fun h => by cases h.1⟩
  | true =>
    cases hgenerator : d.modules.tokenGenerator with
    | false => exact ⟨fun _ => ⟨_, rfl⟩, fun h => by cases h.2⟩
    | true => exact ⟨fun h => absurd ⟨rfl, rfl⟩ h, fun _ => ⟨_, rfl⟩⟩

/-- A request that is refused leaves no trace iff the look-up leaves none. -/
theorem atomic_of_refused {reply : ErrorReply} {registry : TokenRegistry}
    (h : startRefresh d s sessionId authorization uuids = (.inl (.error reply), registry))
    (generated : Bool) :
    RefreshAtomic d s sessionId authorization uuids generated ↔ s.registry.Same registry := by
  have hanswer : refreshAnswer d s sessionId authorization uuids generated =
      (some (.error reply), { s with registry := registry }) := by
    unfold refreshAnswer
    rw [handle_refresh, h]
    rfl
  unfold RefreshAtomic
  rw [hanswer]
  refine ⟨fun hatomic => (hatomic fun response heq => ?_).registry, fun hsame _ => ⟨hsame, rfl⟩⟩
  cases heq

/-- The answer of a request that gets to its `await`. -/
theorem refreshAnswer_of_exchanged {call : RefreshCall} {registry : TokenRegistry}
    (h : startRefresh d s sessionId authorization uuids = (.inr call, registry))
    (generated : Bool) :
    refreshAnswer d s sessionId authorization uuids generated =
      if generated then (finishRefresh d { s with registry := registry } call).map some id
      else (some .thrown, { s with registry := registry }) := by
  have hstarted : handle d s (.refresh sessionId authorization uuids) =
      (none, { s with registry := registry, pending := s.pending ++ [.refresh call] }) := by
    rw [handle_refresh, h]
    rfl
  have hwaiting : (s.pending ++ [Pending.refresh call])[s.pending.length]? =
      some (.refresh call) := by
    rw [List.getElem?_append_right (Nat.le_refl _), Nat.sub_self]
    rfl
  have hresumed : (s.pending ++ [Pending.refresh call]).eraseIdx s.pending.length =
      s.pending := by
    rw [List.eraseIdx_append_of_length_le (Nat.le_refl _), Nat.sub_self]
    exact List.append_nil _
  unfold refreshAnswer
  rw [hstarted]
  unfold handle
  dsimp only
  rw [hwaiting]
  dsimp only
  rw [hresumed]

/-- A request that gets to its `await` leaves no trace iff it gets a token, or
what was revoked before is nothing. -/
theorem atomic_of_exchanged {call : RefreshCall} {registry : TokenRegistry}
    (h : startRefresh d s sessionId authorization uuids = (.inr call, registry))
    (generated : Bool) :
    RefreshAtomic d s sessionId authorization uuids generated ↔
      generated = true ∨ s.registry.Same registry := by
  unfold RefreshAtomic
  rw [refreshAnswer_of_exchanged h]
  cases generated with
  | true => exact ⟨fun _ => .inl rfl, fun _ hno => absurd rfl (hno _)⟩
  | false =>
    refine ⟨fun hatomic => .inr (hatomic fun response heq => ?_).registry,
      fun hsame _ => ⟨hsame.resolve_left Bool.false_ne_true, rfl⟩⟩
    cases heq

/-- A failed generation after which no token is left. -/
theorem emptied_of_failed {started : (Reply ⊕ RefreshCall) × TokenRegistry}
    (h : startRefresh d s sessionId authorization uuids = started)
    (hcall : started.1.isRight = true) (hempty : started.2.tokens.values = [])
    (hbefore : s.registry.tokens.values ≠ []) :
    (refreshAnswer d s sessionId authorization uuids false).2.registry.tokens.values = [] ∧
      ¬ RefreshAtomic d s sessionId authorization uuids false := by
  obtain ⟨reply | call, registry⟩ := started
  · cases hcall
  · rw [refreshAnswer_of_exchanged h, atomic_of_exchanged h]
    refine ⟨hempty, fun hatomic => ?_⟩
    have hsame := hatomic.resolve_left Bool.false_ne_true
    apply hbefore
    rw [← hsame.tokens]
    exact hempty

/-- The revocation before the `await` is felt whenever there is a registry: it
takes the presented token out. -/
theorem same_revokeTokens (h : Exchanges d s sessionId bearerToken) :
    s.registry.Same (revokeTokens d s.now (isTokenValidForSession d.decodePart s.now bearerToken
      sessionId d.modules.tokenRegistry s.registry).2 sessionId) ↔
        d.modules.tokenRegistry = false := by
  have hvalid := h.1
  unfold isTokenValidForSession revokeTokens at *
  cases hconfigured : d.modules.tokenRegistry with
  | false =>
    refine ⟨fun _ => rfl, fun _ => ?_⟩
    rw [if_neg (by simp), if_pos (by simp)]
    exact .refl _
  | true =>
    refine ⟨fun hsame => ?_, fun hno => by cases hno⟩
    -- the token was accepted, so it is one of those that are revoked
    rw [hconfigured, if_neg (by simp)] at hvalid
    obtain ⟨id, entry, hjti, hget, hsession⟩ := exists_of_isJtiValidForSession hvalid
    rw [if_pos rfl, if_neg (by simp)] at hsame
    have hgone := TokenRegistry.get_revokeBySession (isJtiValidForSession s.now
      (extractJtiFromToken d.decodePart bearerToken) sessionId s.registry).2 s.now sessionId none id
    rw [TokenRegistry.get, hsame.tokens, TokenRegistry.get, tokens_isJtiValidForSession] at hgone
    have hget' : s.registry.tokens.get id = some entry := hget
    rw [hget', Option.filter_some, hsession] at hgone
    simp at hgone

end Request

/-- Whatever state it meets, a generation that fails changes nothing more. -/
theorem unaffected_settle (d : Deployment) (s : State) (i : Nat) :
    Unaffected s (step d s (.settle i false)) := by
  unfold step handle
  dsimp only
  split
  · exact ⟨.refl _, rfl⟩
  · exact ⟨.refl _, rfl⟩

/-- A refresh that does not answer 200 leaves everything as it was iff it is not
the generation that fails and no expired revocation is looked up. -/
theorem refresh_atomic_iff (d : Deployment) (s : State) (sessionId : String)
    (authorization : Option String) (uuids : Uuids) (generated : Bool) :
    (RefreshAtomic d s sessionId authorization uuids generated ↔
      RefreshKeeps d s sessionId authorization generated) ∧
    ∀ u i, Unaffected u (step d u (.settle i false)) := by
  refine ⟨?_, unaffected_settle d⟩
  by_cases hasks : ∃ bearerToken, AsksForToken s sessionId authorization bearerToken
  · obtain ⟨bearerToken, hasks⟩ := hasks
    have honly {token : String} (h : AsksForToken s sessionId authorization token) :
        token = bearerToken :=
      Option.some.inj (h.bearer.symm.trans hasks.bearer)
    obtain ⟨hrefused, hexchanged⟩ := startRefresh_asked hasks d uuids
    by_cases hexchanges : Exchanges d s sessionId bearerToken
    · obtain ⟨call, hstart⟩ := hexchanged hexchanges
      rw [atomic_of_exchanged hstart, same_revokeTokens hexchanges]
      refine ⟨fun h => ⟨fun _ _ _ => h, fun token htoken hnot => ?_⟩,
        fun h => h.exchanged bearerToken hasks hexchanges⟩
      rw [honly htoken] at hnot
      exact absurd hexchanges hnot
    · obtain ⟨reply, hstart⟩ := hrefused hexchanges
      rw [atomic_of_refused hstart, same_isTokenValid]
      refine ⟨fun h => ⟨fun token htoken hyes => ?_, fun token htoken _ => ?_⟩,
        fun h => h.refused bearerToken hasks hexchanges⟩
      · rw [honly htoken] at hyes
        exact absurd hyes hexchanges
      · rw [honly htoken]
        exact h
  · have hnever (token : String) : ¬ AsksForToken s sessionId authorization token :=
      fun h => hasks ⟨token, h⟩
    obtain ⟨reply, hstart⟩ := startRefresh_unasked hnever d uuids
    rw [atomic_of_refused hstart]
    refine ⟨fun _ => ⟨fun token h => ?_, fun token h => ?_⟩, fun _ => .refl _⟩
    · exact absurd h (hnever token)
    · exact absurd h (hnever token)

/-- The operator has a session and a valid token and asks for the next one, whose
generation fails: no token is left. -/
theorem refresh_atomic_fails :
    run (step Sample.gateway) Sample.start [Sample.create, .settle 0 true] = Sample.issued ∧
    (Sample.issued.registry.isValid Sample.issued.now ("tok_" ++ Sample.uuids1.jti)).1 = true ∧
    (refreshAnswer Sample.gateway Sample.issued Sample.sid
      (some ("Bearer " ++ Sample.token1)) Sample.uuids2 false).2.registry.tokens.values = [] ∧
    ¬ RefreshAtomic Sample.gateway Sample.issued Sample.sid
      (some ("Bearer " ++ Sample.token1)) Sample.uuids2 false := by
  refine ⟨?_, by decide +kernel, ?_⟩
  · rw [Machine.run_cons, Machine.run_cons, Sample.step_create, Sample.step_issue]
    rfl
  · refine emptied_of_failed (Sample.startRefresh_eq Sample.issued) ?_ ?_ ?_
    · decide +kernel
    · exact List.length_eq_zero_iff.mp (by decide +kernel)
    · exact List.length_pos_iff.mp (by decide +kernel)

end ChainKVM.Gateway
