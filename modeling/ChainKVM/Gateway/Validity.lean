import ChainKVM.Gateway.Tokens
import ChainKVM.Lib.Machine
import Mathlib.Data.List.Induction

/-!
# Which tokens are valid

The registry's verdict on a token, said without its maps. A token is valid iff
it has been registered, no revocation has covered it since, and it has not
expired (`isValid_iff_live`); a revoked token is never valid again
(`revoked_never_valid`).

The verdict is spread over two maps, and the revocation cache forgets: at
capacity the oldest entries go, and an expired one goes when it is asked for.
What makes up for it is that a revocation takes the token out of the registry
too. `Accounts` relates both maps to the history: the registry holds live
tokens only, among them every one that has not expired, and none that is in
the cache.
-/

namespace ChainKVM.Gateway

open Js (Val)
open Machine (run run_append)

/-! ## The machine -/

/-- What may be done with a registry that has a cache. `forget` is a cache
entry going on its own. -/
inductive TokenEvent where
  | register (entry : TokenEntry)
  | revoke (jti : String) (reason : Option String)
  | revokeBySession (sessionId : String) (reason : Option String)
  | revokeByOperator (operatorDid : Val) (reason : Option String)
  | cleanup
  | isValid (jti : String)
  | forget (jti : String)
  | elapse (ms : Nat)

/-- A registry and the clock. -/
structure TokenStore where
  now : Int
  registry : TokenRegistry

/-- The registry after an event. -/
def tokenRegistryStep (now : Int) (r : TokenRegistry) : TokenEvent → TokenRegistry
  | .register entry => r.register entry
  | .revoke jti reason => (r.revoke now jti reason).2
  | .revokeBySession sessionId reason => (r.revokeBySession now sessionId reason).2
  | .revokeByOperator operatorDid reason => (r.revokeByOperator now operatorDid reason).2
  | .cleanup => (r.cleanup now).2
  | .isValid jti => (r.isValid now jti).2
  | .forget jti => { r with revocationCache := r.revocationCache.map fun c => (c.remove jti).2 }
  | .elapse _ => r

/-- The time that passes with an event. -/
def TokenEvent.elapsed : TokenEvent → Nat
  | .elapse ms => ms
  | _ => 0

def tokenStep (s : TokenStore) (e : TokenEvent) : TokenStore :=
  ⟨s.now + e.elapsed, tokenRegistryStep s.now s.registry e⟩

/-! ## The history -/

/-- The event is a revocation that covers the token. -/
def TokenEvent.covers (entry : TokenEntry) : TokenEvent → Bool
  | .revoke jti _ => entry.jti = jti
  | .revokeBySession sessionId _ => entry.sessionId = sessionId
  | .revokeByOperator operatorDid _ => entry.operatorDid.strictEq operatorDid
  | _ => false

/-- The `jti` that the event registers. -/
def TokenEvent.registers : TokenEvent → Option String
  | .register entry => some entry.jti
  | _ => none

/-- The token has been registered and not been covered since. -/
def Live (es : List TokenEvent) (entry : TokenEntry) : Prop :=
  ∃ before after, es = before ++ .register entry :: after ∧
    ∀ e ∈ after, e.covers entry = false

theorem live_snoc {es : List TokenEvent} {e : TokenEvent} {entry : TokenEntry} :
    Live (es ++ [e]) entry ↔ e = .register entry ∨ Live es entry ∧ e.covers entry = false := by
  constructor
  · rintro ⟨before, after, heq, hafter⟩
    rcases List.eq_nil_or_concat after with rfl | ⟨after', last, rfl⟩
    · left
      exact (List.append_inj' heq rfl).2 |> List.cons.inj |>.1
    · right
      rw [List.concat_eq_append] at heq hafter
      have hsplit : es ++ [e] = (before ++ .register entry :: after') ++ [last] := by
        rw [heq]
        simp
      obtain ⟨hes, hlast⟩ := List.append_inj' hsplit rfl
      obtain rfl : e = last := (List.cons.inj hlast).1
      exact ⟨⟨before, after', hes, fun x hx => hafter x (List.mem_append_left _ hx)⟩,
        hafter e (List.mem_append_right _ List.mem_cons_self)⟩
  · rintro (rfl | ⟨⟨before, after, rfl, hafter⟩, hcovers⟩)
    · exact ⟨es, [], rfl, fun x hx => by cases hx⟩
    · refine ⟨before, after ++ [e], by simp, fun x hx => ?_⟩
      rcases List.mem_append.mp hx with hx | hx
      · exact hafter x hx
      · rw [List.mem_singleton.mp hx]
        exact hcovers

/-- A live token has been registered. -/
theorem Live.registered {es : List TokenEvent} {entry : TokenEntry} (h : Live es entry) :
    entry.jti ∈ es.filterMap TokenEvent.registers := by
  obtain ⟨before, after, rfl, -⟩ := h
  exact List.mem_filterMap.mpr ⟨.register entry, by simp, rfl⟩

/-- A token that is live has not been covered since an event after its
registration. -/
theorem Live.not_covered {es es' : List TokenEvent} {entry : TokenEntry}
    (h : Live (es ++ es') entry) (hnot : .register entry ∉ es') :
    ∀ e ∈ es', e.covers entry = false := by
  induction es' using List.reverseRecOn with
  | nil => exact fun e he => absurd he List.not_mem_nil
  | append_singleton es' last ih =>
    rw [← List.append_assoc] at h
    rw [List.mem_append, not_or] at hnot
    rcases live_snoc.mp h with rfl | ⟨hlive, hlast⟩
    · exact absurd (List.mem_singleton_self _) hnot.2
    · intro e he
      rcases List.mem_append.mp he with he | he
      · exact ih hlive hnot.1 e he
      · rw [List.mem_singleton.mp he]
        exact hlast

/-! ## What the cache may hold -/

/-- The cache has an entry for the token. -/
def RevocationCache.Has (c : RevocationCache) (jti : String) : Prop := (c.cache.get jti).isSome

/-- The registry's cache has one. -/
def TokenRegistry.Cached (r : TokenRegistry) (jti : String) : Prop :=
  ∃ c, r.revocationCache = some c ∧ c.Has jti

namespace RevocationCache

theorem has_filter {m : OrdMap String RevokedEntry} {p : String → RevokedEntry → Bool}
    {jti : String} (h : ((m.filter p).get jti).isSome) : (m.get jti).isSome := by
  rw [OrdMap.get_filter] at h
  exact Option.isSome_of_isSome_filter _ _ h

theorem has_evictIfNeeded {c : RevocationCache} {jti : String} (h : c.evictIfNeeded.Has jti) :
    c.Has jti := by
  unfold evictIfNeeded at h
  split at h
  · exact h
  · -- whatever the order, the loop only deletes
    have hfold : ∀ (entries : List RevokedEntry) (m : OrdMap String RevokedEntry),
        ((entries.foldl (fun m e => m.delete e.jti) m).get jti).isSome → (m.get jti).isSome := by
      intro entries
      induction entries with
      | nil => exact fun m h => h
      | cons e es ih => exact fun m h => has_filter (ih _ h)
    exact hfold _ _ h

theorem has_add {c : RevocationCache} {now : Int} {jti jti' : String} {expiresAt : Int}
    {reason : Option String} (h : (c.add now jti expiresAt reason).Has jti') :
    jti' = jti ∨ c.Has jti' := by
  change ((c.evictIfNeeded.cache.set jti _).get jti').isSome at h
  by_cases hj : jti' = jti
  · exact .inl hj
  · rw [OrdMap.get_set_of_ne _ _ hj] at h
    exact .inr (has_evictIfNeeded h)

theorem has_isRevoked {c : RevocationCache} {now : Int} {jti jti' : String}
    (h : (c.isRevoked now jti).2.Has jti') : c.Has jti' := by
  unfold isRevoked at h
  split at h
  · exact h
  · split at h
    · exact has_filter h
    · exact h

theorem has_of_isRevoked {c : RevocationCache} {now : Int} {jti : String}
    (h : (c.isRevoked now jti).1 = true) : c.Has jti := by
  unfold isRevoked at h
  split at h
  · cases h
  next entry hget =>
    unfold Has
    rw [hget]
    rfl

theorem has_remove {c : RevocationCache} {jti jti' : String} (h : (c.remove jti).2.Has jti') :
    c.Has jti' := by
  unfold remove at h
  split at h
  · exact h
  · exact has_filter h

theorem has_cleanup {c : RevocationCache} {now : Int} {jti : String}
    (h : (c.cleanup now).2.Has jti) : c.Has jti := by
  unfold cleanup at h
  dsimp only at h
  split at h
  · exact has_filter h
  · exact has_filter h

end RevocationCache

namespace TokenRegistry

theorem cached_map {r : TokenRegistry} {f : RevocationCache → RevocationCache} {jti : String}
    (hf : ∀ c, (f c).Has jti → c.Has jti)
    (h : ∃ c, r.revocationCache.map f = some c ∧ c.Has jti) : r.Cached jti := by
  obtain ⟨c, hc, hhas⟩ := h
  obtain ⟨c', hc', rfl⟩ := Option.map_eq_some_iff.mp hc
  exact ⟨c', hc', hf c' hhas⟩

theorem cached_foldl_revokeEntry {now : Int} {reason : Option String} {jti : String} :
    ∀ {entries : List TokenEntry} {r : TokenRegistry},
      (entries.foldl (revokeEntry now reason) r).Cached jti →
        r.Cached jti ∨ ∃ e ∈ entries, e.jti = jti := by
  intro entries
  induction entries with
  | nil => exact fun h => .inl h
  | cons e es ih =>
    intro r h
    rcases ih h with ⟨c, hc, hhas⟩ | ⟨e', hmem, hj⟩
    · obtain ⟨c', hc', rfl⟩ := Option.map_eq_some_iff.mp hc
      rcases RevocationCache.has_add hhas with hj | hhas
      · exact .inr ⟨e, List.mem_cons_self, hj.symm⟩
      · exact .inl ⟨c', hc', hhas⟩
    · exact .inr ⟨e', List.mem_cons_of_mem _ hmem, hj⟩

/-- Revoking the tokens that satisfy `p` puts no others into the cache. -/
theorem cached_revoke_filter {r : TokenRegistry} {now : Int} {reason : Option String}
    {p : TokenEntry → Bool} {jti : String}
    (h : ((r.tokens.values.filter p).foldl (revokeEntry now reason) r).Cached jti) :
    r.Cached jti ∨ ∃ entry, r.get jti = some entry ∧ p entry = true := by
  rcases cached_foldl_revokeEntry h with hold | ⟨entry, hmem, rfl⟩
  · exact .inl hold
  · obtain ⟨hval, hp⟩ := List.mem_filter.mp hmem
    obtain ⟨jti, hget⟩ := OrdMap.mem_values_iff.mp hval
    have hkey := r.keyed jti entry hget
    exact .inr ⟨entry, by rw [hkey]; exact hget, hp⟩

theorem cached_revoke {r : TokenRegistry} {now : Int} {reason : Option String} {jti jti' : String}
    (h : (r.revoke now jti reason).2.Cached jti') :
    r.Cached jti' ∨ ∃ entry, r.get jti' = some entry ∧ decide (entry.jti = jti) = true := by
  unfold revoke at h
  cases hget : r.get jti with
  | none =>
    rw [hget] at h
    exact .inl h
  | some entry =>
    rw [hget] at h
    have hkey := r.keyed jti entry hget
    have hone : ([entry].foldl (revokeEntry now reason) r).Cached jti' := h
    rcases cached_foldl_revokeEntry hone with hold | ⟨e, hmem, rfl⟩
    · exact .inl hold
    · obtain rfl := List.mem_singleton.mp hmem
      exact .inr ⟨e, by rw [hkey]; exact hget, by simpa using hkey⟩

theorem cached_isValid {r : TokenRegistry} {now : Int} {jti jti' : String}
    (h : (r.isValid now jti).2.Cached jti') : r.Cached jti' := by
  obtain ⟨c, hc, hhas⟩ := h
  unfold isValid at hc
  cases hcache : r.revocationCache with
  | none =>
    rw [hcache] at hc
    exact ⟨c, hc, hhas⟩
  | some cache =>
    rw [hcache] at hc
    obtain rfl := Option.some.inj hc
    exact ⟨cache, hcache, RevocationCache.has_isRevoked hhas⟩

/-- For a token that is not in the cache, the registry decides. -/
theorem isValid_iff_of_not_cached {r : TokenRegistry} {now : Int} {jti : String}
    (h : ¬ r.Cached jti) :
    (r.isValid now jti).1 = true ↔ ∃ entry, r.get jti = some entry ∧ now < entry.expiresAt := by
  refine ⟨exists_of_isValid, ?_⟩
  rintro ⟨entry, hget, hlive⟩
  have hregistered : (r.get jti).any (fun entry => !isExpired now entry) = true := by
    rw [hget, Option.any_some, isExpired, Bool.not_eq_true', decide_eq_false_iff_not]
    exact Int.not_le.mpr hlive
  unfold isValid
  cases hc : r.revocationCache with
  | none => exact hregistered
  | some c =>
    have hnot : (c.isRevoked now jti).1 = false := by
      rw [Bool.eq_false_iff]
      exact fun hrevoked => h ⟨c, hc, RevocationCache.has_of_isRevoked hrevoked⟩
    show (!(c.isRevoked now jti).1 && _) = true
    rw [hnot]
    exact hregistered

end TokenRegistry

/-! ## The invariant -/

/-- The two maps, against the history. `loaded` is the cache at the start. -/
structure Accounts (loaded : RevocationCache) (es : List TokenEvent) (s : TokenStore) : Prop where
  live : ∀ jti entry, s.registry.get jti = some entry → Live es entry
  kept : ∀ entry, Live es entry → s.now < entry.expiresAt →
    s.registry.get entry.jti = some entry
  cached : ∀ jti, s.registry.Cached jti → s.registry.get jti = none ∧
    (loaded.Has jti ∨ jti ∈ es.filterMap TokenEvent.registers)

section Step

variable {loaded : RevocationCache} {es : List TokenEvent} {s : TokenStore}
  (h : Accounts loaded es s)

include h

theorem accounts_register {entry : TokenEntry}
    (hnew : entry.jti ∉ es.filterMap TokenEvent.registers) (hfresh : ¬ loaded.Has entry.jti) :
    Accounts loaded (es ++ [.register entry]) (tokenStep s (.register entry)) := by
  have hnow : (tokenStep s (.register entry)).now = s.now := Int.add_zero _
  have hget (jti : String) : (tokenStep s (.register entry)).registry.get jti =
      if jti = entry.jti then some entry else s.registry.get jti :=
    TokenRegistry.get_register _ _ _
  refine ⟨fun jti x hx => ?_, fun x hx hlive => ?_, fun jti hcached => ?_⟩
  · rw [hget] at hx
    by_cases hj : jti = entry.jti
    · rw [if_pos hj] at hx
      obtain rfl := Option.some.inj hx
      exact live_snoc.mpr (.inl rfl)
    · rw [if_neg hj] at hx
      exact live_snoc.mpr (.inr ⟨h.live jti x hx, rfl⟩)
  · rw [hnow] at hlive
    rw [hget]
    rcases live_snoc.mp hx with heq | ⟨hold, -⟩
    · cases heq
      exact if_pos rfl
    · -- the new token replaces no other: its `jti` is new
      have hne : x.jti ≠ entry.jti := fun hj => hnew (hj ▸ hold.registered)
      rw [if_neg hne]
      exact h.kept x hold hlive
  · -- the cache is as before, and the new token is not in it
    obtain ⟨hnone, hknown⟩ := h.cached jti hcached
    have hne : jti ≠ entry.jti := by
      rintro rfl
      exact hknown.elim hfresh hnew
    rw [hget, if_neg hne, List.filterMap_append]
    exact ⟨hnone, hknown.imp_right (List.mem_append_left _)⟩

/-- An event that only takes tokens out, among them those it covers. -/
theorem accounts_withdraw {e : TokenEvent} (hregisters : e.registers = none) {t : TokenStore}
    (hnow : s.now ≤ t.now)
    (hget : ∀ jti entry, t.registry.get jti = some entry →
      s.registry.get jti = some entry ∧ e.covers entry = false)
    (hkept : ∀ jti entry, s.registry.get jti = some entry → e.covers entry = false →
      t.now < entry.expiresAt → t.registry.get jti = some entry)
    (hcached : ∀ jti, t.registry.Cached jti →
      s.registry.Cached jti ∨ (s.registry.get jti).isSome ∧ t.registry.get jti = none) :
    Accounts loaded (es ++ [e]) t := by
  have hlive {entry : TokenEntry} (hl : Live (es ++ [e]) entry) :
      Live es entry ∧ e.covers entry = false := by
    rcases live_snoc.mp hl with rfl | hold
    · cases hregisters
    · exact hold
  have hsame : (es ++ [e]).filterMap TokenEvent.registers = es.filterMap TokenEvent.registers := by
    rw [List.filterMap_append, List.filterMap_cons_none hregisters]
    exact List.append_nil _
  refine ⟨fun jti entry hx => ?_, fun entry hl hunexpired => ?_, fun jti hc => ?_⟩
  · obtain ⟨hold, hcovers⟩ := hget jti entry hx
    exact live_snoc.mpr (.inr ⟨h.live jti entry hold, hcovers⟩)
  · obtain ⟨hold, hcovers⟩ := hlive hl
    exact hkept _ entry (h.kept entry hold (Int.lt_of_le_of_lt hnow hunexpired)) hcovers hunexpired
  · rw [hsame]
    -- an entry of the cache is an old one, or that of a token just taken out
    rcases hcached jti hc with hold | ⟨hsome, hnone⟩
    · obtain ⟨hnone, hknown⟩ := h.cached jti hold
      refine ⟨?_, hknown⟩
      cases hx : t.registry.get jti with
      | none => rfl
      | some entry =>
        rw [(hget jti entry hx).1] at hnone
        cases hnone
    · obtain ⟨entry, hentry⟩ := Option.isSome_iff_exists.mp hsome
      have hjti := (h.live jti entry hentry).registered
      rw [s.registry.keyed jti entry hentry] at hjti
      exact ⟨hnone, .inr hjti⟩

/-- A revocation: the covered tokens go from the registry to the cache. -/
theorem accounts_revoke {e : TokenEvent} (hregisters : e.registers = none) {t : TokenStore}
    (hnow : s.now ≤ t.now)
    (hget : ∀ jti, t.registry.get jti = (s.registry.get jti).filter fun entry => !e.covers entry)
    (hcached : ∀ jti, t.registry.Cached jti → s.registry.Cached jti ∨
      ∃ entry, s.registry.get jti = some entry ∧ e.covers entry = true) :
    Accounts loaded (es ++ [e]) t := by
  refine accounts_withdraw h hregisters hnow (fun jti entry hx => ?_)
    (fun jti entry hx hcovers _ => ?_) (fun jti hc => ?_)
  · rw [hget, Option.filter_eq_some_iff] at hx
    exact ⟨hx.1, by simpa using hx.2⟩
  · rw [hget, hx, Option.filter_some, hcovers]
    rfl
  · rcases hcached jti hc with hold | ⟨entry, hx, hcovers⟩
    · exact .inl hold
    · refine .inr ⟨by rw [hx]; rfl, ?_⟩
      rw [hget, hx, Option.filter_some, hcovers]
      rfl

/-- An event that changes no more than the cache and the clock. -/
theorem accounts_cache {e : TokenEvent} (hregisters : e.registers = none)
    (hcovers : ∀ entry, e.covers entry = false) {t : TokenStore} (hnow : s.now ≤ t.now)
    (htokens : t.registry.tokens = s.registry.tokens)
    (hcached : ∀ jti, t.registry.Cached jti → s.registry.Cached jti) :
    Accounts loaded (es ++ [e]) t := by
  have hget (jti : String) : t.registry.get jti = s.registry.get jti := by
    rw [TokenRegistry.get, TokenRegistry.get, htokens]
  refine accounts_withdraw h hregisters hnow (fun jti entry hx => ?_) (fun jti entry hx _ _ => ?_)
    (fun jti hc => .inl (hcached jti hc))
  · exact ⟨(hget jti).symm.trans hx, hcovers entry⟩
  · exact (hget jti).trans hx

theorem accounts_step {e : TokenEvent}
    (hnew : ∀ jti, e.registers = some jti →
      jti ∉ es.filterMap TokenEvent.registers ∧ ¬ loaded.Has jti) :
    Accounts loaded (es ++ [e]) (tokenStep s e) := by
  have hnow : s.now ≤ (tokenStep s e).now := by
    show s.now ≤ s.now + (e.elapsed : Int)
    omega
  cases e with
  | register entry =>
    obtain ⟨hnotin, hfresh⟩ := hnew entry.jti rfl
    exact accounts_register h hnotin hfresh
  | revoke jti reason =>
    exact accounts_revoke h rfl hnow (s.registry.get_revoke s.now jti · reason)
      fun _ => TokenRegistry.cached_revoke
  | revokeBySession sessionId reason =>
    exact accounts_revoke h rfl hnow (s.registry.get_revokeBySession s.now sessionId reason)
      fun _ => TokenRegistry.cached_revoke_filter
  | revokeByOperator operatorDid reason =>
    exact accounts_revoke h rfl hnow (s.registry.get_revokeByOperator s.now operatorDid reason)
      fun _ => TokenRegistry.cached_revoke_filter
  | cleanup =>
    have hget (jti : String) : (tokenStep s .cleanup).registry.get jti =
        (s.registry.get jti).filter fun entry => !TokenRegistry.isExpired s.now entry :=
      TokenRegistry.get_cleanup _ _ _
    refine accounts_withdraw h rfl hnow (fun jti entry hx => ?_) (fun jti entry hx _ hlive => ?_)
      (fun jti hc => .inl (TokenRegistry.cached_map (fun _ => RevocationCache.has_cleanup) hc))
    · rw [hget, Option.filter_eq_some_iff] at hx
      exact ⟨hx.1, rfl⟩
    · have hunexpired : TokenRegistry.isExpired s.now entry = false := by
        rw [TokenRegistry.isExpired, decide_eq_false_iff_not]
        omega
      rw [hget, hx, Option.filter_some, hunexpired]
      rfl
  | isValid jti =>
    exact accounts_cache h rfl (fun _ => rfl) hnow (TokenRegistry.tokens_isValid _ _ _)
      fun _ => TokenRegistry.cached_isValid
  | forget jti =>
    exact accounts_cache h rfl (fun _ => rfl) hnow rfl
      fun _ hc => TokenRegistry.cached_map (fun _ => RevocationCache.has_remove) hc
  | elapse ms => exact accounts_cache h rfl (fun _ => rfl) hnow rfl fun _ => id

end Step

/-! ## Runs -/

/-- A registry that has just been created, with the cache it was given. -/
def TokenStore.start (now : Int) (loaded : RevocationCache) : TokenStore :=
  ⟨now, .new (some loaded)⟩

section Run

variable {now : Int} {loaded : RevocationCache}

theorem accounts_start : Accounts loaded [] (.start now loaded) := by
  refine ⟨fun jti entry h => ?_, fun entry h => ?_, fun jti h => ⟨rfl, ?_⟩⟩
  · cases h
  · exact absurd h.registered List.not_mem_nil
  · obtain ⟨c, hc, hhas⟩ := h
    obtain rfl := Option.some.inj hc
    exact .inl hhas

theorem accounts_run (es : List TokenEvent)
    (hjtis : (es.filterMap TokenEvent.registers).Nodup)
    (hfresh : ∀ jti ∈ es.filterMap TokenEvent.registers, ¬ loaded.Has jti) :
    Accounts loaded es (run tokenStep (.start now loaded) es) := by
  induction es using List.reverseRecOn with
  | nil => exact accounts_start
  | append_singleton es e ih =>
    rw [List.filterMap_append] at hjtis hfresh
    obtain ⟨hbefore, -, hdisjoint⟩ := List.nodup_append.mp hjtis
    have hrest := ih hbefore fun jti hmem => hfresh jti (List.mem_append_left _ hmem)
    rw [run_append]
    refine accounts_step hrest fun jti hregisters => ?_
    have hmem : jti ∈ [e].filterMap TokenEvent.registers :=
      List.mem_filterMap.mpr ⟨e, List.mem_singleton_self e, hregisters⟩
    exact ⟨fun hin => hdisjoint jti hin jti hmem rfl, hfresh jti (List.mem_append_right _ hmem)⟩

/-- One registration of a `jti` is the only one. -/
theorem eq_of_registered {es : List TokenEvent} {x y : TokenEntry}
    (hjtis : (es.filterMap TokenEvent.registers).Nodup) (hx : .register x ∈ es)
    (hy : .register y ∈ es) (hjti : x.jti = y.jti) : x = y := by
  induction es with
  | nil => cases hx
  | cons e es ih =>
    have hin {z : TokenEntry} (hz : TokenEvent.register z ∈ es) :
        z.jti ∈ es.filterMap TokenEvent.registers :=
      List.mem_filterMap.mpr ⟨.register z, hz, rfl⟩
    by_cases hex : e = .register x
    · subst hex
      have hnotin : x.jti ∉ es.filterMap TokenEvent.registers := (List.nodup_cons.mp hjtis).1
      rcases List.mem_cons.mp hy with heq | hy'
      · cases heq
        rfl
      · exact absurd (hjti ▸ hin hy') hnotin
    · by_cases hey : e = .register y
      · subst hey
        have hnotin : y.jti ∉ es.filterMap TokenEvent.registers := (List.nodup_cons.mp hjtis).1
        have hx' := (List.mem_cons.mp hx).resolve_left (Ne.symm hex)
        exact absurd (hjti ▸ hin hx') hnotin
      · have hrest : (es.filterMap TokenEvent.registers).Nodup :=
          hjtis.sublist ((List.sublist_cons_self e es).filterMap _)
        exact ih hrest ((List.mem_cons.mp hx).resolve_left (Ne.symm hex))
          ((List.mem_cons.mp hy).resolve_left (Ne.symm hey))

/-- When no `jti` is registered twice, a token is valid iff it is live and has
not expired; and once a revocation has covered it, it never is again. -/
theorem isValid_iff_live (es : List TokenEvent)
    (hjtis : (es.filterMap TokenEvent.registers).Nodup)
    (hfresh : ∀ jti ∈ es.filterMap TokenEvent.registers, ¬ loaded.Has jti) :
    (∀ jti, ((run tokenStep (.start now loaded) es).registry.isValid
        (run tokenStep (.start now loaded) es).now jti).1 = true ↔
      ∃ entry, entry.jti = jti ∧ Live es entry ∧
        (run tokenStep (.start now loaded) es).now < entry.expiresAt) ∧
    ∀ before e after entry, es = before ++ e :: after → .register entry ∈ before →
      e.covers entry = true → ((run tokenStep (.start now loaded) es).registry.isValid
        (run tokenStep (.start now loaded) es).now entry.jti).1 = false := by
  have hacc : Accounts loaded es (run tokenStep (.start now loaded) es) :=
    accounts_run es hjtis hfresh
  generalize run tokenStep (.start now loaded) es = s at hacc ⊢
  have hiff (jti : String) : (s.registry.isValid s.now jti).1 = true ↔
      ∃ entry, entry.jti = jti ∧ Live es entry ∧ s.now < entry.expiresAt := by
    constructor
    · intro hvalid
      obtain ⟨entry, hget, hlive⟩ := TokenRegistry.exists_of_isValid hvalid
      exact ⟨entry, s.registry.keyed jti entry hget, hacc.live jti entry hget, hlive⟩
    · rintro ⟨entry, rfl, hlive, hunexpired⟩
      have hget := hacc.kept entry hlive hunexpired
      have hnot : ¬ s.registry.Cached entry.jti := by
        intro hcached
        rw [(hacc.cached _ hcached).1] at hget
        cases hget
      exact (TokenRegistry.isValid_iff_of_not_cached hnot).mpr ⟨entry, hget, hunexpired⟩
  refine ⟨hiff, ?_⟩
  rintro before e after entry rfl hregistered hcovers
  rw [Bool.eq_false_iff]
  intro hvalid
  obtain ⟨entry', hjti, hlive, -⟩ := (hiff entry.jti).mp hvalid
  have hmem {x : TokenEntry} {es : List TokenEvent} (hx : TokenEvent.register x ∈ es) :
      x.jti ∈ es.filterMap TokenEvent.registers :=
    List.mem_filterMap.mpr ⟨.register x, hx, rfl⟩
  rw [List.filterMap_append] at hjtis
  obtain ⟨-, -, hdisjoint⟩ := List.nodup_append.mp hjtis
  -- the live token was registered before `e`, so it is the one that `e` covers
  have hnotin : TokenEvent.register entry' ∉ e :: after := fun hin =>
    hdisjoint _ (hmem hregistered) _ (hmem hin) hjti.symm
  have hin : TokenEvent.register entry' ∈ before ++ e :: after := by
    obtain ⟨xs, ys, heq, -⟩ := hlive
    rw [heq]
    exact List.mem_append_right _ List.mem_cons_self
  have hbefore := (List.mem_append.mp hin).resolve_right hnotin
  obtain rfl := eq_of_registered (List.nodup_append.mp hjtis).1 hbefore hregistered hjti
  have hnever := hlive.not_covered hnotin e List.mem_cons_self
  rw [hcovers] at hnever
  cases hnever

end Run

/-- Two tokens of an operator, of whom one session is revoked while the cache
has room for one entry. -/
def tokenSample : List TokenEvent :=
  [.register ⟨"tok_1", "ses_1", .str "did:key:op", .str "robot-1", 3600000⟩,
    .register ⟨"tok_2", "ses_2", .str "did:key:op", .str "robot-1", 3600000⟩,
    .revokeBySession "ses_1" none, .isValid "tok_1", .elapse 1000, .forget "tok_1", .cleanup]

theorem isValid_iff_live_sample :
    (∀ jti, ((run tokenStep (.start 0 (.new 1)) tokenSample).registry.isValid
        (run tokenStep (.start 0 (.new 1)) tokenSample).now jti).1 = true ↔
      ∃ entry, entry.jti = jti ∧ Live tokenSample entry ∧
        (run tokenStep (.start 0 (.new 1)) tokenSample).now < entry.expiresAt) ∧
    ∀ before e after entry, tokenSample = before ++ e :: after → .register entry ∈ before →
      e.covers entry = true → ((run tokenStep (.start 0 (.new 1)) tokenSample).registry.isValid
        (run tokenStep (.start 0 (.new 1)) tokenSample).now entry.jti).1 = false :=
  isValid_iff_live tokenSample (by decide) fun jti _ h => by cases h

end ChainKVM.Gateway
