import ChainKVM.Gateway.Sample
import Mathlib.Data.List.Perm.Basic

/-!
# Exchanging a token for a new one

A refresh takes the presented token out of the registry before its `await` and
registers the new one after it. So a session has at most one token at any
time, valid, or on its way in a suspended refresh
(`exchanged_at_most_once`), and the same token is exchanged at most once.

The argument counts. `State.weight q s` is the number of tokens with the
property `q` that are registered or will be registered by a suspended handler.
A create adds its token to the weight; a refresh adds its token and takes out
the one it was given (`weight_step`); everything else only takes tokens out.
-/

namespace ChainKVM.Gateway

open Js (Val)
open Machine (run Always collect)

/-! ## Tokens registered and under way -/

/-- The entry that a suspended handler will register. -/
def Pending.entry : Pending → TokenEntry
  | .create call => call.entry
  | .refresh call => call.entry

/-- The session that a suspended create will store. -/
def Pending.createdId : Pending → Option String
  | .create call => some call.sessionId
  | .refresh _ => none

/-- The handler that an event suspends. -/
def suspended (d : Deployment) (s : State) : Event → Option Pending
  | .create hostname body sessionId uuids =>
    match startCreate d s hostname body sessionId uuids with
    | .inl _ => none
    | .inr call => some (.create call)
  | .refresh sessionId authorization uuids =>
    match (startRefresh d s sessionId authorization uuids).1 with
    | .inl _ => none
    | .inr call => some (.refresh call)
  | _ => none

/-- The session id that a create draws. -/
def created (d : Deployment) (s : State) (e : Event) : Option String :=
  (suspended d s e).bind Pending.createdId

/-- The token that a refresh is let through for. -/
def exchanged (d : Deployment) (s : State) : Event → Option TokenEntry
  | .refresh sessionId authorization uuids =>
    match (startRefresh d s sessionId authorization uuids).1 with
    | .inl _ => none
    | .inr _ => presented d s authorization
  | _ => none

namespace State

/-- The session's valid tokens. -/
def validTokens (s : State) (sid : String) : Nat :=
  s.registry.tokens.values.countP fun entry =>
    entry.sessionId = sid && (s.registry.isValid s.now entry.jti).1

/-- The session's suspended refreshes, all of which passed the token check. -/
def suspendedRefreshes (s : State) (sid : String) : Nat :=
  s.pending.countP fun
    | .create _ => false
    | .refresh call => call.sessionId = sid

/-- The tokens with `q` that are registered, or will be by a suspended
handler. -/
def weight (q : TokenEntry → Bool) (s : State) : Nat :=
  s.registry.tokens.values.countP q + s.pending.countP fun p => q p.entry

end State

theorem validTokens_le_weight (s : State) (sid : String) :
    s.validTokens sid + s.suspendedRefreshes sid ≤
      s.weight fun entry => entry.sessionId == sid := by
  refine Nat.add_le_add (List.countP_mono_left fun entry _ h => ?_)
    (List.countP_mono_left fun p _ h => ?_)
  · exact (Bool.and_eq_true_iff.mp h).1
  · cases p with
    | create call => cases h
    | refresh call => exact h

/-! ## Steps that only take tokens out -/

/-- A step that suspends nothing and registers nothing. -/
structure Shrinks (s t : State) : Prop where
  pending : t.pending = s.pending
  tokens : t.registry.tokens.values.Sublist s.registry.tokens.values

theorem Shrinks.refl (s : State) : Shrinks s s := ⟨rfl, List.Sublist.refl _⟩

theorem Shrinks.trans {s t u : State} (h : Shrinks s t) (h' : Shrinks t u) : Shrinks s u :=
  ⟨h'.pending.trans h.pending, h'.tokens.trans h.tokens⟩

theorem Shrinks.weight_le {s t : State} (h : Shrinks s t) (q : TokenEntry → Bool) :
    t.weight q ≤ s.weight q := by
  unfold State.weight
  rw [h.pending]
  exact Nat.add_le_add_right h.tokens.countP_le _

theorem shrinks_delete (d : Deployment) (s : State) (sid : String) :
    Shrinks s (deleteSession d s sid).2 := by
  unfold deleteSession
  cases s.sessions.get sid with
  | none => exact .refl s
  | some session =>
    refine ⟨rfl, ?_⟩
    show (revokeTokens d s.now s.registry sid).tokens.values.Sublist _
    unfold revokeTokens
    split
    · exact TokenRegistry.values_foldl_revokeEntry _ _ _ _
    · exact List.Sublist.refl _

theorem shrinks_revokeNamed (d : Deployment) (s : State) (sessionId reason : Val) :
    Shrinks s (revokeNamed d s sessionId reason).2 := by
  unfold revokeNamed
  split
  next sid =>
    by_cases hempty : sid = ""
    · rw [if_pos hempty]
      exact .refl s
    · rw [if_neg hempty]
      refine ⟨pending_revokeSession d s sid reason, ?_⟩
      show (revokeSession d s sid reason).2.registry.tokens.values.Sublist _
      rw [registry_revokeSession]
      split
      · exact TokenRegistry.values_foldl_revokeEntry _ _ _ _
      · exact List.Sublist.refl _
  · exact .refl s

theorem shrinks_revokeSessions (reason : Val) :
    ∀ (sids : List String) (s : State), Shrinks s (revokeSessions reason sids s) := by
  intro sids
  induction sids with
  | nil => exact .refl
  | cons sid sids ih =>
    intro s
    have hhead : Shrinks s (notifyRevocation
        { s with sessions := (updateSessionState s.sessions sid .revoked).2 } sid reason) :=
      ⟨rfl, List.Sublist.refl _⟩
    exact hhead.trans (ih _)

theorem shrinks_revokeOperator (d : Deployment) (s : State) (operatorDid reason : Val) :
    Shrinks s (revokeOperator d s operatorDid reason).2 := by
  unfold revokeOperator revokeOperatorSessions
  split
  · split
    · have hfirst : Shrinks s
          { s with registry := (s.registry.revokeByOperator s.now operatorDid none).2 } :=
        ⟨rfl, TokenRegistry.values_foldl_revokeEntry _ _ _ _⟩
      exact hfirst.trans (shrinks_revokeSessions _ _ _)
    · exact .refl s
  · exact .refl s

theorem shrinks_revoke (d : Deployment) (s : State) (adminKey : Option String) (body : Val)
    (revocationId : String) : Shrinks s (createRevocation d s adminKey body revocationId).2 := by
  unfold createRevocation
  split
  · exact .refl s
  · split
    · exact .refl s
    · exact .refl s
    · dsimp only
      split
      · exact .refl s
      · have hboth := (shrinks_revokeNamed d s (body.member "session_id")
          (body.member "reason")).trans
          (shrinks_revokeOperator d _ (body.member "operator_did") (body.member "reason"))
        exact ⟨hboth.pending, hboth.tokens⟩

/-! ## One step -/

/-- Taking one element out of a list lowers the count by what it counts. -/
theorem countP_eraseIdx {α : Type} {xs : List α} {i : Nat} {x : α} (h : xs[i]? = some x)
    (p : α → Bool) : (xs.eraseIdx i).countP p + [x].countP p = xs.countP p := by
  obtain ⟨hi, rfl⟩ := List.getElem?_eq_some_iff.mp h
  rw [← (List.getElem_cons_eraseIdx_perm hi).countP_eq p, Nat.add_comm]
  exact List.countP_append.symm

/-- The elements that are filtered out count too. -/
theorem countP_filter_add {α : Type} {xs : List α} {x : α} (keep : α → Bool) (hx : x ∈ xs)
    (hkeep : keep x = false) (p : α → Bool) :
    (xs.filter keep).countP p + [x].countP p ≤ xs.countP p := by
  rw [List.countP_eq_countP_filter_add xs p keep]
  refine Nat.add_le_add_left ?_ _
  have hmem : [x].Sublist (xs.filter fun a => !keep a) :=
    List.singleton_sublist.mpr (List.mem_filter.mpr ⟨hx, by rw [hkeep]; rfl⟩)
  exact hmem.countP_le

section Step

variable {d : Deployment} (hregistry : d.modules.tokenRegistry = true)

include hregistry

/-- A handler that resumes registers the token that was counted already. -/
theorem weight_settle (q : TokenEntry → Bool) (s : State) (i : Nat) (ok : Bool) :
    (step d s (.settle i ok)).weight q ≤ s.weight q := by
  unfold step handle
  dsimp only
  cases hp : s.pending[i]? with
  | none => exact Nat.le_refl _
  | some p =>
    have htaken := countP_eraseIdx hp fun p => q p.entry
    have hregistered (entry : TokenEntry) :
        (registerToken d s.registry entry).tokens.values.countP q ≤
          s.registry.tokens.values.countP q + [entry].countP q := by
      unfold registerToken
      rw [if_pos hregistry]
      exact OrdMap.countP_values_set_le _ _ _ _
    cases ok with
    | false =>
      show s.registry.tokens.values.countP q + (s.pending.eraseIdx i).countP _ ≤ _
      unfold State.weight
      omega
    | true =>
      -- what the registry gains the list of suspended handlers loses
      have hsum : (registerToken d s.registry p.entry).tokens.values.countP q +
          (s.pending.eraseIdx i).countP (fun p => q p.entry) ≤ s.weight q := by
        have hentry := hregistered p.entry
        have hsame : [p].countP (fun p => q p.entry) = [p.entry].countP q := rfl
        unfold State.weight
        omega
      cases p with
      | create call => exact hsum
      | refresh call => exact hsum

/-- A refresh that is let through trades a registered token in. -/
theorem weight_refresh (q : TokenEntry → Bool) (s : State) (sid : String)
    (authorization : Option String) (uuids : Uuids) :
    (exchanged d s (.refresh sid authorization uuids)).toList.countP q +
        (step d s (.refresh sid authorization uuids)).weight q ≤
      s.weight q +
        (suspended d s (.refresh sid authorization uuids)).toList.countP fun p => q p.entry := by
  rw [step_refresh]
  simp only [exchanged, suspended]
  rcases startRefresh_cases d s sid authorization uuids with
    ⟨reply, registry, heq, hsame⟩ | ⟨call, registry, session, heq, hstarted⟩
  · rw [heq]
    have hweight : State.weight q { s with registry := registry } = s.weight q := by
      unfold State.weight
      rw [hsame]
    show 0 + State.weight q { s with registry := registry } ≤ s.weight q + 0
    omega
  · obtain ⟨entry, hpresented, hsession⟩ := hstarted.token hregistry
    obtain ⟨asked, hasked, rfl⟩ := hstarted.withdrawn
    have hmem : entry ∈ s.registry.tokens.values := by
      obtain ⟨bearerToken, -, hbearer⟩ := Option.bind_eq_some_iff.mp hpresented
      obtain ⟨jti, -, hget⟩ := Option.bind_eq_some_iff.mp hbearer
      exact OrdMap.mem_values_iff.mpr ⟨jti, hget⟩
    -- the presented token is one of those that the session's withdrawal takes out
    have hleft : (revokeTokens d s.now asked sid).tokens.values.countP q + [entry].countP q ≤
        s.registry.tokens.values.countP q := by
      unfold revokeTokens
      rw [if_pos hregistry]
      have hsub := (TokenRegistry.values_revokeBySession asked s.now sid none).countP_le (p := q)
      rw [hasked] at hsub
      have hpaid := countP_filter_add (fun e => !decide (e.sessionId = sid)) hmem
        (by simp [hsession]) q
      omega
    rw [heq]
    dsimp only
    rw [hpresented]
    show [entry].countP q + ((revokeTokens d s.now asked sid).tokens.values.countP q +
      (s.pending ++ [Pending.refresh call]).countP fun p => q p.entry) ≤
        s.weight q + [Pending.refresh call].countP fun p => q p.entry
    rw [List.countP_append]
    unfold State.weight
    omega

/-- What a step suspends is added to the weight, what it exchanges is taken
from it. -/
theorem weight_step (q : TokenEntry → Bool) (s : State) (e : Event) :
    (exchanged d s e).toList.countP q + (step d s e).weight q ≤
      s.weight q + (suspended d s e).toList.countP fun p => q p.entry := by
  have hshrinks {t : State} (h : Shrinks s t) : 0 + t.weight q ≤ s.weight q + 0 := by
    have hle := h.weight_le q
    omega
  cases e with
  | create hostname body sessionId uuids =>
    rw [step_create]
    simp only [exchanged, suspended]
    cases startCreate d s hostname body sessionId uuids with
    | inl reply => exact hshrinks (.refl s)
    | inr call =>
      show 0 + (s.registry.tokens.values.countP q +
        (s.pending ++ [Pending.create call]).countP fun p => q p.entry) ≤
          s.weight q + [Pending.create call].countP fun p => q p.entry
      rw [List.countP_append]
      unfold State.weight
      omega
  | refresh sid authorization uuids => exact weight_refresh hregistry q s sid authorization uuids
  | settle i ok =>
    have hle := weight_settle hregistry q s i ok
    show 0 + _ ≤ _ + 0
    omega
  | delete sid => exact hshrinks (shrinks_delete d s sid)
  | revoke adminKey body revocationId =>
    exact hshrinks (shrinks_revoke d s adminKey body revocationId)
  | cleanup => exact hshrinks ⟨rfl, OrdMap.values_filter_sublist _ _⟩
  | elapse ms => exact hshrinks ⟨rfl, List.Sublist.refl _⟩

/-- A refresh trades in a token of the session it will have one for. -/
theorem suspended_session (sid : String) (s : State) (e : Event) :
    ((suspended d s e).toList.countP fun p => p.entry.sessionId == sid) ≤
      ((exchanged d s e).toList.countP fun entry => entry.sessionId == sid) +
        (created d s e).toList.countP fun id => id == sid := by
  unfold created
  cases e with
  | create hostname body sessionId uuids =>
    simp only [suspended, exchanged]
    cases startCreate d s hostname body sessionId uuids with
    | inl reply => exact Nat.le_refl _
    | inr call => exact Nat.le_of_eq (Nat.zero_add _).symm
  | refresh sessionId authorization uuids =>
    simp only [suspended, exchanged]
    rcases startRefresh_cases d s sessionId authorization uuids with
      ⟨reply, registry, heq, -⟩ | ⟨call, registry, session, heq, hstarted⟩
    · rw [heq]
      exact Nat.le_refl _
    · obtain ⟨entry, hpresented, hsession⟩ := hstarted.token hregistry
      rw [heq]
      dsimp only
      rw [hpresented]
      -- the new token is for the session of the presented one
      have hsame : (Pending.refresh call).entry.sessionId = entry.sessionId :=
        hstarted.same_id.trans hsession.symm
      show [Pending.refresh call].countP _ ≤ [entry].countP _ + 0
      rw [List.countP_singleton, List.countP_singleton, hsame]
      exact Nat.le_refl _
  | _ => exact Nat.le_refl _

/-- Every token that a run exchanges has been drawn by it. -/
theorem countP_exchanged_le (now : Int) (cache : Option RevocationCache) (es : List Event)
    (q : TokenEntry → Bool) :
    (collect (step d) (exchanged d) (.start now cache) es).countP q ≤
      (collect (step d) (suspended d) (.start now cache) es).countP fun p => q p.entry := by
  have hrun := Machine.potential_le (weight_step hregistry q) (.start now cache) es
  have hstart : (State.start now cache).weight q = 0 := rfl
  omega

/-- A session has as many tokens as creates have drawn its id, at most. -/
theorem weight_session_le (now : Int) (cache : Option RevocationCache) (es : List Event)
    (sid : String) :
    ((run (step d) (.start now cache) es).weight fun entry => entry.sessionId == sid) ≤
      (collect (step d) (created d) (.start now cache) es).countP fun id => id == sid := by
  have hstep (s : State) (e : Event) :
      ((none : Option Unit).toList.countP fun _ => true) +
          (step d s e).weight (fun entry => entry.sessionId == sid) ≤
        s.weight (fun entry => entry.sessionId == sid) +
          (created d s e).toList.countP fun id => id == sid := by
    have hweight := weight_step hregistry (fun entry => entry.sessionId == sid) s e
    have hsession := suspended_session hregistry sid s e
    show 0 + _ ≤ _
    omega
  have hrun := Machine.potential_le hstep (.start now cache) es
  have hstart : (State.start now cache).weight (fun entry => entry.sessionId == sid) = 0 := rfl
  omega

/-- When session ids and `jti`s are drawn once, a session never has more than
one token that is valid or on its way, and no token is exchanged twice. -/
theorem exchanged_at_most_once (now : Int) (cache : Option RevocationCache) (es : List Event)
    (hids : (collect (step d) (created d) (.start now cache) es).Nodup)
    (hjtis : ((collect (step d) (suspended d) (.start now cache) es).map
      fun p => p.entry.jti).Nodup) :
    Always (step d) (fun s => ∀ sid, s.validTokens sid + s.suspendedRefreshes sid ≤ 1)
        (.start now cache) es ∧
      ((collect (step d) (exchanged d) (.start now cache) es).map TokenEntry.jti).Nodup := by
  constructor
  · refine Machine.always_of_prefix fun before after hes sid => ?_
    rw [hes, Machine.collect_append] at hids
    have hone : ((collect (step d) (created d) (.start now cache) before).countP
        fun id => id == sid) ≤ 1 :=
      List.nodup_iff_count_le_one.mp (List.Nodup.of_append_left hids) sid
    have hvalid := validTokens_le_weight (run (step d) (.start now cache) before) sid
    have hweight := weight_session_le hregistry now cache before sid
    omega
  · refine List.nodup_iff_count_le_one.mpr fun jti => ?_
    have hone := List.nodup_iff_count_le_one.mp hjtis jti
    rw [List.count_eq_countP, List.countP_map] at hone ⊢
    exact (countP_exchanged_le hregistry now cache es _).trans hone

end Step

/-- The operator's session and its refresh. -/
theorem exchanged_at_most_once_sample :
    Always (step Sample.gateway)
        (fun s => ∀ sid, s.validTokens sid + s.suspendedRefreshes sid ≤ 1) Sample.start
        [Sample.create, .settle 0 true, Sample.refresh] ∧
      ((collect (step Sample.gateway) (exchanged Sample.gateway) Sample.start
        [Sample.create, .settle 0 true, Sample.refresh]).map TokenEntry.jti).Nodup := by
  have hcreate : suspended Sample.gateway Sample.start Sample.create =
      some (.create (Sample.call Sample.teleop)) := by
    rw [Sample.create, suspended, Sample.startCreate_eq]
  have hrefresh : (suspended Sample.gateway Sample.issued Sample.refresh).map
      (fun p => (p.createdId, p.entry.jti)) = some (none, "tok_" ++ Sample.uuids2.jti) := by
    rw [Sample.refresh, suspended, Sample.startRefresh_eq]
    decide +kernel
  obtain ⟨p, hp, hdrawn⟩ := Option.map_eq_some_iff.mp hrefresh
  obtain ⟨hid, hjti⟩ := Prod.mk.inj hdrawn
  refine exchanged_at_most_once rfl Sample.now _ _ ?_ ?_
  · change (collect _ _ Sample.start _).Nodup
    rw [Machine.collect_cons, Machine.collect_cons, Machine.collect_cons, Sample.step_create,
      Sample.step_issue, created, created, created, hcreate, hp, Option.bind_some, Option.bind_some,
      hid]
    exact List.nodup_singleton Sample.sid
  · change ((collect _ _ Sample.start _).map _).Nodup
    rw [Machine.collect_cons, Machine.collect_cons, Machine.collect_cons, Sample.step_create,
      Sample.step_issue, hcreate, hp]
    show ["tok_" ++ Sample.uuids1.jti, p.entry.jti].Nodup
    rw [hjti]
    decide

end ChainKVM.Gateway
