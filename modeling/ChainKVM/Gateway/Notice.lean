import ChainKVM.Gateway.Server

/-!
# Who hears of a revocation

A revocation is one HTTP event: before its handler returns, `notifyRevocation`
has gone through the rooms of all affected sessions. What a peer has been sent
only grows (`inbox_step`), and a member of one of these rooms whose socket is
open is sent a `revoked` message behind everything else (`told_of_notified`).

The notice goes to the rooms as they are at this moment. A peer that is not in
the room, or whose socket is closing, is told nothing.
-/

namespace ChainKVM.Gateway

open Js (Val)

namespace Signaling

/-! ## What a peer has been sent -/

/-- The messages that were handed to the socket of a peer, in order. -/
def inbox (s : Signaling) (peerId : String) : List ServerMessage :=
  (s.sent.filter fun d => d.recipient = peerId).map Delivery.message

theorem inbox_of_sent {s s' : Signaling} {news : List Delivery} (h : s'.sent = s.sent ++ news)
    (peerId : String) : s'.inbox peerId =
      s.inbox peerId ++ (news.filter fun d => d.recipient = peerId).map Delivery.message := by
  unfold inbox
  rw [h, List.filter_append, List.map_append]

theorem inbox_mono {s s' : Signaling} (h : s.sent <+: s'.sent) (peerId : String) :
    s.inbox peerId <+: s'.inbox peerId := by
  obtain ⟨news, hnews⟩ := h
  exact ⟨_, (inbox_of_sent hnews.symm peerId).symm⟩

theorem Quiet.grows {s s' : Signaling} (h : Quiet s s') : s.sent <+: s'.sent := by
  obtain ⟨news, hsent, -⟩ := h
  exact ⟨news, hsent.symm⟩

/-- Nothing that was sent is taken back. -/
theorem sent_prefix_step (decodePart : String → Option Val) (s : Signaling) (e : SocketEvent) :
    s.sent <+: (step decodePart s e).sent := by
  by_cases hup : s.up = true
  · cases e with
    | connect peerId =>
      rw [step_connect hup]
    | closing peerId =>
      rw [step_closing hup]
    | message peerId now registry msg =>
      cases hsocket : s.sockets.get peerId with
      | none =>
        rw [(step_of_unconnected hsocket now registry msg).1]
      | some socket =>
        rw [step_message hup hsocket]
        cases hrelayed : relayedIn socket msg with
        | none => exact (quiet_onMessage decodePart now registry s peerId socket hrelayed).grows
        | some sid =>
          cases msg with
          | none => cases hrelayed
          | some msg =>
            rw [onMessage_relayed decodePart now registry s peerId hrelayed]
            exact List.prefix_append _ _
    | close peerId =>
      cases hsocket : s.sockets.get peerId with
      | none => rw [(step_of_unconnected hsocket 0 none none).2]
      | some socket =>
        rw [step_close hup hsocket]
        have hquiet := quiet_handleDisconnect s peerId socket.state
        cases hs : s.handleDisconnect peerId socket.state with
        | none => exact List.prefix_refl _
        | some s' =>
          rw [hs] at hquiet
          exact hquiet.grows
    | revoke sid reason =>
      rw [step_revocation hup]
      exact (quiet_notifyRevocation s sid reason).grows
  · rw [step_of_down (Bool.eq_false_iff.mpr hup)]

/-! ## What one notice does -/

theorem mem_recipients_all {s : Signaling} {sid recipient : String} :
    recipient ∈ s.recipients sid none ↔ InRoom s.rooms sid recipient ∧ s.isOpen recipient := by
  unfold recipients InRoom
  cases s.rooms.get sid with
  | none => exact ⟨fun h => (nomatch h), fun ⟨⟨_, h, _⟩, _⟩ => (nomatch h)⟩
  | some room =>
    rw [List.mem_filter, OrdMap.mem_keys_iff]
    simp

theorem sent_notifyRevocation (s : Signaling) (sid : String) (reason : Val) :
    (s.notifyRevocation sid reason).sent = s.sent ++
      (s.recipients sid none).map fun peerId => ⟨peerId, .revoked sid reason⟩ := by
  unfold notifyRevocation
  cases s.rooms.get sid <;> rfl

theorem up_notifyRevocation (s : Signaling) (sid : String) (reason : Val) :
    (s.notifyRevocation sid reason).up = s.up := by
  unfold notifyRevocation
  cases s.rooms.get sid <;> rfl

/-- Closing the sockets of some peers leaves the others open. -/
theorem get_foldl_update {peerId : String} (f : Socket → Socket) :
    ∀ (members : List String) (sockets : OrdMap String Socket), peerId ∉ members →
      (members.foldl (fun sockets peerId => sockets.update peerId f) sockets).get peerId =
        sockets.get peerId := by
  intro members
  induction members with
  | nil => exact fun _ _ => rfl
  | cons member members ih =>
    intro sockets hnot
    rw [List.mem_cons, not_or] at hnot
    rw [List.foldl_cons, ih _ hnot.2, OrdMap.get_update, if_neg hnot.1]

/-- Only the sockets in the room are closed. -/
theorem isOpen_notifyRevocation {s : Signaling} {sid peerId : String} (reason : Val)
    (hnot : ¬ InRoom s.rooms sid peerId) :
    (s.notifyRevocation sid reason).isOpen peerId = s.isOpen peerId := by
  unfold notifyRevocation
  cases hroom : s.rooms.get sid with
  | none => rfl
  | some room =>
    have hout : peerId ∉ room.entries.map Prod.fst := fun hmem =>
      hnot ⟨room, hroom, OrdMap.mem_keys_iff.mp hmem⟩
    show ((List.foldl _ s.sockets _).get peerId).any Socket.isOpen = _
    rw [get_foldl_update _ _ _ hout]
    rfl

end Signaling

namespace Server

/-! ## What a step sends -/

theorem sent_prefix_notify (p : Process) :
    ∀ (revoked : List (String × Val)) (s : Signaling), s.sent <+: (notify p s revoked).sent := by
  intro revoked
  induction revoked with
  | nil => exact fun s => List.prefix_refl _
  | cons r revoked ih =>
    intro s
    have hone := Signaling.sent_prefix_step p.deployment.decodePart s (.revoke r.1 r.2)
    exact hone.trans (ih _)

/-- What a peer has been sent only grows. -/
theorem inbox_step (p : Process) (s : Server) (e : ServerEvent) (peerId : String) :
    s.signaling.inbox peerId <+: (s.step p e).signaling.inbox peerId := by
  refine Signaling.inbox_mono ?_ peerId
  by_cases hup : s.signaling.up = true
  · cases e with
    | http e =>
      rw [signaling_http hup]
      exact sent_prefix_notify p _ s.signaling
    | connect peerId | message peerId msg | closing peerId | close peerId =>
      rw [signaling_step rfl]
      exact Signaling.sent_prefix_step _ _ _
  · rw [step_of_down (Bool.eq_false_iff.mpr hup)]

/-! ## The notices of a revocation -/

/-- A member of a room that is notified, with an open socket, is told: of this
session or of another one whose room it is in, too. -/
theorem told_of_notified (p : Process) {sid peerId : String} {reason : Val} :
    ∀ (revoked : List (String × Val)) (s : Signaling), s.up = true → (sid, reason) ∈ revoked →
      InRoom s.rooms sid peerId → s.isOpen peerId = true →
        ∃ news, (notify p s revoked).inbox peerId = s.inbox peerId ++ news ∧
          ∃ r ∈ revoked, .revoked r.1 r.2 ∈ news := by
  intro revoked
  induction revoked with
  | nil => exact fun _ _ hmem => nomatch hmem
  | cons r revoked ih =>
    intro s hup hmem hin hopen
    have hnotify : notify p s (r :: revoked) = notify p (s.notifyRevocation r.1 r.2) revoked := by
      rw [← Signaling.step_revocation hup]
      rfl
    rw [hnotify]
    have hsent := Signaling.sent_notifyRevocation s r.1 r.2
    have hinbox := Signaling.inbox_of_sent hsent peerId
    by_cases hhere : InRoom s.rooms r.1 peerId
    · -- it is told now, and nothing takes that back
      obtain ⟨later, hlater⟩ := Signaling.inbox_mono
        (sent_prefix_notify p revoked (s.notifyRevocation r.1 r.2)) peerId
      rw [hinbox, List.append_assoc] at hlater
      refine ⟨_, hlater.symm, r, List.mem_cons_self, List.mem_append_left _ ?_⟩
      have hrecipient := Signaling.mem_recipients_all.mpr ⟨hhere, hopen⟩
      have hdelivery := List.mem_map_of_mem (f := fun recipient =>
        (⟨recipient, .revoked r.1 r.2⟩ : Delivery)) hrecipient
      exact List.mem_map.mpr ⟨_, List.mem_filter.mpr ⟨hdelivery, by simp⟩, rfl⟩
    · -- it is not, and it stays where it is
      have hne : sid ≠ r.1 := fun h => hhere (h ▸ hin)
      have hlater : (sid, reason) ∈ revoked := by
        rcases List.mem_cons.mp hmem with heq | hlater
        · exact absurd (congrArg Prod.fst heq) hne
        · exact hlater
      obtain ⟨news, hnews, r', hr', htold⟩ := ih (s.notifyRevocation r.1 r.2)
        ((Signaling.up_notifyRevocation s r.1 r.2).trans hup) hlater
        ((rooms_notifyRevocation s r.1 r.2 peerId sid).mpr ⟨hin, hne⟩)
        ((Signaling.isOpen_notifyRevocation r.2 hhere).trans hopen)
      rw [hinbox, List.append_assoc] at hnews
      exact ⟨_, hnews, r', List.mem_cons_of_mem _ hr', List.mem_append_right _ htold⟩

/-- What a handler has notified, it has notified with one reason. -/
def NotifiesWith (reason : Val) (before after : State) : Prop :=
  ∃ sids : List String, after.notified = before.notified ++ sids.map fun sid => (sid, reason)

theorem NotifiesWith.of_eq {reason : Val} {before after : State}
    (h : after.notified = before.notified) : NotifiesWith reason before after :=
  ⟨[], by rw [h, List.map_nil, List.append_nil]⟩

theorem NotifiesWith.trans {reason : Val} {s s' s'' : State} (h : NotifiesWith reason s s')
    (h' : NotifiesWith reason s' s'') : NotifiesWith reason s s'' := by
  obtain ⟨sids, hsids⟩ := h
  obtain ⟨sids', hsids'⟩ := h'
  refine ⟨sids ++ sids', ?_⟩
  rw [hsids', hsids, List.append_assoc, List.map_append]

theorem notifiesWith_revokeSession (d : Deployment) (s : State) (sid : String) (reason : Val) :
    NotifiesWith reason s (revokeSession d s sid reason).2 := by
  obtain ⟨t, rfl, h | h⟩ := revokeSession_cases d s sid reason
  · rw [h]
    exact .of_eq rfl
  · rw [h]
    exact ⟨[sid], rfl⟩

theorem notifiesWith_revokeSessions (reason : Val) :
    ∀ (sids : List String) (s : State), NotifiesWith reason s (revokeSessions reason sids s) := by
  intro sids
  induction sids with
  | nil => exact fun s => .of_eq rfl
  | cons sid sids ih =>
    intro s
    unfold revokeSessions
    have hone : NotifiesWith reason s (notifyRevocation
        { s with sessions := (updateSessionState s.sessions sid .revoked).2 } sid reason) :=
      ⟨[sid], rfl⟩
    exact hone.trans (ih _)

theorem notifiesWith_createRevocation (d : Deployment) (s : State) (adminKey : Option String)
    (body : Val) (revocationId : String) :
    NotifiesWith (body.member "reason") s
      (createRevocation d s adminKey body revocationId).2 := by
  have hnamed (sessionId reason : Val) :
      NotifiesWith reason s (revokeNamed d s sessionId reason).2 := by
    unfold revokeNamed
    split
    · split
      · exact .of_eq rfl
      · exact notifiesWith_revokeSession d s _ reason
    · exact .of_eq rfl
  have hoperator (s : State) (operatorDid reason : Val) :
      NotifiesWith reason s (revokeOperator d s operatorDid reason).2 := by
    unfold revokeOperator revokeOperatorSessions
    split
    · split
      · exact notifiesWith_revokeSessions reason _ _
      · exact .of_eq rfl
    · exact .of_eq rfl
  -- both halves of the handler pass the reason of the request on
  unfold createRevocation
  split
  · exact .of_eq rfl
  · split
    · exact .of_eq rfl
    · exact .of_eq rfl
    · dsimp only
      split
      · exact .of_eq rfl
      · exact (hnamed _ _).trans (hoperator _ _ _)

/-- One event notifies with one reason. -/
theorem notifiesWith_step (d : Deployment) (s : State) (e : Event) :
    ∃ reason, NotifiesWith reason s (Gateway.step d s e) := by
  cases e with
  | create hostname body sessionId uuids =>
    rw [step_create]
    refine ⟨.undefined, ?_⟩
    split <;> exact .of_eq rfl
  -- only a revocation notifies anybody
  | refresh sessionId authorization uuids =>
    rw [step_refresh]
    refine ⟨.undefined, ?_⟩
    cases startRefresh d s sessionId authorization uuids with
    | mk result registry => cases result <;> exact .of_eq rfl
  | settle i ok =>
    refine ⟨.undefined, ?_⟩
    unfold Gateway.step handle
    dsimp only
    split
    · exact .of_eq rfl
    · split
      · split <;> exact .of_eq rfl
      · exact .of_eq rfl
  | delete sessionId =>
    refine ⟨.undefined, ?_⟩
    show NotifiesWith .undefined s (deleteSession d s sessionId).2
    unfold deleteSession
    split <;> exact .of_eq rfl
  | revoke adminKey body revocationId =>
    rw [step_revoke]
    exact ⟨_, notifiesWith_createRevocation d s adminKey body revocationId⟩
  | cleanup => exact ⟨.undefined, .of_eq rfl⟩
  | elapse ms => exact ⟨.undefined, .of_eq rfl⟩

theorem notifications_reason {d : Deployment} {s : State} {e : Event} {r r' : String × Val}
    (h : r ∈ notifications s (Gateway.step d s e))
    (h' : r' ∈ notifications s (Gateway.step d s e)) : r.2 = r'.2 := by
  obtain ⟨reason, sids, hsids⟩ := notifiesWith_step d s e
  unfold notifications at h h'
  rw [hsids, List.drop_left] at h h'
  obtain ⟨sid, -, rfl⟩ := List.mem_map.mp h
  obtain ⟨sid', -, rfl⟩ := List.mem_map.mp h'
  rfl

end Server

end ChainKVM.Gateway
