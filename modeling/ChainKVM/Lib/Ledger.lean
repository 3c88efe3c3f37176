import Mathlib.Data.List.Nodup
import Mathlib.Order.Basic

/-!
# Requests and the answers to them

A ledger of numbered requests that forgets nothing. An answer carries a number,
and it is taken for the request with that number that is still open: the request
was sent in the current period, the last sweep did not find it late, and it has
not been answered.

What a table of the open requests does when one is sent, answered or swept away
is said by `awaiting_send`, `awaiting_receive` and `awaiting_reset`. As long as
every request gets a fresh number the ledger is `WellFormed`: each number is
that of one request, and each request is answered once.
-/

namespace ChainKVM

/-- A request: its number, when it was sent and in which period. -/
structure Ledger.Request (T : Type) where
  number : Nat
  sentAt : T
  period : Nat
  deriving DecidableEq, Repr

/-- An answer: the request it was taken for and when it was received. -/
structure Ledger.Answer (T : Type) where
  request : Ledger.Request T
  receivedAt : T
  deriving DecidableEq, Repr

/-- All requests and all answers, in their order, the current period, and the
time of the last sweep. -/
structure Ledger (T : Type) where
  period : Nat
  sweptAt : T
  requests : List (Ledger.Request T)
  answers : List (Ledger.Answer T)

namespace Ledger

variable {T : Type}

def start (t : T) : Ledger T := ⟨0, t, [], []⟩

/-- A request is sent, after a sweep. -/
def send (number : Nat) (sweptAt now : T) (l : Ledger T) : Ledger T :=
  { l with sweptAt, requests := l.requests ++ [⟨number, now, l.period⟩] }

/-- A new period begins; what is open from the old one is given up. -/
def reset (l : Ledger T) : Ledger T := { l with period := l.period + 1 }

/-- The answers of the current period. -/
def current (l : Ledger T) : List (Answer T) :=
  l.answers.filter fun a => a.request.period = l.period

section

variable [DecidableEq T] (late : T → T → Prop) [DecidableRel late]

/-- The request can still be answered; `late swept sent` says that a sweep takes
it away. -/
def Open (l : Ledger T) (r : Request T) : Prop :=
  r.period = l.period ∧ ¬late l.sweptAt r.sentAt ∧ ∀ a ∈ l.answers, a.request ≠ r

instance (l : Ledger T) (r : Request T) : Decidable (l.Open late r) :=
  inferInstanceAs (Decidable (_ ∧ _ ∧ _))

/-- The open request with this number. -/
def awaiting (l : Ledger T) (number : Nat) : Option (Request T) :=
  l.requests.find? fun r => r.number = number ∧ l.Open late r

/-- An answer is received: it is taken for the open request with its number, or
for none. -/
def receive (number : Nat) (now : T) (l : Ledger T) : Ledger T :=
  match l.awaiting late number with
  | some r => { l with answers := l.answers ++ [⟨r, now⟩] }
  | none => l

end

theorem mem_requests_send {l : Ledger T} {number : Nat} {sweptAt now : T} {r : Request T} :
    r ∈ (l.send number sweptAt now).requests ↔ r ∈ l.requests ∨ r = ⟨number, now, l.period⟩ := by
  show r ∈ l.requests ++ [_] ↔ _
  rw [List.mem_append, List.mem_singleton]

@[simp] theorem length_requests_send (number : Nat) (sweptAt now : T) (l : Ledger T) :
    (l.send number sweptAt now).requests.length = l.requests.length + 1 := List.length_append

/-! ## Well-formed ledgers -/

/-- At `now`: the numbers are distinct, everything lies in the past, and no
request has been answered twice. -/
structure WellFormed [Preorder T] (now : T) (l : Ledger T) : Prop where
  distinct : (l.requests.map Request.number).Nodup
  begun : ∀ r ∈ l.requests, r.period ≤ l.period
  sent : ∀ r ∈ l.requests, r.sentAt ≤ now
  swept : l.sweptAt ≤ now
  answered : ∀ a ∈ l.answers, a.request ∈ l.requests ∧ a.request.sentAt ≤ a.receivedAt
  once : (l.answers.map fun a => a.request.number).Nodup

/-- A later sweep finds no less late, and none finds late what is sent after
it. -/
structure IsLateness [Preorder T] (late : T → T → Prop) : Prop where
  later : ∀ {swept swept' sent : T}, swept ≤ swept' → late swept sent → late swept' sent
  prompt : ∀ {swept sent : T}, swept ≤ sent → ¬late swept sent

section

variable {l : Ledger T} {r r' : Request T} (h : (l.requests.map Request.number).Nodup)
include h

theorem eq_of_number (hr : r ∈ l.requests) (hr' : r' ∈ l.requests)
    (hnumber : r.number = r'.number) : r = r' :=
  List.inj_on_of_nodup_map h hr hr' hnumber

/-- The number of a request is that of no other. -/
theorem filter_number (hr : r ∈ l.requests) :
    l.requests.filter (fun r' => r'.number = r.number) = [r] := by
  refine List.perm_singleton.mp ?_
  refine (List.perm_ext_iff_of_nodup (h.of_map.filter _) (List.nodup_singleton r)).mpr fun r' => ?_
  rw [List.mem_filter, decide_eq_true_eq, List.mem_singleton]
  constructor
  · intro hr'
    exact eq_of_number h hr'.1 hr hr'.2
  · intro heq
    rw [heq]
    exact ⟨hr, rfl⟩

end

section

variable [Preorder T] {l : Ledger T} {r : Request T} {now now' : T} {number : Nat}

theorem WellFormed.start (t : T) : (Ledger.start t).WellFormed t where
  distinct := List.nodup_nil
  begun := nofun
  sent := nofun
  swept := le_refl t
  answered := nofun
  once := List.nodup_nil

theorem WellFormed.mono (h : l.WellFormed now) (hnow : now ≤ now') : l.WellFormed now' :=
  { h with
    sent := fun r hr => le_trans (h.sent r hr) hnow
    swept := le_trans h.swept hnow }

theorem WellFormed.send (h : l.WellFormed now) {sweptAt : T} (hswept : now ≤ sweptAt)
    (hnow : sweptAt ≤ now') (hfresh : number ∉ l.requests.map Request.number) :
    (l.send number sweptAt now').WellFormed now' := by
  refine ⟨?_, fun r hr => ?_, fun r hr => ?_, hnow, fun a ha => ?_, h.once⟩
  · show ((l.requests ++ [_]).map Request.number).Nodup
    rw [List.map_append, List.map_singleton, ← List.concat_eq_append]
    exact List.Nodup.concat hfresh h.distinct
  · rcases mem_requests_send.mp hr with hold | rfl
    · exact h.begun r hold
    · exact Nat.le_refl _
  · rcases mem_requests_send.mp hr with hold | rfl
    · exact le_trans (h.sent r hold) (le_trans hswept hnow)
    · exact le_refl now'
  · exact ⟨List.mem_append_left _ (h.answered a ha).1, (h.answered a ha).2⟩

theorem WellFormed.reset (h : l.WellFormed now) : l.reset.WellFormed now :=
  ⟨h.distinct, fun r hr => Nat.le_succ_of_le (h.begun r hr), h.sent, h.swept, h.answered, h.once⟩

/-- The number of an unanswered request is not that of an answer. -/
theorem WellFormed.not_answered (h : l.WellFormed now) (hr : r ∈ l.requests)
    (hopen : ∀ a ∈ l.answers, a.request ≠ r) :
    r.number ∉ l.answers.map fun a => a.request.number := by
  intro hmem
  obtain ⟨a, ha, hnumber⟩ := List.mem_map.mp hmem
  exact hopen a ha (eq_of_number h.distinct (h.answered a ha).1 hr hnumber)

/-- Nothing has been answered in a period that has just begun. -/
theorem WellFormed.current_reset (h : l.WellFormed now) : l.reset.current = [] := by
  refine List.filter_eq_nil_iff.mpr fun a ha hperiod => ?_
  have hbegun := h.begun a.request (h.answered a ha).1
  have heq : a.request.period = l.period + 1 := of_decide_eq_true hperiod
  omega

end

/-! ## The open requests -/

section

variable [DecidableEq T] {late : T → T → Prop} [DecidableRel late] {l : Ledger T} {r : Request T}
  {now : T} {k number : Nat}

theorem awaiting_sound (h : l.awaiting late k = some r) :
    r ∈ l.requests ∧ r.number = k ∧ l.Open late r := by
  have hfound := List.find?_some h
  exact ⟨List.mem_of_find?_eq_some h, of_decide_eq_true hfound⟩

/-- Where the numbers are distinct, no other request is found. -/
theorem awaiting_eq_some_iff (h : (l.requests.map Request.number).Nodup) :
    l.awaiting late k = some r ↔ r ∈ l.requests ∧ r.number = k ∧ l.Open late r := by
  refine ⟨awaiting_sound, fun ⟨hr, hnumber, hopen⟩ => ?_⟩
  cases hfind : l.awaiting late k with
  | none =>
    have hnone := List.find?_eq_none.mp hfind r hr
    exact absurd (decide_eq_true ⟨hnumber, hopen⟩) hnone
  | some r' =>
    obtain ⟨hr', hnumber', -⟩ := awaiting_sound hfind
    rw [eq_of_number h hr hr' (hnumber.trans hnumber'.symm)]

theorem receive_of_none (hr : l.awaiting late number = none) : l.receive late number now = l := by
  unfold Ledger.receive
  rw [hr]

theorem receive_of_some (hr : l.awaiting late number = some r) :
    l.receive late number now = { l with answers := l.answers ++ [⟨r, now⟩] } := by
  unfold Ledger.receive
  rw [hr]

@[simp] theorem requests_receive : (l.receive late number now).requests = l.requests := by
  unfold Ledger.receive
  split <;> rfl

/-- What an answer is taken for is not open any more, and nothing else
changes. -/
theorem open_receive (hr : l.awaiting late number = some r) (r' : Request T) :
    (l.receive late number now).Open late r' ↔ l.Open late r' ∧ r' ≠ r := by
  rw [receive_of_some hr]
  constructor
  · rintro ⟨hperiod, hsweep, hopen⟩
    refine ⟨⟨hperiod, hsweep, fun a ha => hopen a (List.mem_append_left _ ha)⟩, fun heq => ?_⟩
    exact hopen ⟨r, now⟩ (List.mem_append_right _ List.mem_cons_self) heq.symm
  · rintro ⟨⟨hperiod, hsweep, hopen⟩, hne⟩
    refine ⟨hperiod, hsweep, fun a ha => ?_⟩
    rcases List.mem_append.mp ha with hold | hnew
    · exact hopen a hold
    · rw [List.mem_singleton.mp hnew]
      exact hne.symm

/-- An answer closes the request with its number. -/
theorem awaiting_receive (h : (l.requests.map Request.number).Nodup) (k : Nat) :
    (l.receive late number now).awaiting late k =
      if k = number then none else l.awaiting late k := by
  cases hr : l.awaiting late number with
  | none =>
    rw [receive_of_none hr]
    split
    next hk => rw [hk, hr]
    next => rfl
  | some r =>
    have hrequests : (l.receive late number now).requests = l.requests := requests_receive
    obtain ⟨hmem, hnumber, -⟩ := awaiting_sound hr
    refine Option.ext fun r' => ?_
    rw [awaiting_eq_some_iff (hrequests ▸ h), hrequests, open_receive hr]
    split
    next hk =>
      refine ⟨fun ⟨hmem', hnumber', _, hne⟩ => ?_, nofun⟩
      exact absurd (eq_of_number h hmem' hmem (by rw [hnumber', hk, hnumber])) hne
    next hk =>
      rw [awaiting_eq_some_iff h]
      constructor
      · rintro ⟨hmem', hnumber', hopen, -⟩
        exact ⟨hmem', hnumber', hopen⟩
      · rintro ⟨hmem', hnumber', hopen⟩
        refine ⟨hmem', hnumber', hopen, fun heq => hk ?_⟩
        rw [← hnumber', heq, hnumber]

/-- An answer that is taken is the last of its period. -/
theorem current_receive (hr : l.awaiting late number = some r) :
    (l.receive late number now).current = l.current ++ [⟨r, now⟩] := by
  obtain ⟨-, -, hperiod, -⟩ := awaiting_sound hr
  have hnew : [(⟨r, now⟩ : Answer T)].filter (fun a => a.request.period = l.period)
      = [⟨r, now⟩] := List.filter_cons_of_pos (decide_eq_true hperiod)
  rw [receive_of_some hr]
  show (l.answers ++ [_]).filter _ = _
  rw [List.filter_append, hnew]
  rfl

variable [Preorder T] {now' : T}

theorem WellFormed.receive (h : l.WellFormed now) (hnow : now ≤ now') :
    (l.receive late number now').WellFormed now' := by
  cases hr : l.awaiting late number with
  | none =>
    rw [receive_of_none hr]
    exact h.mono hnow
  | some r =>
    rw [receive_of_some hr]
    obtain ⟨hmem, -, -, -, hopen⟩ := awaiting_sound hr
    have hlater := h.mono hnow
    refine ⟨h.distinct, h.begun, hlater.sent, hlater.swept, fun a ha => ?_, ?_⟩
    · rcases List.mem_append.mp ha with hold | hnew
      · exact h.answered a hold
      · rw [List.mem_singleton.mp hnew]
        exact ⟨hmem, hlater.sent r hmem⟩
    · show ((l.answers ++ [_]).map _).Nodup
      rw [List.map_append, List.map_singleton, ← List.concat_eq_append]
      exact List.Nodup.concat (h.not_answered hmem hopen) h.once

/-- Sending opens the new request, after the sweep has taken away what is
late. -/
theorem WellFormed.awaiting_send (h : l.WellFormed now) (hlate : IsLateness late) {sweptAt : T}
    (hswept : now ≤ sweptAt) (hnow : sweptAt ≤ now')
    (hfresh : number ∉ l.requests.map Request.number) (k : Nat) :
    (l.send number sweptAt now').awaiting late k =
      if k = number then some ⟨number, now', l.period⟩
      else (l.awaiting late k).filter fun r => ¬late sweptAt r.sentAt := by
  have hdistinct := (h.send hswept hnow hfresh).distinct
  split
  next hk =>
    have hnew : ⟨number, now', l.period⟩ ∈ (l.send number sweptAt now').requests :=
      mem_requests_send.mpr (.inr rfl)
    refine (awaiting_eq_some_iff hdistinct).mpr
      ⟨hnew, hk.symm, rfl, hlate.prompt hnow, fun a ha heq => hfresh ?_⟩
    exact List.mem_map.mpr ⟨a.request, (h.answered a ha).1, congrArg Request.number heq⟩
  next hk =>
    refine Option.ext fun r => ?_
    rw [awaiting_eq_some_iff hdistinct, Option.filter_eq_some_iff, awaiting_eq_some_iff h.distinct,
      decide_eq_true_eq]
    constructor
    · rintro ⟨hr, hnumber, hperiod, hsweep, hopen⟩
      rcases mem_requests_send.mp hr with hold | rfl
      · refine ⟨⟨hold, hnumber, hperiod, fun hbefore => ?_, hopen⟩, hsweep⟩
        exact hsweep (hlate.later (le_trans h.swept hswept) hbefore)
      · exact absurd hnumber.symm hk
    · rintro ⟨⟨hr, hnumber, hperiod, -, hopen⟩, hsweep⟩
      exact ⟨mem_requests_send.mpr (.inl hr), hnumber, hperiod, hsweep, hopen⟩

/-- A new period opens with nothing open. -/
theorem WellFormed.awaiting_reset (h : l.WellFormed now) (k : Nat) :
    l.reset.awaiting late k = none := by
  refine Option.eq_none_iff_forall_ne_some.mpr fun r hr => ?_
  obtain ⟨hmem, -, hperiod, -⟩ := awaiting_sound hr
  have hbegun := h.begun r hmem
  have heq : r.period = l.period + 1 := hperiod
  omega

end

end Ledger

end ChainKVM
