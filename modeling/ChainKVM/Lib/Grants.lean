import Mathlib.Logic.Function.Basic
import Mathlib.Logic.Relation

/-!
# Grants that run out, held by holders that can be closed

A system hands out grants. A grant has a holder and runs out at a time; a
holder belongs to a principal and is open until it is closed, for good.
Meanwhile a holder's grant may be being renewed. A store of grants is *sound*
when no closed holder has a grant that has not run out.

`Move` lists what such a system may do in one go. The two guards that matter
are those of `issue` (an unexpired grant goes to an open holder only) and
`close` (a holder is closed only when it has no grants left). Every move keeps
the store sound and consistent (`Move.sound`, `Move.consistent`), closed
holders stay closed and holders stay with their principal; `Moves` is any
number of moves.
-/

namespace ChainKVM

/-- A grant: its holder, the holder's principal and when it runs out. -/
structure Grant (H P : Type) where
  holder : H
  principal : P
  expiry : Int

/-- A store of grants `G`, held by `H` on behalf of `P`. A holder has its
principal and says whether it is open. -/
@[ext] structure Grants (H P G : Type) where
  now : Int
  holder : H → Option (P × Bool)
  grant : G → Option (Grant H P)
  /-- The renewals under way. -/
  renewing : H → P → Prop

namespace Grants

variable {H P G : Type}

/-- The holder has been closed. -/
def Closed (s : Grants H P G) (h : H) : Prop := ∃ p, s.holder h = some (p, false)

/-- The holder has a grant that has not run out. -/
def Live (s : Grants H P G) (h : H) : Prop := ∃ g x, s.grant g = some x ∧ x.holder = h ∧ s.now < x.expiry

/-- No closed holder has a live grant. -/
def Sound (s : Grants H P G) : Prop := ∀ h, s.Closed h → ¬ s.Live h

/-- Grants and renewals name holders that exist, with their principals. -/
structure Consistent (s : Grants H P G) : Prop where
  grant : ∀ g x, s.grant g = some x → ∃ b, s.holder x.holder = some (x.principal, b)
  renewing : ∀ h p, s.renewing h p → ∃ b, s.holder h = some (p, b)

variable [DecidableEq H] [DecidableEq G]

/-- What may happen to a store. -/
inductive Move (s : Grants H P G) : Grants H P G → Prop
  | elapse (t : Int) : s.now ≤ t → Move s { s with now := t }
  | withdraw (grant : G → Option (Grant H P)) : (∀ g x, grant g = some x → s.grant g = some x) →
      Move s { s with grant := grant }
  | renew (renewing : H → P → Prop) :
      (∀ h p, renewing h p → s.renewing h p ∨ ∃ b, s.holder h = some (p, b)) →
      Move s { s with renewing := renewing }
  | opens (h : H) (p : P) : s.holder h = none →
      Move s { s with holder := Function.update s.holder h (some (p, true)) }
  | issue (g : G) (x : Grant H P) (b : Bool) : s.holder x.holder = some (x.principal, b) →
      b = true ∨ x.expiry ≤ s.now →
      Move s { s with grant := Function.update s.grant g (some x) }
  | close (h : H) (p : P) (b : Bool) : s.holder h = some (p, b) →
      (∀ g x, s.grant g = some x → x.holder ≠ h) →
      Move s { s with holder := Function.update s.holder h (some (p, false)) }

/-- Any number of moves. -/
abbrev Moves : Grants H P G → Grants H P G → Prop := Relation.ReflTransGen Move

/-! ## What a move keeps -/

/-- A holder stays, with its principal. -/
theorem Move.principal {s s' : Grants H P G} (hm : Move s s') {h : H} {p : P} {b : Bool}
    (hh : s.holder h = some (p, b)) : ∃ b', s'.holder h = some (p, b') := by
  cases hm with
  | opens h' p' hnone =>
    have hne : h ≠ h' := by
      rintro rfl
      rw [hnone] at hh
      cases hh
    exact ⟨b, by rw [← hh]; exact Function.update_of_ne hne _ _⟩
  | close h' p' b' hh' _ =>
    by_cases hne : h = h'
    · subst hne
      rw [hh'] at hh
      cases hh
      exact ⟨false, Function.update_self _ _ _⟩
    · exact ⟨b, by rw [← hh]; exact Function.update_of_ne hne _ _⟩
  | _ => exact ⟨b, hh⟩

/-- A closed holder stays closed. -/
theorem Move.closed {s s' : Grants H P G} (hm : Move s s') {h : H} (hc : s.Closed h) :
    s'.Closed h := by
  obtain ⟨p, hh⟩ := hc
  cases hm with
  | opens h' p' hnone =>
    have hne : h ≠ h' := by
      rintro rfl
      rw [hnone] at hh
      cases hh
    exact ⟨p, by rw [← hh]; exact Function.update_of_ne hne _ _⟩
  | close h' p' b' hh' _ =>
    by_cases hne : h = h'
    · subst hne
      exact ⟨p', Function.update_self _ _ _⟩
    · exact ⟨p, by rw [← hh]; exact Function.update_of_ne hne _ _⟩
  | _ => exact ⟨p, hh⟩

/-- What a grant or renewal names before a move, it names after it. -/
theorem Move.named {s s' : Grants H P G} (hm : Move s s') {h : H} {p : P}
    (hh : ∃ b, s.holder h = some (p, b)) : ∃ b, s'.holder h = some (p, b) :=
  let ⟨_, hb⟩ := hh
  hm.principal hb

theorem Move.consistent {s s' : Grants H P G} (hm : Move s s') (hs : s.Consistent) :
    s'.Consistent := by
  cases hm with
  | elapse t ht => exact ⟨hs.grant, hs.renewing⟩
  | withdraw grant hsub => exact ⟨fun g x hx => hs.grant g x (hsub g x hx), hs.renewing⟩
  | renew renewing hnew =>
    exact ⟨hs.grant, fun h p hr => (hnew h p hr).elim (hs.renewing h p) id⟩
  | opens h p hnone =>
    have hm := Move.opens (s := s) h p hnone
    exact ⟨fun g x hx => hm.named (hs.grant g x hx), fun h p hr => hm.named (hs.renewing h p hr)⟩
  | issue g x b hx _ =>
    refine ⟨fun g' x' hx' => ?_, hs.renewing⟩
    change Function.update s.grant g (some x) g' = some x' at hx'
    by_cases hg : g' = g
    · subst hg
      rw [Function.update_self] at hx'
      cases hx'
      exact ⟨b, hx⟩
    · rw [Function.update_of_ne hg] at hx'
      exact hs.grant g' x' hx'
  | close h p b hh hnone =>
    have hm := Move.close (s := s) h p b hh hnone
    exact ⟨fun g x hx => hm.named (hs.grant g x hx), fun h p hr => hm.named (hs.renewing h p hr)⟩

theorem Move.sound {s s' : Grants H P G} (hm : Move s s') (hs : s.Sound) (hc : s.Consistent) :
    s'.Sound := by
  rintro h ⟨p, hh⟩ ⟨g, x, hx, rfl, hlive⟩
  cases hm with
  | elapse t ht => exact hs x.holder ⟨p, hh⟩ ⟨g, x, hx, rfl, Int.lt_of_le_of_lt ht hlive⟩
  | withdraw grant hsub => exact hs x.holder ⟨p, hh⟩ ⟨g, x, hsub g x hx, rfl, hlive⟩
  | renew renewing _ => exact hs x.holder ⟨p, hh⟩ ⟨g, x, hx, rfl, hlive⟩
  | opens h' p' hnone =>
    obtain ⟨b, hb⟩ := hc.grant g x hx
    by_cases hne : x.holder = h'
    · -- the grant would be older than its holder
      rw [hne, hnone] at hb
      cases hb
    · change Function.update s.holder h' (some (p', true)) x.holder = some (p, false) at hh
      rw [Function.update_of_ne hne] at hh
      exact hs x.holder ⟨p, hh⟩ ⟨g, x, hx, rfl, hlive⟩
  | issue g' x' b hx' hguard =>
    change Function.update s.grant g' (some x') g = some x at hx
    by_cases hg : g = g'
    · subst hg
      rw [Function.update_self] at hx
      cases hx
      have hh' : s.holder x.holder = some (p, false) := hh
      rw [hx'] at hh'
      cases hh'
      rcases hguard with hopen | hexpired
      · cases hopen
      · exact absurd hlive (Int.not_lt.mpr hexpired)
    · rw [Function.update_of_ne hg] at hx
      exact hs x.holder ⟨p, hh⟩ ⟨g, x, hx, rfl, hlive⟩
  | close h' p' b hh' hnone =>
    have hne : x.holder ≠ h' := hnone g x hx
    change Function.update s.holder h' (some (p', false)) x.holder = some (p, false) at hh
    rw [Function.update_of_ne hne] at hh
    exact hs x.holder ⟨p, hh⟩ ⟨g, x, hx, rfl, hlive⟩

/-! ## Runs of moves -/

/-- Consistent and sound: what every reachable store is. -/
structure Good (s : Grants H P G) : Prop where
  consistent : s.Consistent
  sound : s.Sound

theorem Moves.good {s s' : Grants H P G} (hm : Moves s s') (hs : s.Good) : s'.Good := by
  induction hm with
  | refl => exact hs
  | tail _ hlast ih => exact ⟨hlast.consistent ih.consistent, hlast.sound ih.sound ih.consistent⟩

theorem Moves.closed {s s' : Grants H P G} (hm : Moves s s') {h : H} (hc : s.Closed h) :
    s'.Closed h := by
  induction hm with
  | refl => exact hc
  | tail _ hlast ih => exact hlast.closed ih

theorem Moves.principal {s s' : Grants H P G} (hm : Moves s s') {h : H} {p : P} {b : Bool}
    (hh : s.holder h = some (p, b)) : ∃ b', s'.holder h = some (p, b') := by
  induction hm with
  | refl => exact ⟨b, hh⟩
  | tail _ hlast ih =>
    obtain ⟨b', hb'⟩ := ih
    exact hlast.principal hb'

end Grants

end ChainKVM
