import Mathlib.Data.List.Basic

/-!
# Variable-length integers

A number as bytes of seven bits, the least significant first; the top bit says
that more bytes follow. Nothing makes such bytes the shortest for their number:
a last byte that is not 0 can be marked as followed, and then come as many empty
bytes as one likes before a final 0. `isVarint_iff` says that there is no other
freedom: a number's varints are the shortest one (`encode`) and, for each number
of empty bytes, one that is padded with them.

`read` takes a varint off the front of a text; it fails exactly on a text in
which every byte promises another (`read_eq_none_iff`).
-/

namespace ChainKVM.Varint

/-! ## Varints and their numbers -/

/-- The number that bytes of seven bits make. -/
def value : List UInt8 → Nat
  | [] => 0
  | b :: bs => b.toNat % 128 + 128 * value bs

/-- All bytes but the last say that more follow. -/
def IsVarint : List UInt8 → Prop
  | [] => False
  | b :: bs => b.toNat < 128 ∧ bs = [] ∨ 128 ≤ b.toNat ∧ IsVarint bs

/-- The shortest varint of a number. -/
def encode (v : Nat) : List UInt8 :=
  if v < 128 then [UInt8.ofNat v] else UInt8.ofNat (v % 128 + 128) :: encode (v / 128)
termination_by v

/-- A varint with `k` empty bytes, and then a 0, after those it needs. -/
def padded (k v : Nat) : List UInt8 :=
  if v < 128 then UInt8.ofNat (v + 128) :: (List.replicate k 128 ++ [0])
  else UInt8.ofNat (v % 128 + 128) :: padded k (v / 128)
termination_by v

theorem toNat_more (v : Nat) : (UInt8.ofNat (v % 128 + 128)).toNat = v % 128 + 128 := by
  rw [UInt8.toNat_ofNat']
  omega

theorem encode_eq (v : Nat) : encode v =
    if v < 128 then [UInt8.ofNat v] else UInt8.ofNat (v % 128 + 128) :: encode (v / 128) := by
  rw [encode]

theorem padded_eq (k v : Nat) : padded k v =
    if v < 128 then UInt8.ofNat (v + 128) :: (List.replicate k 128 ++ [0])
    else UInt8.ofNat (v % 128 + 128) :: padded k (v / 128) := by
  rw [padded]

/-- A byte that promises more, before a varint of the rest of the number. -/
theorem cons_more (v : Nat) {bs : List UInt8} (h : IsVarint bs ∧ value bs = v / 128) :
    IsVarint (UInt8.ofNat (v % 128 + 128) :: bs) ∧
      value (UInt8.ofNat (v % 128 + 128) :: bs) = v := by
  have hbyte := toNat_more v
  refine ⟨.inr ⟨?_, h.1⟩, ?_⟩
  · omega
  · rw [value, h.2, hbyte]
    omega

theorem isVarint_encode (v : Nat) : IsVarint (encode v) ∧ value (encode v) = v := by
  induction v using Nat.strongRecOn with
  | ind v ih =>
    rw [encode_eq]
    split
    next hlt =>
      have hbyte : (UInt8.ofNat v).toNat = v := by
        rw [UInt8.toNat_ofNat']
        omega
      refine ⟨.inl ⟨?_, rfl⟩, ?_⟩
      · omega
      · rw [value, value, hbyte]
        omega
    next hge => exact cons_more v (ih (v / 128) (by omega))

/-- Empty bytes add nothing. -/
theorem isVarint_zeros (k : Nat) :
    IsVarint (List.replicate k 128 ++ [0]) ∧ value (List.replicate k 128 ++ [0]) = 0 := by
  induction k with
  | zero => exact ⟨.inl ⟨by decide, rfl⟩, rfl⟩
  | succ k ih =>
    rw [List.replicate_succ, List.cons_append]
    refine ⟨.inr ⟨by decide, ih.1⟩, ?_⟩
    rw [value, ih.2]
    rfl

theorem isVarint_padded (k v : Nat) : IsVarint (padded k v) ∧ value (padded k v) = v := by
  induction v using Nat.strongRecOn with
  | ind v ih =>
    rw [padded_eq]
    split
    next hlt =>
      have hmod : v % 128 = v := Nat.mod_eq_of_lt hlt
      have hzeros := isVarint_zeros k
      rw [← Nat.div_eq_of_lt hlt] at hzeros
      have hcons := cons_more v hzeros
      rw [hmod] at hcons
      exact hcons
    next hge => exact cons_more v (ih (v / 128) (by omega))

/-- A varint of a number is the shortest one or a padded one. -/
theorem eq_of_isVarint {bytes : List UInt8} (h : IsVarint bytes) :
    bytes = encode (value bytes) ∨ ∃ k, bytes = padded k (value bytes) := by
  induction bytes with
  | nil => exact h.elim
  | cons b bs ih =>
    rw [value]
    rcases h with ⟨hlast, hnil⟩ | ⟨hmore, hrest⟩
    · -- a last byte is the number
      left
      have hv : b.toNat % 128 + 128 * value [] = b.toNat := by
        rw [value]
        omega
      rw [hnil, hv, encode_eq, if_pos hlast, UInt8.ofNat_toNat]
    · have hb : b.toNat < 256 := b.toNat_lt
      have hbyte (w : Nat) : UInt8.ofNat ((b.toNat % 128 + 128 * w) % 128 + 128) = b := by
        apply UInt8.toNat_inj.mp
        rw [toNat_more]
        omega
      have hdiv (w : Nat) : (b.toNat % 128 + 128 * w) / 128 = w := by omega
      by_cases hzero : value bs = 0
      · -- the rest is a padding of this byte
        right
        have hsmall : UInt8.ofNat (b.toNat % 128 + 128 * 0 + 128) = b := by
          apply UInt8.toNat_inj.mp
          rw [UInt8.toNat_ofNat']
          omega
        rw [hzero] at ih ⊢
        rcases ih hrest with hshort | ⟨k, hpadded⟩
        · refine ⟨0, ?_⟩
          rw [padded_eq, if_pos (by omega), hsmall, hshort, encode_eq, if_pos (by omega)]
          rfl
        · refine ⟨k + 1, ?_⟩
          rw [padded_eq, if_pos (by omega), hsmall, hpadded, padded_eq, if_pos (by omega)]
          rfl
      · have hge : ¬b.toNat % 128 + 128 * value bs < 128 := by omega
        rcases ih hrest with hshort | ⟨k, hpadded⟩
        · left
          rw [encode_eq, if_neg hge, hbyte, hdiv, ← hshort]
        · right
          refine ⟨k, ?_⟩
          rw [padded_eq, if_neg hge, hbyte, hdiv, ← hpadded]

/-- The varints of a number. -/
theorem isVarint_iff (bytes : List UInt8) (v : Nat) :
    IsVarint bytes ∧ value bytes = v ↔ bytes = encode v ∨ ∃ k, bytes = padded k v := by
  constructor
  · intro h
    rw [← h.2]
    exact eq_of_isVarint h.1
  · intro h
    rcases h with h | ⟨k, h⟩
    · rw [h]
      exact isVarint_encode v
    · rw [h]
      exact isVarint_padded k v

/-! ## Reading -/

/-- The number at the front of a text, and how many bytes it takes. -/
def read : List UInt8 → Option (Nat × Nat)
  | [] => none
  | b :: bs =>
    if b.toNat < 128 then some (b.toNat, 1)
    else (read bs).map fun r => (b.toNat % 128 + 128 * r.1, r.2 + 1)

/-- A text that starts with a varint of `v`, of `n` bytes. -/
def Reads (bytes : List UInt8) (v n : Nat) : Prop :=
  ∃ head rest, bytes = head ++ rest ∧ IsVarint head ∧ value head = v ∧ head.length = n

theorem reads_of_last {b : UInt8} (h : b.toNat < 128) (bs : List UInt8) (v n : Nat) :
    Reads (b :: bs) v n ↔ v = b.toNat ∧ n = 1 := by
  have hvalue : value [b] = b.toNat := by
    rw [value, value]
    omega
  constructor
  · intro ⟨head, rest, hbytes, hvarint, hv, hn⟩
    cases head with
    | nil => exact hvarint.elim
    | cons c head =>
      obtain ⟨rfl, -⟩ := List.cons.inj hbytes
      rcases hvarint with ⟨-, hnil⟩ | ⟨hmore, -⟩
      · rw [hnil] at hv hn
        exact ⟨hv.symm.trans hvalue, hn.symm⟩
      · omega
  · intro ⟨hv, hn⟩
    exact ⟨[b], bs, rfl, .inl ⟨h, rfl⟩, hvalue.trans hv.symm, hn.symm⟩

theorem reads_of_more {b : UInt8} (h : 128 ≤ b.toNat) (bs : List UInt8) (v n : Nat) :
    Reads (b :: bs) v n ↔ ∃ w m, Reads bs w m ∧ v = b.toNat % 128 + 128 * w ∧ n = m + 1 := by
  constructor
  · intro ⟨head, rest, hbytes, hvarint, hv, hn⟩
    cases head with
    | nil => exact hvarint.elim
    | cons c head =>
      obtain ⟨rfl, hbs⟩ := List.cons.inj hbytes
      rcases hvarint with ⟨hlast, -⟩ | ⟨-, hrest⟩
      · omega
      · exact ⟨value head, head.length, ⟨head, rest, hbs, hrest, rfl, rfl⟩, hv.symm, hn.symm⟩
  · intro ⟨w, m, ⟨head, rest, hbs, hvarint, hw, hm⟩, hv, hn⟩
    refine ⟨b :: head, rest, ?_, .inr ⟨h, hvarint⟩, ?_, ?_⟩
    · rw [hbs, List.cons_append]
    · rw [value, hw, hv]
    · rw [List.length_cons, hm, hn]

/-- What is read is the varint at the front. -/
theorem read_eq_some_iff {bytes : List UInt8} {v n : Nat} :
    read bytes = some (v, n) ↔ Reads bytes v n := by
  induction bytes generalizing v n with
  | nil =>
    constructor
    · intro h
      cases h
    · intro ⟨head, rest, hnil, hvarint, _⟩
      rw [(List.append_eq_nil_iff.mp hnil.symm).1] at hvarint
      exact hvarint.elim
  | cons b bs ih =>
    rw [read]
    split
    next hlast =>
      rw [reads_of_last hlast, Option.some.injEq, Prod.mk.injEq, eq_comm (a := b.toNat),
        eq_comm (a := 1)]
    next hmore =>
      rw [reads_of_more (Nat.le_of_not_lt hmore), Option.map_eq_some_iff]
      constructor
      · intro ⟨⟨w, m⟩, hr, heq⟩
        obtain ⟨hv, hn⟩ := Prod.mk.inj heq
        exact ⟨w, m, ih.mp hr, hv.symm, hn.symm⟩
      · intro ⟨w, m, hr, hv, hn⟩
        exact ⟨(w, m), ih.mpr hr, Prod.mk.injEq .. ▸ ⟨hv.symm, hn.symm⟩⟩

/-- Nothing is read of a text that never ends its number. -/
theorem read_eq_none_iff {bytes : List UInt8} : read bytes = none ↔ ∀ b ∈ bytes, 128 ≤ b.toNat := by
  induction bytes with
  | nil => simp [read]
  | cons b bs ih =>
    rw [read, List.forall_mem_cons, ← ih]
    split
    next hlast =>
      constructor
      · intro h
        cases h
      · intro h
        omega
    next hmore =>
      rw [Option.map_eq_none_iff]
      exact ⟨fun h => ⟨Nat.le_of_not_lt hmore, h⟩, fun h => h.2⟩

end ChainKVM.Varint
