import Mathlib.Data.Nat.Digits.Lemmas

/-!
# Base 58

Bytes as text: leading zeros stay as they are, the rest is a number that changes
its base. Both directions are the same conversion (`rebase`) with the bases
exchanged, and `rebase_rebase` says that one undoes the other. So a text decodes
to bytes exactly when it is their encoding (`decode_eq_some_iff`): no two texts
decode to the same bytes.
-/

namespace ChainKVM.Base58

/-! ## Changing the base -/

/-- Digits, the most significant first, in another base. Leading zeros are
kept one by one. -/
def rebase (a b : Nat) (ds : List Nat) : List Nat :=
  ds.takeWhile (· = 0) ++ (Nat.digits b (Nat.ofDigits a (ds.dropWhile (· = 0)).reverse)).reverse

/-- Digits of a number do not start with a zero. -/
def Significant (ds : List Nat) : Prop := ∀ d ∈ ds.head?, d ≠ 0

theorem eq_zero_of_mem_takeWhile {ds : List Nat} {d : Nat} (h : d ∈ ds.takeWhile (· = 0)) :
    d = 0 :=
  of_decide_eq_true (List.all_eq_true.mp (List.all_takeWhile (l := ds)) d h)

theorem significant_dropWhile (ds : List Nat) : Significant (ds.dropWhile (· = 0)) := by
  intro d hd
  induction ds with
  | nil => cases hd
  | cons e ds ih =>
    by_cases he : e = 0
    · rw [List.dropWhile_cons_of_pos (by simpa using he)] at hd
      exact ih hd
    · rw [List.dropWhile_cons_of_neg (by simpa using he)] at hd
      cases hd
      exact he

theorem significant_digits (b n : Nat) : Significant (Nat.digits b n).reverse := by
  intro d hd
  rw [List.head?_reverse] at hd
  by_cases hn : n = 0
  · rw [hn, Nat.digits_zero] at hd
    cases hd
  · have hlast := Nat.getLast_digit_ne_zero b hn
    rw [List.getLast?_eq_some_getLast (Nat.digits_ne_nil_iff_ne_zero.mpr hn)] at hd
    rw [← Option.some.inj hd]
    exact hlast

/-- Zeros before a number are the leading zeros. -/
theorem split_zeros {zeros ds : List Nat} (hzeros : ∀ d ∈ zeros, d = 0) (hds : Significant ds) :
    (zeros ++ ds).takeWhile (· = 0) = zeros ∧ (zeros ++ ds).dropWhile (· = 0) = ds := by
  induction zeros with
  | nil =>
    cases ds with
    | nil => exact ⟨rfl, rfl⟩
    | cons d ds =>
      have hd : ¬decide (d = 0) = true := by simpa using hds d rfl
      exact ⟨List.takeWhile_cons_of_neg hd, List.dropWhile_cons_of_neg hd⟩
  | cons z zeros ih =>
    obtain ⟨hz, hrest⟩ := List.forall_mem_cons.mp hzeros
    have hpos : decide (z = 0) = true := by simpa using hz
    rw [List.cons_append, List.takeWhile_cons_of_pos (p := fun d => decide (d = 0)) hpos,
      List.dropWhile_cons_of_pos (p := fun d => decide (d = 0)) hpos, (ih hrest).1, (ih hrest).2]
    exact ⟨rfl, rfl⟩

theorem digits_ofDigits_reverse {a : Nat} (ha : 1 < a) {ds : List Nat} (hlt : ∀ d ∈ ds, d < a)
    (hds : Significant ds) : Nat.digits a (Nat.ofDigits a ds.reverse) = ds.reverse := by
  apply Nat.digits_ofDigits a ha
  · intro d hd
    exact hlt d (List.mem_reverse.mp hd)
  · intro hne
    rw [List.getLast_reverse]
    exact hds _ (List.head?_eq_some_head _)

/-- Changing the base and back gives the digits again. -/
theorem rebase_rebase {a : Nat} (ha : 1 < a) (b : Nat) {ds : List Nat} (hlt : ∀ d ∈ ds, d < a) :
    rebase b a (rebase a b ds) = ds := by
  have hzeros : ∀ d ∈ ds.takeWhile (· = 0), d = 0 := fun d hd => eq_zero_of_mem_takeWhile hd
  have hrest : ∀ d ∈ ds.dropWhile (· = 0), d < a := by
    intro d hd
    exact hlt d ((List.dropWhile_suffix _).subset hd)
  obtain ⟨htake, hdrop⟩ := split_zeros hzeros
    (significant_digits b (Nat.ofDigits a (ds.dropWhile (· = 0)).reverse))
  unfold rebase
  rw [htake, hdrop, List.reverse_reverse, Nat.ofDigits_digits,
    digits_ofDigits_reverse ha hrest (significant_dropWhile ds), List.reverse_reverse,
    List.takeWhile_append_dropWhile]

theorem lt_of_mem_rebase {a b : Nat} (hb : 1 < b) {ds : List Nat} {d : Nat}
    (hd : d ∈ rebase a b ds) : d < b := by
  rcases List.mem_append.mp hd with hd | hd
  · rw [eq_zero_of_mem_takeWhile hd]
    omega
  · exact Nat.digits_lt_base hb (List.mem_reverse.mp hd)

/-! ## The alphabet -/

/-- The digits as characters: without 0, O, I and l. -/
def alphabet : List Char := "123456789ABCDEFGHJKLMNPQRSTUVWXYZabcdefghijkmnopqrstuvwxyz".toList

def charOf (d : Nat) : Char := alphabet[d]?.getD '1'

def digitOf (c : Char) : Option Nat := if c ∈ alphabet then some (alphabet.idxOf c) else none

theorem charOf_eq {d : Nat} (h : d < alphabet.length) : charOf d = alphabet[d] := by
  unfold charOf
  rw [List.getElem?_eq_getElem h]
  rfl

theorem digitOf_eq_some_iff {c : Char} {d : Nat} : digitOf c = some d ↔ d < 58 ∧ c = charOf d := by
  have hlength : alphabet.length = 58 := by decide
  have hnodup : alphabet.Nodup := by decide
  unfold digitOf
  rw [Option.ite_none_right_eq_some, ← hlength]
  constructor
  · intro ⟨hmem, hd⟩
    have hlt := List.idxOf_lt_length_iff.mpr hmem
    rw [← Option.some.inj hd, charOf_eq hlt, List.getElem_idxOf]
    exact ⟨hlt, rfl⟩
  · intro ⟨hlt, hc⟩
    rw [hc, charOf_eq hlt, hnodup.idxOf_getElem d hlt]
    exact ⟨List.getElem_mem hlt, rfl⟩

theorem mapM_digitOf {cs : List Char} {ds : List Nat} :
    cs.mapM digitOf = some ds ↔ (∀ d ∈ ds, d < 58) ∧ cs = ds.map charOf := by
  induction cs generalizing ds with
  | nil =>
    rw [List.mapM_nil]
    constructor
    · intro h
      cases h
      exact ⟨fun d hd => (by cases hd), rfl⟩
    · intro h
      rw [List.map_eq_nil_iff.mp h.2.symm]
      rfl
  | cons c cs ih =>
    rw [List.mapM_cons]
    constructor
    · intro h
      obtain ⟨d, hd, h⟩ := Option.bind_eq_some_iff.mp h
      obtain ⟨rest, hrest, h⟩ := Option.bind_eq_some_iff.mp h
      obtain ⟨hlt, hc⟩ := digitOf_eq_some_iff.mp hd
      obtain ⟨hall, hcs⟩ := ih.mp hrest
      cases h
      exact ⟨List.forall_mem_cons.mpr ⟨hlt, hall⟩, by rw [hc, hcs, List.map_cons]⟩
    · intro ⟨hall, hcs⟩
      cases ds with
      | nil => cases hcs
      | cons d ds =>
        obtain ⟨hc, hcs⟩ := List.cons.inj hcs
        obtain ⟨hlt, hall⟩ := List.forall_mem_cons.mp hall
        rw [digitOf_eq_some_iff.mpr ⟨hlt, hc⟩, ih.mpr ⟨hall, hcs⟩]
        rfl

/-! ## Texts -/

/-- Bytes as a text, which starts with the sign for this encoding. -/
def encode (bytes : List UInt8) : String :=
  String.ofList ('z' :: (rebase 256 58 (bytes.map UInt8.toNat)).map charOf)

/-- The bytes of a text; `none` if it encodes nothing. -/
def decode (s : String) : Option (List UInt8) :=
  match s.toList with
  | 'z' :: cs => (cs.mapM digitOf).map fun ds => (rebase 58 256 ds).map UInt8.ofNat
  | _ => none

theorem map_toNat_ofNat {ds : List Nat} (h : ∀ d ∈ ds, d < 256) :
    (ds.map UInt8.ofNat).map UInt8.toNat = ds := by
  rw [List.map_map]
  refine (List.map_congr_left fun d hd => ?_).trans ds.map_id
  rw [Function.comp_apply, UInt8.toNat_ofNat', Nat.mod_eq_of_lt (h d hd)]
  rfl

theorem map_ofNat_toNat (bytes : List UInt8) :
    (bytes.map UInt8.toNat).map UInt8.ofNat = bytes := by
  rw [List.map_map]
  refine (List.map_congr_left fun b _ => ?_).trans bytes.map_id
  rw [Function.comp_apply, UInt8.ofNat_toNat]
  rfl

theorem toNat_lt_of_mem {bytes : List UInt8} {d : Nat} (h : d ∈ bytes.map UInt8.toNat) :
    d < 256 := by
  obtain ⟨b, -, hb⟩ := List.mem_map.mp h
  rw [← hb]
  exact b.toNat_lt

theorem decode_encode (bytes : List UInt8) : decode (encode bytes) = some bytes := by
  have hdigits : ∀ d ∈ rebase 256 58 (bytes.map UInt8.toNat), d < 58 :=
    fun d hd => lt_of_mem_rebase (by decide) hd
  unfold decode encode
  rw [String.toList_ofList]
  show (List.mapM digitOf _).map _ = _
  rw [mapM_digitOf.mpr ⟨hdigits, rfl⟩, Option.map_some,
    rebase_rebase (by decide) 58 fun d hd => toNat_lt_of_mem hd, map_ofNat_toNat]

theorem encode_of_decode {s : String} {bytes : List UInt8} (h : decode s = some bytes) :
    s = encode bytes := by
  unfold decode at h
  split at h
  next cs hs =>
    obtain ⟨ds, hds, hbytes⟩ := Option.map_eq_some_iff.mp h
    obtain ⟨hlt, hcs⟩ := mapM_digitOf.mp hds
    unfold encode
    rw [← hbytes, map_toNat_ofNat fun d hd => lt_of_mem_rebase (by decide) hd,
      rebase_rebase (by decide) 256 hlt, ← hcs, ← hs, String.ofList_toList]
  next => cases h

/-- A text decodes to bytes iff it is their encoding. -/
theorem decode_eq_some_iff {s : String} {bytes : List UInt8} :
    decode s = some bytes ↔ s = encode bytes := by
  constructor
  · exact encode_of_decode
  · intro h
    rw [h, decode_encode]

theorem encode_inj {bytes bytes' : List UInt8} (h : encode bytes = encode bytes') :
    bytes = bytes' := by
  have hdecode := decode_encode bytes
  rw [h, decode_encode] at hdecode
  exact (Option.some.inj hdecode).symm

end ChainKVM.Base58
