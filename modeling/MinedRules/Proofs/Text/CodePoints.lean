import MinedRules.Proofs.Text.Encoding
import MinedRules.Proofs.Text.Order
import Mathlib.Tactic.SplitIfs

/-!
# The order of code points

Texts are sorted by the bytes of their encodings.  This is the order of their code points, compared
one after the other (`Text.compare_encode`): the first byte of a character grows with the number of
its bytes, and among characters with as many bytes these carry the digits of the code point in base
64, the highest one first (`Text.encodeChar_append_lt`).
-/

namespace MinedRules

namespace Text

variable {a b : Text} {c d : Char} {s s' : List UInt8} {m n : Nat}

/-- The code points of the characters of a text. -/
def codePoints (t : Text) : List Nat := t.map Char.toNat

/-! ### Comparing lists of bytes -/

theorem byte_cons_lt_iff (hm : m < 256) (hn : n < 256) :
    UInt8.ofNat m :: s < UInt8.ofNat n :: s' ↔ m < n ∨ m = n ∧ s < s' := by
  rw [List.cons_lt_cons_iff, UInt8.lt_iff_toNat_lt, ← UInt8.toNat_inj, toNat_byte hm, toNat_byte hn]

theorem compare_of_lt (h : s < s') : compare s s' = .lt := by
  induction h with
  | nil => exact List.compare_nil_cons
  | rel h =>
    rw [List.compare_cons_cons, Std.compare_eq_lt.2 h]
    rfl
  | cons _ ih =>
    rw [List.compare_cons_cons, Std.ReflOrd.compare_self, ih]
    rfl

theorem compare_append_left (l s s' : List UInt8) : compare (l ++ s) (l ++ s') = compare s s' := by
  induction l with
  | nil => rfl
  | cons x l ih =>
    rw [List.cons_append, List.cons_append, List.compare_cons_cons, Std.ReflOrd.compare_self, ih]
    rfl

/-! ### Characters -/

/-- **The encoding keeps the order of characters**, whatever follows them. -/
theorem encodeChar_append_lt (h : c.toNat < d.toNat) (s s' : List UInt8) :
    String.utf8EncodeChar c ++ s < String.utf8EncodeChar d ++ s' := by
  have hmax := toNat_lt d
  have hc : c.val.toNat = c.toNat := rfl
  have hd : d.val.toNat = d.toNat := rfl
  -- every byte but the last one leaves the six bits of the next one to it
  have hc2 : c.toNat / 4096 = c.toNat / 64 / 64 := by omega
  have hd2 : d.toNat / 4096 = d.toNat / 64 / 64 := by omega
  have hc3 : c.toNat / 262144 = c.toNat / 64 / 64 / 64 := by omega
  have hd3 : d.toNat / 262144 = d.toNat / 64 / 64 / 64 := by omega
  rw [String.utf8EncodeChar, String.utf8EncodeChar, hc, hd, hc2, hd2, hc3, hd3]
  clear hc hd hc2 hd2 hc3 hd3
  -- one case for each number of bytes of `c` and of `d`: the first bytes decide if these are
  -- different, and the digits of the code points if they are not
  split_ifs <;> simp (disch := omega) only [List.cons_append, List.nil_append, byte_cons_lt_iff] <;>
    omega

theorem compare_encode_cons_of_lt (h : c.toNat < d.toNat) (a b : Text) :
    compare (encode (c :: a)) (encode (d :: b)) = .lt := by
  rw [encode_cons, encode_cons]
  exact compare_of_lt (encodeChar_append_lt h _ _)

theorem compare_encode_nil_cons (d : Char) (b : Text) :
    compare (encode []) (encode (d :: b)) = .lt := by
  have hne : encode (d :: b) ≠ [] := fun h => by
    have hlength := congrArg List.length h
    rw [length_encode, List.length_nil, byteLength_eq_zero_iff] at hlength
    exact List.cons_ne_nil d b hlength
  obtain ⟨x, l, hx⟩ := List.exists_cons_of_ne_nil hne
  rw [hx]
  exact List.compare_nil_cons

/-! ### Texts -/

/-- **Comparing the bytes of two texts is comparing their code points.** -/
theorem compare_encode (a b : Text) :
    compare (encode a) (encode b) = compare (codePoints a) (codePoints b) := by
  induction a generalizing b with
  | nil =>
    cases b with
    | nil => rfl
    | cons d b => exact (compare_encode_nil_cons d b).trans List.compare_nil_cons.symm
  | cons c a ih =>
    cases b with
    | nil =>
      exact (Std.OrientedCmp.gt_of_lt (compare_encode_nil_cons c a)).trans
        List.compare_cons_nil.symm
    | cons d b =>
      have hpoints : compare (codePoints (c :: a)) (codePoints (d :: b)) =
          (compare c.toNat d.toNat).then (compare (codePoints a) (codePoints b)) :=
        List.compare_cons_cons
      rw [hpoints]
      rcases Nat.lt_trichotomy c.toNat d.toNat with hlt | heq | hgt
      · rw [compare_encode_cons_of_lt hlt, Nat.compare_eq_lt.2 hlt]
        rfl
      · obtain rfl : c = d := Char.toNat_inj.1 heq
        rw [encode_cons, encode_cons, compare_append_left, ih, Nat.compare_eq_eq.2 rfl]
        rfl
      · rw [Std.OrientedCmp.gt_of_lt (compare_encode_cons_of_lt hgt b a), Nat.compare_eq_gt.2 hgt]
        rfl

theorem before_iff_compare : Before a b ↔ compare (encode a) (encode b) = .lt := by
  refine ⟨compare_of_lt, fun h => ?_⟩
  have hne : a ≠ b := by
    rintro rfl
    rw [Std.ReflOrd.compare_self] at h
    exact nomatch h
  refine (before_or_before hne).resolve_right fun hba => ?_
  rw [Std.OrientedCmp.gt_of_lt (compare_of_lt hba)] at h
  exact nomatch h

/-- **Sorted by bytes is sorted by code points.** -/
theorem before_iff_codePoints : Before a b ↔ compare (codePoints a) (codePoints b) = .lt := by
  rw [before_iff_compare, compare_encode]

end Text

end MinedRules
