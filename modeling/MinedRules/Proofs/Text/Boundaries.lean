import MinedRules.Proofs.Text.Encoding

/-!
# Where characters begin

A text can be cut at a byte offset if a character begins there or the text ends there.  This can be
told from the byte at the offset alone: every byte of a character but the first one is a continuation
byte (`Text.isBoundary`).

* `Text.isBoundary_iff` : the byte tells whether a prefix of the text ends at the offset.
* `Text.cutAtByte?_eq_some_iff` : what cutting gives.
-/

namespace MinedRules

namespace Text

variable {t a b : Text} {c : Char} {x : UInt8} {i n : Nat}

/-- Does a character begin at the byte offset, or the text end there? -/
def isBoundary (t : Text) (n : Nat) : Bool :=
  match (encode t)[n]? with
  | some x => (continuation? x).isNone
  | none => n == byteLength t

/-! ### Bytes -/

theorem getElem?_encode_cons (c : Char) (t : Text) (n : Nat) :
    (encode (c :: t))[n]? =
      if n < c.utf8Size then (String.utf8EncodeChar c)[n]? else (encode t)[n - c.utf8Size]? := by
  rw [encode_cons, List.getElem?_append, String.length_utf8EncodeChar]

theorem continuation?_of_first (h : n < 0x80 ∨ 0xC0 ≤ n ∧ n < 256) :
    continuation? (UInt8.ofNat n) = none := by
  rw [continuation?, if_neg]
  rw [UInt8.le_iff_toNat_le, UInt8.lt_iff_toNat_lt, toNat_byte (by omega)]
  show ¬ (0x80 ≤ n ∧ n < 0xC0)
  omega

/-- The first byte of a character is no continuation byte, and all others are. -/
theorem exists_first_byte (c : Char) : ∃ first later, String.utf8EncodeChar c = first :: later ∧
    continuation? first = none ∧ ∀ x ∈ later, ∃ m, continuation? x = some m := by
  have hmax := toNat_lt c
  have hv : c.val.toNat = c.toNat := rfl
  have hlater : ∀ m, ∃ k, continuation? (UInt8.ofNat (m % 0x40 + 0x80)) = some k :=
    fun m => ⟨_, continuation?_byte m⟩
  rw [String.utf8EncodeChar, hv]
  -- one case for each number of bytes
  split
  · exact ⟨_, [], rfl, continuation?_of_first (by omega), List.forall_mem_nil _⟩
  split
  · exact ⟨_, [_], rfl, continuation?_of_first (by omega), List.forall_mem_singleton.2 (hlater _)⟩
  split
  · exact ⟨_, [_, _], rfl, continuation?_of_first (by omega),
      List.forall_mem_cons.2 ⟨hlater _, List.forall_mem_singleton.2 (hlater _)⟩⟩
  · exact ⟨_, [_, _, _], rfl, continuation?_of_first (by omega), List.forall_mem_cons.2
      ⟨hlater _, List.forall_mem_cons.2 ⟨hlater _, List.forall_mem_singleton.2 (hlater _)⟩⟩⟩

theorem isNone_continuation?_iff (h : (String.utf8EncodeChar c)[i]? = some x) :
    (continuation? x).isNone = true ↔ i = 0 := by
  obtain ⟨first, later, hbytes, hfirst, hlater⟩ := exists_first_byte c
  rw [hbytes] at h
  cases i with
  | zero =>
    obtain rfl := Option.some.inj h
    simp [hfirst]
  | succ i =>
    rw [List.getElem?_cons_succ] at h
    obtain ⟨m, hm⟩ := hlater x (List.mem_of_getElem? h)
    simp [hm]

/-! ### Boundaries -/

theorem isBoundary_cons (c : Char) (t : Text) (n : Nat) :
    isBoundary (c :: t) n = if n < c.utf8Size then n == 0 else isBoundary t (n - c.utf8Size) := by
  rw [isBoundary, getElem?_encode_cons, isBoundary, byteLength_cons]
  by_cases hn : n < c.utf8Size
  · rw [if_pos hn, if_pos hn]
    obtain ⟨x, hx⟩ : ∃ x, (String.utf8EncodeChar c)[n]? = some x :=
      ⟨_, List.getElem?_eq_getElem (by rwa [String.length_utf8EncodeChar])⟩
    simp only [hx]
    rw [Bool.eq_iff_iff, isNone_continuation?_iff hx, beq_iff_eq]
  · rw [if_neg hn, if_neg hn]
    split
    · rfl
    · rw [Bool.eq_iff_iff, beq_iff_eq, beq_iff_eq]
      omega

theorem exists_prefix_cons_iff : (∃ a b, c :: t = a ++ b ∧ n = byteLength a) ↔
    n = 0 ∨ ∃ a b, t = a ++ b ∧ n = c.utf8Size + byteLength a := by
  constructor
  · rintro ⟨a, b, hab, rfl⟩
    cases a with
    | nil => exact .inl rfl
    | cons d a =>
      obtain ⟨rfl, rfl⟩ := List.cons.inj hab
      exact .inr ⟨a, b, rfl, rfl⟩
  · rintro (rfl | ⟨a, b, rfl, rfl⟩)
    · exact ⟨[], c :: t, rfl, rfl⟩
    · exact ⟨c :: a, b, rfl, rfl⟩

/-- **A character begins at an offset if and only if what stands before is a prefix of the text.** -/
theorem isBoundary_iff : isBoundary t n = true ↔ ∃ a b, t = a ++ b ∧ n = byteLength a := by
  induction t generalizing n with
  | nil =>
    have hnil : isBoundary [] n = (n == 0) := rfl
    rw [hnil, beq_iff_eq]
    constructor
    · rintro rfl
      exact ⟨[], [], rfl, rfl⟩
    · rintro ⟨a, b, hab, rfl⟩
      rw [(List.append_eq_nil_iff.1 hab.symm).1]
      rfl
  | cons c t ih =>
    have hc := c.utf8Size_pos
    rw [isBoundary_cons, exists_prefix_cons_iff]
    split
    · next hn =>
      rw [beq_iff_eq]
      refine ⟨.inl, ?_⟩
      rintro (rfl | ⟨a, b, -, rfl⟩)
      · rfl
      · omega
    · next hn =>
      rw [ih]
      constructor
      · rintro ⟨a, b, hab, hlength⟩
        exact .inr ⟨a, b, hab, by omega⟩
      · rintro (rfl | ⟨a, b, hab, rfl⟩)
        · exact absurd hc hn
        · exact ⟨a, b, hab, by omega⟩

theorem isBoundary_byteLength (a b : Text) : isBoundary (a ++ b) (byteLength a) = true :=
  isBoundary_iff.2 ⟨a, b, rfl, rfl⟩

theorem le_of_isBoundary (h : isBoundary t n = true) : n ≤ byteLength t := by
  obtain ⟨a, b, rfl, rfl⟩ := isBoundary_iff.1 h
  rw [byteLength_append]
  exact Nat.le_add_right _ _

/-! ### Cutting -/

theorem cutAtByte?_eq_some_iff : cutAtByte? n t = some (a, b) ↔ t = a ++ b ∧ n = byteLength a := by
  constructor
  · intro h
    induction t generalizing n a with
    | nil =>
      cases n with
      | zero =>
        obtain ⟨rfl, rfl⟩ := Prod.mk.inj (Option.some.inj h)
        exact ⟨rfl, rfl⟩
      | succ n => simp [cutAtByte?] at h
    | cons c t ih =>
      cases n with
      | zero =>
        obtain ⟨rfl, rfl⟩ := Prod.mk.inj (Option.some.inj h)
        exact ⟨rfl, rfl⟩
      | succ n =>
        rw [cutAtByte?] at h
        split at h
        · obtain ⟨⟨a', b'⟩, hcut, heq⟩ := Option.map_eq_some_iff.1 h
          obtain ⟨rfl, rfl⟩ := Prod.mk.inj heq
          obtain ⟨rfl, hlength⟩ := ih hcut
          exact ⟨rfl, by rw [byteLength_cons]; omega⟩
        · simp at h
  · rintro ⟨rfl, rfl⟩
    exact cutAtByte?_byteLength a b

end Text

end MinedRules
