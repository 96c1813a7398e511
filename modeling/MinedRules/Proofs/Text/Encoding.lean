import MinedRules.Text.Decode

/-!
# Texts are read back from their bytes

The UTF-8 encoding of a text decodes to this text (`Text.decode?_encode`), so different texts have
different encodings.
-/

namespace MinedRules

namespace Text

variable {a b d e : UInt8} {s : List UInt8} {c : Char} {x y z n : Nat}

/-! ### Bytes -/

theorem toNat_byte (h : n < 256) : (UInt8.ofNat n).toNat = n := UInt8.toNat_ofNat_of_lt' h

theorem continuation?_byte (n : Nat) :
    continuation? (UInt8.ofNat (n % 0x40 + 0x80)) = some (n % 0x40) := by
  have hn : n % 0x40 < 0x40 := Nat.mod_lt n (by decide)
  have hbyte : n % 0x40 + 0x80 < 256 := by omega
  rw [continuation?, if_pos, toNat_byte hbyte, Nat.add_sub_cancel]
  rw [UInt8.le_iff_toNat_le, UInt8.lt_iff_toNat_lt, toNat_byte hbyte]
  show 0x80 ≤ n % 0x40 + 0x80 ∧ n % 0x40 + 0x80 < 0xC0
  omega

theorem lt_of_toNat (h : a.toNat < b.toNat) : a < b := UInt8.lt_iff_toNat_lt.2 h

theorem not_lt_of_toNat (h : b.toNat ≤ a.toNat) : ¬ a < b :=
  fun hlt => absurd (UInt8.lt_iff_toNat_lt.1 hlt) (Nat.not_lt.2 h)

/-! ### Characters of one, two, three and four bytes -/

theorem bind_cons (c : Char) (o : Option Text) : (do let t ← o; return c :: t) = o.map (c :: ·) := by
  cases o <;> rfl

theorem decode?_one (ha : a.toNat < 0x80) :
    decode? (a :: s) = (decode? s).map (Char.ofNat a.toNat :: ·) := by
  have h80 : a < 0x80 := lt_of_toNat ha
  rw [decode?.eq_def]
  simp only
  rw [if_pos h80]

theorem decode?_two (hlow : 0xC0 ≤ a.toNat) (hhigh : a.toNat < 0xE0) (hb : continuation? b = some x)
    (hc : scalar? 0x80 ((a.toNat - 0xC0) * 0x40 + x) = some c) :
    decode? (a :: b :: s) = (decode? s).map (c :: ·) := by
  have h80 : ¬ a < 0x80 := not_lt_of_toNat (Nat.le_trans (by decide) hlow)
  have hC0 : ¬ a < 0xC0 := not_lt_of_toNat hlow
  have hE0 : a < 0xE0 := lt_of_toNat hhigh
  rw [decode?.eq_def]
  simp only
  rw [if_neg h80, if_neg hC0, if_pos hE0, hb]
  simp only [Option.bind_eq_bind, Option.bind_some, hc]
  exact bind_cons c _

theorem decode?_three (hlow : 0xE0 ≤ a.toNat) (hhigh : a.toNat < 0xF0)
    (hb : continuation? b = some x) (hd : continuation? d = some y)
    (hc : scalar? 0x800 (((a.toNat - 0xE0) * 0x40 + x) * 0x40 + y) = some c) :
    decode? (a :: b :: d :: s) = (decode? s).map (c :: ·) := by
  have h80 : ¬ a < 0x80 := not_lt_of_toNat (Nat.le_trans (by decide) hlow)
  have hC0 : ¬ a < 0xC0 := not_lt_of_toNat (Nat.le_trans (by decide) hlow)
  have hE0 : ¬ a < 0xE0 := not_lt_of_toNat hlow
  have hF0 : a < 0xF0 := lt_of_toNat hhigh
  rw [decode?.eq_def]
  simp only
  rw [if_neg h80, if_neg hC0, if_neg hE0, if_pos hF0, hb, hd]
  simp only [Option.bind_eq_bind, Option.bind_some, hc]
  exact bind_cons c _

theorem decode?_four (hlow : 0xF0 ≤ a.toNat) (hb : continuation? b = some x)
    (hd : continuation? d = some y) (he : continuation? e = some z)
    (hc : scalar? 0x10000 ((((a.toNat - 0xF0) * 0x40 + x) * 0x40 + y) * 0x40 + z) = some c) :
    decode? (a :: b :: d :: e :: s) = (decode? s).map (c :: ·) := by
  have h80 : ¬ a < 0x80 := not_lt_of_toNat (Nat.le_trans (by decide) hlow)
  have hC0 : ¬ a < 0xC0 := not_lt_of_toNat (Nat.le_trans (by decide) hlow)
  have hE0 : ¬ a < 0xE0 := not_lt_of_toNat (Nat.le_trans (by decide) hlow)
  have hF0 : ¬ a < 0xF0 := not_lt_of_toNat hlow
  rw [decode?.eq_def]
  simp only
  rw [if_neg h80, if_neg hC0, if_neg hE0, if_neg hF0, hb, hd, he]
  simp only [Option.bind_eq_bind, Option.bind_some, hc]
  exact bind_cons c _

/-- A byte below 0x80 is no part of a longer encoding. -/
theorem toNat_of_mem_utf8EncodeChar (h : a ∈ String.utf8EncodeChar c) (ha : a.toNat < 0x80) :
    c.toNat = a.toNat := by
  have hv : c.val.toNat = c.toNat := rfl
  rw [String.utf8EncodeChar, hv] at h
  have hlow : ∀ {m}, a = UInt8.ofNat m → m < 256 → m < 0x80 := by
    rintro m rfl hm
    rwa [toNat_byte hm] at ha
  -- the first byte of a longer encoding is 0xC0 at least, and the others are 0x80 at least
  split at h
  · next hc =>
    obtain rfl := List.mem_singleton.1 h
    exact (toNat_byte (by omega)).symm
  · exfalso
    split at h
    · simp only [List.mem_cons, List.not_mem_nil, or_false] at h
      rcases h with h | h <;> have hbyte := hlow h <;> omega
    · split at h
      · simp only [List.mem_cons, List.not_mem_nil, or_false] at h
        rcases h with h | h | h <;> have hbyte := hlow h <;> omega
      · simp only [List.mem_cons, List.not_mem_nil, or_false] at h
        rcases h with h | h | h | h <;> have hbyte := hlow h <;> omega

/-! ### Texts -/

theorem toNat_lt (c : Char) : c.toNat < 0x110000 := by
  have hvalid : c.toNat.isValidChar := c.valid
  rw [Nat.isValidChar] at hvalid
  omega

theorem scalar?_of_eq {least : Nat} (hn : n = c.toNat) (h : least ≤ c.toNat) :
    scalar? least n = some c := by
  rw [hn, scalar?, if_pos ⟨h, c.valid⟩, Char.ofNat_toNat]

/-- **A character is read back from its bytes.**  In each case the payloads of the bytes add up to the
code point. -/
theorem decode?_encodeChar_append (c : Char) (s : List UInt8) :
    decode? (String.utf8EncodeChar c ++ s) = (decode? s).map (c :: ·) := by
  have hmax := toNat_lt c
  have hv : c.val.toNat = c.toNat := rfl
  rw [String.utf8EncodeChar, hv]
  -- one case for each number of bytes, which the bounds of the code point decide
  split
  · next h =>
    have hlead := toNat_byte (n := c.toNat) (by omega)
    rw [List.singleton_append, decode?_one (by omega), hlead, Char.ofNat_toNat]
  · next h =>
    split
    · next h' =>
      have hlead := toNat_byte (n := c.toNat / 64 % 0x20 + 0xc0) (by omega)
      exact decode?_two (by omega) (by omega) (continuation?_byte _)
        (scalar?_of_eq (by omega) (by omega))
    · next h' =>
      split
      · next h'' =>
        have hlead := toNat_byte (n := c.toNat / 4096 % 0x10 + 0xe0) (by omega)
        exact decode?_three (by omega) (by omega) (continuation?_byte _) (continuation?_byte _)
          (scalar?_of_eq (by omega) (by omega))
      · next h'' =>
        have hlead := toNat_byte (n := c.toNat / 262144 % 0x08 + 0xf0) (by omega)
        exact decode?_four (by omega) (continuation?_byte _) (continuation?_byte _)
          (continuation?_byte _) (scalar?_of_eq (by omega) (by omega))

/-- **A text is read back from its bytes.** -/
theorem decode?_encode (t : Text) : decode? (encode t) = some t := by
  induction t with
  | nil => rfl
  | cons c t ih => rw [encode_cons, decode?_encodeChar_append, ih, Option.map_some]

end Text

end MinedRules
