/-!
# Texts and their bytes

A `Text` is a list of Unicode scalar values.  Positions and lengths that the library reports are
measured in bytes of the UTF-8 encoding (`Text.encode`, `Text.byteLength`), and a text can be cut
at a byte offset only where a character begins (`Text.cutAtByte?`).

* `Text.length_encode` : the byte length is the length of the encoding.
* `Text.cutAtByte?_byteLength` : every prefix of a text ends at a place where the text can be cut.
-/

namespace MinedRules

/-- A text is a list of characters. -/
abbrev Text := List Char

namespace Text

/-- The UTF-8 encoding of a text. -/
def encode (t : Text) : List UInt8 := t.flatMap String.utf8EncodeChar

/-- The number of bytes of the UTF-8 encoding. -/
def byteLength : Text → Nat
  | [] => 0
  | c :: t => c.utf8Size + byteLength t

/-- The parts of a text before and from byte offset `n`, if a character begins there (or the text
ends there). -/
def cutAtByte? : Nat → Text → Option (Text × Text)
  | 0, t => some ([], t)
  | _ + 1, [] => none
  | n + 1, c :: t =>
    if c.utf8Size ≤ n + 1 then
      (cutAtByte? (n + 1 - c.utf8Size) t).map fun (front, back) => (c :: front, back)
    else none

/-- Order of texts by the bytes of their encodings. -/
def Before (a b : Text) : Prop := List.Lex (· < ·) (encode a) (encode b)

instance : DecidableRel Before := fun a b => List.decidableLex (· < ·) (encode a) (encode b)

/-! ### Lemmas -/

@[simp] theorem encode_nil : encode [] = [] := rfl

@[simp] theorem encode_cons (c : Char) (t : Text) :
    encode (c :: t) = String.utf8EncodeChar c ++ encode t := rfl

@[simp] theorem byteLength_nil : byteLength [] = 0 := rfl

@[simp] theorem byteLength_cons (c : Char) (t : Text) :
    byteLength (c :: t) = c.utf8Size + byteLength t := rfl

@[simp] theorem byteLength_append (a b : Text) :
    byteLength (a ++ b) = byteLength a + byteLength b := by
  induction a with
  | nil => simp
  | cons c a ih => simp [ih, Nat.add_assoc]

theorem byteLength_eq_zero_iff {t : Text} : byteLength t = 0 ↔ t = [] := by
  cases t with
  | nil => simp
  | cons c t => simp [Nat.ne_of_gt c.utf8Size_pos]

theorem length_encode (t : Text) : (encode t).length = byteLength t := by
  induction t with
  | nil => rfl
  | cons c t ih => simp [ih, String.length_utf8EncodeChar]

@[simp] theorem cutAtByte?_zero (t : Text) : cutAtByte? 0 t = some ([], t) := by
  cases t <;> rfl

theorem cutAtByte?_byteLength (a b : Text) : cutAtByte? (byteLength a) (a ++ b) = some (a, b) := by
  induction a with
  | nil => simp
  | cons c a ih =>
    have hc := c.utf8Size_pos
    obtain ⟨n, hn⟩ : ∃ n, c.utf8Size + byteLength a = n + 1 :=
      ⟨c.utf8Size + byteLength a - 1, by omega⟩
    simp only [byteLength_cons, List.cons_append, hn, cutAtByte?]
    rw [if_pos (by omega), show n + 1 - c.utf8Size = byteLength a by omega, ih]
    rfl

end Text

theorem toNat_ofNat {n : Nat} (h : n.isValidChar) : (Char.ofNat n).toNat = n := by
  rw [Char.ofNat, dif_pos h]
  rfl

end MinedRules
