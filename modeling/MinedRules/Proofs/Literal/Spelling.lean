import MinedRules.Proofs.Literal.Decoding

/-!
# Every spelling of a string is decoded

A character of a quoted string may stand for itself, or be written by one of several escapes
(`Literal.Spelling`).  Whether a spelling may be chosen depends on the quote and on what comes next
(`Spelling.Fits`).

* `Spelling.Fits.cases`, `exists_fits_of_escape` : apart from a character that stands for itself, the
  spellings are the escapes of the grammar.
* `unspelled_iff` : the reader refuses a backslash exactly if it begins no spelling.
* `read_spelled` : **whichever spelling is chosen for each character, the string is read back; and a
  text with a backslash that begins no spelling is refused.**
-/

namespace MinedRules

namespace Literal

/-- A way to write one character of a string. -/
inductive Spelling
  | raw
  /-- A backslash and a letter. -/
  | letter (l : Char)
  /-- A backslash, a letter and the code point in hexadecimal, with a digit for each element of
  `capitals`. -/
  | hex (l : Char) (capitals : List Bool)
  /-- A backslash and the code point in octal, with `width` digits. -/
  | octal (width : Nat)

namespace Spelling

/-- How the character is written. -/
def text (c : Char) : Spelling → Text
  | raw => [c]
  | letter l => ['\\', l]
  | hex l capitals => '\\' :: l :: Text.digitsIn 16 capitals c.toNat
  | octal width => '\\' :: Text.digitsIn 8 (List.replicate width false) c.toNat

/-- The character may be written in this way before `next`. -/
inductive Fits (quote : Char) (next : Option Char) (c : Char) : Spelling → Prop
  | raw : c ≠ quote → c ≠ '\\' → Fits quote next c raw
  | letter {l : Char} : (l, c) ∈ letters → Fits quote next c (letter l)
  | hex {l : Char} {capitals : List Bool} : (l, capitals.length) ∈ hexLengths →
      c.toNat < Nat.pow 16 capitals.length → Fits quote next c (hex l capitals)
  /-- One to three digits; less than three only if no other one follows. -/
  | octal {width : Nat} : 1 ≤ width → width ≤ 3 → c.toNat < Nat.pow 8 width →
      (width < 3 → ∀ d ∈ next, isDigitIn 8 d = false) → Fits quote next c (octal width)

instance {quote : Char} {next : Option Char} {c : Char} :
    (w : Spelling) → Decidable (w.Fits quote next c)
  | raw => decidable_of_iff (c ≠ quote ∧ c ≠ '\\')
      ⟨fun h => .raw h.1 h.2, fun | .raw hquote hslash => ⟨hquote, hslash⟩⟩
  | letter l => decidable_of_iff ((l, c) ∈ letters) ⟨.letter, fun | .letter hl => hl⟩
  | hex l capitals => decidable_of_iff
      ((l, capitals.length) ∈ hexLengths ∧ c.toNat < Nat.pow 16 capitals.length)
      ⟨fun h => .hex h.1 h.2, fun | .hex hl hc => ⟨hl, hc⟩⟩
  | octal width => decidable_of_iff
      (1 ≤ width ∧ width ≤ 3 ∧ c.toNat < Nat.pow 8 width ∧
        (width < 3 → next.all (!isDigitIn 8 ·) = true)) <| by
      simp only [Option.all_eq_true, Bool.not_eq_true']
      exact ⟨fun h => .octal h.1 h.2.1 h.2.2.1 h.2.2.2,
        fun | .octal hpos hwidth hc hnext => ⟨hpos, hwidth, hc, hnext⟩⟩

end Spelling

/-- The text of a string, with the spelling of every character. -/
def spelled (s : List (Char × Spelling)) : Text := s.flatMap fun p => p.2.text p.1

/-- Every character may be written as it is where it stands. -/
def AllFit (quote : Char) : List (Char × Spelling) → Prop
  | [] => True
  | (c, w) :: s => w.Fits quote (spelled s).head? c ∧ AllFit quote s

instance {quote : Char} : (s : List (Char × Spelling)) → Decidable (AllFit quote s)
  | [] => isTrue trivial
  | (c, w) :: s =>
    have : Decidable (AllFit quote s) := instDecidableAllFit s
    inferInstanceAs (Decidable (w.Fits quote (spelled s).head? c ∧ AllFit quote s))

theorem spelled_cons (c : Char) (w : Spelling) (s : List (Char × Spelling)) :
    spelled ((c, w) :: s) = w.text c ++ spelled s := List.flatMap_cons

/-! ### Escapes are spellings -/

variable {quote : Char}

theorem escape_hex {next : Option Char} {l c : Char} {capitals : List Bool}
    (hl : (l, capitals.length) ∈ hexLengths) (hc : c.toNat < Nat.pow 16 capitals.length) :
    Escape next (l :: Text.digitsIn 16 capitals c.toNat) c := by
  have hspells := Text.spells_digitsIn (by decide) (by decide) hc
  have h : Escape next (l :: Text.digitsIn 16 capitals c.toNat) (Char.ofNat c.toNat) :=
    .hex hl (Text.length_digitsIn ..) hspells c.valid
  rwa [Char.ofNat_toNat] at h

theorem escape_octal {next : Option Char} {width : Nat} {c : Char} (hpos : 1 ≤ width)
    (hwidth : width ≤ 3) (hc : c.toNat < Nat.pow 8 width)
    (hnext : width < 3 → ∀ d ∈ next, isDigitIn 8 d = false) :
    Escape next (Text.digitsIn 8 (List.replicate width false) c.toNat) c := by
  have hlength : (Text.digitsIn 8 (List.replicate width false) c.toNat).length = width := by
    rw [Text.length_digitsIn, List.length_replicate]
  have hne : Text.digitsIn 8 (List.replicate width false) c.toNat ≠ [] :=
    List.ne_nil_of_length_pos (by omega)
  have hspells : Text.Spells 8 (Text.digitsIn 8 (List.replicate width false) c.toNat) c.toNat :=
    Text.spells_digitsIn (by decide) (by decide) (by rwa [List.length_replicate])
  have hstop : (Text.digitsIn 8 (List.replicate width false) c.toNat).length < 3 →
      ∀ d ∈ next, ¬ IsDigit 8 d :=
    fun hlt => Quotation.forall_not_isDigit_iff.2 (hnext (by rwa [hlength] at hlt))
  have h := Escape.octal hne (by omega) hspells hstop
  rwa [Char.ofNat_toNat] at h

theorem Spelling.Fits.cases {next : Option Char} {c : Char} {w : Spelling}
    (h : w.Fits quote next c) :
    (w.text c = [c] ∧ c ≠ quote ∧ c ≠ '\\') ∨ ∃ e, w.text c = '\\' :: e ∧ Escape next e c := by
  cases h with
  | raw hquote hslash => exact .inl ⟨rfl, hquote, hslash⟩
  | letter hl => exact .inr ⟨_, rfl, .letter hl⟩
  | hex hl hc => exact .inr ⟨_, rfl, escape_hex hl hc⟩
  | octal hpos hwidth hc hnext => exact .inr ⟨_, rfl, escape_octal hpos hwidth hc hnext⟩

/-- **Every escape of the grammar is a spelling** of its character. -/
theorem exists_fits_of_escape (quote : Char) {next : Option Char} {e : Text} {c : Char}
    (h : Escape next e c) : ∃ w : Spelling, w.text c = '\\' :: e ∧ w.Fits quote next c := by
  cases h with
  | letter hl => exact ⟨.letter _, rfl, .letter hl⟩
  | @hex l n digits point hl hn hspells hvalid =>
    obtain ⟨hdigits, rfl⟩ := (Text.spells_iff (by decide)).1 hspells
    obtain ⟨capitals, hcapitals, hwritten⟩ := Text.exists_digitsIn (by decide) hdigits
    have hvalue := toNat_ofNat hvalid
    refine ⟨.hex l capitals, ?_, .hex (by rwa [hcapitals, hn]) ?_⟩
    · rw [Spelling.text, hvalue, ← hwritten]
    · rw [hvalue, hcapitals]
      exact Text.valueIn_lt (by decide) digits
  | octal hne hlength hspells hstop =>
    obtain ⟨hdigits, rfl⟩ := (Text.spells_iff (by decide)).1 hspells
    have hnext := fun hlt => Quotation.forall_not_isDigit_iff.1 (hstop hlt)
    have hvalue := toNat_ofNat (Quotation.isValidChar_of_octal hlength)
    obtain ⟨capitals, hcapitals, hwritten⟩ := Text.exists_digitsIn (by decide) hdigits
    refine ⟨.octal e.length, ?_, .octal (List.length_pos_iff.2 hne) hlength ?_ hnext⟩
    · rw [Spelling.text, hvalue, ← hcapitals, Text.digitsIn_replicate (by decide) (by decide),
        ← hwritten]
    · rw [hvalue]
      exact Text.valueIn_lt (by decide) e

/-! ### Spelled strings -/

/-- A backslash before the text begins no spelling. -/
def Unspelled (quote : Char) (t : Text) : Prop :=
  ∀ c (w : Spelling) rest, '\\' :: t = w.text c ++ rest → ¬ w.Fits quote rest.head? c

theorem unspelled_iff {t : Text} : Unspelled quote t ↔ Quotation.escape? t = none := by
  constructor
  · intro h
    cases hescape : Quotation.escape? t with
    | none => rfl
    | some p =>
      obtain ⟨e, rest, rfl, -, he⟩ := Quotation.escape?_sound hescape
      obtain ⟨w, hw, hfits⟩ := exists_fits_of_escape quote he
      exact absurd hfits (h _ w rest (by rw [hw]; rfl))
  · intro h c w rest ht hfits
    obtain ⟨hw, -, hslash⟩ | ⟨e, hw, he⟩ := hfits.cases
    · rw [hw] at ht
      exact hslash (List.cons.inj ht).1.symm
    · rw [hw, List.cons_append] at ht
      obtain ⟨-, rfl⟩ := List.cons.inj ht
      rw [Quotation.escape?_complete he] at h
      simp at h

instance {t : Text} : Decidable (Unspelled quote t) := decidable_of_iff _ unspelled_iff.symm

theorem body_spelled {s : List (Char × Spelling)} (h : AllFit quote s) :
    Body quote (spelled s) (s.map Prod.fst) := by
  induction s with
  | nil => exact .nil
  | cons p s ih =>
    obtain ⟨c, w⟩ := p
    obtain ⟨hfits, h⟩ := h
    rw [spelled_cons]
    obtain ⟨hw, hquote, hslash⟩ | ⟨e, hw, he⟩ := hfits.cases
    · rw [hw]
      exact .raw hquote hslash (ih h)
    · rw [hw]
      exact .escape he (ih h)

/-- The reader does not get past a backslash that begins no spelling.  The closing quote may make an
escape of it, but then no quote is left. -/
theorem readFrom?_of_unspelled (hquote : quote = '\'' ∨ quote = '"') {t : Text}
    (h : Unspelled quote t) : Quotation.readFrom? quote 0 ('\\' :: (t ++ [quote])) = none := by
  have hslash : '\\' ≠ quote := by rcases hquote with rfl | rfl <;> decide
  rw [Quotation.readFrom?, if_neg hslash, if_pos rfl]
  split
  · next c n hescape =>
    obtain ⟨e, rest, ht, rfl, he⟩ := Quotation.escape?_sound hescape
    rw [Quotation.readFrom?_drop, ht, List.drop_left]
    rcases List.eq_nil_or_concat rest with rfl | ⟨rest, d, rfl⟩
    · rfl
    · rw [List.concat_eq_append] at ht he
      rw [← List.append_assoc] at ht
      obtain ⟨w, hw, hfits⟩ := exists_fits_of_escape quote (Quotation.escape_head? he)
      exact absurd hfits (h c w rest (by rw [hw, (List.append_inj' ht rfl).1]; rfl))
  · rfl

theorem read_eq_error_of_quote (hquote : quote = '\'' ∨ quote = '"') {t : Text}
    (h : Quotation.read? quote t = none) : read (quote :: t) = .error ⟨0, quote :: t⟩ := by
  have hskip : Text.skipBlanks (quote :: t) = quote :: t := by
    refine skipBlanks_eq_self ?_
    rintro d ⟨⟩
    rcases hquote with rfl | rfl <;> decide
  rw [read]
  simp only [hskip, value?_quote hquote, h, Option.map_none, errorAt, Nat.sub_self]

/-- **Quoted strings decode every spelling of every string**, and refuse a backslash that begins no
spelling. -/
theorem read_spelled (hquote : quote = '\'' ∨ quote = '"') {s : List (Char × Spelling)}
    (h : AllFit quote s) :
    read (quote :: (spelled s ++ [quote])) = .ok (.string (s.map Prod.fst)) ∧
      ∀ t, Unspelled quote t → read (quote :: (spelled s ++ '\\' :: (t ++ [quote]))) =
        .error ⟨0, quote :: (spelled s ++ '\\' :: (t ++ [quote]))⟩ := by
  have hbody := body_spelled h
  constructor
  · have hcore : Core (quote :: (spelled s ++ [quote])) (.string (s.map Prod.fst)) :=
      .string hquote hbody
    simpa using read_complete (a := []) (b := []) (by simp [Blanks]) hcore (by simp [Blanks])
  · intro t ht
    refine read_eq_error_of_quote hquote ?_
    rw [Quotation.read?, Quotation.readFrom?_body hbody hquote (by rintro d ⟨⟩; decide),
      readFrom?_of_unspelled hquote ht, Option.map_none]

/-- Several kinds of spellings in one string, a short octal one before a digit that is not octal; and a
surrogate, which no spelling gives. -/
theorem read_spelled_mixed :
    read ['"', '\\', 'x', 'E', '9', '\\', 'u', '4', 'e', '2', 'D', '\\', 'n', '\'', '\\', '1', '9',
        '"'] = .ok (.string ['é', '中', '\n', '\'', '\x01', '9']) ∧
      read ['"', '\'', '\\', 'u', 'D', '8', '0', '0', '"'] =
        .error ⟨0, ['"', '\'', '\\', 'u', 'D', '8', '0', '0', '"']⟩ :=
  ⟨(read_spelled (.inr rfl) (s := [('é', .hex 'x' [true, false]),
      ('中', .hex 'u' [false, false, false, true]), ('\n', .letter 'n'), ('\'', .raw),
      ('\x01', .octal 1), ('9', .raw)]) (by decide)).1,
    (read_spelled (.inr rfl) (s := [('\'', .raw)]) (by decide)).2 ['u', 'D', '8', '0', '0']
      (by decide)⟩

end Literal

end MinedRules
