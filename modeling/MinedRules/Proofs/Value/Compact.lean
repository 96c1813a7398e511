import MinedRules.Proofs.Text.Digits
import MinedRules.Value.Render
import Mathlib.Data.List.Forall2

/-!
# The compact JSON of a value

What JSON looks like without blanks, as a relation between values and texts (`Value.Compact`): an
integer in decimal notation, a string with its escapes, and containers with commas between their
items.  Only the digits of floating-point numbers are those that `Binary64.render` chooses.

* `Value.isWhole_iff` : decimal notation without leading zeros is unique.
* `Value.compact_iff` : every value has one compact JSON, which is what `Value.render` writes.
-/

namespace MinedRules

namespace Value

/-! ### The notation -/

/-- Decimal digits with no zero before them. -/
structure IsWhole (digits : Text) : Prop where
  ne_nil : digits ≠ []
  digit : ∀ c ∈ digits, IsDigit 10 c
  leading : digits.head? = some '0' → digits = ['0']

/-- The decimal notation of an integer, which has a sign if it is negative. -/
inductive IntegerText : Int → Text → Prop
  | whole {digits : Text} {n : Nat} : IsWhole digits → Text.Spells 10 digits n →
      IntegerText n digits
  | negative {digits : Text} {n : Nat} : IsWhole digits → Text.Spells 10 digits n → n ≠ 0 →
      IntegerText (-(n : Int)) ('-' :: digits)

/-- The characters that a letter stands for behind a backslash, each with its letter. -/
def escapeLetters : List (Char × Char) :=
  [('"', '"'), ('\\', '\\'), ('\x08', 'b'), ('\x0c', 'f'), ('\n', 'n'), ('\r', 'r'), ('\t', 't')]

/-- The spelling of a character in a string: a letter if it has one, four hexadecimal digits for the
other control characters, and else the character itself. -/
inductive CharText : Char → Text → Prop
  | letter {c d : Char} : (c, d) ∈ escapeLetters → CharText c ['\\', d]
  | control {c : Char} : (∀ d, (c, d) ∉ escapeLetters) → c.toNat < 0x20 →
      CharText c ('\\' :: 'u' :: Text.digitsIn 16 (List.replicate 4 false) c.toNat)
  | raw {c : Char} : (∀ d, (c, d) ∉ escapeLetters) → 0x20 ≤ c.toNat → CharText c [c]

/-- A string between quotes. -/
inductive StringText : Text → Text → Prop
  | quoted {t : Text} {spelled : List Text} : List.Forall₂ CharText t spelled →
      StringText t ('"' :: (spelled.flatten ++ ['"']))

/-- A key, a colon and a value. -/
inductive FieldText (R : Value → Text → Prop) : Text × Value → Text → Prop
  | intro {key k t : Text} {v : Value} : StringText key k → R v t →
      FieldText R (key, v) (k ++ ':' :: t)

/-- A value and its compact JSON. -/
inductive Compact : Value → Text → Prop
  | null : Compact .null ['n', 'u', 'l', 'l']
  | true : Compact (.bool Bool.true) ['t', 'r', 'u', 'e']
  | false : Compact (.bool Bool.false) ['f', 'a', 'l', 's', 'e']
  | int {i : Int} {t : Text} : IntegerText i t → Compact (.int i) t
  | float {x : Binary64} : Compact (.float x) x.render
  | string {s t : Text} : StringText s t → Compact (.string s) t
  | array {items : List Value} {texts : List Text} : List.Forall₂ Compact items texts →
      Compact (.array items) ('[' :: List.intercalate [','] texts ++ [']'])
  | object {entries : List (Text × Value)} {texts : List Text} :
      List.Forall₂ (FieldText Compact) entries texts →
      Compact (.object entries) ('\x7b' :: List.intercalate [','] texts ++ ['\x7d'])

/-! ### Integers -/

theorem digitChar_eq : ∀ d < 10, ∀ capital, digitChar capital d = Nat.digitChar d := by
  decide

theorem spells_concat {digits : Text} {n d : Nat} (h : Text.Spells 10 digits n) (hd : d < 10) :
    Text.Spells 10 (digits ++ [Nat.digitChar d]) (10 * n + d) := by
  rw [← digitChar_eq d hd false]
  exact .concat h hd

theorem spells_toDigits (n : Nat) : Text.Spells 10 (Nat.toDigits 10 n) n := by
  induction n using Nat.strongRecOn with
  | ind n ih =>
    by_cases hn : n < 10
    · have h := spells_concat .nil hn
      rw [Nat.mul_zero, Nat.zero_add] at h
      rwa [Nat.toDigits_of_lt_base hn]
    · have h := spells_concat (ih (n / 10) (by omega)) (Nat.mod_lt n (by decide))
      rw [Nat.div_add_mod] at h
      rwa [Nat.toDigits_of_base_le (by decide) (by omega)]

theorem IsWhole.eq_toDigits {digits : Text} {n : Nat} (h : IsWhole digits)
    (hn : Text.Spells 10 digits n) : digits = Nat.toDigits 10 n := by
  induction hn with
  | nil => exact absurd rfl h.ne_nil
  | @concat digits n d capital hn hd ih =>
    rw [digitChar_eq d hd]
    by_cases hnil : digits = []
    · subst hnil
      have hvalue : 0 = n := ((Text.spells_iff (by decide)).1 hn).2
      rw [← hvalue, Nat.mul_zero, Nat.zero_add, Nat.toDigits_of_lt_base hd]
      rfl
    · -- a zero at the start would be the only digit
      have hzero : digits.head? ≠ some '0' := by
        intro hhead
        have hall := h.leading (by rw [List.head?_append_of_ne_nil _ hnil, hhead])
        have hlength := congrArg List.length hall
        rw [List.length_append] at hlength
        exact hnil (List.length_eq_zero_iff.1 (by simpa using hlength))
      have hdigits := ih ⟨hnil, fun e he => h.digit e (List.mem_append_left _ he),
        fun hhead => absurd hhead hzero⟩
      have hpos : 0 < n := by
        refine Nat.pos_of_ne_zero fun hvalue => hzero ?_
        rw [hdigits, hvalue]
        rfl
      nth_rewrite 1 [hdigits]
      rw [← Nat.toDigits_append_toDigits (by decide) hpos hd, Nat.toDigits_of_lt_base hd]

theorem isDigit_digitChar {d : Nat} (hd : d < 10) : IsDigit 10 (Nat.digitChar d) :=
  ⟨d, hd, false, (digitChar_eq d hd false).symm⟩

theorem IsWhole.concat {digits : Text} {d : Nat} (h : IsWhole digits) (hzero : digits ≠ ['0'])
    (hd : d < 10) : IsWhole (digits ++ [Nat.digitChar d]) where
  ne_nil := by simp
  digit c hc := by
    rcases List.mem_append.1 hc with hc | hc
    · exact h.digit c hc
    · rw [List.mem_singleton.1 hc]
      exact isDigit_digitChar hd
  leading hhead := by
    rw [List.head?_append_of_ne_nil _ h.ne_nil] at hhead
    exact absurd (h.leading hhead) hzero

theorem isWhole_toDigits (n : Nat) : IsWhole (Nat.toDigits 10 n) := by
  induction n using Nat.strongRecOn with
  | ind n ih =>
    by_cases hn : n < 10
    · rw [Nat.toDigits_of_lt_base hn]
      refine ⟨List.cons_ne_nil _ _, List.forall_mem_singleton.2 (isDigit_digitChar hn), ?_⟩
      intro hhead
      rw [Option.some.inj hhead]
    · rw [Nat.toDigits_of_base_le (by decide) (by omega)]
      refine (ih _ (by omega)).concat (fun hzero => ?_) (by omega)
      have hspells := spells_toDigits (n / 10)
      rw [hzero] at hspells
      have hvalue : 0 = n / 10 := ((Text.spells_iff (by decide)).1 hspells).2
      omega

/-- **Decimal notation without leading zeros is unique.** -/
theorem isWhole_iff {digits : Text} {n : Nat} :
    IsWhole digits ∧ Text.Spells 10 digits n ↔ digits = Nat.toDigits 10 n := by
  constructor
  · rintro ⟨h, hn⟩
    exact h.eq_toDigits hn
  · rintro rfl
    exact ⟨isWhole_toDigits n, spells_toDigits n⟩

theorem integerText_iff {i : Int} {t : Text} : IntegerText i t ↔ t = renderInt i := by
  constructor
  · intro h
    cases h with
    | @whole _ n h hn =>
      have hsign : ¬ ((n : Int) < 0) := by omega
      rw [renderInt, if_neg hsign, Int.natAbs_natCast]
      exact isWhole_iff.1 ⟨h, hn⟩
    | @negative digits n h hn hne =>
      have hsign : -(n : Int) < 0 := by omega
      rw [renderInt, if_pos hsign, Int.natAbs_neg, Int.natAbs_natCast, isWhole_iff.1 ⟨h, hn⟩]
      rfl
  · rintro rfl
    obtain ⟨hwhole, hvalue⟩ := isWhole_iff.2 (rfl : Nat.toDigits 10 i.natAbs = _)
    rw [renderInt]
    by_cases hsign : i < 0
    · have h := IntegerText.negative hwhole hvalue (by omega)
      rw [show -(i.natAbs : Int) = i by omega] at h
      rwa [if_pos hsign]
    · have h := IntegerText.whole hwhole hvalue
      rw [show (i.natAbs : Int) = i by omega] at h
      rwa [if_neg hsign]

/-! ### Strings -/

theorem escapedChar_of_mem : ∀ e ∈ escapeLetters, escapedChar e.1 = ['\\', e.2] := by
  decide

theorem escapedChar_of_lt : ∀ n < 0x20, (∀ e ∈ escapeLetters, e.1 ≠ Char.ofNat n) →
    escapedChar (Char.ofNat n) =
      '\\' :: 'u' :: Text.digitsIn 16 (List.replicate 4 false) (Char.ofNat n).toNat := by
  decide

theorem escapedChar_of_le {c : Char} (hno : ∀ d, (c, d) ∉ escapeLetters) (hc : 0x20 ≤ c.toNat) :
    escapedChar c = [c] := by
  have hne : ∀ e ∈ escapeLetters, c ≠ e.1 := by
    rintro e he rfl
    exact hno e.2 he
  rw [escapedChar, if_neg (hne ('"', '"') (by decide)), if_neg (hne ('\\', '\\') (by decide)),
    if_neg (by omega), if_neg (by omega), if_neg (hne ('\n', 'n') (by decide)),
    if_neg (hne ('\r', 'r') (by decide)), if_neg (hne ('\t', 't') (by decide)), if_neg (by omega)]

theorem charText_iff {c : Char} {t : Text} : CharText c t ↔ t = escapedChar c := by
  have hcontrol : (∀ d, (c, d) ∉ escapeLetters) → c.toNat < 0x20 → escapedChar c =
      '\\' :: 'u' :: Text.digitsIn 16 (List.replicate 4 false) c.toNat := by
    intro hno hc
    have h := escapedChar_of_lt c.toNat hc
    rw [Char.ofNat_toNat] at h
    exact h fun e he heq => hno e.2 (heq ▸ he)
  constructor
  · rintro (h | ⟨hno, hc⟩ | ⟨hno, hc⟩)
    · exact (escapedChar_of_mem _ h).symm
    · exact (hcontrol hno hc).symm
    · exact (escapedChar_of_le hno hc).symm
  · rintro rfl
    by_cases hletter : ∃ d, (c, d) ∈ escapeLetters
    · obtain ⟨d, hd⟩ := hletter
      rw [escapedChar_of_mem _ hd]
      exact .letter hd
    · have hno : ∀ d, (c, d) ∉ escapeLetters := fun d hd => hletter ⟨d, hd⟩
      by_cases hc : c.toNat < 0x20
      · rw [hcontrol hno hc]
        exact .control hno hc
      · rw [escapedChar_of_le hno (by omega)]
        exact .raw hno (by omega)

theorem stringText_iff {s t : Text} : StringText s t ↔ t = renderString s := by
  have hall : ∀ spelled : List Text,
      List.Forall₂ CharText s spelled ↔ spelled = s.map escapedChar := by
    induction s with
    | nil => simp
    | cons c s ih =>
      intro spelled
      rw [List.forall₂_cons_left_iff, List.map_cons]
      simp only [charText_iff, ih, exists_and_left, exists_eq_left]
  constructor
  · rintro ⟨h⟩
    rw [(hall _).1 h]
    simp [renderString, List.flatMap]
  · rintro rfl
    have h := StringText.quoted ((hall _).2 rfl)
    simpa [renderString, List.flatMap] using h

/-! ### Values -/

theorem fieldText_iff {R : Value → Text → Prop} {key t : Text} {v : Value}
    (h : ∀ u, R v u ↔ u = v.render) :
    FieldText R (key, v) t ↔ t = renderString key ++ ':' :: v.render := by
  constructor
  · rintro ⟨hkey, hv⟩
    rw [stringText_iff.1 hkey, (h _).1 hv]
  · rintro rfl
    exact .intro (stringText_iff.2 rfl) ((h _).2 rfl)

mutual

/-- **Every value has one compact JSON**, and it is written as that. -/
theorem compact_iff : ∀ (v : Value) (t : Text), Compact v t ↔ t = v.render
  | .null, t => ⟨fun h => by cases h; rfl, fun h => h ▸ .null⟩
  | .bool true, t => ⟨fun h => by cases h; rfl, fun h => h ▸ .true⟩
  | .bool false, t => ⟨fun h => by cases h; rfl, fun h => h ▸ .false⟩
  | .int i, t => by
    rw [render, ← integerText_iff]
    exact ⟨fun | .int h => h, .int⟩
  | .float x, t => ⟨fun h => by cases h; rw [render], fun h => by rw [h, render]; exact .float⟩
  | .string s, t => by
    rw [render, ← stringText_iff]
    exact ⟨fun | .string h => h, .string⟩
  | .array items, t => by
    have hitems := forall₂_compact_iff items
    rw [render]
    constructor
    · intro h
      cases h with
      | array h => rw [(hitems _).1 h]
    · rintro rfl
      exact .array ((hitems _).2 rfl)
  | .object entries, t => by
    have hentries := forall₂_fieldText_iff entries
    rw [render]
    constructor
    · intro h
      cases h with
      | object h => rw [(hentries _).1 h]
    · rintro rfl
      exact .object ((hentries _).2 rfl)

theorem forall₂_compact_iff : ∀ (items : List Value) (texts : List Text),
    List.Forall₂ Compact items texts ↔ texts = renderItems items
  | [], texts => by simp [renderItems]
  | v :: items, texts => by
    rw [List.forall₂_cons_left_iff, renderItems]
    simp only [compact_iff v, forall₂_compact_iff items, exists_and_left, exists_eq_left]

theorem forall₂_fieldText_iff : ∀ (entries : List (Text × Value)) (texts : List Text),
    List.Forall₂ (FieldText Compact) entries texts ↔ texts = renderEntries entries
  | [], texts => by simp [renderEntries]
  | (key, v) :: entries, texts => by
    rw [List.forall₂_cons_left_iff, renderEntries]
    simp only [fieldText_iff (compact_iff v), forall₂_fieldText_iff entries, exists_and_left,
      exists_eq_left]

end

end Value

end MinedRules
