import MinedRules.Proofs.Literal.Grammar
import MinedRules.Proofs.Text.Trimming
import Mathlib.Data.List.Basic

/-!
# Reading numerals

`Numeral.read?` takes a numeral (`read?_sound`), and all of it if what follows cannot belong to it
(`read?_complete`).  The value that it has is the one that `Numeral.HasValue` says
(`value?_eq_some_iff`).
-/

namespace MinedRules

theorem isDigitIn_ten_iff {c : Char} : isDigitIn 10 c = true ↔ 48 ≤ c.toNat ∧ c.toNat ≤ 57 := by
  have h0 : '0'.toNat = 48 := rfl
  have h9 : '9'.toNat = 57 := rfl
  have ha : 'a'.toNat = 97 := rfl
  have hA : 'A'.toNat = 65 := rfl
  rw [isDigitIn, digitValue?]
  simp only [h0, h9, ha, hA]
  split
  · next h =>
    rw [Option.filter_some, if_pos (by simp; omega)]
    simp [h]
  · next h =>
    simp only [h, iff_false]
    split
    · next hlower => rw [Option.filter_some, if_neg (by simp)]; simp
    · split
      · next hupper => rw [Option.filter_some, if_neg (by simp)]; simp
      · simp

namespace Numeral

/-- Nothing at the start of the text can belong to a numeral before it. -/
def Ends (t : Text) : Prop :=
  ∀ c ∈ t.head?, isDigitIn 10 c = false ∧ c ≠ '.' ∧ c ≠ 'e' ∧ c ≠ 'E'

/-! ### Parts -/

theorem isDigits_iff {digits : Text} :
    IsDigits digits ↔ digits ≠ [] ∧ ∀ c ∈ digits, isDigitIn 10 c = true := by
  simp only [IsDigits, isDigit_iff (show 10 ≤ 16 by decide)]

theorem head?_digits {digits : Text} (hne : digits ≠ [])
    (hdigits : ∀ c ∈ digits, isDigitIn 10 c = true) (t : Text) :
    ∀ c ∈ (digits ++ t).head?, isDigitIn 10 c = true := by
  intro c hc
  rw [List.head?_append_of_ne_nil _ hne] at hc
  exact hdigits c (List.mem_of_mem_head? hc)

theorem spanSign_sound (t : Text) :
    ∃ s, Sign s (Text.spanSign t).1 ∧ t = s ++ (Text.spanSign t).2 := by
  unfold Text.spanSign
  split
  · exact ⟨_, .minus, rfl⟩
  · exact ⟨_, .plus, rfl⟩
  · exact ⟨_, .absent, rfl⟩

theorem spanSign_of_ne {t : Text} (hminus : ∀ u, t ≠ '-' :: u) (hplus : ∀ u, t ≠ '+' :: u) :
    Text.spanSign t = (false, t) := by
  unfold Text.spanSign
  split
  · exact absurd rfl (hminus _)
  · exact absurd rfl (hplus _)
  · rfl

theorem spanSign_append {s t : Text} {negative : Bool} (h : Sign s negative)
    (ht : ∀ c ∈ t.head?, isDigitIn 10 c = true) : Text.spanSign (s ++ t) = (negative, t) := by
  cases h with
  | minus => rfl
  | plus => rfl
  | absent =>
    have hne : ∀ {c : Char}, isDigitIn 10 c = false → ∀ u, t ≠ c :: u := by
      rintro c hc u rfl
      exact absurd ((ht c rfl).symm.trans hc) (by decide)
    exact spanSign_of_ne (hne (by decide)) (hne (by decide))

theorem spanDigits_append {digits t : Text} (h : ∀ c ∈ digits, isDigitIn 10 c = true)
    (ht : ∀ c ∈ t.head?, isDigitIn 10 c = false) :
    Text.spanDigits 10 (digits ++ t) = (digits, t) := by
  rw [Text.spanDigits, Text.takeWhile_append_of_stop h ht, Text.dropWhile_append_of_stop h ht]

theorem spanDigits_sound (t : Text) : (∀ c ∈ (Text.spanDigits 10 t).1, isDigitIn 10 c = true) ∧
    t = (Text.spanDigits 10 t).1 ++ (Text.spanDigits 10 t).2 :=
  ⟨fun _ hc => List.mem_takeWhile_imp hc, List.takeWhile_append_dropWhile.symm⟩

theorem readFraction_sound (t : Text) :
    ∃ f, Fraction f (readFraction t).1 ∧ t = f ++ (readFraction t).2 := by
  unfold readFraction
  split
  · next t =>
    obtain ⟨hdigits, ht⟩ := spanDigits_sound t
    exact ⟨_, .point fun c hc => (isDigit_iff (by decide)).2 (hdigits c hc),
      by rw [List.cons_append, ← ht]⟩
  · exact ⟨_, .absent, rfl⟩

theorem readFraction_append {f t : Text} {point : Option Text} (h : Fraction f point)
    (ht : ∀ c ∈ t.head?, isDigitIn 10 c = false ∧ c ≠ '.') :
    readFraction (f ++ t) = (point, t) := by
  cases h with
  | absent =>
    rw [List.nil_append]
    unfold readFraction
    split
    · exact absurd rfl (ht '.' rfl).2
    · rfl
  | point hdigits =>
    rw [List.cons_append, readFraction, spanDigits_append
      (fun c hc => (isDigit_iff (by decide)).1 (hdigits c hc)) fun c hc => (ht c hc).1]

theorem readExponent_sound (t : Text) :
    ∃ e, Exponent e (readExponent t).1 ∧ t = e ++ (readExponent t).2 := by
  cases t with
  | nil => exact ⟨_, .absent, rfl⟩
  | cons c u =>
    rw [readExponent]
    by_cases hc : c = 'e' ∨ c = 'E'
    · obtain ⟨s, hs, hu⟩ := spanSign_sound u
      obtain ⟨hdigits, hrest⟩ := spanDigits_sound (Text.spanSign u).2
      rw [if_pos hc]
      dsimp only
      by_cases hne : (Text.spanDigits 10 (Text.spanSign u).2).1.isEmpty = true
      · rw [if_pos hne]
        exact ⟨_, .absent, rfl⟩
      · rw [if_neg hne]
        have hspells := (Text.spells_iff (by decide)).2 ⟨hdigits, rfl⟩
        refine ⟨_, .power hc hs (by simpa using hne) hspells, ?_⟩
        rw [List.cons_append, List.append_assoc, ← hrest, ← hu]
    · rw [if_neg hc]
      exact ⟨_, .absent, rfl⟩

theorem readExponent_append {e t : Text} {power : Option Int} (h : Exponent e power)
    (ht : ∀ c ∈ t.head?, isDigitIn 10 c = false ∧ c ≠ 'e' ∧ c ≠ 'E') :
    readExponent (e ++ t) = (power, t) := by
  cases h with
  | absent =>
    cases t with
    | nil => rfl
    | cons c t =>
      obtain ⟨-, h1, h2⟩ := ht c rfl
      rw [List.nil_append, readExponent, if_neg (by simp [h1, h2])]
  | @power c s digits negative n hc hs hne hspells =>
    obtain ⟨hdigits, rfl⟩ := (Text.spells_iff (by decide)).1 hspells
    rw [List.cons_append, List.append_assoc, readExponent, if_pos hc,
      spanSign_append hs (head?_digits hne hdigits t)]
    simp only [spanDigits_append hdigits fun d hd => (ht d hd).1]
    rw [if_neg (by simpa using hne)]

/-! ### Numerals -/

theorem read?_sound {t rest : Text} {n : Numeral} (h : read? t = some (n, rest)) :
    ∃ u, Spelled u n ∧ t = u ++ rest := by
  unfold read? at h
  obtain ⟨s, hs, ht⟩ := spanSign_sound t
  obtain ⟨hdigits, hrest⟩ := spanDigits_sound (Text.spanSign t).2
  obtain ⟨f, hf, hfraction⟩ := readFraction_sound (Text.spanDigits 10 (Text.spanSign t).2).2
  obtain ⟨e, he, hexponent⟩ :=
    readExponent_sound (readFraction (Text.spanDigits 10 (Text.spanSign t).2).2).2
  dsimp only at h
  split at h
  · simp at h
  · next hne =>
    obtain ⟨rfl, rfl⟩ := Prod.mk.inj (Option.some.inj h)
    refine ⟨_, .intro hs (isDigits_iff.2 ⟨by simpa using hne, hdigits⟩) hf he, ?_⟩
    rw [List.append_assoc, List.append_assoc, List.append_assoc, ← hexponent, ← hfraction, ← hrest,
      ← ht]

theorem Ends.exponent {e t : Text} {power : Option Int} (he : Exponent e power) (ht : Ends t) :
    ∀ c ∈ (e ++ t).head?, isDigitIn 10 c = false ∧ c ≠ '.' := by
  cases he with
  | absent => exact fun c hc => ⟨(ht c hc).1, (ht c hc).2.1⟩
  | power hc =>
    rintro d ⟨⟩
    rcases hc with rfl | rfl <;> decide

theorem Ends.fraction {f e t : Text} {point : Option Text} {power : Option Int}
    (hf : Fraction f point) (he : Exponent e power) (ht : Ends t) :
    ∀ c ∈ (f ++ (e ++ t)).head?, isDigitIn 10 c = false := by
  cases hf with
  | absent => exact fun c hc => (ht.exponent he c hc).1
  | point =>
    rintro c ⟨⟩
    decide

theorem read?_complete {u t : Text} {n : Numeral} (h : Spelled u n) (ht : Ends t) :
    read? (u ++ t) = some (n, t) := by
  obtain ⟨hs, hwhole, hf, he⟩ := h
  obtain ⟨hne, hall⟩ := isDigits_iff.1 hwhole
  have hexponent := readExponent_append he fun c hc => ⟨(ht c hc).1, (ht c hc).2.2⟩
  have hfraction := readFraction_append hf (ht.exponent he)
  have hdigits := spanDigits_append hall (ht.fraction hf he)
  rw [List.append_assoc, List.append_assoc, List.append_assoc, read?,
    spanSign_append hs (head?_digits hne hall _)]
  simp only [hdigits, hfraction, hexponent]
  rw [if_neg (by simpa using hne)]

/-! ### Values -/

theorem Spelled.spells {t : Text} {n : Numeral} (h : Spelled t n) :
    Text.Spells 10 n.whole (Text.valueIn 10 n.whole) ∧
      Text.Spells 10 (n.whole ++ n.fraction.getD [])
        (Text.valueIn 10 (n.whole ++ n.fraction.getD [])) := by
  obtain ⟨-, hwhole, hf, -⟩ := h
  have hdigits := (isDigits_iff.1 hwhole).2
  refine ⟨(Text.spells_iff (by decide)).2 ⟨hdigits, rfl⟩, (Text.spells_iff (by decide)).2 ⟨?_, rfl⟩⟩
  intro c hc
  rcases List.mem_append.1 hc with hc | hc
  · exact hdigits c hc
  · cases hf with
    | absent => simp at hc
    | point hpoint => exact (isDigit_iff (by decide)).1 (hpoint c hc)

theorem int?_eq_some_iff {t : Text} {n : Numeral} (h : Spelled t n) {i : Int} :
    n.int? = some i ↔ n.IsInteger i := by
  have hpow : Nat.pow 2 63 = 2 ^ 63 := rfl
  rw [int?]
  constructor
  · intro hi
    split at hi
    · simp at hi
    · next hplain =>
      simp only [Bool.or_eq_true, Option.isSome_iff_ne_none, not_or, not_not] at hplain
      dsimp only at hi
      split at hi
      · next hneg =>
        split at hi
        · obtain rfl := Option.some.inj hi
          exact ⟨hplain.1, hplain.2, ⟨_, h.spells.1, by rw [if_pos hneg]⟩, by omega⟩
        · simp at hi
      · next hneg =>
        split at hi
        · obtain rfl := Option.some.inj hi
          exact ⟨hplain.1, hplain.2, ⟨_, h.spells.1, by rw [if_neg hneg]⟩, by omega⟩
        · simp at hi
  · rintro ⟨hfraction, hexponent, ⟨magnitude, hspells, rfl⟩, hlow, hhigh⟩
    obtain ⟨-, rfl⟩ := (Text.spells_iff (by decide)).1 hspells
    rw [hfraction, hexponent, if_neg (by simp)]
    dsimp only
    split at hlow
    · next hneg =>
      rw [if_pos hneg, if_pos hneg, if_pos (by omega)]
    · next hneg =>
      rw [if_neg hneg] at hhigh
      rw [if_neg hneg, if_neg hneg, if_pos (by omega)]

/-- **A numeral has at most one value**, an integer if it spells one. -/
theorem value?_eq_some_iff {t : Text} {n : Numeral} (h : Spelled t n) {v : Value} :
    n.value? = some v ↔ n.HasValue v := by
  rw [value?]
  constructor
  · intro hv
    split at hv
    · next i hi =>
      rw [← Option.some.inj hv]
      exact .int ((int?_eq_some_iff h).1 hi)
    · next hnone =>
      obtain ⟨x, hx, rfl⟩ := Option.map_eq_some_iff.1 hv
      refine .float (fun i hi => ?_) h.spells.2 hx
      rw [(int?_eq_some_iff h).2 hi] at hnone
      exact absurd hnone (by simp)
  · intro hv
    cases hv with
    | int hi => simp only [(int?_eq_some_iff h).2 hi]
    | float hno hspells hx =>
      have hnone : n.int? = none := by
        cases hi : n.int? with
        | none => rfl
        | some i => exact absurd ((int?_eq_some_iff h).1 hi) (hno i)
      obtain ⟨-, rfl⟩ := (Text.spells_iff (by decide)).1 hspells
      have hfloat : n.float? = some _ := hx
      simp only [hnone, hfloat, Option.map_some]

end Numeral

end MinedRules
