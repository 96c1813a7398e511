import MinedRules.Text.Digits
import Mathlib.Data.List.Induction

/-!
# Texts of digits and the numbers that they spell

A digit above nine is a letter, which may be small or capital, so a number has several texts of one
length.  `Text.Spells` says which number a text of digits spells, and `Text.digitsIn` writes a number
with as many digits as one likes.

* `Text.spells_iff` : `Text.valueIn` finds the number that a text of digits spells.
* `Text.spells_digitsIn` : enough digits spell the number that they are written for.
* `Text.exists_digitsIn` : every text of digits is written in this way.
-/

namespace MinedRules

/-- The digit with a value below sixteen.  If it is a letter, `capital` says which one. -/
def digitChar (capital : Bool) (value : Nat) : Char :=
  if value < 10 then Char.ofNat ('0'.toNat + value)
  else Char.ofNat ((if capital then 'A'.toNat else 'a'.toNat) + (value - 10))

/-- A digit of the base. -/
def IsDigit (base : Nat) (c : Char) : Prop := ∃ value < base, ∃ capital, c = digitChar capital value

namespace Text

/-- The digits spell the number; none spell zero. -/
inductive Spells (base : Nat) : Text → Nat → Prop
  | nil : Spells base [] 0
  | concat {t : Text} {n value : Nat} {capital : Bool} : Spells base t n → value < base →
      Spells base (t ++ [digitChar capital value]) (base * n + value)

/-- The last digits of a number, one for each element of `capitals`, which says how it is written if it
is a letter. -/
def digitsIn (base : Nat) : List Bool → Nat → Text
  | [], _ => []
  | capital :: capitals, n =>
    digitChar capital (n / Nat.pow base capitals.length % base) :: digitsIn base capitals n

end Text

/-! ### Single digits -/

theorem digitValue?_lt {base n : Nat} {c : Char} (h : digitValue? base c = some n) : n < base := by
  rw [digitValue?, Option.filter_eq_some_iff] at h
  simpa using h.2

theorem digitValue?_digitChar :
    ∀ base ≤ 16, ∀ value < base, ∀ capital,
      digitValue? base (digitChar capital value) = some value := by
  decide

theorem digitChar_of_lt_ten {value : Nat} (h : value < 10) (capital capital' : Bool) :
    digitChar capital value = digitChar capital' value := by
  rw [digitChar, digitChar, if_pos h, if_pos h]

theorem exists_digitChar {base value : Nat} {c : Char} (h : digitValue? base c = some value) :
    ∃ capital, c = digitChar capital value := by
  have hc : Char.ofNat c.toNat = c := Char.ofNat_toNat c
  rw [digitValue?, Option.filter_eq_some_iff] at h
  obtain ⟨hvalue, -⟩ := h
  split at hvalue
  · next hrange =>
    obtain rfl := Option.some.inj hvalue
    refine ⟨false, ?_⟩
    rw [digitChar, if_pos (by simp at hrange ⊢; omega), Nat.add_sub_cancel' hrange.1, hc]
  split at hvalue
  · next hrange =>
    obtain rfl := Option.some.inj hvalue
    refine ⟨false, ?_⟩
    rw [digitChar, if_neg (by omega), Nat.add_sub_cancel, if_neg (by decide),
      Nat.add_sub_cancel' hrange.1, hc]
  split at hvalue
  · next hrange =>
    obtain rfl := Option.some.inj hvalue
    refine ⟨true, ?_⟩
    rw [digitChar, if_neg (by omega), Nat.add_sub_cancel, if_pos rfl,
      Nat.add_sub_cancel' hrange.1, hc]
  · simp at hvalue

theorem isDigit_iff {base : Nat} (hbase : base ≤ 16) {c : Char} :
    IsDigit base c ↔ isDigitIn base c = true := by
  constructor
  · rintro ⟨value, hvalue, capital, rfl⟩
    rw [isDigitIn, digitValue?_digitChar base hbase value hvalue]
    rfl
  · intro h
    obtain ⟨value, hvalue⟩ := Option.isSome_iff_exists.1 h
    exact ⟨value, digitValue?_lt hvalue, exists_digitChar hvalue⟩

/-! ### Runs of digits -/

namespace Text

variable {base : Nat} {capitals : List Bool}

/-- **`valueIn` finds the number that digits spell.** -/
theorem spells_iff (hbase : base ≤ 16) {t : Text} {n : Nat} :
    Spells base t n ↔ (∀ c ∈ t, isDigitIn base c = true) ∧ valueIn base t = n := by
  constructor
  · intro h
    induction h with
    | nil => exact ⟨by simp, rfl⟩
    | @concat t n value capital _ hvalue ih =>
      have hdigit := digitValue?_digitChar base hbase value hvalue capital
      refine ⟨fun c hc => ?_, ?_⟩
      · rcases List.mem_append.1 hc with hc | hc
        · exact ih.1 c hc
        · rw [List.mem_singleton.1 hc]
          exact (isDigit_iff hbase).1 ⟨value, hvalue, capital, rfl⟩
      · rw [valueIn_append_singleton, ih.2, hdigit, Option.getD_some]
  · rintro ⟨hall, rfl⟩
    induction t using List.reverseRecOn with
    | nil => exact .nil
    | append_singleton t c ih =>
      obtain ⟨value, hvalue⟩ := Option.isSome_iff_exists.1 (hall c (by simp))
      obtain ⟨capital, rfl⟩ := exists_digitChar hvalue
      rw [valueIn_append_singleton, hvalue, Option.getD_some]
      exact .concat (ih fun d hd => hall d (List.mem_append_left _ hd)) (digitValue?_lt hvalue)

theorem valueIn_lt (hbase : 0 < base) (digits : Text) :
    valueIn base digits < Nat.pow base digits.length := by
  induction digits using List.reverseRecOn with
  | nil => simp [valueIn]
  | append_singleton digits c ih =>
    have hdigit : (digitValue? base c).getD 0 < base := by
      cases h : digitValue? base c with
      | none => exact hbase
      | some n => exact digitValue?_lt h
    rw [valueIn_append_singleton, List.length_append, List.length_singleton]
    calc base * valueIn base digits + (digitValue? base c).getD 0
        < base * valueIn base digits + base := Nat.add_lt_add_left hdigit _
      _ = base * (valueIn base digits + 1) := (Nat.mul_succ _ _).symm
      _ ≤ base * Nat.pow base digits.length := Nat.mul_le_mul_left _ ih
      _ = Nat.pow base digits.length * base := Nat.mul_comm _ _

theorem valueIn_cons (base : Nat) (c : Char) (digits : Text) :
    valueIn base (c :: digits) =
      (digitValue? base c).getD 0 * Nat.pow base digits.length + valueIn base digits := by
  induction digits using List.reverseRecOn with
  | nil => simp [valueIn]
  | append_singleton digits d ih =>
    have hlast := valueIn_append_singleton base (c :: digits) d
    rw [List.cons_append] at hlast
    rw [hlast, ih, valueIn_append_singleton, List.length_append, List.length_singleton,
      Nat.mul_add, Nat.add_assoc]
    congr 1
    calc base * ((digitValue? base c).getD 0 * Nat.pow base digits.length)
        = (digitValue? base c).getD 0 * (Nat.pow base digits.length * base) := by
          rw [Nat.mul_left_comm, Nat.mul_comm base]
      _ = (digitValue? base c).getD 0 * Nat.pow base (digits.length + 1) := rfl

theorem length_digitsIn (base : Nat) (capitals : List Bool) (n : Nat) :
    (digitsIn base capitals n).length = capitals.length := by
  induction capitals with
  | nil => rfl
  | cons capital capitals ih => rw [digitsIn, List.length_cons, List.length_cons, ih]

theorem isDigitIn_of_mem_digitsIn (hpos : 0 < base) (hbase : base ≤ 16) (n : Nat) :
    ∀ c ∈ digitsIn base capitals n, isDigitIn base c = true := by
  induction capitals with
  | nil => simp [digitsIn]
  | cons capital capitals ih =>
    refine List.forall_mem_cons.2 ⟨?_, ih⟩
    rw [isDigitIn, digitValue?_digitChar base hbase _ (Nat.mod_lt _ hpos)]
    rfl

/-- A number is read back from its last digits, less those that are left out. -/
theorem valueIn_digitsIn (hpos : 0 < base) (hbase : base ≤ 16) (capitals : List Bool) (n : Nat) :
    valueIn base (digitsIn base capitals n) = n % Nat.pow base capitals.length := by
  induction capitals with
  | nil => exact (Nat.mod_one n).symm
  | cons capital capitals ih =>
    rw [digitsIn, valueIn_cons, length_digitsIn, ih,
      digitValue?_digitChar base hbase _ (Nat.mod_lt _ hpos), Option.getD_some, List.length_cons,
      Nat.add_comm, Nat.mul_comm]
    exact (Nat.mod_pow_succ ..).symm

theorem spells_digitsIn (hpos : 0 < base) (hbase : base ≤ 16) {n : Nat}
    (hn : n < Nat.pow base capitals.length) : Spells base (digitsIn base capitals n) n := by
  refine (spells_iff hbase).2 ⟨isDigitIn_of_mem_digitsIn hpos hbase n, ?_⟩
  rw [valueIn_digitsIn hpos hbase, Nat.mod_eq_of_lt hn]

theorem digitsIn_replicate (hpos : 0 < base) (hbase : base ≤ 10) (capitals : List Bool) (n : Nat) :
    digitsIn base (List.replicate capitals.length false) n = digitsIn base capitals n := by
  induction capitals with
  | nil => rfl
  | cons capital capitals ih =>
    have hlt : n / Nat.pow base capitals.length % base < 10 :=
      Nat.lt_of_lt_of_le (Nat.mod_lt _ hpos) hbase
    rw [List.length_cons, List.replicate_succ, digitsIn, ih, List.length_replicate, digitsIn,
      digitChar_of_lt_ten hlt false capital]

theorem digitsIn_add (hpos : 0 < base) (k n : Nat) :
    digitsIn base capitals (k * Nat.pow base capitals.length + n) = digitsIn base capitals n := by
  induction capitals generalizing k with
  | nil => rfl
  | cons capital capitals ih =>
    have hpow : k * Nat.pow base (capital :: capitals).length + n =
        k * base * Nat.pow base capitals.length + n := by
      rw [List.length_cons, Nat.mul_assoc, Nat.mul_comm base]
      rfl
    have hpow' : 0 < Nat.pow base capitals.length := Nat.pow_pos hpos
    rw [hpow, digitsIn, ih, digitsIn, Nat.mul_comm (k * base), Nat.mul_add_div hpow',
      Nat.mul_add_mod_self_right]

theorem exists_digitsIn (hpos : 0 < base) {digits : Text}
    (h : ∀ c ∈ digits, isDigitIn base c = true) :
    ∃ capitals, capitals.length = digits.length ∧
      digits = digitsIn base capitals (valueIn base digits) := by
  induction digits with
  | nil => exact ⟨[], rfl, rfl⟩
  | cons c digits ih =>
    rw [List.forall_mem_cons] at h
    obtain ⟨value, hvalue⟩ := Option.isSome_iff_exists.1 h.1
    obtain ⟨capital, hc⟩ := exists_digitChar hvalue
    obtain ⟨capitals, hlength, hdigits⟩ := ih h.2
    have hlt : valueIn base digits < Nat.pow base capitals.length := by
      rw [hlength]
      exact valueIn_lt hpos digits
    have hpow : 0 < Nat.pow base capitals.length := Nat.pow_pos hpos
    have hfirst : (value * Nat.pow base capitals.length + valueIn base digits) /
        Nat.pow base capitals.length % base = value := by
      rw [Nat.mul_comm, Nat.mul_add_div hpow, Nat.div_eq_of_lt hlt, Nat.add_zero,
        Nat.mod_eq_of_lt (digitValue?_lt hvalue)]
    refine ⟨capital :: capitals, by rw [List.length_cons, List.length_cons, hlength], ?_⟩
    rw [valueIn_cons, hvalue, Option.getD_some, ← hlength, digitsIn, hfirst, digitsIn_add hpos,
      ← hdigits, hc]

end Text

end MinedRules
