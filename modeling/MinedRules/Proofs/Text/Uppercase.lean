import MinedRules.Text.Blank
import MinedRules.Text.Ranges
import MinedRules.Text.Uppercase
import Mathlib.Tactic.SplitIfs

/-!
# What the uppercase map keeps

`uppercase` is a table of shifts, so a law of the map is a condition on the shifts of the table.
A shift is *sound* if it stays within one class of widths (`Shift.Sound`), and two shifts are
*apart* if the second moves nothing that the first gives (`Shift.apart`); both can be decided.

* `utf8Size_uppercase` : a character keeps its width.
* `uppercase_uppercase` : an uppercase form is its own uppercase form.
* `isSign_uppercase` : the signs of rules and clauses (`isSign`) are neither moved nor given.
* `uppercase_eq_iff_of_lt` : nor are the characters before the letters.
-/

namespace MinedRules

/-- The number of bytes that encode a code point. -/
def widthOf (n : Nat) : Nat :=
  if n < 0x80 then 1 else if n < 0x800 then 2 else if n < 0x10000 then 3 else 4

theorem utf8Size_eq_widthOf (c : Char) : c.utf8Size = widthOf c.toNat := by
  simp only [Char.utf8Size, widthOf, UInt32.le_iff_toNat_le]
  change (if c.toNat ≤ 0x7F then 1 else if c.toNat ≤ 0x7FF then 2 else
    if c.toNat ≤ 0xFFFF then 3 else 4) = _
  split_ifs <;> omega

theorem widthOf_mono {m n : Nat} (h : m ≤ n) : widthOf m ≤ widthOf n := by
  unfold widthOf
  split_ifs <;> omega

namespace Shift

/-- The shift moves code points of characters to code points of characters with the same width. -/
def Sound (s : Shift) : Prop :=
  widthOf s.first = widthOf s.target ∧ widthOf s.last = widthOf s.target ∧
    widthOf (s.image s.last) = widthOf s.target ∧
    (s.image s.last < 0xD800 ∨ 0xDFFF < s.target ∧ s.image s.last < 0x110000)

instance (s : Shift) : Decidable s.Sound := inferInstanceAs (Decidable (_ ∧ _))

/-- The second shift moves nothing that the first one gives: their ranges are disjoint, or they go
in steps of two past each other. -/
def apart (s s' : Shift) : Bool :=
  Nat.blt (s.image s.last) s'.first || Nat.blt s'.last s.target ||
    s'.step == 2 && (s.step == 2 || s.first == s.last) && s.target % 2 != s'.first % 2

variable {s s' : Shift} {n : Nat}

theorem bounds_of_moves (h : s.moves n = true) : s.first ≤ n ∧ n ≤ s.last := by
  simp only [moves, Bool.and_eq_true, decide_eq_true_eq] at h
  exact h.1

theorem image_le (h : s.moves n = true) : s.target ≤ s.image n ∧ s.image n ≤ s.image s.last := by
  have := bounds_of_moves h
  simp only [image]
  omega

theorem Sound.widthOf_image (hs : s.Sound) (h : s.moves n = true) :
    widthOf (s.image n) = widthOf n := by
  obtain ⟨h1, h2, h3, -⟩ := hs
  -- the width is the same at both ends of both ranges
  have hn1 := widthOf_mono (bounds_of_moves h).1
  have hn2 := widthOf_mono (bounds_of_moves h).2
  have hi1 := widthOf_mono (image_le h).1
  have hi2 := widthOf_mono (image_le h).2
  omega

theorem Sound.isValidChar (hs : s.Sound) (h : s.moves n = true) : (s.image n).isValidChar := by
  have hi := image_le h
  rcases hs.2.2.2 with h4 | ⟨h4, h5⟩
  · exact .inl (by omega)
  · exact .inr ⟨by omega, by omega⟩

theorem moves_image (ha : s.apart s' = true) (h : s.moves n = true) :
    s'.moves (s.image n) = false := by
  have hn := bounds_of_moves h
  have hi := image_le h
  rw [Bool.eq_false_iff]
  intro h'
  have hn' := bounds_of_moves h'
  simp only [apart, Bool.or_eq_true, Bool.and_eq_true, Nat.blt_eq, beq_iff_eq, bne_iff_ne] at ha
  rcases ha with (ha | ha) | ⟨⟨h2, hs⟩, hne⟩
  · omega
  · omega
  · simp only [moves, image, Bool.and_eq_true, beq_iff_eq, h2] at h h' hn'
    -- both distances are even, so the parities of the two ranges agree
    have heven : (n - s.first) % 2 = 0 := by
      rcases hs with hs | hs
      · rw [← hs]; exact h.2
      · omega
    omega

end Shift

theorem shifts_sound : ∀ s ∈ uppercaseShifts, s.Sound := by decide +kernel

theorem shifts_apart :
    (uppercaseShifts.all fun s => uppercaseShifts.all fun s' => s.apart s') = true := by
  decide +kernel

theorem uppercase_cases (c : Char) :
    (uppercase c = c ∧ ∀ s ∈ uppercaseShifts, s.moves c.toNat = false) ∨
      ∃ s ∈ uppercaseShifts, s.moves c.toNat = true ∧ (uppercase c).toNat = s.image c.toNat := by
  rw [uppercase]
  split
  · next s hs =>
    have hmem := List.mem_of_find?_eq_some hs
    have hmoves : s.moves c.toNat = true := List.find?_some (p := fun s : Shift => s.moves c.toNat) hs
    refine .inr ⟨s, hmem, hmoves, ?_⟩
    exact toNat_ofNat ((shifts_sound s hmem).isValidChar hmoves)
  · next hs =>
    refine .inl ⟨rfl, fun s hmem => ?_⟩
    simpa using List.find?_eq_none.1 hs s hmem

theorem utf8Size_uppercase (c : Char) : (uppercase c).utf8Size = c.utf8Size := by
  rcases uppercase_cases c with ⟨h, -⟩ | ⟨s, hs, hm, h⟩
  · rw [h]
  · rw [utf8Size_eq_widthOf, utf8Size_eq_widthOf, h, (shifts_sound s hs).widthOf_image hm]

theorem uppercase_uppercase (c : Char) : uppercase (uppercase c) = uppercase c := by
  rcases uppercase_cases c with ⟨h, -⟩ | ⟨s, hs, hm, h⟩
  · rw [h, h]
  · rcases uppercase_cases (uppercase c) with ⟨h', -⟩ | ⟨s', hs', hm', -⟩
    · exact h'
    · have ha := List.all_eq_true.1 (List.all_eq_true.1 shifts_apart s hs) s' hs'
      rw [h, Shift.moves_image ha hm] at hm'
      exact absurd hm' (by decide)

/-! ### Signs -/

/-- The signs that structure rules and clauses: white space, parentheses, and the characters of
connectives and operators. -/
def isSign (c : Char) : Bool :=
  isBlank c || ['(', ')', ',', '.', ':', ';', '<', '∧', '∨'].contains c

/-- The code points of the signs. -/
def signRanges : Ranges :=
  [(0x09, 0x0D), (0x20, 0x20), (0x28, 0x29), (0x2C, 0x2C), (0x2E, 0x2E), (0x3A, 0x3C),
   (0x85, 0x85), (0xA0, 0xA0), (0x1680, 0x1680), (0x2000, 0x200A), (0x2028, 0x2029),
   (0x202F, 0x202F), (0x205F, 0x205F), (0x2227, 0x2228), (0x3000, 0x3000)]

instance (r : Ranges) : Decidable r.Ascending := inferInstanceAs (Decidable (List.Pairwise _ r))

theorem signRanges_ascending : signRanges.Ascending := by decide

theorem isSign_eq_contains (c : Char) : isSign c = signRanges.contains c.toNat := by
  rw [Bool.eq_iff_iff, Ranges.contains_iff signRanges_ascending]
  simp only [isSign, isBlank, signRanges, Bool.or_eq_true, Bool.and_eq_true, decide_eq_true_eq,
    beq_iff_eq, List.contains_iff_mem, List.mem_cons, List.not_mem_nil, or_false, ← Char.toNat_inj]
  change _ ∨ (c.toNat = 0x28 ∨ c.toNat = 0x29 ∨ c.toNat = 0x2C ∨ c.toNat = 0x2E ∨ c.toNat = 0x3A ∨
    c.toNat = 0x3B ∨ c.toNat = 0x3C ∨ c.toNat = 0x2227 ∨ c.toNat = 0x2228) ↔ _
  simp only [exists_eq_or_imp, exists_eq_left]
  omega

theorem shifts_avoid_signs : ∀ s ∈ uppercaseShifts, ∀ p ∈ signRanges,
    (s.image s.last < p.1 ∨ p.2 < s.target) ∧ (s.last < p.1 ∨ p.2 < s.first) := by
  decide +kernel

theorem uppercase_of_isSign {c : Char} (h : isSign c = true) : uppercase c = c := by
  rcases uppercase_cases c with ⟨h', -⟩ | ⟨s, hs, hm, -⟩
  · exact h'
  · rw [isSign_eq_contains, Ranges.contains_iff signRanges_ascending] at h
    obtain ⟨p, hp, h1, h2⟩ := h
    have hb := Shift.bounds_of_moves hm
    have := (shifts_avoid_signs s hs p hp).2
    omega

theorem isSign_uppercase (c : Char) : isSign (uppercase c) = isSign c := by
  rcases uppercase_cases c with ⟨h, -⟩ | ⟨s, hs, hm, h⟩
  · rw [h]
  · have hc : isSign c = false := by
      rw [Bool.eq_false_iff]
      intro hc
      rw [uppercase_of_isSign hc] at h
      have hb := Shift.image_le hm
      rw [isSign_eq_contains, Ranges.contains_iff signRanges_ascending] at hc
      obtain ⟨p, hp, h1, h2⟩ := hc
      have := (shifts_avoid_signs s hs p hp).1
      omega
    rw [hc, Bool.eq_false_iff, isSign_eq_contains]
    intro hc'
    rw [Ranges.contains_iff signRanges_ascending, h] at hc'
    obtain ⟨p, hp, h1, h2⟩ := hc'
    have hb := Shift.image_le hm
    have := (shifts_avoid_signs s hs p hp).1
    omega

theorem uppercase_eq_iff {a c : Char} (ha : isSign a = true) : uppercase c = a ↔ c = a := by
  constructor
  · intro h
    have hc : isSign c = true := by rw [← isSign_uppercase, h, ha]
    rw [← h, uppercase_of_isSign hc]
  · rintro rfl
    exact uppercase_of_isSign ha

theorem isBlank_uppercase (c : Char) : isBlank (uppercase c) = isBlank c := by
  have hsign : ∀ {d}, isBlank d = true → isSign d = true := fun h => by simp [isSign, h]
  rw [Bool.eq_iff_iff]
  constructor
  · intro h
    have hc : isSign c = true := isSign_uppercase c ▸ hsign h
    rwa [uppercase_of_isSign hc] at h
  · intro h
    rwa [uppercase_of_isSign (hsign h)]

theorem shifts_above : ∀ s ∈ uppercaseShifts, 0x41 ≤ s.first ∧ 0x41 ≤ s.target := by decide +kernel

/-- The signs, digits and controls before the letters are neither moved nor given. -/
theorem uppercase_eq_iff_of_lt {a c : Char} (ha : a.toNat < 0x41) : uppercase c = a ↔ c = a := by
  rcases uppercase_cases c with ⟨h, -⟩ | ⟨s, hs, hm, h⟩
  · rw [h]
  · have habove := shifts_above s hs
    have hfirst := (Shift.bounds_of_moves hm).1
    have htarget := (Shift.image_le hm).1
    constructor
    · rintro rfl
      omega
    · rintro rfl
      omega

end MinedRules
