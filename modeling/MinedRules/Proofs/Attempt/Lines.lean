import MinedRules.Attempt.Load
import Mathlib.Data.List.Basic

/-!
# The record lines of an attempt file

The lines of a file that are not blank are its record lines.  `Attempt.ofFile_eq_ok_iff` says that a
file is read exactly if each of them describes an attempt, and that these are its attempts.
-/

namespace MinedRules

namespace Attempt

variable {p : Path} {attempts : List Attempt} {line bytes : List UInt8}

/-- The attempt that a line describes, if its bytes are a text and the text is a record. -/
def ofLine? (line : List UInt8) : Option Attempt :=
  (Text.decode? line).bind fun t => (decode t).toOption

/-- Is the line a text of white space? -/
def isBlankLine (line : List UInt8) : Bool :=
  (Text.decode? line).any fun t => (Text.trim t).isEmpty

/-- The lines of a file that are not blank. -/
def recordLines (bytes : List UInt8) : List (List UInt8) :=
  (linesWith 10 13 bytes).filter fun line => !isBlankLine line

theorem ofLines_cons_of_blank (h : isBlankLine line = true) (number : Nat)
    (lines : List (List UInt8)) :
    ofLines p number (line :: lines) = ofLines p (number + 1) lines := by
  rw [isBlankLine] at h
  cases ht : Text.decode? line with
  | none => simp [ht] at h
  | some t =>
    have htrim : (Text.trim t).isEmpty = true := by simpa [ht] using h
    simp only [ofLines, ht, htrim, if_true]

theorem ofLines_cons_eq_ok_iff (h : isBlankLine line = false) {number : Nat}
    {lines : List (List UInt8)} :
    ofLines p number (line :: lines) = .ok attempts ↔
      ∃ a as, attempts = a :: as ∧ ofLine? line = some a ∧ ofLines p (number + 1) lines = .ok as := by
  rw [isBlankLine] at h
  cases ht : Text.decode? line with
  | none => simp [ofLines, ofLine?, ht]
  | some t =>
    have htrim : (Text.trim t).isEmpty = false := by simpa [ht] using h
    cases ha : decode t with
    | error e => simp [ofLines, ofLine?, ht, htrim, ha, Except.toOption]
    | ok a =>
      cases hrest : ofLines p (number + 1) lines with
      | error e => simp [ofLines, ht, htrim, ha, hrest, Except.map]
      | ok as =>
        simp only [ofLines, ofLine?, ht, htrim, ha, hrest, Except.map, Except.toOption,
          Option.bind_some, Option.some.injEq, Except.ok.injEq, Bool.false_eq_true, if_false]
        constructor
        · rintro rfl
          exact ⟨a, as, rfl, rfl, rfl⟩
        · rintro ⟨_, _, rfl, rfl, rfl⟩
          rfl

theorem ofLines_eq_ok_iff {number : Nat} {lines : List (List UInt8)} :
    ofLines p number lines = .ok attempts ↔
      (lines.filter fun line => !isBlankLine line).map ofLine? = attempts.map some := by
  induction lines generalizing number attempts with
  | nil => cases attempts <;> simp [ofLines]
  | cons line lines ih =>
    cases h : isBlankLine line with
    | true => rw [ofLines_cons_of_blank h, ih, List.filter_cons_of_neg (by simp [h])]
    | false =>
      rw [ofLines_cons_eq_ok_iff h, List.filter_cons_of_pos (by simp [h]), List.map_cons]
      simp only [ih]
      constructor
      · rintro ⟨a, as, rfl, ha, has⟩
        rw [List.map_cons, ha, has]
      · intro hmap
        cases attempts with
        | nil => simp at hmap
        | cons a as =>
          obtain ⟨ha, has⟩ := List.cons.inj hmap
          exact ⟨a, as, rfl, ha, has⟩

/-- **A file is read exactly if each of its record lines describes an attempt.** -/
theorem ofFile_eq_ok_iff :
    ofFile p bytes = .ok attempts ↔ (recordLines bytes).map ofLine? = attempts.map some :=
  ofLines_eq_ok_iff

end Attempt

end MinedRules
