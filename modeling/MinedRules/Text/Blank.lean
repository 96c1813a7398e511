import MinedRules.Text.Basic

/-!
# Blank characters and trimming

`isBlank` is the Unicode property *White_Space*, and `isPlainBlank` the four characters that may
stand between the tokens of a data format.  The trimming functions remove the longest run of
characters of one class from the ends of a text.

* `dropWhileEnd_append_of_all`, `dropWhileEnd_eq_self` : what `dropWhileEnd` removes and keeps.
-/

namespace MinedRules

/-- White space in the sense of Unicode. -/
def isBlank (c : Char) : Bool :=
  let n := c.toNat
  (9 ≤ n && n ≤ 13) || n == 0x20 || n == 0x85 || n == 0xA0 || n == 0x1680 ||
    (0x2000 ≤ n && n ≤ 0x200A) || n == 0x2028 || n == 0x2029 || n == 0x202F || n == 0x205F ||
    n == 0x3000

/-- The blanks of data formats: space, tab, carriage return, line feed. -/
def isPlainBlank (c : Char) : Bool := c == ' ' || c == '\t' || c == '\r' || c == '\n'

namespace Text

/-- The text without the plain blanks at its start. -/
def skipBlanks (t : Text) : Text := t.dropWhile isPlainBlank

/-- Removes the longest run of elements with `p` at the end. -/
def dropWhileEnd {α : Type} (p : α → Bool) (l : List α) : List α := (l.reverse.dropWhile p).reverse

/-- Removes the longest runs of characters with `p` at both ends. -/
def trimBy (p : Char → Bool) (t : Text) : Text := dropWhileEnd p (t.dropWhile p)

/-- Removes white space at the start. -/
def trimStart (t : Text) : Text := t.dropWhile isBlank

/-- Removes white space at the end. -/
def trimEnd (t : Text) : Text := dropWhileEnd isBlank t

/-- Removes white space at both ends. -/
def trim (t : Text) : Text := trimBy isBlank t

/-- The text without its white space. -/
def compact (t : Text) : Text := t.filter fun c => !isBlank c

/-! ### Lemmas -/

variable {α : Type} {p : α → Bool}

theorem dropWhileEnd_append_of_all {s : List α} (h : ∀ c ∈ s, p c = true) (t : List α) :
    dropWhileEnd p (t ++ s) = dropWhileEnd p t := by
  have hs : ∀ c ∈ s.reverse, p c = true := fun c hc => h c (List.mem_reverse.1 hc)
  rw [dropWhileEnd, dropWhileEnd, List.reverse_append, List.dropWhile_append_of_pos hs]

theorem dropWhileEnd_eq_self {t : List α} {c : α} (h : p c = false) :
    dropWhileEnd p (t ++ [c]) = t ++ [c] := by
  simp [dropWhileEnd, h]

theorem trim_eq (t : Text) : trim t = trimEnd (trimStart t) := rfl

end Text

end MinedRules
