import MinedRules.Text.Blank
import MinedRules.Text.Lines
import MinedRules.Text.Word

/-!
# Ground facts

A fact is a line `relation(head, tail).` with three names.  White space may stand between the parts
and nothing is asked of the text after the full stop.

`FactFile.ofText` reads all facts of a text.  Blank lines and lines that begin with `%` or `#` are
comments; any other line is a fact or is listed as skipped, with its number.
-/

namespace MinedRules

/-- A fact: two names in a relation. -/
structure Fact where
  relation : Text
  head : Text
  tail : Text
  deriving DecidableEq, Repr

namespace Fact

/-- The name at the start of a text, and the rest. -/
def name? (t : Text) : Option (Text × Text) :=
  let name := t.takeWhile isWordChar
  if name.isEmpty then none else some (name, t.dropWhile isWordChar)

/-- The text after a mark, which may follow white space. -/
def mark? (mark : Char) (t : Text) : Option Text :=
  match Text.trimStart t with
  | c :: rest => if c = mark then some rest else none
  | [] => none

/-- The fact at the start of a line. -/
def ofLine? (line : Text) : Option Fact := do
  let (relation, t) ← name? line
  let t ← mark? '(' t
  let (head, t) ← name? (Text.trimStart t)
  let t ← mark? ',' t
  let (tail, t) ← name? (Text.trimStart t)
  let t ← mark? ')' t
  let _ ← mark? '.' t
  return ⟨relation, head, tail⟩

end Fact

/-- A line that is neither a fact nor a comment. -/
structure SkippedLine where
  /-- The number of the line; the first line has number 1. -/
  number : Nat
  text : Text
  deriving DecidableEq, Repr

/-- What a text of facts holds. -/
structure FactFile where
  facts : List Fact := []
  skipped : List SkippedLine := []
  deriving DecidableEq, Repr

namespace FactFile

/-- Is a trimmed line blank or a comment? -/
def isComment : Text → Bool
  | [] => true
  | c :: _ => c == '%' || c == '#'

/-- The facts of numbered lines. -/
def ofLines (number : Nat) : List Text → FactFile
  | [] => {}
  | line :: lines =>
    let t := Text.trim line
    let rest := ofLines (number + 1) lines
    if isComment t then rest
    else
      match Fact.ofLine? t with
      | some fact => { rest with facts := fact :: rest.facts }
      | none => { rest with skipped := ⟨number, t⟩ :: rest.skipped }

/-- The facts of a text, in order, and the lines that are none. -/
def ofText (t : Text) : FactFile := ofLines 1 (Text.lines t)

end FactFile

end MinedRules
