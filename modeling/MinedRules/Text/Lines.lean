import MinedRules.Text.Basic

/-!
# Lines

A line ends with a line feed, or with a carriage return and a line feed.  Text after the last line
feed is a line of its own, unless it is empty.  The definitions work on characters and on bytes.
-/

namespace MinedRules

variable {α : Type} [BEq α]

/-- A line without the carriage return at its end. -/
def dropReturn (return_ : α) (line : List α) : List α :=
  match line.getLast? with
  | some c => if c == return_ then line.dropLast else line
  | none => line

/-- The lines of a list with the given line feed and carriage return. -/
def linesWith (feed return_ : α) (l : List α) : List (List α) :=
  let pieces := l.splitOn feed
  let last := pieces.getLast?.getD []
  pieces.dropLast.map (dropReturn return_) ++ (if last.isEmpty then [] else [last])

/-- The lines of a text. -/
def Text.lines (t : Text) : List Text := linesWith '\n' '\r' t

end MinedRules
