import MinedRules.Rule.Error
import MinedRules.Text.Blank
import MinedRules.Text.Search

/-!
# Type annotations

Auxiliary terms carry their type in doubled parentheses.  `stripTypes` removes everything from the
first `((` through the last `))`, and `terminateClause` makes the ending of a clause regular again.
-/

namespace MinedRules

/-- The clause without its annotation. -/
def stripTypes (clause : Text) : Except RuleError Text :=
  match Text.cut? ['(', '('] clause with
  | none => .ok clause
  | some (front, inside) =>
    match Text.cutLast? [')', ')'] inside with
    | some (_, back) => .ok (front ++ back)
    | none => .error (.unclosedTypes (Text.byteLength front))

/-- The text without blanks, full stops and commas around it, followed by one full stop. -/
def terminateClause (t : Text) : Text :=
  Text.trim (Text.trimBy (· == ',') (Text.trim (Text.trimBy (· == '.') (Text.trim t)))) ++ ['.']

end MinedRules
