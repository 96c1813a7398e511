import MinedRules.Rule.Parens
import MinedRules.Text.Uppercase

/-!
# Marking arguments as variables

What stands between parentheses becomes uppercase, span after span in the order in which the spans
are closed.  Since `uppercase` keeps the width of every character, the offsets of the spans stay
right while the text is changed.
-/

namespace MinedRules

/-- The texts before, inside and after the bytes `first` to `last` (both included), if they begin
and end between characters. -/
def Text.span? (first last : Nat) (t : Text) : Option (Text × Text × Text) :=
  match Text.cutAtByte? first t with
  | none => none
  | some (front, rest) =>
    match Text.cutAtByte? (last + 1 - first) rest with
    | none => none
    | some (middle, back) => some (front, middle, back)

/-- The text with the bytes of one span in uppercase. -/
def uppercaseSpan (t : Text) (span : Nat × Nat) : Text :=
  match Text.span? span.1 span.2 t with
  | some (front, middle, back) => front ++ middle.map uppercase ++ back
  | none => t

/-- The text with every parenthesised span in uppercase. -/
def markVariables (t : Text) : Except RuleError Text :=
  match parenPairs t with
  | .ok pairs => .ok (pairs.foldl uppercaseSpan t)
  | .error e => .error e

end MinedRules
