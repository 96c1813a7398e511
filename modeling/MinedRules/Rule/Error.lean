import MinedRules.Text.Basic

/-!
# What can be wrong with a rule
-/

namespace MinedRules

/-- Why a mined rule has no canonical clause.  Positions are byte offsets in the text that the
failing stage was given. -/
inductive RuleError
  /-- A closing parenthesis without an opening one. -/
  | unmatchedClose (position : Nat)
  /-- The outermost opening parenthesis that is never closed. -/
  | unclosedOpen (position : Nat)
  /-- No neck between head and body. -/
  | missingImplication
  /-- A marker without an argument list; `chunk` is the text up to the next marker. -/
  | missingArguments (marker chunk : Text)
  /-- A marker with `found` arguments instead of two. -/
  | inverseArity (marker : Text) (found : Nat) (args : Text)
  /-- A type annotation that is opened and not closed. -/
  | unclosedTypes (start : Nat)
  deriving DecidableEq, Repr

namespace RuleError

/-- The wording of a rule error. -/
def message : RuleError → String
  | unmatchedClose position => s!"unmatched ')' at byte {position}"
  | unclosedOpen position => s!"unclosed '(' at byte {position}"
  | missingImplication => "clause has no ':-' separating head and body"
  | missingArguments marker chunk =>
    s!"marker `{String.ofList marker}` is not followed by an argument list in " ++
      s!"`{String.ofList chunk}`"
  | inverseArity marker found args =>
    s!"marker `{String.ofList marker}` expects exactly two arguments, found {found} in " ++
      s!"`({String.ofList args})`"
  | unclosedTypes start =>
    s!"type annotation opened at byte {start} has no closing '))' after it"

end RuleError

end MinedRules
