import MinedRules.Rule.Stripping
import MinedRules.Rule.Inverse
import MinedRules.Rule.Variables

/-!
# The canonical clause of a rule

`Canonicalizer.canonicalize` takes a mined rule through all stages: operators for symbols, variables
for arguments, resolved markers and, if asked for, no type annotations.  A rule without a body is a
fact and has no clause.
-/

namespace MinedRules

/-- How rules are read: the symbols, the inverse marker, and whether annotations are removed. -/
structure Canonicalizer where
  connectives : Connectives := {}
  marker : Text := ['I', 'N', 'V']
  stripsTypes : Bool := false
  deriving DecidableEq, Repr

namespace Canonicalizer

/-- The clause without its annotation and with a regular ending. -/
def strip (clause : Text) : Except RuleError Text :=
  match stripTypes clause with
  | .ok stripped => .ok (terminateClause stripped)
  | .error e => .error e

/-- The canonical clause of a rule, or nothing for a fact. -/
def canonicalize (k : Canonicalizer) (rule : Text) : Except RuleError (Option Text) :=
  match markVariables (k.connectives.toClause rule) with
  | .error e => .error e
  | .ok marked =>
    if isFact marked then .ok none
    else
      match resolveInverse k.marker marked with
      | .error e => .error e
      | .ok resolved => if k.stripsTypes then (strip resolved).map some else .ok (some resolved)

end Canonicalizer

end MinedRules
