import MinedRules.Text.Blank
import MinedRules.Text.Search

/-!
# From connective symbols to clause operators

A mined rule writes implication, conjunction and disjunction with symbols of the miner's choice.
`Connectives.replace` puts the operators of a clause in their place, one symbol after the other, and
`Connectives.toClause` makes a clause of the result: it drops dangling conjunctions at both ends and
ends with a full stop.  A rule without a body becomes a fact (`isFact`).
-/

namespace MinedRules

/-- The operator between head and body of a clause. -/
def neck : Text := [':', '-']

/-- The symbols with which a miner writes the connectives. -/
structure Connectives where
  implication : Text := ['<', '-']
  conjunction : Text := ['∧']
  disjunction : Text := ['∨']
  deriving DecidableEq, Repr

namespace Connectives

/-- The rule with every implication, then every conjunction, then every disjunction replaced by its
operator. -/
def replace (symbols : Connectives) (rule : Text) : Text :=
  Text.replace symbols.disjunction [';']
    (Text.replace symbols.conjunction [',']
      (Text.replace symbols.implication neck rule))

/-- The rule as a clause: operators for symbols, no blanks or commas around it, and a full stop. -/
def toClause (symbols : Connectives) (rule : Text) : Text :=
  Text.trim (Text.trimBy (· == ',') (Text.trim (symbols.replace rule))) ++ ['.']

end Connectives

/-- Has the clause an empty body?  White space does not count. -/
def isFact (clause : Text) : Bool := (neck ++ ['.']).isSuffixOf (Text.compact clause)

end MinedRules
