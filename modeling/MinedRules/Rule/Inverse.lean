import MinedRules.Rule.Connectives
import MinedRules.Rule.Error

/-!
# Resolving the inverse marker

A literal whose name follows the inverse marker states its relation with the arguments exchanged.
`resolveInverse` cuts the body of a clause at the markers and, in every piece after the first,
exchanges the two arguments of the first argument list (`swapArguments`).
-/

namespace MinedRules

/-- Is the character a parenthesis? -/
def isParen (c : Char) : Bool := c == '(' || c == ')'

/-- A piece of a body with an argument list in it: what precedes the list, the text of the list and
what follows it. -/
structure Application where
  name : Text
  args : Text
  rest : Text
  deriving DecidableEq, Repr

/-- The first argument list of a piece: from the first opening parenthesis to the first closing one,
which has to come later. -/
def Application.ofText? (piece : Text) : Option Application :=
  match piece.dropWhile fun c => !isParen c with
  | '(' :: t =>
    match t.dropWhile (· != ')') with
    | _ :: rest => some ⟨piece.takeWhile fun c => !isParen c, t.takeWhile (· != ')'), rest⟩
    | [] => none
  | _ => none

/-- The piece after a marker with its two arguments exchanged and trimmed. -/
def swapArguments (marker piece : Text) : Except RuleError Text :=
  match Application.ofText? piece with
  | none => .error (.missingArguments marker piece)
  | some a =>
    match a.args.splitOn ',' with
    | [first, second] =>
      .ok (a.name ++ '(' :: Text.trim second ++ ',' :: Text.trim first ++ ')' :: a.rest)
    | parts => .error (.inverseArity marker parts.length a.args)

/-- The pieces after markers, swapped and joined; the first bad piece decides the error. -/
def swapPieces (marker : Text) : List Text → Except RuleError Text
  | [] => .ok []
  | piece :: pieces =>
    match swapArguments marker piece with
    | .error e => .error e
    | .ok swapped =>
      match swapPieces marker pieces with
      | .error e => .error e
      | .ok rest => .ok (swapped ++ rest)

/-- The clause without markers, the arguments of every marked literal exchanged. -/
def resolveInverse (marker clause : Text) : Except RuleError Text :=
  match Text.cut? neck clause with
  | none => .error .missingImplication
  | some (head, body) =>
    let pieces := Text.split marker body
    match swapPieces marker pieces.tail with
    | .error e => .error e
    | .ok swapped =>
      .ok (Text.trimEnd head ++ ' ' :: neck ++ ' ' ::
        Text.trimStart (pieces.headD [] ++ swapped))

end MinedRules
