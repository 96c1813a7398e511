import MinedRules.Rule.Error

/-!
# Matching parentheses

`parenPairs` reads a text from left to right with a stack of the parentheses that are open, and
gives the byte offsets of every matched pair in the order of the closing ones.  It fails at the
first closing parenthesis that matches nothing, or else, at the end of the text, for the outermost
parenthesis still open.
-/

namespace MinedRules

/-- The matched pairs of the text that begins at byte offset `position`, inside the parentheses
that `opened` lists, the innermost first. -/
def parenPairsFrom (position : Nat) (opened : List Nat) :
    Text → Except RuleError (List (Nat × Nat))
  | [] =>
    match opened.getLast? with
    | none => .ok []
    | some outermost => .error (.unclosedOpen outermost)
  | c :: t =>
    if c = '(' then parenPairsFrom (position + c.utf8Size) (position :: opened) t
    else if c = ')' then
      match opened with
      | [] => .error (.unmatchedClose position)
      | start :: opened =>
        match parenPairsFrom (position + c.utf8Size) opened t with
        | .ok pairs => .ok ((start, position) :: pairs)
        | .error e => .error e
    else parenPairsFrom (position + c.utf8Size) opened t

/-- The byte offsets of the matched parentheses, in the order of the closing ones. -/
def parenPairs (t : Text) : Except RuleError (List (Nat × Nat)) := parenPairsFrom 0 [] t

end MinedRules
