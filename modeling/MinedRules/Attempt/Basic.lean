import MinedRules.Value.Render
import MinedRules.Text.Quoted

/-!
# Attempts and the values they are made of

A record is an object with an entry `rules`, or an array of one element; the entry or element is the
list of the rules.  `Attempt.ofValue` says which attempt a value is, and what is wrong with a value
that is none.
-/

namespace MinedRules

/-- One mining attempt: the rules that it found. -/
structure Attempt where
  rules : List Text
  deriving DecidableEq, Repr

namespace Attempt

/-- What a place in a record is for. -/
inductive Expected
  | attempt
  | rules
  | rule
  deriving DecidableEq, Repr

/-- The wording of an expectation. -/
def Expected.message : Expected → String
  | attempt => "struct Attempt"
  | rules => "a sequence"
  | rule => "a string"

/-- Why a value is not an attempt. -/
inductive Mismatch
  /-- An object without the entry `rules`. -/
  | missingRules
  /-- A value of the wrong kind. -/
  | wrongKind (found : Value) (expected : Expected)
  /-- An array without an element. -/
  | noElement
  /-- An array of more than one element. -/
  | extraElements (count : Nat)
  deriving Repr

/-- How a message names a value of the wrong kind. -/
def describe : Value → String
  | .null => "null"
  | .bool b => s!"boolean `{b}`"
  | .int i => s!"integer `{String.ofList (renderInt i)}`"
  | .float x => s!"floating point `{String.ofList x.render}`"
  | .string t => s!"string {String.ofList (Text.quoted t)}"
  | .array _ => "sequence"
  | .object _ => "map"

/-- The wording of a mismatch. -/
def Mismatch.message : Mismatch → String
  | missingRules => "missing field `rules`"
  | wrongKind found expected =>
    s!"invalid type: {describe found}, expected {expected.message}"
  | noElement => "invalid length 0, expected struct Attempt with 1 element"
  | extraElements count => s!"invalid length {count}, expected fewer elements in array"

/-- The key of the rules in an object. -/
def rulesKey : Text := ['r', 'u', 'l', 'e', 's']

/-- The texts of the elements of a list of rules; the first element that is none is reported. -/
def texts : List Value → Except Mismatch (List Text)
  | [] => .ok []
  | .string t :: values =>
    match texts values with
    | .ok ts => .ok (t :: ts)
    | .error e => .error e
  | v :: _ => .error (.wrongKind v .rule)

/-- The rules that a value lists. -/
def rulesOf : Value → Except Mismatch (List Text)
  | .array items => texts items
  | v => .error (.wrongKind v .rules)

/-- The attempt that a value is. -/
def ofValue : Value → Except Mismatch Attempt
  | .object entries =>
    match Value.field? rulesKey entries with
    | none => .error .missingRules
    | some v => (rulesOf v).map Attempt.mk
  | .array [] => .error .noElement
  | .array (v :: more) =>
    match rulesOf v with
    | .error e => .error e
    | .ok rules => if more.isEmpty then .ok ⟨rules⟩ else .error (.extraElements (more.length + 1))
  | v => .error (.wrongKind v .attempt)

end Attempt

end MinedRules
