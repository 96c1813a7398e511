import MinedRules.Attempt.Basic
import MinedRules.Json.Tree
import MinedRules.Literal.Reader

/-!
# Decoding a record line

A line that is a record in JSON is taken as such.  Any other line is read in the literal syntax,
without the white space around it, and only that reading is reported when it fails.
-/

namespace MinedRules

namespace Attempt

/-- The text of a JSON string. -/
def ruleOfTree? : Json.Tree → Option Text
  | .string pieces => Json.text? pieces
  | _ => none

/-- The rules that a JSON array lists. -/
def rulesOfTree? : Json.Tree → Option (List Text)
  | .array items => items.mapM ruleOfTree?
  | _ => none

/-- The keys of a JSON object as texts, with their values. -/
def keyed? (entries : List (List Json.Piece × Json.Tree)) : Option (List (Text × Json.Tree)) :=
  entries.mapM fun (key, v) => (Json.text? key).map fun k => (k, v)

/-- The attempt that a JSON value is.  An object has the key `rules` once. -/
def ofTree? : Json.Tree → Option Attempt
  | .object entries =>
    match keyed? entries with
    | none => none
    | some entries =>
      match entries.filter fun e => e.1 == rulesKey with
      | [(_, v)] => (rulesOfTree? v).map Attempt.mk
      | _ => none
  | .array [v] => (rulesOfTree? v).map Attempt.mk
  | _ => none

/-- Why a line is not a record. -/
inductive DecodeError
  /-- It is not a literal. -/
  | literal (e : Literal.Error)
  /-- It is a literal, but not an attempt. -/
  | mismatch (e : Mismatch)
  deriving Repr

/-- The attempt that a record line describes. -/
def decode (line : Text) : Except DecodeError Attempt :=
  match (Json.read? line).bind ofTree? with
  | some attempt => .ok attempt
  | none =>
    match Literal.read (Text.trim line) with
    | .error e => .error (.literal e)
    | .ok v =>
      match ofValue v with
      | .error e => .error (.mismatch e)
      | .ok attempt => .ok attempt

end Attempt

end MinedRules
