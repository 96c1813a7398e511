import MinedRules.Literal.Numeral
import MinedRules.Literal.Quotation
import MinedRules.Text.Container
import MinedRules.Text.Quoted
import MinedRules.Value.Render

/-!
# Reading literals

The literal syntax of record files has lists, tuples, dictionaries, quoted strings, numerals and
three names.  Blanks may stand between all tokens, and one comma may follow the last item (or stand
alone in an empty container).

`Literal.read` reads a whole text.  A text is refused at the start of its value if that is not well
formed, and else where text follows the value.
-/

namespace MinedRules

namespace Literal

/-- Plain blanks do not count, and one comma may follow the last item or stand alone. -/
def style : Container.Style := ⟨Text.skipBlanks, true, true⟩

/-- A key, a colon and a value. -/
def pair? (value? : Text → Option (Value × Text)) (t : Text) :
    Option ((Value × Value) × Text) :=
  match value? t with
  | none => none
  | some (key, rest) =>
    match Text.skipBlanks rest with
    | ':' :: u => (value? (Text.skipBlanks u)).map fun (v, rest) => ((key, v), rest)
    | _ => none

/-- The text of a key: a string is its own, any other value has its compact JSON. -/
def keyText : Value → Text
  | .string t => t
  | v => v.render

/-- The object with the given entries; of several with one key text, the last one counts. -/
def object (entries : List (Value × Value)) : Value :=
  .object (entries.foldl (fun es (key, v) => Value.insertEntry (keyText key) v es) [])

/-- One of the three names. -/
def name? (t : Text) : Option (Value × Text) :=
  match t with
  | 'T' :: 'r' :: 'u' :: 'e' :: rest => some (.bool true, rest)
  | 'F' :: 'a' :: 'l' :: 's' :: 'e' :: rest => some (.bool false, rest)
  | 'N' :: 'o' :: 'n' :: 'e' :: rest => some (.null, rest)
  | _ => none

/-- A number or a name. -/
def atom? (t : Text) : Option (Value × Text) :=
  match Numeral.read? t with
  | some (n, rest) => n.value?.map fun v => (v, rest)
  | none => name? t

/-- A value at the start of a text that nests less than `depth` deep, and the text after it. -/
def value? : Nat → Text → Option (Value × Text)
  | 0, _ => none
  | depth + 1, t =>
    match t with
    | [] => none
    | c :: u =>
      if c = '[' then
        (Container.items? style (value? depth) ']' u).map fun (vs, rest) => (.array vs, rest)
      else if c = '(' then
        (Container.items? style (value? depth) ')' u).map fun (vs, rest) => (.array vs, rest)
      else if c = '\x7b' then
        (Container.items? style (pair? (value? depth)) '\x7d' u).map fun (es, rest) =>
          (object es, rest)
      else if c = '\'' ∨ c = '"' then
        (Quotation.read? c u).map fun (s, rest) => (.string s, rest)
      else atom? t

/-- Where and before what a literal is refused. -/
structure Error where
  /-- The byte offset in the text. -/
  position : Nat
  /-- What stands there. -/
  rest : Text
  deriving DecidableEq, Repr

/-- How much of the unexpected text a message shows. -/
def shownLength : Nat := 20

/-- What was found instead of a literal or of the end. -/
def Error.found (e : Error) : String :=
  if e.rest.isEmpty then "unexpected end of input"
  else s!"unexpected input {String.ofList (Text.quoted (e.rest.take shownLength))}"

/-- The wording of a literal error. -/
def Error.message (e : Error) : String := s!"invalid literal at byte {e.position}: {e.found}"

/-- The error at the start of `rest`, which ends the text `t`. -/
def errorAt (t rest : Text) : Error := ⟨Text.byteLength t - Text.byteLength rest, rest⟩

/-- The value that a whole text spells. -/
def read (t : Text) : Except Error Value :=
  let start := Text.skipBlanks t
  match value? (t.length + 1) start with
  | none => .error (errorAt t start)
  | some (v, rest) =>
    match Text.skipBlanks rest with
    | [] => .ok v
    | rest => .error (errorAt t rest)

end Literal

end MinedRules
