import MinedRules.Text.Container
import MinedRules.Toml.Quotation
import MinedRules.Toml.Scalar
import MinedRules.Toml.Table

/-!
# Reading TOML

`Toml.read?` gives the table of a document, or nothing if the text is not a TOML document.  Values
nest less than `Toml.nestingLimit` deep, and a dotted key has less than that many parts.
-/

namespace MinedRules

namespace Toml

/-- How deep values may nest, and how many parts a key may have. -/
def nestingLimit : Nat := 80

/-! ### Comments and line ends -/

/-- The text after the rest of a line: blanks and a comment. -/
def restOfLine (t : Text) : Text :=
  match skipSpace t with
  | '#' :: u => u.dropWhile isTextChar
  | u => u

/-- The text of the next line, if nothing but a comment stands on this one. -/
def nextLine? (t : Text) : Option Text :=
  match restOfLine t with
  | [] => some []
  | u => lineEnd? u

/-- The text without blanks, comments and line ends at its start; `comment` says that a comment has
begun. -/
def skipTrivia (comment : Bool) : Text → Text
  | [] => []
  | c :: t =>
    if c = '\n' then skipTrivia false t
    else if c = '\r' ∧ t.head? = some '\n' then skipTrivia false t
    else if comment ∧ isTextChar c then skipTrivia true t
    else if comment then c :: t
    else if isSpace c then skipTrivia false t
    else if c = '#' then skipTrivia true t
    else c :: t

/-! ### Keys -/

/-- May the character stand in a key without quotes? -/
def isBareKeyChar (c : Char) : Bool := c.isAlphanum || c == '_' || c == '-'

/-- One part of a key, and the text after it. -/
def keyPart? (t : Text) : Option (Text × Text) :=
  match t with
  | '"' :: u => Quotation.line? '"' u
  | '\'' :: u => Quotation.line? '\'' u
  | _ =>
    let part := t.takeWhile isBareKeyChar
    if part.isEmpty then none else some (part, t.dropWhile isBareKeyChar)

/-- The parts of a key that has at most `fuel` of them, with blanks around them, and the text after
the key. -/
def keyParts? : Nat → Text → Option (List Text × Text)
  | 0, _ => none
  | fuel + 1, t =>
    match keyPart? (skipSpace t) with
    | none => none
    | some (part, rest) =>
      match skipSpace rest with
      | '.' :: u => (keyParts? fuel u).map fun (parts, rest) => (part :: parts, rest)
      | u => some ([part], u)

/-- A key: the tables to pass and the last part, and the text after it. -/
def key? (t : Text) : Option ((List Text × Text) × Text) :=
  match keyParts? (nestingLimit - 1) t with
  | none => none
  | some (parts, rest) => parts.getLast?.map fun last => ((parts.dropLast, last), rest)

/-! ### Values -/

/-- Arrays may run over several lines with comments, and a comma may follow the last item. -/
def arrayStyle : Container.Style := ⟨skipTrivia false, true, false⟩

/-- Tables between braces stand on one line, and every comma separates two entries. -/
def tableStyle : Container.Style := ⟨skipSpace, false, false⟩

/-- A key with its value. -/
def pair? (value? : Text → Option (Item × Text)) (t : Text) :
    Option (((List Text × Text) × Item) × Text) :=
  match key? t with
  | some (key, '=' :: u) => (value? (skipSpace u)).map fun (item, rest) => ((key, item), rest)
  | _ => none

/-- The table of the given pairs. -/
def tableOf? (pairs : List ((List Text × Text) × Item)) : Option Entries :=
  pairs.foldlM (fun es ((path, key), item) => put? path key item es) []

/-- A string or another scalar at the start of a text, and the text after it. -/
def simple? (t : Text) : Option (Item × Text) :=
  match t with
  | [] => none
  | c :: u =>
    if c = '"' ∨ c = '\'' then (Quotation.read? c u).map fun (s, rest) => (.string s, rest)
    else scalar? t

/-- The value at the start of a text, which opens at most `depth` brackets inside each other, and
the text after it. -/
def value? : Nat → Text → Option (Item × Text)
  | 0, t => simple? t
  | depth + 1, t =>
    match t with
    | '[' :: u =>
      (Container.items? arrayStyle (value? depth) ']' u).map fun (items, rest) =>
        (.array items, rest)
    | '\x7b' :: u =>
      match Container.items? tableStyle (pair? (value? depth)) '\x7d' u with
      | none => none
      | some (pairs, rest) => (tableOf? pairs).map fun es => (.table .braces es, rest)
    | t => simple? t

/-! ### Documents -/

/-- The parts of a header up to its closing brackets, and the next line. -/
def header? (close : Text) (t : Text) : Option ((List Text × Text) × Text) :=
  match key? t with
  | none => none
  | some (key, rest) =>
    match close.isPrefixOf? rest with
    | none => none
    | some u => (nextLine? u).map fun next => (key, next)

/-- The table of a document after the lines in `t`, which are at most `fuel`, where `root` is the
table so far and `path` is the header that is in force. -/
def linesFrom? : Nat → List Text → Entries → Text → Option Entries
  | 0, _, _, _ => none
  | fuel + 1, path, root, t =>
    match skipSpace t with
    | [] => some root
    | '[' :: '[' :: u =>
      match header? [']', ']'] u with
      | none => none
      | some ((above, key), next) =>
        match within? (openArrayTable? key) above root with
        | none => none
        | some root => linesFrom? fuel (above ++ [key]) root next
    | '[' :: u =>
      match header? [']'] u with
      | none => none
      | some ((above, key), next) =>
        match within? (openTable? key) above root with
        | none => none
        | some root => linesFrom? fuel (above ++ [key]) root next
    | c :: u =>
      match nextLine? (c :: u) with
      | some next => linesFrom? fuel path root next
      | none =>
        match pair? (value? (nestingLimit - 1)) (c :: u) with
        | none => none
        | some (((above, key), item), rest) =>
          match within? (put? above key item) path root, nextLine? rest with
          | some root, some next => linesFrom? fuel path root next
          | _, _ => none

/-- The table of a document.  A byte-order mark at its start does not count. -/
def read? (t : Text) : Option Entries :=
  let t := match t with
    | '\ufeff' :: u => u
    | _ => t
  linesFrom? (t.length + 1) [] [] t

end Toml

end MinedRules
