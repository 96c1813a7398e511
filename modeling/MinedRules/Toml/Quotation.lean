import MinedRules.Text.Digits

/-!
# TOML strings

A basic string stands between double quotes and has escapes, a literal string stands between single
quotes and has none.  Three quotes on each side make a string of several lines: a line end right
after the opening quotes does not count, every other one counts as a line feed, up to two quotes may
stand before the closing ones, and in a basic string a backslash at the end of a line removes all
blanks and line ends up to the next character.
-/

namespace MinedRules

namespace Toml

/-- Blanks within a line. -/
def isSpace (c : Char) : Bool := c == ' ' || c == '\t'

/-- The text without the blanks at its start. -/
def skipSpace (t : Text) : Text := t.dropWhile isSpace

/-- May the character stand in a comment or a string?  Control characters other than the tab may
not. -/
def isTextChar (c : Char) : Bool := c == '\t' || (0x20 ≤ c.toNat && c.toNat != 0x7F)

/-- The text after a line end, if it begins with one. -/
def lineEnd? : Text → Option Text
  | '\n' :: t => some t
  | '\r' :: '\n' :: t => some t
  | _ => none

/-- The text without blanks and line ends at its start. -/
def skipSpaceAndLines : Text → Text
  | [] => []
  | c :: t =>
    if isSpace c ∨ c = '\n' then skipSpaceAndLines t
    else if c = '\r' ∧ t.head? = some '\n' then skipSpaceAndLines t
    else c :: t

namespace Quotation

/-- The character with a code point of exactly `n` hexadecimal digits, and how many characters spell
it with the letter before it. -/
def codePoint? (n : Nat) (t : Text) : Option (Text × Nat) :=
  let digits := (t.take n).takeWhile (isDigitIn 16)
  let value := Text.valueIn 16 digits
  if digits.length = n ∧ value.isValidChar then some ([Char.ofNat value], n + 1) else none

/-- What the text after a backslash stands for, and how many characters spell it. -/
def escape? : Text → Option (Text × Nat)
  | [] => none
  | c :: t =>
    if c = 'b' then some (['\x08'], 1)
    else if c = 't' then some (['\t'], 1)
    else if c = 'n' then some (['\n'], 1)
    else if c = 'f' then some (['\x0c'], 1)
    else if c = 'r' then some (['\r'], 1)
    else if c = '"' ∨ c = '\\' then some ([c], 1)
    else if c = 'u' then codePoint? 4 t
    else if c = 'U' then codePoint? 8 t
    else none

/-- What the text after a backslash stands for in a string of several lines: also a line end, which
is removed with all that follows it up to the next character. -/
def lineEscape? (t : Text) : Option (Text × Nat) :=
  match lineEnd? (skipSpace t) with
  | some rest => some ([], t.length - (skipSpaceAndLines rest).length)
  | none => escape? t

/-- Which escapes a string has. -/
abbrev Escapes := Text → Option (Text × Nat)

/-- The string that ends at the next quote on the line, and the text after it, where the first
`skip` characters still belong to an escape. -/
def lineFrom? (quote : Char) (escapes? : Option Escapes) : Nat → Text → Option (Text × Text)
  | _, [] => none
  | skip + 1, _ :: t => lineFrom? quote escapes? skip t
  | 0, c :: t =>
    if c = quote then some ([], t)
    else
      match escapes?, c with
      | some escape?, '\\' =>
        match escape? t with
        | some (s, n) => (lineFrom? quote escapes? n t).map fun (u, rest) => (s ++ u, rest)
        | none => none
      | _, _ =>
        if isTextChar c then (lineFrom? quote escapes? 0 t).map fun (u, rest) => (c :: u, rest)
        else none

/-- The string that ends at the next three quotes, and the text after it, where the first `skip`
characters are done with. -/
def linesFrom? (quote : Char) (escapes? : Option Escapes) : Nat → Text → Option (Text × Text)
  | _, [] => none
  | skip + 1, _ :: t => linesFrom? quote escapes? skip t
  | 0, c :: t =>
    if c = quote then
      let run := min 5 ((c :: t).takeWhile (· == quote)).length
      if 3 ≤ run then some (List.replicate (run - 3) quote, (c :: t).drop run)
      else (linesFrom? quote escapes? 0 t).map fun (u, rest) => (c :: u, rest)
    else
      match escapes?, c with
      | some escape?, '\\' =>
        match escape? t with
        | some (s, n) => (linesFrom? quote escapes? n t).map fun (u, rest) => (s ++ u, rest)
        | none => none
      | _, '\n' => (linesFrom? quote escapes? 0 t).map fun (u, rest) => ('\n' :: u, rest)
      | _, '\r' =>
        match t with
        | '\n' :: _ => (linesFrom? quote escapes? 1 t).map fun (u, rest) => ('\n' :: u, rest)
        | _ => none
      | _, _ =>
        if isTextChar c then (linesFrom? quote escapes? 0 t).map fun (u, rest) => (c :: u, rest)
        else none

/-- The string of one line after its opening quote, and the text after its closing one. -/
def line? (quote : Char) (t : Text) : Option (Text × Text) :=
  lineFrom? quote (if quote = '"' then some escape? else none) 0 t

/-- The string of several lines after its opening quotes, and the text after its closing ones. -/
def lines? (quote : Char) (t : Text) : Option (Text × Text) :=
  linesFrom? quote (if quote = '"' then some lineEscape? else none) 0 ((lineEnd? t).getD t)

/-- The string after an opening quote, of one line or of several, and the text after it. -/
def read? (quote : Char) (t : Text) : Option (Text × Text) :=
  match t with
  | a :: b :: u => if a = quote ∧ b = quote then lines? quote u else line? quote t
  | _ => line? quote t

end Quotation

end Toml

end MinedRules
