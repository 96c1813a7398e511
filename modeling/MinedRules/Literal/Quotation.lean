import MinedRules.Text.Digits

/-!
# Quoted strings of the literal syntax

A string stands between two single or two double quotes.  A backslash begins an escape: a letter for
a control character, a quote or a backslash for itself, or a code point in hexadecimal (`\x41`,
`\u0041`, `\U00000041`) or octal (`\101`, at most three digits).
-/

namespace MinedRules

namespace Quotation

/-- The longest run of digits at the start, at most `most` of them, if there are at least `least` and
they spell a character; with the number of digits. -/
def codePoint? (base least most : Nat) (t : Text) : Option (Char × Nat) :=
  let digits := (t.take most).takeWhile (isDigitIn base)
  let n := Text.valueIn base digits
  if least ≤ digits.length ∧ n.isValidChar then some (Char.ofNat n, digits.length) else none

/-- The character that the text after a backslash stands for, and how many characters spell it. -/
def escape? : Text → Option (Char × Nat)
  | [] => none
  | c :: t =>
    if c = 'n' then some ('\n', 1)
    else if c = 't' then some ('\t', 1)
    else if c = 'r' then some ('\r', 1)
    else if c = '\\' ∨ c = '\'' ∨ c = '"' then some (c, 1)
    else if c = 'x' then (codePoint? 16 2 2 t).map fun (d, n) => (d, n + 1)
    else if c = 'u' then (codePoint? 16 4 4 t).map fun (d, n) => (d, n + 1)
    else if c = 'U' then (codePoint? 16 8 8 t).map fun (d, n) => (d, n + 1)
    else codePoint? 8 1 3 (c :: t)

/-- The string that ends at the next `quote`, and the text after it, where the first `skip`
characters still belong to an escape. -/
def readFrom? (quote : Char) : Nat → Text → Option (Text × Text)
  | _, [] => none
  | skip + 1, _ :: t => readFrom? quote skip t
  | 0, c :: t =>
    if c = quote then some ([], t)
    else if c = '\\' then
      match escape? t with
      | some (d, n) => (readFrom? quote n t).map fun (s, rest) => (d :: s, rest)
      | none => none
    else (readFrom? quote 0 t).map fun (s, rest) => (c :: s, rest)

/-- The string after an opening `quote`, and the text after its closing one. -/
def read? (quote : Char) (t : Text) : Option (Text × Text) := readFrom? quote 0 t

end Quotation

end MinedRules
