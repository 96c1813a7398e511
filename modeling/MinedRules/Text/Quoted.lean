import MinedRules.Text.Printable

/-!
# Quoted texts

Messages show paths, rules and unexpected input between double quotes: a double quote and a
backslash follow a backslash, and a character that is not printable is spelled by a letter or by its
code point in hexadecimal.
-/

namespace MinedRules

namespace Text

/-- The digits of a number in hexadecimal, lower case and without leading zeros. -/
def hex (n : Nat) : List Char := Nat.toDigits 16 n

/-- The spelling of one character inside double quotes. -/
def quotedChar (c : Char) : List Char :=
  if c = '"' then ['\\', '"']
  else if c = '\\' then ['\\', '\\']
  else if c = '\n' then ['\\', 'n']
  else if c = '\r' then ['\\', 'r']
  else if c = '\t' then ['\\', 't']
  else if c.toNat = 0 then ['\\', '0']
  else if isPrintable c then [c]
  else ['\\', 'u', '\x7b'] ++ hex c.toNat ++ ['\x7d']

/-- The text between double quotes, with every character that could be mistaken spelled out. -/
def quoted (t : List Char) : List Char := '"' :: t.flatMap quotedChar ++ ['"']

end Text

end MinedRules
