import MinedRules.Number.Shortest
import MinedRules.Value.Basic

/-!
# Values as compact JSON

A value is written without blanks.  Characters below U+0020 are escaped in strings, all others but
the quote and the backslash stand for themselves.  A floating-point number has the shortest digits
that read back, positionally from `0.00001` up to `10 ^ 16` and with an exponent outside.
-/

namespace MinedRules

namespace Decimal

/-- The least power of ten of a first digit that is written positionally. -/
def leastPositional : Int := -5

/-- The greatest power of ten of a first digit that is written positionally. -/
def greatestPositional : Int := 15

/-- The digits of a number without its trailing zeros. -/
def significant (n : Nat) : Text := (((Nat.toDigits 10 n).reverse.dropWhile (· == '0')).reverse)

/-- A positive decimal as text, positionally with at least one digit after the point or with an
exponent. -/
def render (d : Decimal) : Text :=
  let digits := significant d.digits
  let first : Int := d.exponent + (Nat.toDigits 10 d.digits).length - 1
  if leastPositional ≤ first ∧ first ≤ greatestPositional then
    if first < 0 then ['0', '.'] ++ List.replicate (first.natAbs - 1) '0' ++ digits
    else
      let whole := first.toNat + 1
      let fraction := digits.drop whole
      digits.take whole ++ List.replicate (whole - digits.length) '0' ++
        '.' :: (if fraction.isEmpty then ['0'] else fraction)
  else
    let fraction := digits.drop 1
    digits.take 1 ++ (if fraction.isEmpty then [] else '.' :: fraction) ++
      ['e', if first < 0 then '-' else '+'] ++ Nat.toDigits 10 first.natAbs

end Decimal

namespace Binary64

/-- A number as text. -/
def render (x : Binary64) : Text :=
  (if x.negative then ['-'] else []) ++
    (if x.units = 0 then ['0', '.', '0'] else (shortest x.units).render)

end Binary64

/-- An integer in decimal notation. -/
def renderInt (i : Int) : Text :=
  (if i < 0 then ['-'] else []) ++ Nat.toDigits 10 i.natAbs

namespace Value

/-- The spelling of one character in a JSON string. -/
def escapedChar (c : Char) : Text :=
  if c = '"' then ['\\', '"']
  else if c = '\\' then ['\\', '\\']
  else if c.toNat = 8 then ['\\', 'b']
  else if c.toNat = 12 then ['\\', 'f']
  else if c = '\n' then ['\\', 'n']
  else if c = '\r' then ['\\', 'r']
  else if c = '\t' then ['\\', 't']
  else if c.toNat < 0x20 then
    ['\\', 'u', '0', '0', Nat.digitChar (c.toNat / 16), Nat.digitChar (c.toNat % 16)]
  else [c]

/-- A text as a JSON string. -/
def renderString (t : Text) : Text := '"' :: t.flatMap escapedChar ++ ['"']

mutual

/-- A value as compact JSON. -/
def render : Value → Text
  | null => ['n', 'u', 'l', 'l']
  | bool true => ['t', 'r', 'u', 'e']
  | bool false => ['f', 'a', 'l', 's', 'e']
  | int i => renderInt i
  | float x => x.render
  | string t => renderString t
  | array items => '[' :: List.intercalate [','] (renderItems items) ++ [']']
  | object entries => '\x7b' :: List.intercalate [','] (renderEntries entries) ++ ['\x7d']

/-- The items of an array, each as compact JSON. -/
def renderItems : List Value → List Text
  | [] => []
  | v :: items => render v :: renderItems items

/-- The entries of an object, each as compact JSON. -/
def renderEntries : List (Text × Value) → List Text
  | [] => []
  | (key, v) :: entries => (renderString key ++ ':' :: render v) :: renderEntries entries

end

end Value

end MinedRules
