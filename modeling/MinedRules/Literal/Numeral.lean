import MinedRules.Text.Digits
import MinedRules.Value.Basic

/-!
# Numerals

A numeral is a sign, digits, and optionally a point with digits after it and an exponent:
`[+-]digits[.[digits]][(e|E)[+-]digits]`.  Reading takes the longest numeral at the start of a text.
-/

namespace MinedRules

/-- The parts of a numeral. -/
structure Numeral where
  negative : Bool
  /-- The digits before the point. -/
  whole : Text
  /-- The digits after the point, if there is one. -/
  fraction : Option Text
  /-- The power of ten, if there is one. -/
  exponent : Option Int
  deriving DecidableEq, Repr

namespace Numeral

/-- A point and the digits after it, if the text begins with a point. -/
def readFraction : Text → Option Text × Text
  | '.' :: t => let (digits, rest) := Text.spanDigits 10 t; (some digits, rest)
  | t => (none, t)

/-- An exponent, if the text begins with a whole one. -/
def readExponent (t : Text) : Option Int × Text :=
  match t with
  | c :: u =>
    if c = 'e' ∨ c = 'E' then
      let (negative, u) := Text.spanSign u
      let (digits, rest) := Text.spanDigits 10 u
      if digits.isEmpty then (none, t)
      else
        let n : Int := Text.valueIn 10 digits
        (some (if negative then -n else n), rest)
    else (none, t)
  | [] => (none, t)

/-- The longest numeral at the start of a text, and the rest. -/
def read? (t : Text) : Option (Numeral × Text) :=
  let (negative, t) := Text.spanSign t
  let (whole, t) := Text.spanDigits 10 t
  if whole.isEmpty then none
  else
    let (fraction, t) := readFraction t
    let (exponent, t) := readExponent t
    some (⟨negative, whole, fraction, exponent⟩, t)

/-- The integer that a numeral without fraction and exponent spells, if it fits in 64 bits. -/
def int? (n : Numeral) : Option Int :=
  if n.fraction.isSome || n.exponent.isSome then none
  else
    let magnitude := Text.valueIn 10 n.whole
    if n.negative then if magnitude ≤ Nat.pow 2 63 then some (-(magnitude : Int)) else none
    else if magnitude < Nat.pow 2 63 then some (magnitude : Int) else none

/-- The nearest floating-point number, if there is one. -/
def float? (n : Numeral) : Option Binary64 :=
  let fraction := n.fraction.getD []
  Binary64.ofDecimal? n.negative (Text.valueIn 10 (n.whole ++ fraction))
    (n.exponent.getD 0 - fraction.length)

/-- The value of a numeral: an integer where that is exact, else a floating-point number. -/
def value? (n : Numeral) : Option Value :=
  match n.int? with
  | some i => some (.int i)
  | none => n.float?.map .float

end Numeral

end MinedRules
