/-!
# Binary floating-point numbers of 64 bits

Every finite number of the format is a multiple of its least positive number, `2 ^ -1074`.  A
`Binary64` is a sign and the count of these units; rounding a fraction means choosing the nearest
count that has at most 53 significant bits, a tie going to the even one.
-/

namespace MinedRules

/-- A finite number of the format: a sign and a count of units of `2 ^ -1074`. -/
structure Binary64 where
  negative : Bool
  units : Nat
  deriving DecidableEq, Repr

namespace Binary64

/-- The number of bits of a significand. -/
def precision : Nat := 53

/-- The units of one: the least positive number is `2 ^ -1074`. -/
def unitsOfOne : Nat := Nat.pow 2 1074

/-- The first count of units that is too large: `2 ^ 1024`. -/
def limit : Nat := Nat.pow 2 2098

/-- The number of binary digits. -/
def bitLength (n : Nat) : Nat := if n = 0 then 0 else n.log2 + 1

/-- The distance of a count of units to the next larger one. -/
def gap (units : Nat) : Nat := Nat.pow 2 (bitLength units - precision)

/-- The quotient rounded to the nearest integer, a tie going to the even one. -/
def roundDiv (num den : Nat) : Nat :=
  let q := num / den
  let r := num % den
  if 2 * r < den then q
  else if den < 2 * r then q + 1
  else if q % 2 = 0 then q else q + 1

/-- The count of units nearest to a quotient. -/
def roundUnits (num den : Nat) : Nat :=
  let step := gap (num / den)
  roundDiv num (den * step) * step

/-- The number nearest to `num / den` units, if it is not too large for the format. -/
def ofRatio? (negative : Bool) (num den : Nat) : Option Binary64 :=
  let units := roundUnits num den
  if units < limit then some ⟨negative, units⟩ else none

/-- The number of decimal digits. -/
def decimalLength (n : Nat) : Nat := (Nat.toDigits 10 n).length

/-- The number nearest to `digits * 10 ^ exponent`, if it is not too large for the format.  Numbers
far outside the format are decided by their magnitude. -/
def ofDecimal? (negative : Bool) (digits : Nat) (exponent : Int) : Option Binary64 :=
  if digits = 0 then some ⟨negative, 0⟩
  else
    let magnitude := exponent + decimalLength digits
    if magnitude > 310 then none
    else if magnitude < -330 then some ⟨negative, 0⟩
    else if exponent < 0 then
      ofRatio? negative (digits * unitsOfOne) (Nat.pow 10 exponent.natAbs)
    else ofRatio? negative (digits * Nat.pow 10 exponent.toNat * unitsOfOne) 1

end Binary64

end MinedRules
