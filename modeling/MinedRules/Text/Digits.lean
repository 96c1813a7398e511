import MinedRules.Text.Basic

/-!
# Digits and numbers

Only the ASCII digits and letters count as digits.

* `valueIn_append_singleton` : a further digit multiplies by the base and adds its value.
-/

namespace MinedRules

/-- The value of a digit in a base up to sixteen. -/
def digitValue? (base : Nat) (c : Char) : Option Nat :=
  let n := c.toNat
  let value? :=
    if '0'.toNat ≤ n ∧ n ≤ '9'.toNat then some (n - '0'.toNat)
    else if 'a'.toNat ≤ n ∧ n ≤ 'f'.toNat then some (n - 'a'.toNat + 10)
    else if 'A'.toNat ≤ n ∧ n ≤ 'F'.toNat then some (n - 'A'.toNat + 10)
    else none
  value?.filter (· < base)

/-- Is the character a digit in the base? -/
def isDigitIn (base : Nat) (c : Char) : Bool := (digitValue? base c).isSome

namespace Text

/-- The number that digits spell in a base. -/
def valueIn (base : Nat) (digits : Text) : Nat :=
  digits.foldl (fun n c => base * n + (digitValue? base c).getD 0) 0

/-- The longest run of digits of the base at the start, and the rest. -/
def spanDigits (base : Nat) (t : Text) : Text × Text :=
  (t.takeWhile (isDigitIn base), t.dropWhile (isDigitIn base))

/-- An optional sign at the start (is it a minus?), and the rest. -/
def spanSign : Text → Bool × Text
  | '-' :: t => (true, t)
  | '+' :: t => (false, t)
  | t => (false, t)

theorem valueIn_append_singleton (base : Nat) (digits : Text) (c : Char) :
    valueIn base (digits ++ [c]) = base * valueIn base digits + (digitValue? base c).getD 0 := by
  simp [valueIn, List.foldl_append]

end Text

end MinedRules
