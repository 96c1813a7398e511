import MinedRules.Text.Basic

/-!
# Reading bytes as a text

`decode?` accepts exactly the well-formed UTF-8 byte sequences: no overlong forms, no surrogates and
nothing above U+10FFFF.
-/

namespace MinedRules

namespace Text

/-- The payload of a continuation byte. -/
def continuation? (b : UInt8) : Option Nat :=
  if 0x80 ≤ b ∧ b < 0xC0 then some (b.toNat - 0x80) else none

/-- The character with this code point, if it needs at least `least` to be written and is a scalar
value. -/
def scalar? (least n : Nat) : Option Char :=
  if least ≤ n ∧ n.isValidChar then some (Char.ofNat n) else none

/-- The text that the bytes encode, if they are well-formed. -/
def decode? : List UInt8 → Option Text
  | [] => some []
  | a :: s =>
    if a < 0x80 then (decode? s).map (Char.ofNat a.toNat :: ·)
    else if a < 0xC0 then none
    else match s with
      | [] => none
      | b :: s =>
        if a < 0xE0 then do
          let c ← scalar? 0x80 ((a.toNat - 0xC0) * 0x40 + (← continuation? b))
          return c :: (← decode? s)
        else match s with
          | [] => none
          | c :: s =>
            if a < 0xF0 then do
              let c ← scalar? 0x800
                (((a.toNat - 0xE0) * 0x40 + (← continuation? b)) * 0x40 + (← continuation? c))
              return c :: (← decode? s)
            else match s with
              | [] => none
              | d :: s => do
                let c ← scalar? 0x10000
                  ((((a.toNat - 0xF0) * 0x40 + (← continuation? b)) * 0x40 +
                    (← continuation? c)) * 0x40 + (← continuation? d))
                return c :: (← decode? s)

end Text

end MinedRules
