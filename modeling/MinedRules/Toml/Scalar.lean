import MinedRules.Number.Binary64
import MinedRules.Text.Digits
import MinedRules.Text.Search
import MinedRules.Toml.Table

/-!
# TOML numbers, dates and booleans

A scalar other than a string is a word without blanks, except that a blank may stand between a date
and a time.  Underscores may stand between digits.  Integers have to fit in 64 bits and
floating-point numbers must not be too large.
-/

namespace MinedRules

namespace Toml

/-- The digits of a number of digits of a base, without the underscores between them. -/
def digits? (base : Nat) (t : Text) : Option Text :=
  let groups := t.splitOn '_'
  if groups.all fun g => !g.isEmpty && g.all (isDigitIn base) then some groups.flatten else none

/-- The digits of a decimal integer, which has no leading zero. -/
def wholeDigits? (t : Text) : Option Text :=
  match digits? 10 t with
  | some ('0' :: _ :: _) => none
  | digits => digits

/-- Is the word an integer of 64 bits? -/
def isInteger (word : Text) : Bool :=
  let inBase (base : Nat) (t : Text) :=
    match digits? base t with
    | some digits => Text.valueIn base digits < Nat.pow 2 63
    | none => false
  match word with
  | '0' :: 'x' :: t => inBase 16 t
  | '0' :: 'o' :: t => inBase 8 t
  | '0' :: 'b' :: t => inBase 2 t
  | _ =>
    let (negative, t) := Text.spanSign word
    match wholeDigits? t with
    | some digits =>
      let n := Text.valueIn 10 digits
      if negative then n ≤ Nat.pow 2 63 else n < Nat.pow 2 63
    | none => false

/-- The power of ten of an exponent. -/
def exponent? (t : Text) : Option Int :=
  let (negative, t) := Text.spanSign t
  (digits? 10 t).map fun digits =>
    let n : Int := Text.valueIn 10 digits
    if negative then -n else n

/-- The digits of a mantissa and how many of them stand after the point. -/
def mantissa? (t : Text) : Option (Text × Nat) :=
  match Text.cut? ['.'] t with
  | none => (wholeDigits? t).map fun digits => (digits, 0)
  | some (whole, fraction) => do
    let whole ← wholeDigits? whole
    let fraction ← digits? 10 fraction
    return (whole ++ fraction, fraction.length)

/-- Is the word a floating-point number?  A positive one must not be too large. -/
def isFloat (word : Text) : Bool :=
  let (negative, t) := Text.spanSign word
  if t = ['i', 'n', 'f'] ∨ t = ['n', 'a', 'n'] then true
  else
    let isMark (c : Char) := c == 'e' || c == 'E'
    let mantissa := t.takeWhile fun c => !isMark c
    let parts? : Option ((Text × Nat) × Int) := do
      match t.dropWhile fun c => !isMark c with
      | [] => if mantissa.contains '.' then return (← mantissa? mantissa, 0) else none
      | _ :: exponent => return (← mantissa? mantissa, ← exponent? exponent)
    match parts? with
    | none => false
    | some ((digits, places), exponent) =>
      negative ||
        (Binary64.ofDecimal? negative (Text.valueIn 10 digits) (exponent - places)).isSome

/-! ### Dates and times -/

/-- The number of exactly `n` digits at the start, if it is within bounds, and the rest. -/
def fixed? (n least most : Nat) (t : Text) : Option (Nat × Text) :=
  let digits := t.take n
  let value := Text.valueIn 10 digits
  if digits.length = n ∧ digits.all Char.isDigit ∧ least ≤ value ∧ value ≤ most then
    some (value, t.drop n)
  else none

/-- The text after a given character. -/
def mark? (mark : Char) : Text → Option Text
  | c :: t => if c = mark then some t else none
  | [] => none

/-- The number of days of a month. -/
def daysOf (year month : Nat) : Nat :=
  if month = 2 then
    if year % 4 = 0 ∧ (year % 100 ≠ 0 ∨ year % 400 = 0) then 29 else 28
  else if month = 4 ∨ month = 6 ∨ month = 9 ∨ month = 11 then 30
  else 31

/-- The text after a date. -/
def date? (t : Text) : Option Text := do
  let (year, t) ← fixed? 4 0 9999 t
  let t ← mark? '-' t
  let (month, t) ← fixed? 2 1 12 t
  let t ← mark? '-' t
  let (_, t) ← fixed? 2 1 (daysOf year month) t
  return t

/-- The text after a time of day. -/
def time? (t : Text) : Option Text := do
  let (_, t) ← fixed? 2 0 23 t
  let t ← mark? ':' t
  let (_, t) ← fixed? 2 0 59 t
  let t ← mark? ':' t
  let (_, t) ← fixed? 2 0 60 t
  match t with
  | '.' :: u => if u.head?.any Char.isDigit then return u.dropWhile Char.isDigit else none
  | _ => return t

/-- Is the text an offset from universal time, or empty? -/
def isOffset : Text → Bool
  | [] => true
  | c :: t =>
    if c = 'Z' ∨ c = 'z' then t.isEmpty
    else if c = '+' ∨ c = '-' then
      ((do
        let (_, t) ← fixed? 2 0 23 t
        let t ← mark? ':' t
        let (_, t) ← fixed? 2 0 59 t
        return t) : Option Text) == some []
    else false

/-- Is the text a time with an optional offset? -/
def isOffsetTime (t : Text) : Bool := (time? t).any isOffset

/-- Is the word a date, a time, or a date and a time? -/
def isDatetime (word : Text) : Bool :=
  match date? word with
  | some [] => true
  | some (c :: t) => (c == 'T' || c == 't' || c == ' ') && isOffsetTime t
  | none => time? word == some []

/-! ### Words -/

/-- May the character stand in a scalar? -/
def isWordPart (c : Char) : Bool :=
  c.isAlphanum || c == '+' || c == '-' || c == '_' || c == '.' || c == ':'

/-- The word at the start of a text, and the rest.  A blank that joins a date and a time belongs to
the word. -/
def word (t : Text) : Text × Text :=
  let first := t.takeWhile isWordPart
  match t.dropWhile isWordPart with
  | ' ' :: d :: rest =>
    if date? first == some [] ∧ d.isDigit then
      (first ++ ' ' :: (d :: rest).takeWhile isWordPart, (d :: rest).dropWhile isWordPart)
    else (first, ' ' :: d :: rest)
  | rest => (first, rest)

/-- The item of a scalar, and the text after it. -/
def scalar? (t : Text) : Option (Item × Text) :=
  let (w, rest) := word t
  if w = ['t', 'r', 'u', 'e'] then some (.bool true, rest)
  else if w = ['f', 'a', 'l', 's', 'e'] then some (.bool false, rest)
  else if isDatetime w then some (.datetime, rest)
  else if isFloat w || isInteger w then some (.number, rest)
  else none

end Toml

end MinedRules
