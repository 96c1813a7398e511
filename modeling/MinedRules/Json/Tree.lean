import MinedRules.Text.Container
import MinedRules.Text.Digits

/-!
# JSON as a tree

`Json.read?` accepts exactly the JSON texts.  The tree keeps what a record can be made of: strings,
arrays and objects; of the other values it only says that there is one.  A string is a list of
characters and of 16-bit units that were spelled as `\u` escapes (`Json.Piece`); it is a text if
these units form characters (`Json.text?`).
-/

namespace MinedRules

namespace Json

/-- A part of a JSON string: a character, or the 16-bit unit of an escape. -/
inductive Piece
  | char (c : Char)
  | unit (n : Nat)
  deriving DecidableEq, Repr

/-- A JSON value; numbers, booleans and null are not told apart. -/
inductive Tree
  | atom
  | string (pieces : List Piece)
  | array (items : List Tree)
  | object (entries : List (List Piece × Tree))
  deriving Repr

/-- The text of a string, if every unit is a character or two of them, a high and a low surrogate,
make one. -/
def text? : List Piece → Option Text
  | [] => some []
  | .char c :: s => (text? s).map (c :: ·)
  | .unit n :: s =>
    if 0xD800 ≤ n ∧ n < 0xDC00 then
      match s with
      | .unit m :: s =>
        if 0xDC00 ≤ m ∧ m < 0xE000 then
          (text? s).map (Char.ofNat (0x10000 + (n - 0xD800) * 0x400 + (m - 0xDC00)) :: ·)
        else none
      | _ => none
    else if 0xDC00 ≤ n ∧ n < 0xE000 then none
    else (text? s).map (Char.ofNat n :: ·)

/-! ### Reading -/

/-- The number that four hexadecimal digits at the start spell. -/
def hex4? (t : Text) : Option Nat :=
  let digits := (t.take 4).takeWhile (isDigitIn 16)
  if digits.length = 4 then some (Text.valueIn 16 digits) else none

/-- The part of a string that the text after a backslash stands for, and how many characters spell
it. -/
def escape? : Text → Option (Piece × Nat)
  | [] => none
  | c :: t =>
    if c = '"' ∨ c = '\\' ∨ c = '/' then some (.char c, 1)
    else if c = 'b' then some (.char '\x08', 1)
    else if c = 'f' then some (.char '\x0c', 1)
    else if c = 'n' then some (.char '\n', 1)
    else if c = 'r' then some (.char '\r', 1)
    else if c = 't' then some (.char '\t', 1)
    else if c = 'u' then (hex4? t).map fun n => (.unit n, 5)
    else none

/-- The string that ends at the next quote, and the text after it, where the first `skip`
characters still belong to an escape. -/
def stringFrom? : Nat → Text → Option (List Piece × Text)
  | _, [] => none
  | skip + 1, _ :: t => stringFrom? skip t
  | 0, c :: t =>
    if c = '"' then some ([], t)
    else if c = '\\' then
      match escape? t with
      | some (p, n) => (stringFrom? n t).map fun (s, rest) => (p :: s, rest)
      | none => none
    else if c.toNat < 0x20 then none
    else (stringFrom? 0 t).map fun (s, rest) => (.char c :: s, rest)

/-- The text after the digits at the start, of which there has to be one. -/
def skipDigits? : Text → Option Text
  | c :: t => if c.isDigit then some (t.dropWhile Char.isDigit) else none
  | [] => none

/-- The text after the digits of an integer, which has no leading zero. -/
def skipInteger? : Text → Option Text
  | '0' :: c :: t => if c.isDigit then none else some (c :: t)
  | t => skipDigits? t

/-- The text after an optional fraction. -/
def skipFraction? : Text → Option Text
  | '.' :: t => skipDigits? t
  | t => some t

/-- The text after an optional exponent. -/
def skipExponent? : Text → Option Text
  | [] => some []
  | c :: t =>
    if c = 'e' ∨ c = 'E' then
      match t with
      | '+' :: t => skipDigits? t
      | '-' :: t => skipDigits? t
      | t => skipDigits? t
    else some (c :: t)

/-- The text after a number. -/
def skipNumber? (t : Text) : Option Text :=
  let unsigned := match t with
    | '-' :: t => t
    | t => t
  ((skipInteger? unsigned).bind skipFraction?).bind skipExponent?

/-- The text after a number or one of the names. -/
def skipAtom? : Text → Option Text
  | 't' :: 'r' :: 'u' :: 'e' :: rest => some rest
  | 'f' :: 'a' :: 'l' :: 's' :: 'e' :: rest => some rest
  | 'n' :: 'u' :: 'l' :: 'l' :: rest => some rest
  | t => skipNumber? t

/-- Plain blanks do not count, and every comma separates two items. -/
def style : Container.Style := ⟨Text.skipBlanks, false, false⟩

/-- A key, a colon and a value. -/
def pair? (value? : Text → Option (Tree × Text)) (t : Text) :
    Option ((List Piece × Tree) × Text) :=
  match t with
  | '"' :: t =>
    match stringFrom? 0 t with
    | none => none
    | some (key, rest) =>
      match Text.skipBlanks rest with
      | ':' :: u => (value? (Text.skipBlanks u)).map fun (v, rest) => ((key, v), rest)
      | _ => none
  | _ => none

/-- A value at the start of a text that nests less than `depth` deep, and the text after it. -/
def value? : Nat → Text → Option (Tree × Text)
  | 0, _ => none
  | depth + 1, t =>
    match t with
    | [] => none
    | c :: u =>
      if c = '[' then
        (Container.items? style (value? depth) ']' u).map fun (vs, rest) => (.array vs, rest)
      else if c = '\x7b' then
        (Container.items? style (pair? (value? depth)) '\x7d' u).map fun (es, rest) =>
          (.object es, rest)
      else if c = '"' then (stringFrom? 0 u).map fun (s, rest) => (.string s, rest)
      else (skipAtom? t).map fun rest => (.atom, rest)

/-- The tree of a whole text. -/
def read? (t : Text) : Option Tree :=
  match value? (t.length + 1) (Text.skipBlanks t) with
  | none => none
  | some (v, rest) => if (Text.skipBlanks rest).isEmpty then some v else none

end Json

end MinedRules
