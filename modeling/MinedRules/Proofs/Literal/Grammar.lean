import MinedRules.Literal.Reader
import MinedRules.Proofs.Value.Compact

/-!
# The grammar of literals

What a literal looks like and which value it has, without a word about how it is read; only the
floating-point number nearest to a decimal is `Binary64.ofDecimal?`.  A literal is a core between blanks
(`Literal.Padded Literal.Core`); a core is

* a list, a tuple or a dictionary: items with commas between them, and one comma more if one likes
  (`Literal.Contents`);
* a quoted string (`Literal.Body`), a numeral (`Numeral.Spelled`) or one of three names.
-/

namespace MinedRules

/-! ### Numerals -/

namespace Numeral

/-- Decimal digits, at least one. -/
def IsDigits (t : Text) : Prop := t ≠ [] ∧ ∀ c ∈ t, IsDigit 10 c

/-- An optional sign: is it a minus? -/
inductive Sign : Text → Bool → Prop
  | absent : Sign [] false
  | plus : Sign ['+'] false
  | minus : Sign ['-'] true

/-- An optional point with the digits after it, which may be none. -/
inductive Fraction : Text → Option Text → Prop
  | absent : Fraction [] none
  | point {digits : Text} : (∀ c ∈ digits, IsDigit 10 c) → Fraction ('.' :: digits) (some digits)

/-- An optional exponent. -/
inductive Exponent : Text → Option Int → Prop
  | absent : Exponent [] none
  | power {c : Char} {sign digits : Text} {negative : Bool} {n : Nat} : c = 'e' ∨ c = 'E' →
      Sign sign negative → digits ≠ [] → Text.Spells 10 digits n →
      Exponent (c :: (sign ++ digits)) (some (if negative then -(n : Int) else n))

/-- The spelling of a numeral. -/
inductive Spelled : Text → Numeral → Prop
  | intro {sign whole fraction exponent : Text} {negative : Bool} {point : Option Text}
      {power : Option Int} : Sign sign negative → IsDigits whole → Fraction fraction point →
      Exponent exponent power →
      Spelled (sign ++ whole ++ fraction ++ exponent) ⟨negative, whole, point, power⟩

/-- The numeral has neither fraction nor exponent and spells an integer of 64 bits. -/
structure IsInteger (n : Numeral) (i : Int) : Prop where
  fraction : n.fraction = none
  exponent : n.exponent = none
  value : ∃ magnitude, Text.Spells 10 n.whole magnitude ∧
    i = if n.negative then -(magnitude : Int) else magnitude
  bounds : -(Nat.pow 2 63 : Int) ≤ i ∧ i < (Nat.pow 2 63 : Int)

/-- The value of a numeral: that integer if it is one, and else the floating-point number of its
digits, less a power of ten for each of them behind the point. -/
inductive HasValue (n : Numeral) : Value → Prop
  | int {i : Int} : n.IsInteger i → HasValue n (.int i)
  | float {x : Binary64} {digits : Nat} : (∀ i, ¬ n.IsInteger i) →
      Text.Spells 10 (n.whole ++ n.fraction.getD []) digits →
      Binary64.ofDecimal? n.negative digits
        (n.exponent.getD 0 - (n.fraction.getD []).length) = some x →
      HasValue n (.float x)

end Numeral

namespace Literal

/-! ### Strings -/

/-- The letters of escapes and what they stand for. -/
def letters : List (Char × Char) :=
  [('n', '\n'), ('t', '\t'), ('r', '\r'), ('\\', '\\'), ('\'', '\''), ('"', '"')]

/-- The letters before a code point in hexadecimal, and how many digits follow them. -/
def hexLengths : List (Char × Nat) := [('x', 2), ('u', 4), ('U', 8)]

/-- What stands behind a backslash, and the character that it spells; `next` is the character after
it. -/
inductive Escape (next : Option Char) : Text → Char → Prop
  | letter {c d : Char} : (c, d) ∈ letters → Escape next [c] d
  | hex {c : Char} {n : Nat} {digits : Text} {point : Nat} : (c, n) ∈ hexLengths →
      digits.length = n → Text.Spells 16 digits point → point.isValidChar →
      Escape next (c :: digits) (Char.ofNat point)
  /-- One to three octal digits; less than three only if no other one follows. -/
  | octal {digits : Text} {point : Nat} : digits ≠ [] → digits.length ≤ 3 →
      Text.Spells 8 digits point → (digits.length < 3 → ∀ d ∈ next, ¬ IsDigit 8 d) →
      Escape next digits (Char.ofNat point)

/-- The characters between two quotes, and the string that they spell. -/
inductive Body (quote : Char) : Text → Text → Prop
  | nil : Body quote [] []
  | raw {c : Char} {t s : Text} : c ≠ quote → c ≠ '\\' → Body quote t s →
      Body quote (c :: t) (c :: s)
  | escape {c : Char} {e t s : Text} : Escape t.head? e c → Body quote t s →
      Body quote ('\\' :: (e ++ t)) (c :: s)

/-! ### Containers -/

/-- Nothing but blanks. -/
def Blanks (t : Text) : Prop := ∀ c ∈ t, c ∈ [' ', '\t', '\r', '\n']

section Containers

variable {α : Type}

/-- A text between blanks. -/
inductive Padded (R : Text → α → Prop) : Text → α → Prop
  | intro {a t b : Text} {x : α} : Blanks a → R t x → Blanks b → Padded R (a ++ t ++ b) x

/-- One or more items with commas between them. -/
inductive Row (R : Text → α → Prop) : Text → List α → Prop
  | single {t : Text} {x : α} : R t x → Row R t [x]
  | cons {t u : Text} {x : α} {xs : List α} : R t x → Row R u xs → Row R (t ++ ',' :: u) (x :: xs)

/-- At most one comma. -/
inductive Trailer : Text → Prop
  | absent : Trailer []
  | comma {b : Text} : Blanks b → Trailer (',' :: b)

/-- What stands between brackets: items, and at most one comma after them. -/
inductive Contents (R : Text → α → Prop) : Text → List α → Prop
  | empty {a e : Text} : Blanks a → Trailer e → Contents R (a ++ e) []
  | items {t e : Text} {xs : List α} : Row R t xs → Trailer e → Contents R (t ++ e) xs

/-- A key, a colon and a value. -/
inductive Entry (R : Text → α → Prop) : Text → α × α → Prop
  | intro {t u : Text} {k v : α} : R t k → R u v → Entry R (t ++ ':' :: u) (k, v)

end Containers

/-- A key and its text: a string is its own text, and any other value has its compact JSON. -/
inductive KeyText : Value → Text → Prop
  | string {t : Text} : KeyText (.string t) t
  | other {v : Value} {t : Text} : (∀ s, v ≠ .string s) → v.Compact t → KeyText v t

/-- The value stands in the last entry whose key has the given text. -/
def IsLast (key : Text) (entries : List (Value × Value)) (v : Value) : Prop :=
  ∃ before k after, entries = before ++ (k, v) :: after ∧ KeyText k key ∧
    ∀ e ∈ after, ¬ KeyText e.1 key

/-- The fields are those that the entries give, every one once and in ascending order of keys. -/
structure IsObject (entries : List (Value × Value)) (fields : List (Text × Value)) : Prop where
  ascending : fields.Pairwise fun a b => Text.Before a.1 b.1
  mem_iff : ∀ key v, (key, v) ∈ fields ↔ IsLast key entries v

/-! ### Literals -/

/-- A literal without the blanks around it, and its value. -/
inductive Core : Text → Value → Prop
  | list {t : Text} {vs : List Value} : Contents (Padded Core) t vs →
      Core ('[' :: (t ++ [']'])) (.array vs)
  | tuple {t : Text} {vs : List Value} : Contents (Padded Core) t vs →
      Core ('(' :: (t ++ [')'])) (.array vs)
  | dict {t : Text} {es : List (Value × Value)} {fields : List (Text × Value)} :
      Contents (Entry (Padded Core)) t es → IsObject es fields →
      Core ('\x7b' :: (t ++ ['\x7d'])) (.object fields)
  | string {quote : Char} {t s : Text} : quote = '\'' ∨ quote = '"' → Body quote t s →
      Core (quote :: (t ++ [quote])) (.string s)
  | number {t : Text} {n : Numeral} {v : Value} : Numeral.Spelled t n → n.HasValue v → Core t v
  | true : Core ['T', 'r', 'u', 'e'] (.bool Bool.true)
  | false : Core ['F', 'a', 'l', 's', 'e'] (.bool Bool.false)
  | none : Core ['N', 'o', 'n', 'e'] .null

end Literal

end MinedRules
