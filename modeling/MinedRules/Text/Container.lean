import MinedRules.Text.Blank

/-!
# Items between brackets

Data formats write a container as items between an opening and a closing character, with commas
between them and something that does not count, such as blanks, around everything.  They differ in
where a comma may stand that separates nothing (`Container.Style`).

The readers begin after the opening character, read items with a reader of their own, and give the
items and the text after the closing character.
-/

namespace MinedRules

namespace Container

/-- How a format writes containers. -/
structure Style where
  /-- Removes what does not count from the start of a text. -/
  skip : Text → Text
  /-- May a comma follow the last item? -/
  trailing : Bool
  /-- May a comma stand alone in an empty container? -/
  lone : Bool

variable {α : Type}

/-- What may follow an item: the end of the container, or a comma and one more item.  `fuel` bounds
the number of items. -/
def more? (style : Style) (item? : Text → Option (α × Text)) (close : Char) :
    Nat → Text → Option (List α × Text)
  | 0, _ => none
  | _, [] => none
  | fuel + 1, c :: t =>
    if c = close then some ([], t)
    else if c = ',' then
      match style.skip t with
      | [] => none
      | d :: u =>
        if style.trailing ∧ d = close then some ([], u)
        else
          match item? (d :: u) with
          | none => none
          | some (x, rest) =>
            (more? style item? close fuel (style.skip rest)).map fun (xs, rest) => (x :: xs, rest)
    else none

/-- The items of a container up to its closing character, and the text after that. -/
def items? (style : Style) (item? : Text → Option (α × Text)) (close : Char) (t : Text) :
    Option (List α × Text) :=
  match style.skip t with
  | [] => none
  | c :: u =>
    if c = close then some ([], u)
    else if style.lone ∧ c = ',' then
      match style.skip u with
      | [] => none
      | d :: u => if d = close then some ([], u) else none
    else
      match item? (c :: u) with
      | none => none
      | some (x, rest) =>
        (more? style item? close (rest.length + 1) (style.skip rest)).map fun (xs, rest) =>
          (x :: xs, rest)

end Container

end MinedRules
