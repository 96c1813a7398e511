import MinedRules.Text.Basic

/-!
# TOML tables

A document builds a tree of tables.  What may be added to a table later depends on how it came into
being (`Toml.Origin`): a table between braces is closed, a table with a header of its own may not get
entries from outside, and a table that exists only because a longer header or a dotted key passed
through it may still be defined.

* `Toml.put?` adds an entry with a dotted key,
* `Toml.openTable?` and `Toml.openArrayTable?` enter a header,
* `Toml.within?` changes the table that a header names.
-/

namespace MinedRules

namespace Toml

/-- How a table came into being. -/
inductive Origin
  /-- Written between braces. -/
  | braces
  /-- Opened by a header. -/
  | header
  /-- Passed through by a longer header. -/
  | passing
  /-- Passed through by a dotted key. -/
  | dotted
  deriving DecidableEq, Repr

/-- What a key can stand for.  Numbers are not told apart, and neither are dates and times. -/
inductive Item
  | string (t : Text)
  | bool (b : Bool)
  | number
  | datetime
  | array (items : List Item)
  | table (origin : Origin) (entries : List (Text × Item))
  /-- Tables with one header each; the last one is open. -/
  | tables (elements : List (List (Text × Item)))
  deriving Repr

/-- The entries of a table. -/
abbrev Entries := List (Text × Item)

/-- The item of a key. -/
def find? (key : Text) : Entries → Option Item
  | [] => none
  | (k, item) :: es => if k = key then some item else find? key es

/-- The entries with another item for a key; a new key comes last. -/
def set (key : Text) (item : Item) : Entries → Entries
  | [] => [(key, item)]
  | (k, i) :: es => if k = key then (key, item) :: es else (k, i) :: set key item es

/-- The list with its last element changed. -/
def changeLast? (f : Entries → Option Entries) : List Entries → Option (List Entries)
  | [] => none
  | [es] => (f es).map ([·])
  | es :: more => (changeLast? f more).map (es :: ·)

/-- Adds an entry with a dotted key, given as the tables to pass and the last part.  A table on the
way may only be one that came into being by a dotted key or by passing, and the last one only by a
dotted key. -/
def put? : List Text → Text → Item → Entries → Option Entries
  | [], key, item, es =>
    match find? key es with
    | none => some (set key item es)
    | some _ => none
  | k :: path, key, item, es =>
    match find? k es with
    | none => (put? path key item []).map fun sub => set k (.table .dotted sub) es
    | some (.table origin sub) =>
      if origin = .dotted ∨ (origin = .passing ∧ path ≠ []) then
        (put? path key item sub).map fun sub => set k (.table origin sub) es
      else none
    | some (.tables elements) =>
      if path ≠ [] then
        (changeLast? (put? path key item) elements).map fun elements => set k (.tables elements) es
      else none
    | some _ => none

/-- Changes the table at the end of a path of headers; missing tables come into being by
passing. -/
def within? (f : Entries → Option Entries) : List Text → Entries → Option Entries
  | [], es => f es
  | k :: path, es =>
    match find? k es with
    | none => (within? f path []).map fun sub => set k (.table .passing sub) es
    | some (.table origin sub) =>
      if origin = .braces then none
      else (within? f path sub).map fun sub => set k (.table origin sub) es
    | some (.tables elements) =>
      (changeLast? (within? f path) elements).map fun elements => set k (.tables elements) es
    | some _ => none

/-- Opens a table: it must be new, or have come into being by passing. -/
def openTable? (key : Text) (es : Entries) : Option Entries :=
  match find? key es with
  | none => some (set key (.table .header []) es)
  | some (.table .passing sub) => some (set key (.table .header sub) es)
  | some _ => none

/-- Opens one more element of an array of tables. -/
def openArrayTable? (key : Text) (es : Entries) : Option Entries :=
  match find? key es with
  | none => some (set key (.tables [[]]) es)
  | some (.tables elements) => some (set key (.tables (elements ++ [[]])) es)
  | some _ => none

end Toml

end MinedRules
