import MinedRules.Number.Binary64
import MinedRules.Text.Basic

/-!
# Data values

A `Value` is what a record file can hold.  The entries of an object stand in ascending byte order of
their keys, each key once (`Value.insertEntry`).
-/

namespace MinedRules

/-- A value of a record file. -/
inductive Value
  | null
  | bool (b : Bool)
  | int (i : Int)
  | float (x : Binary64)
  | string (t : Text)
  | array (items : List Value)
  | object (entries : List (Text × Value))
  deriving Repr

namespace Value

/-- Puts an entry among entries in ascending order of keys; an entry with the same key is
replaced. -/
def insertEntry (key : Text) (value : Value) : List (Text × Value) → List (Text × Value)
  | [] => [(key, value)]
  | (k, v) :: entries =>
    if key = k then (key, value) :: entries
    else if Text.Before key k then (key, value) :: (k, v) :: entries
    else (k, v) :: insertEntry key value entries

/-- The entry of an object with the given key. -/
def field? (key : Text) : List (Text × Value) → Option Value
  | [] => none
  | (k, v) :: entries => if k = key then some v else field? key entries

end Value

end MinedRules
