import Std.Data.HashMap
import MinedRules.Text.Basic

/-!
# Dictionaries

A `Dictionary` numbers names from zero in the order of their first occurrence.  It keeps the names
in an array and the numbers in a hash map; that both say the same belongs to the type.
-/

namespace MinedRules

/-- The hash of a text mixes the code points of its characters. -/
instance : Hashable Text := ⟨fun t => t.foldl (fun h c => mixHash h c.val.toUInt64) 7⟩

/-- Names with their numbers. -/
structure Dictionary where
  names : Array Text
  index : Std.HashMap Text Nat
  index_eq : ∀ (name : Text) (id : Nat), index[name]? = some id ↔ names[id]? = some name

namespace Dictionary

/-- The dictionary without names. -/
def empty : Dictionary := ⟨#[], ∅, by simp⟩

instance : EmptyCollection Dictionary := ⟨empty⟩

instance : Inhabited Dictionary := ⟨empty⟩

/-- The number of a name. -/
def id? (d : Dictionary) (name : Text) : Option Nat := d.index[name]?

theorem not_mem_names {d : Dictionary} {name : Text} (h : d.index[name]? = none) (id : Nat) :
    d.names[id]? ≠ some name := fun h' => by
  rw [← d.index_eq, h] at h'
  exact absurd h' (by simp)

/-- The number of a name, and the dictionary that has it; a new name gets the next number. -/
def intern (d : Dictionary) (name : Text) : Nat × Dictionary :=
  match h : d.index[name]? with
  | some id => (id, d)
  | none =>
    (d.names.size,
      { names := d.names.push name
        index := d.index.insert name d.names.size
        index_eq := fun n id => by
          have hn := not_mem_names h
          have := d.index_eq n id
          grind })

/-- The number of names. -/
def size (d : Dictionary) : Nat := d.names.size

/-- Is there no name? -/
def isEmpty (d : Dictionary) : Bool := d.names.isEmpty

/-- The names in order. -/
def toList (d : Dictionary) : List Text := d.names.toList

/-- Numbers and names in order. -/
def entries (d : Dictionary) : List (Nat × Text) := d.toList.zipIdx.map fun (name, id) => (id, name)

end Dictionary

end MinedRules
