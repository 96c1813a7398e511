import MinedRules.Dataset.Dictionary
import MinedRules.Fact

/-!
# Datasets for relational learning

A `Dataset` numbers the entities and the relations of a list of facts and states every fact as a
triple of entity number, relation and entity number.  It is written as three files: one line for
each numbered entity, one for each numbered relation, and one for each triple, with tabs between the
fields.
-/

namespace MinedRules

/-- A fact with its entities as numbers. -/
structure Triple where
  head : Nat
  relation : Text
  tail : Nat
  deriving DecidableEq, Repr

/-- Facts with the numbers of their entities and relations. -/
structure Dataset where
  entities : Dictionary
  relations : Dictionary
  facts : List Fact

namespace Dataset

/-- The dictionary with the entities of a fact, the head first. -/
def internEntities (d : Dictionary) (f : Fact) : Dictionary :=
  ((d.intern f.head).2.intern f.tail).2

/-- The dictionary with the relation of a fact. -/
def internRelation (d : Dictionary) (f : Fact) : Dictionary := (d.intern f.relation).2

/-- The dataset of a list of facts: entities and relations in the order of their first
occurrence. -/
def ofFacts (facts : List Fact) : Dataset where
  entities := facts.foldl internEntities ∅
  relations := facts.foldl internRelation ∅
  facts := facts

/-- The triple of a fact, if both entities have numbers. -/
def triple? (d : Dataset) (f : Fact) : Option Triple :=
  match d.entities.id? f.head, d.entities.id? f.tail with
  | some head, some tail => some ⟨head, f.relation, tail⟩
  | _, _ => none

/-- The triples of the facts, in order. -/
def triples (d : Dataset) : List Triple := d.facts.filterMap d.triple?

/-! ### Files -/

/-- A number in decimal notation. -/
def number (n : Nat) : Text := Nat.toDigits 10 n

/-- The file of a dictionary: a line with number and name for every name. -/
def dictionaryFile (d : Dictionary) : Text :=
  d.entries.flatMap fun (id, name) => number id ++ '\t' :: name ++ ['\n']

/-- The file of the triples: a line with head, relation and tail for every triple. -/
def triplesFile (triples : List Triple) : Text :=
  triples.flatMap fun t =>
    number t.head ++ '\t' :: t.relation ++ '\t' :: number t.tail ++ ['\n']

end Dataset

end MinedRules
