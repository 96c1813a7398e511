import MinedRules.Text.Sorted

/-!
# Sets of clauses

A `RuleSet` lists its clauses in strictly ascending byte order.  The invariant belongs to the type;
two sets with the same clauses are equal whatever the order in which these were inserted.
-/

namespace MinedRules

/-- A set of clauses, listed in ascending byte order. -/
structure RuleSet where
  clauses : List Text
  ascending : clauses.Pairwise Text.Before

namespace RuleSet

/-- The set without clauses. -/
def empty : RuleSet := ⟨[], .nil⟩

instance : EmptyCollection RuleSet := ⟨empty⟩

instance : Inhabited RuleSet := ⟨empty⟩

instance : DecidableEq RuleSet := fun a b =>
  decidable_of_iff (a.clauses = b.clauses)
    ⟨fun h => by cases a; cases b; cases h; rfl, fun h => h ▸ rfl⟩

/-- Is the clause in the set? -/
def contains (s : RuleSet) (clause : Text) : Bool := s.clauses.contains clause

/-- The set with a clause more, and whether it is new. -/
def insert (s : RuleSet) (clause : Text) : Bool × RuleSet :=
  (!s.contains clause, ⟨Text.insertSorted clause s.clauses,
    Text.pairwise_insertSorted clause s.ascending⟩)

/-- The set of the given clauses. -/
def ofList (clauses : List Text) : RuleSet := clauses.foldl (fun s c => (s.insert c).2) ∅

/-- The number of clauses. -/
def size (s : RuleSet) : Nat := s.clauses.length

/-- Is there no clause? -/
def isEmpty (s : RuleSet) : Bool := s.clauses.isEmpty

/-- The clauses, one a line, without a line end after the last one. -/
def render (s : RuleSet) : Text := List.intercalate ['\n'] s.clauses

end RuleSet

end MinedRules
