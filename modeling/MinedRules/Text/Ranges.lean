/-!
# Classes of characters as ranges

A class is a list of ranges of code points in ascending order.

* `Ranges.contains_iff` : for ranges in ascending order, `contains` is membership in one of them.
-/

namespace MinedRules

/-- First and last code points of ranges, in ascending order. -/
abbrev Ranges := List (Nat × Nat)

namespace Ranges

/-- Is the code point in one of the ranges?  The search stops at the first range that begins after
it. -/
def contains : Ranges → Nat → Bool
  | [], _ => false
  | (first, last) :: rest, n =>
    if n < first then false else if n ≤ last then true else contains rest n

/-- Every range ends before the next one begins. -/
def Ascending : Ranges → Prop := List.Pairwise fun a b => a.1 ≤ a.2 ∧ a.2 < b.1

theorem contains_iff {r : Ranges} (h : r.Ascending) {n : Nat} :
    r.contains n = true ↔ ∃ p ∈ r, p.1 ≤ n ∧ n ≤ p.2 := by
  induction r with
  | nil => simp [contains]
  | cons p r ih =>
    obtain ⟨h1, h2⟩ := List.pairwise_cons.1 h
    obtain ⟨first, last⟩ := p
    simp only [contains, List.mem_cons, exists_eq_or_imp]
    split
    · next hn =>
      simp only [Bool.false_eq_true, false_iff, not_or, not_exists, not_and]
      exact ⟨fun h3 => by omega, fun q hq h3 => by have := h1 q hq; omega⟩
    · split
      · next hn hn' => exact ⟨fun _ => .inl ⟨by omega, by omega⟩, fun _ => rfl⟩
      · next hn hn' =>
        rw [ih h2]
        exact ⟨.inr, fun h3 => h3.elim (fun h4 => absurd h4.2 hn') id⟩

end Ranges

end MinedRules
