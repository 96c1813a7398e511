import MinedRules.Text.Basic

/-!
# Texts in byte order

`insertSorted` keeps a list of texts in strictly ascending byte order, so that every text stands in
it once, and `sorted` puts any list into this form.

* `mem_of_mem_insertSorted` : only the given text is new after an insertion.
* `pairwise_insertSorted`, `pairwise_sorted` : insertion keeps the order, and sorting gives it.
-/

namespace MinedRules

namespace Text

/-- Puts a text among texts in ascending order; nothing changes if it is there. -/
def insertSorted (t : Text) : List Text → List Text
  | [] => [t]
  | a :: l =>
    if Before t a then t :: a :: l
    else if Before a t then a :: insertSorted t l
    else a :: l

/-- The texts of a list in ascending order, each of them once. -/
def sorted (l : List Text) : List Text := l.foldr insertSorted []

/-! ### Lemmas -/

theorem Before.trans {a b c : Text} (hab : Before a b) (hbc : Before b c) : Before a c :=
  List.lt_trans (α := UInt8) hab hbc

theorem mem_of_mem_insertSorted {s t : Text} {l : List Text} (h : s ∈ insertSorted t l) :
    s = t ∨ s ∈ l := by
  induction l with
  | nil => simpa [insertSorted] using h
  | cons a l ih => grind [insertSorted]

theorem pairwise_insertSorted (t : Text) {l : List Text} (h : l.Pairwise Before) :
    (insertSorted t l).Pairwise Before := by
  induction l with
  | nil => simp [insertSorted]
  | cons a l ih =>
    obtain ⟨h1, h2⟩ := List.pairwise_cons.1 h
    rw [insertSorted]
    split
    · next ha =>
      refine List.pairwise_cons.2 ⟨fun s hs => ?_, h⟩
      rcases List.mem_cons.1 hs with rfl | hs
      · exact ha
      · exact ha.trans (h1 s hs)
    · split
      · next ha =>
        refine List.pairwise_cons.2 ⟨fun s hs => ?_, ih h2⟩
        rcases mem_of_mem_insertSorted hs with rfl | hs
        · exact ha
        · exact h1 s hs
      · exact h

theorem pairwise_sorted (l : List Text) : (sorted l).Pairwise Before := by
  induction l with
  | nil => exact .nil
  | cons a l ih => exact pairwise_insertSorted a ih

end Text

end MinedRules
