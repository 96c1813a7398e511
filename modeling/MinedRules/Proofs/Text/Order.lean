import MinedRules.Text.Sorted
import Mathlib.Data.List.Sort

/-!
# The order of texts

The order of texts by bytes is total, since the encoding is injective (`Text.before_or_before`), and
it is strict.  So a list of entries in the order of their keys is determined by its members
(`Text.eq_of_pairwise_before`), an insertion into a list in this order adds the text, whether it comes
before or after the others (`Text.mem_insertSorted`), and sorting keeps the texts of a list
(`Text.mem_sorted`).
-/

namespace MinedRules

namespace Text

variable {s t : Text} {l : List Text}

theorem encode_injective {a b : Text} (h : encode a = encode b) : a = b := by
  have hbytes : a.utf8Encode = b.utf8Encode := congrArg List.toByteArray h
  refine String.ofList_injective ?_
  simp only [String.ofList, hbytes]

theorem before_irrefl (a : Text) : ¬ Before a a := List.lt_irrefl (α := UInt8) _

theorem Before.ne {a b : Text} (h : Before a b) : a ≠ b := by
  rintro rfl
  exact before_irrefl a h

theorem before_or_before {a b : Text} (h : a ≠ b) : Before a b ∨ Before b a := by
  by_cases hab : Before a b
  · exact .inl hab
  · by_cases hba : Before b a
    · exact .inr hba
    · exact absurd (encode_injective (List.le_antisymm (α := UInt8) hba hab)) h

instance : Std.Irrefl Before := ⟨before_irrefl⟩

instance : Std.Antisymm Before := ⟨fun a _ hab hba => absurd (hab.trans hba) (before_irrefl a)⟩

/-- **Two lists of entries in ascending order of their keys are equal if they have the same ones.** -/
theorem eq_of_pairwise_before {α : Type} {es ds : List (Text × α)}
    (hes : es.Pairwise fun a b => Before a.1 b.1) (hds : ds.Pairwise fun a b => Before a.1 b.1)
    (h : ∀ e, e ∈ es ↔ e ∈ ds) : es = ds := by
  have hirrefl : Std.Irrefl fun a b : Text × α => Before a.1 b.1 := ⟨fun a => before_irrefl a.1⟩
  have hantisymm : Std.Antisymm fun a b : Text × α => Before a.1 b.1 :=
    ⟨fun a _ hab hba => absurd (hab.trans hba) (before_irrefl a.1)⟩
  exact hes.eq_of_mem_iff hds h

/-! ### Insertion and sorting -/

theorem mem_insertSorted : s ∈ insertSorted t l ↔ s = t ∨ s ∈ l := by
  induction l with
  | nil => simp [insertSorted]
  | cons a l ih =>
    rw [insertSorted]
    split
    · simp
    · next hta =>
      split
      · rw [List.mem_cons, ih, List.mem_cons]
        exact or_left_comm
      · next hat =>
        -- neither one is before the other, so the text is there already
        have heq : t = a := by
          by_contra hne
          exact (before_or_before hne).elim hta hat
        simp [heq]

theorem mem_sorted : s ∈ sorted l ↔ s ∈ l := by
  induction l with
  | nil => simp [sorted]
  | cons a l ih => rw [sorted, List.foldr_cons, mem_insertSorted, List.mem_cons, ← ih, sorted]

end Text

end MinedRules
