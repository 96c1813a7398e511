import MinedRules.Proofs.Text.Order
import MinedRules.RuleSet.Basic
import Mathlib.Data.List.Dedup

/-!
# The members of a rule set

A rule set is determined by its clauses, whatever the order in which they came.

* `RuleSet.ext_mem` : sets with the same clauses are equal.
* `RuleSet.mem_ofList` : the set of a list has the clauses of the list.
* `RuleSet.size_ofList_le`, `RuleSet.size_ofList_eq_iff` : a set is as large as the list that it is
  made of exactly if no clause stands in the list twice.
-/

namespace MinedRules

namespace RuleSet

variable {s s' : RuleSet} {c d : Text} {l l' : List Text}

theorem ext_mem (h : ∀ c, c ∈ s.clauses ↔ c ∈ s'.clauses) : s = s' := by
  obtain ⟨l, hl⟩ := s
  obtain ⟨l', hl'⟩ := s'
  obtain rfl : l = l' := hl.eq_of_mem_iff hl' h
  rfl

theorem nodup_clauses (s : RuleSet) : s.clauses.Nodup := s.ascending.nodup

theorem mem_insert : c ∈ (s.insert d).2.clauses ↔ c = d ∨ c ∈ s.clauses := Text.mem_insertSorted

/-- The set with all clauses of a list more. -/
def insertAll (s : RuleSet) (l : List Text) : RuleSet := l.foldl (fun s c => (s.insert c).2) s

@[simp] theorem insertAll_nil (s : RuleSet) : s.insertAll [] = s := rfl

@[simp] theorem insertAll_cons (s : RuleSet) (c : Text) (l : List Text) :
    s.insertAll (c :: l) = (s.insert c).2.insertAll l := rfl

theorem insertAll_append (s : RuleSet) (l l' : List Text) :
    s.insertAll (l ++ l') = (s.insertAll l).insertAll l' := List.foldl_append

theorem mem_insertAll : c ∈ (s.insertAll l).clauses ↔ c ∈ l ∨ c ∈ s.clauses := by
  induction l generalizing s with
  | nil => simp
  | cons d l ih => rw [insertAll_cons, ih, mem_insert, List.mem_cons, or_left_comm, or_assoc]

/-! ### The set of a list -/

theorem mem_ofList : c ∈ (ofList l).clauses ↔ c ∈ l :=
  mem_insertAll.trans (or_iff_left List.not_mem_nil)

theorem ofList_perm (h : l.Perm l') : ofList l = ofList l' :=
  ext_mem fun c => by rw [mem_ofList, mem_ofList, h.mem_iff]

theorem perm_dedup (l : List Text) : (ofList l).clauses.Perm l.dedup :=
  (List.perm_ext_iff_of_nodup (nodup_clauses _) l.nodup_dedup).2 fun c => by
    rw [mem_ofList, List.mem_dedup]

theorem size_ofList (l : List Text) : (ofList l).size = l.dedup.length := (perm_dedup l).length_eq

theorem size_ofList_le (l : List Text) : (ofList l).size ≤ l.length :=
  size_ofList l ▸ l.dedup_sublist.length_le

theorem size_ofList_eq_iff : (ofList l).size = l.length ↔ l.Nodup := by
  rw [size_ofList, ← List.dedup_eq_self]
  exact ⟨l.dedup_sublist.eq_of_length, congrArg List.length⟩

end RuleSet

end MinedRules
