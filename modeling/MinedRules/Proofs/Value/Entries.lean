import MinedRules.Proofs.Text.Order
import MinedRules.Value.Basic

/-!
# The entries of an object

Entries stand in ascending order of their keys (`Value.Ascending`), which `Value.insertEntry` keeps.
Then no key stands twice, and the entries are those that `Value.field?` finds (`Value.mem_iff_field?`).
-/

namespace MinedRules

namespace Value

open Text (Before)

/-- Entries in strictly ascending order of their keys. -/
def Ascending (es : List (Text × Value)) : Prop := es.Pairwise fun a b => Before a.1 b.1

/-! ### Insertion -/

theorem field?_insertEntry (key k : Text) (v : Value) (es : List (Text × Value)) :
    field? k (insertEntry key v es) = if key = k then some v else field? k es := by
  induction es with
  | nil => rfl
  | cons e es ih =>
    rw [insertEntry]
    split
    · next hkey =>
      rw [field?, field?, hkey]
      split <;> rfl
    · next hkey =>
      split
      · rw [field?]
      · rw [field?, field?, ih]
        by_cases hk : e.1 = k
        · rw [if_pos hk, if_pos hk, if_neg (hk ▸ hkey)]
        · rw [if_neg hk, if_neg hk]

theorem mem_insertEntry {key : Text} {v : Value} {e : Text × Value} {es : List (Text × Value)}
    (h : e ∈ insertEntry key v es) : e = (key, v) ∨ e ∈ es := by
  induction es with
  | nil => exact .inl (List.mem_singleton.1 h)
  | cons d es ih =>
    rw [insertEntry] at h
    split at h
    · rcases List.mem_cons.1 h with rfl | h
      · exact .inl rfl
      · exact .inr (List.mem_cons_of_mem _ h)
    · split at h
      · exact List.mem_cons.1 h
      · rcases List.mem_cons.1 h with rfl | h
        · exact .inr List.mem_cons_self
        · exact (ih h).imp_right (List.mem_cons_of_mem _)

theorem Ascending.insertEntry {es : List (Text × Value)} (h : Ascending es) (key : Text)
    (v : Value) : Ascending (insertEntry key v es) := by
  induction es with
  | nil => exact List.pairwise_singleton _ _
  | cons d es ih =>
    obtain ⟨h1, h2⟩ := List.pairwise_cons.1 h
    rw [Value.insertEntry]
    split
    · next hkey => exact List.pairwise_cons.2 ⟨fun e he => hkey ▸ h1 e he, h2⟩
    · next hkey =>
      split
      · next hbefore =>
        refine List.pairwise_cons.2 ⟨fun e he => ?_, h⟩
        rcases List.mem_cons.1 he with rfl | he
        · exact hbefore
        · exact hbefore.trans (h1 e he)
      · next hbefore =>
        refine List.pairwise_cons.2 ⟨fun e he => ?_, ih h2⟩
        rcases mem_insertEntry he with rfl | he
        · exact (Text.before_or_before hkey).resolve_left hbefore
        · exact h1 e he

/-! ### Entries and what is found in them -/

theorem mem_of_field? {k : Text} {v : Value} {es : List (Text × Value)}
    (h : field? k es = some v) : (k, v) ∈ es := by
  induction es with
  | nil => simp [field?] at h
  | cons e es ih =>
    rw [field?] at h
    split at h
    · next hkey =>
      obtain rfl := Option.some.inj h
      exact hkey ▸ List.mem_cons_self
    · exact List.mem_cons_of_mem _ (ih h)

/-- **What stands among the entries is what is found of its key.** -/
theorem mem_iff_field? {k : Text} {v : Value} {es : List (Text × Value)} (hes : Ascending es) :
    (k, v) ∈ es ↔ field? k es = some v := by
  refine ⟨fun h => ?_, mem_of_field?⟩
  induction es with
  | nil => simp at h
  | cons e es ih =>
    obtain ⟨h1, h2⟩ := List.pairwise_cons.1 hes
    rcases List.mem_cons.1 h with rfl | h
    · rw [field?, if_pos rfl]
    · rw [field?, if_neg (h1 _ h).ne]
      exact ih h2 h

end Value

end MinedRules
