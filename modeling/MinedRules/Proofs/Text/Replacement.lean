import MinedRules.Proofs.Text.Occurrences

/-!
# What replacing leaves of a text

Occurrences are replaced from left to right, so facts about `replace` are proved from one occurrence to
the next (`cut_induction`): a text has no occurrence, or it goes on behind its first one.

* `not_infix_replace_self` : nothing is left to replace, if no occurrence reaches into what is put in
  the place of the others (`Separates`).
* `not_infix_replace` : no other pattern comes into being either.
* `replace_append_pattern`, `replace_append_of_disjoint` : where a text can be taken apart.
* `getLast?_replace`, `filter_replace` : how the text ends, and the characters that stay.
-/

namespace MinedRules

namespace Text

variable {pattern replacement q a b t : Text}

/-! ### The pieces of a text -/

theorem not_infix_of_mem_split (hne : pattern ≠ []) :
    ∀ piece ∈ split pattern t, ¬ pattern <:+: piece := by
  induction t using cut_induction hne with
  | free t h =>
    rw [Text.split_of_not_infix hne h]
    simpa using h
  | occurs a b ha ih =>
    rw [split_append hne ha]
    exact List.forall_mem_cons.2 ⟨ha.not_infix, ih⟩

theorem infix_of_mem_split (hne : pattern ≠ []) : ∀ piece ∈ split pattern t, piece <:+: t := by
  induction t using cut_induction hne with
  | free t h =>
    rw [Text.split_of_not_infix hne h]
    simp
  | occurs a b ha ih =>
    rw [split_append hne ha]
    refine List.forall_mem_cons.2 ⟨?_, fun piece hpiece => ?_⟩
    · rw [List.append_assoc]
      exact (List.prefix_append _ _).isInfix
    · exact (ih piece hpiece).trans (List.suffix_append _ _).isInfix

/-! ### What comes into being -/

/-- The text keeps occurrences of the pattern on one side of it: none reaches into it. -/
def Separates (sep pattern : Text) : Prop :=
  ∀ a b, pattern <:+: a ++ sep ++ b → pattern <:+: a ∨ pattern <:+: b

theorem separates_singleton {c : Char} (hc : c ∉ pattern) : Separates [c] pattern := by
  intro a b h
  rw [List.append_assoc, List.singleton_append] at h
  exact infix_of_infix_append_cons hc h

theorem Separates.infix_intercalate {sep : Text} (hsep : Separates sep pattern)
    (hne : pattern ≠ []) {pieces : List Text} (h : pattern <:+: sep.intercalate pieces) :
    ∃ piece ∈ pieces, pattern <:+: piece := by
  induction pieces with
  | nil => exact absurd (List.infix_nil.1 h) hne
  | cons first pieces ih =>
    cases pieces with
    | nil => exact ⟨first, by simp, by simpa using h⟩
    | cons second pieces =>
      rw [List.intercalate_cons_cons] at h
      rcases hsep _ _ h with h | h
      · exact ⟨first, List.mem_cons_self, h⟩
      · obtain ⟨piece, hpiece, hin⟩ := ih h
        exact ⟨piece, List.mem_cons_of_mem _ hpiece, hin⟩

theorem not_infix_replace_self (hne : pattern ≠ []) (hsep : Separates replacement pattern)
    (t : Text) : ¬ pattern <:+: replace pattern replacement t := by
  intro h
  obtain ⟨piece, hpiece, hin⟩ := hsep.infix_intercalate hne h
  exact not_infix_of_mem_split hne piece hpiece hin

theorem not_infix_replace (hne : pattern ≠ []) (hq : q ≠ []) (hsep : Separates replacement q)
    (h : ¬ q <:+: t) : ¬ q <:+: replace pattern replacement t := by
  intro hin
  obtain ⟨piece, hpiece, hin⟩ := hsep.infix_intercalate hq hin
  exact h (hin.trans (infix_of_mem_split hne piece hpiece))

/-! ### Parts of a text -/

theorem replace_append_pattern {p : Char} {ps : Text} (hp : p ∉ ps) (a b : Text) :
    replace (p :: ps) replacement (a ++ p :: ps ++ b) =
      replace (p :: ps) replacement a ++ replacement ++ replace (p :: ps) replacement b := by
  have hne : p :: ps ≠ [] := List.cons_ne_nil _ _
  induction a using cut_induction hne with
  | free a h => rw [replace_append hne (Text.clear_of_not_infix hp h), replace_of_not_infix hne h]
  | occurs x y hx ih =>
    have htext : x ++ p :: ps ++ y ++ p :: ps ++ b = x ++ p :: ps ++ (y ++ p :: ps ++ b) := by simp
    rw [htext, replace_append hne hx, ih, replace_append hne hx]
    simp only [List.append_assoc]

theorem replace_concat_pattern {p : Char} {ps : Text} (hp : p ∉ ps) (a : Text) :
    replace (p :: ps) replacement (a ++ p :: ps) = replace (p :: ps) replacement a ++ replacement := by
  have hnil : replace (p :: ps) replacement [] = [] := rfl
  rw [← List.append_nil (a ++ p :: ps), replace_append_pattern hp, hnil, List.append_nil]

theorem replace_append_of_disjoint (hne : pattern ≠ []) (h : ∀ c ∈ b, c ∉ pattern) (a : Text) :
    replace pattern replacement (a ++ b) = replace pattern replacement a ++ b := by
  cases b with
  | nil => simp
  | cons c b =>
    have hb : ¬ pattern <:+: b := by
      intro hin
      obtain ⟨p, ps, rfl⟩ := List.exists_cons_of_ne_nil hne
      exact h p (List.mem_cons_of_mem _ (hin.subset List.mem_cons_self)) List.mem_cons_self
    induction a using cut_induction hne with
    | free a ha =>
      have hab : ¬ pattern <:+: a ++ c :: b := by
        intro hin
        rcases infix_of_infix_append_cons (h c List.mem_cons_self) hin with hin | hin
        · exact ha hin
        · exact hb hin
      rw [Text.replace_of_not_infix hne hab, replace_of_not_infix hne ha]
    | occurs x y hx ih =>
      rw [List.append_assoc (x ++ pattern), replace_append hne hx, ih, replace_append hne hx]
      simp only [List.append_assoc]

theorem replace_ne_nil (hne : pattern ≠ []) (hr : replacement ≠ []) (h : t ≠ []) :
    replace pattern replacement t ≠ [] := by
  induction t using cut_induction hne with
  | free t ht => rwa [Text.replace_of_not_infix hne ht]
  | occurs a b ha _ =>
    rw [replace_append hne ha]
    simp [hr]

theorem getLast?_replace {P : Char → Prop} (hne : pattern ≠ []) (hr : replacement ≠ [])
    (hlast : ∀ c ∈ replacement.getLast?, P c) (h : ∀ c ∈ t.getLast?, P c) :
    ∀ c ∈ (replace pattern replacement t).getLast?, P c := by
  induction t using cut_induction hne with
  | free t ht =>
    rwa [Text.replace_of_not_infix hne ht]
  | occurs a b ha ih =>
    rw [replace_append hne ha]
    by_cases hb : replace pattern replacement b = []
    · rwa [hb, List.append_nil, List.getLast?_append_of_ne_nil _ hr]
    · rw [List.getLast?_append_of_ne_nil _ hb]
      refine ih fun c hc => h c ?_
      have hb' : b ≠ [] := List.ne_nil_of_mem (List.mem_of_getLast? hc)
      rwa [List.getLast?_append_of_ne_nil _ hb']

theorem filter_replace {p : Char → Bool} (hne : pattern ≠ []) (h : pattern.filter p = [])
    (hr : replacement.filter p = []) (t : Text) :
    (replace pattern replacement t).filter p = t.filter p := by
  induction t using cut_induction hne with
  | free t ht => rw [Text.replace_of_not_infix hne ht]
  | occurs a b ha ih =>
    rw [replace_append hne ha]
    simp only [List.filter_append, ih, h, hr]

end Text

end MinedRules
