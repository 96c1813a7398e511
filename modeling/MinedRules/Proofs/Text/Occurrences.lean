import MinedRules.Text.Search
import Mathlib.Data.List.Infix

/-!
# Occurrences of a pattern

The first occurrence of a pattern stands after a text `a` if none begins in `a`, also when `a` is
continued by the pattern (`Clear`).  For a pattern whose first character does not come again in it,
it is enough that `a` does not contain the pattern (`clear_of_not_infix`).

* `cut?_eq_some_iff`, `cut?_eq_none_iff` : `cut?` cuts at the first occurrence.
* `cut_induction` : a text has no occurrence, or it goes on behind its first one.
* `cutLast?_eq_some_iff`, `cutLast?_eq_none_iff` : `cutLast?` cuts at the last occurrence.
* `split_append`, `split_of_not_infix`, `split_append_pattern` : the pieces of a text, one after the
  other, and `split_eq_iff` : they are those of `Pieces`.
* `length_split` : there is one piece more than there are `occurrences`.
* `replace_singleton` : to replace a character is to replace each of its occurrences.
-/

namespace MinedRules

namespace Text

/-- No occurrence of the pattern begins in `a` when the pattern follows. -/
def Clear (pattern a : Text) : Prop := ¬ pattern <:+: a ++ pattern.dropLast

/-- The number of occurrences of a pattern, from left to right and without overlap. -/
def occurrences (pattern : Text) : Text → Nat
  | [] => 0
  | c :: t =>
    if pattern <+: c :: t then occurrences pattern (t.drop (pattern.length - 1)) + 1
    else occurrences pattern t
termination_by t => t.length
decreasing_by all_goals simp only [List.length_drop, List.length_cons]; omega

/-- The pieces of a text between the occurrences of a pattern, from left to right and without overlap:
each piece but the last one ends where the first occurrence in what is left of the text begins. -/
inductive Pieces (pattern : Text) : Text → List Text → Prop
  | last {t : Text} : ¬ pattern <:+: t → Pieces pattern t [t]
  | cons {a b : Text} {pieces : List Text} : Clear pattern a → Pieces pattern b pieces →
      Pieces pattern (a ++ pattern ++ b) (a :: pieces)

variable {pattern a b t : Text}

theorem clear_nil (h : pattern ≠ []) : Clear pattern [] := by
  intro hin
  have hlength := hin.length_le
  have := List.length_pos_of_ne_nil h
  simp only [List.nil_append, List.length_dropLast] at hlength
  omega

theorem Clear.not_infix (h : Clear pattern a) : ¬ pattern <:+: a :=
  fun hin => h (hin.trans (List.prefix_append _ _).isInfix)

theorem Clear.tail {c : Char} (h : Clear pattern (c :: a)) : Clear pattern a :=
  fun hin => h (List.infix_cons hin)

theorem Clear.not_prefix_append {c : Char} (h : Clear pattern (c :: a)) :
    ¬ pattern <+: c :: a ++ pattern ++ b := by
  intro hpre
  refine h (List.IsPrefix.isInfix ?_)
  -- both are prefixes of one text, and the pattern is not the longer one
  have hdrop : c :: a ++ pattern.dropLast <+: c :: a ++ pattern ++ b := by
    rw [List.append_assoc]
    exact (List.prefix_append_right_inj _).2
      ((List.dropLast_prefix pattern).trans (List.prefix_append _ _))
  refine List.prefix_of_prefix_length_le hpre hdrop ?_
  simp only [List.length_append, List.length_cons, List.length_dropLast]
  omega

theorem clear_of_not_infix {p : Char} {ps : Text} (hp : p ∉ ps) (h : ¬ p :: ps <:+: a) :
    Clear (p :: ps) a := by
  induction a with
  | nil => exact clear_nil (List.cons_ne_nil _ _)
  | cons c a ih =>
    intro hin
    rw [List.cons_append] at hin
    rcases List.infix_cons_iff.1 hin with hpre | hin
    · obtain ⟨rfl, hps⟩ := List.cons_prefix_cons.1 hpre
      rcases List.prefix_or_prefix_of_prefix hps (List.prefix_append a _) with ha | ⟨v, rfl⟩
      · exact h (List.cons_prefix_cons.2 ⟨rfl, ha⟩).isInfix
      · -- the pattern would begin again inside of itself
        have hv := (List.prefix_append_right_inj a).1 hps
        cases v with
        | nil => exact h ⟨[], [], by simp⟩
        | cons d v =>
          rw [List.dropLast_cons_of_ne_nil (by simp)] at hv
          obtain ⟨rfl, -⟩ := List.cons_prefix_cons.1 hv
          exact hp (by simp)
    · exact ih (fun hin' => h (List.infix_cons hin')) hin

/-- An occurrence does not reach a character outside of the pattern. -/
theorem prefix_of_prefix_append_cons {c : Char} (hc : c ∉ pattern)
    (h : pattern <+: a ++ c :: b) : pattern <+: a := by
  rcases List.prefix_or_prefix_of_prefix h (List.prefix_append a _) with hpre | ⟨v, rfl⟩
  · exact hpre
  · cases v with
    | nil => simp
    | cons d v =>
      -- the pattern would go on with the character after `a`
      obtain ⟨rfl, -⟩ := List.cons_prefix_cons.1 ((List.prefix_append_right_inj a).1 h)
      simp at hc

theorem infix_of_infix_append_cons {c : Char} (hc : c ∉ pattern) (h : pattern <:+: a ++ c :: b) :
    pattern <:+: a ∨ pattern <:+: b := by
  induction a with
  | nil =>
    rcases List.infix_cons_iff.1 h with hpre | hin
    · exact .inl (prefix_of_prefix_append_cons (a := []) hc hpre).isInfix
    · exact .inr hin
  | cons d a ih =>
    rcases List.infix_cons_iff.1 h with hpre | hin
    · exact .inl (prefix_of_prefix_append_cons (a := d :: a) hc hpre).isInfix
    · exact (ih hin).imp_left List.infix_cons

/-! ### Cutting -/

theorem after?_eq_none {pattern t : Text} (h : ¬ pattern <+: t) : after? pattern t = none := by
  cases hafter : after? pattern t with
  | none => rfl
  | some rest => exact absurd ⟨rest, (after?_eq_some.1 hafter).symm⟩ h

theorem cut?_append (hne : pattern ≠ []) (h : Clear pattern a) :
    cut? pattern (a ++ pattern ++ b) = some (a, b) := by
  induction a with
  | nil =>
    obtain ⟨p, ps, rfl⟩ := List.exists_cons_of_ne_nil hne
    rw [List.nil_append, List.cons_append, cut?, after?_eq_some.2 (List.cons_append).symm]
  | cons c a ih =>
    have hafter := after?_eq_none (h.not_prefix_append (b := b))
    rw [List.cons_append, List.cons_append] at hafter ⊢
    rw [cut?, hafter]
    simp only [ih h.tail, Option.map_some]

theorem cut?_eq_none (h : ¬ pattern <:+: t) : cut? pattern t = none := by
  induction t with
  | nil =>
    rw [cut?, after?_eq_none fun hpre => h hpre.isInfix]
    rfl
  | cons c t ih =>
    rw [cut?, after?_eq_none fun hpre => h hpre.isInfix]
    simp only [ih fun hin => h (List.infix_cons hin), Option.map_none]

theorem cut?_eq_none_iff : cut? pattern t = none ↔ ¬ pattern <:+: t := by
  refine ⟨fun h hin => ?_, cut?_eq_none⟩
  induction t with
  | nil =>
    obtain rfl := List.infix_nil.1 hin
    simp [cut?, after?] at h
  | cons c t ih =>
    rw [cut?] at h
    split at h
    · simp at h
    · next hafter =>
      rw [Option.map_eq_none_iff] at h
      rcases List.infix_cons_iff.1 hin with ⟨rest, hrest⟩ | hin
      · rw [after?_eq_some.2 hrest.symm] at hafter
        exact absurd hafter (by simp)
      · exact ih h hin

theorem clear_of_cut?_eq_some (hne : pattern ≠ []) (h : cut? pattern t = some (a, b)) :
    Clear pattern a := by
  induction t generalizing a with
  | nil =>
    obtain rfl : a = [] := by
      have := cut?_eq_some h
      simp only [List.append_assoc, List.nil_eq, List.append_eq_nil_iff] at this
      exact this.1
    exact clear_nil hne
  | cons c t ih =>
    rw [cut?] at h
    split at h
    · obtain rfl : [] = a := by simpa using congrArg (Option.map Prod.fst) h
      exact clear_nil hne
    · next hafter =>
      simp only [Option.map_eq_some_iff, Prod.mk.injEq, Prod.exists] at h
      obtain ⟨front, rest, hcut, rfl, rfl⟩ := h
      have htext := cut?_eq_some hcut
      intro hin
      rw [List.cons_append] at hin
      rcases List.infix_cons_iff.1 hin with hpre | hin
      · -- an occurrence at the start would have been found
        have hlonger : c :: (front ++ pattern.dropLast) <+: c :: t := by
          rw [htext, List.append_assoc]
          exact List.cons_prefix_cons.2 ⟨rfl, (List.prefix_append_right_inj _).2
            ((List.dropLast_prefix pattern).trans (List.prefix_append _ _))⟩
        obtain ⟨rest', hrest'⟩ := hpre.trans hlonger
        rw [after?_eq_some.2 hrest'.symm] at hafter
        exact absurd hafter (by simp)
      · exact ih hcut hin

/-- **`cut?` cuts at the first occurrence.** -/
theorem cut?_eq_some_iff (hne : pattern ≠ []) :
    cut? pattern t = some (a, b) ↔ t = a ++ pattern ++ b ∧ Clear pattern a := by
  constructor
  · intro h
    exact ⟨cut?_eq_some h, clear_of_cut?_eq_some hne h⟩
  · rintro ⟨rfl, h⟩
    exact cut?_append hne h

/-- A text has no occurrence of the pattern, or it goes on behind the first one. -/
@[elab_as_elim]
theorem cut_induction {motive : Text → Prop} (hne : pattern ≠ [])
    (free : ∀ t, ¬ pattern <:+: t → motive t)
    (occurs : ∀ a b, Clear pattern a → motive b → motive (a ++ pattern ++ b)) (t : Text) :
    motive t := by
  induction hlength : t.length using Nat.strong_induction_on generalizing t with
  | _ n ih =>
    cases hcut : cut? pattern t with
    | none => exact free t (cut?_eq_none_iff.1 hcut)
    | some parts =>
      obtain ⟨front, rest⟩ := parts
      obtain ⟨rfl, hfront⟩ := (cut?_eq_some_iff hne).1 hcut
      have hpos := List.length_pos_of_ne_nil hne
      refine occurs front rest hfront (ih rest.length ?_ rest rfl)
      simp only [← hlength, List.length_append]
      omega

theorem cutLast?_eq_none_iff : cutLast? pattern t = none ↔ ¬ pattern <:+: t := by
  induction t with
  | nil =>
    cases pattern with
    | nil => simp [cutLast?, after?]
    | cons p ps => simp [cutLast?, after?]
  | cons c t ih =>
    rw [List.infix_cons_iff, not_or, ← ih, cutLast?]
    cases hcut : cutLast? pattern t with
    | some parts => simp
    | none =>
      simp only [Option.map_eq_none_iff, and_true]
      refine ⟨?_, after?_eq_none⟩
      rintro hafter ⟨rest, hrest⟩
      rw [after?_eq_some.2 hrest.symm] at hafter
      exact absurd hafter (by simp)

/-- **`cutLast?` cuts at the last occurrence**: none begins further on. -/
theorem cutLast?_eq_some_iff (hne : pattern ≠ []) :
    cutLast? pattern t = some (a, b) ↔ t = a ++ pattern ++ b ∧ ¬ pattern <:+: pattern.tail ++ b := by
  obtain ⟨p, ps, rfl⟩ := List.exists_cons_of_ne_nil hne
  induction t generalizing a with
  | nil => simp [cutLast?, after?]
  | cons c t ih =>
    have htail : ∀ {a d}, c :: t = d :: a ++ p :: ps ++ b ↔ c = d ∧ t = a ++ p :: ps ++ b := by simp
    rw [cutLast?]
    cases hcut : cutLast? (p :: ps) t with
    | some parts =>
      obtain ⟨front, rest⟩ := parts
      simp only [Option.some.injEq, Prod.mk.injEq]
      constructor
      · rintro ⟨rfl, rfl⟩
        obtain ⟨ht, hlast⟩ := ih.1 hcut
        exact ⟨htail.2 ⟨rfl, ht⟩, hlast⟩
      · rintro ⟨ht, hlast⟩
        cases a with
        | nil =>
          -- an occurrence in `t` begins further on than one at the start
          have hrest : t = ps ++ b := (List.cons.inj ht).2
          have hnone : cutLast? (p :: ps) (ps ++ b) = none := cutLast?_eq_none_iff.2 hlast
          rw [hrest, hnone] at hcut
          exact absurd hcut (by simp)
        | cons d a =>
          obtain ⟨rfl, hrest⟩ := htail.1 ht
          rw [ih.2 ⟨hrest, hlast⟩, Option.some.injEq, Prod.mk.injEq] at hcut
          exact ⟨congrArg _ hcut.1.symm, hcut.2.symm⟩
    | none =>
      have hno := cutLast?_eq_none_iff.1 hcut
      simp only [Option.map_eq_some_iff, after?_eq_some, Prod.mk.injEq]
      constructor
      · rintro ⟨rest, ht, rfl, rfl⟩
        have hrest : t = ps ++ rest := (List.cons.inj ht).2
        exact ⟨ht, hrest ▸ hno⟩
      · rintro ⟨ht, -⟩
        cases a with
        | nil => exact ⟨b, ht, rfl, rfl⟩
        | cons d a => exact absurd ⟨a, b, (htail.1 ht).2.symm⟩ hno

/-! ### Splitting -/

theorem splitFrom_drop (pattern : Text) (skip : Nat) (t : Text) :
    splitFrom pattern skip t = splitFrom pattern 0 (t.drop skip) := by
  induction t generalizing skip with
  | nil => cases skip <;> rfl
  | cons c t ih =>
    cases skip with
    | zero => rfl
    | succ skip => rw [splitFrom, ih, List.drop_succ_cons]

theorem split_eq (hne : pattern ≠ []) (t : Text) : split pattern t = splitFrom pattern 0 t := by
  obtain ⟨p, ps, rfl⟩ := List.exists_cons_of_ne_nil hne
  rfl

theorem split_pattern_append (hne : pattern ≠ []) : split pattern (pattern ++ b) =
    [] :: split pattern b := by
  obtain ⟨p, ps, rfl⟩ := List.exists_cons_of_ne_nil hne
  rw [split_eq hne, split_eq hne, List.cons_append, splitFrom, if_pos, splitFrom_drop]
  · simp
  · exact List.isPrefixOf_iff_prefix.2 ⟨b, by simp⟩

theorem split_cons_neg {c : Char} (hne : pattern ≠ []) (h : ¬ pattern <+: c :: t) :
    split pattern (c :: t) = (split pattern t).modifyHead (c :: ·) := by
  rw [split_eq hne, split_eq hne, splitFrom, if_neg]
  exact fun hpre => h (List.isPrefixOf_iff_prefix.1 hpre)

theorem split_append (hne : pattern ≠ []) (h : Clear pattern a) :
    split pattern (a ++ pattern ++ b) = a :: split pattern b := by
  induction a with
  | nil => rw [List.nil_append, split_pattern_append hne]
  | cons c a ih =>
    have hpre := h.not_prefix_append (b := b)
    rw [List.cons_append, List.cons_append] at hpre ⊢
    rw [split_cons_neg hne hpre, ih h.tail, List.modifyHead_cons]

theorem split_of_not_infix (hne : pattern ≠ []) (h : ¬ pattern <:+: t) : split pattern t = [t] := by
  induction t with
  | nil => rw [split_eq hne, splitFrom]
  | cons c t ih =>
    rw [split_cons_neg hne fun hpre => h hpre.isInfix,
      ih fun hin => h (List.infix_cons hin), List.modifyHead_cons]

/-- What precedes a text belongs to its first piece if it does not contain the pattern and ends with
a character outside of it. -/
theorem split_append_of_end {u piece : Text} {pieces : List Text} (hne : pattern ≠ [])
    (hu : ¬ pattern <:+: u) (hlast : ∀ c ∈ u.getLast?, c ∉ pattern)
    (ht : split pattern t = piece :: pieces) :
    split pattern (u ++ t) = (u ++ piece) :: pieces := by
  induction u with
  | nil => simpa using ht
  | cons c u ih =>
    have hpre : ¬ pattern <+: c :: (u ++ t) := by
      intro hpre
      rw [← List.cons_append] at hpre
      rcases List.prefix_or_prefix_of_prefix hpre (List.prefix_append (c :: u) t) with hin | hin
      · exact hu hin.isInfix
      · -- an occurrence that reaches `t` contains the last character of `u`
        have hmem : (c :: u).getLast (List.cons_ne_nil _ _) ∈ pattern :=
          hin.subset (List.getLast_mem _)
        exact hlast _ (List.getLast?_eq_some_getLast _) hmem
    rw [List.cons_append, split_cons_neg hne hpre, ih, List.modifyHead_cons,
      List.cons_append]
    · exact fun hin => hu (List.infix_cons hin)
    · intro d hd
      cases u with
      | nil => simp at hd
      | cons e u => exact hlast d (by rwa [List.getLast?_cons_cons])

theorem split_append_pattern {p : Char} {ps : Text} (hp : p ∉ ps) (a b : Text) :
    split (p :: ps) (a ++ p :: ps ++ b) = split (p :: ps) a ++ split (p :: ps) b := by
  have hne : p :: ps ≠ [] := List.cons_ne_nil _ _
  induction a using cut_induction hne with
  | free a h =>
    rw [split_append hne (Text.clear_of_not_infix hp h), split_of_not_infix hne h,
      List.singleton_append]
  | occurs x y hx ih =>
    have htext : x ++ p :: ps ++ y ++ p :: ps ++ b = x ++ p :: ps ++ (y ++ p :: ps ++ b) := by simp
    rw [htext, split_append hne hx, split_append hne hx, ih, List.cons_append]

/-- **`split` gives the pieces.** -/
theorem split_eq_iff {pieces : List Text} (hne : pattern ≠ []) :
    split pattern t = pieces ↔ Pieces pattern t pieces := by
  constructor
  · rintro rfl
    induction t using cut_induction hne with
    | free t h =>
      rw [Text.split_of_not_infix hne h]
      exact .last h
    | occurs a b ha ih =>
      rw [split_append hne ha]
      exact .cons ha ih
  · intro h
    induction h with
    | last h => exact split_of_not_infix hne h
    | cons ha _ ih => rw [split_append hne ha, ih]

theorem prefix_of_split {piece : Text} {pieces : List Text} (hne : pattern ≠ [])
    (h : split pattern t = piece :: pieces) : piece <+: t := by
  have hjoin := join_split hne t
  rw [h] at hjoin
  cases pieces with
  | nil => exact ⟨[], by simpa using hjoin⟩
  | cons next pieces =>
    rw [List.intercalate_cons_cons, List.append_assoc] at hjoin
    exact ⟨_, hjoin⟩

theorem length_split (hne : pattern ≠ []) (t : Text) :
    (split pattern t).length = occurrences pattern t + 1 := by
  fun_induction occurrences pattern t with
  | case1 => rw [split_eq hne, splitFrom, List.length_singleton]
  | case2 c t hpre ih =>
    obtain ⟨rest, hrest⟩ := hpre
    obtain ⟨p, ps, rfl⟩ := List.exists_cons_of_ne_nil hne
    obtain ⟨rfl, rfl⟩ := List.cons.inj (List.cons_append ▸ hrest)
    have hdrop : (ps ++ rest).drop ((p :: ps).length - 1) = rest := by simp
    rw [hdrop] at ih
    rw [hdrop, ← List.cons_append, split_pattern_append hne, List.length_cons, ih]
  | case3 c t hpre ih => rw [split_cons_neg hne hpre, List.length_modifyHead, ih]

/-! ### Replacing -/

theorem replace_append {replacement : Text} (hne : pattern ≠ []) (h : Clear pattern a) :
    replace pattern replacement (a ++ pattern ++ b) =
      a ++ replacement ++ replace pattern replacement b := by
  obtain ⟨piece, pieces, hb⟩ := List.exists_cons_of_ne_nil (split_ne_nil pattern b)
  rw [replace, replace, split_append hne h, hb, List.intercalate_cons_cons, List.append_assoc]

theorem replace_of_not_infix {replacement : Text} (hne : pattern ≠ []) (h : ¬ pattern <:+: t) :
    replace pattern replacement t = t := by
  rw [replace, split_of_not_infix hne h, List.intercalate_singleton]

theorem replace_cons_of_not_prefix {replacement : Text} {c : Char} (hne : pattern ≠ [])
    (h : ¬ pattern <+: c :: t) :
    replace pattern replacement (c :: t) = c :: replace pattern replacement t := by
  rw [replace, split_cons_neg hne h, intercalate_modifyHead_cons _ _ (split_ne_nil _ _), ← replace]

theorem replace_pattern_append {replacement : Text} (hne : pattern ≠ []) :
    replace pattern replacement (pattern ++ b) = replacement ++ replace pattern replacement b := by
  exact replace_append hne (clear_nil hne)

theorem replace_singleton (x : Char) (replacement t : Text) :
    replace [x] replacement t = t.flatMap fun c => if c = x then replacement else [c] := by
  induction t with
  | nil => rfl
  | cons c t ih =>
    rw [List.flatMap_cons, ← ih]
    by_cases hc : c = x
    · rw [if_pos hc, hc]
      exact replace_pattern_append (by simp)
    · rw [if_neg hc, replace_cons_of_not_prefix (by simp), List.singleton_append]
      exact fun hpre => hc (List.cons_prefix_cons.1 hpre).1.symm

end Text

end MinedRules
