import MinedRules.Text.Basic

/-!
# Searching a text for a pattern

Patterns are texts, and occurrences are taken from left to right without overlap.

* `cut?` and `cutLast?` give the text before and after the first and the last occurrence.
* `split` gives the pieces between the occurrences, and `replace` puts a text between them.
  The empty pattern occurs before every character and at the end.
* `split_ne_nil` : there is always a first piece.
* `join_split` : joining the pieces with the pattern gives the text back.
* `cut?_eq_some` : a found occurrence is one.
-/

namespace MinedRules

namespace Text

/-- The rest of a text after `pattern`, if the text begins with it. -/
def after? : Text → Text → Option Text
  | [], t => some t
  | _ :: _, [] => none
  | p :: pattern, c :: t => if p = c then after? pattern t else none

/-- The texts before and after the first occurrence of `pattern`. -/
def cut? (pattern : Text) : Text → Option (Text × Text)
  | [] => (after? pattern []).map fun rest => ([], rest)
  | c :: t =>
    match after? pattern (c :: t) with
    | some rest => some ([], rest)
    | none => (cut? pattern t).map fun (front, rest) => (c :: front, rest)

/-- The texts before and after the last occurrence of `pattern`. -/
def cutLast? (pattern : Text) : Text → Option (Text × Text)
  | [] => (after? pattern []).map fun rest => ([], rest)
  | c :: t =>
    match cutLast? pattern t with
    | some (front, rest) => some (c :: front, rest)
    | none => (after? pattern (c :: t)).map fun rest => ([], rest)

/-- The pieces between the occurrences of `pattern`, where the first `skip` characters still belong
to the occurrence found before. -/
def splitFrom (pattern : Text) : Nat → Text → List Text
  | _, [] => [[]]
  | skip + 1, _ :: t => splitFrom pattern skip t
  | 0, c :: t =>
    if pattern.isPrefixOf (c :: t) then [] :: splitFrom pattern (pattern.length - 1) t
    else (splitFrom pattern 0 t).modifyHead (c :: ·)

/-- The pieces of a text between the occurrences of `pattern`. -/
def split (pattern t : Text) : List Text :=
  match pattern with
  | [] => [] :: t.map (fun c => [c]) ++ [[]]
  | _ :: _ => splitFrom pattern 0 t

/-- The text with every occurrence of `pattern` replaced. -/
def replace (pattern replacement t : Text) : Text := replacement.intercalate (split pattern t)

/-! ### Lemmas -/

theorem after?_eq_some {pattern t rest : Text} :
    after? pattern t = some rest ↔ t = pattern ++ rest := by
  induction pattern generalizing t with
  | nil => simp [after?]
  | cons p pattern ih =>
    cases t with
    | nil => simp [after?]
    | cons c t =>
      by_cases h : p = c
      · simp [after?, h, ih]
      · simp [after?, h, Ne.symm h]

theorem cut?_eq_some {pattern t front rest : Text} (h : cut? pattern t = some (front, rest)) :
    t = front ++ pattern ++ rest := by
  induction t generalizing front with
  | nil =>
    simp only [cut?, Option.map_eq_some_iff, after?_eq_some, Prod.mk.injEq] at h
    obtain ⟨a, ha, rfl, rfl⟩ := h
    simpa using ha
  | cons c t ih =>
    simp only [cut?] at h
    split at h
    · next rest' hr =>
      simp only [Option.some.injEq, Prod.mk.injEq] at h
      obtain ⟨rfl, rfl⟩ := h
      simpa using after?_eq_some.1 hr
    · simp only [Option.map_eq_some_iff, Prod.mk.injEq] at h
      obtain ⟨⟨a, b⟩, hab, rfl, rfl⟩ := h
      simp [ih hab]

theorem splitFrom_ne_nil (pattern : Text) (skip : Nat) (t : Text) :
    splitFrom pattern skip t ≠ [] := by
  induction t generalizing skip with
  | nil => simp [splitFrom]
  | cons c t ih =>
    cases skip with
    | succ skip => simpa [splitFrom] using ih skip
    | zero =>
      simp only [splitFrom]
      split
      · simp
      · simpa using ih 0

theorem split_ne_nil (pattern t : Text) : split pattern t ≠ [] := by
  cases pattern with
  | nil => simp [split]
  | cons p pattern => exact splitFrom_ne_nil _ _ _

theorem intercalate_modifyHead_cons (sep : Text) (c : Char) {l : List Text} (h : l ≠ []) :
    sep.intercalate (l.modifyHead (c :: ·)) = c :: sep.intercalate l := by
  match l, h with
  | [a], _ => simp [List.intercalate]
  | a :: b :: l, _ => simp

theorem join_splitFrom (p : Char) (pattern : Text) (skip : Nat) (t : Text) :
    (p :: pattern).intercalate (splitFrom (p :: pattern) skip t) = t.drop skip := by
  induction t generalizing skip with
  | nil => simp [splitFrom, List.intercalate]
  | cons c t ih =>
    cases skip with
    | succ skip => simpa [splitFrom] using ih skip
    | zero =>
      simp only [splitFrom, List.drop_zero]
      split
      · next h =>
        obtain ⟨rest, hrest⟩ := List.isPrefixOf_iff_prefix.1 h
        obtain ⟨rfl, ht⟩ := List.cons.inj hrest
        obtain ⟨a, l, hal⟩ := List.exists_cons_of_ne_nil
          (splitFrom_ne_nil (p :: pattern) ((p :: pattern).length - 1) t)
        have := ih ((p :: pattern).length - 1)
        rw [hal] at this ⊢
        rw [List.intercalate_cons_cons, this, ← ht]
        simp
      · rw [intercalate_modifyHead_cons _ _ (splitFrom_ne_nil _ _ _), ih 0, List.drop_zero]

/-- Joining the pieces with a non-empty pattern gives the text back. -/
theorem join_split {pattern : Text} (h : pattern ≠ []) (t : Text) :
    pattern.intercalate (split pattern t) = t := by
  match pattern, h with
  | p :: pattern, _ => simpa [split] using join_splitFrom p pattern 0 t

end Text

theorem not_mem_of_mem_splitOn {x : Char} {t piece : Text} (h : piece ∈ t.splitOn x) :
    x ∉ piece := by
  induction t generalizing piece with
  | nil =>
    rw [List.splitOn_nil, List.mem_singleton] at h
    simp [h]
  | cons c t ih =>
    rw [List.splitOn_cons_eq_if_modifyHead] at h
    obtain ⟨first, more, ht⟩ := List.exists_cons_of_ne_nil (List.splitOn_ne_nil x t)
    split at h
    · rcases List.mem_cons.1 h with rfl | h
      · simp
      · exact ih h
    · next hc =>
      rw [ht, List.modifyHead_cons] at h
      rcases List.mem_cons.1 h with rfl | h
      · have hfirst := ih (ht ▸ List.mem_cons_self)
        intro hx
        rcases List.mem_cons.1 hx with rfl | hx
        · simp at hc
        · exact hfirst hx
      · exact ih (ht ▸ List.mem_cons_of_mem _ h)

end MinedRules
