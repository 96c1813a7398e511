import MinedRules.Proofs.Text.Layers
import MinedRules.Text.Lines

/-!
# The lines of a text

The pieces between line feeds are the lines of a text, and the number of a line counts the line
feeds before it (`Text.HasLine`).  What `Text.lines` leaves out of them are carriage returns and an
empty piece at the end, and neither is seen by who trims every line.

* `Text.induction_lines` : a text is read one line after the other.
* `Text.getElem?_splitOn_iff_hasLine` : the pieces are the lines.
* `Text.trim_dropReturn` : a carriage return at the end of a line is trimmed with the line.
-/

namespace MinedRules

/-! ### Pieces -/

theorem splitOn_append_cons (x : Char) (a b : Text) :
    (a ++ x :: b).splitOn x = a.splitOn x ++ b.splitOn x :=
  List.splitOnP_append_cons a b (beq_self_eq_true x)

theorem length_splitOn (x : Char) (t : Text) : (t.splitOn x).length = t.count x + 1 := by
  induction t with
  | nil => rfl
  | cons c t ih =>
    rw [List.splitOn_cons_eq_if_modifyHead, List.count_cons]
    split
    · rw [List.length_cons, ih]
    · rw [List.length_modifyHead, ih, Nat.add_zero]

namespace Text

/-! ### Lines and their numbers -/

/-- A text is its first line, or its first line, a line feed and a text below. -/
@[elab_as_elim]
theorem induction_lines {motive : Text → Prop}
    (single : ∀ line, '\n' ∉ line → motive line)
    (feed : ∀ line t, '\n' ∉ line → motive t → motive (line ++ '\n' :: t)) (t : Text) :
    motive t := by
  induction hlength : t.length using Nat.strong_induction_on generalizing t with
  | _ n ih =>
    by_cases hfeed : '\n' ∈ t
    · obtain ⟨line, below, rfl, hline⟩ := List.eq_append_cons_of_mem hfeed
      refine feed line below hline (ih below.length ?_ below rfl)
      rw [← hlength, List.length_append, List.length_cons]
      omega
    · exact single t hfeed

/-- A line of the text and its number: it stands between line feeds or the ends of the text, and one
line feed ends each line before it. -/
inductive HasLine : Text → Nat → Text → Prop
  | intro (before line after : Text) : (∀ c ∈ before.getLast?, c = '\n') → '\n' ∉ line →
      (∀ c ∈ after.head?, c = '\n') →
      HasLine (before ++ (line ++ after)) (before.count '\n' + 1) line

variable {t line : Text} {i : Nat}

theorem HasLine.cons {first u : Text} {n : Nat} (hfirst : '\n' ∉ first) (h : HasLine u n line) :
    HasLine (first ++ '\n' :: u) (n + 1) line := by
  obtain ⟨before, _, after, hbefore, hline, hafter⟩ := h
  have hcount : (first ++ '\n' :: before).count '\n' = before.count '\n' + 1 := by
    rw [List.count_append, List.count_eq_zero.2 hfirst, List.count_cons_self, Nat.zero_add]
  have hlast : ∀ c ∈ (first ++ '\n' :: before).getLast?, c = '\n' := by
    intro c hc
    rw [List.getLast?_append_of_ne_nil _ (List.cons_ne_nil _ _), List.getLast?_cons] at hc
    cases hbeforeLast : before.getLast? with
    | none => simpa [hbeforeLast, eq_comm] using hc
    | some d => exact hbefore c (by simpa [hbeforeLast] using hc)
  have hcons := HasLine.intro _ line after hlast hline hafter
  rwa [hcount, List.append_assoc, List.cons_append] at hcons

/-- **The pieces between line feeds are the lines, in the order of their numbers.** -/
theorem getElem?_splitOn_iff_hasLine :
    (t.splitOn '\n')[i]? = some line ↔ HasLine t (i + 1) line := by
  constructor
  · intro h
    induction t using induction_lines generalizing i with
    | single first hfirst =>
      rw [List.splitOn_eq_singleton hfirst, List.getElem?_singleton] at h
      obtain ⟨rfl, hline⟩ := Option.ite_none_right_eq_some.1 h
      obtain rfl := Option.some.inj hline
      simpa using HasLine.intro [] first [] (by simp) hfirst (by simp)
    | feed first below hfirst ih =>
      rw [List.splitOn_append_cons_self_of_not_mem hfirst] at h
      cases i with
      | zero =>
        rw [List.getElem?_cons_zero] at h
        obtain rfl := Option.some.inj h
        exact .intro [] first ('\n' :: below) (by simp) hfirst (by simp)
      | succ i =>
        rw [List.getElem?_cons_succ] at h
        exact (ih h).cons hfirst
  · intro h
    generalize hn : i + 1 = n at h
    obtain ⟨before, _, after, hbefore, hline, hafter⟩ := h
    obtain rfl : i = before.count '\n' := Nat.succ.inj hn
    have hfirst : ((line ++ after).splitOn '\n')[0]? = some line := by
      cases after with
      | nil => rw [List.append_nil, List.splitOn_eq_singleton hline, List.getElem?_cons_zero]
      | cons c after =>
        rw [hafter c rfl, List.splitOn_append_cons_self_of_not_mem hline, List.getElem?_cons_zero]
    rcases List.eq_nil_or_concat' before with rfl | ⟨front, c, rfl⟩
    · exact hfirst
    · obtain rfl := hbefore c List.getLast?_concat
      have hcount : (front ++ ['\n']).count '\n' = (front.splitOn '\n').length := by
        rw [length_splitOn, List.count_append, List.count_singleton_self]
      rw [hcount, List.append_assoc, List.singleton_append, splitOn_append_cons,
        List.getElem?_append_right (Nat.le_refl _), Nat.sub_self, hfirst]

theorem hasLine_iff {n : Nat} :
    HasLine t n line ↔ 1 ≤ n ∧ (t.splitOn '\n')[n - 1]? = some line := by
  cases n with
  | zero => exact iff_of_false nofun fun h => absurd h.1 (Nat.not_succ_le_zero 0)
  | succ i =>
    rw [Nat.add_sub_cancel, getElem?_splitOn_iff_hasLine]
    exact (and_iff_right (Nat.le_add_left 1 i)).symm

/-! ### Carriage returns -/

theorem trim_concat_return (line : Text) : trim (line ++ ['\r']) = trim line :=
  trimBy_concat_of_pos (by decide) line

theorem trim_dropReturn (line : Text) : trim (dropReturn '\r' line) = trim line := by
  rcases List.eq_nil_or_concat' line with rfl | ⟨line, c, rfl⟩
  · rfl
  · rw [dropReturn, List.getLast?_concat]
    dsimp only
    split
    · next hc =>
      rw [List.dropLast_concat, eq_of_beq hc, trim_concat_return]
    · rfl

end Text

end MinedRules
