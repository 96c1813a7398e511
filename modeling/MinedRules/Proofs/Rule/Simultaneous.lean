import MinedRules.Proofs.Rule.Operators
import MinedRules.Proofs.Text.Scan

/-!
# All symbols at once

The connectives of a rule are replaced one symbol after the other, in the text that the symbol before
has left.  If the symbols share no characters, this is the same as going through the rule once
(`replace_eq_scan`).  So no order of the symbols is better than another one.
-/

namespace MinedRules

namespace Connectives

/-- The symbols with their operators, in the order in which they are replaced. -/
def table (symbols : Connectives) : List (Text × Text) :=
  [(symbols.implication, neck), (symbols.conjunction, [',']), (symbols.disjunction, [';'])]

/-- No character is in two of the symbols.  A symbol may have the same character several times. -/
structure Distinct (symbols : Connectives) : Prop where
  implication_conjunction : symbols.implication.Disjoint symbols.conjunction
  implication_disjunction : symbols.implication.Disjoint symbols.disjunction
  conjunction_disjunction : symbols.conjunction.Disjoint symbols.disjunction

variable {symbols : Connectives}

theorem replace_eq_replaceEach (symbols : Connectives) (rule : Text) :
    symbols.replace rule = Text.replaceEach symbols.table rule := rfl

/-! ### Operators are inert -/

theorem IsProper.inert {symbol operator : Text} (h : IsProper symbol)
    (hoperator : operator ∈ [neck, [','], [';']]) : Text.Inert symbol operator := by
  simp only [List.mem_cons, List.not_mem_nil, or_false] at hoperator
  rcases hoperator with rfl | rfl | rfl
  · refine ⟨by decide, by simpa [neck] using h.colon, ?_⟩
    simpa [neck] using ⟨Text.head?_ne_of_not_mem h.colon, h.hyphen⟩
  · exact ⟨by decide, by simpa using h.comma, by simpa using Text.head?_ne_of_not_mem h.comma⟩
  · exact ⟨by decide, by simpa using h.semicolon, by simpa using Text.head?_ne_of_not_mem h.semicolon⟩

theorem Proper.apart (h : symbols.Proper) (hdistinct : symbols.Distinct) :
    Text.Apart symbols.table := by
  have hsymbols : ∀ e ∈ symbols.table, IsProper e.1 := by
    simpa [table] using ⟨h.implication, h.conjunction, h.disjunction⟩
  have hoperators : ∀ e ∈ symbols.table, e.2 ∈ [neck, [','], [';']] := by simp [table]
  refine ⟨fun e he => (hsymbols e he).nonempty, ?_, fun e he f hf => ?_⟩
  · simpa [table, Text.Unrelated] using ⟨⟨hdistinct.implication_conjunction,
      hdistinct.implication_disjunction⟩, hdistinct.conjunction_disjunction⟩
  · exact (hsymbols e he).inert (hoperators f hf)

/-! ### One scan -/

/-- **The symbols can be replaced at once, and in any order.**  For proper symbols without common
characters, replacing them one after the other is one scan from left to right, in which the symbol that
begins at a place gives way to its operator, and every other character is copied.  Hence any order of the
three gives the same text. -/
theorem replace_eq_scan (h : symbols.Proper) (hdistinct : symbols.Distinct) (rule : Text) :
    symbols.replace rule = Text.scan symbols.table rule ∧
      ∀ order : List (Text × Text), order.Perm symbols.table →
        Text.replaceEach order rule = symbols.replace rule := by
  have hapart := h.apart hdistinct
  have hscan : symbols.replace rule = Text.scan symbols.table rule := by
    rw [replace_eq_replaceEach, Text.replaceEach_eq_scan hapart]
  refine ⟨hscan, fun order horder => ?_⟩
  rw [hscan, Text.replaceEach_eq_scan (hapart.perm horder.symm), Text.scan_perm hapart horder.symm]

/-- Symbols that overlap with themselves: of three of their characters in a row the first two count. -/
theorem replace_eq_scan_overlapping :
    let symbols : Connectives := ⟨['<', '<'], ['&', '&'], ['|', '-', '|']⟩
    let rule := "p(x) <<< q(x) &&& r(x) |-|-| s(x)".toList
    let t := "p(x) :-< q(x) ,& r(x) ;-| s(x)".toList
    let order := symbols.table.reverse
    symbols.Proper ∧ symbols.Distinct ∧ order.Perm symbols.table ∧ symbols.replace rule = t ∧
      Text.scan symbols.table rule = t ∧ Text.replaceEach order rule = t := by
  intro symbols rule t order
  have hproper : symbols.Proper :=
    ⟨⟨by decide, by decide, by decide, by decide, by decide⟩,
      ⟨by decide, by decide, by decide, by decide, by decide⟩,
      ⟨by decide, by decide, by decide, by decide, by decide⟩⟩
  have hdistinct : symbols.Distinct := by constructor <;> simp [symbols]
  have ht : symbols.replace rule = t := by decide +kernel
  obtain ⟨hscan, horder⟩ := replace_eq_scan hproper hdistinct rule
  have hperm : order.Perm symbols.table := List.reverse_perm _
  exact ⟨hproper, hdistinct, hperm, ht, hscan ▸ ht, (horder order hperm).trans ht⟩

end Connectives

end MinedRules
