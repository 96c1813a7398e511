import MinedRules.Proofs.Text.Replacement
import MinedRules.Rule.Connectives

/-!
# Symbols and operators

`Connectives.replace` replaces the three symbols one after the other, each in the text that the one
before has left.  A symbol is *proper* if no operator can be part of an occurrence of it
(`IsProper`).  The symbols may otherwise be anything: they may overlap, begin with one another or be
equal.

* `Free.replace_eq` : a text without symbols stays as it is.
* `free_replace` : no symbol is left behind, and none comes into being where an operator is put in.
* `replace_fixed` : so replacing is done after one run.
-/

namespace MinedRules

namespace Connectives

/-- A symbol that an operator cannot help to make: it has none of their characters but the hyphen,
and does not begin with that. -/
structure IsProper (symbol : Text) : Prop where
  nonempty : symbol ≠ []
  colon : ':' ∉ symbol
  comma : ',' ∉ symbol
  semicolon : ';' ∉ symbol
  hyphen : symbol.head? ≠ some '-'

/-- All three symbols are proper. -/
structure Proper (symbols : Connectives) : Prop where
  implication : IsProper symbols.implication
  conjunction : IsProper symbols.conjunction
  disjunction : IsProper symbols.disjunction

/-- No symbol occurs in the text. -/
structure Free (symbols : Connectives) (t : Text) : Prop where
  implication : ¬ symbols.implication <:+: t
  conjunction : ¬ symbols.conjunction <:+: t
  disjunction : ¬ symbols.disjunction <:+: t

/-! ### Symbols next to operators -/

section

variable {symbol : Text}

/-- No occurrence begins before the colon and ends in the neck or behind it, and none begins with the
hyphen. -/
theorem IsProper.separates_neck (h : IsProper symbol) : Text.Separates neck symbol := by
  intro a b hin
  have htext : a ++ neck ++ b = a ++ ':' :: ('-' :: b) := by simp [neck]
  rw [htext] at hin
  rcases Text.infix_of_infix_append_cons h.colon hin with hin | hin
  · exact .inl hin
  · rcases List.infix_cons_iff.1 hin with hpre | hin
    · obtain ⟨c, rest, rfl⟩ := List.exists_cons_of_ne_nil h.nonempty
      obtain ⟨rfl, -⟩ := List.cons_prefix_cons.1 hpre
      exact absurd rfl h.hyphen
    · exact .inr hin

theorem IsProper.separates_comma (h : IsProper symbol) : Text.Separates [','] symbol :=
  Text.separates_singleton h.comma

theorem IsProper.separates_semicolon (h : IsProper symbol) : Text.Separates [';'] symbol :=
  Text.separates_singleton h.semicolon

end

/-! ### One run -/

variable {symbols : Connectives} {t : Text}

theorem Free.replace_eq (h : symbols.Free t) (hproper : symbols.Proper) :
    symbols.replace t = t := by
  rw [replace, Text.replace_of_not_infix hproper.implication.nonempty h.implication,
    Text.replace_of_not_infix hproper.conjunction.nonempty h.conjunction,
    Text.replace_of_not_infix hproper.disjunction.nonempty h.disjunction]

/-- The three replacements leave none of the symbols: each removes its own and brings none of the
others back. -/
theorem Proper.free_replace (h : symbols.Proper) (rule : Text) :
    symbols.Free (symbols.replace rule) := by
  obtain ⟨hi, hc, hd⟩ := h
  set first := Text.replace symbols.implication neck rule
  set second := Text.replace symbols.conjunction [','] first
  have hi1 : ¬ symbols.implication <:+: first :=
    Text.not_infix_replace_self hi.nonempty hi.separates_neck rule
  have hi2 : ¬ symbols.implication <:+: second :=
    Text.not_infix_replace hc.nonempty hi.nonempty hi.separates_comma hi1
  have hc2 : ¬ symbols.conjunction <:+: second :=
    Text.not_infix_replace_self hc.nonempty hc.separates_comma first
  exact ⟨Text.not_infix_replace hd.nonempty hi.nonempty hi.separates_semicolon hi2,
    Text.not_infix_replace hd.nonempty hc.nonempty hc.separates_semicolon hc2,
    Text.not_infix_replace_self hd.nonempty hd.separates_semicolon second⟩

/-- **Replacing is done after one run.**  With proper symbols the text that comes out has none of them,
and a second run gives it back. -/
theorem replace_fixed (h : symbols.Proper) (rule : Text) :
    symbols.Free (symbols.replace rule) ∧
      symbols.replace (symbols.replace rule) = symbols.replace rule :=
  ⟨h.free_replace rule, (h.free_replace rule).replace_eq h⟩

/-- Symbols that overlap: the second one is the beginning of the first, and the third is equal to it. -/
theorem replace_fixed_overlapping :
    let symbols : Connectives := ⟨['<', '-'], ['<'], ['<', '-']⟩
    let t := "p(x) ,:- q(x) , -r(x):--".toList
    symbols.Proper ∧ symbols.replace "p(x) <<- q(x) < -r(x)<--".toList = t ∧ symbols.Free t ∧
      symbols.replace t = t := by
  intro symbols t
  have harrow : IsProper ['<', '-'] := ⟨by decide, by decide, by decide, by decide, by decide⟩
  have hproper : symbols.Proper :=
    ⟨harrow, ⟨by decide, by decide, by decide, by decide, by decide⟩, harrow⟩
  have ht : symbols.replace "p(x) <<- q(x) < -r(x)<--".toList = t := by decide +kernel
  have hfixed := replace_fixed hproper "p(x) <<- q(x) < -r(x)<--".toList
  rw [ht] at hfixed
  exact ⟨hproper, ht, hfixed⟩

end Connectives

end MinedRules
