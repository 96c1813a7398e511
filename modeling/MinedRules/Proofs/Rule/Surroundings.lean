import MinedRules.Conversion
import MinedRules.Proofs.Rule.Stages
import MinedRules.Proofs.RuleSet.Runs
import MinedRules.Proofs.Text.Layers
import MinedRules.Proofs.Text.Scan

/-!
# White space around a rule

No symbol reaches into the white space around a rule, if symbols have no white space themselves
(`Connectives.Solid`).  So it is still there when all symbols are replaced (`Connectives.replace_surrounded`),
and the first trim removes it.

* `Connectives.toClause_surrounded` : the clause is that of the rule without its surroundings.
* `Conversion.addRule_again` : a rule with the same outcome adds nothing to the rule set.
* `canonicalize_surrounded` : rules that differ in their surroundings only are read alike and merged.
-/

namespace MinedRules

variable {front back : Text} (hfront : ∀ c ∈ front, isBlank c = true)
  (hback : ∀ c ∈ back, isBlank c = true)

/-! ### Replacing -/

namespace Connectives

/-- A symbol that is not empty and has no white space. -/
structure IsSolid (symbol : Text) : Prop where
  nonempty : symbol ≠ []
  solid : ∀ c ∈ symbol, isBlank c = false

/-- All three symbols are solid. -/
structure Solid (symbols : Connectives) : Prop where
  implication : IsSolid symbols.implication
  conjunction : IsSolid symbols.conjunction
  disjunction : IsSolid symbols.disjunction

variable {symbol : Text} {symbols : Connectives}

theorem IsSolid.disjoint (h : IsSolid symbol) {t : Text} (ht : ∀ c ∈ t, isBlank c = true) :
    t.Disjoint symbol :=
  fun c hc hsymbol => Text.ne_of_class (ht c hc) (h.solid c hsymbol) rfl

include hfront hback in
theorem IsSolid.replace_surrounded (h : IsSolid symbol) (operator t : Text) :
    Text.replace symbol operator (front ++ t ++ back) =
      front ++ Text.replace symbol operator t ++ back := by
  have hoff : ∀ c ∈ back, c ∉ symbol := fun c hc => h.disjoint hback hc
  rw [Text.replace_append_of_disjoint h.nonempty hoff,
    Text.replace_disjoint_append h.nonempty (h.disjoint hfront)]

include hfront hback in
theorem replace_surrounded (h : symbols.Solid) (rule : Text) :
    symbols.replace (front ++ rule ++ back) = front ++ symbols.replace rule ++ back := by
  rw [replace, h.implication.replace_surrounded hfront hback,
    h.conjunction.replace_surrounded hfront hback, h.disjunction.replace_surrounded hfront hback,
    ← replace]

include hfront hback in
theorem toClause_surrounded (h : symbols.Solid) (rule : Text) :
    symbols.toClause (front ++ rule ++ back) = symbols.toClause rule := by
  have htrim : Text.trim (front ++ symbols.replace rule ++ back) = Text.trim (symbols.replace rule) :=
    Text.trimBy_append_of_all hfront hback _
  rw [toClause, replace_surrounded hfront hback h, htrim, ← toClause]

theorem toClause_of_trim_eq (h : symbols.Solid) {rule rule' : Text}
    (htrim : Text.trim rule' = Text.trim rule) : symbols.toClause rule' = symbols.toClause rule := by
  have hself : ∀ t, symbols.toClause t = symbols.toClause (Text.trim t) := fun t => by
    obtain ⟨a, b, ht, ha, hb⟩ := Text.exists_trimBy isBlank t
    exact (congrArg symbols.toClause ht).trans (toClause_surrounded ha hb h _)
  rw [hself rule', htrim, ← hself rule]

end Connectives

/-! ### Merging -/

/-- **A second rule with the same outcome adds nothing to the rule set**, whatever its file. -/
theorem Conversion.addRule_again {k : Canonicalizer} {p p' : Path} {c c₁ : Conversion}
    {rule rule' : Text} (hsame : k.canonicalize rule' = k.canonicalize rule)
    (h : addRule k p c rule = .ok c₁) :
    ∃ c₂, addRule k p' c₁ rule' = .ok c₂ ∧ c₂.ruleSet = c₁.ruleSet := by
  rw [addRule] at h ⊢
  rw [hsame]
  cases hrule : k.canonicalize rule with
  | error e =>
    rw [hrule] at h
    exact nomatch h
  | ok o =>
    rw [hrule] at h
    cases o with
    | none => exact ⟨_, rfl, rfl⟩
    | some clause =>
      refine ⟨_, rfl, RuleSet.insert_of_mem ?_⟩
      obtain rfl := Except.ok.inj h
      exact RuleSet.mem_insert.2 (.inl rfl)

/-! ### Rules and their surroundings -/

/-- **White space around a rule does not matter.**  With solid symbols, a rule in white space and the
rule alone have the same outcome: the same clause, no clause, or the same error.  So rules that are
the same when they are trimmed have one outcome, and when one of them has been added to a conversion,
the other one adds nothing to its rule set. -/
theorem canonicalize_surrounded (k : Canonicalizer) (h : k.connectives.Solid) (rule : Text) :
    (∀ front back : Text, (∀ c ∈ front, isBlank c = true) → (∀ c ∈ back, isBlank c = true) →
      k.canonicalize (front ++ rule ++ back) = k.canonicalize rule) ∧
    ∀ rule', Text.trim rule' = Text.trim rule →
      k.canonicalize rule' = k.canonicalize rule ∧
      ∀ (p p' : Path) (c c₁ : Conversion), Conversion.addRule k p c rule = .ok c₁ →
        ∃ c₂, Conversion.addRule k p' c₁ rule' = .ok c₂ ∧ c₂.ruleSet = c₁.ruleSet := by
  refine ⟨fun front back hfront hback => ?_, fun rule' htrim => ?_⟩
  · exact Canonicalizer.canonicalize_congr (Connectives.toClause_surrounded hfront hback h rule)
  · have hsame := Canonicalizer.canonicalize_congr (Connectives.toClause_of_trim_eq h htrim)
    exact ⟨hsame, fun p p' c c₁ => Conversion.addRule_again hsame⟩

/-- Symbols at the ends of a rule, and an error with its position; the rule and the same rule alone make
one clause. -/
theorem canonicalize_surrounded_touching :
    let k : Canonicalizer := ⟨⟨['=', '>'], ['&'], ['|']⟩, ['I', 'N', 'V'], true⟩
    let front := "\u2003\t".toList
    let back := "\u00a0\n ".toList
    let rule := "&p(x) => INVq(x,y)&".toList
    k.connectives.Solid ∧
      k.canonicalize (front ++ "=>p(x))".toList ++ back) = .error (.unmatchedClose 6) ∧
      ∃ c₁ c₂, Conversion.addRule k [] {} (front ++ rule ++ back) = .ok c₁ ∧
        Conversion.addRule k [] c₁ rule = .ok c₂ ∧
        c₂.ruleSet.clauses = ["p(X) :- q(Y,X).".toList] := by
  intro k front back rule
  have hsolid : k.connectives.Solid :=
    ⟨⟨by decide, by simp [k, isBlank]⟩, ⟨by decide, by simp [k, isBlank]⟩,
      ⟨by decide, by simp [k, isBlank]⟩⟩
  have hfront : ∀ c ∈ front, isBlank c = true := List.all_eq_true.1 (by decide)
  have hback : ∀ c ∈ back, isBlank c = true := List.all_eq_true.1 (by decide)
  have hsame := canonicalize_surrounded k hsolid
  have hrule : k.canonicalize (front ++ rule ++ back) = .ok (some "p(X) :- q(Y,X).".toList) := by
    rw [(hsame rule).1 front back hfront hback]
    decide +kernel
  refine ⟨hsolid, ?_, ?_⟩
  · rw [(hsame _).1 front back hfront hback]
    decide +kernel
  · obtain ⟨c₁, hc₁, hclauses⟩ : ∃ c₁,
        Conversion.addRule k [] {} (front ++ rule ++ back) = .ok c₁ ∧
          c₁.ruleSet.clauses = ["p(X) :- q(Y,X).".toList] := by
      rw [Conversion.addRule, hrule]
      exact ⟨_, rfl, rfl⟩
    have htrim : Text.trim rule = Text.trim (front ++ rule ++ back) := by decide +kernel
    obtain ⟨c₂, hc₂, hset⟩ := ((hsame _).2 rule htrim).2 [] [] {} c₁ hc₁
    exact ⟨c₁, c₂, hc₁, hc₂, by rw [hset, hclauses]⟩

end MinedRules
