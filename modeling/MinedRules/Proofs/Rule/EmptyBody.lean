import MinedRules.Proofs.Rule.Conservation
import MinedRules.Proofs.Rule.Marking

/-!
# Rules without a body

The body of a clause is what follows its *first* neck, but a rule is taken for a fact if nothing but the
full stop follows its *last* one, white space apart (`isFact_iff`).  The two agree unless there is another
neck at the end of the body (`EndsInNeck`).

* `endsInNeck_append_iff` : what stands at the end of a clause, seen from its first neck.
* `canonicalize_excludes` : which rules are excluded as facts.
* `canonicalize_excludes_body` : a literal of the body that is excluded with its rule.
-/

namespace MinedRules

/-- White space apart, the text ends with a neck and a full stop. -/
def EndsInNeck (t : Text) : Prop := neck ++ ['.'] <:+ Text.compact t

instance : DecidablePred EndsInNeck := fun t =>
  inferInstanceAs (Decidable (neck ++ ['.'] <:+ Text.compact t))

variable {a b t head body : Text}

theorem isFact_iff : isFact t = true ↔ EndsInNeck t := by
  rw [isFact, List.isSuffixOf_iff_suffix, EndsInNeck]

/-- Behind a pattern that does not overlap with itself, nothing follows or another occurrence ends the
text. -/
theorem suffix_append_pattern_iff {p : Char} {ps : Text} (hp : p ∉ ps) :
    p :: ps <:+ a ++ p :: ps ++ b ↔ b = [] ∨ p :: ps <:+ b := by
  constructor
  · rintro ⟨front, h⟩
    rw [List.append_assoc] at h
    rcases append_cons_eq_cases h with rfl | ⟨q, -, hps⟩ | ⟨q, rfl, hps⟩
    · exact .inl (by simpa using h)
    · exact absurd (hps ▸ by simp) hp
    · -- the occurrence at the end begins behind the pattern, or it would begin in its rest
      rcases List.append_eq_append_iff.1 hps with ⟨r, -, hb⟩ | ⟨r, hps, hb⟩
      · exact .inr ⟨r, hb.symm⟩
      · cases r with
        | nil => exact .inr (hb ▸ List.suffix_refl _)
        | cons x r =>
          obtain ⟨rfl, -⟩ := List.cons.inj hb
          exact absurd (hps ▸ by simp) hp
  · rintro (rfl | h)
    · exact ⟨a, by simp⟩
    · exact h.trans (List.suffix_append _ _)

/-- **The end of a clause, seen from its first neck.** -/
theorem endsInNeck_append_iff (h : body.getLast? = some '.') :
    EndsInNeck (head ++ neck ++ body) ↔ Text.compact body = ['.'] ∨ EndsInNeck body := by
  obtain ⟨u, rfl⟩ := List.getLast?_eq_some_iff.1 h
  have hbody : Text.compact (u ++ ['.']) = Text.compact u ++ ['.'] :=
    Text.compact_concat (by decide) u
  have hclause : Text.compact (head ++ neck ++ (u ++ ['.'])) =
      Text.compact head ++ neck ++ Text.compact u ++ ['.'] := by
    rw [Text.compact_append, Text.compact_append, hbody, ← List.append_assoc]
    rfl
  have hempty : Text.compact u ++ ['.'] = ['.'] ↔ Text.compact u = [] := by simp
  rw [EndsInNeck, EndsInNeck, hclause, hbody, List.suffix_append_self_iff,
    List.suffix_append_self_iff, hempty]
  exact suffix_append_pattern_iff (by decide)

namespace Canonicalizer

variable {k : Canonicalizer} {rule : Text}

theorem canonicalize_eq_ok_none_iff_endsInNeck : k.canonicalize rule = .ok none ↔
    Balanced (k.connectives.toClause rule) ∧ EndsInNeck (k.connectives.toClause rule) := by
  rw [canonicalize_eq_ok_none_iff, ← isFact_iff, ← isFact_uppercaseFrom 0]
  constructor
  · rintro ⟨m, hm, hfact⟩
    obtain ⟨hbal, hmarked⟩ := markVariables_eq_ok_iff.1 hm
    exact ⟨hbal, hmarked ▸ hfact⟩
  · rintro ⟨hbal, hfact⟩
    exact ⟨_, markVariables_eq_ok_iff.2 ⟨hbal, rfl⟩, hfact⟩

theorem canonicalize_eq_ok_none_iff_body (hbal : Balanced (k.connectives.toClause rule))
    (hcut : Text.cut? neck (k.connectives.toClause rule) = some (head, body)) :
    k.canonicalize rule = .ok none ↔ Text.compact body = ['.'] ∨ EndsInNeck body := by
  have hclause := Text.cut?_eq_some hcut
  have hlast : (head ++ neck ++ body).getLast? = some '.' := by
    rw [← hclause, Connectives.toClause, List.getLast?_concat]
  rw [canonicalize_eq_ok_none_iff_endsInNeck, ← endsInNeck_append_iff (getLast?_body hlast),
    ← hclause, and_iff_right hbal]

end Canonicalizer

/-- **Which rules are excluded as facts.**  If another neck does not end the body, the rule is excluded if
and only if its body is empty; if it does, the rule is excluded although its body is not. -/
theorem canonicalize_excludes {k : Canonicalizer} {rule : Text}
    (hbal : Balanced (k.connectives.toClause rule))
    (hcut : Text.cut? neck (k.connectives.toClause rule) = some (head, body)) :
    (¬ EndsInNeck body → (k.canonicalize rule = .ok none ↔ Text.compact body = ['.'])) ∧
      (EndsInNeck body → k.canonicalize rule = .ok none ∧ Text.compact body ≠ ['.']) := by
  have hiff := Canonicalizer.canonicalize_eq_ok_none_iff_body hbal hcut
  refine ⟨fun hend => ?_, fun hend => ⟨hiff.2 (.inr hend), fun hempty => ?_⟩⟩
  · rw [hiff, or_iff_left hend]
  · rw [EndsInNeck, hempty] at hend
    exact absurd hend (by decide)

/-- Another implication in the middle of a body does not make it empty. -/
theorem canonicalize_excludes_two_implications :
    let rule := "p(x) <- q(x) <- r(x)".toList
    let body := " q(x) :- r(x).".toList
    ¬ EndsInNeck body ∧ Text.compact body ≠ ['.'] ∧
      ({} : Canonicalizer).canonicalize rule ≠ .ok none := by
  intro rule body
  have hcut : Text.cut? neck (({} : Connectives).toClause rule) = some ("p(x) ".toList, body) := by
    decide +kernel
  have hbal : Balanced (({} : Connectives).toClause rule) :=
    parenPairs_isOk_iff.1 ⟨[(1, 3), (9, 11), (17, 19)], by decide +kernel⟩
  have hend : ¬ EndsInNeck body := by decide
  have hbody : Text.compact body ≠ ['.'] := by decide
  have hiff := (canonicalize_excludes (k := {}) hbal hcut).1 hend
  exact ⟨hend, hbody, fun hnone => hbody (hiff.1 hnone)⟩

/-- **A literal of the body is excluded with its rule**, if an implication follows that has nothing behind
it, or if white space between a colon and a hyphen is all that keeps them from being one. -/
theorem canonicalize_excludes_body :
    let symbols : Connectives := {}
    let rule := "p(x) <- q(x) <- ".toList
    let rule' := "p(x) <- q(x) : -".toList
    (Balanced (symbols.toClause rule) ∧
      Text.cut? neck (symbols.toClause rule) = some ("p(x) ".toList, " q(x) :-.".toList) ∧
      Text.compact " q(x) :-.".toList ≠ ['.'] ∧ ({} : Canonicalizer).canonicalize rule = .ok none) ∧
    (Balanced (symbols.toClause rule') ∧
      Text.cut? neck (symbols.toClause rule') = some ("p(x) ".toList, " q(x) : -.".toList) ∧
      Text.compact " q(x) : -.".toList ≠ ['.'] ∧ ({} : Canonicalizer).canonicalize rule' = .ok none) := by
  intro symbols rule rule'
  have hbal : Balanced (symbols.toClause rule) :=
    parenPairs_isOk_iff.1 ⟨[(1, 3), (9, 11)], by decide +kernel⟩
  have hbal' : Balanced (symbols.toClause rule') :=
    parenPairs_isOk_iff.1 ⟨[(1, 3), (9, 11)], by decide +kernel⟩
  exact ⟨⟨hbal, by decide +kernel, by decide +kernel, by decide +kernel⟩,
    hbal', by decide +kernel, by decide +kernel, by decide +kernel⟩

end MinedRules
