import MinedRules.Rule.Canonical

/-!
# The stages of a rule

A rule has a canonical clause if every stage succeeds, and none if its marked clause is a fact.
-/

namespace MinedRules

namespace Canonicalizer

variable {k : Canonicalizer} {rule c : Text}

theorem canonicalize_congr {rule' : Text}
    (h : k.connectives.toClause rule = k.connectives.toClause rule') :
    k.canonicalize rule = k.canonicalize rule' := by
  rw [canonicalize, canonicalize, h]

theorem canonicalize_eq_ok_some_iff : k.canonicalize rule = .ok (some c) ↔
    ∃ m resolved, markVariables (k.connectives.toClause rule) = .ok m ∧ isFact m = false ∧
      resolveInverse k.marker m = .ok resolved ∧
      (if k.stripsTypes then strip resolved = .ok c else resolved = c) := by
  rw [canonicalize]
  cases hm : markVariables (k.connectives.toClause rule) with
  | error e => simp
  | ok m =>
    cases hf : isFact m with
    | true => simp [hf]
    | false =>
      cases hr : resolveInverse k.marker m with
      | error e => simp [hf, hr]
      | ok resolved =>
        cases hs : k.stripsTypes with
        | true => cases hstrip : strip resolved <;> simp [hf, hr, hstrip, Except.map]
        | false => simp [hf, hr]

theorem canonicalize_eq_ok_none_iff : k.canonicalize rule = .ok none ↔
    ∃ m, markVariables (k.connectives.toClause rule) = .ok m ∧ isFact m = true := by
  rw [canonicalize]
  cases hm : markVariables (k.connectives.toClause rule) with
  | error e => simp
  | ok m =>
    cases hf : isFact m with
    | true => simp [hf]
    | false =>
      cases hr : resolveInverse k.marker m with
      | error e => simp [hf, hr]
      | ok resolved => cases hs : k.stripsTypes <;> cases hstrip : strip resolved <;>
          simp [hf, hr, hstrip, Except.map]

end Canonicalizer

end MinedRules
