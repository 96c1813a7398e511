import MinedRules.Conversion
import MinedRules.Proofs.RuleSet.Members
import Mathlib.Data.List.ReduceOption
import Mathlib.Algebra.GroupWithZero.Nat

/-!
# What a conversion takes in

A rule gives a clause, or nothing if it is a fact.  What a conversion has taken in is a tally of what
the rules gave (`Conversion.tally`): each loop over rules, attempts and files adds one more tally, by
the same lemma (`Conversion.foldlM_eq_ok_iff`), and it fails exactly if some rule gives neither.

* `Conversion.ofRecords_eq_ok_iff` : the tally of all records, starting with nothing
  (`Conversion.ofGiven`).
-/

namespace MinedRules

namespace Conversion

variable {k : Canonicalizer} {c c' : Conversion}

/-! ### Taking in rules -/

/-- The conversion with some files and attempts more, and with what their rules gave: a clause, or
nothing for a fact. -/
def tally (c : Conversion) (files attempts : Nat) (given : List (Option Text)) : Conversion where
  ruleSet := c.ruleSet.insertAll given.reduceOption
  statistics :=
    { files := c.statistics.files + files
      attempts := c.statistics.attempts + attempts
      rules := c.statistics.rules + given.length
      factsSkipped := c.statistics.factsSkipped + given.count none
      clauses := c.statistics.clauses + given.reduceOption.length }

theorem tally_tally (c : Conversion) (files attempts files' attempts' : Nat)
    (given given' : List (Option Text)) :
    (c.tally files attempts given).tally files' attempts' given' =
      c.tally (files + files') (attempts + attempts') (given ++ given') := by
  simp only [tally, List.reduceOption_append, RuleSet.insertAll_append, List.length_append,
    List.count_append, Nat.add_assoc]

/-- The conversion of some files and attempts whose rules gave this. -/
def ofGiven (files attempts : Nat) (given : List (Option Text)) : Conversion where
  ruleSet := .ofList given.reduceOption
  statistics :=
    { files := files
      attempts := attempts
      rules := given.length
      factsSkipped := given.count none
      clauses := given.reduceOption.length }

theorem tally_empty (files attempts : Nat) (given : List (Option Text)) :
    ({} : Conversion).tally files attempts given = ofGiven files attempts given := by
  simp only [tally, ofGiven, Nat.zero_add]
  rfl

/-! ### The loops -/

/-- If every step takes in what some rules give, so do all of them. -/
theorem foldlM_eq_ok_iff {α : Type} {step : Conversion → α → Except Failure Conversion}
    {files attempts : α → Nat} {rules : α → List Text}
    (hstep : ∀ c c' x, step c x = .ok c' ↔ ∃ given, (rules x).map k.canonicalize = given.map .ok ∧
      c' = c.tally (files x) (attempts x) given) {l : List α} :
    l.foldlM step c = .ok c' ↔ ∃ given, (l.flatMap rules).map k.canonicalize = given.map .ok ∧
      c' = c.tally (l.map files).sum (l.map attempts).sum given := by
  induction l generalizing c with
  | nil =>
    constructor
    · intro h
      exact ⟨[], rfl, (Except.ok.inj h).symm⟩
    · rintro ⟨given, hgiven, rfl⟩
      obtain rfl := List.map_eq_nil_iff.1 hgiven.symm
      rfl
  | cons x l ih =>
    have hcons : (x :: l).foldlM step c = .ok c' ↔
        ∃ c₁, step c x = .ok c₁ ∧ l.foldlM step c₁ = .ok c' := by
      rw [List.foldlM_cons]
      cases step c x <;> simp [bind, Except.bind]
    rw [hcons, List.flatMap_cons, List.map_append, List.map_cons, List.map_cons, List.sum_cons,
      List.sum_cons]
    -- what all rules give is what those of the first step give, and then what the others give
    simp only [hstep, ih, List.append_eq_map_iff]
    constructor
    · rintro ⟨c₁, ⟨given, hgiven, rfl⟩, given', hgiven', rfl⟩
      exact ⟨given ++ given', ⟨given, given', rfl, hgiven.symm, hgiven'.symm⟩, tally_tally ..⟩
    · rintro ⟨_, ⟨given, given', rfl, hgiven, hgiven'⟩, rfl⟩
      exact ⟨_, ⟨given, hgiven.symm, rfl⟩, given', hgiven'.symm, (tally_tally ..).symm⟩

theorem addRule_eq_ok_iff (k : Canonicalizer) (p : Path) (c c' : Conversion) (rule : Text) :
    addRule k p c rule = .ok c' ↔
      ∃ given, [rule].map k.canonicalize = given.map .ok ∧ c' = c.tally 0 0 given := by
  cases ho : k.canonicalize rule with
  | error e =>
    have hadd : addRule k p c rule ≠ .ok c' := by simp [addRule, ho]
    refine ⟨fun h => absurd h hadd, ?_⟩
    rintro ⟨given, hgiven, -⟩
    cases given <;> simp [ho] at hgiven
  | ok o =>
    have hadd : addRule k p c rule = .ok (c.tally 0 0 [o]) := by
      rw [addRule, ho]
      cases o <;> rfl
    rw [hadd]
    constructor
    · intro h
      exact ⟨[o], by simp [ho], (Except.ok.inj h).symm⟩
    · rintro ⟨given, hgiven, rfl⟩
      have hmap : [o].map Except.ok = given.map (Except.ok (ε := RuleError)) := by
        rw [← hgiven, List.map_singleton, List.map_singleton, ho]
      rw [List.map_injective_iff.2 (fun _ _ => Except.ok.inj) hmap]

theorem addAttempt_eq_ok_iff (k : Canonicalizer) (p : Path) (c c' : Conversion) (a : Attempt) :
    addAttempt k p c a = .ok c' ↔
      ∃ given, a.rules.map k.canonicalize = given.map .ok ∧ c' = c.tally 0 1 given := by
  have hstart : addAttempt k p c a = a.rules.foldlM (addRule k p) (c.tally 0 1 []) := rfl
  rw [hstart, foldlM_eq_ok_iff (addRule_eq_ok_iff k p)]
  simp [tally_tally]

theorem addFile_eq_ok_iff (k : Canonicalizer) (c c' : Conversion) (r : Records) :
    addFile k c r = .ok c' ↔
      ∃ given, (r.attempts.flatMap Attempt.rules).map k.canonicalize = given.map .ok ∧
        c' = c.tally 1 r.attempts.length given := by
  have hstart : addFile k c r = r.attempts.foldlM (addAttempt k r.path) (c.tally 1 0 []) := rfl
  rw [hstart, foldlM_eq_ok_iff (addAttempt_eq_ok_iff k r.path)]
  simp [tally_tally]

/-- **The conversion of all records is that of what their rules give.** -/
theorem ofRecords_eq_ok_iff {files : List Records} :
    ofRecords k files = .ok c ↔
      ∃ given, ((files.flatMap Records.attempts).flatMap Attempt.rules).map k.canonicalize =
          given.map .ok ∧
        c = ofGiven files.length (files.flatMap Records.attempts).length given := by
  rw [ofRecords, foldlM_eq_ok_iff (addFile_eq_ok_iff k)]
  simp [tally_empty, List.flatMap_assoc, List.length_flatMap]

end Conversion

end MinedRules
