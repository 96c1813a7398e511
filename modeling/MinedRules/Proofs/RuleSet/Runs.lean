import MinedRules.Proofs.RuleSet.Members
import Mathlib.Data.Set.Card

/-!
# Runs of operations on a rule set

A run starts with the empty set and inserts clauses one by one; a list of clauses makes a new set in
place of the one before.  The history alone decides which clauses a run ends with: those that were
supplied since the last list, which is included (`RuleSet.Supplies`).

* `RuleSet.mem_perform` : what one operation makes of the members.
* `RuleSet.mem_run` : the members after a whole run.
* `RuleSet.run_from_empty` : the set after a run lists exactly the supplied clauses in byte order, an
  insertion tells whether its clause is new, and what was supplied is all that matters.
-/

namespace MinedRules

namespace RuleSet

/-- One operation on a rule set. -/
inductive Operation
  /-- One clause more. -/
  | insert (clause : Text)
  /-- The set of these clauses, in place of the set so far. -/
  | fromList (clauses : List Text)

namespace Operation

/-- The clauses that the operation brings. -/
def clauses : Operation → List Text
  | insert clause => [clause]
  | fromList clauses => clauses

/-- Does the operation drop the set so far? -/
def startsAnew : Operation → Bool
  | insert _ => false
  | fromList _ => true

end Operation

/-- The set after an operation, and whether an inserted clause is new. -/
def perform (s : RuleSet) : Operation → RuleSet × Option Bool
  | .insert clause => ((s.insert clause).2, some (s.insert clause).1)
  | .fromList clauses => (ofList clauses, none)

/-- The set after operations, one after the other, and what each of them answers. -/
def run (s : RuleSet) : List Operation → RuleSet × List (Option Bool)
  | [] => (s, [])
  | op :: ops =>
    let (last, answers) := run (s.perform op).1 ops
    (last, (s.perform op).2 :: answers)

/-- Some operation brings the clause, and none after it drops the set. -/
def Supplies (ops : List Operation) (c : Text) : Prop :=
  ∃ before op after, ops = before ++ op :: after ∧ c ∈ op.clauses ∧
    ∀ later ∈ after, later.startsAnew = false

variable {s : RuleSet} {op : Operation} {ops ops' : List Operation} {c d : Text}

theorem not_supplies_nil (c : Text) : ¬ Supplies [] c := by
  rintro ⟨before, op, after, h, -⟩
  simp at h

theorem supplies_cons_iff : Supplies (op :: ops) c ↔
    (c ∈ op.clauses ∧ ∀ later ∈ ops, later.startsAnew = false) ∨ Supplies ops c := by
  constructor
  · rintro ⟨before, op', after, h, hc, hafter⟩
    rcases List.cons_eq_append_iff.1 h with ⟨rfl, h⟩ | ⟨before, rfl, h⟩
    · obtain ⟨rfl, rfl⟩ := List.cons.inj h
      exact .inl ⟨hc, hafter⟩
    · exact .inr ⟨before, op', after, (List.cons.inj h).2, hc, hafter⟩
  · rintro (⟨hc, hops⟩ | ⟨before, op', after, rfl, hc, hafter⟩)
    · exact ⟨[], op, ops, rfl, hc, hops⟩
    · exact ⟨op :: before, op', after, rfl, hc, hafter⟩

/-! ### Members -/

/-- **One step**: the operation adds its clauses to those of the set, or drops these. -/
theorem mem_perform : c ∈ (s.perform op).1.clauses ↔
    c ∈ op.clauses ∨ (op.startsAnew = false ∧ c ∈ s.clauses) := by
  cases op with
  | insert d => simp [perform, Operation.clauses, Operation.startsAnew, mem_insert]
  | fromList l => simp [perform, Operation.clauses, Operation.startsAnew, mem_ofList]

/-- **A whole run**: the clauses are the supplied ones, and those of the first set if it was never
dropped. -/
theorem mem_run : c ∈ (s.run ops).1.clauses ↔
    Supplies ops c ∨ ((∀ op ∈ ops, op.startsAnew = false) ∧ c ∈ s.clauses) := by
  induction ops generalizing s with
  | nil => simp [run, not_supplies_nil]
  | cons op ops ih =>
    simp only [run, ih, mem_perform, supplies_cons_iff, List.forall_mem_cons]
    tauto

theorem mem_run_empty : c ∈ (run ∅ ops).1.clauses ↔ Supplies ops c := by
  have hnone : c ∉ (∅ : RuleSet).clauses := List.not_mem_nil
  rw [mem_run, or_iff_left fun h => hnone h.2]

theorem run_append (s : RuleSet) (ops ops' : List Operation) :
    s.run (ops ++ ops') =
      (((s.run ops).1.run ops').1, (s.run ops).2 ++ ((s.run ops).1.run ops').2) := by
  induction ops generalizing s with
  | nil => rfl
  | cons op ops ih => simp only [List.cons_append, run, ih]

theorem length_answers (s : RuleSet) (ops : List Operation) :
    (s.run ops).2.length = ops.length := by
  induction ops generalizing s with
  | nil => rfl
  | cons op ops ih => simp only [run, List.length_cons, ih]

/-! ### Insertions -/

theorem insert_isNew_iff : (s.insert c).1 = true ↔ c ∉ s.clauses := by
  simp [insert, contains]

theorem insert_of_mem (h : c ∈ s.clauses) : (s.insert c).2 = s :=
  ext_mem fun d => by
    rw [mem_insert]
    exact or_iff_right_of_imp fun hd => hd ▸ h

/-! ### The set after a run -/

/-- The set lists the texts with a property, in ascending order of their bytes. -/
structure IsListing (s : RuleSet) (P : Text → Prop) : Prop where
  ascending : (s.clauses.map Text.encode).Pairwise (· < ·)
  mem_iff : ∀ c, c ∈ s.clauses ↔ P c
  size : {c | P c}.encard = s.size

theorem isListing_of_mem_iff {P : Text → Prop} (h : ∀ c, c ∈ s.clauses ↔ P c) :
    s.IsListing P where
  ascending := List.pairwise_map.2 s.ascending
  mem_iff := h
  size := by
    have hset : {c | P c} = (s.clauses.toFinset : Set Text) := by
      ext c
      simp [h]
    rw [hset, Set.encard_coe_eq_coe_finsetCard, List.toFinset_card_of_nodup s.nodup_clauses, size]

/-- **A run from the empty set.**  Afterwards the set lists what the run supplied.  An insertion in a
run tells whether its clause had not been supplied before, and changes nothing if it had.  Another
run that supplies the same clauses ends with the same set and the same text. -/
theorem run_from_empty (ops : List Operation) :
    IsListing (run ∅ ops).1 (Supplies ops) ∧
    (∀ c later, ∃ isNew, (run ∅ (ops ++ .insert c :: later)).2[ops.length]? = some (some isNew) ∧
      (isNew = true ↔ ¬ Supplies ops c) ∧
      (isNew = false → (run ∅ (ops ++ [.insert c])).1 = (run ∅ ops).1)) ∧
    ∀ ops', (∀ c, Supplies ops c ↔ Supplies ops' c) →
      (run ∅ ops).1 = (run ∅ ops').1 ∧ (run ∅ ops).1.render = (run ∅ ops').1.render := by
  refine ⟨isListing_of_mem_iff fun c => mem_run_empty, fun c later => ?_, fun ops' h => ?_⟩
  · refine ⟨((run ∅ ops).1.insert c).1, ?_, ?_, fun hold => ?_⟩
    · rw [run_append, List.getElem?_append_right (length_answers _ _).le, length_answers,
        Nat.sub_self]
      rfl
    · rw [insert_isNew_iff, mem_run_empty]
    · have hmem : c ∈ (run ∅ ops).1.clauses := by
        by_contra hnew
        simp [insert_isNew_iff.2 hnew] at hold
      rw [run_append]
      exact insert_of_mem hmem
  · have heq : (run ∅ ops).1 = (run ∅ ops').1 :=
      ext_mem fun c => by rw [mem_run_empty, mem_run_empty, h]
    exact ⟨heq, by rw [heq]⟩

/-- The clauses before the list do not count, nor do order and repetitions. -/
theorem run_from_empty_reordered :
    let ops : List Operation :=
      [.insert "z.".toList, .fromList ["é.".toList, "b.".toList], .insert "B.".toList,
        .insert "b.".toList]
    let ops' : List Operation :=
      [.fromList ["b.".toList, "B.".toList, "b.".toList], .insert "é.".toList]
    (∀ c, Supplies ops c ↔ Supplies ops' c) ∧ (run ∅ ops).1 = (run ∅ ops').1 ∧
      (run ∅ ops).1.render = "B.\nb.\né.".toList ∧
      (run ∅ ops).2 = [some true, none, some true, some false] := by
  intro ops ops'
  have h : ∀ c, Supplies ops c ↔ Supplies ops' c := fun c => by
    simp only [ops, ops', supplies_cons_iff, not_supplies_nil, List.forall_mem_cons]
    simp only [Operation.clauses, Operation.startsAnew, List.mem_cons, List.not_mem_nil]
    grind
  exact ⟨h, ((run_from_empty ops).2.2 ops' h).1, by decide, by decide⟩

end RuleSet

end MinedRules
