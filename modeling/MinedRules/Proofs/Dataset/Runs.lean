import MinedRules.Proofs.Dataset.Dictionary
import Mathlib.Data.List.Induction

/-!
# Runs of operations on a dictionary

A run starts with the dictionary without names; one after the other, its operations give a number to
a name or ask for the number of a name.  The names that have been given a number come in the order
of their first operation, and no later operation moves them.

* `Dictionary.perform_of_id?` : a name that has a number keeps the dictionary as it is.
* `Dictionary.prefix_run` : the names before a run are the first ones after it.
* `Dictionary.toList_run` : the names after a run.
* `Dictionary.getElem?_answers` : what the operations of a run answer.
* `Dictionary.run_from_empty_numbers` : names, numbers and answers of a run.
-/

namespace MinedRules

namespace Dictionary

/-- One operation on a dictionary. -/
inductive Operation
  /-- The number of the name, which gets the next one if it has none. -/
  | intern (name : Text)
  /-- The number of the name, if it has one. -/
  | find (name : Text)

namespace Operation

/-- The name that the operation is about. -/
def name : Operation → Text
  | intern name => name
  | find name => name

/-- The name that the operation gives a number. -/
def interned? : Operation → Option Text
  | intern name => some name
  | find _ => none

end Operation

/-- The dictionary after an operation, and the number that it answers. -/
def perform (d : Dictionary) : Operation → Dictionary × Option Nat
  | .intern name => ((d.intern name).2, some (d.intern name).1)
  | .find name => (d, d.id? name)

/-- The dictionary after operations, one after the other, and what each of them answers. -/
def run (d : Dictionary) : List Operation → Dictionary × List (Option Nat)
  | [] => (d, [])
  | op :: ops =>
    let (last, answers) := run (d.perform op).1 ops
    (last, (d.perform op).2 :: answers)

/-- The names that operations give a number, with repetitions. -/
def interned (ops : List Operation) : List Text := ops.filterMap Operation.interned?

variable {d : Dictionary} {op op' : Operation} {ops : List Operation} {name : Text} {id : Nat}

/-! ### One operation -/

theorem id?_eq_none_iff : d.id? name = none ↔ name ∉ d.toList := by
  rw [← exists_id?_iff, Option.eq_none_iff_forall_ne_some, not_exists]

theorem intern_of_id? (h : d.id? name = some id) : d.intern name = (id, d) := by
  rw [intern]
  split
  · next found hfound => rw [Option.some.inj (hfound.symm.trans h)]
  · next hnone => exact absurd (h.symm.trans hnone) (Option.some_ne_none id)

theorem length_toList (d : Dictionary) : d.toList.length = d.size := Array.length_toList

theorem fst_intern_of_new (h : d.id? name = none) : (d.intern name).1 = d.size := by
  rw [intern]
  split
  · next found hfound => exact absurd (hfound.symm.trans h) (Option.some_ne_none found)
  · rfl

/-- **The number that a name gets is its number from then on.** -/
theorem id?_intern (d : Dictionary) (name : Text) :
    (d.intern name).2.id? name = some (d.intern name).1 := by
  cases h : d.id? name with
  | some id => rw [intern_of_id? h, h]
  | none =>
    rw [id?_eq_some_iff, toList_intern, if_neg (id?_eq_none_iff.1 h), fst_intern_of_new h,
      ← length_toList, List.getElem?_concat_length]

theorem perform_of_id? (h : d.id? op.name = some id) : d.perform op = (d, some id) := by
  cases op with
  | intern name =>
    have hintern : d.intern name = (id, d) := intern_of_id? h
    rw [perform, hintern]
  | find name => exact congrArg _ h

theorem id?_perform (h : (d.perform op).2 = some id) : (d.perform op).1.id? op.name = some id := by
  cases op with
  | intern name => exact (id?_intern d name).trans h
  | find name => exact h

theorem prefix_perform (d : Dictionary) (op : Operation) :
    d.toList <+: (d.perform op).1.toList := by
  cases op with
  | intern name =>
    rw [perform, toList_intern]
    split
    · exact List.prefix_rfl
    · exact List.prefix_append ..
  | find name => exact List.prefix_rfl

/-! ### Whole runs -/

theorem run_append (d : Dictionary) (ops ops' : List Operation) :
    d.run (ops ++ ops') =
      (((d.run ops).1.run ops').1, (d.run ops).2 ++ ((d.run ops).1.run ops').2) := by
  induction ops generalizing d with
  | nil => rfl
  | cons op ops ih => simp only [List.cons_append, run, ih]

/-- **No run moves a name.** -/
theorem prefix_run (d : Dictionary) (ops : List Operation) : d.toList <+: (d.run ops).1.toList := by
  induction ops generalizing d with
  | nil => exact List.prefix_rfl
  | cons op ops ih => exact (prefix_perform d op).trans (ih _)

theorem id?_run (h : d.id? name = some id) (ops : List Operation) :
    (d.run ops).1.id? name = some id := by
  rw [id?_eq_some_iff] at h ⊢
  obtain ⟨later, hlater⟩ := prefix_run d ops
  rw [← hlater, List.getElem?_append_left (List.getElem?_eq_some_iff.1 h).1, h]

theorem eraseDups_concat (names : List Text) (name : Text) :
    (names ++ [name]).eraseDups =
      if name ∈ names then names.eraseDups else names.eraseDups ++ [name] := by
  rw [List.eraseDups_append, List.cons_removeAll, List.nil_removeAll]
  by_cases h : name ∈ names
  · simp [h]
  · simp [h, List.eraseDups_cons]

/-- **The names after a run** are the given ones, without repetitions. -/
theorem toList_run (ops : List Operation) : (run ∅ ops).1.toList = (interned ops).eraseDups := by
  induction ops using List.reverseRecOn with
  | nil => rfl
  | append_singleton ops op ih =>
    rw [run_append]
    cases op with
    | intern name =>
      have hinterned : interned (ops ++ [.intern name]) = interned ops ++ [name] :=
        List.filterMap_append ..
      rw [hinterned, eraseDups_concat]
      exact (toList_intern _ name).trans (by rw [ih]; simp only [List.mem_eraseDups])
    | find name =>
      have hinterned : interned (ops ++ [.find name]) = interned ops := by
        simp [interned, Operation.interned?]
      rw [hinterned, ← ih]
      rfl

theorem id?_run_eq_none_iff : (run ∅ ops).1.id? name = none ↔ name ∉ interned ops := by
  rw [id?_eq_none_iff, toList_run, List.mem_eraseDups]

/-- **The answers**: an operation answers what it answers to the dictionary before it. -/
theorem getElem?_answers {i : Nat} (h : ops[i]? = some op) :
    (d.run ops).2[i]? = some ((d.run (ops.take i)).1.perform op).2 := by
  induction ops generalizing d i with
  | nil => simp at h
  | cons first ops ih =>
    cases i with
    | zero =>
      obtain rfl := Option.some.inj h
      rfl
    | succ i => exact ih h

/-- **No later operation answers another number.** -/
theorem answers_stable {i j : Nat} (hij : i ≤ j) (hi : ops[i]? = some op) (hj : ops[j]? = some op')
    (hname : op'.name = op.name) (hanswer : (d.run ops).2[i]? = some (some id)) :
    (d.run ops).2[j]? = some (some id) := by
  rcases Nat.eq_or_lt_of_le hij with rfl | hij
  · exact hanswer
  · rw [getElem?_answers hi] at hanswer
    -- the operations before the second one: those up to the first one, and some more
    have hsplit : ops.take j = ops.take i ++ op :: (ops.take j).drop (i + 1) := by
      have htake : (ops.take j).take (i + 1) = ops.take i ++ [op] := by
        rw [List.take_take, Nat.min_eq_left hij, List.take_add_one, hi, Option.toList_some]
      rw [List.append_cons, ← htake, List.take_append_drop]
    have hafter := id?_run (id?_perform (Option.some.inj hanswer)) ((ops.take j).drop (i + 1))
    have hbefore : (d.run (ops.take j)).1.id? op'.name = some id := by
      rw [hsplit, run_append, hname]
      exact hafter
    rw [getElem?_answers hj, perform_of_id? hbefore]

/-- The dictionary lists the names that have been given, each one at the place of its number. -/
structure IsNumbering (d : Dictionary) (given : List Text) : Prop where
  names : d.toList = given.eraseDups
  id?_eq_some_iff : ∀ name id, d.id? name = some id ↔ d.toList[id]? = some name
  id?_eq_none_iff : ∀ name, d.id? name = none ↔ name ∉ given

/-- What giving a number to a name does: the number is the place of the name, and the dictionary is
the same as before unless the name is new. -/
structure IsIntern (d : Dictionary) (name : Text) (id : Nat) (d' : Dictionary) : Prop where
  place : d'.toList[id]? = some name
  grows_iff : d'.size = d.size + 1 ↔ name ∉ d.toList
  unchanged : name ∈ d.toList → d' = d

theorem isIntern (d : Dictionary) (name : Text) :
    IsIntern d name (d.intern name).1 (d.intern name).2 where
  place := id?_eq_some_iff.1 (id?_intern d name)
  grows_iff := by
    rw [← length_toList, ← length_toList, toList_intern]
    split <;> simp [*]
  unchanged h := by
    obtain ⟨id, hid⟩ := exists_id?_iff.2 h
    rw [intern_of_id? hid]

/-- **A run from the dictionary without names.**  Afterwards the dictionary lists the given names at
the places of their numbers.  An operation of a run that gives a number to a name answers the place
of the name, adds the name if it is new and changes nothing if it is not.  Once an operation has
answered the number of a name, all later ones for this name answer the same. -/
theorem run_numbers (ops : List Operation) :
    IsNumbering (run ∅ ops).1 (interned ops) ∧
    (∀ name later, ∃ id,
      (run ∅ (ops ++ .intern name :: later)).2[ops.length]? = some (some id) ∧
      IsIntern (run ∅ ops).1 name id (run ∅ (ops ++ [.intern name])).1) ∧
    ∀ (i j : Nat) op op' id, i ≤ j → ops[i]? = some op → ops[j]? = some op' → op'.name = op.name →
      (run ∅ ops).2[i]? = some (some id) → (run ∅ ops).2[j]? = some (some id) := by
  refine ⟨⟨toList_run ops, fun _ _ => id?_eq_some_iff, fun _ => id?_run_eq_none_iff⟩,
    fun name later => ⟨((run ∅ ops).1.intern name).1, ?_, ?_⟩,
    fun i j op op' id hij hi hj hname => answers_stable hij hi hj hname⟩
  · have hat : (ops ++ .intern name :: later)[ops.length]? = some (.intern name) := by
      rw [List.getElem?_append_right (Nat.le_refl _), Nat.sub_self, List.getElem?_cons_zero]
    rw [getElem?_answers hat, List.take_left]
    rfl
  · rw [run_append]
    exact isIntern _ name

/-- A name is looked up before and after it gets its number. -/
theorem run_numbers_repeated :
    let ops : List Operation :=
      [.intern ['b'], .find ['a'], .intern ['a'], .intern ['b'], .find ['a']]
    (run ∅ ops).1.toList = [['b'], ['a']] ∧ (run ∅ ops).2[1]? = some none ∧
      (run ∅ ops).2[2]? = some (some 1) ∧ (run ∅ ops).2[4]? = some (some 1) := by
  intro ops
  have hnames : (run ∅ ops).1.toList = [['b'], ['a']] := by
    rw [(run_numbers ops).1.names]
    decide
  have hbefore : (run ∅ (ops.take 1)).1.id? ['a'] = none :=
    ((run_numbers (ops.take 1)).1.id?_eq_none_iff ['a']).2 (by decide)
  have hasked : (run ∅ ops).2[1]? = some none := by
    have hat : ops[1]? = some (.find ['a']) := rfl
    rw [getElem?_answers hat]
    exact congrArg some hbefore
  have hgiven : (run ∅ ops).2[2]? = some (some 1) := by
    obtain ⟨id, hanswer, hintern⟩ := (run_numbers (ops.take 2)).2.1 ['a'] (ops.drop 3)
    have hlisted : (run ∅ (ops.take 2 ++ [.intern ['a']])).1.toList = [['b'], ['a']] :=
      (run_numbers _).1.names.trans (by decide)
    have hplace := hintern.place
    rw [hlisted] at hplace
    obtain rfl : id = 1 := by
      match id, hplace with
      | 1, _ => rfl
    exact hanswer
  exact ⟨hnames, hasked, hgiven,
    (run_numbers ops).2.2 2 4 _ _ 1 (by decide) rfl rfl rfl hgiven⟩

end Dictionary

end MinedRules
