import MinedRules.Proofs.Dataset.Runs
import MinedRules.Proofs.Dataset.Writing

/-!
# The numbers and triples of a list of facts

A dataset numbers the heads and tails of its facts in one sequence and the relations in another one
(`Dictionary.isNumbering_internAll`).  Since every head and tail has a number, the triples are those of
the facts, one for each and in the same places (`Dataset.forall₂_triples`).

* `Dataset.ofFacts_numbers` : numbers, triples, the written file, and triples next to their facts.
-/

namespace MinedRules

/-! ### Names one after the other -/

namespace Dictionary

theorem internAll_eq_run (d : Dictionary) (names : List Text) :
    d.internAll names = (d.run (names.map .intern)).1 := by
  induction names generalizing d with
  | nil => rfl
  | cons name names ih => exact ih _

theorem interned_map_intern (names : List Text) : interned (names.map .intern) = names := by
  rw [interned, List.filterMap_map]
  exact List.filterMap_some

/-- **Names are numbered in the order of their first occurrence.** -/
theorem isNumbering_internAll (names : List Text) :
    IsNumbering ((∅ : Dictionary).internAll names) names where
  names := by rw [internAll_eq_run, toList_run, interned_map_intern]
  id?_eq_some_iff _ _ := id?_eq_some_iff
  id?_eq_none_iff _ := by rw [internAll_eq_run, id?_run_eq_none_iff, interned_map_intern]

theorem lt_size_of_id? {d : Dictionary} {name : Text} {id : Nat} (h : d.id? name = some id) :
    id < d.size := by
  rw [← length_toList]
  exact (List.getElem?_eq_some_iff.1 (id?_eq_some_iff.1 h)).1

end Dictionary

/-- The line of a triple. -/
def Triple.record (t : Triple) : Text :=
  Dataset.number t.head ++ '\t' :: t.relation ++ '\t' :: Dataset.number t.tail ++ ['\n']

namespace Dataset

variable {d : Dataset} {f : Fact} {t : Triple}

/-! ### Facts and triples -/

/-- The triple of a fact: the numbers of its head and its tail, which the dataset has, and its
relation. -/
structure IsTripleOf (d : Dataset) (f : Fact) (t : Triple) : Prop where
  head : d.entities.id? f.head = some t.head
  relation : t.relation = f.relation
  tail : d.entities.id? f.tail = some t.tail
  head_lt : t.head < d.entities.size
  tail_lt : t.tail < d.entities.size

theorem isTripleOf_of_triple? (h : d.triple? f = some t) : d.IsTripleOf f t := by
  obtain ⟨hhead, hrelation, htail⟩ := triple?_eq_some_iff.1 h
  exact ⟨hhead, hrelation.symm, htail, Dictionary.lt_size_of_id? hhead,
    Dictionary.lt_size_of_id? htail⟩

/-- **Every fact has its triple, in the same place.** -/
theorem forall₂_triples (facts : List Fact) :
    List.Forall₂ (ofFacts facts).IsTripleOf facts (ofFacts facts).triples :=
  forall₂_filterMap (fun _ hf => exists_triple? hf) isTripleOf_of_triple?

theorem length_triples (facts : List Fact) : (ofFacts facts).triples.length = facts.length :=
  (forall₂_triples facts).length_eq.symm

theorem getElem?_triples {facts : List Fact} {i : Nat} (h : facts[i]? = some f) :
    ∃ t, (ofFacts facts).triples[i]? = some t ∧ (ofFacts facts).IsTripleOf f t := by
  obtain ⟨hi, rfl⟩ := List.getElem?_eq_some_iff.1 h
  have hi' : i < (ofFacts facts).triples.length := hi.trans_eq (length_triples facts).symm
  exact ⟨_, List.getElem?_eq_getElem hi', (forall₂_triples facts).get hi hi'⟩

/-- **A triple is put next to its own fact.** -/
theorem isTripleOf_of_mem_zip {facts : List Fact} {p : Triple × Fact}
    (h : p ∈ (ofFacts facts).triples.zip (ofFacts facts).facts) :
    (ofFacts facts).IsTripleOf p.2 p.1 :=
  (List.forall₂_iff_zip.1 (forall₂_triples facts).flip).2 h

theorem triplesFile_eq (triples : List Triple) :
    triplesFile triples = (triples.map Triple.record).flatten := rfl

/-! ### The dataset of a list of facts -/

/-- **The dataset of a list of facts.**  Entities are numbered in the order in which heads and tails
come first, fact by fact and the head before the tail, and relations in theirs.  There are as many
triples as facts; the triple in a place is that of the fact in this place, and its numbers are those of
entities.  So the file of the triples has one record for each fact, in their order, wherever it is
written; and if triples and facts are put side by side, all facts are there and each one has its own
triple. -/
theorem ofFacts_numbers (facts : List Fact) :
    let d := ofFacts facts
    Dictionary.IsNumbering d.entities (facts.flatMap fun f => [f.head, f.tail]) ∧
    Dictionary.IsNumbering d.relations (facts.map Fact.relation) ∧
    d.triples.length = facts.length ∧
    (∀ (i : Nat) f, facts[i]? = some f → ∃ t, d.triples[i]? = some t ∧ d.IsTripleOf f t) ∧
    (∀ (tree tree' : FileTree) (dir : Path), tree.writeDataset d dir = (.ok (), tree') →
      ∃ records : List Text, tree'.textAt? (dir.join triplesName) = some records.flatten ∧
        List.Forall₂ (fun f record => ∃ t, d.IsTripleOf f t ∧ record = t.record) facts records) ∧
    (d.triples.zip d.facts).map Prod.snd = facts ∧
    ∀ p ∈ d.triples.zip d.facts, d.IsTripleOf p.2 p.1 := by
  intro d
  have hlength : facts.length ≤ d.triples.length := (length_triples facts).ge
  refine ⟨?_, ?_, length_triples facts, fun i f => getElem?_triples, fun tree tree' dir h => ?_,
    List.map_snd_zip hlength, fun p => isTripleOf_of_mem_zip⟩
  · exact entities_ofFacts facts ▸ Dictionary.isNumbering_internAll _
  · exact relations_ofFacts facts ▸ Dictionary.isNumbering_internAll _
  · have hfile := (isIn_of_writeDataset h).triples
    rw [triplesFile_eq] at hfile
    refine ⟨d.triples.map Triple.record, hfile, ?_⟩
    rw [List.forall₂_map_right_iff]
    exact (forall₂_triples facts).imp fun f t ht => ⟨t, ht, rfl⟩

/-- Facts that share their names, written into the empty tree. -/
theorem ofFacts_numbers_shared :
    let f : Fact := ⟨"p".toList, "a".toList, "c".toList⟩
    let facts := [⟨"p".toList, "b".toList, "a".toList⟩, ⟨"q".toList, "a".toList, "b".toList⟩, f]
    let d := ofFacts facts
    let dir : Path := "/".toList
    d.entities.toList = ["b".toList, "a".toList, "c".toList] ∧
      d.relations.toList = ["p".toList, "q".toList] ∧
      d.triples[2]? = some ⟨1, "p".toList, 2⟩ ∧
      ∃ (tree : FileTree) (records : List Text),
        tree.textAt? (dir.join triplesName) = some records.flatten ∧ records.length = 3 := by
  intro f facts d dir
  obtain ⟨hentities, hrelations, -, htriples, hwritten, -⟩ := ofFacts_numbers facts
  have hnames : d.entities.toList = ["b".toList, "a".toList, "c".toList] :=
    hentities.names.trans (by decide)
  have hid : ∀ {name id}, d.entities.toList[id]? = some name → d.entities.id? name = some id :=
    (hentities.id?_eq_some_iff _ _).2
  refine ⟨hnames, hrelations.names.trans (by decide), ?_, ?_⟩
  · obtain ⟨⟨head, relation, tail⟩, ht, htriple⟩ := htriples 2 f rfl
    obtain rfl : 1 = head := Option.some.inj
      ((hid (by rw [hnames]; rfl)).symm.trans htriple.head)
    obtain rfl : 2 = tail := Option.some.inj
      ((hid (by rw [hnames]; rfl)).symm.trans htriple.tail)
    obtain rfl : relation = "p".toList := htriple.relation
    exact ht
  · obtain ⟨root, hroot⟩ : ∃ e, (∅ : FileTree).Leads dir e :=
      ⟨FileTree.root ∅, by decide, rfl⟩
    obtain ⟨tree, htree⟩ := exists_writeDataset (d := d) hroot (by decide +kernel)
    obtain ⟨records, hfile, hrecords⟩ := hwritten ∅ tree dir htree
    exact ⟨tree, records, hfile, hrecords.length_eq.symm⟩

end Dataset

end MinedRules
