import MinedRules.Dataset.Basic
import MinedRules.Proofs.Dataset.Dictionary
import MinedRules.Proofs.Fact.Layout
import MinedRules.Proofs.Fact.Lines
import Mathlib.Data.List.Forall2
import Mathlib.Data.List.TakeWhile

/-!
# Reading datasets back

The files of a dataset have one line for each entry, with tabs between its fields.  Names of facts
are made of word characters, so they have neither tabs nor line feeds, and the entries can be read
back from the lines (`Dataset.rows_fileOf`).

* `Dataset.readDictionary?_dictionaryFile`, `Dataset.readTriples?_triplesFile` : the entries of a file.
* `Dataset.mapM_triples` : the facts of the triples.
-/

namespace MinedRules

/-! ### Names of facts -/

namespace Fact

variable {f : Fact} {line : Text}

/-- All names of the fact are made of word characters. -/
structure IsPlain (f : Fact) : Prop where
  relation : ∀ c ∈ f.relation, isWordChar c = true
  head : ∀ c ∈ f.head, isWordChar c = true
  tail : ∀ c ∈ f.tail, isWordChar c = true

theorem isPlain_of_ofLine? (h : ofLine? line = some f) : f.IsPlain := by
  obtain ⟨l, hl, -, rfl⟩ := ofLine?_eq_some_iff.1 h
  exact ⟨hl.relation.word, hl.head.word, hl.tail.word⟩

end Fact

theorem FactFile.isPlain_of_mem {t : Text} {f : Fact} (h : f ∈ (ofText t).facts) : f.IsPlain := by
  rw [ofText_eq] at h
  obtain ⟨line, -, hline⟩ := List.mem_filterMap.1 h
  exact Fact.isPlain_of_ofLine? hline

namespace Dataset

/-! ### Rows and fields -/

section Rows

variable {α β : Type} {l : List α} {t : Text}

/-- A text that can stand between tabs in a line. -/
structure IsField (t : Text) : Prop where
  tab : '\t' ∉ t
  feed : '\n' ∉ t

theorem isField_of_word (h : ∀ c ∈ t, isWordChar c = true) : IsField t := by
  have htab : isWordChar '\t' = false := by decide +kernel
  have hfeed : isWordChar '\n' = false := by decide +kernel
  exact ⟨fun hmem => by simp [h _ hmem] at htab, fun hmem => by simp [h _ hmem] at hfeed⟩

theorem isDigit_of_mem_number {n : Nat} {c : Char} (h : c ∈ number n) : c.isDigit = true :=
  Nat.isDigit_of_mem_toDigits (by decide) (by decide) h

theorem isField_number (n : Nat) : IsField (number n) :=
  ⟨fun h => absurd (isDigit_of_mem_number h) (by decide),
    fun h => absurd (isDigit_of_mem_number h) (by decide)⟩

/-- The fields of the lines of a file. -/
def rows (t : Text) : List (List Text) :=
  let pieces := t.splitOn '\n'
  -- the line feed at the end has an empty piece behind it
  (if pieces.getLast? = some [] then pieces.dropLast else pieces).map (·.splitOn '\t')

/-- The file with a line for each element. -/
def fileOf (fields : α → List Text) (l : List α) : Text :=
  l.flatMap fun a => List.intercalate ['\t'] (fields a) ++ ['\n']

theorem not_mem_intercalate {sep : Text} {c : Char} {fields : List Text} (hsep : c ∉ sep)
    (h : ∀ field ∈ fields, c ∉ field) : c ∉ List.intercalate sep fields := by
  induction fields with
  | nil => simp
  | cons field fields ih =>
    have hfield := h field List.mem_cons_self
    have hrest := ih fun other hother => h other (List.mem_cons_of_mem _ hother)
    cases fields with
    | nil => simpa using hfield
    | cons second fields =>
      rw [List.intercalate_cons_cons, List.mem_append, List.mem_append]
      exact fun hmem => hmem.elim (fun hmem => hmem.elim hfield hsep) hrest

theorem splitOn_flatMap {line : α → Text} (h : ∀ a ∈ l, '\n' ∉ line a) :
    (l.flatMap fun a => line a ++ ['\n']).splitOn '\n' = l.map line ++ [[]] := by
  induction l with
  | nil => rfl
  | cons a l ih =>
    rw [List.flatMap_cons, List.append_assoc, List.singleton_append,
      List.splitOn_append_cons_self_of_not_mem (h a List.mem_cons_self),
      ih fun a ha => h a (List.mem_cons_of_mem _ ha)]
    rfl

theorem rows_fileOf {fields : α → List Text} (hne : ∀ a ∈ l, fields a ≠ [])
    (h : ∀ a ∈ l, ∀ field ∈ fields a, IsField field) : rows (fileOf fields l) = l.map fields := by
  have hline : ∀ a ∈ l, '\n' ∉ List.intercalate ['\t'] (fields a) := fun a ha =>
    not_mem_intercalate (by decide) fun field hfield => (h a ha field hfield).feed
  rw [rows, fileOf, splitOn_flatMap hline]
  simp only [List.getLast?_concat, if_true, List.dropLast_concat, List.map_map]
  refine List.map_congr_left fun a ha => ?_
  exact List.splitOn_intercalate '\t' (fun field hfield => (h a ha field hfield).tab) (hne a ha)

theorem mapM_eq_some_of_forall₂ {g : β → Option α} {l' : List β}
    (h : List.Forall₂ (fun a b => g b = some a) l l') : l'.mapM g = some l := by
  induction h with
  | nil => rfl
  | cons hb _ ih =>
    rw [List.mapM_cons, hb, ih]
    rfl

theorem mapM_map_eq_some {f : α → β} {g : β → Option α} (h : ∀ a ∈ l, g (f a) = some a) :
    (l.map f).mapM g = some l :=
  mapM_eq_some_of_forall₂ (List.forall₂_map_right_iff.2 (List.forall₂_same.2 h))

/-- Where nothing is left out, what is kept stands in the places of the elements it comes from. -/
theorem forall₂_filterMap {p : α → Option β} {R : α → β → Prop} (hall : ∀ a ∈ l, ∃ b, p a = some b)
    (h : ∀ {a b}, p a = some b → R a b) : List.Forall₂ R l (l.filterMap p) := by
  induction l with
  | nil => exact .nil
  | cons a l ih =>
    obtain ⟨b, hb⟩ := hall a List.mem_cons_self
    rw [List.filterMap_cons_some hb]
    exact .cons (h hb) (ih fun a ha => hall a (List.mem_cons_of_mem _ ha))

end Rows

/-! ### Entries -/

variable {facts : List Fact} {f : Fact} {t : Triple} {entries : List (Nat × Text)}

/-- The number that digits spell. -/
def readNumber? (digits : Text) : Option Nat :=
  if digits ≠ [] ∧ digits.all Char.isDigit then some (Nat.ofDigitChars 10 digits 0) else none

theorem readNumber?_number (n : Nat) : readNumber? (number n) = some n := by
  rw [readNumber?, if_pos ⟨Nat.toDigits_ne_nil, List.all_eq_true.2 fun c => isDigit_of_mem_number⟩]
  exact congrArg some Nat.ofDigitChars_ten_toDigits

/-- A number and its name. -/
def entryOf? : List Text → Option (Nat × Text)
  | [id, name] => (readNumber? id).map fun id => (id, name)
  | _ => none

/-- The numbers and names in a file. -/
def readDictionary? (t : Text) : Option (List (Nat × Text)) := (rows t).mapM entryOf?

/-- A triple with its entities as numbers. -/
def tripleOf? : List Text → Option Triple
  | [head, relation, tail] => do return ⟨← readNumber? head, relation, ← readNumber? tail⟩
  | _ => none

/-- The triples in a file. -/
def readTriples? (t : Text) : Option (List Triple) := (rows t).mapM tripleOf?

/-- The fact of a triple, with the names that its numbers have among the entries. -/
def factOf? (entries : List (Nat × Text)) (t : Triple) : Option Fact := do
  return ⟨t.relation, ← entries.lookup t.head, ← entries.lookup t.tail⟩

theorem readDictionary?_dictionaryFile {d : Dictionary} (h : ∀ name ∈ d.toList, IsField name) :
    readDictionary? (dictionaryFile d) = some d.entries := by
  have hfile : dictionaryFile d = fileOf (fun e => [number e.1, e.2]) d.entries := by
    rw [dictionaryFile, fileOf]
    simp [List.intercalate]
  have hfield : ∀ e ∈ d.entries, ∀ field ∈ [number e.1, e.2], IsField field := by
    rintro ⟨id, name⟩ he field hfield
    have hname : name ∈ d.toList := by
      rw [← d.map_snd_entries]
      exact List.mem_map_of_mem he
    rcases List.mem_pair.1 hfield with rfl | rfl
    · exact isField_number id
    · exact h _ hname
  rw [readDictionary?, hfile, rows_fileOf (fun _ _ => List.cons_ne_nil _ _) hfield]
  refine mapM_map_eq_some fun e _ => ?_
  rw [entryOf?, readNumber?_number, Option.map_some]

theorem readTriples?_triplesFile {triples : List Triple} (h : ∀ t ∈ triples, IsField t.relation) :
    readTriples? (triplesFile triples) = some triples := by
  have hfile : triplesFile triples =
      fileOf (fun t => [number t.head, t.relation, number t.tail]) triples := by
    rw [triplesFile, fileOf]
    simp [List.intercalate]
  have hfield : ∀ t ∈ triples, ∀ field ∈ [number t.head, t.relation, number t.tail],
      IsField field := by
    intro t ht field hfield
    rcases List.mem_cons.1 hfield with rfl | hfield
    · exact isField_number _
    · rcases List.mem_pair.1 hfield with rfl | rfl
      · exact h t ht
      · exact isField_number _
  rw [readTriples?, hfile, rows_fileOf (fun _ _ => List.cons_ne_nil _ _) hfield]
  refine mapM_map_eq_some fun t _ => ?_
  simp [tripleOf?, readNumber?_number]

/-! ### Datasets of facts -/

theorem entities_ofFacts (facts : List Fact) : (ofFacts facts).entities =
    (∅ : Dictionary).internAll (facts.flatMap fun f => [f.head, f.tail]) := by
  rw [Dictionary.internAll, List.foldl_flatMap]
  rfl

theorem relations_ofFacts (facts : List Fact) : (ofFacts facts).relations =
    (∅ : Dictionary).internAll (facts.map Fact.relation) := by
  rw [Dictionary.internAll, List.foldl_map]
  rfl

theorem mem_entities {name : Text} :
    name ∈ (ofFacts facts).entities.toList ↔ ∃ f ∈ facts, name = f.head ∨ name = f.tail := by
  rw [entities_ofFacts, Dictionary.mem_internAll, Dictionary.toList_empty,
    or_iff_left List.not_mem_nil, List.mem_flatMap]
  simp only [List.mem_pair]

theorem mem_relations {name : Text} :
    name ∈ (ofFacts facts).relations.toList ↔ ∃ f ∈ facts, f.relation = name := by
  rw [relations_ofFacts, Dictionary.mem_internAll, Dictionary.toList_empty,
    or_iff_left List.not_mem_nil, List.mem_map]

theorem triple?_eq_some_iff {d : Dataset} : d.triple? f = some t ↔
    d.entities.id? f.head = some t.head ∧ f.relation = t.relation ∧
      d.entities.id? f.tail = some t.tail := by
  rw [triple?]
  obtain ⟨head, relation, tail⟩ := t
  cases d.entities.id? f.head <;> cases d.entities.id? f.tail <;> simp

theorem exists_triple? (hf : f ∈ facts) : ∃ t, (ofFacts facts).triple? f = some t := by
  obtain ⟨head, hhead⟩ := Dictionary.exists_id?_iff.2 (mem_entities.2 ⟨f, hf, .inl rfl⟩)
  obtain ⟨tail, htail⟩ := Dictionary.exists_id?_iff.2 (mem_entities.2 ⟨f, hf, .inr rfl⟩)
  exact ⟨⟨head, f.relation, tail⟩, triple?_eq_some_iff.2 ⟨hhead, rfl, htail⟩⟩

theorem factOf?_of_triple? {d : Dataset} (h : d.triple? f = some t) :
    factOf? d.entities.entries t = some f := by
  obtain ⟨hhead, hrelation, htail⟩ := triple?_eq_some_iff.1 h
  rw [factOf?, d.entities.lookup_entries, d.entities.lookup_entries,
    Dictionary.id?_eq_some_iff.1 hhead, Dictionary.id?_eq_some_iff.1 htail, ← hrelation]
  rfl

theorem mapM_triples (facts : List Fact) :
    (ofFacts facts).triples.mapM (factOf? (ofFacts facts).entities.entries) = some facts :=
  mapM_eq_some_of_forall₂ (forall₂_filterMap (fun _ hf => exists_triple? hf) factOf?_of_triple?)

/-- Entries and triples that describe facts: the entries are numbered from zero and have different
names, the triples use only these, and their facts are the given ones in this order. -/
structure Describes (entities relations : List (Nat × Text)) (triples : List Triple)
    (facts : List Fact) : Prop where
  entities_ids : entities.map Prod.fst = List.range entities.length
  entities_nodup : (entities.map Prod.snd).Nodup
  relations_ids : relations.map Prod.fst = List.range relations.length
  relations_nodup : (relations.map Prod.snd).Nodup
  facts_eq : triples.mapM (factOf? entities) = some facts
  relation_mem : ∀ t ∈ triples, t.relation ∈ relations.map Prod.snd
  head_mem : ∀ t ∈ triples, t.head ∈ entities.map Prod.fst
  tail_mem : ∀ t ∈ triples, t.tail ∈ entities.map Prod.fst

theorem mem_map_fst_entries {d : Dictionary} {name : Text} {id : Nat} (h : d.id? name = some id) :
    id ∈ d.entries.map Prod.fst := by
  have hid : (id, name) ∈ d.entries := by
    rw [Dictionary.entries, List.mem_map]
    exact ⟨(name, id), List.mem_zipIdx_iff_getElem?.2 (Dictionary.id?_eq_some_iff.1 h), rfl⟩
  exact List.mem_map_of_mem hid

theorem describes_ofFacts (facts : List Fact) :
    Describes (ofFacts facts).entities.entries (ofFacts facts).relations.entries
      (ofFacts facts).triples facts := by
  have htriple : ∀ t ∈ (ofFacts facts).triples, ∃ f ∈ facts,
      (ofFacts facts).entities.id? f.head = some t.head ∧ f.relation = t.relation ∧
        (ofFacts facts).entities.id? f.tail = some t.tail := by
    intro t ht
    obtain ⟨f, hf, ht⟩ := List.mem_filterMap.1 ht
    exact ⟨f, hf, triple?_eq_some_iff.1 ht⟩
  refine ⟨Dictionary.map_fst_entries _, ?_, Dictionary.map_fst_entries _, ?_, mapM_triples facts,
    fun t ht => ?_, fun t ht => ?_, fun t ht => ?_⟩
  · rw [Dictionary.map_snd_entries]
    exact Dictionary.nodup_toList _
  · rw [Dictionary.map_snd_entries]
    exact Dictionary.nodup_toList _
  · obtain ⟨f, hf, -, hrelation, -⟩ := htriple t ht
    rw [Dictionary.map_snd_entries, mem_relations]
    exact ⟨f, hf, hrelation⟩
  · obtain ⟨f, -, hhead, -, -⟩ := htriple t ht
    exact mem_map_fst_entries hhead
  · obtain ⟨f, -, -, -, htail⟩ := htriple t ht
    exact mem_map_fst_entries htail

theorem read_files_of_plain (facts : List Fact) (h : ∀ f ∈ facts, f.IsPlain) :
    readDictionary? (dictionaryFile (ofFacts facts).entities) =
        some (ofFacts facts).entities.entries ∧
      readDictionary? (dictionaryFile (ofFacts facts).relations) =
        some (ofFacts facts).relations.entries ∧
      readTriples? (triplesFile (ofFacts facts).triples) = some (ofFacts facts).triples := by
  refine ⟨readDictionary?_dictionaryFile fun name hname => ?_,
    readDictionary?_dictionaryFile fun name hname => ?_, readTriples?_triplesFile fun t ht => ?_⟩
  · obtain ⟨f, hf, rfl | rfl⟩ := mem_entities.1 hname
    · exact isField_of_word (h f hf).head
    · exact isField_of_word (h f hf).tail
  · obtain ⟨f, hf, rfl⟩ := mem_relations.1 hname
    exact isField_of_word (h f hf).relation
  · obtain ⟨f, hf, ht⟩ := List.mem_filterMap.1 ht
    rw [← (triple?_eq_some_iff.1 ht).2.1]
    exact isField_of_word (h f hf).relation

end Dataset

end MinedRules
