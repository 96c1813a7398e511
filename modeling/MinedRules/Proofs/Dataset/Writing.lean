import MinedRules.Dataset.Write
import MinedRules.Proofs.Dataset.Reading
import MinedRules.Proofs.Disk.Programs
import MinedRules.Proofs.Disk.Replacement
import MinedRules.Proofs.Text.Encoding

/-!
# A written dataset loses nothing

The three files of a dataset are in the directory after it has been written
(`Dataset.isIn_of_writeDataset`), which succeeds unless directories are in the way
(`Dataset.exists_writeDataset`), and the facts can be read back from them
(`Dataset.ofText_read_back`).
-/

namespace MinedRules

namespace FileTree

variable {t t' : FileTree} {d : t.Directory} {dir : Path} {name : Text} {bytes : List UInt8}

/-- The text of the file that a path leads to. -/
def textAt? (t : FileTree) (p : Path) : Option Text :=
  match t.find p with
  | .ok (.file bytes) => Text.decode? bytes
  | _ => none

theorem textAt?_of_find {p : Path} {text : Text} (h : t.find p = .ok (.file (Text.encode text))) :
    t.textAt? p = some text := by
  rw [textAt?, h]
  exact Text.decode?_encode text

/-- **A file that is written into a directory is there, and the others are as they were.** -/
theorem create_join (hbase : t.base dir = .ok d) (hname : Path.IsName name)
    (h : t.create (dir.join name) bytes = (.ok (), t')) :
    (∃ d', t'.base dir = .ok d') ∧ t'.find (dir.join name) = .ok (.file bytes) ∧
      ∀ other, Path.IsName other → other ≠ name →
        t'.find (dir.join other) = t.find (dir.join other) := by
  rcases t.create_cases (dir.join name) bytes with
    ⟨e, hcreate⟩ | ⟨t₁, l, hcreate, hl, hdir, -, hsets⟩
  · exact nomatch (Prod.mk.inj (hcreate.symm.trans h)).1
  · obtain ⟨-, rfl⟩ := Prod.mk.inj (hcreate.symm.trans h)
    rw [t.place?_join dir hname, hbase] at hl
    obtain rfl := Except.ok.inj hl
    obtain ⟨d', hbase', hlocation⟩ := (hsets.keeps hdir).exists_base hbase
    refine ⟨⟨d', hbase'⟩, ?_, fun other hother hne => ?_⟩
    · rw [find_join hbase' hname, hlocation, hsets.node?_self]
    · rw [find_join hbase' hother, find_join hbase hother, hlocation, hsets.node?_of_ne]
      exact fun heq => hne (List.cons.inj heq).1

theorem exists_create_join (hbase : t.base dir = .ok d) (hname : Path.IsName name)
    (hfree : t.find (dir.join name) ≠ .ok .directory) (bytes : List UInt8) :
    ∃ t', t.create (dir.join name) bytes = (.ok (), t') := by
  have hdir : t.node? (name :: d.location) ≠ some .directory := fun hnode => by
    rw [find_join hbase hname, hnode] at hfree
    exact hfree rfl
  rw [create, target_join t dir hname, hbase]
  simp only [Except.map, Path.endsInSlash_join dir hname]
  rw [dif_neg (by simpa using hdir)]
  exact ⟨_, rfl⟩

/-- Writes a dataset to a directory of a tree. -/
def writeDataset (t : FileTree) (d : Dataset) (dir : Path) : Except Failure Unit × FileTree :=
  (d.write (m := StateM FileTree) dir).run.run t

end FileTree

namespace Dataset

variable {t t' : FileTree} {d : Dataset} {dir : Path}

/-! ### Writing -/

/-- The three files of the dataset are in the directory. -/
structure IsIn (d : Dataset) (t : FileTree) (dir : Path) : Prop where
  entities : t.textAt? (dir.join entitiesName) = some (dictionaryFile d.entities)
  relations : t.textAt? (dir.join relationsName) = some (dictionaryFile d.relations)
  triples : t.textAt? (dir.join triplesName) = some (triplesFile d.triples)

/-- The names of the three files. -/
def fileNames : List Text := [entitiesName, relationsName, triplesName]

theorem writeDataset_eq_ok_iff : t.writeDataset d dir = (.ok (), t') ↔ ∃ t₁ t₂ t₃,
    (Disk.makeDirs (m := StateM FileTree) dir).run t = (.ok (), t₁) ∧
      t₁.create (dir.join entitiesName) (Text.encode (dictionaryFile d.entities)) = (.ok (), t₂) ∧
      t₂.create (dir.join relationsName) (Text.encode (dictionaryFile d.relations)) = (.ok (), t₃) ∧
      t₃.create (dir.join triplesName) (Text.encode (triplesFile d.triples)) = (.ok (), t') := by
  rw [FileTree.writeDataset, write]
  constructor
  · intro h
    obtain ⟨_, t₁, hdirs, h⟩ := run_bind_eq_ok_iff.1 h
    obtain ⟨_, t₂, hentities, h⟩ := run_bind_eq_ok_iff.1 h
    obtain ⟨_, t₃, hrelations, htriples⟩ := run_bind_eq_ok_iff.1 h
    exact ⟨t₁, t₂, t₃, run_orFail_eq_ok_iff.1 hdirs, run_orFail_eq_ok_iff.1 hentities,
      run_orFail_eq_ok_iff.1 hrelations, run_orFail_eq_ok_iff.1 htriples⟩
  · rintro ⟨t₁, t₂, t₃, hdirs, hentities, hrelations, htriples⟩
    exact run_bind_eq_ok_iff.2 ⟨(), t₁, run_orFail_eq_ok_iff.2 hdirs,
      run_bind_eq_ok_iff.2 ⟨(), t₂, run_orFail_eq_ok_iff.2 hentities,
        run_bind_eq_ok_iff.2 ⟨(), t₃, run_orFail_eq_ok_iff.2 hrelations,
          run_orFail_eq_ok_iff.2 htriples⟩⟩⟩

theorem isIn_of_writeDataset (h : t.writeDataset d dir = (.ok (), t')) : d.IsIn t' dir := by
  obtain ⟨t₁, t₂, t₃, hdirs, hentities, hrelations, htriples⟩ := writeDataset_eq_ok_iff.1 h
  obtain ⟨e₁, hbase₁⟩ := (FileTree.makeDirs_spec hdirs).2.1 rfl
  obtain ⟨⟨e₂, hbase₂⟩, hfound₂, -⟩ := FileTree.create_join hbase₁ (by decide) hentities
  obtain ⟨⟨e₃, hbase₃⟩, hfound₃, hother₃⟩ := FileTree.create_join hbase₂ (by decide) hrelations
  obtain ⟨-, hfound₄, hother₄⟩ := FileTree.create_join hbase₃ (by decide) htriples
  -- each file is left as it is by those that are written after it
  refine ⟨FileTree.textAt?_of_find ?_, FileTree.textAt?_of_find ?_, FileTree.textAt?_of_find hfound₄⟩
  · rw [hother₄ _ (by decide) (by decide), hother₃ _ (by decide) (by decide), hfound₂]
  · rw [hother₄ _ (by decide) (by decide), hfound₃]

theorem exists_writeDataset {e : t.Directory} (hdir : t.Leads dir e)
    (hfree : ∀ name ∈ fileNames, t.find (dir.join name) ≠ .ok .directory) :
    ∃ t', t.writeDataset d dir = (.ok (), t') := by
  have hentities := hfree entitiesName (by simp [fileNames])
  have hrelations := hfree relationsName (by simp [fileNames])
  have htriples := hfree triplesName (by simp [fileNames])
  obtain ⟨t₁, h₁⟩ := FileTree.exists_create_join hdir.base_eq (by decide) hentities
    (Text.encode (dictionaryFile d.entities))
  obtain ⟨⟨e₁, hbase₁⟩, -, hother₁⟩ := FileTree.create_join hdir.base_eq (by decide) h₁
  obtain ⟨t₂, h₂⟩ := FileTree.exists_create_join hbase₁ (by decide)
    ((hother₁ _ (by decide) (by decide)).trans_ne hrelations)
    (Text.encode (dictionaryFile d.relations))
  obtain ⟨⟨e₂, hbase₂⟩, -, hother₂⟩ := FileTree.create_join hbase₁ (by decide) h₂
  have hsame : t₂.find (dir.join triplesName) = t.find (dir.join triplesName) :=
    (hother₂ _ (by decide) (by decide)).trans (hother₁ _ (by decide) (by decide))
  obtain ⟨t₃, h₃⟩ := FileTree.exists_create_join hbase₂ (by decide) (hsame.trans_ne htriples)
    (Text.encode (triplesFile d.triples))
  exact ⟨t₃, writeDataset_eq_ok_iff.2
    ⟨t, t₁, t₂, FileTree.run_makeDirs_of_leads hdir, h₁, h₂, h₃⟩⟩

/-! ### Reading back -/

/-- **The files of a dataset determine its facts, and no fact of a text is lost.** -/
theorem ofText_read_back (text : Text) :
    let facts := (FactFile.ofText text).facts
    (∀ (t t' : FileTree) (dir : Path), t.writeDataset (ofFacts facts) dir = (.ok (), t') →
      (ofFacts facts).IsIn t' dir) ∧
    (∀ (t : FileTree) (dir : Path), (∃ d, t.Leads dir d) →
      (∀ name ∈ fileNames, t.find (dir.join name) ≠ .ok .directory) →
      ∃ t', t.writeDataset (ofFacts facts) dir = (.ok (), t')) ∧
    (∃ entities relations triples,
      readDictionary? (dictionaryFile (ofFacts facts).entities) = some entities ∧
      readDictionary? (dictionaryFile (ofFacts facts).relations) = some relations ∧
      readTriples? (triplesFile (ofFacts facts).triples) = some triples ∧
      Describes entities relations triples facts) ∧
    ∀ text', let facts' := (FactFile.ofText text').facts
      dictionaryFile (ofFacts facts').entities = dictionaryFile (ofFacts facts).entities →
      triplesFile (ofFacts facts').triples = triplesFile (ofFacts facts).triples →
      facts' = facts := by
  intro facts
  have hread := read_files_of_plain facts fun f hf => FactFile.isPlain_of_mem hf
  refine ⟨fun t t' dir => isIn_of_writeDataset, fun t dir ⟨d, hd⟩ => exists_writeDataset hd,
    ⟨_, _, _, hread.1, hread.2.1, hread.2.2, describes_ofFacts facts⟩, ?_⟩
  intro text' facts' hentities htriples
  have hread' := read_files_of_plain facts' fun f hf => FactFile.isPlain_of_mem hf
  rw [hentities, htriples, hread.1, hread.2.2] at hread'
  have hfacts' := mapM_triples facts'
  rw [← Option.some.inj hread'.1, ← Option.some.inj hread'.2.2, mapM_triples facts] at hfacts'
  exact (Option.some.inj hfacts').symm

/-- Three facts, two of which are the same, are written into the empty tree and read back. -/
theorem ofText_read_back_in_root :
    let facts : List Fact := [⟨"p".toList, "a".toList, "b".toList⟩,
      ⟨"q".toList, "b".toList, "a".toList⟩, ⟨"p".toList, "a".toList, "b".toList⟩]
    let dir := "/".toList
    (∃ t', (∅ : FileTree).writeDataset (ofFacts facts) dir = (.ok (), t') ∧
      (ofFacts facts).IsIn t' dir) ∧
    ∃ entities relations triples,
      readDictionary? (dictionaryFile (ofFacts facts).entities) = some entities ∧
      readDictionary? (dictionaryFile (ofFacts facts).relations) = some relations ∧
      readTriples? (triplesFile (ofFacts facts).triples) = some triples ∧
      Describes entities relations triples facts := by
  intro facts dir
  have hfacts : (FactFile.ofText "p(a, b).\nq(b, a).\np(a, b).".toList).facts = facts := by
    decide +kernel
  have hback := ofText_read_back "p(a, b).\nq(b, a).\np(a, b).".toList
  rw [hfacts] at hback
  obtain ⟨hisIn, hwritten, hread, -⟩ := hback
  obtain ⟨t', ht'⟩ := hwritten ∅ dir ⟨FileTree.root ∅, by decide, rfl⟩ (by decide +kernel)
  exact ⟨⟨t', ht', hisIn ∅ t' dir ht'⟩, hread⟩

end Dataset

end MinedRules
