import MinedRules.Conversion
import MinedRules.Proofs.Disk.Listing
import MinedRules.Proofs.Disk.Programs

/-!
# Conversions of a file tree

A conversion only reads, so on a file tree it is a function of the tree (`FileTree.convert`).  This
is the conversion of the files that `FileTree.filesIn` lists, in this order
(`FileTree.convert_of_leads`); without a directory it fails (`FileTree.leads_of_convert`).
-/

namespace MinedRules

namespace FileTree

variable {t : FileTree} {d : t.Directory} {dir p : Path} {suffix : Text} {bytes : List UInt8}

/-! ### The files of a conversion -/

theorem filter_paths (h : t.Leads dir d) {names : List Text}
    (hnames : ∀ name ∈ names, t.node? (name :: d.location) ≠ none) :
    (names.map dir.join).filter (fun p => t.kind? p == some .file) =
      (names.filterMap (t.fileIn d.location)).map fun f => dir.join f.1 := by
  induction names with
  | nil => rfl
  | cons name names ih =>
    obtain ⟨n, hn⟩ := Option.ne_none_iff_exists'.1 (hnames name List.mem_cons_self)
    have hrest := ih fun name hname => hnames name (List.mem_cons_of_mem _ hname)
    have hkind : t.kind? (dir.join name) = some n.kind := by
      rw [kind?, find_join h.base_eq (isName_of_node? hn), hn]
    cases n with
    | directory => simp [fileIn, hn, hkind, Node.kind, hrest]
    | file bytes => simp [fileIn, hn, hkind, Node.kind, hrest]

theorem reads_attemptFiles (h : t.Leads dir d) (suffix : Text) :
    Reads (attemptFiles dir suffix) t
      (.ok ((t.filesIn d.location suffix).map fun f => dir.join f.1)) := by
  have hkind : Reads (ε := Failure) (liftM (Disk.kind? (m := StateM FileTree) dir)) t
      (.ok (some .directory)) := by
    rw [← kind?_eq_directory_iff.2 ⟨d, h⟩]
    exact reads_liftM rfl
  have hnames : Reads (orFail (.listing dir) (Disk.names (m := StateM FileTree) dir)) t
      (.ok (t.namesIn d.location)) := by
    refine reads_orFail ?_
    rw [← names_of_leads h]
    rfl
  have hnode : ∀ name ∈ (t.namesIn d.location).filter suffix.isSuffixOf,
      t.node? (name :: d.location) ≠ none := fun name hname =>
    mem_namesIn.1 (List.mem_filter.1 hname).1
  rw [filesIn, ← filter_paths h hnode]
  exact hkind.bind_ok (hnames.bind_ok (reads_filterM fun p _ => rfl))

theorem reads_loadRecords (h : t.read p = .ok bytes) :
    Reads (loadRecords p) t ((Attempt.ofFile p bytes).map (Records.mk p)) := by
  have hread : Reads (ε := Failure) (liftM (Disk.read (m := StateM FileTree) p)) t
      (.ok (.ok bytes)) := by
    rw [← h]
    exact reads_liftM rfl
  have hload : Reads (Attempt.load p) t (Attempt.ofFile p bytes) := hread.bind_ok rfl
  exact hload.bind fun attempts _ => reads_pure _

/-- The conversion of the files of a tree. -/
def convert (t : FileTree) (dir : Path) (suffix : Text) (k : Canonicalizer) :
    Except Failure Conversion :=
  ((MinedRules.convert (m := StateM FileTree) dir suffix k).run.run t).1

/-- The records of a file in a directory. -/
def recordsIn (dir : Path) (f : Text × List UInt8) : Except Failure Records :=
  (Attempt.ofFile (dir.join f.1) f.2).map (Records.mk (dir.join f.1))

theorem reads_convert_of_leads (h : t.Leads dir d) (suffix : Text) (k : Canonicalizer) :
    Reads (MinedRules.convert dir suffix k) t
      (((t.filesIn d.location suffix).mapM (recordsIn dir)).bind (Conversion.ofRecords k)) := by
  have hread : ∀ f ∈ t.filesIn d.location suffix,
      Reads (loadRecords (dir.join f.1)) t (recordsIn dir f) := by
    rintro ⟨name, bytes⟩ hf
    have hnode := (mem_filesIn.1 hf).2
    refine reads_loadRecords ?_
    rw [read, find_join h.base_eq (isName_of_node? hnode), hnode]
  have hall : Reads (((t.filesIn d.location suffix).map fun f => dir.join f.1).mapM loadRecords) t
      ((t.filesIn d.location suffix).mapM (recordsIn dir)) := by
    rw [List.mapM_map]
    exact reads_mapM hread
  exact (reads_attemptFiles h suffix).bind_ok (hall.bind fun files _ => rfl)

theorem reads_convert_of_not_leads (h : ¬ ∃ d, t.Leads dir d) (suffix : Text)
    (k : Canonicalizer) :
    Reads (MinedRules.convert dir suffix k) t (.error { cause := .noTarget dir }) := by
  have hne : t.kind? dir ≠ some .directory := fun hkind => h (kind?_eq_directory_iff.1 hkind)
  have hkind : Reads (ε := Failure) (liftM (Disk.kind? (m := StateM FileTree) dir)) t
      (.ok (t.kind? dir)) := reads_liftM rfl
  have hfiles : Reads (attemptFiles dir suffix) t (.error { cause := .noTarget dir }) := by
    refine hkind.bind_ok ?_
    rw [if_pos hne]
    rfl
  exact hfiles.bind (g := fun _ => .ok {}) nofun

/-- **A conversion only reads.** -/
theorem reads_convert (t : FileTree) (dir : Path) (suffix : Text) (k : Canonicalizer) :
    Reads (MinedRules.convert dir suffix k) t (t.convert dir suffix k) := by
  by_cases h : ∃ d, t.Leads dir d
  · obtain ⟨d, hd⟩ := h
    exact (reads_convert_of_leads hd suffix k).self
  · exact (reads_convert_of_not_leads h suffix k).self

theorem convert_of_leads (h : t.Leads dir d) (suffix : Text) (k : Canonicalizer) :
    t.convert dir suffix k =
      ((t.filesIn d.location suffix).mapM (recordsIn dir)).bind (Conversion.ofRecords k) :=
  congrArg Prod.fst (reads_convert_of_leads h suffix k)

theorem leads_of_convert {k : Canonicalizer} {c : Conversion} (h : t.convert dir suffix k = .ok c) :
    ∃ d, t.Leads dir d := by
  by_contra hno
  have hfail := reads_convert_of_not_leads hno suffix k
  exact absurd (h.symm.trans (congrArg Prod.fst hfail)) (by simp)

end FileTree

end MinedRules
