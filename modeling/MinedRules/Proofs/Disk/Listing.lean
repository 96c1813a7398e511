import MinedRules.Disk.Tree
import MinedRules.Proofs.Text.Lines
import MinedRules.Proofs.Text.Order

/-!
# What is in a directory

A path that leads to a directory (`FileTree.Leads`) names, together with a proper name, the node with
this name in the directory.

* `FileTree.kind?_eq_directory_iff` : a path is one of a directory exactly if it leads to one.
* `FileTree.find_join` : what is found at a name in a directory.
* `FileTree.mem_namesIn` : the names in a directory.
* `FileTree.lists_filesIn` : the files in a directory whose names have a given end.
-/

namespace MinedRules

namespace Path

variable {dir : Path} {name : Text}

/-! ### Names behind directories -/

theorem steps_append_slash (p q : Path) : steps (p ++ '/' :: q) = steps p ++ steps q := by
  have hparts : parts (p ++ '/' :: q) = parts p ++ parts q := splitOn_append_cons '/' p q
  rw [steps, hparts, List.filter_append, steps, steps]

theorem IsName.steps (h : IsName name) : steps name = [name] := by
  have hparts : parts name = [name] := List.splitOn_eq_singleton h.slash
  simp [Path.steps, hparts, h.nonempty]

/-- A slash comes before the name, unless the directory is empty or ends in one. -/
theorem join_cases (dir : Path) (name : Text) :
    dir = [] ∨ (∃ around, dir = around ++ ['/'] ∧ dir.join name = around ++ '/' :: name) ∨
      dir.join name = dir ++ '/' :: name := by
  rcases List.eq_nil_or_concat' dir with rfl | ⟨around, c, rfl⟩
  · exact .inl rfl
  · refine .inr ?_
    by_cases hc : c = '/'
    · subst hc
      exact .inl ⟨around, rfl, by simp [join, endsInSlash]⟩
    · exact .inr (by simp [join, endsInSlash, hc])

theorem steps_join (dir : Path) (h : IsName name) : (dir.join name).steps = dir.steps ++ [name] := by
  rcases join_cases dir name with rfl | ⟨around, rfl, hjoin⟩ | hjoin
  · exact h.steps
  · have haround : (around ++ ['/']).steps = around.steps := by
      rw [steps_append_slash]
      exact List.append_nil _
    rw [hjoin, steps_append_slash, h.steps, haround]
  · rw [hjoin, steps_append_slash, h.steps]

theorem IsName.getLast?_ne (h : IsName name) : name.getLast? ≠ some '/' :=
  fun hlast => h.slash (List.mem_of_getLast? hlast)

theorem IsName.isAbsolute (h : IsName name) : isAbsolute name = false := by
  rw [Path.isAbsolute, beq_eq_false_iff_ne]
  exact fun hhead => h.slash (List.mem_of_mem_head? (Option.mem_def.2 hhead))

theorem isAbsolute_join (dir : Path) (h : IsName name) :
    (dir.join name).isAbsolute = dir.isAbsolute := by
  by_cases hdir : dir = []
  · subst hdir
    exact h.isAbsolute
  · rcases join_cases dir name with hnil | ⟨around, rfl, hjoin⟩ | hjoin
    · exact absurd hnil hdir
    · simp [isAbsolute, hjoin]
    · simp [isAbsolute, hjoin, List.head?_append_of_ne_nil _ hdir]

theorem endsInSlash_join (dir : Path) (h : IsName name) : (dir.join name).endsInSlash = false := by
  have hlast : ∀ p : Path, (p ++ '/' :: name).getLast? = name.getLast? := fun p => by
    rw [List.getLast?_append_cons, List.getLast?_cons_of_ne_nil h.nonempty]
  rw [endsInSlash, beq_eq_false_iff_ne]
  rcases join_cases dir name with rfl | ⟨around, rfl, hjoin⟩ | hjoin
  · exact h.getLast?_ne
  · rw [hjoin, hlast]
    exact h.getLast?_ne
  · rw [hjoin, hlast]
    exact h.getLast?_ne

theorem join_ne_nil (dir : Path) (h : IsName name) : dir.join name ≠ [] := by
  intro hnil
  have hsteps := steps_join dir h
  rw [hnil] at hsteps
  simp [steps, parts] at hsteps

end Path

namespace FileTree

variable {t : FileTree} {d : t.Directory} {dir p : Path} {name suffix : Text} {loc : Location}

/-! ### Paths of directories -/

/-- The path leads to the directory. -/
structure Leads (t : FileTree) (p : Path) (d : t.Directory) : Prop where
  nonempty : p ≠ []
  walk : t.walk (t.start p) p.steps = .ok d

/-- The directory that the names behind a path stand in.  Behind the empty path this is the working
directory. -/
def base (t : FileTree) (p : Path) : Except OsError t.Directory := t.walk (t.start p) p.steps

theorem Leads.base_eq (h : t.Leads p d) : t.base p = .ok d := h.walk

theorem walk_append (d : t.Directory) (steps more : List Text) :
    t.walk d (steps ++ more) = (t.walk d steps).bind (t.walk · more) := by
  induction steps generalizing d with
  | nil => rfl
  | cons step steps ih =>
    rw [List.cons_append, walk, walk]
    cases t.directoryAt (d.next step) with
    | ok d => exact ih d
    | error e => rfl

theorem exists_directoryAt_iff :
    (∃ d, t.directoryAt loc = .ok d) ↔ t.node? loc = some .directory := by
  rw [directoryAt]
  split
  · next h => exact ⟨fun _ => h, fun _ => ⟨_, rfl⟩⟩
  · next h => simp [h]
  · next h => simp [h]

theorem Directory.next_name (d : t.Directory) (h : Path.IsName name) :
    d.next name = name :: d.location := by
  rw [next, if_neg h.here, if_neg h.up]

theorem target_of_slashes (hp : p ≠ []) (hsteps : p.steps = []) :
    t.target p = .ok (.directory (t.start p)) := by
  rw [target, if_neg (by simpa using hp)]
  split
  · rfl
  · next h => exact absurd h (by simp [hsteps])

theorem target_of_step {steps : List Text} {step : Text} (hp : p ≠ [])
    (hsteps : p.steps = steps ++ [step]) (hstep : step = Path.here ∨ step = Path.up) :
    t.target p = (t.walk (t.start p) p.steps).map .directory := by
  have hlast : p.steps.getLast? = some step := by simp [hsteps]
  rw [target, if_neg (by simpa using hp)]
  split
  · next h => exact absurd (h.symm.trans hlast) (by simp)
  · next last h =>
    obtain rfl : last = step := Option.some.inj (h.symm.trans hlast)
    rw [dif_pos hstep]

theorem target_of_name {steps : List Text} (hp : p ≠ []) (hsteps : p.steps = steps ++ [name])
    (hname : Path.IsName name) :
    t.target p = (t.walk (t.start p) steps).map (.named · name hname) := by
  have hlast : p.steps.getLast? = some name := by simp [hsteps]
  rw [target, if_neg (by simpa using hp)]
  split
  · next h => exact absurd (h.symm.trans hlast) (by simp)
  · next last h =>
    obtain rfl : last = name := Option.some.inj (h.symm.trans hlast)
    rw [dif_neg (not_or.2 ⟨hname.here, hname.up⟩)]
    simp only [hsteps, List.dropLast_concat]

/-- A path points at the directory that its steps lead to, or its last step is a name.  It depends on
the path alone which of both it is. -/
theorem target_forms (hp : p ≠ []) :
    (∀ t : FileTree, t.target p = (t.base p).map .directory) ∨
      ∃ steps name, ∃ hname : Path.IsName name, p.steps = steps ++ [name] ∧
        ∀ t : FileTree, t.target p = (t.walk (t.start p) steps).map (.named · name hname) := by
  rcases List.eq_nil_or_concat' p.steps with hsteps | ⟨steps, step, hsteps⟩
  · left
    intro t
    rw [target_of_slashes hp hsteps, base, hsteps]
    rfl
  · by_cases hstep : step = Path.here ∨ step = Path.up
    · exact .inl fun t => target_of_step hp hsteps hstep
    · have hname : Path.IsName step := Path.isName_of_mem_steps (by rw [hsteps]; simp) hstep
      exact .inr ⟨steps, step, hname, hsteps, fun t => target_of_name hp hsteps hname⟩

theorem find_eq_directory_iff : t.find p = .ok .directory ↔ ∃ d, t.Leads p d := by
  by_cases hp : p = []
  · subst hp
    exact ⟨fun h => absurd h (by simp [find, target]), fun ⟨d, h⟩ => absurd rfl h.nonempty⟩
  have hleads : (∃ d, t.Leads p d) ↔ ∃ d, t.base p = .ok d :=
    ⟨fun ⟨d, h⟩ => ⟨d, h.walk⟩, fun ⟨d, h⟩ => ⟨d, hp, h⟩⟩
  rw [hleads]
  rcases target_forms hp with htarget | ⟨steps, name, hname, hsteps, htarget⟩
  · rw [find, htarget]
    cases t.base p with
    | ok d => exact ⟨fun _ => ⟨d, rfl⟩, fun _ => rfl⟩
    | error e => simp [Except.map]
  · rw [find, htarget, base, hsteps, walk_append]
    cases t.walk (t.start p) steps with
    | error e => simp [Except.map, Except.bind]
    | ok d =>
      have hwalk : (∃ d', t.walk d [name] = .ok d') ↔
          t.node? (name :: d.location) = some .directory := by
        rw [← d.next_name hname, ← exists_directoryAt_iff, walk]
        cases t.directoryAt (d.next name) <;> simp [walk]
      simp only [Except.map, Except.bind, hwalk]
      split
      · next h => simp [h]
      · next bytes h => split <;> simp [h]
      · next h => simp [h]

theorem kind?_eq_directory_iff : t.kind? p = some .directory ↔ ∃ d, t.Leads p d := by
  rw [← find_eq_directory_iff, kind?]
  cases hfind : t.find p with
  | error e => simp
  | ok n => cases n <;> simp [Node.kind]

/-! ### The nodes in a directory -/

theorem target_join (t : FileTree) (dir : Path) (hname : Path.IsName name) :
    t.target (dir.join name) = (t.base dir).map (.named · name hname) := by
  have hstart : t.start (dir.join name) = t.start dir := by
    rw [start, start, Path.isAbsolute_join dir hname]
  rw [target_of_name (Path.join_ne_nil dir hname) (Path.steps_join dir hname) hname, hstart,
    base]

theorem find_join (h : t.base dir = .ok d) (hname : Path.IsName name) :
    t.find (dir.join name) =
      match t.node? (name :: d.location) with
      | none => .error .notFound
      | some n => .ok n := by
  rw [find, target_join t dir hname, h]
  simp only [Except.map, Path.endsInSlash_join dir hname]
  split <;> simp_all

theorem names_of_leads (h : t.Leads dir d) : t.names dir = .ok (t.namesIn d.location) := by
  rw [names, h.walk]
  simp [h.nonempty]

theorem mem_namesIn : name ∈ t.namesIn loc ↔ t.node? (name :: loc) ≠ none := by
  have hlookup : t.node? (name :: loc) ≠ none ↔ ∃ n, (name :: loc, n) ∈ t.nodes := by
    simp [node?, Location.node?, List.lookup_eq_none_iff]
  rw [hlookup, namesIn, Text.mem_sorted, List.mem_filterMap]
  constructor
  · rintro ⟨⟨_ | ⟨name', around⟩, n⟩, hmem, hname⟩
    · simp at hname
    · simp only [Option.ite_none_right_eq_some, Option.some.injEq] at hname
      obtain ⟨rfl, rfl⟩ := hname
      exact ⟨n, hmem⟩
  · rintro ⟨n, hmem⟩
    exact ⟨(name :: loc, n), hmem, by simp⟩

theorem isName_of_node? {n : Node} (h : t.node? (name :: loc) = some n) : Path.IsName name :=
  t.named name loc (by rw [← node?, h]; simp)

/-- The files in a directory whose names have the given end, with their bytes. -/
structure Lists (t : FileTree) (dir : Path) (suffix : Text) (files : List (Text × List UInt8)) :
    Prop where
  nodup : (files.map Prod.fst).Nodup
  mem_iff : ∃ d, t.Leads dir d ∧ ∀ name bytes, (name, bytes) ∈ files ↔
    suffix <:+ name ∧ t.node? (name :: d.location) = some (.file bytes)

/-- The file with a name in the directory at a location. -/
def fileIn (t : FileTree) (loc : Location) (name : Text) : Option (Text × List UInt8) :=
  match t.node? (name :: loc) with
  | some (.file bytes) => some (name, bytes)
  | _ => none

/-- The files in the directory at a location whose names have the given end, in the order of their
names. -/
def filesIn (t : FileTree) (loc : Location) (suffix : Text) : List (Text × List UInt8) :=
  ((t.namesIn loc).filter suffix.isSuffixOf).filterMap (t.fileIn loc)

theorem fileIn_eq_some_iff {name' : Text} {bytes : List UInt8} :
    t.fileIn loc name' = some (name, bytes) ↔
      name' = name ∧ t.node? (name :: loc) = some (.file bytes) := by
  rw [fileIn]
  split
  · next bytes' h =>
    simp only [Option.some.injEq, Prod.mk.injEq]
    constructor
    · rintro ⟨rfl, rfl⟩
      exact ⟨rfl, h⟩
    · rintro ⟨rfl, hfile⟩
      exact ⟨rfl, Node.file.inj (Option.some.inj (h.symm.trans hfile))⟩
  · next hother =>
    simp only [false_iff, reduceCtorEq]
    rintro ⟨rfl, hfile⟩
    exact hother bytes hfile

theorem mem_filesIn {bytes : List UInt8} : (name, bytes) ∈ t.filesIn loc suffix ↔
    suffix <:+ name ∧ t.node? (name :: loc) = some (.file bytes) := by
  rw [filesIn, List.mem_filterMap]
  simp only [List.mem_filter, List.isSuffixOf_iff_suffix, mem_namesIn, fileIn_eq_some_iff]
  constructor
  · rintro ⟨_, ⟨-, hsuffix⟩, rfl, hfile⟩
    exact ⟨hsuffix, hfile⟩
  · rintro ⟨hsuffix, hfile⟩
    exact ⟨name, ⟨by simp [hfile], hsuffix⟩, rfl, hfile⟩

theorem pairwise_filesIn (t : FileTree) (loc : Location) (suffix : Text) :
    ((t.filesIn loc suffix).map Prod.fst).Pairwise Text.Before := by
  have hname : ∀ name, (t.fileIn loc name).map Prod.fst =
      Option.guard (fun name => (t.fileIn loc name).isSome) name := fun name => by
    cases hfile : t.fileIn loc name with
    | none => simp [Option.guard, hfile]
    | some file =>
      obtain ⟨rfl, -⟩ := fileIn_eq_some_iff.1 hfile
      simp [Option.guard, hfile]
  have hnames : ((t.filesIn loc suffix).map Prod.fst).Sublist (t.namesIn loc) := by
    rw [filesIn, List.map_filterMap, funext hname, List.filterMap_eq_filter]
    exact List.filter_sublist.trans List.filter_sublist
  exact (Text.pairwise_sorted _).sublist hnames

/-- **The files in a directory whose names have a given end**, and each of them once. -/
theorem lists_filesIn (h : t.Leads dir d) (suffix : Text) :
    t.Lists dir suffix (t.filesIn d.location suffix) :=
  ⟨(t.pairwise_filesIn d.location suffix).nodup, d, h, fun _ _ => mem_filesIn⟩

theorem Lists.exists_perm {files : List (Text × List UInt8)} (h : t.Lists dir suffix files) :
    ∃ d, t.Leads dir d ∧ files.Perm (t.filesIn d.location suffix) := by
  obtain ⟨hnodup, d, hd, hmem⟩ := h
  refine ⟨d, hd, (List.perm_ext_iff_of_nodup hnodup.of_map ?_).2 ?_⟩
  · exact (lists_filesIn hd suffix).nodup.of_map
  · rintro ⟨name, bytes⟩
    rw [hmem, mem_filesIn]

theorem Lists.eq_filesIn {files : List (Text × List UInt8)} (h : t.Lists dir suffix files)
    (hsorted : (files.map Prod.fst).Pairwise Text.Before) :
    ∃ d, t.Leads dir d ∧ files = t.filesIn d.location suffix := by
  obtain ⟨d, hd, hperm⟩ := h.exists_perm
  exact ⟨d, hd, Text.eq_of_pairwise_before (List.pairwise_map.1 hsorted)
    (List.pairwise_map.1 (t.pairwise_filesIn d.location suffix)) fun f => hperm.mem_iff⟩

end FileTree

end MinedRules
