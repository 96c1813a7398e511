import MinedRules.Proofs.Disk.Listing
import MinedRules.Proofs.Text.Trimming

/-!
# Parents of paths

The parent of a path leads to the directory that the last component stands in, whatever dots and
slashes are between the components (`Path.IsSplit`).

* `Path.isSplit_of_split?` : what `Path.split?` makes of a path.
* `FileTree.walk_filter` : steps that stay where they are do not count.
* `FileTree.place?` : the location that a path points at; `FileTree.find_eq_ok_iff` says what is found
  there.
* `FileTree.place?_of_isSplit` : a path with a file name points at this name in the directory that
  the parent leads to.
-/

namespace MinedRules

namespace Path

variable {p dir : Path} {name first : Text} {rest : List Text}

/-! ### Solid steps -/

/-- The steps of a path without those that stay where they are. -/
def solid (p : Path) : List Text := p.parts.filter fun part => !isVoid part

theorem filter_steps (p : Path) : (p.steps.filter fun step => step != here) = p.solid := by
  rw [steps, solid, List.filter_filter]
  refine List.filter_congr fun part _ => ?_
  rw [isVoid, Bool.not_or, bne, Bool.and_comm]

theorem isVoid_eq_false_iff {part : Text} : isVoid part = false ↔ part ≠ [] ∧ part ≠ here := by
  simp [isVoid]

theorem IsName.isVoid_eq_false (h : IsName name) : isVoid name = false :=
  isVoid_eq_false_iff.2 ⟨h.nonempty, h.here⟩

theorem slash_not_mem_parts {part : Text} (h : part ∈ p.parts) : '/' ∉ part :=
  not_mem_of_mem_splitOn h

theorem intercalate_parts (h : p.parts = first :: rest) :
    List.intercalate ['/'] (first :: rest) = p := by
  rw [← h, parts, List.intercalate_splitOn]

theorem head?_intercalate (hfirst : '/' ∉ first) :
    ((List.intercalate ['/'] (first :: rest)).head? == some '/') =
      (first.isEmpty && !rest.isEmpty) := by
  cases first with
  | nil => cases rest <;> simp
  | cons c first =>
    have hc : c ≠ '/' := fun hc => hfirst (hc ▸ List.mem_cons_self)
    cases rest <;> simp [hc]

theorem isAbsolute_of_parts (h : p.parts = first :: rest) :
    p.isAbsolute = (first.isEmpty && !rest.isEmpty) := by
  have hfirst : '/' ∉ first := slash_not_mem_parts (p := p) (h ▸ List.mem_cons_self)
  rw [← head?_intercalate hfirst, intercalate_parts h, isAbsolute]

theorem isAbsolute_ofParts (hfirst : '/' ∉ first) :
    (ofParts first rest).isAbsolute = first.isEmpty := by
  rw [ofParts]
  split
  · next h => simp_all [isAbsolute]
  · next h =>
    rw [isAbsolute, head?_intercalate hfirst]
    cases first <;> cases rest <;> simp_all

theorem solid_ofParts (h : ∀ part ∈ first :: rest, '/' ∉ part) :
    (ofParts first rest).solid = (first :: rest).filter fun part => !isVoid part := by
  rw [ofParts]
  split
  · next hempty =>
    simp only [Bool.and_eq_true, List.isEmpty_iff] at hempty
    obtain ⟨rfl, rfl⟩ := hempty
    rfl
  · rw [solid, parts, List.splitOn_intercalate '/' h (List.cons_ne_nil _ _)]

/-! ### Splitting a path -/

/-- The path is that of the component in the directory. -/
structure IsSplit (p dir : Path) (name : Text) : Prop where
  solid : p.solid = dir.solid ++ [name].filter fun part => !isVoid part
  isAbsolute : dir.isAbsolute = p.isAbsolute
  nonempty : name ≠ []
  slash : '/' ∉ name

theorem filter_dropWhileEnd_isVoid (l : List Text) :
    ((Text.dropWhileEnd isVoid l).filter fun part => !isVoid part) =
      l.filter fun part => !isVoid part :=
  Text.filter_dropWhileEnd (fun part h => by rw [h]; rfl) l

theorem mem_of_mem_dropWhileEnd {part : Text} {l : List Text}
    (h : part ∈ Text.dropWhileEnd isVoid l) : part ∈ l := by
  obtain ⟨void, -, hl⟩ := Text.exists_dropWhileEnd isVoid l
  rw [hl]
  exact List.mem_append_left _ h

theorem isVoid_of_getLast? {l : List Text} (h : (Text.dropWhileEnd isVoid l).getLast? = some name) :
    isVoid name = false := by
  rw [Text.dropWhileEnd, List.getLast?_reverse] at h
  exact Text.head?_dropWhile isVoid l.reverse name h

theorem isSplit_of_split? (h : p.split? = some (dir, name)) : IsSplit p dir name := by
  obtain ⟨first, rest, hparts⟩ : ∃ first rest, p.parts = first :: rest :=
    List.exists_cons_of_ne_nil (List.splitOn_ne_nil '/' p)
  have hslash : ∀ part ∈ first :: rest, '/' ∉ part := fun part hpart =>
    slash_not_mem_parts (p := p) (hparts ▸ hpart)
  have hsolid : p.solid = [first].filter (fun part => !isVoid part) ++
      rest.filter fun part => !isVoid part := by
    rw [solid, hparts, ← List.filter_append, List.singleton_append]
  rw [split?, hparts] at h
  simp only at h
  split at h
  · next last hlast =>
    obtain ⟨rfl, rfl⟩ := Prod.mk.inj (Option.some.inj h)
    obtain ⟨front, hfront⟩ := List.getLast?_eq_some_iff.1 hlast
    have hmem : ∀ part ∈ front ++ [last], part ∈ rest := fun part hpart =>
      mem_of_mem_dropWhileEnd (hfront ▸ hpart)
    have hlast' : last ∈ rest := hmem last (by simp)
    have hrest : rest ≠ [] := List.ne_nil_of_mem hlast'
    have hdir : ∀ part ∈ first :: Text.dropWhileEnd isVoid front, '/' ∉ part := by
      intro part hpart
      rcases List.mem_cons.1 hpart with rfl | hpart
      · exact hslash _ List.mem_cons_self
      · exact hslash part (List.mem_cons_of_mem _
          (hmem part (List.mem_append_left _ (mem_of_mem_dropWhileEnd hpart))))
    rw [hfront, List.dropLast_concat]
    refine ⟨?_, ?_, (isVoid_eq_false_iff.1 (isVoid_of_getLast? hlast)).1,
      hslash last (List.mem_cons_of_mem _ hlast')⟩
    · rw [hsolid, ← filter_dropWhileEnd_isVoid rest, hfront, List.filter_append,
        ← filter_dropWhileEnd_isVoid front, solid_ofParts hdir, ← List.append_assoc,
        ← List.filter_append, List.singleton_append]
    · rw [isAbsolute_ofParts (hslash first List.mem_cons_self), isAbsolute_of_parts hparts]
      simp [hrest]
  · next hlast =>
    -- there is one component, which is the first one
    split at h
    · simp at h
    · next hfirst =>
      obtain ⟨rfl, rfl⟩ := Prod.mk.inj (Option.some.inj h)
      have hnil : Text.dropWhileEnd isVoid rest = [] := List.getLast?_eq_none_iff.1 hlast
      refine ⟨?_, ?_, by simpa using hfirst, hslash _ List.mem_cons_self⟩
      · rw [hsolid, ← filter_dropWhileEnd_isVoid rest, hnil, List.filter_nil, List.append_nil]
        rfl
      · rw [isAbsolute_of_parts hparts]
        simp [isAbsolute, hfirst]

theorem exists_of_fileName? (h : p.fileName? = some name) :
    ∃ dir, p.parent? = some dir ∧ IsSplit p dir name ∧ IsName name := by
  rw [fileName?] at h
  split at h
  · next dir last hsplit =>
    split at h
    · simp at h
    · next hname =>
      obtain rfl := Option.some.inj h
      obtain ⟨hhere, hup⟩ := not_or.1 hname
      have hp := isSplit_of_split? hsplit
      exact ⟨dir, by rw [parent?, hsplit]; rfl, hp, hp.nonempty, hp.slash, hhere, hup⟩
  · simp at h

theorem exists_of_parent? (h : p.parent? = some dir) : ∃ name, IsSplit p dir name := by
  obtain ⟨⟨_, name⟩, hsplit, rfl⟩ := Option.map_eq_some_iff.1 h
  exact ⟨name, isSplit_of_split? hsplit⟩

end Path

namespace FileTree

variable {t : FileTree} {d e : t.Directory} {p dir : Path} {name : Text} {l : Location}

/-! ### Walking -/

theorem directoryAt_eq_ok_iff : t.directoryAt l = .ok d ↔ d.location = l := by
  obtain ⟨loc, hloc⟩ := d
  rw [directoryAt]
  split
  · next h =>
    simp only [Except.ok.injEq, Directory.mk.injEq]
    exact eq_comm
  · next h =>
    simp only [reduceCtorEq, false_iff]
    rintro rfl
    simp [hloc] at h
  · next h =>
    simp only [reduceCtorEq, false_iff]
    rintro rfl
    simp [hloc] at h

theorem walk_filter (d : t.Directory) (steps : List Text) :
    t.walk d (steps.filter fun step => step != Path.here) = t.walk d steps := by
  induction steps generalizing d with
  | nil => rfl
  | cons step steps ih =>
    by_cases hstep : step = Path.here
    · subst hstep
      have hnext : t.directoryAt (d.next Path.here) = .ok d :=
        directoryAt_eq_ok_iff.2 (by rw [Directory.next, if_pos rfl])
      rw [List.filter_cons_of_neg (by simp), ih, walk, hnext]
    · rw [List.filter_cons_of_pos (by simpa using hstep), walk, walk]
      cases t.directoryAt (d.next step) with
      | ok d => exact ih d
      | error e => rfl

theorem base_eq_walk_solid (t : FileTree) (p : Path) : t.base p = t.walk (t.start p) p.solid := by
  rw [base, ← Path.filter_steps, walk_filter]

theorem base_of_isSplit (h : Path.IsSplit p dir name) :
    t.base p = (t.base dir).bind (t.walk · [name]) := by
  have hstart : t.start p = t.start dir := by rw [start, start, h.isAbsolute]
  have hname : ([name].filter fun part => !Path.isVoid part) =
      [name].filter fun step => step != Path.here := by
    refine List.filter_congr fun part hpart => ?_
    obtain rfl := List.mem_singleton.1 hpart
    simp [Path.isVoid, h.nonempty, bne]
  rw [base_eq_walk_solid, h.solid, walk_append, hstart, base_eq_walk_solid t dir, hname]
  simp only [walk_filter]

/-! ### Where a path points -/

/-- The location of a target. -/
def Target.location : t.Target → Location
  | directory d => d.location
  | named d name _ => name :: d.location

/-- The location that a path points at.  Something need not be there. -/
def place? (t : FileTree) (p : Path) : Except OsError Location := (t.target p).map Target.location

theorem ne_nil_of_target {g : t.Target} (h : t.target p = .ok g) : p ≠ [] := by
  rintro rfl
  simp [target] at h

theorem exists_of_place? (h : t.place? p = .ok l) :
    ∃ g, t.target p = .ok g ∧ g.location = l := by
  rw [place?] at h
  cases hg : t.target p with
  | error e => simp [hg, Except.map] at h
  | ok g => exact ⟨g, rfl, by simpa [hg, Except.map] using h⟩

/-- **A node is found at a path if it stands where the path points**, but a path with a slash at its
end finds directories only. -/
theorem find_eq_ok_iff {n : Node} : t.find p = .ok n ↔
    ∃ l, t.place? p = .ok l ∧ t.node? l = some n ∧ (p.endsInSlash → n = .directory) := by
  rw [find, place?]
  cases t.target p with
  | error e => simp [Except.map]
  | ok g =>
    cases g with
    | directory d =>
      have hd : t.node? (Target.directory d).location = some .directory := d.isDirectory
      simp only [Except.map, Except.ok.injEq, exists_eq_left', hd, Option.some.injEq]
      exact ⟨fun h => ⟨h, fun _ => h.symm⟩, fun h => h.1⟩
    | named d name hname =>
      simp only [Except.map, Except.ok.injEq, exists_eq_left', Target.location]
      cases t.node? (name :: d.location) with
      | none => simp
      | some n' =>
        cases n' with
        | directory => simp_all
        | file bytes =>
          by_cases hslash : p.endsInSlash
          · simp only [hslash, if_true, Option.some.injEq]
            grind
          · simp [hslash]

theorem find_eq_notFound (hl : t.place? p = .ok l) (hnone : t.node? l = none) :
    t.find p = .error .notFound := by
  obtain ⟨g, hg, rfl⟩ := exists_of_place? hl
  rw [find, hg]
  cases g with
  | directory d => exact absurd (d.isDirectory.symm.trans hnone) (Option.some_ne_none _)
  | named d name hname =>
    rw [Target.location] at hnone
    simp only [hnone]

theorem place?_join (t : FileTree) (dir : Path) (hname : Path.IsName name) :
    t.place? (dir.join name) = (t.base dir).map fun d => name :: d.location := by
  rw [place?, target_join t dir hname]
  cases t.base dir <;> rfl

theorem base_of_steps {steps : List Text} {last : Text} (hsteps : p.steps = steps ++ [last])
    (hlast : Path.IsName last) (hsplit : Path.IsSplit p dir name) (hname : Path.IsName name)
    (t : FileTree) : t.base dir = t.walk (t.start p) steps ∧ last = name := by
  have hsolid : (steps.filter fun step => step != Path.here) ++ [last] = dir.solid ++ [name] := by
    have hfilter := Path.filter_steps p
    rw [hsteps, List.filter_append, hsplit.solid] at hfilter
    simpa [hlast.here, hname.isVoid_eq_false] using hfilter
  obtain ⟨hdir, hlast⟩ := List.append_singleton_inj.1 hsolid
  have hstart : t.start dir = t.start p := by rw [start, start, hsplit.isAbsolute]
  exact ⟨by rw [base_eq_walk_solid, ← hdir, walk_filter, hstart], hlast⟩

/-- **A path with a file name points at this name in the directory that its parent leads to.** -/
theorem place?_of_isSplit (hl : t.place? p = .ok l) (hsplit : Path.IsSplit p dir name)
    (hname : Path.IsName name) : ∃ d, t.base dir = .ok d ∧ l = name :: d.location := by
  obtain ⟨g, hg, rfl⟩ := exists_of_place? hl
  rcases target_forms (ne_nil_of_target hg) with htarget | ⟨steps, last, hlast, hsteps, htarget⟩
  · rw [htarget, base_of_isSplit hsplit] at hg
    cases hdir : t.base dir with
    | error e => simp [hdir, Except.bind, Except.map] at hg
    | ok d =>
      rw [hdir] at hg
      simp only [Except.bind, walk, d.next_name hname] at hg
      cases hat : t.directoryAt (name :: d.location) with
      | error e => simp [hat, Except.map] at hg
      | ok e =>
        obtain rfl : Target.directory e = g := by simpa [hat, Except.map] using hg
        exact ⟨d, rfl, directoryAt_eq_ok_iff.1 hat⟩
  · obtain ⟨hbase, rfl⟩ := base_of_steps hsteps hlast hsplit hname t
    rw [htarget, ← hbase] at hg
    cases hdir : t.base dir with
    | error e => simp [hdir, Except.map] at hg
    | ok d =>
      obtain rfl : Target.named d last hlast = g := by simpa [hdir, Except.map] using hg
      exact ⟨d, rfl, rfl⟩

end FileTree

end MinedRules
