import MinedRules.Disk.Change
import MinedRules.Proofs.Disk.Parents

/-!
# Trees that grow

Paths lead where they led as long as no directory is lost (`FileTree.Keeps`).  Making directories only
adds directories that the path itself names (`FileTree.Grows`), and it succeeds exactly if the path
leads to a directory afterwards.

* `FileTree.Keeps.place?_eq` : a path points where it pointed before.
* `FileTree.makeDir_cases` : making one directory.
* `FileTree.makeDirs_spec` : making a directory and all directories around it.
* `FileTree.run_makeDirs_of_leads` : a directory that is there need not be made.
-/

namespace MinedRules

namespace FileTree

variable {t t' t'' : FileTree} {p dir : Path} {l : Location} {o : Option Node} {paths : List Path}
  {r : Except OsError Unit}

/-! ### Trees with the same directories -/

/-- Every directory of the first tree is one of the second, and relative paths begin at the same
place. -/
structure Keeps (t t' : FileTree) : Prop where
  workingDirectory : t'.workingDirectory = t.workingDirectory
  directory : ∀ l, t.node? l = some .directory → t'.node? l = some .directory

/-- A directory as one of the second tree. -/
def Directory.lift (h : t.Keeps t') (d : t.Directory) : t'.Directory :=
  ⟨d.location, h.directory d.location d.isDirectory⟩

/-- A target as one in the second tree. -/
def Target.lift (h : t.Keeps t') : t.Target → t'.Target
  | directory d => directory (d.lift h)
  | named d name hname => named (d.lift h) name hname

namespace Keeps

variable (h : t.Keeps t')
include h

theorem start_lift (p : Path) : (t.start p).lift h = t'.start p := by
  rw [start, start]
  split
  · rfl
  · simp only [Directory.lift, h.workingDirectory]

theorem walk_lift {d e : t.Directory} {steps : List Text} (hwalk : t.walk d steps = .ok e) :
    t'.walk (d.lift h) steps = .ok (e.lift h) := by
  induction steps generalizing d with
  | nil =>
    obtain rfl := Except.ok.inj hwalk
    rfl
  | cons step steps ih =>
    rw [walk] at hwalk
    cases hat : t.directoryAt (d.next step) with
    | error e => simp [hat] at hwalk
    | ok d' =>
      -- the step is to the same location, and the directory there is one of the second tree too
      have hat' : t'.directoryAt ((d.lift h).next step) = .ok (d'.lift h) := by
        rw [directoryAt_eq_ok_iff] at hat ⊢
        exact hat
      rw [walk, hat']
      exact ih (by simpa [hat] using hwalk)

theorem base_lift {d : t.Directory} (hbase : t.base p = .ok d) :
    t'.base p = .ok (d.lift h) := by
  rw [base, ← h.start_lift]
  exact h.walk_lift hbase

theorem target_lift {g : t.Target} (hg : t.target p = .ok g) : t'.target p = .ok (g.lift h) := by
  rcases target_forms (ne_nil_of_target hg) with htarget | ⟨steps, name, hname, -, htarget⟩
  · rw [htarget] at hg ⊢
    cases hbase : t.base p with
    | error e => simp [hbase, Except.map] at hg
    | ok d =>
      obtain rfl : Target.directory d = g := by simpa [hbase, Except.map] using hg
      rw [h.base_lift hbase]
      rfl
  · rw [htarget] at hg ⊢
    cases hwalk : t.walk (t.start p) steps with
    | error e => simp [hwalk, Except.map] at hg
    | ok d =>
      obtain rfl : Target.named d name hname = g := by simpa [hwalk, Except.map] using hg
      rw [← h.start_lift, h.walk_lift hwalk]
      rfl

theorem place?_eq (hl : t.place? p = .ok l) : t'.place? p = .ok l := by
  obtain ⟨g, hg, rfl⟩ := exists_of_place? hl
  rw [place?, h.target_lift hg]
  cases g <;> rfl

theorem exists_base {d : t.Directory} (hbase : t.base p = .ok d) :
    ∃ d' : t'.Directory, t'.base p = .ok d' ∧ d'.location = d.location :=
  ⟨d.lift h, h.base_lift hbase, rfl⟩

end Keeps

/-! ### Changes at one location -/

/-- The second tree has this node, or none, at the location, and else it is the first one. -/
structure Sets (t t' : FileTree) (l : Location) (o : Option Node) : Prop where
  workingDirectory : t'.workingDirectory = t.workingDirectory
  node?_eq : ∀ l', t'.node? l' = if l' = l then o else t.node? l'

theorem Sets.node?_self (h : t.Sets t' l o) : t'.node? l = o := by
  rw [h.node?_eq, if_pos rfl]

theorem Sets.node?_of_ne (h : t.Sets t' l o) {l' : Location} (hne : l' ≠ l) :
    t'.node? l' = t.node? l' := by
  rw [h.node?_eq, if_neg hne]

theorem Sets.keeps (h : t.Sets t' l o) (hl : t.node? l ≠ some .directory) : t.Keeps t' := by
  refine ⟨h.workingDirectory, fun l' hl' => ?_⟩
  rw [h.node?_of_ne, hl']
  rintro rfl
  exact hl hl'

theorem Sets.keeps_back (h : t.Sets t' l o) (ho : o ≠ some .directory) : t'.Keeps t := by
  refine ⟨h.workingDirectory.symm, fun l' hl' => ?_⟩
  by_cases hne : l' = l
  · rw [hne, h.node?_self] at hl'
    exact absurd hl' ho
  · rw [← h.node?_of_ne hne, hl']

theorem sets_insert {d : t.Directory} {name : Text} (hname : Path.IsName name) (n : Node)
    (hl : t.node? (name :: d.location) ≠ some .directory) :
    t.Sets (t.insert d name hname n hl) (name :: d.location) (some n) :=
  ⟨rfl, node?_insert d name hname n hl⟩

theorem sets_erase {name : Text} (hl : t.node? (name :: l) ≠ some .directory) :
    t.Sets (t.erase name l hl) (name :: l) none :=
  ⟨rfl, node?_erase name l hl⟩

/-! ### Making one directory -/

/-- A directory is made where nothing was, or nothing changes. -/
theorem makeDir_cases (t : FileTree) (p : Path) :
    (∃ e, t.makeDir p = (.error e, t)) ∨
      ∃ t' l, t.makeDir p = (.ok (), t') ∧ t.node? l = none ∧ t.Sets t' l (some .directory) ∧
        t'.place? p = .ok l ∧ t'.find p = .ok .directory := by
  rw [makeDir]
  split
  · next e _ => exact .inl ⟨e, rfl⟩
  · exact .inl ⟨_, rfl⟩
  · next d name hname htarget =>
    split
    · next hnone =>
      have hl : t.node? (name :: d.location) ≠ some .directory := by simp [hnone]
      have hsets := sets_insert hname .directory hl
      have htarget' := (hsets.keeps hl).target_lift htarget
      refine .inr ⟨_, name :: d.location, rfl, hnone, hsets, ?_, ?_⟩
      · rw [place?, htarget']
        rfl
      · have hnode := hsets.node?_self
        simp only [find, htarget', Target.lift, Directory.lift, hnode]
    · exact .inl ⟨_, rfl⟩

/-! ### Growing -/

/-- The second tree has the same at the location, or a new directory that one of the paths points
at. -/
def Spares (paths : List Path) (t t' : FileTree) (l : Location) : Prop :=
  t'.node? l = t.node? l ∨
    t.node? l = none ∧ t'.node? l = some .directory ∧ ∃ p ∈ paths, t'.place? p = .ok l

theorem Spares.node?_eq (h : Spares paths t t' l) {n : Node} (hl : t.node? l = some n) :
    t'.node? l = some n := by
  rcases h with heq | ⟨hnone, -⟩
  · rw [heq, hl]
  · rw [hnone] at hl
    exact absurd hl nofun

theorem Spares.node?_of_file (h : Spares paths t t' l) {bytes : List UInt8}
    (hl : t'.node? l = some (.file bytes)) : t.node? l = some (.file bytes) := by
  rcases h with heq | ⟨-, hdir, -⟩
  · rw [← heq, hl]
  · rw [hdir] at hl
    exact absurd hl nofun

theorem Spares.file_iff (h : Spares paths t t' l) (bytes : List UInt8) :
    t'.node? l = some (.file bytes) ↔ t.node? l = some (.file bytes) :=
  ⟨h.node?_of_file, h.node?_eq⟩

theorem Spares.congr (h : Spares paths t t' l) (hkeeps : t'.Keeps t'')
    (hl : t''.node? l = t'.node? l) : Spares paths t t'' l := by
  rcases h with heq | ⟨hnone, hnew, p, hp, hplace⟩
  · exact .inl (hl.trans heq)
  · exact .inr ⟨hnone, hl.trans hnew, p, hp, hkeeps.place?_eq hplace⟩

/-- The second tree has the same nodes and perhaps directories more, each of which one of the paths
points at. -/
structure Grows (paths : List Path) (t t' : FileTree) : Prop where
  workingDirectory : t'.workingDirectory = t.workingDirectory
  spares : ∀ l, Spares paths t t' l

namespace Grows

theorem refl (paths : List Path) (t : FileTree) : Grows paths t t := ⟨rfl, fun _ => .inl rfl⟩

theorem keeps (h : Grows paths t t') : t.Keeps t' :=
  ⟨h.workingDirectory, fun l hl => (h.spares l).node?_eq hl⟩

theorem trans (h : Grows paths t t') (h' : Grows paths t' t'') : Grows paths t t'' := by
  refine ⟨h'.workingDirectory.trans h.workingDirectory, fun l => ?_⟩
  rcases h.spares l with heq | ⟨hnone, hnew, p, hp, hl⟩
  · rw [Spares, ← heq]
    exact h'.spares l
  · exact .inr ⟨hnone, (h'.spares l).node?_eq hnew, p, hp, h'.keeps.place?_eq hl⟩

theorem cons (h : Grows paths t t') (p : Path) : Grows (p :: paths) t t' := by
  refine ⟨h.workingDirectory, fun l => ?_⟩
  rcases h.spares l with heq | ⟨hnone, hnew, q, hq, hl⟩
  · exact .inl heq
  · exact .inr ⟨hnone, hnew, q, List.mem_cons_of_mem _ hq, hl⟩

end Grows

theorem grows_makeDir (t : FileTree) (p : Path) (paths : List Path) :
    Grows (p :: paths) t (t.makeDir p).2 := by
  rcases t.makeDir_cases p with ⟨e, h⟩ | ⟨t', l, h, hnone, hsets, hplace, -⟩
  · rw [h]
    exact .refl _ t
  · rw [h]
    refine ⟨hsets.workingDirectory, fun l' => ?_⟩
    by_cases hl : l' = l
    · subst hl
      exact .inr ⟨hnone, hsets.node?_self, p, List.mem_cons_self, hplace⟩
    · exact .inl (hsets.node?_of_ne hl)

/-! ### Making a directory and those around it -/

/-- The result of an attempt to make a directory: one that is there will do. -/
def present (t : FileTree) (p : Path) : Except OsError Unit → Except OsError Unit
  | .ok () => .ok ()
  | .error e => if t.kind? p = some .directory then .ok () else .error e

theorem run_orPresent (t : FileTree) (p : Path) (r : Except OsError Unit) :
    (Disk.orPresent (m := StateM FileTree) p r).run t = (t.present p r, t) := by
  cases r with
  | ok _ => rfl
  | error e =>
    have hrun : (Disk.orPresent (m := StateM FileTree) p (.error e)).run t =
        (if t.kind? p = some .directory then pure (.ok ()) else pure (.error e) :
          StateM FileTree (Except OsError Unit)).run t := rfl
    rw [hrun, present]
    split <;> rfl

/-- An attempt to make a directory. -/
def attempt (t : FileTree) (p : Path) : Except OsError Unit × FileTree :=
  ((t.makeDir p).2.present p (t.makeDir p).1, (t.makeDir p).2)

theorem attempt_eq_ok_iff (h : t.attempt p = (r, t')) : r = .ok () ↔ ∃ d, t'.Leads p d := by
  obtain ⟨rfl, rfl⟩ := Prod.mk.inj h
  rcases t.makeDir_cases p with ⟨e, h⟩ | ⟨t', l, h, -, -, -, hfind⟩
  · rw [h, present, ← kind?_eq_directory_iff]
    split <;> simp_all
  · rw [h, present]
    exact iff_of_true rfl (find_eq_directory_iff.1 hfind)

theorem grows_attempt (h : t.attempt p = (r, t')) (paths : List Path) :
    Grows (p :: paths) t t' := by
  obtain ⟨-, rfl⟩ := Prod.mk.inj h
  exact t.grows_makeDir p paths

theorem run_makeFirst (t : FileTree) (p : Path) (paths : List Path) :
    (Disk.makeFirst (m := StateM FileTree) (p :: paths)).run t =
      if (t.makeDir p).1 = .error .notFound then
        match (Disk.makeFirst (m := StateM FileTree) paths).run (t.makeDir p).2 with
        | (.ok (), t₁) => t₁.attempt p
        | (.error e, t₁) => (.error e, t₁)
      else t.attempt p := by
  have hrun : (Disk.makeDir p : StateM FileTree (Except OsError Unit)).run t = t.makeDir p := rfl
  rw [Disk.makeFirst, StateT.run_bind, hrun]
  simp only [attempt, ← run_orPresent]
  rcases t.makeDir p with ⟨_ | _, t₁⟩
  · next e =>
    cases e with
    | notFound =>
      simp only [bind, StateT.bind, StateT.run]
      rcases Disk.makeFirst (m := StateM FileTree) paths t₁ with ⟨_ | _, t₂⟩ <;> rfl
    | _ => rfl
  · rfl

/-- There is one attempt, or it comes after the directories around have been made; if these cannot be
made there is none. -/
theorem makeFirst_cases
    (h : (Disk.makeFirst (m := StateM FileTree) (p :: paths)).run t = (r, t')) :
    t.attempt p = (r, t') ∨
      (∃ t₁, (Disk.makeFirst (m := StateM FileTree) paths).run t = (.ok (), t₁) ∧
        t₁.attempt p = (r, t')) ∨
      ∃ e, r = .error e ∧ (Disk.makeFirst (m := StateM FileTree) paths).run t = (.error e, t') := by
  rw [run_makeFirst] at h
  split at h
  · next hnotFound =>
    -- a refusal changes nothing, so the directories around are made in the same tree
    have hsame : (t.makeDir p).2 = t := by
      rcases t.makeDir_cases p with ⟨e, hdir⟩ | ⟨t', l, hdir, -⟩
      · rw [hdir]
      · simp [hdir] at hnotFound
    rw [hsame] at h
    split at h
    · next t₁ hrun => exact .inr (.inl ⟨t₁, hrun, h⟩)
    · next e t₁ hrun =>
      obtain ⟨rfl, rfl⟩ := Prod.mk.inj h
      exact .inr (.inr ⟨e, rfl, hrun⟩)
  · exact .inl h

theorem grows_makeFirst
    (h : (Disk.makeFirst (m := StateM FileTree) paths).run t = (r, t')) : Grows paths t t' := by
  induction paths generalizing r t' with
  | nil =>
    obtain ⟨-, rfl⟩ := Prod.mk.inj h
    exact .refl _ t
  | cons p paths ih =>
    rcases makeFirst_cases h with hp | ⟨t₁, hrun, hp⟩ | ⟨e, -, hrun⟩
    · exact grows_attempt hp paths
    · exact ((ih hrun).cons p).trans (grows_attempt hp paths)
    · exact (ih hrun).cons p

theorem not_leads_of_parent? {q : Path} (hparent : p.parent? = some q) (hq : q ≠ [])
    (h : ¬ ∃ d, t.Leads q d) : ¬ ∃ d, t.Leads p d := by
  rintro ⟨d, hd⟩
  obtain ⟨name, hsplit⟩ := Path.exists_of_parent? hparent
  have hbase := hd.base_eq
  rw [base_of_isSplit hsplit] at hbase
  cases hdir : t.base q with
  | error e => simp [hdir, Except.bind] at hbase
  | ok d' => exact h ⟨d', hq, hdir⟩

/-- The first directory of a list is made exactly if its path leads to a directory afterwards; if the
others cannot be made it must not. -/
theorem makeFirst_cons_eq_ok_iff
    (hpaths : ∀ e t₁, (Disk.makeFirst (m := StateM FileTree) paths).run t = (.error e, t₁) →
      ¬ ∃ d, t₁.Leads p d)
    (h : (Disk.makeFirst (m := StateM FileTree) (p :: paths)).run t = (r, t')) :
    r = .ok () ↔ ∃ d, t'.Leads p d := by
  rcases makeFirst_cases h with hp | ⟨t₁, -, hp⟩ | ⟨e, rfl, hrun⟩
  · exact attempt_eq_ok_iff hp
  · exact attempt_eq_ok_iff hp
  · exact iff_of_false nofun (hpaths e t' hrun)

theorem run_makeFirst_nil_ne {e : OsError} :
    (Disk.makeFirst (m := StateM FileTree) []).run t ≠ (.error e, t') :=
  fun h => nomatch (Prod.mk.inj h).1

theorem makeFirst_eq_ok_iff {n : Nat} (hp : p ≠ [])
    (h : (Disk.makeFirst (m := StateM FileTree) (p.ancestorsWithin (n + 1))).run t = (r, t')) :
    r = .ok () ↔ ∃ d, t'.Leads p d := by
  induction n generalizing p r t' with
  | zero =>
    rw [Path.ancestorsWithin, if_neg (by simpa using hp)] at h
    refine makeFirst_cons_eq_ok_iff (fun e t₁ hrun => ?_) h
    cases hparent : p.parent? <;>
      exact absurd (by simpa [hparent, Path.ancestorsWithin] using hrun) run_makeFirst_nil_ne
  | succ n ih =>
    rw [Path.ancestorsWithin, if_neg (by simpa using hp)] at h
    refine makeFirst_cons_eq_ok_iff (fun e t₁ hrun => ?_) h
    cases hparent : p.parent? with
    | none => exact absurd (by simpa [hparent] using hrun) run_makeFirst_nil_ne
    | some q =>
      rw [hparent, Option.elim_some] at hrun
      -- if the parent cannot be made it leads nowhere, and neither does what stands in it
      by_cases hq : q = []
      · exact absurd (by simpa [hq, Path.ancestorsWithin] using hrun) run_makeFirst_nil_ne
      · exact not_leads_of_parent? hparent hq fun hd => nomatch (ih hq hrun).2 hd

/-- **Making a directory and those around it only adds directories that the path names, and it
succeeds exactly if names behind the path stand in a directory afterwards.** -/
theorem makeDirs_spec (h : (Disk.makeDirs (m := StateM FileTree) dir).run t = (r, t')) :
    Grows dir.ancestors t t' ∧ (r = .ok () ↔ ∃ d, t'.base dir = .ok d) := by
  refine ⟨grows_makeFirst h, ?_⟩
  by_cases hdir : dir = []
  · subst hdir
    obtain ⟨rfl, -⟩ := Prod.mk.inj h
    exact iff_of_true rfl ⟨t'.start [], rfl⟩
  · obtain ⟨n, hn⟩ := Nat.exists_eq_succ_of_ne_zero (mt List.length_eq_zero_iff.1 hdir)
    rw [Disk.makeDirs, Path.ancestors, hn] at h
    rw [makeFirst_eq_ok_iff hdir h]
    exact ⟨fun ⟨d, hd⟩ => ⟨d, hd.base_eq⟩, fun ⟨d, hd⟩ => ⟨d, hdir, hd⟩⟩

/-! ### A directory that is there -/

theorem makeDir_of_leads {d : t.Directory} (h : t.Leads p d) :
    t.makeDir p = (.error .alreadyThere, t) := by
  have hfind := find_eq_directory_iff.2 ⟨d, h⟩
  rw [find] at hfind
  rw [makeDir]
  cases htarget : t.target p with
  | error e => simp [htarget] at hfind
  | ok g =>
    rw [htarget] at hfind
    cases g with
    | directory e => rfl
    | named e name hname =>
      have hnode : t.node? (name :: e.location) ≠ none := fun hnone => by simp [hnone] at hfind
      exact dif_neg hnode

theorem attempt_of_leads {d : t.Directory} (h : t.Leads p d) : t.attempt p = (.ok (), t) := by
  rw [attempt, makeDir_of_leads h, present, if_pos (kind?_eq_directory_iff.2 ⟨d, h⟩)]

theorem run_makeDirs_of_leads {d : t.Directory} (h : t.Leads dir d) :
    (Disk.makeDirs (m := StateM FileTree) dir).run t = (.ok (), t) := by
  obtain ⟨n, hn⟩ := Nat.exists_eq_succ_of_ne_zero (mt List.length_eq_zero_iff.1 h.nonempty)
  rw [Disk.makeDirs, Path.ancestors, hn, Path.ancestorsWithin, if_neg (by simpa using h.nonempty),
    run_makeFirst, makeDir_of_leads h, if_neg (by simp), attempt_of_leads h]

end FileTree

end MinedRules
