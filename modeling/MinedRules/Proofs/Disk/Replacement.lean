import MinedRules.Proofs.Disk.Growth

/-!
# Replacing files

Each change of a file is refused and leaves the tree as it is, or it is a change at the location that
the path points at.  Writing a draft and moving it in place of a file is then one change
(`FileTree.Replaces`), and if it fails only the draft is lost.

* `FileTree.create_cases`, `FileTree.rename_cases`, `FileTree.remove_cases` : the single operations.
* `FileTree.replace_cases` : the draft and its move.
-/

namespace MinedRules

namespace FileTree

variable {t t' : FileTree} {p draft : Path} {l src dst : Location} {o o' : Option Node}
  {bytes : List UInt8} {r : Except OsError Unit} {n : Node}

/-! ### Single operations -/

theorem place?_of_named {d : t.Directory} {name : Text} {hname : Path.IsName name}
    (h : t.target p = .ok (.named d name hname)) : t.place? p = .ok (name :: d.location) := by
  rw [place?, h]
  rfl

theorem create_cases (t : FileTree) (p : Path) (bytes : List UInt8) :
    (∃ e, t.create p bytes = (.error e, t)) ∨
      ∃ t' l, t.create p bytes = (.ok (), t') ∧ t.place? p = .ok l ∧
        t.node? l ≠ some .directory ∧ p.endsInSlash = false ∧ t.Sets t' l (some (.file bytes)) := by
  rw [create]
  split
  · next e _ => exact .inl ⟨e, rfl⟩
  · exact .inl ⟨_, rfl⟩
  · next d name hname htarget =>
    split
    · exact .inl ⟨_, rfl⟩
    · next h =>
      obtain ⟨hslash, hdir⟩ := not_or.1 h
      exact .inr ⟨_, name :: d.location, rfl, place?_of_named htarget, hdir, by simpa using hslash,
        sets_insert hname (.file bytes) hdir⟩

theorem remove_cases (t : FileTree) (p : Path) :
    ((∃ e, t.remove p = (.error e, t)) ∧ ∀ bytes, t.find p ≠ .ok (.file bytes)) ∨
      ∃ t' l, t.remove p = (.ok (), t') ∧ t.place? p = .ok l ∧
        t.node? l ≠ some .directory ∧ t.Sets t' l none := by
  rw [remove, find]
  cases htarget : t.target p with
  | error e => exact .inl ⟨⟨e, rfl⟩, by simp⟩
  | ok g =>
    cases g with
    | directory d => exact .inl ⟨⟨_, rfl⟩, by simp⟩
    | named d name hname =>
      simp only
      split
      · next hnode => exact .inl ⟨⟨_, rfl⟩, by simp [hnode]⟩
      · next hnode => exact .inl ⟨⟨_, rfl⟩, by simp [hnode]⟩
      · next hnode =>
        have hdir : t.node? (name :: d.location) ≠ some .directory := by simp [hnode]
        split
        · exact .inl ⟨⟨_, rfl⟩, by simp [hnode]⟩
        · exact .inr ⟨_, name :: d.location, rfl, place?_of_named htarget, hdir, sets_erase hdir⟩

/-- The second tree has the bytes at the second location and nothing at the first one, and else it is
the first tree. -/
structure Replaces (t t' : FileTree) (src dst : Location) (bytes : List UInt8) : Prop where
  workingDirectory : t'.workingDirectory = t.workingDirectory
  node?_eq : ∀ l, t'.node? l =
    if l = dst then some (.file bytes) else if l = src then none else t.node? l

namespace Replaces

variable (h : t.Replaces t' src dst bytes)
include h

theorem node?_dst : t'.node? dst = some (.file bytes) := by
  rw [h.node?_eq, if_pos rfl]

theorem node?_src (hne : src ≠ dst) : t'.node? src = none := by
  rw [h.node?_eq, if_neg hne, if_pos rfl]

theorem node?_of_ne (hsrc : l ≠ src) (hdst : l ≠ dst) : t'.node? l = t.node? l := by
  rw [h.node?_eq, if_neg hdst, if_neg hsrc]

theorem keeps (hsrc : t.node? src ≠ some .directory) (hdst : t.node? dst ≠ some .directory) :
    t.Keeps t' := by
  refine ⟨h.workingDirectory, fun l hl => ?_⟩
  rw [h.node?_of_ne, hl]
  · rintro rfl
    exact hsrc hl
  · rintro rfl
    exact hdst hl

end Replaces

theorem replaces_refl (h : t.node? l = some (.file bytes)) : t.Replaces t l l bytes := by
  refine ⟨rfl, fun l' => ?_⟩
  by_cases hl : l' = l
  · rw [if_pos hl, hl, h]
  · rw [if_neg hl, if_neg hl]

theorem replaces_move {d e : t.Directory} {name name' : Text} {hname' : Path.IsName name'}
    {hsrc : t.node? (name :: d.location) ≠ some .directory}
    {hdst : t.node? (name' :: e.location) ≠ some .directory}
    (hne : name :: d.location ≠ name' :: e.location) :
    t.Replaces (t.move d e name name' hname' bytes hsrc hdst) (name :: d.location)
      (name' :: e.location) bytes := by
  refine ⟨rfl, fun l => ?_⟩
  rw [move, node?_erase, node?_insert]
  by_cases hl : l = name :: d.location
  · rw [if_pos hl, if_neg (hl ▸ hne), if_pos hl]
  · rw [if_neg hl, if_neg hl]

/-- A file is moved in place of a file or of nothing, or nothing changes. -/
theorem rename_cases (t : FileTree) (p q : Path) :
    (∃ e, t.rename p q = (.error e, t)) ∨
      ∃ t' src dst bytes, t.rename p q = (.ok (), t') ∧ t.place? p = .ok src ∧
        t.node? src = some (.file bytes) ∧ t.place? q = .ok dst ∧
        t.node? dst ≠ some .directory ∧ q.endsInSlash = false ∧ t.Replaces t' src dst bytes := by
  rw [rename]
  split
  · exact .inl ⟨_, rfl⟩
  · exact .inl ⟨_, rfl⟩
  · exact .inl ⟨_, rfl⟩
  · exact .inl ⟨_, rfl⟩
  · next d name hname e name' hname' hp hq =>
    split
    · exact .inl ⟨_, rfl⟩
    · exact .inl ⟨_, rfl⟩
    · next bytes hfile =>
      split
      · exact .inl ⟨_, rfl⟩
      · next hslash =>
        split
        · exact .inl ⟨_, rfl⟩
        · next hdir =>
          have hslash' : q.endsInSlash = false := by simpa using (not_or.1 hslash).2
          split
          · next hsame =>
            refine .inr ⟨t, _, _, bytes, rfl, place?_of_named hp, hfile, place?_of_named hq, hdir,
              hslash', ?_⟩
            rw [← hsame]
            exact replaces_refl hfile
          · next hne =>
            exact .inr ⟨_, _, _, bytes, rfl, place?_of_named hp, hfile, place?_of_named hq, hdir,
              hslash', replaces_move hne⟩

/-! ### A draft and its move -/

theorem Sets.trans {t'' : FileTree} (h : t.Sets t' l o) (h' : t'.Sets t'' l o') :
    t.Sets t'' l o' := by
  refine ⟨h'.workingDirectory.trans h.workingDirectory, fun l' => ?_⟩
  rw [h'.node?_eq, h.node?_eq]
  split <;> rfl

theorem Sets.replaces {t'' : FileTree} (h : t.Sets t' src o)
    (h' : t'.Replaces t'' src dst bytes) : t.Replaces t'' src dst bytes := by
  refine ⟨h'.workingDirectory.trans h.workingDirectory, fun l => ?_⟩
  rw [h'.node?_eq, h.node?_eq]
  split
  · rfl
  · split <;> rfl

theorem run_replace (t : FileTree) (draft p : Path) (bytes : List UInt8) :
    (Disk.replace (m := StateM FileTree) draft p bytes).run t =
      match t.create draft bytes with
      | (.error e, t₁) => (.error e, (t₁.remove draft).2)
      | (.ok (), t₁) =>
        match t₁.rename draft p with
        | (.error e, t₂) => (.error e, (t₂.remove draft).2)
        | (.ok (), t₂) => (.ok (), t₂) := by
  have hcreate : (Disk.create draft bytes : StateM FileTree (Except OsError Unit)).run t =
    t.create draft bytes := rfl
  rw [Disk.replace, StateT.run_bind, hcreate]
  rcases t.create draft bytes with ⟨_ | _, t₁⟩
  · rfl
  · show (Disk.rename draft p >>= _ : StateM FileTree _).run t₁ = _
    have hrename : (Disk.rename draft p : StateM FileTree (Except OsError Unit)).run t₁ =
      t₁.rename draft p := rfl
    rw [StateT.run_bind, hrename]
    simp only
    rcases t₁.rename draft p with ⟨_ | _, t₂⟩ <;> rfl

theorem find_remove_ne (t : FileTree) (p : Path) (bytes : List UInt8) :
    (t.remove p).2.find p ≠ .ok (.file bytes) := by
  rcases t.remove_cases p with ⟨⟨e, h⟩, hfind⟩ | ⟨t', l, h, hl, hdir, hsets⟩
  · rw [h]
    exact hfind bytes
  · rw [h]
    intro hfind
    obtain ⟨l', hl', hnode, -⟩ := find_eq_ok_iff.1 hfind
    obtain rfl := Except.ok.inj (((hsets.keeps hdir).place?_eq hl).symm.trans hl')
    rw [hsets.node?_self] at hnode
    exact absurd hnode nofun

/-- **A replacement writes the bytes where the path points and leaves no draft.**  If it fails there
is no draft either, and that is all. -/
theorem replace_cases
    (h : (Disk.replace (m := StateM FileTree) draft p bytes).run t = (r, t')) :
    (r = .ok () ∧ ∃ src dst, t.place? draft = .ok src ∧ t.place? p = .ok dst ∧
        t.node? src ≠ some .directory ∧ t.node? dst ≠ some .directory ∧ p.endsInSlash = false ∧
        t.Replaces t' src dst bytes) ∨
      (∃ e, r = .error e) ∧ (∀ b, t'.find draft ≠ .ok (.file b)) ∧
        (t' = t ∨ ∃ src, t.place? draft = .ok src ∧ t.node? src ≠ some .directory ∧
          t.Sets t' src none) := by
  rw [run_replace] at h
  rcases t.create_cases draft bytes with ⟨e, hcreate⟩ | ⟨t₁, src, hcreate, hsrc, hdir, hslash, hsets⟩
  · rw [hcreate] at h
    obtain ⟨rfl, rfl⟩ := Prod.mk.inj h
    refine .inr ⟨⟨e, rfl⟩, t.find_remove_ne draft, ?_⟩
    rcases t.remove_cases draft with ⟨⟨e, hremove⟩, -⟩ | ⟨t', l, hremove, hl, hdir, hsets⟩
    · exact .inl (by rw [hremove])
    · exact .inr ⟨l, hl, hdir, by rw [hremove]; exact hsets⟩
  have hkeeps := hsets.keeps hdir
  have hback := hsets.keeps_back nofun
  have hplace := hkeeps.place?_eq hsrc
  simp only [hcreate] at h
  rcases t₁.rename_cases draft p with
    ⟨e, hrename⟩ | ⟨t₂, src', dst, bytes', hrename, hsrc', hfile, hdst, hdir', hslash', hrep⟩
  · rw [hrename] at h
    obtain ⟨rfl, rfl⟩ := Prod.mk.inj h
    refine .inr ⟨⟨e, rfl⟩, t₁.find_remove_ne draft, .inr ⟨src, hsrc, hdir, ?_⟩⟩
    -- the draft is there, hence it is removed
    rcases t₁.remove_cases draft with ⟨-, hnone⟩ | ⟨t₂, l, hremove, hl, -, hsets'⟩
    · exact absurd (find_eq_ok_iff.2 ⟨src, hplace, hsets.node?_self, by simp [hslash]⟩) (hnone bytes)
    · obtain rfl := Except.ok.inj (hplace.symm.trans hl)
      rw [hremove]
      exact hsets.trans hsets'
  · rw [hrename] at h
    obtain ⟨rfl, rfl⟩ := Prod.mk.inj h
    obtain rfl := Except.ok.inj (hplace.symm.trans hsrc')
    obtain rfl : bytes = bytes' := by simpa [hsets.node?_self] using hfile
    refine .inl ⟨rfl, src, dst, hsrc, hback.place?_eq hdst, hdir, ?_, hslash', hsets.replaces hrep⟩
    intro hd
    exact hdir' (hkeeps.directory dst hd)

end FileTree

end MinedRules
