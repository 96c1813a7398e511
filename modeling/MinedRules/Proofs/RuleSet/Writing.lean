import MinedRules.Proofs.Disk.Programs
import MinedRules.Proofs.Disk.Replacement
import MinedRules.RuleSet.Write

/-!
# Writing all clauses or none

A rule set is written to a draft beside its file, and the draft is moved there when it is complete.
Either all clauses are in the file afterwards and there is no draft (`RuleSet.Written`), or the file is
as it was and there is no draft either (`RuleSet.Refused`).  Nothing else changes, except that
directories around the file may have been made.

A path can lead back to a directory that is made for it, as `a/../a` does; then something is there
after a refusal where nothing was.
-/

namespace MinedRules

/-- Is the failure one of writing rules?  These are about the directories around the file, the name of
the file, or the file itself. -/
def Failure.isOutput (f : Failure) : Bool :=
  match f.contexts, f.cause with
  | [.creatingDirectory _], _ => true
  | [.writingRules _], _ => true
  | [], .noFileName _ => true
  | _, _ => false

/-- Writes a rule set to a file of a tree. -/
def FileTree.writeRules (t : FileTree) (s : RuleSet) (p : Path) : Except Failure Unit × FileTree :=
  (s.write (m := StateM FileTree) p).run.run t

namespace RuleSet

variable {s : RuleSet} {p draft dir : Path} {name : Text} {t t₁ t' : FileTree}
  {src dst l : Location} {r : Except Failure Unit} {f : Failure}

/-! ### Drafts -/

/-- The draft of a file. -/
def draft? (p : Path) : Option Path :=
  p.fileName?.map fun name => (p.parent?.getD []).join (name ++ draftEnd)

/-- The directories around a file. -/
def around (p : Path) : List Path := (p.parent?.getD []).ancestors

theorem isName_append_draftEnd (h : Path.IsName name) : Path.IsName (name ++ draftEnd) := by
  have hlength : ∀ short : Text, short.length ≤ 2 → name ++ draftEnd ≠ short := by
    rintro short hshort rfl
    have : draftEnd.length = 8 := rfl
    simp [this] at hshort
  refine ⟨hlength [] (by decide), ?_, hlength Path.here (by decide), hlength Path.up (by decide)⟩
  rw [List.mem_append, not_or]
  exact ⟨h.slash, by decide⟩

theorem exists_of_draft? (h : draft? p = some draft) :
    ∃ dir name, p.parent? = some dir ∧ Path.IsSplit p dir name ∧ Path.IsName name ∧
      draft = dir.join (name ++ draftEnd) := by
  obtain ⟨name, hname, rfl⟩ := Option.map_eq_some_iff.1 h
  obtain ⟨dir, hparent, hsplit, hisName⟩ := Path.exists_of_fileName? hname
  exact ⟨dir, name, hparent, hsplit, hisName, by rw [hparent]; rfl⟩

theorem exists_base_of_draft? (h : draft? p = some draft) (hsrc : t.place? draft = .ok src) :
    ∃ d, t.base (p.parent?.getD []) = .ok d := by
  obtain ⟨dir, name, hparent, -, hname, rfl⟩ := exists_of_draft? h
  rw [t.place?_join dir (isName_append_draftEnd hname)] at hsrc
  rw [hparent, Option.getD_some]
  cases hdir : t.base dir with
  | error e => simp [hdir, Except.map] at hsrc
  | ok d => exact ⟨d, rfl⟩

theorem place?_of_draft? (h : draft? p = some draft) (hsrc : t.place? draft = .ok src)
    (hdst : t.place? p = .ok dst) :
    ∃ name loc, src = (name ++ draftEnd) :: loc ∧ dst = name :: loc := by
  obtain ⟨dir, name, -, hsplit, hname, rfl⟩ := exists_of_draft? h
  obtain ⟨d, hdir, rfl⟩ := FileTree.place?_of_isSplit hdst hsplit hname
  rw [t.place?_join dir (isName_append_draftEnd hname), hdir] at hsrc
  obtain rfl := Except.ok.inj hsrc
  exact ⟨name, d.location, rfl, rfl⟩

theorem not_suffix_of_draft? (h : draft? p = some draft) (hsrc : t.place? draft = .ok src)
    (hdst : t.place? p = .ok dst) : ¬ dst <:+ src := by
  obtain ⟨name, loc, rfl, rfl⟩ := place?_of_draft? h hsrc hdst
  intro hsuffix
  have hname := (List.cons.inj (hsuffix.eq_of_length (by simp))).1
  exact absurd (List.append_right_eq_self.1 hname.symm) (by decide)

/-! ### The steps of writing -/

/-- The directories around the file are made.  If that fails, or if the path has no file name, no
draft can be there; else it is a draft that replaces the file. -/
theorem write_cases (h : t.writeRules s p = (r, t')) :
    ∃ t₁, FileTree.Grows (around p) t t₁ ∧
      ((∃ f, r = .error f ∧ f.isOutput = true ∧ t' = t₁ ∧
          ∀ draft ∈ draft? p, ∀ src, t₁.place? draft ≠ .ok src) ∨
        ∃ draft r', draft? p = some draft ∧
          (Disk.replace (m := StateM FileTree) draft p (Text.encode s.render)).run t₁ = (r', t') ∧
          r = r'.mapError fun e => { contexts := [.writingRules p], cause := .os e }) := by
  rw [FileTree.writeRules, write, run_bind, run_orFail] at h
  obtain ⟨r₁, t₁, hdirs⟩ : ∃ r₁ t₁,
      (Disk.makeDirs (m := StateM FileTree) (p.parent?.getD [])).run t = (r₁, t₁) := ⟨_, _, rfl⟩
  obtain ⟨hgrows, hok⟩ := FileTree.makeDirs_spec hdirs
  refine ⟨t₁, hgrows, ?_⟩
  rw [hdirs] at h
  cases r₁ with
  | error e =>
    obtain ⟨rfl, rfl⟩ := Prod.mk.inj h
    refine .inl ⟨_, rfl, rfl, rfl, fun draft hdraft src hsrc => ?_⟩
    -- a draft would stand in the directory that could not be made
    exact nomatch hok.2 (exists_base_of_draft? hdraft hsrc)
  | ok _ =>
    cases hname : p.fileName? with
    | none =>
      rw [hname] at h
      obtain ⟨rfl, rfl⟩ := Prod.mk.inj h
      exact .inl ⟨_, rfl, rfl, rfl, by simp [draft?, hname]⟩
    | some name =>
      rw [hname] at h
      simp only [Except.mapError, run_orFail] at h
      obtain ⟨rfl, rfl⟩ := Prod.mk.inj h
      exact .inr ⟨_, _, by rw [draft?, hname]; rfl, rfl, rfl⟩

/-! ### All or nothing -/

/-- What writing leaves behind if it succeeds. -/
structure Written (p : Path) (bytes : List UInt8) (t t' : FileTree) : Prop where
  found : t'.find p = .ok (.file bytes)
  draft : ∃ draft, draft? p = some draft ∧ t'.find draft = .error .notFound
  spares : ∀ l, t'.place? p ≠ .ok l → (∀ draft ∈ draft? p, t'.place? draft ≠ .ok l) →
    FileTree.Spares (around p) t t' l

/-- What writing leaves behind if it fails. -/
structure Refused (p : Path) (t t' : FileTree) : Prop where
  /-- What was found at the path is found there. -/
  found : ∀ n, t.find p = .ok n → t'.find p = .ok n
  /-- What is at the path, and in it, is as it was. -/
  content : ∀ dst, t'.place? p = .ok dst → ∀ l, dst <:+ l → FileTree.Spares (around p) t t' l
  draft : ∀ draft ∈ draft? p, ∀ bytes, t'.find draft ≠ .ok (.file bytes)
  file : ∀ l bytes, t'.node? l = some (.file bytes) → t.node? l = some (.file bytes)
  spares : ∀ l, (∀ draft ∈ draft? p, t'.place? draft ≠ .ok l) → FileTree.Spares (around p) t t' l

theorem written_of_run (h : t.writeRules s p = (.ok (), t')) :
    Written p (Text.encode s.render) t t' := by
  obtain ⟨t₁, hgrows, ⟨f, hf, -⟩ | ⟨draft, r', hdraft, hrun, hr⟩⟩ := write_cases h
  · exact nomatch hf
  rcases FileTree.replace_cases hrun with
    ⟨-, src, dst, hsrc, hdst, hsrcDir, hdstDir, hslash, hrep⟩ | ⟨⟨e, rfl⟩, -⟩
  · have hkeeps := hrep.keeps hsrcDir hdstDir
    have hne : src ≠ dst := by
      rintro rfl
      exact not_suffix_of_draft? hdraft hsrc hdst List.suffix_rfl
    refine ⟨?_, ⟨draft, hdraft, ?_⟩, fun l hl hldraft => ?_⟩
    · exact FileTree.find_eq_ok_iff.2
        ⟨dst, hkeeps.place?_eq hdst, hrep.node?_dst, by simp [hslash]⟩
    · exact FileTree.find_eq_notFound (hkeeps.place?_eq hsrc) (hrep.node?_src hne)
    · refine (hgrows.spares l).congr hkeeps (hrep.node?_of_ne ?_ ?_)
      · rintro rfl
        exact hldraft draft hdraft (hkeeps.place?_eq hsrc)
      · rintro rfl
        exact hl (hkeeps.place?_eq hdst)
  · exact nomatch hr

theorem refused_of_grows (hgrows : FileTree.Grows (around p) t t')
    (hdraft : ∀ draft ∈ draft? p, ∀ bytes, t'.find draft ≠ .ok (.file bytes)) :
    Refused p t t' where
  found n hn := by
    obtain ⟨l, hl, hnode, hslash⟩ := FileTree.find_eq_ok_iff.1 hn
    exact FileTree.find_eq_ok_iff.2
      ⟨l, hgrows.keeps.place?_eq hl, (hgrows.spares l).node?_eq hnode, hslash⟩
  content _ _ l _ := hgrows.spares l
  draft := hdraft
  file l _ := (hgrows.spares l).node?_of_file
  spares l _ := hgrows.spares l

theorem refused_of_sets (hgrows : FileTree.Grows (around p) t t₁) (hdraft : draft? p = some draft)
    (hsrc : t₁.place? draft = .ok src) (hdir : t₁.node? src ≠ some .directory)
    (hsets : t₁.Sets t' src none) : Refused p t t' := by
  have hkeeps := hsets.keeps hdir
  have hsrc' := hkeeps.place?_eq hsrc
  -- only the draft is lost, and it is neither at the path nor in what is there
  have hspares : ∀ l, l ≠ src → FileTree.Spares (around p) t t' l := fun l hl =>
    (hgrows.spares l).congr hkeeps (hsets.node?_of_ne hl)
  refine ⟨fun n hn => ?_, fun dst hdst l hl => hspares l ?_, fun d hd bytes hfind => ?_,
    fun l bytes hl => ?_, fun l hl => hspares l ?_⟩
  · obtain ⟨l, hl, hnode, hslash⟩ := FileTree.find_eq_ok_iff.1 hn
    have hl₁ := hgrows.keeps.place?_eq hl
    refine FileTree.find_eq_ok_iff.2 ⟨l, hkeeps.place?_eq hl₁, (hspares l ?_).node?_eq hnode, hslash⟩
    rintro rfl
    exact not_suffix_of_draft? hdraft hsrc hl₁ List.suffix_rfl
  · rintro rfl
    exact not_suffix_of_draft? hdraft hsrc' hdst hl
  · obtain rfl := Option.some.inj (hdraft.symm.trans hd)
    obtain ⟨l, hl, hnode, -⟩ := FileTree.find_eq_ok_iff.1 hfind
    obtain rfl := Except.ok.inj (hsrc'.symm.trans hl)
    exact absurd (hsets.node?_self.symm.trans hnode) nofun
  · refine (hspares l ?_).node?_of_file hl
    rintro rfl
    exact absurd (hsets.node?_self.symm.trans hl) nofun
  · rintro rfl
    exact hl draft hdraft hsrc'

theorem refused_of_run (h : t.writeRules s p = (.error f, t')) : Refused p t t' := by
  obtain ⟨t₁, hgrows, ⟨-, -, -, rfl, hdraft⟩ | ⟨draft, r', hdraft, hrun, hr⟩⟩ := write_cases h
  · refine refused_of_grows hgrows fun draft hd bytes hfind => ?_
    obtain ⟨l, hl, -⟩ := FileTree.find_eq_ok_iff.1 hfind
    exact hdraft draft hd l hl
  · rcases FileTree.replace_cases hrun with
      ⟨rfl, -⟩ | ⟨-, hfind, rfl | ⟨src, hsrc, hdir, hsets⟩⟩
    · exact nomatch hr
    · refine refused_of_grows hgrows fun d hd => ?_
      obtain rfl := Option.some.inj (hdraft.symm.trans hd)
      exact hfind
    · exact refused_of_sets hgrows hdraft hsrc hdir hsets

theorem isOutput_of_run (h : t.writeRules s p = (.error f, t')) : f.isOutput = true := by
  obtain ⟨t₁, -, ⟨f', hf, hout, -⟩ | ⟨draft, r', -, -, hr⟩⟩ := write_cases h
  · obtain rfl := Except.error.inj hf
    exact hout
  · cases r' with
    | ok _ => exact nomatch hr
    | error e =>
      obtain rfl := Except.error.inj hr
      rfl

/-- **Writing is all or nothing.**  Either the clauses are in the file and no draft is left, or the file
is as it was and no draft is left.  Everything else is as it was, but for directories around the file
that have been made. -/
theorem writeRules_all_or_nothing (t : FileTree) (s : RuleSet) (p : Path) :
    match t.writeRules s p with
    | (.ok (), t') => Written p (Text.encode s.render) t t'
    | (.error _, t') => Refused p t t' := by
  split
  · next t' h => exact written_of_run h
  · next f t' h => exact refused_of_run h

/-- In the empty tree nothing is at `a/../a`, and no file can be written there.  Still the directory
`a`, which is around the file, is there afterwards. -/
theorem find_after_refusal :
    let t : FileTree := ∅
    let p : Path := "a/../a".toList
    let (r, t') := t.writeRules (ofList ["p.".toList]) p
    t.find p = .error .notFound ∧ r.isOk = false ∧ t'.find p = .ok .directory := by
  decide +kernel

end RuleSet

end MinedRules
