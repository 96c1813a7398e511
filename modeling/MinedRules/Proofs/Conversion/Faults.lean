import MinedRules.Proofs.Conversion.Image

/-!
# Which fault a conversion reports

A line is at fault if it is neither blank nor a record, and a rule if it cannot be canonicalized.  A
conversion reads all files before it looks at a rule, so a faulty line anywhere is reported before
every faulty rule.

* `Attempt.ofFile_eq_error_iff` : a file is refused with its first faulty line.
* `Conversion.ofRecords_eq_error_iff` : records are refused with their first faulty rule.
* `FileTree.convert_eq_error_iff` : a directory is refused with its first faulty line, and if there
  is none with its first faulty rule.
* `FileTree.convert_reports` : when a conversion fails, and what it reports.
-/

namespace MinedRules

/-! ### Loops that can fail -/

section Loops

variable {α β σ ε : Type} {fault? : α → Option ε} {l : List α} {e : ε}

theorem findSome?_flatMap (g : β → Option ε) (f : α → List β) (l : List α) :
    (l.flatMap f).findSome? g = l.findSome? fun a => (f a).findSome? g := by
  induction l with
  | nil => rfl
  | cons a l ih =>
    rw [List.flatMap_cons, List.findSome?_append, ih, List.findSome?_cons]
    cases (f a).findSome? g <;> rfl

theorem eq_none_of_ok {x : Except ε β} {o : Option ε} {b : β} (h : ∀ e, x = .error e ↔ o = some e)
    (hx : x = .ok b) : o = none := by
  rw [Option.eq_none_iff_forall_ne_some]
  intro e he
  simp [(h e).2 he] at hx

theorem mapM_eq_error_iff {f : α → Except ε β} (h : ∀ a e, f a = .error e ↔ fault? a = some e) :
    l.mapM f = .error e ↔ l.findSome? fault? = some e := by
  induction l with
  | nil => simp [pure, Except.pure]
  | cons a l ih =>
    rw [List.mapM_cons, List.findSome?_cons]
    cases ha : f a with
    | error e' =>
      rw [(h a e').1 ha]
      simp [bind, Except.bind]
    | ok b =>
      rw [eq_none_of_ok (h a) ha, ← ih]
      cases l.mapM f <;> simp [bind, Except.bind, pure, Except.pure]

/-- A loop that changes a state fails with the first fault, if the state has no say in it. -/
theorem foldlM_eq_error_iff {step : σ → α → Except ε σ} {s : σ}
    (h : ∀ s a e, step s a = .error e ↔ fault? a = some e) :
    l.foldlM step s = .error e ↔ l.findSome? fault? = some e := by
  induction l generalizing s with
  | nil => simp [pure, Except.pure]
  | cons a l ih =>
    rw [List.foldlM_cons, List.findSome?_cons]
    cases ha : step s a with
    | error e' =>
      rw [(h s a e').1 ha]
      simp [bind, Except.bind]
    | ok s' =>
      rw [eq_none_of_ok (h s a) ha]
      exact ih

end Loops

/-! ### Faulty lines -/

namespace Attempt

variable {p : Path} {number : Nat} {line bytes : List UInt8} {f : Failure}

/-- What is wrong with the line of this number: it is no text, or a text that is neither blank nor a
record. -/
def lineFault? (p : Path) (number : Nat) (line : List UInt8) : Option Failure :=
  match Text.decode? line with
  | none => some { contexts := [.reading p], cause := .undecodable }
  | some t =>
    if (Text.trim t).isEmpty then none
    else
      match decode t with
      | .error e => some ((Failure.ofDecodeError e).within (.decodingRecord p number))
      | .ok _ => none

/-- The first fault of the lines of a file, which are numbered from one. -/
def fileFault? (p : Path) (bytes : List UInt8) : Option Failure :=
  ((linesWith 10 13 bytes).zipIdx 1).findSome? fun l => lineFault? p l.2 l.1

/-- Is a line blank or a record?  These are the lines without a fault. -/
def IsSound (line : List UInt8) : Prop := isBlankLine line = true ∨ ∃ a, ofLine? line = some a

theorem lineFault?_eq_none_iff : lineFault? p number line = none ↔ IsSound line := by
  rw [lineFault?, IsSound, isBlankLine, ofLine?]
  cases Text.decode? line with
  | none => simp
  | some t =>
    by_cases htrim : (Text.trim t).isEmpty = true
    · simp [htrim]
    · cases ha : decode t <;> simp [htrim, ha, Except.toOption]

theorem ofLines_eq_error_iff {lines : List (List UInt8)} :
    ofLines p number lines = .error f ↔
      ((lines.zipIdx number).findSome? fun l => lineFault? p l.2 l.1) = some f := by
  induction lines generalizing number with
  | nil => simp [ofLines]
  | cons line lines ih =>
    rw [List.zipIdx_cons, List.findSome?_cons, ofLines, lineFault?]
    cases Text.decode? line with
    | none => simp
    | some t =>
      by_cases htrim : (Text.trim t).isEmpty = true
      · simp [htrim, ih]
      · cases ha : decode t with
        | error e => simp [htrim, ha]
        | ok a =>
          have hrest : (ofLines p (number + 1) lines).map (a :: ·) = .error f ↔
              ofLines p (number + 1) lines = .error f := by
            cases ofLines p (number + 1) lines <;> simp [Except.map]
          simp [htrim, ha, hrest, ih]

/-- **A file is refused with its first faulty line.** -/
theorem ofFile_eq_error_iff : ofFile p bytes = .error f ↔ fileFault? p bytes = some f :=
  ofLines_eq_error_iff

/-- The failure is that of the first faulty line of a file.  The number of the line counts all lines
up to it, the blank ones too. -/
def ReportsLine (p : Path) (bytes : List UInt8) (f : Failure) : Prop :=
  ∃ above line below, linesWith 10 13 bytes = above ++ line :: below ∧ (∀ l ∈ above, IsSound l) ∧
    lineFault? p (above.length + 1) line = some f

theorem forall_zipIdx_iff {lines : List (List UInt8)} :
    (∀ l ∈ lines.zipIdx number, lineFault? p l.2 l.1 = none) ↔ ∀ l ∈ lines, IsSound l := by
  have hlines : (lines.zipIdx number).map Prod.fst = lines := List.zipIdx_map_fst ..
  rw [← hlines, List.forall_mem_map, hlines]
  simp only [lineFault?_eq_none_iff]

theorem fileFault?_eq_none_iff :
    fileFault? p bytes = none ↔ ∀ line ∈ linesWith 10 13 bytes, IsSound line := by
  rw [fileFault?, List.findSome?_eq_none_iff, forall_zipIdx_iff]

theorem fileFault?_eq_some_iff : fileFault? p bytes = some f ↔ ReportsLine p bytes f := by
  rw [fileFault?, List.findSome?_eq_some_iff]
  constructor
  · rintro ⟨before, ⟨line, number⟩, after, hsplit, hfault, hbefore⟩
    obtain ⟨above, rest, hlines, rfl, hrest⟩ := List.zipIdx_eq_append_iff.1 hsplit
    obtain ⟨_, below, rfl, hline, rfl⟩ := List.zipIdx_eq_cons_iff.1 hrest.symm
    obtain ⟨rfl, rfl⟩ := Prod.mk.inj hline
    exact ⟨above, line, below, hlines, forall_zipIdx_iff.1 hbefore, by rwa [Nat.add_comm]⟩
  · rintro ⟨above, line, below, hlines, habove, hfault⟩
    refine ⟨above.zipIdx 1, (line, 1 + above.length), below.zipIdx (1 + above.length + 1), ?_, ?_,
      forall_zipIdx_iff.2 habove⟩
    · rw [hlines, List.zipIdx_append, List.zipIdx_cons]
    · rwa [Nat.add_comm]

end Attempt

/-! ### Faulty rules -/

namespace Conversion

open Attempt (recordLines ofLine? IsSound ReportsLine fileFault?)

variable {k : Canonicalizer} {p dir : Path} {c : Conversion} {rule : Text} {f : Failure}

/-- What is wrong with a rule of a file: it cannot be canonicalized. -/
def ruleFault? (k : Canonicalizer) (p : Path) (rule : Text) : Option Failure :=
  match k.canonicalize rule with
  | .error e => some { contexts := [.canonicalizing rule p], cause := .rule e }
  | .ok _ => none

theorem ruleFault?_eq_some_iff : ruleFault? k p rule = some f ↔
    ∃ e, k.canonicalize rule = .error e ∧
      f = { contexts := [.canonicalizing rule p], cause := .rule e } := by
  rw [ruleFault?]
  cases k.canonicalize rule <;> simp [eq_comm]

theorem addRule_eq_error_iff (c : Conversion) (rule : Text) (f : Failure) :
    addRule k p c rule = .error f ↔ ruleFault? k p rule = some f := by
  rw [addRule, ruleFault?]
  cases k.canonicalize rule with
  | error e => simp
  | ok o => cases o <;> simp

theorem addAttempt_eq_error_iff (c : Conversion) (a : Attempt) (f : Failure) :
    addAttempt k p c a = .error f ↔ a.rules.findSome? (ruleFault? k p) = some f :=
  foldlM_eq_error_iff addRule_eq_error_iff

theorem addFile_eq_error_iff (c : Conversion) (r : Records) (f : Failure) :
    addFile k c r = .error f ↔
      (r.attempts.flatMap Attempt.rules).findSome? (ruleFault? k r.path) = some f := by
  rw [findSome?_flatMap]
  exact foldlM_eq_error_iff addAttempt_eq_error_iff

/-- **Records are refused with their first faulty rule.** -/
theorem ofRecords_eq_error_iff {files : List Records} :
    ofRecords k files = .error f ↔ (files.findSome? fun r =>
      (r.attempts.flatMap Attempt.rules).findSome? (ruleFault? k r.path)) = some f :=
  foldlM_eq_error_iff addFile_eq_error_iff

/-! ### The faults of files -/

/-- The rules of files in a directory, each with the path of its file: file by file, line by line,
and in the order of the record. -/
def rulesIn (dir : Path) (files : List (Text × List UInt8)) : List (Path × Text) :=
  files.flatMap fun file => (rulesOf (recordLines file.2)).map fun rule => (dir.join file.1, rule)

/-- The failure is that of the first faulty line of the first file that has one. -/
def ReportsFile (dir : Path) (files : List (Text × List UInt8)) (f : Failure) : Prop :=
  ∃ before name bytes after, files = before ++ (name, bytes) :: after ∧
    (∀ file ∈ before, ∀ line ∈ linesWith 10 13 file.2, IsSound line) ∧
    ReportsLine (dir.join name) bytes f

/-- The failure is that of the first faulty rule. -/
def ReportsRule (k : Canonicalizer) (dir : Path) (files : List (Text × List UInt8)) (f : Failure) :
    Prop :=
  ∃ before p rule after e, rulesIn dir files = before ++ (p, rule) :: after ∧
    (∀ r ∈ before, ∃ o, k.canonicalize r.2 = .ok o) ∧ k.canonicalize rule = .error e ∧
    f = { contexts := [.canonicalizing rule p], cause := .rule e }

/-- The first fault of the lines of files. -/
def filesFault? (dir : Path) (files : List (Text × List UInt8)) : Option Failure :=
  files.findSome? fun file => fileFault? (dir.join file.1) file.2

/-- The first fault of the rules of files. -/
def rulesFault? (k : Canonicalizer) (dir : Path) (files : List (Text × List UInt8)) :
    Option Failure :=
  (rulesIn dir files).findSome? fun r => ruleFault? k r.1 r.2

variable {files : List (Text × List UInt8)}

theorem filesFault?_eq_none_iff : filesFault? dir files = none ↔
    ∀ file ∈ files, ∀ line ∈ linesWith 10 13 file.2, IsSound line := by
  simp only [filesFault?, List.findSome?_eq_none_iff, Attempt.fileFault?_eq_none_iff]

theorem filesFault?_eq_some_iff : filesFault? dir files = some f ↔ ReportsFile dir files f := by
  rw [filesFault?, List.findSome?_eq_some_iff]
  simp only [Attempt.fileFault?_eq_none_iff, Attempt.fileFault?_eq_some_iff]
  constructor
  · rintro ⟨before, ⟨name, bytes⟩, after, hfiles, hline, hbefore⟩
    exact ⟨before, name, bytes, after, hfiles, hbefore, hline⟩
  · rintro ⟨before, name, bytes, after, hfiles, hbefore, hline⟩
    exact ⟨before, (name, bytes), after, hfiles, hline, hbefore⟩

theorem ruleFault?_eq_none_iff : ruleFault? k p rule = none ↔ ∃ o, k.canonicalize rule = .ok o := by
  rw [ruleFault?]
  cases k.canonicalize rule <;> simp

theorem rulesFault?_eq_some_iff :
    rulesFault? k dir files = some f ↔ ReportsRule k dir files f := by
  rw [rulesFault?, List.findSome?_eq_some_iff]
  simp only [ruleFault?_eq_none_iff, ruleFault?_eq_some_iff]
  constructor
  · rintro ⟨before, ⟨p, rule⟩, after, hrules, ⟨e, he, hf⟩, hbefore⟩
    exact ⟨before, p, rule, after, e, hrules, hbefore, he, hf⟩
  · rintro ⟨before, p, rule, after, e, hrules, hbefore, he, hf⟩
    exact ⟨before, (p, rule), after, hrules, ⟨e, he, hf⟩, hbefore⟩

theorem rulesFault?_eq_none_iff : rulesFault? k dir files = none ↔
    ∀ rule ∈ rulesOf (linesOf files), ∃ o, k.canonicalize rule = .ok o := by
  have hrules : (rulesIn dir files).map Prod.snd = rulesOf (linesOf files) := by
    simp [rulesIn, rulesOf, linesOf, List.map_flatMap, List.flatMap_assoc, Function.comp_def]
  rw [← hrules, List.forall_mem_map, rulesFault?, List.findSome?_eq_none_iff]
  simp only [ruleFault?_eq_none_iff]

end Conversion

namespace FileTree

open Attempt (recordLines ofLine? IsSound)
open Conversion

variable {t : FileTree} {d : t.Directory} {dir : Path} {suffix : Text} {k : Canonicalizer}
  {f : Failure} {files : List (Text × List UInt8)}

theorem recordsIn_eq_error_iff (file : Text × List UInt8) (f : Failure) :
    recordsIn dir file = .error f ↔ Attempt.fileFault? (dir.join file.1) file.2 = some f := by
  rw [← Attempt.ofFile_eq_error_iff, recordsIn]
  cases Attempt.ofFile (dir.join file.1) file.2 <;> simp [Except.map]

theorem rulesIn_of_mapM_recordsIn {rs : List Records} (h : files.mapM (recordsIn dir) = .ok rs) :
    (rs.flatMap fun r => (r.attempts.flatMap Attempt.rules).map fun rule => (r.path, rule)) =
      rulesIn dir files := by
  induction files generalizing rs with
  | nil =>
    obtain rfl := Except.ok.inj h
    rfl
  | cons file files ih =>
    obtain ⟨r, rs, hr, hrs, rfl⟩ := mapM_recordsIn_cons_iff.1 h
    obtain ⟨hpath, hlines⟩ := recordsIn_eq_ok_iff.1 hr
    rw [rulesIn, List.flatMap_cons, List.flatMap_cons, ih hrs, hpath, rulesOf_eq hlines, rulesIn]

/-- **A directory is refused with its first faulty line, and if there is none with its first faulty
rule.** -/
theorem convert_eq_error_iff (h : t.Leads dir d) :
    t.convert dir suffix k = .error f ↔ ((filesFault? dir (t.filesIn d.location suffix)).or
      (rulesFault? k dir (t.filesIn d.location suffix))) = some f := by
  have hread : ∀ f, (t.filesIn d.location suffix).mapM (recordsIn dir) = .error f ↔
      filesFault? dir (t.filesIn d.location suffix) = some f := fun f =>
    mapM_eq_error_iff recordsIn_eq_error_iff
  rw [convert_of_leads h]
  -- all files are read before a rule is looked at
  cases hrs : (t.filesIn d.location suffix).mapM (recordsIn dir) with
  | error f' => simp [(hread f').1 hrs, Except.bind]
  | ok rs =>
    rw [eq_none_of_ok hread hrs, Option.none_or, rulesFault?, ← rulesIn_of_mapM_recordsIn hrs,
      findSome?_flatMap]
    simp only [List.findSome?_map, Function.comp_def]
    exact ofRecords_eq_error_iff

/-- **When a conversion fails, and what it reports.**  The files are listed in the order of their
names. -/
theorem convert_reports (hfiles : t.Lists dir suffix files)
    (hsorted : (files.map Prod.fst).Pairwise Text.Before) (k : Canonicalizer) :
    ((∃ f, t.convert dir suffix k = .error f) ↔
      (∃ file ∈ files, ∃ line ∈ linesWith 10 13 file.2, ¬ IsSound line) ∨
        ∃ file ∈ files, ∃ line ∈ recordLines file.2, ∃ a, ofLine? line = some a ∧
          ∃ rule ∈ a.rules, ∃ e, k.canonicalize rule = .error e) ∧
    ∀ f, t.convert dir suffix k = .error f ↔ ReportsFile dir files f ∨
      (∀ file ∈ files, ∀ line ∈ linesWith 10 13 file.2, IsSound line) ∧
        ReportsRule k dir files f := by
  obtain ⟨d, hd, rfl⟩ := hfiles.eq_filesIn hsorted
  constructor
  · -- one of the two searches finds a fault
    have hor : (∃ f, t.convert dir suffix k = .error f) ↔
        filesFault? dir (t.filesIn d.location suffix) ≠ none ∨
          rulesFault? k dir (t.filesIn d.location suffix) ≠ none := by
      simp only [convert_eq_error_iff hd]
      cases filesFault? dir (t.filesIn d.location suffix) <;> simp [Option.ne_none_iff_exists']
    have hrule : rulesFault? k dir (t.filesIn d.location suffix) ≠ none ↔
        ∃ rule ∈ rulesOf (linesOf (t.filesIn d.location suffix)),
          ∃ e, k.canonicalize rule = .error e := by
      rw [ne_eq, rulesFault?_eq_none_iff]
      push Not
      refine exists_congr fun rule => and_congr_right fun _ => ?_
      cases k.canonicalize rule <;> simp
    rw [hor, ne_eq, filesFault?_eq_none_iff, hrule]
    push Not
    refine or_congr_right ⟨?_, ?_⟩
    · rintro ⟨rule, hmem, he⟩
      obtain ⟨file, hfile, line, hline, a, ha, hrule⟩ := mem_rulesOf.1 hmem
      exact ⟨file, hfile, line, hline, a, ha, rule, hrule, he⟩
    · rintro ⟨file, hfile, line, hline, a, ha, rule, hrule, he⟩
      exact ⟨rule, mem_rulesOf.2 ⟨file, hfile, line, hline, a, ha, hrule⟩, he⟩
  · intro f
    rw [convert_eq_error_iff hd, Option.or_eq_some_iff, filesFault?_eq_some_iff,
      filesFault?_eq_none_iff, rulesFault?_eq_some_iff]

/-- The first file has a faulty rule, and the second one a faulty line below two blank ones: it is the
line that is reported. -/
theorem convert_reports_line :
    let one := Text.encode "\x7b'rules': ['p(x) <- q(x)', 'p(x) <- INV(a)']\x7d".toList
    let two := Text.encode "\n \nrules".toList
    let dir := "/".toList
    let suffix := "ori.txt".toList
    let t := (((∅ : FileTree).create "/a_ori.txt".toList one).2.create "/b_ori.txt".toList two).2
    let files := [("a_ori.txt".toList, one), ("b_ori.txt".toList, two)]
    t.Lists dir suffix files ∧ (files.map Prod.fst).Pairwise Text.Before ∧
      ∃ f, t.convert dir suffix {} = .error f ∧ ReportsFile dir files f ∧
        f.contexts = [.decodingRecord "/b_ori.txt".toList 3] := by
  intro one two dir suffix t files
  have hfiles : t.Lists dir suffix files := by
    have heq : files = t.filesIn t.root.location suffix := by decide +kernel
    rw [heq]
    exact lists_filesIn ⟨by decide, rfl⟩ suffix
  have hsorted : (files.map Prod.fst).Pairwise Text.Before := by decide +kernel
  have hlines : linesWith 10 13 one = [one] := by decide +kernel
  have hlines' : linesWith 10 13 two = [[], [32], Text.encode "rules".toList] := by decide +kernel
  have hone : ofLine? one = some ⟨["p(x) <- q(x)".toList, "p(x) <- INV(a)".toList]⟩ := by
    decide +kernel
  have hfault : (Attempt.lineFault? "/b_ori.txt".toList 3 (Text.encode "rules".toList)).map
      Failure.contexts = some [.decodingRecord "/b_ori.txt".toList 3] := by decide +kernel
  obtain ⟨f, hf, hcontexts⟩ := Option.map_eq_some_iff.1 hfault
  have hreports : ReportsFile dir files f := by
    refine ⟨[("a_ori.txt".toList, one)], "b_ori.txt".toList, two, [], rfl, ?_,
      [[], [32]], Text.encode "rules".toList, [], hlines', ?_, hf⟩
    · intro file hfile line hline
      obtain rfl := List.mem_singleton.1 hfile
      rw [hlines, List.mem_singleton] at hline
      exact .inr ⟨_, hline ▸ hone⟩
    · intro line hline
      have hblank : ∀ line ∈ [[], [32]], Attempt.isBlankLine line = true := by decide +kernel
      exact .inl (hblank line hline)
  exact ⟨hfiles, hsorted, f, ((convert_reports hfiles hsorted {}).2 f).2 (.inl hreports), hreports,
    hcontexts⟩

end FileTree

end MinedRules
