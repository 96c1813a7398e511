import MinedRules.Command.Rules
import MinedRules.Proofs.Conversion.Faults
import MinedRules.Proofs.RuleSet.Writing
import MinedRules.Proofs.Settings.Keys

/-!
# Runs of the command for rules

The command reads its settings and converts before it writes anything, so that a run that fails until
then leaves the tree as it is.  Then it writes all clauses or none.

* `RulesArguments.perform_eq` : the two phases of the work.
* `FileTree.runRules_eq` : a run of the command.
* `FileTree.runRules_keeps_or_converts` : what a run leaves behind.
-/

namespace MinedRules

open Attempt (recordLines)
open Conversion (linesOf rulesOf)

/-! ### Settings -/

namespace Settings

/-- The settings of what has been read of a file. -/
def ofRead (p : Path) : Except ReadError (List UInt8) → Except Failure Settings
  | .error e => .error ((Failure.ofTextError (.unreadable e)).within (.readingSettings p))
  | .ok bytes =>
    match Text.decode? bytes with
    | none => .error ((Failure.ofTextError .undecodable).within (.readingSettings p))
    | some text => (ofText text).mapError fun e => { cause := .settings e }

theorem isOutput_of_ofRead {p : Path} {r : Except ReadError (List UInt8)} {f : Failure}
    (h : ofRead p r = .error f) : f.isOutput = false := by
  rw [ofRead.eq_def] at h
  split at h
  · obtain rfl := Except.error.inj h
    rfl
  · split at h
    · obtain rfl := Except.error.inj h
      rfl
    · next text _ =>
      cases hs : ofText text with
      | ok s => simp [hs, Except.mapError] at h
      | error e =>
        rw [hs] at h
        obtain rfl := Except.error.inj h
        rfl

/-- The settings are those that the file at the path gives, or those of an empty table without a
path. -/
def IsAt (t : FileTree) : Option Path → Settings → Prop
  | none, s => IsGivenBy [] s
  | some p, s => ∃ bytes text, t.find p = .ok (.file bytes) ∧ Text.decode? bytes = some text ∧
      IsDocumentOf text s ∧ ∀ y : Symbol, y.text s ≠ []

/-- **No symbol is empty**, wherever the settings come from. -/
theorem IsAt.text_ne_nil {t : FileTree} {p? : Option Path} {s : Settings} (h : IsAt t p? s)
    (y : Symbol) : y.text s ≠ [] := by
  cases p? with
  | none =>
    obtain rfl := isGivenBy_nil_iff.1 h
    cases y <;> decide
  | some p =>
    obtain ⟨_, _, -, -, -, hall⟩ := h
    exact hall y

end Settings

namespace FileTree

variable {t t' : FileTree} {p : Path} {p? : Option Path} {s : Settings} {f : Failure}

/-- The settings of a file of a tree, or the defaults. -/
def settings (t : FileTree) : Option Path → Except Failure Settings
  | none => .ok {}
  | some p => Settings.ofRead p (t.read p)

theorem run_readText (t : FileTree) (p : Path) :
    (Disk.readText (m := StateM FileTree) p).run t =
      (match t.read p with
        | .error e => .error (.unreadable e)
        | .ok bytes =>
          match Text.decode? bytes with
          | some text => .ok text
          | none => .error .undecodable, t) := by
  have hread : (Disk.read p : StateM FileTree (Except ReadError (List UInt8))).run t =
    (t.read p, t) := rfl
  rw [Disk.readText, StateT.run_bind, hread]
  rcases t.read p with e | bytes
  · rfl
  · simp only
    show (match Text.decode? bytes with
      | some text => pure (.ok text)
      | none => pure (.error .undecodable) : StateM FileTree (Except Disk.TextError Text)).run t = _
    cases Text.decode? bytes <;> rfl

theorem reads_loadOrDefault (t : FileTree) (p? : Option Path) :
    Reads (Settings.loadOrDefault p?) t (t.settings p?) := by
  cases p? with
  | none => exact reads_pure _
  | some p =>
    refine (reads_liftM (run_readText t p)).bind_ok ?_
    rw [settings, Settings.ofRead.eq_def]
    rcases t.read p with e | bytes
    · rfl
    · simp only
      cases Text.decode? bytes with
      | none => rfl
      | some text =>
        simp only
        cases Settings.ofText text <;> rfl

theorem read_eq_ok_iff_find {bytes : List UInt8} :
    t.read p = .ok bytes ↔ t.find p = .ok (.file bytes) := by
  rw [read]
  cases t.find p with
  | error e => simp
  | ok n => cases n <;> simp

theorem settings_eq_ok_iff : t.settings p? = .ok s ↔ Settings.IsAt t p? s := by
  cases p? with
  | none => rw [settings, Settings.IsAt, Settings.isGivenBy_nil_iff, Except.ok.injEq, eq_comm]
  | some p =>
    simp only [settings, Settings.IsAt, ← read_eq_ok_iff_find, ← Settings.ofText_eq_ok_iff]
    cases t.read p with
    | error e => simp [Settings.ofRead]
    | ok bytes =>
      simp only [Settings.ofRead, Except.ok.injEq, exists_and_left, exists_eq_left']
      cases Text.decode? bytes with
      | none => simp
      | some text => cases hs : Settings.ofText text <;> simp [hs, Except.mapError]

theorem isOutput_of_settings (h : t.settings p? = .error f) : f.isOutput = false := by
  cases p? with
  | none => exact nomatch h
  | some p => exact Settings.isOutput_of_ofRead h

end FileTree

/-! ### Failures of a conversion -/

theorem Attempt.isOutput_of_lineFault? {p : Path} {number : Nat} {line : List UInt8} {f : Failure}
    (h : lineFault? p number line = some f) : f.isOutput = false := by
  rw [lineFault?] at h
  split at h
  · obtain rfl := Option.some.inj h
    rfl
  · split at h
    · simp at h
    · split at h
      · next e _ =>
        obtain rfl := Option.some.inj h
        cases e <;> rfl
      · simp at h

theorem FileTree.isOutput_of_convert {t : FileTree} {dir : Path} {suffix : Text}
    {k : Canonicalizer} {f : Failure} (h : t.convert dir suffix k = .error f) :
    f.isOutput = false := by
  -- the failure is that of a line, of a rule, or of the directory
  by_cases hdir : ∃ d, t.Leads dir d
  · obtain ⟨d, hd⟩ := hdir
    rcases Option.or_eq_some_iff.1 ((convert_eq_error_iff hd).1 h) with hfile | ⟨-, hrule⟩
    · obtain ⟨file, -, hfault⟩ := List.exists_of_findSome?_eq_some hfile
      obtain ⟨line, -, hline⟩ := List.exists_of_findSome?_eq_some hfault
      exact Attempt.isOutput_of_lineFault? hline
    · obtain ⟨r, -, hfault⟩ := List.exists_of_findSome?_eq_some hrule
      obtain ⟨e, -, rfl⟩ := Conversion.ruleFault?_eq_some_iff.1 hfault
      rfl
  · have hfail := congrArg Prod.fst (reads_convert_of_not_leads hdir suffix k)
    obtain rfl := Except.error.inj (hfail.symm.trans h)
    rfl

/-! ### The two phases of a run -/

namespace RulesArguments

variable {a : RulesArguments} {t t' : FileTree} {s : Settings} {c : Conversion} {f : Failure}

/-- How rules are read: types are removed if the flag or the settings say so. -/
def canonicalizer (a : RulesArguments) (s : Settings) : Canonicalizer :=
  ⟨s.connectives, s.marker, a.stripsTypes || s.stripsTypes⟩

/-- The end of the names of the attempt files, which an option can set. -/
def suffix (a : RulesArguments) (s : Settings) : Text := a.suffix?.getD s.suffix

/-- The conversion that the arguments ask for. -/
def conversion (a : RulesArguments) (t : FileTree) : Except Failure Conversion := do
  let s ← t.settings a.settings?
  t.convert a.target (a.suffix s) (a.canonicalizer s)

theorem conversion_eq_ok_iff : a.conversion t = .ok c ↔ ∃ s, t.settings a.settings? = .ok s ∧
    t.convert a.target (a.suffix s) (a.canonicalizer s) = .ok c := by
  rw [conversion]
  cases t.settings a.settings? <;> simp [bind, Except.bind]

theorem isOutput_of_conversion (h : a.conversion t = .error f) : f.isOutput = false := by
  rw [conversion] at h
  cases hs : t.settings a.settings? with
  | error e =>
    rw [hs] at h
    obtain rfl := Except.error.inj h
    exact FileTree.isOutput_of_settings hs
  | ok s =>
    rw [hs] at h
    exact FileTree.isOutput_of_convert h

/-- The first phase of a run, which only reads. -/
def reading (a : RulesArguments) : ExceptT Failure (StateM FileTree) Conversion := do
  let s ← Settings.loadOrDefault a.settings?
  MinedRules.convert a.target (a.suffix s) (a.canonicalizer s)

theorem reads_reading (a : RulesArguments) (t : FileTree) : Reads a.reading t (a.conversion t) :=
  (t.reads_loadOrDefault a.settings?).bind fun s _ => t.reads_convert a.target (a.suffix s) _

theorem work_eq (a : RulesArguments) : a.work (m := StateM FileTree) = a.reading >>= fun c =>
    c.ruleSet.write a.output >>= fun _ => pure (c.summary a.output) := by
  rw [reading, bind_assoc]
  rfl

/-- Does the work on a tree. -/
def perform (a : RulesArguments) (t : FileTree) : Except Failure String × FileTree :=
  (a.work (m := StateM FileTree)).run.run t

/-- **The work is a conversion, which changes nothing, and then the rules are written.** -/
theorem perform_eq (a : RulesArguments) (t : FileTree) :
    a.perform t =
      match a.conversion t with
      | .error f => (.error f, t)
      | .ok c => ((t.writeRules c.ruleSet a.output).1.map fun _ => c.summary a.output,
          (t.writeRules c.ruleSet a.output).2) := by
  have hreading := a.reads_reading t
  rw [Reads] at hreading
  rw [perform, work_eq, run_bind, hreading]
  rcases a.conversion t with f | c
  · rfl
  · simp only [run_bind, FileTree.writeRules]
    rcases (c.ruleSet.write (m := StateM FileTree) a.output).run.run t with ⟨_ | _, t'⟩ <;> rfl

/-! ### What a run leaves behind -/

/-- A run that fails: the tree that it leaves behind has the same files, but perhaps for the draft, and
it is the same tree unless the failure is one of writing rules. -/
structure Keeps (args : List Text) (outcome : Outcome) (t t' : FileTree) : Prop where
  file_iff : ∀ l, (∀ a ∈ ofList? args, ∀ draft ∈ RuleSet.draft? a.output, t'.place? draft ≠ .ok l) →
    ∀ bytes, t'.node? l = some (.file bytes) ↔ t.node? l = some (.file bytes)
  unchanged : (∀ f, outcome = .failed f → f.isOutput = false) → t' = t
  /-- The failures of writing rules are those after a conversion. -/
  isOutput_iff : ∀ f, outcome = .failed f → ∀ a ∈ ofList? args,
    f.isOutput = true ↔ ∃ c, a.conversion t = .ok c

/-- A run that succeeds: the output has exactly the clauses that the rules of the files give, in
strictly ascending order, and all other files are the same, but perhaps for the draft. -/
structure Converts (a : RulesArguments) (t t' : FileTree) (s : Settings)
    (files : List (Text × List UInt8)) (clauses : List Text) : Prop where
  settings : Settings.IsAt t a.settings? s
  lists : t.Lists a.target (a.suffix s) files
  decodes : ∀ line ∈ linesOf files, ∃ b, Attempt.ofLine? line = some b
  canonical : ∀ rule ∈ rulesOf (linesOf files), ∃ o, (a.canonicalizer s).canonicalize rule = .ok o
  ascending : clauses.Pairwise Text.Before
  mem_iff : ∀ clause, clause ∈ clauses ↔
    ∃ f ∈ files, ∃ line ∈ recordLines f.2, ∃ b, Attempt.ofLine? line = some b ∧
      ∃ rule ∈ b.rules, (a.canonicalizer s).canonicalize rule = .ok (some clause)
  found : t'.find a.output = .ok (.file (Text.encode (List.intercalate ['\n'] clauses)))
  file_iff : ∀ l, t'.place? a.output ≠ .ok l →
    (∀ draft ∈ RuleSet.draft? a.output, t'.place? draft ≠ .ok l) →
    ∀ bytes, t'.node? l = some (.file bytes) ↔ t.node? l = some (.file bytes)

theorem exists_converts_of_done {text : String} (h : a.perform t = (.ok text, t')) :
    ∃ s files clauses, Converts a t t' s files clauses := by
  rw [perform_eq] at h
  cases hc : a.conversion t with
  | error f => simp [hc] at h
  | ok c =>
    rw [hc] at h
    obtain ⟨htext, rfl⟩ := Prod.mk.inj h
    cases hwrite : t.writeRules c.ruleSet a.output with
    | mk r t' =>
      rw [hwrite] at htext
      cases r with
      | error f => exact nomatch htext
      | ok _ =>
        -- the files are those of `t`, since the conversion only reads, and the output is one of `t'`
        have hwritten := RuleSet.written_of_run hwrite
        obtain ⟨s, hs, hconvert⟩ := conversion_eq_ok_iff.1 hc
        obtain ⟨d, hd⟩ := FileTree.leads_of_convert hconvert
        obtain ⟨attempts, given, hgives, hgiven⟩ := (FileTree.convert_eq_ok_iff hd).1 hconvert
        have himage := hgives.isImage
        rw [← hgiven] at himage
        exact ⟨s, _, c.ruleSet.clauses, FileTree.settings_eq_ok_iff.1 hs,
          FileTree.lists_filesIn hd (a.suffix s), himage.decodes, fun rule => hgives.exists_ok,
          c.ruleSet.ascending, himage.mem_iff, hwritten.found,
          fun l hl hdraft => (hwritten.spares l hl hdraft).file_iff⟩

theorem keeps_of_failed {args : List Text} (ha : ofList? args = some a)
    (h : a.perform t = (.error f, t')) : Keeps args (.failed f) t t' := by
  rw [perform_eq] at h
  cases hc : a.conversion t with
  | error f' =>
    rw [hc] at h
    obtain ⟨hf, rfl⟩ := Prod.mk.inj h
    obtain rfl := Except.error.inj hf
    -- the run has ended before anything was written
    refine ⟨fun _ _ _ => Iff.rfl, fun _ => rfl, fun g hg b hb => ?_⟩
    obtain rfl := Outcome.failed.inj hg
    obtain rfl := Option.some.inj (ha.symm.trans hb)
    simp [isOutput_of_conversion hc, hc]
  | ok c =>
    rw [hc] at h
    obtain ⟨hf, rfl⟩ := Prod.mk.inj h
    cases hwrite : t.writeRules c.ruleSet a.output with
    | mk r t' =>
      rw [hwrite] at hf
      cases r with
      | ok _ => exact nomatch hf
      | error f' =>
        obtain rfl := Except.error.inj hf
        have hout := RuleSet.isOutput_of_run hwrite
        refine ⟨fun l hl => ((RuleSet.refused_of_run hwrite).spares l (hl a ha)).file_iff,
          fun hno => ?_, fun g hg b hb => ?_⟩
        · simp [hout] at hno
        · obtain rfl := Outcome.failed.inj hg
          obtain rfl := Option.some.inj (ha.symm.trans hb)
          exact iff_of_true hout ⟨c, hc⟩

end RulesArguments

/-- Runs the command for rules on a tree. -/
def FileTree.runRules (t : FileTree) (args : List Text) : Outcome × FileTree :=
  (MinedRules.runRules (m := StateM FileTree) args).run t

theorem FileTree.runRules_eq (t : FileTree) (args : List Text) :
    t.runRules args =
      match RulesArguments.ofList? args with
      | none => (.usage, t)
      | some a => (Outcome.ofExcept (a.perform t).1, (a.perform t).2) := by
  rw [runRules, MinedRules.runRules]
  cases RulesArguments.ofList? args <;> rfl

/-- **A run of the command for rules keeps the output, or it converts.** -/
theorem FileTree.runRules_keeps_or_converts (t : FileTree) (args : List Text) :
    ((t.runRules args).1.exitCode ≠ 0 →
      RulesArguments.Keeps args (t.runRules args).1 t (t.runRules args).2) ∧
    ((t.runRules args).1.exitCode = 0 → ∃ a s files clauses, RulesArguments.ofList? args = some a ∧
      RulesArguments.Converts a t (t.runRules args).2 s files clauses) := by
  rw [runRules_eq]
  cases ha : RulesArguments.ofList? args with
  | none => exact ⟨fun _ => ⟨fun _ _ _ => Iff.rfl, fun _ => rfl, nofun⟩, nofun⟩
  | some a =>
    cases hwork : a.perform t with
    | mk r t' =>
      simp only [hwork]
      cases r with
      | error f => exact ⟨fun _ => RulesArguments.keeps_of_failed ha hwork, nofun⟩
      | ok text =>
        obtain ⟨s, files, clauses, h⟩ := RulesArguments.exists_converts_of_done hwork
        exact ⟨fun hne => absurd rfl hne, fun _ => ⟨a, s, files, clauses, rfl, h⟩⟩

/-- The output is the only input, and has the clause instead of the record afterwards.  A settings file
gives the symbol of the implication in an array, removes types, and names an end of names that does not
count beside the option. -/
theorem FileTree.runRules_keeps_or_converts_in_place :
    let settings := "connectives = [':']\n[input]\nsuffix = '.json'\n[output]\nstrip_types = true"
    let record := "\x7b'rules': ['p(x) : q(x)((t))', 'f(x) : ']\x7d"
    let args := ["/", "--config=/s", "--suffix=.txt", "/a.txt"].map String.toList
    let t := ((∅ : FileTree).create "/s".toList (Text.encode settings.toList)).2
    let t := (t.create "/a.txt".toList (Text.encode record.toList)).2
    let t' := (t.runRules args).2
    (t.runRules args).1.exitCode = 0 ∧
      (∃ a s files clauses, RulesArguments.ofList? args = some a ∧
        RulesArguments.Converts a t t' s files clauses) ∧
      t'.find "/a.txt".toList = .ok (.file (Text.encode "p(X) :- q(X).".toList)) := by
  intro settings record args t₁ t t'
  have hcode : (t.runRules args).1.exitCode = 0 := by decide +kernel
  exact ⟨hcode, (runRules_keeps_or_converts t args).2 hcode, by decide +kernel⟩

end MinedRules
