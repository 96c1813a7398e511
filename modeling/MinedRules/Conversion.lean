import MinedRules.Attempt.Load
import MinedRules.RuleSet.Basic

/-!
# Conversions

A conversion takes all rules of the attempt files of a directory into one rule set.

* `Conversion.ofRecords` is the conversion of records that have been read.
* `attemptFiles` finds the files, and `convert` reads them all before it looks at the first rule.
-/

namespace MinedRules

/-- What a conversion has counted. -/
structure Statistics where
  files : Nat := 0
  attempts : Nat := 0
  rules : Nat := 0
  /-- The rules without a body. -/
  factsSkipped : Nat := 0
  /-- The rules with a clause. -/
  clauses : Nat := 0
  deriving DecidableEq, Repr

/-- The clauses of a conversion, and its counts. -/
structure Conversion where
  ruleSet : RuleSet := ∅
  statistics : Statistics := {}

/-- The attempts of a file. -/
structure Records where
  path : Path
  attempts : List Attempt
  deriving DecidableEq, Repr

namespace Conversion

/-- The conversion with a rule more, which is from the given file. -/
def addRule (k : Canonicalizer) (p : Path) (c : Conversion) (rule : Text) :
    Except Failure Conversion :=
  let s := { c.statistics with rules := c.statistics.rules + 1 }
  match k.canonicalize rule with
  | .error e => .error { contexts := [.canonicalizing rule p], cause := .rule e }
  | .ok none => .ok { c with statistics := { s with factsSkipped := s.factsSkipped + 1 } }
  | .ok (some clause) =>
    .ok ⟨(c.ruleSet.insert clause).2, { s with clauses := s.clauses + 1 }⟩

/-- The conversion with the rules of an attempt more. -/
def addAttempt (k : Canonicalizer) (p : Path) (c : Conversion) (a : Attempt) :
    Except Failure Conversion :=
  let s := { c.statistics with attempts := c.statistics.attempts + 1 }
  a.rules.foldlM (addRule k p) { c with statistics := s }

/-- The conversion with the attempts of a file more. -/
def addFile (k : Canonicalizer) (c : Conversion) (r : Records) : Except Failure Conversion :=
  let s := { c.statistics with files := c.statistics.files + 1 }
  r.attempts.foldlM (addAttempt k r.path) { c with statistics := s }

/-- The conversion of all records. -/
def ofRecords (k : Canonicalizer) (files : List Records) : Except Failure Conversion :=
  files.foldlM (addFile k) {}

end Conversion

variable {m : Type → Type} [Monad m] [Disk m]

/-- The files in a directory whose names have the given end, in the order of their names. -/
def attemptFiles (dir : Path) (suffix : Text) : ExceptT Failure m (List Path) := do
  if (← Disk.kind? (m := m) dir) ≠ some .directory then throw { cause := .noTarget dir }
  let names ← orFail (.listing dir) (Disk.names dir)
  let paths := (names.filter suffix.isSuffixOf).map dir.join
  paths.filterM fun p => return (← Disk.kind? (m := m) p) == some .file

/-- The attempts of a file, with its path. -/
def loadRecords (p : Path) : ExceptT Failure m Records := return ⟨p, ← Attempt.load p⟩

/-- The conversion of the files in a directory whose names have the given end. -/
def convert (dir : Path) (suffix : Text) (k : Canonicalizer) : ExceptT Failure m Conversion := do
  let files ← (← attemptFiles dir suffix).mapM loadRecords
  ExceptT.mk (pure (Conversion.ofRecords k files))

end MinedRules
