import MinedRules.Command.Line
import MinedRules.Command.Outcome
import MinedRules.Conversion
import MinedRules.RuleSet.Write
import MinedRules.Settings.Load

/-!
# The command for rules

The command converts all rules in the attempt files of a directory and writes their clauses to a
file.  Options name a settings file, the end of the names of the attempt files, and whether type
annotations are removed; for the last two the settings file has a say too.
-/

namespace MinedRules

/-- The arguments of the command for rules. -/
structure RulesArguments where
  target : Path
  output : Path
  stripsTypes : Bool := false
  settings? : Option Path := none
  suffix? : Option Text := none
  deriving DecidableEq, Repr

namespace RulesArguments

/-- The flag that removes type annotations. -/
def stripTypesName : Text := "strip-types".toList

/-- The option with the settings file. -/
def settingsName : Text := "config".toList

/-- The option with the end of the names of attempt files. -/
def suffixName : Text := "suffix".toList

/-- The form of an option of the command. -/
def form? (name : Text) : Option OptionForm :=
  if name = stripTypesName then some .flag
  else if name = settingsName ∨ name = suffixName then some .valued
  else none

/-- The arguments of a command line.  Paths are not empty and no option is given twice. -/
def ofLine? (l : CommandLine) : Option RulesArguments :=
  match l.places with
  | [target, output] =>
    let settings? := l.value? settingsName
    if l.isSimple ∧ target ≠ [] ∧ output ≠ [] ∧ settings? ≠ some [] then
      some ⟨target, output, l.hasFlag stripTypesName, settings?, l.value? suffixName⟩
    else none
  | _ => none

/-- The arguments that a list of texts stands for. -/
def ofList? (args : List Text) : Option RulesArguments :=
  (CommandLine.ofList? form? args).bind ofLine?

end RulesArguments

/-- What the command for rules prints. -/
def Conversion.summary (c : Conversion) (output : Path) : String :=
  let s := c.statistics
  "\n=== Conversion Summary ===\n" ++
    s!"Input files: {s.files}\n" ++
    s!"Attempts: {s.attempts}\n" ++
    s!"Rules read: {s.rules}\n" ++
    s!"Facts skipped: {s.factsSkipped}\n" ++
    s!"Clauses produced: {s.clauses}\n" ++
    s!"Distinct clauses written: {c.ruleSet.size}\n" ++
    s!"Output: {String.ofList output}\n"

variable {m : Type → Type} [Monad m] [Disk m]

/-- Converts, writes and gives the text to print. -/
def RulesArguments.work (a : RulesArguments) : ExceptT Failure m String := do
  let settings ← Settings.loadOrDefault a.settings?
  let k := { settings.canonicalizer with stripsTypes := a.stripsTypes || settings.stripsTypes }
  let conversion ← convert a.target (a.suffix?.getD settings.suffix) k
  conversion.ruleSet.write a.output
  return conversion.summary a.output

/-- Runs the command for rules. -/
def runRules (args : List Text) : m Outcome :=
  match RulesArguments.ofList? args with
  | none => pure .usage
  | some a => Outcome.ofExcept <$> a.work.run

end MinedRules
