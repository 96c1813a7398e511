import MinedRules.Command.Line
import MinedRules.Command.Outcome
import MinedRules.Dataset.Write

/-!
# The command for datasets

The command reads a file of facts and writes them as a dataset into a directory.  It has no options.
-/

namespace MinedRules

/-- The arguments of the command for datasets. -/
structure DatasetArguments where
  input : Path
  output : Path
  deriving DecidableEq, Repr

namespace DatasetArguments

/-- The arguments that a list of texts stands for.  The paths are not empty. -/
def ofList? (args : List Text) : Option DatasetArguments :=
  match CommandLine.ofList? (fun _ => none) args with
  | some { places := [input, output], .. } =>
    if input ≠ [] ∧ output ≠ [] then some ⟨input, output⟩ else none
  | _ => none

end DatasetArguments

namespace Dataset

/-- A line for a number and its name. -/
def nameLine (n : Nat × Text) : String := s!"  {n.1}\t{String.ofList n.2}\n"

/-- A line for a triple and its fact. -/
def tripleLine (t : Triple × Fact) : String :=
  let relation := String.ofList t.2.relation
  s!"  {t.1.head}\t{String.ofList t.1.relation}\t{t.1.tail}\t" ++
    s!"# {relation}({String.ofList t.2.head}, {String.ofList t.2.tail})\n"

/-- What the command for datasets prints. -/
def summary (d : Dataset) (dir : Path) : String :=
  "\n=== Conversion Summary ===\n" ++
    s!"Output directory: {String.ofList dir}\n" ++
    s!"  - {String.ofList entitiesName}: {d.entities.size} entities\n" ++
    s!"  - {String.ofList relationsName}: {d.relations.size} relations\n" ++
    s!"  - {String.ofList triplesName}: {d.facts.length} triples\n" ++
    "\nSample entities (first 5):\n" ++
    String.join ((d.entities.entries.take 5).map nameLine) ++
    "\nSample relations:\n" ++
    String.join (d.relations.entries.map nameLine) ++
    "\nSample triples (first 5):\n" ++
    String.join (((d.triples.zip d.facts).take 5).map tripleLine)

end Dataset

variable {m : Type → Type} [Monad m] [Disk m]

/-- The facts of a file, which has at least one. -/
def loadFacts (p : Path) : ExceptT Failure m (List Fact) := do
  if (← Disk.kind? (m := m) p).isNone then throw { cause := .noInput p }
  match ← Disk.readText (m := m) p with
  | .error e => throw (Failure.ofTextError e)
  | .ok t =>
    let facts := (FactFile.ofText t).facts
    if facts.isEmpty then throw { cause := .noFacts p } else return facts

/-- Reads the facts, writes their dataset and gives the text to print. -/
def DatasetArguments.work (a : DatasetArguments) : ExceptT Failure m String := do
  let dataset := Dataset.ofFacts (← loadFacts a.input)
  dataset.write a.output
  return dataset.summary a.output

/-- Runs the command for datasets. -/
def runDataset (args : List Text) : m Outcome :=
  match DatasetArguments.ofList? args with
  | none => pure .usage
  | some a => Outcome.ofExcept <$> a.work.run

end MinedRules
