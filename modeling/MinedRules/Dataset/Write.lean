import MinedRules.Dataset.Basic
import MinedRules.Failure

/-!
# Writing datasets

A dataset is a directory with three files: the numbered entities, the numbered relations, and the
triples.
-/

namespace MinedRules

namespace Dataset

variable {m : Type → Type} [Monad m] [Disk m]

/-- The file of the entities. -/
def entitiesName : Text := "entities.dict".toList

/-- The file of the relations. -/
def relationsName : Text := "relations.dict".toList

/-- The file of the triples. -/
def triplesName : Text := "train.txt".toList

/-- Writes a text to a file. -/
def writeFile (p : Path) (t : Text) : ExceptT Failure m Unit := do
  orFail (.creating p) (Disk.create p (Text.encode t))

/-- Writes the three files into a directory, which is made if it is missing. -/
def write (d : Dataset) (dir : Path) : ExceptT Failure m Unit := do
  orFail (.creatingOutput dir) (Disk.makeDirs dir)
  writeFile (dir.join entitiesName) (dictionaryFile d.entities)
  writeFile (dir.join relationsName) (dictionaryFile d.relations)
  writeFile (dir.join triplesName) (triplesFile d.triples)

end Dataset

end MinedRules
