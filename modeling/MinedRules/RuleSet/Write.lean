import MinedRules.Failure
import MinedRules.RuleSet.Basic

/-!
# Writing rule sets

`RuleSet.write` writes the clauses of a set to a file, all of them or none: they go to a draft
beside the file, and the draft takes its place only when it is complete.
-/

namespace MinedRules

namespace RuleSet

variable {m : Type → Type} [Monad m] [Disk m]

/-- What is added to the name of a file for its draft. -/
def draftEnd : Text := ".partial".toList

/-- Writes the clauses to a file, and makes the directories around it first. -/
def write (s : RuleSet) (p : Path) : ExceptT Failure m Unit := do
  let dir := p.parent?.getD []
  orFail (.creatingDirectory dir) (Disk.makeDirs dir)
  match p.fileName? with
  | none => throw { cause := .noFileName p }
  | some name =>
    let draft := dir.join (name ++ draftEnd)
    orFail (.writingRules p) (Disk.replace draft p (Text.encode s.render))

end RuleSet

end MinedRules
