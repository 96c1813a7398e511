import MinedRules.Failure

/-!
# Loading settings
-/

namespace MinedRules

namespace Settings

variable {m : Type → Type} [Monad m] [Disk m]

/-- The settings of a file. -/
def load (p : Path) : ExceptT Failure m Settings := do
  match ← Disk.readText (m := m) p with
  | .error e => throw ((Failure.ofTextError e).within (.readingSettings p))
  | .ok t =>
    match ofText t with
    | .error e => throw { cause := .settings e }
    | .ok s => pure s

/-- The settings of a file if one is given, and else the defaults. -/
def loadOrDefault : Option Path → ExceptT Failure m Settings
  | some p => load p
  | none => pure {}

end Settings

end MinedRules
