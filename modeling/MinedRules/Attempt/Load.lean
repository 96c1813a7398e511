import MinedRules.Failure
import MinedRules.Text.Lines

/-!
# Attempt files

An attempt file has one record a line; blank lines do not count.  The first line that is not UTF-8
or not a record is reported, with its number.
-/

namespace MinedRules

namespace Attempt

variable {m : Type → Type} [Monad m] [Disk m]

/-- The attempts of the lines of a file; `number` is the number of the first of them. -/
def ofLines (p : Path) (number : Nat) : List (List UInt8) → Except Failure (List Attempt)
  | [] => .ok []
  | line :: lines =>
    match Text.decode? line with
    | none => .error { contexts := [.reading p], cause := .undecodable }
    | some t =>
      if (Text.trim t).isEmpty then ofLines p (number + 1) lines
      else
        match decode t with
        | .error e => .error ((Failure.ofDecodeError e).within (.decodingRecord p number))
        | .ok attempt => (ofLines p (number + 1) lines).map (attempt :: ·)

/-- The attempts of a file with the given bytes. -/
def ofFile (p : Path) (bytes : List UInt8) : Except Failure (List Attempt) :=
  ofLines p 1 (linesWith 10 13 bytes)

/-- The attempts of a file. -/
def load (p : Path) : ExceptT Failure m (List Attempt) := do
  match ← Disk.read (m := m) p with
  | .error (.opening e) => throw { contexts := [.openingAttempts p], cause := .os e }
  | .error (.reading e) => throw { contexts := [.reading p], cause := .os e }
  | .ok bytes => ExceptT.mk (pure (ofFile p bytes))

end Attempt

end MinedRules
