import MinedRules.Command.Dataset
import MinedRules.Command.Rules

/-!
# The program

The first argument names the command, `rules` or `dataset`, and the others are its arguments.
Results go to the standard output and failures to the standard error.
-/

namespace MinedRules

namespace RealDisk

/-- What the system has refused. -/
def refusal (e : IO.Error) : OsError :=
  match e with
  | .noFileOrDirectory .. => .notFound
  | .alreadyExists .. => .alreadyThere
  | .resourceBusy .. => .busy
  | .inappropriateType _ 20 _ => .notDirectory
  | .inappropriateType _ 21 _ => .isDirectory
  | e => .other (toString e)

/-- The answer of a file operation. -/
def answer {α : Type} (x : IO α) : IO (Except OsError α) := do
  match ← x.toBaseIO with
  | .ok a => return .ok a
  | .error e => return .error (refusal e)

/-- The kind of what stands at a path. -/
def kind? (p : Path) : IO (Option Kind) := do
  match ← ((← IO.currentDir) / String.ofList p).metadata.toBaseIO with
  | .error _ => return none
  | .ok data =>
    match data.type with
    | .dir => return some .directory
    | .file => return some .file
    | _ => return none

/-- Is the entry of a directory a symbolic link? -/
def isLink (entry : IO.FS.DirEntry) : IO Bool := do
  match ← entry.path.symlinkMetadata.toBaseIO with
  | .error _ => return false
  | .ok data =>
    match data.type with
    | .symlink => return true
    | _ => return false

/-- The names in a directory but for those of symbolic links, which nothing is read through. -/
def names (p : Path) : IO (List Text) := do
  let found ← ((← IO.currentDir) / String.ofList p).readDir
  let entries ← found.toList.filterM fun entry => return !(← isLink entry)
  return Text.sorted (entries.map fun entry => entry.fileName.toList)

/-- The bytes of a file; a file is opened before anything is read. -/
def read (p : Path) : IO (Except ReadError (List UInt8)) := do
  match ← (IO.FS.Handle.mk (String.ofList p) .read).toBaseIO with
  | .error e => return .error (.opening (refusal e))
  | .ok handle =>
    if (← kind? p) = some .directory then return .error (.reading .isDirectory)
    match ← handle.readBinToEnd.toBaseIO with
    | .error e => return .error (.reading (refusal e))
    | .ok bytes => return .ok bytes.toList

/-- Writes a file. -/
def create (p : Path) (bytes : List UInt8) : IO (Except OsError Unit) := do
  if (← kind? p) = some .directory then return .error .isDirectory
  answer (IO.FS.writeBinFile (String.ofList p) ⟨bytes.toArray⟩)

/-- Moves a file. -/
def rename (p q : Path) : IO (Except OsError Unit) := do
  if (← kind? q) = some .directory then return .error .isDirectory
  answer (IO.FS.rename (String.ofList p) (String.ofList q))

instance : Disk IO where
  kind? := kind?
  names p := answer (names p)
  read := read
  makeDir p := answer (IO.FS.createDir (String.ofList p))
  create := create
  rename := rename
  remove p := answer (IO.FS.removeFile (String.ofList p))

end RealDisk

/-- How the program is used. -/
def usage : String :=
  "usage: rules TARGET_DIR OUTPUT_FILE [--strip-types] [--config FILE] [--suffix TEXT]\n" ++
    "       dataset INPUT_FILE OUTPUT_DIR"

/-- Prints what a command has to say and gives its exit code. -/
def finish (o : Outcome) : IO UInt32 := do
  IO.print o.output
  match o with
  | .usage => IO.eprintln usage
  | .failed f => IO.eprintln f.report
  | .done _ => pure ()
  return UInt32.ofNat o.exitCode

end MinedRules

open MinedRules in
/-- Runs the command that the first argument names. -/
def main (args : List String) : IO UInt32 := do
  match args with
  | "rules" :: rest => finish (← runRules (rest.map String.toList))
  | "dataset" :: rest => finish (← runDataset (rest.map String.toList))
  | _ => finish .usage
