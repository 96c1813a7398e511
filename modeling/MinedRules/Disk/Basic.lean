import MinedRules.Disk.Path
import MinedRules.Text.Decode

/-!
# Disks

`Disk m` lists what a program can do with files: the programs of this library are written for any
monad `m` that offers these operations.  Programs run on a real disk, and on a `FileTree` when
something is to be said about them.

* `Disk.readText` : the text of a file.
* `Disk.makeDirs` : makes a directory and whatever is missing around it.
* `Disk.replace` : writes a file so that no partly written file is ever seen at its path.
-/

namespace MinedRules

/-- What an operating system answers when it refuses something. -/
inductive OsError
  | notFound
  | busy
  | alreadyThere
  | notDirectory
  | isDirectory
  /-- Anything else, in the words of the system. -/
  | other (text : String)
  deriving DecidableEq, Repr

/-- The wording of a refusal. -/
def OsError.message : OsError → String
  | notFound => "No such file or directory (os error 2)"
  | busy => "Device or resource busy (os error 16)"
  | alreadyThere => "File exists (os error 17)"
  | notDirectory => "Not a directory (os error 20)"
  | isDirectory => "Is a directory (os error 21)"
  | other text => text

/-- Why a file cannot be read. -/
inductive ReadError
  /-- It cannot be opened. -/
  | opening (e : OsError)
  /-- It can be opened, but gives no bytes. -/
  | reading (e : OsError)
  deriving DecidableEq, Repr

namespace ReadError

/-- The refusal itself. -/
def cause : ReadError → OsError
  | opening e => e
  | reading e => e

end ReadError

/-- What can stand at a path. -/
inductive Kind
  | file
  | directory
  deriving DecidableEq, Repr

/-- The operations on the files of a disk. -/
class Disk (m : Type → Type) where
  /-- What stands at a path, if anything can be reached there. -/
  kind? : Path → m (Option Kind)
  /-- The names in a directory. -/
  names : Path → m (Except OsError (List Text))
  /-- The bytes of a file. -/
  read : Path → m (Except ReadError (List UInt8))
  /-- Makes a directory in a directory that is there. -/
  makeDir : Path → m (Except OsError Unit)
  /-- Makes a file, or empties the one that is there, and writes the bytes. -/
  create : Path → List UInt8 → m (Except OsError Unit)
  /-- Moves a file to another path; a file that is there gives way. -/
  rename : Path → Path → m (Except OsError Unit)
  /-- Removes a file. -/
  remove : Path → m (Except OsError Unit)

namespace Disk

variable {m : Type → Type} [Monad m] [Disk m]

/-- Why a text cannot be read. -/
inductive TextError
  | unreadable (e : ReadError)
  /-- The bytes are not UTF-8. -/
  | undecodable
  deriving DecidableEq, Repr

/-- The text of a file. -/
def readText (p : Path) : m (Except TextError Text) := do
  match ← read p with
  | .error e => return .error (.unreadable e)
  | .ok bytes =>
    match Text.decode? bytes with
    | some t => return .ok t
    | none => return .error .undecodable

/-- Accepts a failed attempt to make a directory if one is there. -/
def orPresent (p : Path) : Except OsError Unit → m (Except OsError Unit)
  | .ok () => return .ok ()
  | .error e => do
    if (← kind? p) = some .directory then return .ok () else return .error e

/-- Makes the first directory of a list, and before it those that follow if they are missing. -/
def makeFirst : List Path → m (Except OsError Unit)
  | [] => return .ok ()
  | p :: parents => do
    match ← makeDir p with
    | .error .notFound =>
      match ← makeFirst parents with
      | .ok () => orPresent p (← makeDir p)
      | .error e => return .error e
    | result => orPresent p result

/-- Makes a directory and all directories around it that are missing.  The empty path needs
none. -/
def makeDirs (p : Path) : m (Except OsError Unit) := makeFirst p.ancestors

/-- Writes the bytes to a draft that is then moved to its path.  If this fails no draft is left. -/
def replace (draft p : Path) (bytes : List UInt8) : m (Except OsError Unit) := do
  let moved ←
    match ← create draft bytes with
    | .ok () => rename draft p
    | .error e => pure (.error e)
  match moved with
  | .ok () => return .ok ()
  | .error e =>
    let _ ← remove draft
    return .error e

end Disk

end MinedRules
