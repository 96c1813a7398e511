import MinedRules.Attempt.Decode
import MinedRules.Disk.Basic
import MinedRules.Rule.Error
import MinedRules.Settings.Basic

/-!
# Failures

A `Failure` is a cause together with what was being done, from the outside to the inside.

* `Failure.message` is one line of text with everything.
* `Failure.report` is what a command prints: the outermost message and below it the causes.
-/

namespace MinedRules

/-- Why the work cannot go on. -/
inductive Cause
  | os (e : OsError)
  /-- The bytes of a file are not UTF-8. -/
  | undecodable
  | rule (e : RuleError)
  | literal (e : Literal.Error)
  | mismatch (e : Attempt.Mismatch)
  | settings (e : Settings.Error)
  | noTarget (dir : Path)
  | noFileName (p : Path)
  | noInput (p : Path)
  | noFacts (p : Path)
  deriving Repr

/-- What was being done. -/
inductive Context
  | openingAttempts (p : Path)
  | reading (p : Path)
  | decodingRecord (p : Path) (line : Nat)
  | findingRules
  | listing (dir : Path)
  | canonicalizing (rule : Text) (p : Path)
  | creatingDirectory (dir : Path)
  | writingRules (p : Path)
  | creatingOutput (dir : Path)
  | creating (p : Path)
  | readingSettings (p : Path)
  deriving DecidableEq, Repr

/-- A text between double quotes. -/
def quoted (t : Text) : String := String.ofList (Text.quoted t)

/-- The wording of a cause. -/
def Cause.message : Cause → String
  | os e => e.message
  | undecodable => "stream did not contain valid UTF-8"
  | rule e => e.message
  | literal e => e.message
  | mismatch e => e.message
  | settings e => e.message
  | noTarget dir => s!"Target directory not found: {quoted dir}"
  | noFileName p => s!"Output path has no file name: {quoted p}"
  | noInput p => s!"Input file {quoted p} does not exist"
  | noFacts p => s!"No facts found in {quoted p}"

/-- The wording of a context. -/
def Context.message : Context → String
  | openingAttempts p => s!"Failed to open attempts file: {quoted p}"
  | reading p => s!"Failed to read {quoted p}"
  | decodingRecord p line => s!"Failed to decode record at {quoted p}:{line}"
  | findingRules => "Record has no usable 'rules' list"
  | listing dir => s!"Failed to list {quoted dir}"
  | canonicalizing rule p => s!"Failed to canonicalize rule {quoted rule} from {quoted p}"
  | creatingDirectory dir => s!"Failed to create directory: {quoted dir}"
  | writingRules p => s!"Failed to write rules to {quoted p}"
  | creatingOutput dir => s!"Failed to create output directory: {quoted dir}"
  | creating p => s!"Failed to create {quoted p}"
  | readingSettings p => s!"Failed to read config from {quoted p}"

/-- A cause, and what was being done; the outermost context comes first. -/
structure Failure where
  contexts : List Context := []
  cause : Cause
  deriving Repr

namespace Failure

/-- The failure inside of one more context. -/
def within (c : Context) (f : Failure) : Failure := { f with contexts := c :: f.contexts }

/-- The failure of a line that is no record. -/
def ofDecodeError : Attempt.DecodeError → Failure
  | .literal e => { cause := .literal e }
  | .mismatch e => { contexts := [.findingRules], cause := .mismatch e }

/-- The failure to read a text. -/
def ofTextError : Disk.TextError → Failure
  | .unreadable e => { cause := .os e.cause }
  | .undecodable => { cause := .undecodable }

/-- The messages of the contexts and of the cause. -/
def messages (f : Failure) : List String := f.contexts.map Context.message ++ [f.cause.message]

/-- All messages in one text. -/
def message (f : Failure) : String := ": ".intercalate f.messages

/-- A message behind a mark; its further lines are set in by as much. -/
def item (mark message : String) : String :=
  let margin := String.ofList (List.replicate mark.length ' ')
  mark ++ s!"\n{margin}".intercalate (message.splitOn "\n")

/-- The mark of a numbered message. -/
def numberMark (n : Nat) : String :=
  let digits := toString n
  String.ofList (List.replicate (5 - digits.length) ' ') ++ digits ++ ": "

/-- The messages below the outermost one; they have numbers if there are several. -/
def listing : List String → List String
  | [message] => [item "    " message]
  | messages => messages.zipIdx.map fun (message, n) => item (numberMark n) message

/-- The outermost message, and the causes below it. -/
def report (f : Failure) : String :=
  match f.messages with
  | [] => "Error: "
  | [message] => s!"Error: {message}"
  | message :: causes =>
    s!"Error: {message}\n\nCaused by:\n" ++ "\n".intercalate (listing causes)

end Failure

/-- An operation whose refusal is a failure in the given context. -/
def orFail {m : Type → Type} [Monad m] {α : Type} (c : Context) (x : m (Except OsError α)) :
    ExceptT Failure m α :=
  ExceptT.mk do
    match ← x with
    | .ok a => return .ok a
    | .error e => return .error { contexts := [c], cause := .os e }

end MinedRules
