import MinedRules.Failure

/-!
# Outcomes of commands
-/

namespace MinedRules

/-- How the run of a command ends. -/
inductive Outcome
  /-- The arguments are not understood. -/
  | usage
  | failed (f : Failure)
  /-- The work is done, and a text is printed. -/
  | done (output : String)

namespace Outcome

/-- The exit code of a command. -/
def exitCode : Outcome → Nat
  | done _ => 0
  | failed _ => 1
  | usage => 2

/-- What a command prints. -/
def output : Outcome → String
  | done text => text
  | _ => ""

/-- The report of a failed command. -/
def report? : Outcome → Option String
  | failed f => some f.report
  | _ => none

/-- The outcome of work that gives the text to print. -/
def ofExcept : Except Failure String → Outcome
  | .ok text => done text
  | .error f => failed f

end Outcome

end MinedRules
