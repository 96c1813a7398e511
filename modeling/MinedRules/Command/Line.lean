import MinedRules.Text.Search

/-!
# Command lines

An argument that begins with two dashes is an option.  A flag stands alone; any other option has a
value, which follows an equals sign or is the next argument.  Two dashes alone end the options.  All
other arguments are places, and these cannot begin with a dash before the options have ended, unless
they are only a dash.
-/

namespace MinedRules

/-- How an option is written. -/
inductive OptionForm
  | flag
  | valued
  deriving DecidableEq, Repr

/-- The parts of a command line, in order. -/
structure CommandLine where
  places : List Text := []
  flags : List Text := []
  values : List (Text × Text) := []
  deriving DecidableEq, Repr

namespace CommandLine

/-- Two dashes. -/
def dashes : Text := ['-', '-']

/-- Could the argument be an option? -/
def isDashed : Text → Bool
  | '-' :: _ :: _ => true
  | _ => false

/-- The command line with a place before the others. -/
def addPlace (place : Text) (l : CommandLine) : CommandLine :=
  { l with places := place :: l.places }

/-- The command line with a flag before the others. -/
def addFlag (name : Text) (l : CommandLine) : CommandLine :=
  { l with flags := name :: l.flags }

/-- The command line with a value before the others. -/
def addValue (name value : Text) (l : CommandLine) : CommandLine :=
  { l with values := (name, value) :: l.values }

/-- The parts of the given arguments, if `form?` knows all options and every one has its form. -/
def ofList? (form? : Text → Option OptionForm) : List Text → Option CommandLine
  | [] => some {}
  | arg :: args =>
    match Text.after? dashes arg with
    | none => if isDashed arg then none else (ofList? form? args).map (addPlace arg)
    | some [] => some { places := args }
    | some option =>
      match Text.cut? ['='] option with
      | some (name, value) =>
        if form? name = some .valued then (ofList? form? args).map (addValue name value) else none
      | none =>
        match form? option with
        | none => none
        | some .flag => (ofList? form? args).map (addFlag option)
        | some .valued =>
          match args with
          | [] => none
          | value :: args =>
            if isDashed value then none else (ofList? form? args).map (addValue option value)

/-- Is the flag given? -/
def hasFlag (l : CommandLine) (name : Text) : Bool := l.flags.contains name

/-- The value of an option. -/
def value? (l : CommandLine) (name : Text) : Option Text := l.values.lookup name

/-- Is no option given twice? -/
def isSimple (l : CommandLine) : Bool :=
  decide l.flags.Nodup && decide (l.values.map Prod.fst).Nodup

end CommandLine

end MinedRules
