import MinedRules.Text.Blank
import MinedRules.Text.Search

/-!
# Paths

A path is a text of names between slashes, and it is kept as it was written.  It leads step by step
from the root, if it begins with a slash, or else from the working directory.

* `Path.split?` takes a path apart into its parent and its last component.  Empty parts do not
  count, and a dot counts only at the beginning.
* `Path.join` puts a name behind a directory.
* `Path.isName_of_mem_steps` : the steps of a path are names, but for those that stay or go up.
-/

namespace MinedRules

/-- A path as it was written. -/
abbrev Path := Text

namespace Path

/-- The texts between the slashes. -/
def parts (p : Path) : List Text := p.splitOn '/'

/-- The steps that the path leads. -/
def steps (p : Path) : List Text := p.parts.filter fun part => !part.isEmpty

/-- Does the path begin at the root? -/
def isAbsolute (p : Path) : Bool := p.head? == some '/'

/-- Does the path end with a slash?  Then it can only lead to a directory. -/
def endsInSlash (p : Path) : Bool := p.getLast? == some '/'

/-- The step that stays where it is. -/
def here : Text := ['.']

/-- The step to the directory around. -/
def up : Text := ['.', '.']

/-- A name that can stand in a directory. -/
structure IsName (name : Text) : Prop where
  nonempty : name ≠ []
  slash : '/' ∉ name
  here : name ≠ here
  up : name ≠ up

instance : DecidablePred IsName := fun name =>
  decidable_of_iff (name ≠ [] ∧ '/' ∉ name ∧ name ≠ here ∧ name ≠ up)
    ⟨fun ⟨h1, h2, h3, h4⟩ => ⟨h1, h2, h3, h4⟩, fun ⟨h1, h2, h3, h4⟩ => ⟨h1, h2, h3, h4⟩⟩

/-- Is the part not a component? -/
def isVoid (part : Text) : Bool := part.isEmpty || part == here

/-- The path up to a component, which follows the given parts. -/
def ofParts (first : Text) (rest : List Text) : Path :=
  if first.isEmpty && rest.isEmpty then ['/'] else List.intercalate ['/'] (first :: rest)

/-- The parent and the last component.  The root and the empty path have none. -/
def split? (p : Path) : Option (Path × Text) :=
  match p.parts with
  | [] => none
  | first :: rest =>
    let rest := Text.dropWhileEnd isVoid rest
    match rest.getLast? with
    | some name => some (ofParts first (Text.dropWhileEnd isVoid rest.dropLast), name)
    | none => if first.isEmpty then none else some ([], first)

/-- The path without its last component. -/
def parent? (p : Path) : Option Path := p.split?.map Prod.fst

/-- The name of what the path leads to, if the last step is a name. -/
def fileName? (p : Path) : Option Text :=
  match p.split? with
  | some (_, name) => if name = here ∨ name = up then none else some name
  | none => none

/-- The path of a name in a directory. -/
def join (dir : Path) (name : Text) : Path :=
  if dir.isEmpty || dir.endsInSlash then dir ++ name else dir ++ '/' :: name

/-- At most `n` paths: a path, its parent, the parent of that, and so on.  The empty path is left
out. -/
def ancestorsWithin : Nat → Path → List Path
  | 0, _ => []
  | n + 1, p => if p.isEmpty then [] else p :: p.parent?.elim [] (ancestorsWithin n)

/-- A path, its parent, the parent of that, and so on; each one is shorter than the one before. -/
def ancestors (p : Path) : List Path := ancestorsWithin p.length p

/-! ### Lemmas -/

theorem isName_of_mem_steps {p : Path} {step : Text} (h : step ∈ p.steps)
    (hstep : ¬ (step = here ∨ step = up)) : IsName step := by
  obtain ⟨hpart, hne⟩ := List.mem_filter.1 h
  rw [not_or] at hstep
  exact ⟨by simpa using hne, not_mem_of_mem_splitOn hpart, hstep.1, hstep.2⟩

end Path

end MinedRules
