import MinedRules.Disk.Basic
import MinedRules.Text.Sorted

/-!
# File trees

A `FileTree` says for every location whether a directory, a file or nothing is there; everything
stands in a directory.  It is a disk: paths are followed step by step through directories, and the
operations refuse what an operating system refuses.  There are no links, special files or permissions,
and every name is a text.

* `FileTree.node?_insert`, `FileTree.node?_erase` : what an insertion and a removal change.
-/

namespace MinedRules

/-- A place in a file tree: a name, and the names of the directories around it from the inside to
the outside.  The empty list is the root. -/
abbrev Location := List Text

/-- What stands at a location. -/
inductive Node
  | directory
  | file (bytes : List UInt8)
  deriving DecidableEq, Repr

/-- The kind of a node. -/
def Node.kind : Node → Kind
  | directory => .directory
  | file _ => .file

namespace Location

/-- What a list of nodes has at a location.  The root is always a directory. -/
def node? (nodes : List (Location × Node)) : Location → Option Node
  | [] => some .directory
  | name :: loc => nodes.lookup (name :: loc)

variable {nodes : List (Location × Node)} {loc l : Location} {name : Text} {n : Node}

theorem lookup_cons (k l : Location) (n : Node) :
    ((k, n) :: nodes).lookup l = if l = k then some n else nodes.lookup l := by
  rw [List.lookup_cons]
  by_cases h : l = k
  · simp [h]
  · simp [h, beq_eq_false_iff_ne.2 h]

theorem lookup_filter_ne :
    (nodes.filter fun e => e.1 != loc).lookup l = if l = loc then none else nodes.lookup l := by
  induction nodes with
  | nil => simp
  | cons e nodes ih =>
    obtain ⟨k, n⟩ := e
    by_cases hk : k = loc
    · subst hk
      rw [List.filter_cons_of_neg (by simp), ih, lookup_cons]
      grind
    · rw [List.filter_cons_of_pos (by simpa using hk), lookup_cons, lookup_cons, ih]
      grind

theorem node?_cons (h : loc ≠ []) :
    node? ((loc, n) :: nodes) l = if l = loc then some n else node? nodes l := by
  cases l with
  | nil => simp [node?, h.symm]
  | cons a l => exact lookup_cons loc (a :: l) n

theorem node?_filter_ne (h : loc ≠ []) :
    node? (nodes.filter fun e => e.1 != loc) l = if l = loc then none else node? nodes l := by
  cases l with
  | nil => simp [node?, h.symm]
  | cons a l => simpa [node?] using lookup_filter_ne

end Location

/-- Directories and files, and the directory where relative paths begin.  Everything stands in a
directory and has a proper name. -/
structure FileTree where
  nodes : List (Location × Node)
  workingDirectory : Location
  grounded : ∀ (name : Text) (loc : Location),
    Location.node? nodes (name :: loc) ≠ none → Location.node? nodes loc = some .directory
  named : ∀ (name : Text) (loc : Location),
    Location.node? nodes (name :: loc) ≠ none → Path.IsName name
  working : Location.node? nodes workingDirectory = some .directory

namespace FileTree

/-- The tree that is only a root, which is the working directory. -/
def empty : FileTree := ⟨[], [], by simp [Location.node?], by simp [Location.node?], rfl⟩

instance : EmptyCollection FileTree := ⟨empty⟩

instance : Inhabited FileTree := ⟨empty⟩

/-- What stands at a location. -/
def node? (t : FileTree) (loc : Location) : Option Node := Location.node? t.nodes loc

/-- A location with a directory. -/
structure Directory (t : FileTree) where
  location : Location
  isDirectory : t.node? location = some .directory

variable {t : FileTree}

/-! ### Insertion and removal -/

/-- The tree with a node more, or another file in place of one. -/
def insert (t : FileTree) (d : t.Directory) (name : Text) (hname : Path.IsName name) (n : Node)
    (h : t.node? (name :: d.location) ≠ some .directory) : FileTree where
  nodes := (name :: d.location, n) :: t.nodes
  workingDirectory := t.workingDirectory
  grounded name' loc' h' := by
    have hd := d.isDirectory
    have hg := t.grounded name' loc'
    simp only [node?] at hd h
    rw [Location.node?_cons (by simp)] at h' ⊢
    grind
  named name' loc' h' := by
    have hn := t.named name' loc'
    rw [Location.node?_cons (by simp)] at h'
    grind
  working := by
    have hw := t.working
    rw [Location.node?_cons (by simp)]
    simp only [node?] at h
    grind

/-- The tree without a file. -/
def erase (t : FileTree) (name : Text) (loc : Location)
    (h : t.node? (name :: loc) ≠ some .directory) : FileTree where
  nodes := t.nodes.filter fun e => e.1 != name :: loc
  workingDirectory := t.workingDirectory
  grounded name' loc' h' := by
    have hg := t.grounded name' loc'
    simp only [node?] at h
    rw [Location.node?_filter_ne (by simp)] at h' ⊢
    grind
  named name' loc' h' := by
    have hn := t.named name' loc'
    rw [Location.node?_filter_ne (by simp)] at h'
    grind
  working := by
    have hw := t.working
    rw [Location.node?_filter_ne (by simp)]
    simp only [node?] at h
    grind

theorem node?_insert (d : t.Directory) (name : Text) (hname : Path.IsName name) (n : Node)
    (h : t.node? (name :: d.location) ≠ some .directory) (l : Location) :
    (t.insert d name hname n h).node? l = if l = name :: d.location then some n else t.node? l :=
  Location.node?_cons (by simp)

theorem node?_erase (name : Text) (loc : Location)
    (h : t.node? (name :: loc) ≠ some .directory) (l : Location) :
    (t.erase name loc h).node? l = if l = name :: loc then none else t.node? l :=
  Location.node?_filter_ne (by simp)

/-! ### Following paths -/

/-- The root of the tree. -/
def root (t : FileTree) : t.Directory := ⟨[], rfl⟩

/-- Where a path begins. -/
def start (t : FileTree) (p : Path) : t.Directory :=
  if p.isAbsolute then t.root else ⟨t.workingDirectory, t.working⟩

/-- The directory at a location. -/
def directoryAt (t : FileTree) (loc : Location) : Except OsError t.Directory :=
  match h : t.node? loc with
  | some .directory => .ok ⟨loc, h⟩
  | some (.file _) => .error .notDirectory
  | none => .error .notFound

/-- The location that a step from a directory leads to.  There is nothing above the root. -/
def Directory.next (d : t.Directory) (step : Text) : Location :=
  if step = Path.here then d.location
  else if step = Path.up then d.location.tail
  else step :: d.location

/-- The directory that steps lead to. -/
def walk (t : FileTree) (d : t.Directory) : List Text → Except OsError t.Directory
  | [] => .ok d
  | step :: steps =>
    match t.directoryAt (d.next step) with
    | .ok d => walk t d steps
    | .error e => .error e

/-- What a path points at: a directory, or a name in a directory. -/
inductive Target (t : FileTree)
  | directory (d : t.Directory)
  | named (d : t.Directory) (name : Text) (isName : Path.IsName name)

/-- What a path points at.  The last step may be a name that is not there. -/
def target (t : FileTree) (p : Path) : Except OsError t.Target :=
  if p.isEmpty then .error .notFound
  else
    match hlast : p.steps.getLast? with
    | none => .ok (.directory (t.start p))
    | some last =>
      if h : last = Path.here ∨ last = Path.up then
        (t.walk (t.start p) p.steps).map .directory
      else
        (t.walk (t.start p) p.steps.dropLast).map
          (.named · last (Path.isName_of_mem_steps (List.mem_of_getLast? hlast) h))

/-- The node that a path leads to. -/
def find (t : FileTree) (p : Path) : Except OsError Node :=
  match t.target p with
  | .error e => .error e
  | .ok (.directory _) => .ok .directory
  | .ok (.named d name _) =>
    match t.node? (name :: d.location) with
    | none => .error .notFound
    | some (.file bytes) => if p.endsInSlash then .error .notDirectory else .ok (.file bytes)
    | some .directory => .ok .directory

/-- The kind of the node that a path leads to, if there is one. -/
def kind? (t : FileTree) (p : Path) : Option Kind :=
  match t.find p with
  | .ok n => some n.kind
  | .error _ => none

/-- The names of what stands in the directory at a location. -/
def namesIn (t : FileTree) (loc : Location) : List Text :=
  Text.sorted <| t.nodes.filterMap fun
    | (name :: around, _) => if around = loc then some name else none
    | ([], _) => none

/-- The names in the directory that a path leads to. -/
def names (t : FileTree) (p : Path) : Except OsError (List Text) :=
  match t.walk (t.start p) p.steps with
  | .error e => .error e
  | .ok d => if p.isEmpty then .error .notFound else .ok (t.namesIn d.location)

/-- The bytes of the file that a path leads to. -/
def read (t : FileTree) (p : Path) : Except ReadError (List UInt8) :=
  match t.find p with
  | .error e => .error (.opening e)
  | .ok .directory => .error (.reading .isDirectory)
  | .ok (.file bytes) => .ok bytes

end FileTree

end MinedRules
