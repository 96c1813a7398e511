import MinedRules.Disk.Tree

/-!
# Changes of a file tree

Each operation answers as an operating system does and gives the tree that it leaves behind, which
is the old one if the operation is refused.  With these operations a `FileTree` is a `Disk`.
-/

namespace MinedRules

namespace FileTree

/-- Makes a directory. -/
def makeDir (t : FileTree) (p : Path) : Except OsError Unit × FileTree :=
  match t.target p with
  | .error e => (.error e, t)
  | .ok (.directory _) => (.error .alreadyThere, t)
  | .ok (.named d name hname) =>
    if h : t.node? (name :: d.location) = none then
      (.ok (), t.insert d name hname .directory (by simp [h]))
    else (.error .alreadyThere, t)

/-- Makes a file, or writes one anew. -/
def create (t : FileTree) (p : Path) (bytes : List UInt8) : Except OsError Unit × FileTree :=
  match t.target p with
  | .error e => (.error e, t)
  | .ok (.directory _) => (.error .isDirectory, t)
  | .ok (.named d name hname) =>
    if h : p.endsInSlash ∨ t.node? (name :: d.location) = some .directory then
      (.error .isDirectory, t)
    else (.ok (), t.insert d name hname (.file bytes) fun hd => h (.inr hd))

/-- Removes a file. -/
def remove (t : FileTree) (p : Path) : Except OsError Unit × FileTree :=
  match t.target p with
  | .error e => (.error e, t)
  | .ok (.directory _) => (.error .isDirectory, t)
  | .ok (.named d name _) =>
    match h : t.node? (name :: d.location) with
    | none => (.error .notFound, t)
    | some .directory => (.error .isDirectory, t)
    | some (.file _) =>
      if p.endsInSlash then (.error .notDirectory, t)
      else (.ok (), t.erase name d.location (by simp [h]))

/-- The tree with a file moved to another name. -/
def move (t : FileTree) (src dst : t.Directory) (srcName dstName : Text)
    (hdstName : Path.IsName dstName) (bytes : List UInt8)
    (hsrc : t.node? (srcName :: src.location) ≠ some .directory)
    (hdst : t.node? (dstName :: dst.location) ≠ some .directory) : FileTree :=
  (t.insert dst dstName hdstName (.file bytes) hdst).erase srcName src.location <| by
    rw [node?_insert]
    split
    · simp
    · exact hsrc

/-- Moves a file to another path, where it replaces a file. -/
def rename (t : FileTree) (p q : Path) : Except OsError Unit × FileTree :=
  match t.target p, t.target q with
  | .error e, _ => (.error e, t)
  | .ok _, .error e => (.error e, t)
  | .ok (.directory _), .ok _ => (.error .busy, t)
  | .ok (.named _ _ _), .ok (.directory _) => (.error .busy, t)
  | .ok (.named src srcName _), .ok (.named dst dstName hdstName) =>
    match hs : t.node? (srcName :: src.location) with
    | none => (.error .notFound, t)
    | some .directory => (.error .isDirectory, t)
    | some (.file bytes) =>
      if p.endsInSlash ∨ q.endsInSlash then (.error .notDirectory, t)
      else if hd : t.node? (dstName :: dst.location) = some .directory then
        (.error .isDirectory, t)
      else if srcName :: src.location = dstName :: dst.location then (.ok (), t)
      else (.ok (), t.move src dst srcName dstName hdstName bytes (by simp [hs]) hd)

instance : Disk (StateM FileTree) where
  kind? p := return (← get).kind? p
  names p := return (← get).names p
  read p := return (← get).read p
  makeDir p := modifyGet (·.makeDir p)
  create p bytes := modifyGet (·.create p bytes)
  rename p q := modifyGet (·.rename p q)
  remove p := modifyGet (·.remove p)

end FileTree

end MinedRules
