import StaticSite.PathText
import StaticSite.Table

/-!
# The disk

A disk is a finite tree of directories, files and symbolic links, kept as a table from absolute
paths to entries.  A path is the list of names from the root directory down, so path order is
the order of a walk that visits a directory before what it holds and sorts by name.
-/

namespace StaticSite

/-- The names from the root directory down to an entry. -/
abbrev Path := List Text

namespace Path

/-- The path in text: names between slashes, after a slash. -/
def text (path : Path) : Text :=
  '/' :: PathText.join path

/-- The last name, unless the path is the root directory. -/
def fileName? (path : Path) : Option Text :=
  path.getLast?

/-- The directory that holds the entry. -/
def parent (path : Path) : Path :=
  path.dropLast

/-- The path whose names, last name first, are given, and all directories above it. -/
def climb : List Text → List Path
  | [] => [[]]
  | name :: above => (name :: above).reverse :: climb above

/-- The path and all directories above it, nearest first. -/
def ancestors (path : Path) : List Path :=
  climb path.reverse

end Path

/-- What a path names. -/
inductive Entry where
  | directory
  | file (bytes : List UInt8)
  | link (target : Text)
  deriving DecidableEq, Repr

/-- A file tree. -/
structure Disk where
  /-- Everything below the root directory. -/
  entries : Table Path Entry

namespace Disk

/-- The disk that holds only the root directory. -/
def empty : Disk := ⟨.empty⟩

/-- What stands at a path, with no link followed.  The root directory is always there. -/
def entry? (disk : Disk) (path : Path) : Option Entry :=
  if path = [] then some .directory else disk.entries.get? path

/-- The disk with an entry put at a path, whatever stood there before. -/
def put (disk : Disk) (path : Path) (entry : Entry) : Disk :=
  ⟨disk.entries.insert path entry⟩

/-- The disk without what is below a path. -/
def clear (disk : Disk) (path : Path) : Disk :=
  ⟨disk.entries.filter fun other _ => !path.isPrefixOf other || other == path⟩

/-- Whether a path is below another one, and neither one of some paths that are counted from there
nor above one of these. -/
def isPruned (path : Path) (kept : List Path) (other : Path) : Bool :=
  path.isPrefixOf other && other != path && kept.all fun rest => !other.isPrefixOf (path ++ rest)

/-- The disk without what is below a path, except for some paths counted from there and the
directories above these. -/
def prune (disk : Disk) (path : Path) (kept : List Path) : Disk :=
  ⟨disk.entries.filter fun other _ => !isPruned path kept other⟩

/-- The disk without a path and everything below it. -/
def drop (disk : Disk) (path : Path) : Disk :=
  ⟨disk.entries.filter fun other _ => !path.isPrefixOf other⟩

/-- Everything strictly below a path, named from that path on, in the order of a walk. -/
def below (disk : Disk) (path : Path) : List (Path × Entry) :=
  disk.entries.rows.filterMap fun (other, entry) =>
    match path.isPrefixOf? other with
    | some (name :: rest) => some (name :: rest, entry)
    | _ => none

/-- Whether a file stands at a path, with no link followed. -/
def holdsFile (disk : Disk) (path : Path) : Bool :=
  match disk.entry? path with
  | some (.file _) => true
  | _ => false

/-- The disk with a tree placed at a path. -/
def graft (disk : Disk) (path : Path) (tree : Disk) : Disk :=
  ⟨tree.entries.rows.foldl (fun acc row => acc.insert (path ++ row.1) row.2)
    (disk.entries.insert path .directory)⟩

end Disk

end StaticSite
