import StaticSite.Disk.Locate

/-!
# Targets inside a project

A directive names its target by a path text counted from the project root.  A target that
climbs out of the project, or leads out of it through a link, is no target.
-/

namespace StaticSite

/-- What a path text names inside a project. -/
structure Target where
  /-- Where the target is, links followed as far as the path can be spelled. -/
  place : Path
  /-- The names from the root to the target between slashes, as markers show them. -/
  logical : Text
  deriving DecidableEq, Repr

namespace Disk

/-- The target of a path text in the project with canonical root `root`.  A target without a
canonical path stays where its names lead. -/
def contain? (disk : Disk) (root : Path) (relative : Text) : Option Target := do
  let names ← PathText.normalize? relative
  let written := root ++ names
  let logical := PathText.join names
  match disk.canonical written with
  | .ok place => if root.isPrefixOf place then some ⟨place, logical⟩ else none
  | .error _ => some ⟨written, logical⟩

end Disk

end StaticSite
