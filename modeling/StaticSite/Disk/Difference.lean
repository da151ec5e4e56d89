import StaticSite.Disk

/-!
# Differences between disks

What has to be removed from one disk, and then put on it, so that it becomes another.
-/

namespace StaticSite

/-- Whether an entry can become another one where it stands.  The content of a file can change;
everything else has to be removed first. -/
def Entry.canBecome : Entry → Entry → Bool
  | .file _, .file _ => true
  | old, new => old == new

namespace Disk

/-- The entries that are gone or cannot become what stands in their place, each directory behind
what it held. -/
def removed (before after : Disk) : List (Path × Entry) :=
  (before.entries.rows.filter fun (path, old) =>
    (after.entry? path).all fun new => !old.canBecome new).reverse

/-- The entries that are new or changed, each directory before what it holds. -/
def added (before after : Disk) : List (Path × Entry) :=
  after.entries.rows.filter fun (path, new) => before.entry? path != some new

end Disk

end StaticSite
