import StaticSite.Project
import StaticSite.Project.Scaffold

/-!
# Creating a project

A new project is a directory with the scaffold in it and a configuration that names the site.
The name may end in slashes, or in dots between slashes, which do not change where it leads but
what is asked of the disk there.
-/

namespace StaticSite.Project

/-- What the system refuses while a project is created. -/
structure CreateTrouble where
  /-- What it refuses to remove of what stands in the place of the project. -/
  removal : Option Disk.Obstacle := none
  /-- Why the project or something in it cannot be made.  What has been made of it is removed
  again. -/
  making : Option Fault := none
  /-- What stays of it in its place where that is refused as well. -/
  remains : Option Disk := none

/-- The name proper of a text that has one part, and how the text ends. -/
def splitName (name : Text) : Text × PathEnding :=
  match name.splitOn '/' with
  | [] => ([], .plain)
  | [base] => (base, .plain)
  | base :: rest => (base, if ['.'] ∈ rest then .dot else .slash)

/-- The text of a name in a directory. -/
def writtenPath (parent : Path) (name : Text) : Text :=
  if parent = [] then '/' :: name else parent.text ++ '/' :: name

/-- The files and directories of a new project. -/
def scaffold (name : Text) : Disk :=
  let rooms := Scaffold.directories.foldl (fun tree room => tree.put [room] .directory) Disk.empty
  let filled := Scaffold.files.foldl
    (fun tree (room, file, content) => tree.put [room, file] (.file (Utf8.encode content))) rooms
  filled.put [configName] (.file (Utf8.encode (Config.forSite name).write))

/-- Whether something stands where a new project should go.  Behind a name that goes on with a
slash only a directory counts. -/
def isTaken (disk : Disk) (place : Path) : PathEnding → Bool
  | .plain => disk.exists? place
  | .slash | .dot => disk.isDirectory place

/-- The text of names in a directory.  A slash at its end is not doubled. -/
def writtenBelow (written : Text) (names : List Text) : Text :=
  written ++ (if written.getLast? = some '/' then [] else ['/']) ++ PathText.join names

/-- The path texts of the files of a new project, whose own path text is given. -/
def furniture (written : Text) : List Text :=
  ([configName] :: Scaffold.files.map fun (room, file, _) => [room, file]).map
    (writtenBelow written)

/-- Makes the directory of a new project in a free place.  Gives the canonical path of the place. -/
def makeRoot (disk : Disk) (path : Path) (ending : PathEnding) : Except Fault (Path × Disk) := do
  let made ← disk.makeDirectory path ending
  .ok (← made.placeOf path, made)

/-- Makes a new project in a free place.  Nothing is made where its files would have path texts
that are too long. -/
def furnish (disk : Disk) (path : Path) (ending : PathEnding) (written name : Text)
    (refusal : Option Fault := none) : Except Fault Disk := do
  let (place, made) ← makeRoot disk path ending
  (furniture written).forM Disk.checkPathText
  Fault.check refusal
  .ok (made.graft place (scaffold name))

/-- Leaves a new project behind that could not be made, with what remains of it if anything does. -/
def abandon (disk : Disk) (path : Path) (ending : PathEnding) (remains : Option Disk) : Disk :=
  match remains, makeRoot disk path ending with
  | some tree, .ok (place, made) => made.graft place tree
  | _, _ => disk

/-- Makes a new project with a name in a directory.  What stands there is an error, or with
`force` removed first, as far as it can be.  Gives the path of the project. -/
def create (disk : Disk) (parent : Path) (name : Text) (force : Bool)
    (trouble : CreateTrouble := {}) : Except SiteError Text × Disk :=
  match PathText.checkName name with
  | .error fault => (.error (.invalidName fault), disk)
  | .ok () =>
      let (base, ending) := splitName name
      let place := parent ++ [base]
      let written := writtenPath parent name
      let finish (disk : Disk) : Except SiteError Text × Disk :=
        match furnish disk place ending written name trouble.making with
        | .ok disk => (.ok written, disk)
        | .error fault => (.error (.io fault), abandon disk place ending trouble.remains)
      match Disk.checkPathText written with
      | .error fault => (.error (.io fault), disk)
      | .ok () =>
          if isTaken disk place ending then
            if force then
              match disk.removeTree place ending trouble.removal with
              | (.error fault, disk) => (.error (.io fault), disk)
              | (.ok (), disk) => finish disk
            else (.error (.projectExists written), disk)
          else finish disk

/-- Makes a new project on a host. -/
def createOn (host : Host) (parent : Path) (name : Text) (force : Bool)
    (trouble : CreateTrouble := {}) : Except SiteError Text × Host :=
  host.afterReplacing (parent ++ [(splitName name).1])
    (create host.disk parent name force trouble)

end StaticSite.Project
